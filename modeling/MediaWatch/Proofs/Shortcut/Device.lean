import MediaWatch.Device
import MediaWatch.Proofs.Text.Cutting

/-! # Flags that follow from each other and flags that exclude each other

Every flag of a device is a search for words. If each word of one search has a word of another search in it, then what
the first one finds, the second finds too. Safari is excluded by a list of words that covers Android and Edge, and of
the words of Blink all but Opera's.
-/

namespace MediaWatch

namespace Text

variable {s t word : Text}

private theorem foldChar_toLower (c : Char) (kelvin : c ≠ '\u212a') (long : c ≠ '\u017f') :
    foldChar c.toLower = c.toLower := by
  by_cases upper : c.val ≥ 'A'.val ∧ c.val ≤ 'Z'.val
  · have most : c.toNat ≤ 90 := upper.2
    have shifted := toNat_toLower upper
    have ascii : c.toLower.toNat < 0x80 := by omega
    have apart : ∀ d : Char, 0x80 ≤ d.toNat → c.toLower ≠ d := by
      rintro d behind rfl
      omega
    rw [foldChar, if_neg (apart _ (by decide)), if_neg (apart _ (by decide)), toLower_toLower]
  · have same : c.toLower = c := dif_neg upper
    rw [same, foldChar, if_neg kelvin, if_neg long, same]

private theorem foldChar_foldChar (c : Char) : foldChar (foldChar c) = foldChar c := by
  by_cases kelvin : c = '\u212a'
  · subst kelvin
    decide
  by_cases long : c = '\u017f'
  · subst long
    decide
  have folded : foldChar c = c.toLower := by rw [foldChar, if_neg kelvin, if_neg long]
  rw [folded, foldChar_toLower c kelvin long]

private theorem isSome_afterFolded? : (afterFolded? word t).isSome ↔ word <+: t.map foldChar := by
  induction word generalizing t with
  | nil => simp [afterFolded?]
  | cons p ps ih =>
    cases t with
    | nil => simp [afterFolded?]
    | cons c rest =>
      rw [afterFolded?, List.map_cons, List.cons_prefix_cons]
      split
      · next same => rw [ih, same, eq_self, true_and]
      · next other => exact iff_of_false nofun fun both => other both.1.symm

/-- To mention a word is to have it as a part after folding. -/
theorem mentions_iff : mentions word t ↔ word <:+: t.map foldChar := by
  induction t with
  | nil => rw [mentions, isSome_afterFolded?, List.map_nil, List.prefix_nil, List.infix_nil]
  | cons c rest ih => rw [mentions, Bool.or_eq_true, isSome_afterFolded?, ih, List.map_cons, List.infix_cons_iff]

private theorem isSome_after? : (after? s t).isSome ↔ s <+: t := by
  rw [← not_iff_not, Bool.not_eq_true, Option.isSome_eq_false_iff, Option.isNone_iff_eq_none, after?_eq_none]

/-- To contain a word is to have it as a part. -/
theorem contains_iff : contains word t ↔ word <:+: t := by
  induction t with
  | nil => rw [contains, isSome_after?, List.prefix_nil, List.infix_nil]
  | cons c rest ih => rw [contains, Bool.or_eq_true, isSome_after?, ih, List.infix_cons_iff]

private theorem mentions_of_contains (mentioned : mentions word s) (contained : contains s t) : mentions word t := by
  rw [mentions_iff] at mentioned ⊢
  exact mentioned.trans ((contains_iff.mp contained).map foldChar)

private theorem mentions_trans (mentioned : mentions word s) (amid : mentions s t) : mentions word t := by
  rw [mentions_iff] at mentioned amid ⊢
  have folded := amid.map foldChar
  rw [List.map_map, Function.comp_def, funext foldChar_foldChar] at folded
  exact mentioned.trans folded

end Text

namespace Device

variable {words others : List String} {userAgent : Text}

/-- Whether each of the other words has one of the words in it. -/
def covers (words others : List String) : Bool := others.all fun other => mentionsAny words other.toList

/-- Where one of some words is found, a word is mentioned if they all have one in them and
being found passes on to it. -/
theorem mentionsAny_of_any {found : String → Bool} (cover : covers words others)
    (passes : ∀ word other : String, Text.mentions word.toList other.toList → found other →
      Text.mentions word.toList userAgent)
    (any : others.any found) : mentionsAny words userAgent := by
  obtain ⟨other, among, amid⟩ := List.any_eq_true.mp any
  obtain ⟨word, listed, inside⟩ := List.any_eq_true.mp (List.all_eq_true.mp cover other among)
  exact List.any_eq_true.mpr ⟨word, listed, passes word other inside amid⟩

private theorem mentionsAny_of_mentionsAny (cover : covers words others) (mentioned : mentionsAny others userAgent) :
    mentionsAny words userAgent :=
  mentionsAny_of_any cover (fun _ _ => Text.mentions_trans) mentioned

private theorem mentionsAny_of_containsAny (cover : covers words others) (contained : containsAny others userAgent) :
    mentionsAny words userAgent :=
  mentionsAny_of_any cover (fun _ _ => Text.mentions_of_contains) contained

private theorem mentionsAny_append (words others : List String) (userAgent : Text) :
    mentionsAny (words ++ others) userAgent = (mentionsAny words userAgent || mentionsAny others userAgent) :=
  List.any_append

/-- On iOS and on Android a device is mobile, and Safari is on neither Android nor Edge, nor on Blink unless it is
Opera that is mentioned. -/
theorem flags_consistent (userAgent : Text) :
    let d := ofUserAgent userAgent
    (d.ios → d.mobile) ∧ (d.android → d.mobile) ∧
      (d.safari → d.android = false ∧ d.edge = false ∧ d.blink = Text.mentions "opr/".toList userAgent) := by
  refine ⟨mentionsAny_of_containsAny (by decide), mentionsAny_of_mentionsAny (by decide), fun safari => ?_⟩
  obtain ⟨-, unforeign⟩ := (Bool.and_eq_true ..).to_iff.mp safari
  rw [Bool.not_eq_true'] at unforeign
  have absent (words : List String) (cover : covers foreignSafariWords words) : mentionsAny words userAgent = false :=
    Bool.eq_false_iff.mpr fun mentioned => Bool.eq_false_iff.mp unforeign (mentionsAny_of_mentionsAny cover mentioned)
  refine ⟨absent _ (by decide), Bool.eq_false_iff.mpr fun edge => ?_, ?_⟩
  · exact Bool.eq_false_iff.mp unforeign (mentionsAny_of_containsAny (by decide) edge)
  · have chrome := absent ["chrome/", "chromium/", "crios/"] (by decide)
    have blink := mentionsAny_append ["chrome/", "chromium/", "crios/"] ["opr/"] userAgent
    rw [chrome, Bool.false_or] at blink
    exact blink.trans (Bool.or_false _)

/-- A tablet with Safari. -/
def tablet : Text := "Mozilla/5.0 (iPad; CPU OS 16_5) AppleWebKit/605.1.15 Version/16.5 Safari/604.1".toList

theorem flags_consistent_tablet :
    let d := ofUserAgent tablet
    (d.ios ∧ d.mobile) ∧ d.safari ∧ d.android = false ∧ d.edge = false ∧ d.blink = false := by
  obtain ⟨handheld, -, alone⟩ := flags_consistent tablet
  have ios : (ofUserAgent tablet).ios := by decide +kernel
  have safari : (ofUserAgent tablet).safari := by decide +kernel
  obtain ⟨android, edge, blink⟩ := alone safari
  exact ⟨⟨ios, handheld ios⟩, safari, android, edge, blink.trans (by decide +kernel)⟩

/-- A desktop with Opera, which does not mention that it descends from Chrome. -/
def operaDesktop : Text :=
  "Mozilla/5.0 (X11; Linux x86_64) AppleWebKit/537.36 (KHTML, like Gecko) Safari/537.36 OPR/60.0".toList

/-- Opera is taken for Safari, while it runs on Blink. -/
theorem safari_and_blink : ¬ ∀ userAgent, let d := ofUserAgent userAgent; d.safari → d.blink = false := by
  intro apart
  have safari : (ofUserAgent operaDesktop).safari := by decide +kernel
  have blink : (ofUserAgent operaDesktop).blink := by decide +kernel
  exact Bool.eq_false_iff.mp (apart operaDesktop safari) blink

end Device

end MediaWatch

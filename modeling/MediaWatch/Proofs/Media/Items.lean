import MediaWatch.Proofs.Media.Grammar

/-! # How any item is read

An item need not be well-formed to be read. A keyword is taken off its front if a space stands behind it, what is left
is cut at its words `and`, and each piece is a media type, a feature in parentheses, or nothing that can hold.
-/

namespace MediaWatch.Media

/-- The text of a media type. -/
structure IsTypeText (t : Text) : Prop where
  some : t ≠ []
  characters : ∀ c ∈ t, isTypeChar c

/-- What is in parentheses up to its first colon, or all of it if there is none. -/
def featureName (inner : Text) : Text := inner.takeWhile (· != ':')

/-- A feature in parentheses, with a name that is not blank. -/
def IsFeatureText (t : Text) : Prop := ∃ inner, t = '(' :: (inner ++ [')']) ∧ (featureName inner).trim ≠ []

/-- A media type or a feature, between blanks. -/
def IsPartText (t : Text) : Prop := IsTypeText t.trim ∨ IsFeatureText t.trim

/-- What is left of an item when a keyword and the blanks behind it are taken off its front, if one is there. -/
inductive HasBody (t : Text) : Option Lead → Text → Prop where
  | bare (free : ∀ l : Lead, ¬ l.text <+: t.trim) : HasBody t none t.trim
  | led (l : Lead) (body : Text) (split : t.trim = l.text ++ body) (starts : ∀ c ∈ body.head?, Text.isBlank c = false) :
      HasBody t (some l) body

variable {t inner body : Text} {lead : Option Lead}

/-! ## Parts -/

theorem parenthesised?_eq_some : parenthesised? t = some inner ↔ t = '(' :: (inner ++ [')']) := by
  have closing : ∀ rest : Text, Text.before? [')'] rest = some inner ↔ rest = inner ++ [')'] := by
    intro rest
    rw [Text.before?, Option.map_eq_some_iff]
    constructor
    · rintro ⟨front, found, rfl⟩
      have split := List.isPrefixOf?_eq_some_iff_append_eq.mp found
      rw [← List.reverse_reverse rest, ← split]
      simp
    · rintro rfl
      exact ⟨inner.reverse, List.isPrefixOf?_eq_some_iff_append_eq.mpr (by simp), List.reverse_reverse inner⟩
  rw [parenthesised?, Option.bind_eq_some_iff]
  constructor
  · rintro ⟨rest, opened, closed⟩
    rw [← List.isPrefixOf?_eq_some_iff_append_eq.mp opened, (closing rest).mp closed]
    rfl
  · rintro rfl
    exact ⟨inner ++ [')'], List.isPrefixOf?_eq_some_iff_append_eq.mpr rfl, (closing _).mpr rfl⟩

/-- A feature's name is read up to the first colon. -/
theorem featureName_eq (inner : Text) : ((Text.cutAt? [':'] inner).map Prod.fst).getD inner = featureName inner := by
  induction inner with
  | nil => rfl
  | cons c rest ih =>
    by_cases colon : c = ':'
    · subst colon
      rfl
    · have apart : Text.after? [':'] (c :: rest) = none := by
        simp [Text.after?, List.isPrefixOf?, Ne.symm colon]
      have grown : featureName (c :: rest) = c :: featureName rest := by simp [featureName, colon]
      rw [Text.cutAt?, apart, grown, ← ih]
      cases Text.cutAt? [':'] rest <;> rfl

private theorem ofFeature_eq_invalid : Part.ofFeature inner = .invalid ↔ (featureName inner).trim = [] := by
  rw [Part.ofFeature, ← featureName_eq]
  cases Text.cutAt? [':'] inner <;> simp

private theorem isTypeText_iff : IsTypeText t ↔ (!t.isEmpty && t.all isTypeChar) = true := by
  simp only [Bool.and_eq_true, Bool.not_eq_true', List.isEmpty_eq_false_iff, List.all_eq_true]
  constructor
  · rintro ⟨inhabited, characters⟩
    exact ⟨inhabited, characters⟩
  · rintro ⟨inhabited, characters⟩
    exact ⟨inhabited, characters⟩

/-- No media type is in parentheses. -/
theorem not_isTypeText_of_opened {rest : Text} : ¬ IsTypeText ('(' :: rest) := by
  intro type
  exact absurd (type.characters '(' List.mem_cons_self) (by decide)

/-- A text is read as a part exactly if it is one. -/
theorem ofText_eq_invalid : Part.ofText t = .invalid ↔ ¬ IsPartText t := by
  rw [Part.ofText, IsPartText, IsFeatureText]
  cases enclosed : parenthesised? t.trim with
  | some inner =>
    have whole := parenthesised?_eq_some.mp enclosed
    have only : (∃ other, t.trim = '(' :: (other ++ [')']) ∧ (featureName other).trim ≠ []) ↔
        (featureName inner).trim ≠ [] := by
      constructor
      · rintro ⟨other, split, named⟩
        obtain rfl : inner = other := Option.some.inj (enclosed.symm.trans (parenthesised?_eq_some.mpr split))
        exact named
      · exact fun named => ⟨inner, whole, named⟩
    rw [only, or_iff_right (whole ▸ not_isTypeText_of_opened), not_not]
    exact ofFeature_eq_invalid
  | none =>
    have unclosed : ¬ ∃ inner, t.trim = '(' :: (inner ++ [')']) ∧ (featureName inner).trim ≠ [] := by
      rintro ⟨inner, split, -⟩
      rw [parenthesised?_eq_some.mpr split] at enclosed
      contradiction
    rw [or_iff_left unclosed, isTypeText_iff]
    show (if (!t.trim.isEmpty && t.trim.all isTypeChar) = true then _ else _) = _ ↔ _
    split
    · next typed => simp only [typed, reduceCtorEq, not_true]
    · next untyped => exact iff_of_true rfl untyped

/-! ## Small letters -/

theorem isTypeChar_toLower (c : Char) : isTypeChar c.toLower = isTypeChar c := by
  rw [isTypeChar, isTypeChar, Text.isAlphanum_toLower, decide_eq_decide.mpr (Text.toLower_eq_iff (by decide))]

private theorem isTypeText_lowerAscii : IsTypeText (Text.lowerAscii t) ↔ IsTypeText t := by
  have char : isTypeChar ∘ Char.toLower = isTypeChar := funext isTypeChar_toLower
  rw [isTypeText_iff, isTypeText_iff, Text.lowerAscii, List.isEmpty_map, List.all_map, char]

private theorem featureName_lowerAscii (inner : Text) :
    featureName (Text.lowerAscii inner) = Text.lowerAscii (featureName inner) := by
  have same : (· != ':') ∘ Char.toLower = (· != ':') := by
    funext c
    rw [Function.comp_apply, Bool.eq_iff_iff, bne_iff_ne, bne_iff_ne]
    exact not_congr (Text.toLower_eq_iff (by decide))
  rw [featureName, featureName, Text.lowerAscii, List.takeWhile_map, same]
  rfl

/-- Parentheses around a text stay around its small letters. -/
theorem exists_enclosed_lowerAscii {small : Text} :
    Text.lowerAscii t = '(' :: (small ++ [')']) ↔
      ∃ inner, t = '(' :: (inner ++ [')']) ∧ Text.lowerAscii inner = small := by
  constructor
  · intro split
    obtain ⟨c, rest, rfl, opening, later⟩ := List.map_eq_cons_iff.mp split
    obtain ⟨inner, last, rfl, letters, ending⟩ := List.map_eq_append_iff.mp later
    obtain ⟨d, none, rfl, closing, empty⟩ := List.map_eq_cons_iff.mp ending
    obtain rfl := List.map_eq_nil_iff.mp empty
    obtain rfl : c = '(' := (Text.toLower_eq_iff (by decide)).mp opening
    obtain rfl : d = ')' := (Text.toLower_eq_iff (by decide)).mp closing
    exact ⟨inner, rfl, letters⟩
  · rintro ⟨inner, rfl, rfl⟩
    simp only [Text.lowerAscii, List.map_cons, List.map_append, List.map_nil]
    rfl

private theorem isFeatureText_lowerAscii : IsFeatureText (Text.lowerAscii t) ↔ IsFeatureText t := by
  have named : ∀ inner, (featureName (Text.lowerAscii inner)).trim = [] ↔ (featureName inner).trim = [] := by
    intro inner
    rw [featureName_lowerAscii, ← Text.lowerAscii_trim]
    exact List.map_eq_nil_iff
  constructor
  · rintro ⟨small, split, name⟩
    obtain ⟨inner, whole, rfl⟩ := exists_enclosed_lowerAscii.mp split
    exact ⟨inner, whole, mt (named inner).mpr name⟩
  · rintro ⟨inner, whole, name⟩
    exact ⟨Text.lowerAscii inner, exists_enclosed_lowerAscii.mpr ⟨inner, whole, rfl⟩, mt (named inner).mp name⟩

/-- Small letters make no part of a text that is none. -/
theorem isPartText_lowerAscii : IsPartText (Text.lowerAscii t) ↔ IsPartText t := by
  rw [IsPartText, IsPartText, ← Text.lowerAscii_trim, isTypeText_lowerAscii, isFeatureText_lowerAscii]

/-! ## Items -/

/-- A keyword in front of an item leaves a body. -/
theorem exists_of_front (l : Lead) (front : l.text <+: t.trim) :
    ∃ (l' : Lead) (body : Text), l'.negates = l.negates ∧ HasBody t (some l') body := by
  obtain ⟨rest, split⟩ := front
  obtain ⟨a, body, rfl, blank, starts, -⟩ := Text.exists_blankRun rest
  obtain ⟨negates, word, blanks, same, blank'⟩ := l
  refine ⟨⟨negates, word, blanks ++ a, same, ?_⟩, body, rfl, .led _ _ ?_ starts⟩
  · exact List.forall_mem_append.mpr ⟨blank', blank⟩
  · rw [← split]
    simp only [Lead.text, List.append_assoc, List.cons_append]

/-- Any item has a body. -/
theorem exists_hasBody (t : Text) : ∃ lead body, HasBody t lead body := by
  by_cases free : ∀ l : Lead, ¬ l.text <+: t.trim
  · exact ⟨none, t.trim, .bare free⟩
  · push Not at free
    obtain ⟨l, front⟩ := free
    obtain ⟨l', body, -, led⟩ := exists_of_front l front
    exact ⟨some l', body, led⟩

/-- Behind a keyword there is something. -/
theorem closed_of_led (l : Lead) (split : t.trim = l.text ++ body) (starts : ∀ c ∈ body.head?, Text.isBlank c = false) :
    Text.Closed body := by
  obtain ⟨-, -, -, -, -, none | closed⟩ := Text.exists_trim t
  · rw [none] at split
    simp [Lead.text] at split
  · rw [split] at closed
    by_cases none : body = []
    · obtain ⟨c, last⟩ := Option.isSome_iff_exists.mp (List.getLast?_isSome.mpr (List.cons_ne_nil ' ' l.blanks))
      have blank : Text.isBlank c := by
        rcases List.mem_cons.mp (List.mem_of_getLast? last) with rfl | mem
        · decide
        · exact l.blank c mem
      have solid := closed.ends c (by rw [none, List.append_nil, Lead.text, List.getLast?_append_cons]; exact last)
      rw [blank] at solid
      contradiction
    · refine ⟨none, starts, fun c last => closed.ends c ?_⟩
      rwa [List.getLast?_append_of_ne_nil _ none]

/-- Where nothing is left of an item, it is one part that never holds. -/
theorem parts_lowerAscii (t : Text) :
    (if (Text.lowerAscii t).isEmpty then [.invalid] else (Text.cut Text.andWord (Text.lowerAscii t)).map Part.ofText) =
      (Text.cut Text.andWord t).map fun part => Part.ofText (Text.lowerAscii part) := by
  cases t with
  | nil => rfl
  | cons c rest =>
    have small := Text.cut_spaced_lowerAscii "and".toList (c :: rest)
    rw [if_neg (by simp [Text.lowerAscii]), Text.andWord, small, List.map_map]
    rfl

/-- The keyword that is taken off the front of an item leaves its body. -/
theorem HasBody.keyword (has : HasBody t lead body) :
    Query.keyword (Text.lowerAscii t.trim) = (lead.any (·.negates), Text.lowerAscii body) := by
  cases has with
  | bare free =>
    apply isBare_of_absent
    intro k mem x u split same
    rcases List.mem_pair.mp mem with rfl | rfl
    · exact free ⟨true, x, [], same, List.forall_mem_nil _⟩ ⟨u, by simp [Lead.text, split]⟩
    · exact free ⟨false, x, [], same, List.forall_mem_nil _⟩ ⟨u, by simp [Lead.text, split]⟩
  | led l _ split starts =>
    rw [split]
    exact keyword_lead l (closed_of_led l split starts)

/-- An item is read as the parts of its body, which a `not` in front negates. -/
theorem HasBody.ofText (has : HasBody t lead body) :
    Query.ofText t =
      ⟨lead.any (·.negates), (Text.cut Text.andWord body).map fun part => Part.ofText (Text.lowerAscii part)⟩ := by
  rw [Query.ofText, has.keyword, ← parts_lowerAscii]

/-- A descriptor holds if one of the items between its commas does, whatever they are. -/
theorem satisfy_items (f : Features) {d : Text} (some : d.trim ≠ []) :
    f.satisfy d = (Text.pieces ',' d).any fun item => (Query.ofText item).holds f := by
  have trimmed : ∀ items : List Text,
      (items.any fun item => (Query.ofText item).holds f) =
        (items.map Text.trim).any fun item => (Query.ofText item).holds f := by
    intro items
    simp only [List.any_map, Function.comp_def, query_trim]
  rw [satisfy_eq f some, Text.cut_comma_trim, Text.pieces_trim, ← trimmed]

end MediaWatch.Media

import MediaWatch.Proofs.Media.Items
import MediaWatch.Proofs.Text.Respaced
import Mathlib.Data.List.Forall2

/-! # Which blanks count

Two descriptors that differ in their blanks outside parentheses alone come to the same, but for items of two kinds: a
keyword is taken off the front only if the first blank behind it is a space, and what begins with a parenthesis and ends
with one is read as one feature, even if the first is closed before the end.
-/

namespace MediaWatch.Media

/-- An item with a keyword in front that has another blank than a space behind it. -/
def IsUnspaced (item : Text) : Prop :=
  ∃ k ∈ ["not".toList, "only".toList], ∃ x c u, item.trim = x ++ c :: u ∧
    Text.sameAsciiLetters x k ∧ Text.isBlank c ∧ c ≠ ' '

/-- A part between parentheses the first of which is closed before the end. -/
def IsOverclosed (part : Text) : Prop := ∃ inner, part.trim = '(' :: (inner ++ [')']) ∧ Text.surfaces 1 inner

/-- An item that is read by its exact blanks. -/
def IsDelicate (item : Text) : Prop :=
  IsUnspaced item ∨ ∃ lead body, HasBody item lead body ∧ ∃ part ∈ Text.cut Text.andWord body, IsOverclosed part

/-- The items of two descriptors, side by side. -/
def itemPairs (s t : Text) : List (Text × Text) := (Text.pieces ',' s).zip (Text.pieces ',' t)

/-- Two items one of which is read by its exact blanks. -/
def IsDelicatePair (pair : Text × Text) : Prop := IsDelicate pair.1 ∨ IsDelicate pair.2

variable {depth : Nat} {f : Features} {inner p q s t body : Text} {lead : Option Lead} {l : Lead}

/-! ## Parts -/

private theorem ofText_trim (t : Text) : Part.ofText t.trim = Part.ofText t := by
  rw [Part.ofText, Part.ofText, Text.trim_trim]

/-- A text in parentheses is alike to such a text alone. -/
theorem exists_enclosed (alike : Text.Respaced depth ('(' :: (inner ++ [')'])) q) :
    ∃ other, q = '(' :: (other ++ [')']) ∧ Text.Respaced (depth + 1) inner other := by
  have opening : Text.isBlank '(' = false := by decide
  have closing : Text.isBlank ')' = false := by decide
  obtain ⟨rest, rfl, inside⟩ := alike.solid_front (List.forall_mem_singleton.mpr opening)
  obtain ⟨other, last, rfl, before, -, behind⟩ := inside.split closing
  rw [behind.eq_nil]
  exact ⟨other, rfl, before⟩

/-- A text with blanks in it that is not in parentheses is no part. -/
theorem ofText_of_broken (closed : Text.Closed t) (unenclosed : ¬ ∃ inner, t = '(' :: (inner ++ [')']))
    (broken : ¬ ∀ c ∈ t, Text.isBlank c = false) : Part.ofText (Text.lowerAscii t) = .invalid := by
  rw [ofText_eq_invalid, isPartText_lowerAscii, IsPartText, Text.trim_closed closed]
  rintro (type | ⟨inner, whole, -⟩)
  · exact broken fun c mem => (solid_of_isTypeChar (type.characters c mem)).1
  · exact unenclosed ⟨inner, whole⟩

/-- Parts that are alike are read alike, if a parenthesis in front is open up to the end. -/
theorem ofText_respaced (alike : Text.Respaced depth p q) (whole : ¬ IsOverclosed p) :
    Part.ofText (Text.lowerAscii p) = Part.ofText (Text.lowerAscii q) := by
  have trimmed := alike.trim
  rw [← ofText_trim (Text.lowerAscii p), ← ofText_trim (Text.lowerAscii q), ← Text.lowerAscii_trim,
    ← Text.lowerAscii_trim]
  obtain ⟨-, -, -, -, -, none | closed⟩ := Text.exists_trim p
  · rw [none] at trimmed ⊢
    rw [trimmed.eq_nil]
  · obtain ⟨-, -, -, -, -, none | closed'⟩ := Text.exists_trim q
    · rw [none] at trimmed
      exact absurd trimmed.symm.eq_nil closed.some
    · by_cases enclosed : ∃ inner, p.trim = '(' :: (inner ++ [')'])
      · obtain ⟨inner, enclosed⟩ := enclosed
        rw [enclosed] at trimmed
        obtain ⟨other, enclosed', inside⟩ := exists_enclosed trimmed
        have open' : Text.surfaces 1 inner = false := Bool.eq_false_iff.mpr fun above => whole ⟨inner, enclosed, above⟩
        rw [enclosed, enclosed', inside.eq_of_inside (Text.surfaces_mono (Nat.le_add_left 1 depth) open')]
      · by_cases solid : ∀ c ∈ p.trim, Text.isBlank c = false
        · rw [trimmed.eq_of_solid solid]
        · rw [ofText_of_broken closed enclosed solid, ofText_of_broken closed']
          · rintro ⟨inner, enclosed'⟩
            rw [enclosed'] at trimmed
            obtain ⟨other, here, -⟩ := exists_enclosed trimmed.symm
            exact enclosed ⟨other, here⟩
          · intro solid'
            rw [trimmed.symm.eq_of_solid solid'] at solid'
            exact solid solid'

/-! ## Items -/

/-- Where a keyword is taken off an item, it is taken off any that is alike, if it has a space behind it there. -/
theorem HasBody.led_respaced (alike : Text.Respaced depth s t) (spaced : ¬ IsUnspaced t)
    (has : HasBody s (some l) body) :
    ∃ l' other deeper, HasBody t (some l') other ∧ l'.negates = l.negates ∧ Text.Respaced deeper body other := by
  cases has with | led _ _ split starts
  have trimmed := alike.trim
  rw [split, Lead.text, List.append_assoc] at trimmed
  obtain ⟨rest, whole, behind⟩ := trimmed.solid_front fun c mem => (l.solid.2 c mem).1
  obtain ⟨a, b, u, v, here, rfl, both, first, second, -, solid, solid', later⟩ := behind.front
  have spaces : ∀ c ∈ ' ' :: l.blanks, Text.isBlank c := List.forall_mem_cons.mpr ⟨by decide, l.blank⟩
  obtain rfl : body = u := by
    rw [← Text.trimStart_append spaces starts, here, Text.trimStart_append first solid]
  obtain ⟨c, b, rfl⟩ : ∃ c rest, b = c :: rest := by
    apply List.exists_cons_of_ne_nil
    intro none
    rw [both.mpr none, List.nil_append] at here
    have space := solid ' ' (by rw [← here]; rfl)
    exact absurd space (by decide)
  obtain ⟨blank, others⟩ := List.forall_mem_cons.mp second
  -- Whatever other blank stood here, the keyword would not be taken off the second item.
  obtain rfl : c = ' ' := by
    by_contra other
    refine spaced ⟨if l.negates then "not".toList else "only".toList, ?_, l.word, c, b ++ v, whole,
      l.same, blank, other⟩
    split
    · exact List.mem_pair.mpr (.inl rfl)
    · exact List.mem_pair.mpr (.inr rfl)
  refine ⟨{ l with blanks := b, blank := others }, v, _, .led _ _ ?_ solid', rfl, later⟩
  exact whole.trans (List.append_assoc ..).symm

/-- Items that are alike have bodies that are alike, if a keyword in front of either has a space behind it. -/
theorem HasBody.respaced (alike : Text.Respaced depth s t) (spaced : ¬ IsUnspaced s) (spaced' : ¬ IsUnspaced t)
    (has : HasBody s lead body) :
    ∃ lead' other deeper, HasBody t lead' other ∧ lead'.any (·.negates) = lead.any (·.negates) ∧
      Text.Respaced deeper body other := by
  cases has with
  | led l _ split starts =>
    obtain ⟨l', other, deeper, has', same, rest⟩ := HasBody.led_respaced alike spaced' (.led l _ split starts)
    exact ⟨some l', other, deeper, has', same, rest⟩
  | bare free =>
    obtain ⟨lead', other, has'⟩ := exists_hasBody t
    cases has' with
    | bare free' => exact ⟨none, t.trim, depth, .bare free', rfl, alike.trim⟩
    | led l' _ split starts =>
      obtain ⟨l, body, -, has, -⟩ := HasBody.led_respaced alike.symm spaced (.led l' _ split starts)
      cases has with | led _ _ split' _
      exact absurd ⟨body, split'.symm⟩ (free l)

/-- Items that are alike are read alike. -/
theorem query_respaced (alike : Text.Respaced depth s t) (sturdy : ¬ IsDelicate s) (sturdy' : ¬ IsDelicate t) :
    Query.ofText s = Query.ofText t := by
  rw [IsDelicate, not_or] at sturdy sturdy'
  obtain ⟨lead, body, has⟩ := exists_hasBody s
  obtain ⟨lead', other, deeper, has', same, rest⟩ := has.respaced alike sturdy.1 sturdy'.1
  have whole : ∀ part ∈ Text.cut Text.andWord body, ¬ IsOverclosed part := by
    intro part mem overclosed
    exact sturdy.2 ⟨lead, body, has, part, mem, overclosed⟩
  have parts : List.Forall₂ (fun p q => Part.ofText (Text.lowerAscii p) = Part.ofText (Text.lowerAscii q))
      (Text.cut Text.andWord body) (Text.cut Text.andWord other) := by
    refine List.Forall₂.imp ?_ ((List.forall₂_and_left _ _).mpr ⟨whole, (rest.cut Text.isKeyword_and).forall₂⟩)
    rintro p q ⟨closed, depth, alike⟩
    exact ofText_respaced alike closed
  rw [has.ofText, has'.ofText, same]
  congr 1
  rw [← List.forall₂_eq_eq_eq, List.forall₂_map_left_iff, List.forall₂_map_right_iff]
  exact parts

/-! ## Deciding which items are delicate -/

private theorem isUnspaced_iff : IsUnspaced t ↔ ∃ k ∈ ["not".toList, "only".toList],
    Text.sameAsciiLetters (t.trim.take k.length) k ∧
      (t.trim.drop k.length).head?.any (fun c => Text.isBlank c && c != ' ') := by
  refine exists_congr fun k => and_congr_right fun _ => ?_
  constructor
  · rintro ⟨x, c, u, split, same, blank, other⟩
    rw [split, ← Text.length_of_sameAsciiLetters same, List.take_left, List.drop_left]
    exact ⟨same, by simp [blank, other]⟩
  · rintro ⟨same, first⟩
    obtain ⟨c, head, spaces⟩ := (Option.any_eq_true _ _).mp first
    obtain ⟨u, later⟩ := List.head?_eq_some_iff.mp head
    rw [Bool.and_eq_true, bne_iff_ne] at spaces
    refine ⟨_, c, u, ?_, same, spaces⟩
    rw [← later, List.take_append_drop]

private theorem isOverclosed_iff : IsOverclosed t ↔ (parenthesised? t.trim).any (Text.surfaces 1) := by
  simp only [Option.any_eq_true, parenthesised?_eq_some, IsOverclosed]

private theorem isOverclosed_lowerAscii : IsOverclosed (Text.lowerAscii t) ↔ IsOverclosed t := by
  rw [IsOverclosed, IsOverclosed, ← Text.lowerAscii_trim]
  constructor
  · rintro ⟨small, whole, above⟩
    obtain ⟨inner, enclosed, rfl⟩ := exists_enclosed_lowerAscii.mp whole
    rw [Text.surfaces_lowerAscii] at above
    exact ⟨inner, enclosed, above⟩
  · rintro ⟨inner, enclosed, above⟩
    rw [← Text.surfaces_lowerAscii] at above
    exact ⟨Text.lowerAscii inner, exists_enclosed_lowerAscii.mpr ⟨inner, enclosed, rfl⟩, above⟩

instance (item : Text) : Decidable (IsUnspaced item) := decidable_of_iff _ isUnspaced_iff.symm

instance (part : Text) : Decidable (IsOverclosed part) := decidable_of_iff _ isOverclosed_iff.symm

private theorem isDelicate_iff : IsDelicate t ↔
    IsUnspaced t ∨ ∃ part ∈ Text.cut Text.andWord (Query.keyword (Text.lowerAscii t.trim)).2, IsOverclosed part := by
  have parts : ∀ lead body, HasBody t lead body →
      ((∃ part ∈ Text.cut Text.andWord (Query.keyword (Text.lowerAscii t.trim)).2, IsOverclosed part) ↔
        ∃ part ∈ Text.cut Text.andWord body, IsOverclosed part) := by
    intro lead body has
    rw [has.keyword, Text.andWord, Text.cut_spaced_lowerAscii]
    simp only [List.mem_map, exists_exists_and_eq_and, isOverclosed_lowerAscii]
  refine or_congr_right ?_
  constructor
  · rintro ⟨lead, body, has, overclosed⟩
    exact (parts lead body has).mpr overclosed
  · intro overclosed
    obtain ⟨lead, body, has⟩ := exists_hasBody t
    exact ⟨lead, body, has, (parts lead body has).mp overclosed⟩

instance (item : Text) : Decidable (IsDelicate item) := decidable_of_iff _ isDelicate_iff.symm

instance (pair : Text × Text) : Decidable (IsDelicatePair pair) := inferInstanceAs (Decidable (_ ∨ _))

/-! ## Descriptors -/

private theorem holds_of_blank (f : Features) (blank : t.trim = []) : (Query.ofText t).holds f = false := by
  rw [← query_trim, blank]
  rfl

/-- A blank descriptor has no items that are not blank. -/
theorem blank_of_mem_pieces {item : Text} (blank : s.trim = []) (mem : item ∈ Text.pieces ',' s) : item.trim = [] := by
  have entry := List.mem_map_of_mem (f := Text.trim) mem
  rw [← Text.pieces_trim, blank] at entry
  exact List.mem_singleton.mp entry

/-- Among pairs some satisfy a condition if some do of either kind. -/
theorem exists_pair_iff {pairs : List (Text × Text)} {P : Text × Text → Prop} :
    (∃ pair ∈ pairs, P pair) ↔
      (∃ pair ∈ pairs, ¬ IsDelicatePair pair ∧ P pair) ∨ ∃ pair ∈ pairs, IsDelicatePair pair ∧ P pair := by
  constructor
  · rintro ⟨pair, mem, here⟩
    by_cases delicate : IsDelicatePair pair
    · exact .inr ⟨pair, mem, delicate, here⟩
    · exact .inl ⟨pair, mem, delicate, here⟩
  · rintro (⟨pair, mem, -, here⟩ | ⟨pair, mem, -, here⟩)
    · exact ⟨pair, mem, here⟩
    · exact ⟨pair, mem, here⟩

private theorem satisfy_first (f : Features) (some : s.trim ≠ [])
    (long : (Text.pieces ',' s).length = (Text.pieces ',' t).length) :
    f.satisfy s ↔ ∃ pair ∈ itemPairs s t, (Query.ofText pair.1).holds f := by
  have firsts : (itemPairs s t).map Prod.fst = Text.pieces ',' s := List.map_fst_zip (Nat.le_of_eq long)
  rw [satisfy_items f some, ← firsts, List.any_map, List.any_eq_true]
  rfl

private theorem satisfy_second (f : Features) (some : t.trim ≠ [])
    (long : (Text.pieces ',' s).length = (Text.pieces ',' t).length) :
    f.satisfy t ↔ ∃ pair ∈ itemPairs s t, (Query.ofText pair.2).holds f := by
  have seconds : (itemPairs s t).map Prod.snd = Text.pieces ',' t := List.map_snd_zip (Nat.le_of_eq long.symm)
  rw [satisfy_items f some, ← seconds, List.any_map, List.any_eq_true]
  rfl

/-- Descriptors that differ in their blanks outside parentheses come to the same exactly if a pair of items holds of
which neither is read by its exact blanks, or if some of the other items hold in both descriptors or in none. -/
theorem satisfy_respaced (f : Features) (alike : Text.Respaced 0 s t) :
    f.satisfy s = f.satisfy t ↔
      (∃ pair ∈ itemPairs s t, ¬ IsDelicatePair pair ∧ (Query.ofText pair.1).holds f) ∨
        ((∃ pair ∈ itemPairs s t, IsDelicatePair pair ∧ (Query.ofText pair.1).holds f) ↔
          ∃ pair ∈ itemPairs s t, IsDelicatePair pair ∧ (Query.ofText pair.2).holds f) := by
  have trimmed := alike.trim
  by_cases blank : s.trim = []
  · -- A blank descriptor holds everywhere, although its only item does not hold.
    have blank' : t.trim = [] := by
      rw [blank] at trimmed
      exact trimmed.eq_nil
    have same : f.satisfy s = f.satisfy t := by rw [← satisfy_trim f s, ← satisfy_trim f t, blank, blank']
    refine iff_of_true same (.inr (iff_of_false ?_ ?_))
    · rintro ⟨pair, mem, -, holds⟩
      rw [holds_of_blank f (blank_of_mem_pieces blank (List.of_mem_zip mem).1)] at holds
      contradiction
    · rintro ⟨pair, mem, -, holds⟩
      rw [holds_of_blank f (blank_of_mem_pieces blank' (List.of_mem_zip mem).2)] at holds
      contradiction
  · have inhabited : t.trim ≠ [] := by
      intro none
      rw [none] at trimmed
      exact blank trimmed.symm.eq_nil
    obtain ⟨long, each⟩ := List.forall₂_iff_zip.mp alike.pieces
    have sturdy : (∃ pair ∈ itemPairs s t, ¬ IsDelicatePair pair ∧ (Query.ofText pair.2).holds f) ↔
        ∃ pair ∈ itemPairs s t, ¬ IsDelicatePair pair ∧ (Query.ofText pair.1).holds f := by
      refine exists_congr fun pair => and_congr_right fun mem => and_congr_right fun firm => ?_
      rw [IsDelicatePair, not_or] at firm
      obtain ⟨depth, here⟩ := each mem
      rw [query_respaced here firm.1 firm.2]
    rw [Bool.eq_iff_iff, satisfy_first f blank long, satisfy_second f inhabited long, exists_pair_iff]
    rw [exists_pair_iff (P := fun pair => (Query.ofText pair.2).holds f), sturdy]
    by_cases held : ∃ pair ∈ itemPairs s t, ¬ IsDelicatePair pair ∧ (Query.ofText pair.1).holds f
    · simp only [held, true_or]
    · simp only [held, false_or]

/-- A list of two items. -/
def postcard : Text := "print, NOT screen and (min-width:\t9000px)".toList

/-- The same with other blanks behind the comma, behind the keyword and behind the medium. -/
def airyPostcard : Text := "print,\nNOT \u2003screen\tand (min-width:\t9000px)".toList

private theorem respaced_postcard : Text.Respaced 0 postcard airyPostcard := by
  have close : postcard = "print,".toList ++ (" ".toList ++ ("NOT".toList ++ (" ".toList ++ ("screen".toList ++
      (" ".toList ++ "and (min-width:\t9000px)".toList))))) := by decide +kernel
  have airy : airyPostcard = "print,".toList ++
    ("\n".toList ++ ("NOT".toList ++ (" \u2003".toList ++ ("screen".toList ++
      ("\t".toList ++ "and (min-width:\t9000px)".toList))))) := by decide +kernel
  have gap : Text.IsGap " ".toList := by decide
  rw [close, airy]
  apply Text.Respaced.append
  apply Text.Respaced.swap gap (by decide)
  apply Text.Respaced.append
  apply Text.Respaced.swap gap (by decide)
  apply Text.Respaced.append
  apply Text.Respaced.swap gap (by decide)
  exact .refl _

theorem satisfy_respaced_postcard :
    Text.Respaced 0 postcard airyPostcard ∧
      ({} : Features).satisfy postcard = ({} : Features).satisfy airyPostcard := by
  refine ⟨respaced_postcard, (satisfy_respaced {} respaced_postcard).mpr (.inl ?_)⟩
  decide +kernel

/-- A tab behind `not` keeps it from being a keyword. A feature whose name has parentheses in it is known by its exact
blanks. -/
theorem respaced_apart :
    let f : Features := { extra := [("a) b (c".toList, "x".toList)] }
    (Text.Respaced 0 "not print".toList "not\tprint".toList ∧ f.satisfy "not print".toList = true ∧
        f.satisfy "not\tprint".toList = false) ∧
      Text.Respaced 0 "(a) b (c)".toList "(a)  b (c)".toList ∧ f.satisfy "(a) b (c)".toList = true ∧
        f.satisfy "(a)  b (c)".toList = false := by
  have gap : Text.IsGap " ".toList := by decide
  refine ⟨⟨?_, by decide +kernel, by decide +kernel⟩, ?_, by decide +kernel, by decide +kernel⟩
  · show Text.Respaced 0 ("not".toList ++ (" ".toList ++ "print".toList))
      ("not".toList ++ ("\t".toList ++ "print".toList))
    apply Text.Respaced.append
    exact .swap gap (by decide) (.refl _)
  · show Text.Respaced 0 ("(a)".toList ++ (" ".toList ++ "b (c)".toList))
      ("(a)".toList ++ ("  ".toList ++ "b (c)".toList))
    apply Text.Respaced.append
    exact .swap gap (by decide) (.refl _)

end MediaWatch.Media

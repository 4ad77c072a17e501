import MediaWatch.Proofs.Query.Native
import MediaWatch.Proofs.Text.Joints

/-! # Descriptors that can be read as queries

A descriptor is legible if the compiler reads it as the evaluator does: if none of its parts starts with a keyword or is
a shortcut. In front of an item `only` may stand all the same, which the evaluator drops, and so may `not` in front of
an item of one part, where it negates the same for both.
-/

namespace MediaWatch

/-- What a text comes to, read as a query. -/
def Registry.queryValue (r : Registry) (f : Media.Features) (t : Text) : Bool :=
  (Text.cut Text.commaOrWord t).any fun g => (Text.cut Text.andWord g).all fun u => (Term.ofText r u).holds f

/-- A part stands for itself as a term, and has no keyword in front as an item. -/
structure Registry.IsPart (r : Registry) (t : Text) : Prop where
  literal : r.Literal t
  bare : Media.IsBare t

/-- An item that means the same as a group of terms. -/
inductive Registry.IsFair (r : Registry) : Text → Prop
  | bare {item : Text} (bare : Media.IsBare item) (parts : ∀ t ∈ Text.cut Text.andWord item, r.IsPart t) : IsFair r item
  | only {rest : Text} (l : Media.Lead) (only : l.negates = false) (closed : Text.Closed rest)
      (begins : Text.afterWord? "and".toList rest = none) (parts : ∀ t ∈ Text.cut Text.andWord rest, r.IsPart t) :
      IsFair r (l.text ++ rest)
  | not {rest : Text} (l : Media.Lead) (not : l.negates = true) (closed : Text.Closed rest)
      (single : Text.andWord.Misses (l.text ++ rest)) (part : r.IsPart rest) : IsFair r (l.text ++ rest)

/-- A descriptor that means the same as a query. -/
structure Registry.IsLegible (r : Registry) (d : Text) : Prop where
  orless : Text.cut Text.commaOrWord d = Text.cut Text.comma d
  fair : ∀ item ∈ Text.cut Text.comma d, r.IsFair item

variable {r : Registry} {f : Media.Features} {d t first item rest : Text} {others : List Text} {l : Media.Lead}

/-! ## Parts -/

/-- A part that is a term comes to the same as one. -/
theorem Registry.IsPart.holds (part : r.IsPart t) (closed : Text.Closed t) (commaless : ',' ∉ t)
    (single : Text.andWord.Misses t) : (Term.ofText r t).holds f = (Media.Part.ofText (Text.lowerAscii t)).holds f := by
  rw [Term.holds_ofText_closed part.literal closed, Media.satisfy_item f closed commaless,
    Media.holds_parts f part.bare closed, Text.cut_of_misses single]
  simp

/-- Parts that are terms come to the same as terms. -/
theorem Registry.all_parts (parts : ∀ t ∈ Text.cut Text.andWord rest, r.IsPart t) (closed : Text.Closed rest)
    (commaless : ',' ∉ rest) (ts : List Text) (among : ts ⊆ Text.cut Text.andWord rest) :
    (ts.all fun t => (Term.ofText r t).holds f) = ts.all fun t => (Media.Part.ofText (Text.lowerAscii t)).holds f := by
  rw [Bool.eq_iff_iff, List.all_eq_true, List.all_eq_true]
  refine forall₂_congr fun t mem => ?_
  have piece := among mem
  have closedPiece := Text.closed_of_mem_cut Text.isKeyword_and closed piece
  have commalessPiece : ',' ∉ t := by
    obtain ⟨u, v, rfl, -⟩ := Text.standsIn_of_mem_cut Text.finds_andWord piece
    exact fun mem => commaless (by simp [mem])
  rw [(parts t piece).holds closedPiece commalessPiece (Text.misses_of_mem_cut Text.finds_andWord piece)]

/-! ## Items with a keyword -/

/-- No `and` is found in a keyword that stands in front, nor in what separates it from the parts. -/
theorem passes_lead (closed : Text.Closed rest) (begins : Text.afterWord? "and".toList rest = none) {q : Text}
    (some : q ≠ []) (suffix : q <:+ l.text) : Text.andWord (q ++ rest) = 0 := by
  obtain ⟨before, split⟩ := suffix
  rw [Text.andWord]
  rcases List.append_eq_append_iff.mp split with ⟨m, word, rfl⟩ | ⟨m, rfl, blanks⟩
  · cases m with
    | nil =>
      have blank : ∀ c ∈ ' ' :: l.blanks, Text.isBlank c := List.forall_mem_cons.mpr ⟨by decide, l.blank⟩
      rw [List.nil_append, Text.spaced_append blank closed.starts, if_neg]
      rintro ⟨-, same, run⟩
      rw [Text.afterWord?, if_pos ⟨same, run⟩] at begins
      contradiction
    | cons c m =>
      have solid := (l.solid.2 c (by rw [word]; simp)).1
      refine (Text.spaced_append (List.forall_mem_nil _) ?_).trans (if_neg fun taken => taken.1 rfl)
      rintro d ⟨⟩
      exact solid
  · have blank : ∀ c ∈ q, Text.isBlank c := by
      intro c mem
      rcases List.mem_cons.mp (blanks ▸ List.mem_append_right m mem) with rfl | mem
      · decide
      · exact l.blank c mem
    rw [Text.spaced_append blank closed.starts, if_neg]
    rintro ⟨-, same, run⟩
    rw [Text.afterWord?, if_pos ⟨same, run⟩] at begins
    contradiction

/-- With a keyword in front, an item is still cut where it is without. -/
theorem cut_lead (closed : Text.Closed rest) (begins : Text.afterWord? "and".toList rest = none)
    (cuts : Text.cut Text.andWord rest = first :: others) :
    Text.cut Text.andWord (l.text ++ rest) = (l.text ++ first) :: others := by
  rw [Text.cut, Text.cutFrom_piece fun q some suffix => passes_lead closed begins some suffix, ← Text.cut, cuts]
  exact Text.foldr_growFirst l.text first others

/-- With `only` in front, a text stands for itself. -/
theorem Registry.literal_only (r : Registry) (only : l.negates = false) (t : Text) : r.Literal (l.text ++ t) := by
  have same := l.same
  rw [only] at same
  refine literal_of_front (fun x u split stops other => ?_) fun start => ?_
  · rw [l.eq_word Text.isKeyword_not other stops split] at same
    exact absurd ((Text.length_of_sameAsciiLetters same).symm.trans (Text.length_of_sameAsciiLetters other)) (by decide)
  · rw [Media.Lead.text, List.append_assoc, List.head?_append_of_ne_nil _ l.solid.1] at start
    exact absurd (Text.toLower_mem_of_sameAsciiLetters same (List.mem_of_mem_head? start)) (by decide)

/-- A part comes to the same with a keyword in front, or to the opposite. -/
theorem Media.satisfy_lead (f : Features) (closed : Text.Closed t) (commaless : ',' ∉ l.text ++ t)
    (single : Text.andWord.Misses t) :
    f.satisfy (l.text ++ t) = ((Part.ofText (Text.lowerAscii t)).holds f != l.negates) := by
  rw [satisfy_item f (l.closed closed) commaless, holds_lead f l closed, Text.cut_of_misses single]
  simp

/-! ## Items -/

/-- With `only` in front, a part still comes to the same for the compiler. -/
theorem Term.holds_only (only : l.negates = false) (closed : Text.Closed t) (commaless : ',' ∉ l.text ++ t)
    (single : Text.andWord.Misses t) :
    (ofText r (l.text ++ t)).holds f = (Media.Part.ofText (Text.lowerAscii t)).holds f := by
  rw [holds_ofText_closed (r.literal_only only t) (l.closed closed), Media.satisfy_lead f closed commaless single, only,
    Bool.bne_false]

/-- With `not` in front, a part still comes to the same for the compiler. -/
theorem Term.holds_not (not : l.negates = true) (part : r.IsPart t) (closed : Text.Closed t) (commaless : ',' ∉ t)
    (single : Text.andWord.Misses t) :
    (ofText r (l.text ++ t)).holds f = !(Media.Part.ofText (Text.lowerAscii t)).holds f := by
  rw [holds_ofText_negated (negates_lead not closed.starts) (Text.trim_closed (l.closed closed)) closed part.literal,
    ← part.holds closed commaless single, holds_ofText_closed part.literal closed]

/-- A fair item comes to the same for the compiler and for the evaluator. -/
theorem Registry.IsFair.holds (fair : r.IsFair item) (neat : item = [] ∨ Text.Closed item) (commaless : ',' ∉ item) :
    ((Text.cut Text.andWord item).all fun t => (Term.ofText r t).holds f) = (Media.Query.ofText item).holds f := by
  cases fair with
  | bare bare parts =>
    rcases neat with rfl | closed
    · rfl
    · rw [all_parts parts closed commaless _ (List.Subset.refl _), Media.holds_parts f bare closed]
  | @only rest l only closed begins parts =>
    have commalessRest : ',' ∉ rest := fun mem => commaless (List.mem_append_right _ mem)
    obtain ⟨first, others, cuts⟩ := List.exists_cons_of_ne_nil (Text.cut_ne_nil Text.andWord rest)
    have piece : first ∈ Text.cut Text.andWord rest := by simp [cuts]
    have commalessFirst : ',' ∉ l.text ++ first := by
      obtain ⟨u, v, rfl, -⟩ := Text.standsIn_of_mem_cut Text.finds_andWord piece
      rw [List.mem_append] at commaless ⊢
      exact fun mem => commaless (mem.imp_right fun mem => by simp [mem])
    have closedFirst := Text.closed_of_mem_cut Text.isKeyword_and closed piece
    have head := Term.holds_only (r := r) (f := f) only closedFirst commalessFirst
      (Text.misses_of_mem_cut Text.finds_andWord piece)
    have later := all_parts (f := f) parts closed commalessRest others (by simp [cuts])
    rw [cut_lead closed begins cuts, Media.holds_lead f l closed, cuts, only, List.all_cons, List.all_cons, head, later,
      Bool.bne_false]
  | @not rest l not closed single part =>
    have commalessRest : ',' ∉ rest := fun mem => commaless (List.mem_append_right _ mem)
    have singleRest : Text.andWord.Misses rest := by
      rw [← List.append_nil rest] at single
      exact single.inside Text.finds_andWord
    have term := Term.holds_not (f := f) not part closed commalessRest singleRest
    rw [Text.cut_of_misses single, Media.holds_lead f l closed, Text.cut_of_misses singleRest, not, List.all_cons, term]
    simp

/-- A legible descriptor comes to the same as a query. -/
theorem Registry.IsLegible.value (legible : r.IsLegible d) (closed : Text.Closed d) :
    r.queryValue f d = f.satisfy d := by
  have trimmed := Text.trim_closed closed
  rw [Registry.queryValue, legible.orless, Media.satisfy_eq f (by rw [trimmed]; exact closed.some), trimmed,
    Bool.eq_iff_iff]
  simp only [List.any_eq_true]
  refine exists_congr fun item => and_congr_right fun mem => ?_
  have neat : item = [] ∨ Text.Closed item := by
    rw [← trimmed, Text.cut_comma_trim] at mem
    obtain ⟨p, -, rfl⟩ := List.mem_map.mp mem
    obtain ⟨-, -, -, -, -, closed⟩ := Text.exists_trim p
    exact closed
  rw [(legible.fair item mem).holds neat (Text.commaless_of_misses (Text.misses_of_mem_cut Text.finds_comma mem))]

end MediaWatch

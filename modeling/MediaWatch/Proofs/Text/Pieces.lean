import MediaWatch.Proofs.Text.Cutting

/-! # The pieces of any text

A separator is known by the texts that it takes. From that alone follows how any text is cut, whatever is missing or
too much in it: the text is woven from its pieces and from separators, and no piece is cut again.
-/

namespace MediaWatch.Text

/-- A separator takes a text of its kind wherever one stands, and with it all blanks around. -/
structure Separator.Finds (sep : Separator) (kind : Text → Prop) : Prop where
  delimits : ∀ s, kind s → s ≠ [] ∧ Stops s ∧ Stops s.reverse
  eager : ∀ c s, isBlank c → kind s → kind (c :: s)
  found : ∀ t, sep t ≠ 0 → ∃ s u, t = s ++ u ∧ kind s ∧ sep t = s.length ∧ ∀ c ∈ u.head?, isBlank c = false
  finds : ∀ s u, kind s → sep (s ++ u) ≠ 0

/-- A separator is met nowhere in a text. -/
def Separator.Misses (sep : Separator) (t : Text) : Prop := ∀ q, q ≠ [] → q <:+ t → sep q = 0

variable {sep other : Separator} {kind : Text → Prop} {c : Char} {p q s t u v x rest word : Text} {ps : List Text}

/-! ## Cutting step by step -/

/-- A character at which no separator stands belongs to the first piece. -/
theorem cut_cons (none : sep (c :: rest) = 0) : cut sep (c :: rest) = growFirst c (cut sep rest) := by
  rw [cut, cutFrom, none]
  rfl

/-- A separator ends a piece. -/
theorem cut_taken (some : s ≠ []) (taken : sep (s ++ t) = s.length) : cut sep (s ++ t) = [] :: cut sep t := by
  obtain ⟨c, rest, rfl⟩ := List.exists_cons_of_ne_nil some
  rw [List.cons_append, List.length_cons] at taken
  rw [List.cons_append, cut, cutFrom, taken]
  exact congrArg _ (cutFrom_skip rest t)

/-- A text is empty, or begins with a character at which no separator stands, or begins with a separator. -/
theorem Separator.Finds.induction (finds : sep.Finds kind) {motive : Text → Prop} (nil : motive [])
    (cons : ∀ c rest, sep (c :: rest) = 0 → motive rest → motive (c :: rest))
    (taken : ∀ s u, kind s → sep (s ++ u) = s.length → (∀ c ∈ u.head?, isBlank c = false) → motive u → motive (s ++ u))
    (t : Text) : motive t := by
  induction long : t.length using Nat.strongRecOn generalizing t with
  | ind n ih =>
    cases t with
    | nil => exact nil
    | cons c rest =>
      by_cases none : sep (c :: rest) = 0
      · exact cons c rest none (ih rest.length (by simp at long; omega) rest rfl)
      · obtain ⟨s, u, split, here, length, starts⟩ := finds.found _ none
        rw [split] at long length ⊢
        have some := List.length_pos_of_ne_nil (finds.delimits s here).1
        exact taken s u here length starts (ih u.length (by simp at long; omega) u rfl)

/-- The first piece ends the text, or a separator ends the piece. -/
theorem exists_of_cut (finds : sep.Finds kind) (cuts : cut sep t = p :: ps) :
    (ps = [] ∧ t = p ∧ sep.Misses p) ∨
      ∃ s u, t = p ++ (s ++ u) ∧ kind s ∧ cut sep u = ps ∧ (∀ c ∈ u.head?, isBlank c = false) ∧
        ∀ q, q ≠ [] → q <:+ p → sep (q ++ (s ++ u)) = 0 := by
  induction t using finds.induction generalizing p with
  | nil =>
    obtain ⟨rfl, rfl⟩ := List.cons.inj cuts
    exact .inl ⟨rfl, rfl, fun q some suffix => absurd (List.suffix_nil.mp suffix) some⟩
  | cons c rest none ih =>
    obtain ⟨first, others, pieces⟩ := List.exists_cons_of_ne_nil (cut_ne_nil sep rest)
    rw [cut_cons none, pieces] at cuts
    obtain ⟨rfl, rfl⟩ := List.cons.inj cuts
    rcases ih pieces with ⟨last, rfl, misses⟩ | ⟨s, u, rfl, here, later, starts, passed⟩
    · refine .inl ⟨last, rfl, fun q some suffix => ?_⟩
      rcases List.suffix_cons_iff.mp suffix with rfl | suffix
      · exact none
      · exact misses q some suffix
    · refine .inr ⟨s, u, rfl, here, later, starts, fun q some suffix => ?_⟩
      rcases List.suffix_cons_iff.mp suffix with rfl | suffix
      · exact none
      · exact passed q some suffix
  | taken s u here length starts _ =>
    rw [cut_taken (finds.delimits s here).1 length] at cuts
    obtain ⟨rfl, later⟩ := List.cons.inj cuts
    exact .inr ⟨s, u, rfl, here, later, starts, fun q some suffix => absurd (List.suffix_nil.mp suffix) some⟩

/-- What holds of a text in which no separator is met, and of a piece with a separator and a text behind it if it holds
of that, holds of any text and its pieces. -/
theorem Separator.Finds.pieces (finds : sep.Finds kind) {motive : Text → List Text → Prop}
    (last : ∀ p, sep.Misses p → motive p [p])
    (more : ∀ p s u, kind s → (∀ c ∈ u.head?, isBlank c = false) →
      (∀ q, q ≠ [] → q <:+ p → sep (q ++ (s ++ u)) = 0) → motive u (cut sep u) →
      motive (p ++ (s ++ u)) (p :: cut sep u)) (t : Text) : motive t (cut sep t) := by
  obtain ⟨p, ps, cuts⟩ := List.exists_cons_of_ne_nil (cut_ne_nil sep t)
  rw [cuts]
  induction ps generalizing p t with
  | nil =>
    obtain ⟨-, rfl, misses⟩ | ⟨s, u, -, -, none, -⟩ := exists_of_cut finds cuts
    · exact last t misses
    · exact absurd none (cut_ne_nil sep u)
  | cons second ps ih =>
    obtain ⟨last, -⟩ | ⟨s, u, rfl, here, later, starts, passed⟩ := exists_of_cut finds cuts
    · contradiction
    · have rest := ih u second later
      rw [← later] at rest ⊢
      exact more p s u here starts passed rest

/-- Any text is woven from the pieces it is cut into and from separators. -/
theorem exists_woven (finds : sep.Finds kind) (t : Text) :
    ∃ w : Woven Text, w.items = cut sep t ∧ w.write id = t ∧ ∀ s ∈ w.separators, kind s := by
  refine finds.pieces
    (motive := fun t ps => ∃ w : Woven Text, w.items = ps ∧ w.write id = t ∧ ∀ s ∈ w.separators, kind s)
    (fun p _ => ?_) (fun p s u here _ _ rest => ?_) t
  · exact ⟨⟨p, []⟩, rfl, List.append_nil p, nofun⟩
  · obtain ⟨⟨first, others⟩, items, write, kinds⟩ := rest
    refine ⟨⟨p, (s, first) :: others⟩, congrArg (p :: ·) items, ?_, List.forall_mem_cons.mpr ⟨here, kinds⟩⟩
    rw [Woven.write_cons, write]
    rfl

/-! ## Texts that are not cut -/

/-- A text in which no separator is met is all of one piece. -/
theorem cut_of_misses (misses : sep.Misses t) : cut sep t = [t] := by
  have whole : cutFrom sep 0 (t ++ []) = t.foldr growFirst (cutFrom sep 0 []) := by
    refine cutFrom_piece fun q some suffix => ?_
    rw [List.append_nil]
    exact misses q some suffix
  rw [List.append_nil] at whole
  rw [cut, whole, cutFrom, foldr_growFirst, List.append_nil]

theorem Separator.Passes.misses (passes : sep.Passes t) : sep.Misses t := by
  intro q some suffix
  rw [← List.append_nil q]
  exact passes q [] some suffix nofun

theorem Separator.Misses.orElse (misses : (sep.orElse other).Misses t) : sep.Misses t ∧ other.Misses t := by
  have both : ∀ q, q ≠ [] → q <:+ t → sep q = 0 ∧ other q = 0 := by
    intro q some suffix
    have none := misses q some suffix
    rw [Separator.orElse] at none
    split at none
    · next here => exact ⟨here, none⟩
    · contradiction
  exact ⟨fun q some suffix => (both q some suffix).1, fun q some suffix => (both q some suffix).2⟩

/-- Where a separator stands in the front of a text, it stands in the text. -/
theorem Separator.Finds.front (finds : sep.Finds kind) (none : sep (q ++ v) = 0) : sep q = 0 := by
  by_contra met
  obtain ⟨s, rest, rfl, here, -⟩ := finds.found q met
  rw [List.append_assoc] at none
  exact finds.finds s (rest ++ v) here none

/-- Where a separator stands in a part of a text, it stands in the text. -/
theorem Separator.Misses.inside (finds : sep.Finds kind) (misses : sep.Misses (u ++ (p ++ v))) : sep.Misses p := by
  rintro q some ⟨before, rfl⟩
  refine finds.front (misses (q ++ v) (List.append_ne_nil_of_left_ne_nil some v) ⟨u ++ before, ?_⟩)
  simp only [List.append_assoc]

/-- Separators are met in no piece of a text. -/
theorem misses_of_mem_cut (finds : sep.Finds kind) (mem : p ∈ cut sep t) : sep.Misses p := by
  refine finds.pieces (motive := fun _ ps => ∀ p ∈ ps, sep.Misses p) (fun p misses => ?_)
    (fun p s u _ _ passed rest => ?_) t p mem
  · exact List.forall_mem_singleton.mpr misses
  · exact List.forall_mem_cons.mpr ⟨fun q some suffix => finds.front (passed q some suffix), rest⟩

/-- A piece in front of a separator does not end with a blank, which the separator would have taken. -/
theorem Separator.Finds.ends (finds : sep.Finds kind) (here : kind s)
    (passed : ∀ q, q ≠ [] → q <:+ p → sep (q ++ (s ++ u)) = 0) : ∀ c ∈ p.getLast?, isBlank c = false := by
  intro c last
  obtain ⟨p, rfl⟩ := List.getLast?_eq_some_iff.mp last
  by_contra blank
  rw [Bool.not_eq_false] at blank
  exact finds.finds _ u (finds.eager c _ blank here) (passed [c] (by simp) ⟨p, rfl⟩)

/-- A text that neither starts nor ends with a blank is cut into such texts and empty ones. -/
theorem neat_of_mem_cut (finds : sep.Finds kind) (starts : ∀ c ∈ t.head?, isBlank c = false)
    (ends : ∀ c ∈ t.getLast?, isBlank c = false) (mem : p ∈ cut sep t) : p = [] ∨ Closed p := by
  refine finds.pieces (motive := fun t ps => (∀ c ∈ t.head?, isBlank c = false) →
    (∀ c ∈ t.getLast?, isBlank c = false) →
    ∀ p ∈ ps, p = [] ∨ Closed p) (fun p _ starts ends => ?_) (fun p s u here startsRest passed rest starts ends => ?_)
    t starts ends p mem
  · exact List.forall_mem_singleton.mpr (or_iff_not_imp_left.mpr fun some => ⟨some, starts, ends⟩)
  · refine List.forall_mem_cons.mpr ⟨?_, rest startsRest fun c last => ends c ?_⟩
    · refine or_iff_not_imp_left.mpr fun some => ⟨some, ?_, finds.ends here passed⟩
      rwa [List.head?_append_of_ne_nil _ some] at starts
    · have some : u ≠ [] := by
        rintro rfl
        exact absurd last (by simp)
      rwa [← List.append_assoc, List.getLast?_append_of_ne_nil _ some]

/-! ## Cutting alike -/

/-- Separators that take the same of every end of a text cut it alike. -/
theorem cut_congr (same : ∀ q, q <:+ t → sep q = other q) : cut sep t = cut other t := by
  have alike : ∀ k, cutFrom sep k t = cutFrom other k t := by
    induction t with
    | nil =>
      intro k
      cases k <;> rfl
    | cons c rest ih =>
      have later := ih fun q suffix => same q (suffix.trans (List.suffix_cons c rest))
      intro k
      cases k with
      | succ k => exact later k
      | zero =>
        rw [cutFrom, cutFrom, same _ (List.suffix_refl _), later 0]
        split
        · rfl
        · exact congrArg _ (later _)
  exact alike 0

/-- A separator that sees no difference between characters cuts the text with the others in their place alike. -/
theorem cut_map {f : Char → Char} (blind : ∀ t : Text, sep (t.map f) = sep t) (t : Text) :
    cut sep (t.map f) = (cut sep t).map (List.map f) := by
  have alike : ∀ k, cutFrom sep k (t.map f) = (cutFrom sep k t).map (List.map f) := by
    induction t with
    | nil =>
      intro k
      cases k <;> rfl
    | cons c rest ih =>
      intro k
      cases k with
      | succ k => exact ih k
      | zero =>
        have here : sep (f c :: rest.map f) = sep (c :: rest) := blind (c :: rest)
        rw [List.map_cons, cutFrom, cutFrom, here, ih 0]
        split
        · cases cutFrom sep 0 rest <;> rfl
        · next taken _ => exact congrArg _ (ih taken)
  exact alike 0

/-! ## The separators of queries -/

theorem finds_comma : comma.Finds IsComma where
  delimits s between := by
    have takes := takes_comma between
    obtain ⟨a, b, rfl, before, behind⟩ := between
    have mirrored : IsComma (a ++ ',' :: b).reverse :=
      ⟨b.reverse, a.reverse, by simp, fun c mem => behind c (List.mem_reverse.mp mem),
        fun c mem => before c (List.mem_reverse.mp mem)⟩
    exact ⟨takes.some, takes.stops, (takes_comma mirrored).stops⟩
  eager c s blank between := by
    obtain ⟨a, b, rfl, before, behind⟩ := between
    exact ⟨c :: a, b, rfl, List.forall_mem_cons.mpr ⟨blank, before⟩, behind⟩
  found t met := by
    obtain ⟨a, b, rfl, blank, starts, -⟩ := exists_blankRun t
    rcases b with _ | ⟨c, later⟩
    · rw [comma, blankRun_front blank starts, List.drop_left] at met
      exact absurd rfl met
    · by_cases other : c = ','
      · subst other
        obtain ⟨b, u, rfl, blank', starts', run⟩ := exists_blankRun later
        refine ⟨a ++ ',' :: b, u, by simp, ⟨a, b, rfl, blank, blank'⟩, ?_, starts'⟩
        rw [comma_append blank, run]
        simp only [List.length_append, List.length_cons]
        omega
      · exact absurd (comma_append_other blank (starts c rfl) other later) met
  finds s u between := by
    obtain ⟨a, b, rfl, blank, -⟩ := between
    rw [List.append_assoc, List.cons_append, comma_append blank]
    omega

theorem finds_spaced (keyword : IsKeyword word) : (spaced word).Finds (IsSpaced word) where
  delimits s between := by
    have takes := takes_spaced keyword between
    obtain ⟨a, x, b, rfl, -, -, -, behind, blank⟩ := between
    refine ⟨takes.some, takes.stops, ?_⟩
    rw [List.reverse_append]
    exact stops_of_blanks (List.reverse_ne_nil_iff.mpr behind) (fun c mem => blank c (List.mem_reverse.mp mem)) _
  eager c s blank between := by
    obtain ⟨a, x, b, rfl, -, blank', letters⟩ := between
    exact ⟨c :: a, x, b, rfl, List.cons_ne_nil _ _, List.forall_mem_cons.mpr ⟨blank, blank'⟩, letters⟩
  found t met := by
    obtain ⟨a, b, rfl, blank, starts, -⟩ := exists_blankRun t
    rw [spaced_append blank starts, ne_eq, ite_eq_right_iff, not_forall] at met
    obtain ⟨⟨before, same, behind⟩, -⟩ := met
    obtain ⟨e, u, later, blank', starts', run⟩ := exists_blankRun (b.drop word.length)
    have length := length_of_sameAsciiLetters same
    have split : b = b.take word.length ++ (e ++ u) := by rw [← later, List.take_append_drop]
    refine ⟨a ++ b.take word.length ++ e, u, ?_, ⟨a, _, e, rfl, ?_, blank, same, ?_, blank'⟩, ?_, starts'⟩
    · rw [List.append_assoc, List.append_assoc, ← split]
    · exact List.ne_nil_of_length_pos (Nat.pos_of_ne_zero before)
    · exact List.ne_nil_of_length_pos (Nat.pos_of_ne_zero (run ▸ behind))
    · rw [spaced_append blank starts, if_pos ⟨before, same, behind⟩, run, List.length_append,
        List.length_append, length]
  finds s u between := by
    obtain ⟨a, x, b, rfl, before, blank, same, behind, blank'⟩ := between
    have length := length_of_sameAsciiLetters same
    have letters : ∀ c ∈ (x ++ (b ++ u)).head?, isBlank c = false := by
      intro c head
      rw [List.head?_append_of_ne_nil _ (keyword.some_of_same same)] at head
      exact not_isBlank_of_sameAsciiLetters same keyword.solid c (List.mem_of_mem_head? head)
    have spaces := List.length_pos_of_ne_nil before
    have spaces' := List.length_pos_of_ne_nil behind
    rw [List.append_assoc, List.append_assoc, spaced_append blank letters, ← length, List.take_left, List.drop_left,
      blankRun_append blank', if_pos ⟨by omega, same, by omega⟩]
    omega

theorem Separator.Finds.orElse {kind' : Text → Prop} (first : sep.Finds kind) (second : other.Finds kind') :
    (sep.orElse other).Finds fun s => kind s ∨ kind' s where
  delimits s := Or.rec (first.delimits s) (second.delimits s)
  eager c s blank := Or.imp (first.eager c s blank) (second.eager c s blank)
  found t met := by
    rw [Separator.orElse] at met ⊢
    split at met
    · obtain ⟨s, u, split, here, rest⟩ := second.found t met
      exact ⟨s, u, split, .inr here, rest⟩
    · next taken here =>
      obtain ⟨s, u, split, here', length, starts⟩ := first.found t (here ▸ met)
      exact ⟨s, u, split, .inl here', here.symm.trans length, starts⟩
  finds s u between := by
    rw [Separator.orElse]
    split
    · next none => exact second.finds s u (between.resolve_left fun here => first.finds s u here none)
    · exact Nat.succ_ne_zero _

theorem finds_andWord : andWord.Finds (IsSpaced "and".toList) := finds_spaced isKeyword_and

theorem finds_commaOrWord : commaOrWord.Finds fun s => IsComma s ∨ IsSpaced "or".toList s :=
  finds_comma.orElse (finds_spaced isKeyword_or)

theorem blankRun_lowerAscii (t : Text) : blankRun (lowerAscii t) = blankRun t := by
  have same : isBlank ∘ Char.toLower = isBlank := funext isBlank_toLower
  rw [blankRun, lowerAscii, List.takeWhile_map, List.length_map, same, blankRun]

theorem sameAsciiLetters_lowerAscii (t word : Text) : sameAsciiLetters (lowerAscii t) word = sameAsciiLetters t word :=
  congrArg (· == lowerAscii word) (lowerAscii_lowerAscii t)

theorem drop_lowerAscii (n : Nat) (t : Text) : (lowerAscii t).drop n = lowerAscii (t.drop n) := List.map_drop.symm

theorem take_lowerAscii (n : Nat) (t : Text) : (lowerAscii t).take n = lowerAscii (t.take n) := List.map_take.symm

/-- A word between blanks is found in any case. -/
theorem spaced_lowerAscii (word t : Text) : spaced word (lowerAscii t) = spaced word t := by
  simp only [spaced, blankRun_lowerAscii, drop_lowerAscii, take_lowerAscii, sameAsciiLetters_lowerAscii]

theorem cut_spaced_lowerAscii (word t : Text) :
    cut (spaced word) (lowerAscii t) = (cut (spaced word) t).map lowerAscii :=
  cut_map (spaced_lowerAscii word) t

/-! ## Trimming -/

/-- A text is what trimming leaves, with blanks on either side; what is left has none at its ends. -/
theorem exists_trim (t : Text) : ∃ a b, t = a ++ (t.trim ++ b) ∧ (∀ c ∈ a, isBlank c) ∧ (∀ c ∈ b, isBlank c) ∧
    (t.trim = [] ∨ Closed t.trim) := by
  obtain ⟨a, r, rfl, blank, starts, -⟩ := exists_blankRun t
  obtain ⟨b, k, split, blank', ends, -⟩ := exists_blankRun r.reverse
  have front : (a ++ r).trimStart = r := trimStart_append blank starts
  have trimmed : (a ++ r).trim = k.reverse := by
    rw [trim, front, trimEnd, split]
    exact congrArg List.reverse (trimStart_append blank' ends)
  have back : r = k.reverse ++ b.reverse := by rw [← List.reverse_append, ← split, List.reverse_reverse]
  rw [trimmed]
  refine ⟨a, b.reverse, by rw [back], blank, fun c mem => blank' c (List.mem_reverse.mp mem), ?_⟩
  by_cases none : k.reverse = []
  · exact .inl none
  · refine .inr ⟨none, ?_, ?_⟩
    · rwa [back, List.head?_append_of_ne_nil _ none] at starts
    · rwa [List.getLast?_reverse]

theorem trim_trim (t : Text) : t.trim.trim = t.trim := by
  obtain ⟨-, -, -, -, -, none | closed⟩ := exists_trim t
  · rw [none]
    rfl
  · exact trim_closed closed

/-- A text without commas is all of one entry of a list. -/
theorem misses_comma (commaless : ',' ∉ t) : comma.Misses t := by
  intro q _ suffix
  by_contra met
  obtain ⟨s, u, rfl, ⟨a, b, rfl, -⟩, -⟩ := finds_comma.found q met
  exact commaless (suffix.subset (by simp))

theorem mem_of_mem_trim (mem : c ∈ t.trim) : c ∈ t := by
  obtain ⟨a, b, split, -⟩ := exists_trim t
  rw [split]
  exact List.mem_append_right _ (List.mem_append_left _ mem)

/-- A text that does not end with a blank is only trimmed in front. -/
theorem trim_eq_trimStart (ends : ∀ c ∈ t.getLast?, isBlank c = false) : t.trim = t.trimStart := by
  obtain ⟨a, r, rfl, blank, starts, -⟩ := exists_blankRun t
  rw [trim, trimStart_append blank starts, trimEnd]
  cases split : r.reverse with
  | nil => simpa using split.symm
  | cons c rest =>
    have back : r = rest.reverse ++ [c] := by rw [← List.reverse_cons, ← split, List.reverse_reverse]
    have last : isBlank c = false := ends c (by simp [back])
    rw [List.dropWhile_cons_of_neg (by simp [last]), ← split, List.reverse_reverse]

theorem commaless_of_misses (misses : comma.Misses t) : ',' ∉ t := by
  intro mem
  obtain ⟨u, v, rfl⟩ := List.append_of_mem mem
  have here := misses (',' :: v) (List.cons_ne_nil _ _) (List.suffix_append u _)
  exact finds_comma.finds [','] v ⟨[], [], rfl, nofun, nofun⟩ here

/-- Of what is before a comma, trimming the front leaves what trimming leaves, and blanks. -/
theorem trimStart_append_comma (u v : Text) :
    ∃ b, (u ++ ',' :: v).trimStart = u.trim ++ (b ++ ',' :: v) ∧ ∀ c ∈ b, isBlank c := by
  obtain ⟨a, b, split, blank, blank', none | closed⟩ := exists_trim u
  · rw [none, List.nil_append] at split
    have blanks : ∀ c ∈ u, isBlank c := by
      intro c mem
      rw [split] at mem
      exact (List.mem_append.mp mem).elim (blank c) (blank' c)
    refine ⟨[], ?_, nofun⟩
    rw [none]
    exact trimStart_append blanks (by rintro c ⟨⟩; decide)
  · refine ⟨b, ?_, blank'⟩
    have starts : ∀ c ∈ (u.trim ++ (b ++ ',' :: v)).head?, isBlank c = false := by
      rw [List.head?_append_of_ne_nil _ closed.some]
      exact closed.starts
    rw [← trimStart_append blank starts, ← List.append_assoc, ← List.append_assoc, List.append_assoc a, ← split]

/-- A comma ends the piece before it, and takes the blanks on either side. -/
theorem cut_comma_append (commaless : ',' ∉ p) (closed : p = [] ∨ Closed p) (blank : ∀ c ∈ s, isBlank c) (v : Text) :
    cut comma (p ++ (s ++ ',' :: v)) = p :: cut comma v.trimStart := by
  obtain ⟨e, u, rfl, blank', starts, run⟩ := exists_blankRun v
  have taken : comma ((s ++ ',' :: e) ++ u) = (s ++ ',' :: e).length := by
    rw [List.append_assoc, List.cons_append, comma_append blank, run]
    simp only [List.length_append, List.length_cons]
    omega
  have stops : Stops (s ++ ',' :: (e ++ u)) := by
    cases s with
    | nil => exact fun c head => .inr (Option.some.inj head).symm
    | cons d rest => exact stops_of_blanks (List.cons_ne_nil _ _) blank _
  have piece : ∀ q, q ≠ [] → q <:+ p → comma (q ++ (s ++ ',' :: (e ++ u))) = 0 := by
    intro q some suffix
    rcases closed with rfl | closed
    · exact absurd (List.suffix_nil.mp suffix) some
    · exact passes_comma closed commaless q _ some suffix stops
  have second : cut comma ((s ++ ',' :: e) ++ u) = [] :: cut comma u := cut_taken (by simp) taken
  rw [List.append_assoc, List.cons_append] at second
  rw [cut, cutFrom_piece piece, ← cut, second, foldr_growFirst, List.append_nil, trimStart_append blank' starts]

/-- Cutting at commas is trimming the pieces between them. -/
theorem cut_comma_trimStart (ends : ∀ c ∈ t.getLast?, isBlank c = false) :
    cut comma t.trimStart = (pieces ',' t).map trim := by
  induction long : t.length using Nat.strongRecOn generalizing t with
  | ind n ih =>
    by_cases mem : ',' ∈ t
    · obtain ⟨u, v, rfl, first⟩ := List.eq_append_cons_of_mem mem
      have endsRest : ∀ c ∈ v.getLast?, isBlank c = false := by
        intro c last
        have some : v ≠ [] := by
          rintro rfl
          contradiction
        exact ends c (by rwa [List.getLast?_append_of_ne_nil _ (List.cons_ne_nil _ _),
          List.getLast?_cons_of_ne_nil some])
      have later := ih v.length (by simp at long; omega) endsRest rfl
      obtain ⟨b, front, blank⟩ := trimStart_append_comma u v
      obtain ⟨-, -, -, -, -, closed⟩ := exists_trim u
      rw [front, cut_comma_append (fun mem => first (mem_of_mem_trim mem)) closed blank, later]
      rw [pieces, pieces, List.splitOn_append_cons_self, List.splitOn_eq_singleton first]
      rfl
    · rw [pieces, List.splitOn_eq_singleton mem, ← trim_eq_trimStart ends]
      exact cut_of_misses (misses_comma fun found => mem (mem_of_mem_trim found))

theorem cut_comma_trim (t : Text) : cut comma t.trim = (pieces ',' t.trim).map trim := by
  obtain ⟨-, -, -, -, -, none | closed⟩ := exists_trim t
  · rw [none]
    rfl
  · rw [← cut_comma_trimStart closed.ends, ← trim_eq_trimStart closed.ends, trim_trim]

/-- Blanks around a text make no difference when it is trimmed. -/
theorem trim_around (blank : ∀ c ∈ u, isBlank c) (blank' : ∀ c ∈ v, isBlank c) : (u ++ (t ++ v)).trim = t.trim := by
  obtain ⟨a, b, split, before, behind, none | closed⟩ := exists_trim t
  · have all : ∀ c ∈ u ++ (t ++ v), isBlank c := by
      rw [split, none, List.nil_append]
      simp only [List.forall_mem_append]
      exact ⟨blank, ⟨before, behind⟩, blank'⟩
    have front := trimStart_append all (t := []) nofun
    rw [List.append_nil] at front
    rw [none, trim, front]
    rfl
  · have outer : u ++ (t ++ v) = (u ++ a) ++ t.trim ++ (b ++ v) := by
      nth_rewrite 1 [split]
      simp only [List.append_assoc]
    rw [outer]
    exact trim_append (List.forall_mem_append.mpr ⟨blank, before⟩) (List.forall_mem_append.mpr ⟨behind, blank'⟩) closed

/-- Blanks around a list make no difference to its entries. -/
theorem pieces_around (blank : ∀ c ∈ u, isBlank c) (blank' : ∀ c ∈ v, isBlank c) :
    (pieces ',' (u ++ (t ++ v))).map trim = (pieces ',' t).map trim := by
  have commaless : ∀ {s : Text}, (∀ c ∈ s, isBlank c) → ',' ∉ s := fun blank mem => absurd (blank _ mem) (by decide)
  induction long : t.length using Nat.strongRecOn generalizing t u with
  | ind n ih =>
    by_cases mem : ',' ∈ t
    · obtain ⟨front, later, rfl, first⟩ := List.eq_append_cons_of_mem mem
      have rest := ih later.length (by simp at long; omega) (u := []) nofun rfl
      have before := trim_around (t := front) (v := []) blank nofun
      have split : u ++ (front ++ ',' :: later ++ v) = (u ++ front) ++ ',' :: (later ++ v) := by
        simp only [List.append_assoc, List.cons_append]
      rw [List.append_nil] at before
      rw [split, pieces, pieces, List.splitOn_append_cons_self, List.splitOn_append_cons_self,
        List.splitOn_eq_singleton first, List.splitOn_eq_singleton (by simp [commaless blank, first])]
      exact congrArg₂ List.cons before rest
    · have none : ',' ∉ u ++ (t ++ v) := by simp [commaless blank, commaless blank', mem]
      rw [pieces, pieces, List.splitOn_eq_singleton mem, List.splitOn_eq_singleton none]
      exact congrArg (fun entry => [entry]) (trim_around blank blank')

/-- The entries of a list are the same without the blanks around it. -/
theorem pieces_trim (t : Text) : (pieces ',' t.trim).map trim = (pieces ',' t).map trim := by
  obtain ⟨a, b, split, before, behind, -⟩ := exists_trim t
  have around := pieces_around (t := t.trim) before behind
  rwa [← split, eq_comm] at around

/-! ## Words between delimiters -/

/-- What stands between the blanks and commas of a text. -/
def listWords (t : Text) : List Text := t.splitOnP fun c => isBlank c || c == ','

/-- A text stands in another, with a blank, a comma or nothing on either side. -/
def StandsIn (p t : Text) : Prop := ∃ u v, t = u ++ (p ++ v) ∧ Stops u.reverse ∧ Stops v

theorem stops_append (first : Stops s) (second : Stops t) : Stops (s ++ t) := by
  cases s with
  | nil => exact second
  | cons c rest => exact first

/-- What comes before the first delimiter is determined. -/
theorem eq_of_stops (solid : ∀ c ∈ p, isBlank c = false ∧ c ≠ ',') (stops : Stops s)
    (solid' : ∀ c ∈ x, isBlank c = false ∧ c ≠ ',') (stops' : Stops u) (same : p ++ s = x ++ u) : p = x := by
  have front : ∀ {a b : Text}, (∀ c ∈ a, isBlank c = false ∧ c ≠ ',') → Stops b →
      (a ++ b).takeWhile (fun c => !(isBlank c || c == ',')) = a := by
    intro a b solid stops
    rw [List.takeWhile_append_of_pos fun c mem => by simp [solid c mem]]
    cases b with
    | nil => exact List.append_nil a
    | cons c rest => rw [List.takeWhile_cons_of_neg (by simpa [or_iff_not_imp_left] using stops c rfl), List.append_nil]
  rw [← front solid stops, same, front solid' stops']

theorem stops_nil : Stops [] := fun _ head => absurd head (by simp)

private theorem standsIn_self (t : Text) : StandsIn t t := ⟨[], [], by simp, stops_nil, stops_nil⟩

theorem StandsIn.trans (inner : StandsIn x p) (outer : StandsIn p t) : StandsIn x t := by
  obtain ⟨a, b, rfl, before, behind⟩ := inner
  obtain ⟨u, v, rfl, before', behind'⟩ := outer
  refine ⟨u ++ a, b ++ v, by simp, ?_, stops_append behind behind'⟩
  rw [List.reverse_append]
  exact stops_append before before'

theorem standsIn_trim (t : Text) : StandsIn t.trim t := by
  obtain ⟨a, b, split, blank, blank', -⟩ := exists_trim t
  refine ⟨a, b, split, ?_, ?_⟩
  · exact fun c head => .inl (blank c (List.mem_reverse.mp (List.mem_of_mem_head? head)))
  · exact fun c head => .inl (blank' c (List.mem_of_mem_head? head))

/-- The words of what stands in a text are words of the text. -/
theorem StandsIn.listWords_subset (stands : StandsIn p t) : listWords p ⊆ listWords t := by
  obtain ⟨u, v, rfl, before, behind⟩ := stands
  have front : listWords p ⊆ listWords (p ++ v) := by
    cases v with
    | nil =>
      rw [List.append_nil]
      exact List.Subset.refl _
    | cons c rest =>
      rw [listWords, listWords, List.splitOnP_append_cons p rest (by simpa using behind c rfl)]
      exact List.subset_append_left _ _
  rcases List.eq_nil_or_concat u with rfl | ⟨a, c, rfl⟩
  · exact front
  · have delimiter : isBlank c ∨ c = ',' := before c (by simp)
    rw [List.concat_eq_append, List.append_assoc, List.singleton_append]
    rw [listWords, listWords, List.splitOnP_append_cons a _ (by simpa using delimiter)]
    exact List.Subset.trans front (List.subset_append_right _ _)

/-- A word that stands in a text is one of its words. -/
theorem StandsIn.mem_listWords (stands : StandsIn x t) (solid : ∀ c ∈ x, isBlank c = false ∧ c ≠ ',') :
    x ∈ listWords t := by
  refine stands.listWords_subset ?_
  have whole : ∀ c ∈ x, (isBlank c || c == ',') = false := fun c mem => by simp [solid c mem]
  rw [listWords, List.splitOnP_eq_singleton whole]
  exact List.mem_singleton_self x

/-- The pieces stand in what was woven from them with separators in between. -/
theorem standsIn_write {w : Woven Text} (delimits : ∀ s ∈ w.separators, s ≠ [] ∧ Stops s ∧ Stops s.reverse)
    (mem : p ∈ w.items) : StandsIn p (w.write id) := by
  obtain ⟨first, rest⟩ := w
  induction rest generalizing first with
  | nil =>
    obtain rfl := List.mem_singleton.mp mem
    rw [Woven.write, List.flatMap_nil, List.append_nil]
    exact standsIn_self _
  | cons entry rest ih =>
    obtain ⟨s, a⟩ := entry
    obtain ⟨some, starts, ends⟩ := delimits s List.mem_cons_self
    rw [Woven.write_cons]
    rcases List.mem_cons.mp mem with rfl | mem
    · refine ⟨[], s ++ (Woven.mk a rest).write id, rfl, stops_nil, ?_⟩
      intro c head
      rw [List.head?_append_of_ne_nil _ some] at head
      exact starts c head
    · have inner := ih a (fun s mem => delimits s (List.mem_cons_of_mem _ mem)) mem
      refine inner.trans ⟨first ++ s, [], by simp, ?_, stops_nil⟩
      intro c last
      rw [List.reverse_append, List.head?_append_of_ne_nil _ (List.reverse_ne_nil_iff.mpr some)] at last
      exact ends c last

/-- The pieces that a text is cut into stand in it. -/
theorem standsIn_of_mem_cut (finds : sep.Finds kind) (mem : p ∈ cut sep t) : StandsIn p t := by
  obtain ⟨w, items, write, kinds⟩ := exists_woven finds t
  rw [← write]
  exact standsIn_write (fun s mem => finds.delimits s (kinds s mem)) (items ▸ mem)

end MediaWatch.Text

import MediaWatch.Proofs.Text.Pieces

/-! # Other blanks

Two texts that differ in their blanks outside parentheses alone have their other characters in common. Trimming, and
cutting at commas or at words, keeps texts alike in this sense, whatever the blanks are.
-/

namespace MediaWatch.Text

/-- How many parentheses are open behind a character. -/
def depthBehind (depth : Nat) (c : Char) : Nat :=
  if c = '(' then depth + 1 else if c = ')' then depth - 1 else depth

/-- Whether no parenthesis is open at some place of a text. -/
def surfaces : Nat → Text → Bool
  | 0, _ => true
  | _ + 1, [] => false
  | depth + 1, c :: rest => surfaces (depthBehind (depth + 1) c) rest

/-- One blank or more. -/
def IsGap (a : Text) : Prop := a ≠ [] ∧ ∀ c ∈ a, isBlank c

instance (a : Text) : Decidable (IsGap a) :=
  decidable_of_iff (a ≠ [] ∧ a.all isBlank) (and_congr_right fun _ => List.all_eq_true)

/-- Two texts with the same characters, but for the blanks outside parentheses: there each has some where the other has
some. The number says how many parentheses are open in front. -/
inductive Respaced : Nat → Text → Text → Prop where
  | nil (depth : Nat) : Respaced depth [] []
  | keep {depth : Nat} {s t : Text} (c : Char) (rest : Respaced (depthBehind depth c) s t) :
      Respaced depth (c :: s) (c :: t)
  | swap {a b s t : Text} (first : IsGap a) (second : IsGap b) (rest : Respaced 0 s t) : Respaced 0 (a ++ s) (b ++ t)

/-- Pieces of two texts, alike each. Those at the front start at the given depth. -/
inductive RespacedPieces (depth : Nat) : List Text → List Text → Prop where
  | intro {p q : Text} {ps qs : List Text} (front : Respaced depth p q)
      (rest : List.Forall₂ (fun p q => ∃ depth, Respaced depth p q) ps qs) : RespacedPieces depth (p :: ps) (q :: qs)

variable {depth : Nat} {c : Char} {a b p q s t u v word : Text} {ps qs : List Text}

private theorem depthBehind_blank (blank : isBlank c) : depthBehind depth c = depth := by
  have opening : c ≠ '(' := by
    rintro rfl
    exact absurd blank (by decide)
  have closing : c ≠ ')' := by
    rintro rfl
    exact absurd blank (by decide)
  rw [depthBehind, if_neg opening, if_neg closing]

private theorem depthBehind_mono {deeper : Nat} (less : depth ≤ deeper) :
    depthBehind depth c ≤ depthBehind deeper c := by
  rw [depthBehind, depthBehind]
  split
  · omega
  · split
    · omega
    · exact less

private theorem depthBehind_foldl_blanks (blank : ∀ c ∈ a, isBlank c) : a.foldl depthBehind depth = depth := by
  induction a with
  | nil => rfl
  | cons c rest ih =>
    obtain ⟨first, others⟩ := List.forall_mem_cons.mp blank
    rw [List.foldl_cons, depthBehind_blank first, ih others]

/-- Where parentheses stay open, they do with more of them open in front. -/
theorem surfaces_mono {deeper : Nat} (less : depth ≤ deeper) (inside : surfaces depth s = false) :
    surfaces deeper s = false := by
  induction s generalizing depth deeper with
  | nil =>
    cases depth with
    | zero => contradiction
    | succ depth =>
      obtain ⟨k, rfl⟩ := Nat.exists_eq_succ_of_ne_zero (Nat.ne_zero_of_lt less)
      rfl
  | cons c rest ih =>
    cases depth with
    | zero => contradiction
    | succ depth =>
      obtain ⟨k, rfl⟩ := Nat.exists_eq_succ_of_ne_zero (Nat.ne_zero_of_lt less)
      exact ih (depthBehind_mono less) inside

theorem surfaces_lowerAscii (depth : Nat) (t : Text) : surfaces depth (lowerAscii t) = surfaces depth t := by
  have same : ∀ depth c, depthBehind depth (Char.toLower c) = depthBehind depth c := by
    intro depth c
    simp only [depthBehind, toLower_eq_iff (show '('.toNat < 65 by decide),
      toLower_eq_iff (show ')'.toNat < 65 by decide)]
  induction t generalizing depth with
  | nil => rfl
  | cons c rest ih =>
    cases depth with
    | zero => rfl
    | succ depth => exact (ih _).trans (congrArg (surfaces · rest) (same _ c))

namespace Respaced

theorem symm (alike : Respaced depth s t) : Respaced depth t s := by
  induction alike with
  | nil depth => exact .nil depth
  | keep c _ ih => exact .keep c ih
  | swap first second _ ih => exact .swap second first ih

/-- Characters in front of two texts that are alike. -/
theorem append (w : Text) (alike : Respaced (w.foldl depthBehind depth) s t) : Respaced depth (w ++ s) (w ++ t) := by
  induction w generalizing depth with
  | nil => exact alike
  | cons c rest ih => exact .keep c (ih alike)

theorem refl (t : Text) : Respaced depth t t := by
  have same : Respaced depth (t ++ []) (t ++ []) := .append t (.nil _)
  rwa [List.append_nil] at same

/-- Blanks in front of two texts that are alike. -/
theorem gap (first : IsGap a) (second : IsGap b) (inside : depth ≠ 0 → a = b) (alike : Respaced depth s t) :
    Respaced depth (a ++ s) (b ++ t) := by
  by_cases outside : depth = 0
  · subst outside
    exact .swap first second alike
  · rw [inside outside]
    apply Respaced.append
    rwa [depthBehind_foldl_blanks second.2]

/-- In front of both texts are blanks or in front of none; what comes behind the blanks is alike. -/
theorem front (alike : Respaced depth s t) : ∃ a b u v, s = a ++ u ∧ t = b ++ v ∧ (a = [] ↔ b = []) ∧
    (∀ c ∈ a, isBlank c) ∧ (∀ c ∈ b, isBlank c) ∧ (depth ≠ 0 → a = b) ∧
    (∀ c ∈ u.head?, isBlank c = false) ∧ (∀ c ∈ v.head?, isBlank c = false) ∧ Respaced depth u v := by
  have none : ∀ c ∈ ([] : Text), isBlank c := List.forall_mem_nil _
  induction alike with
  | nil depth =>
    have empty : ∀ c ∈ ([] : Text).head?, isBlank c = false := by simp
    exact ⟨[], [], [], [], rfl, rfl, Iff.rfl, none, none, fun _ => rfl, empty, empty, .nil depth⟩
  | @keep depth s t c rest ih =>
    by_cases blank : isBlank c
    · rw [depthBehind_blank blank] at ih
      obtain ⟨a, b, u, v, rfl, rfl, -, first, second, inside, starts, starts', later⟩ := ih
      refine ⟨c :: a, c :: b, u, v, rfl, rfl, by simp, ?_, ?_, ?_, starts, starts', later⟩
      · exact List.forall_mem_cons.mpr ⟨blank, first⟩
      · exact List.forall_mem_cons.mpr ⟨blank, second⟩
      · exact fun deep => congrArg (c :: ·) (inside deep)
    · rw [Bool.not_eq_true] at blank
      refine ⟨[], [], c :: s, c :: t, rfl, rfl, Iff.rfl, none, none, fun _ => rfl, ?_, ?_, .keep c rest⟩
      · rintro d ⟨⟩
        exact blank
      · rintro d ⟨⟩
        exact blank
  | @swap a b s t first second rest ih =>
    obtain ⟨a', b', u, v, rfl, rfl, -, blank, blank', -, starts, starts', later⟩ := ih
    refine ⟨a ++ a', b ++ b', u, v, by simp, by simp, by simp [first.1, second.1], ?_, ?_, ?_, starts, starts', later⟩
    · exact List.forall_mem_append.mpr ⟨first.2, blank⟩
    · exact List.forall_mem_append.mpr ⟨second.2, blank'⟩
    · exact fun deep => absurd rfl deep

/-- A character that is not blank stands in both texts, and what is around it is alike. -/
theorem split (solid : isBlank c = false) (alike : Respaced depth (p ++ c :: s) t) :
    ∃ q u, t = q ++ c :: u ∧ Respaced depth p q ∧ Respaced depth (p ++ [c]) (q ++ [c]) ∧
      Respaced ((p ++ [c]).foldl depthBehind depth) s u := by
  generalize whole : p ++ c :: s = r at alike
  induction alike generalizing p with
  | nil => simp at whole
  | @keep depth r t d rest ih =>
    cases p with
    | nil =>
      obtain ⟨rfl, rfl⟩ := List.cons.inj whole
      exact ⟨[], t, rfl, .nil depth, .keep c (.nil _), rest⟩
    | cons e p =>
      obtain ⟨rfl, later⟩ := List.cons.inj whole
      obtain ⟨q, u, rfl, before, with', behind⟩ := ih later
      exact ⟨e :: q, u, rfl, .keep e before, .keep e with', behind⟩
  | @swap a b r t first second rest ih =>
    -- The character is not among the blanks that take the place of others.
    have inner : ∃ m, p = a ++ m ∧ r = m ++ c :: s := by
      rcases List.append_eq_append_iff.mp whole with ⟨m, rfl, same⟩ | ⟨m, rfl, rfl⟩
      · cases m with
        | nil => exact ⟨[], by simp, same.symm⟩
        | cons d m =>
          obtain ⟨rfl, -⟩ := List.cons.inj same
          have blank := first.2 c (by simp)
          rw [solid] at blank
          contradiction
      · exact ⟨m, rfl, rfl⟩
    obtain ⟨m, rfl, later⟩ := inner
    obtain ⟨q, u, rfl, before, with', behind⟩ := ih later.symm
    refine ⟨b ++ q, u, by simp, .swap first second before, ?_, ?_⟩
    · rw [List.append_assoc, List.append_assoc]
      exact .swap first second with'
    · rwa [List.append_assoc, List.foldl_append, depthBehind_foldl_blanks first.2]

/-- The characters that are not blank are the same. -/
theorem mem_iff (solid : isBlank c = false) (alike : Respaced depth s t) : c ∈ s ↔ c ∈ t := by
  have half : ∀ {s t : Text}, Respaced depth s t → c ∈ s → c ∈ t := by
    intro s t alike mem
    obtain ⟨p, rest, rfl⟩ := List.append_of_mem mem
    obtain ⟨q, u, rfl, -⟩ := alike.split solid
    simp
  exact ⟨half alike, half alike.symm⟩

private theorem blank_of_blank (alike : Respaced depth s t) (blank : ∀ c ∈ s, isBlank c) : ∀ c ∈ t, isBlank c := by
  intro c mem
  by_contra solid
  rw [Bool.not_eq_true] at solid
  have here := blank c ((alike.mem_iff solid).mpr mem)
  rw [solid] at here
  contradiction

theorem eq_nil (alike : Respaced depth [] t) : t = [] := by
  obtain ⟨a, b, u, v, whole, rfl, both, -, -, -, -, starts, rest⟩ := alike.front
  obtain ⟨rfl, rfl⟩ := List.nil_eq_append_iff.mp whole
  obtain rfl := both.mp rfl
  cases v with
  | nil => rfl
  | cons c v => exact absurd ((rest.mem_iff (starts c rfl)).mpr List.mem_cons_self) List.not_mem_nil

/-- Characters in front that are not blank are the same. -/
theorem solid_front (solid : ∀ c ∈ word, isBlank c = false) (alike : Respaced depth (word ++ s) t) :
    ∃ u, t = word ++ u ∧ Respaced (word.foldl depthBehind depth) s u := by
  induction word generalizing depth t with
  | nil => exact ⟨t, rfl, alike⟩
  | cons c rest ih =>
    obtain ⟨first, others⟩ := List.forall_mem_cons.mp solid
    obtain ⟨q, u, rfl, before, -, behind⟩ := alike.split (p := []) first
    obtain ⟨v, rfl, later⟩ := ih others behind
    exact ⟨v, by rw [before.eq_nil]; rfl, later⟩

/-- Texts without blanks are the same. -/
theorem eq_of_solid (solid : ∀ c ∈ s, isBlank c = false) (alike : Respaced depth s t) : s = t := by
  rw [← List.append_nil s] at alike
  obtain ⟨u, rfl, rest⟩ := alike.solid_front solid
  rw [rest.eq_nil, List.append_nil]

/-- As long as parentheses are open, texts are the same. -/
theorem eq_of_inside (inside : surfaces depth s = false) (alike : Respaced depth s t) : s = t := by
  induction alike with
  | nil => rfl
  | @keep depth s t c _ ih =>
    cases depth with
    | zero => contradiction
    | succ depth => exact congrArg (c :: ·) (ih inside)
  | swap => rw [surfaces] at inside; contradiction

/-! ## Trimming -/

theorem trimStart (alike : Respaced depth s t) : Respaced depth s.trimStart t.trimStart := by
  obtain ⟨a, b, u, v, rfl, rfl, -, first, second, -, starts, starts', rest⟩ := alike.front
  rwa [trimStart_append first starts, trimStart_append second starts']

theorem trim (alike : Respaced depth s t) : Respaced depth s.trim t.trim := by
  obtain ⟨a, b, whole, before, behind, none | closed⟩ := exists_trim s
  · have blank : ∀ c ∈ t, isBlank c := by
      apply alike.blank_of_blank
      rw [whole, none, List.nil_append]
      exact List.forall_mem_append.mpr ⟨before, behind⟩
    have empty := trim_around (t := []) blank (List.forall_mem_nil _)
    rw [List.append_nil, List.append_nil] at empty
    rw [none, empty]
    exact .nil depth
  · -- The last character that is not blank stands in both texts, and behind it are blanks in both.
    obtain ⟨m, c, last⟩ := List.eq_nil_or_concat' s.trim |>.resolve_left closed.some
    have solid : isBlank c = false := closed.ends c (by simp [last])
    have outer : s = (a ++ m) ++ c :: b := by
      rw [last] at whole
      simpa using whole
    rw [outer] at alike
    obtain ⟨q, u, rfl, -, front, rest⟩ := alike.split solid
    have blank := rest.blank_of_blank behind
    have trimmed : (q ++ c :: u).trim = (q ++ [c]).trimStart := by
      have around := trim_around (t := q ++ [c]) (List.forall_mem_nil _) blank
      rw [List.nil_append, List.append_assoc, List.singleton_append] at around
      rw [around, trim_eq_trimStart]
      simp [solid]
    have inner := front.trimStart
    rw [List.append_assoc, trimStart_append before (last ▸ closed.starts)] at inner
    rwa [trimmed, last]

/-! ## Pieces -/

/-- Commas cut two texts into pieces that are alike. -/
theorem pieces (alike : Respaced depth s t) :
    List.Forall₂ (fun p q => ∃ depth, Respaced depth p q) (Text.pieces ',' s) (Text.pieces ',' t) := by
  have solid : isBlank ',' = false := by decide
  induction long : s.length using Nat.strongRecOn generalizing depth s t with
  | ind n ih =>
    by_cases mem : ',' ∈ s
    · obtain ⟨u, v, rfl, first⟩ := List.eq_append_cons_of_mem mem
      obtain ⟨q, w, rfl, before, -, behind⟩ := alike.split solid
      have first' := mt (before.mem_iff solid).mpr first
      have rest := ih v.length (by simp at long; omega) behind rfl
      rw [Text.pieces, Text.pieces, List.splitOn_append_cons_self, List.splitOn_append_cons_self,
        List.splitOn_eq_singleton first, List.splitOn_eq_singleton first']
      exact .cons ⟨depth, before⟩ rest
    · have mem' := mt (alike.mem_iff solid).mpr mem
      rw [Text.pieces, Text.pieces, List.splitOn_eq_singleton mem, List.splitOn_eq_singleton mem']
      exact .cons ⟨depth, alike⟩ .nil

end Respaced

/-! ## Cutting at words -/

namespace RespacedPieces

theorem growFirst (c : Char) (alike : RespacedPieces (depthBehind depth c) ps qs) :
    RespacedPieces depth (Text.growFirst c ps) (Text.growFirst c qs) := by
  obtain ⟨front, rest⟩ := alike
  exact .intro (.keep c front) rest

/-- Blanks in front belong to the first pieces. -/
theorem grow (first : IsGap a) (second : IsGap b) (inside : depth ≠ 0 → a = b) (alike : RespacedPieces depth ps qs) :
    RespacedPieces depth (a.foldr Text.growFirst ps) (b.foldr Text.growFirst qs) := by
  obtain ⟨front, rest⟩ := alike
  rw [foldr_growFirst, foldr_growFirst]
  exact .intro (front.gap first second inside) rest

/-- Separators in front end empty pieces. -/
theorem start (alike : RespacedPieces depth ps qs) (deeper : Nat) : RespacedPieces deeper ([] :: ps) ([] :: qs) := by
  obtain ⟨front, rest⟩ := alike
  exact .intro (.nil deeper) (.cons ⟨depth, front⟩ rest)

theorem forall₂ (alike : RespacedPieces depth ps qs) : List.Forall₂ (fun p q => ∃ depth, Respaced depth p q) ps qs := by
  obtain ⟨front, rest⟩ := alike
  exact .cons ⟨depth, front⟩ rest

end RespacedPieces

/-- A word, in any ASCII case, in front of a text and with blanks behind it. -/
def Fronts (word s : Text) : Prop := sameAsciiLetters (s.take word.length) word ∧ blankRun (s.drop word.length) ≠ 0

/-- A word that is in front of a text is in front of any that is alike, with blanks behind it. -/
theorem Respaced.exists_fronts (keyword : IsKeyword word) (fronts : Fronts word s) (alike : Respaced depth s t) :
    ∃ x a b u v deeper, s = x ++ (a ++ u) ∧ t = x ++ (b ++ v) ∧ sameAsciiLetters x word ∧ IsGap a ∧ IsGap b ∧
      (∀ c ∈ u.head?, isBlank c = false) ∧ (∀ c ∈ v.head?, isBlank c = false) ∧ Respaced deeper u v := by
  obtain ⟨same, behind⟩ := fronts
  have whole := (List.take_append_drop word.length s).symm
  generalize s.take word.length = x at same whole
  generalize s.drop word.length = r at behind whole
  subst whole
  obtain ⟨r', rfl, rest⟩ := alike.solid_front (not_isBlank_of_sameAsciiLetters same keyword.solid)
  obtain ⟨a, b, u, v, rfl, rfl, both, first, second, -, starts, starts', later⟩ := rest.front
  rw [blankRun_front first starts, ne_eq, List.length_eq_zero_iff] at behind
  exact ⟨x, a, b, u, v, _, rfl, rfl, same, ⟨behind, first⟩, ⟨mt both.mpr behind, second⟩, starts, starts', later⟩

private theorem fronts_append (same : sameAsciiLetters p word) (gap : IsGap a) : Fronts word (p ++ (a ++ u)) := by
  have length := length_of_sameAsciiLetters same
  have some := List.length_pos_of_ne_nil gap.1
  rw [Fronts, ← length, List.take_left, List.drop_left, blankRun_append gap.2]
  exact ⟨same, by omega⟩

private theorem Respaced.fronts_iff (keyword : IsKeyword word) (alike : Respaced depth s t) :
    Fronts word s ↔ Fronts word t := by
  have half : ∀ {s t : Text}, Respaced depth s t → Fronts word s → Fronts word t := by
    intro s t alike fronts
    obtain ⟨x, a, b, u, v, -, -, rfl, same, -, gap, -⟩ := alike.exists_fronts keyword fronts
    exact fronts_append same gap
  exact ⟨half alike, half alike.symm⟩

/-- Blanks, a word and more blanks are a separator. -/
theorem cut_word (keyword : IsKeyword word) (gap : IsGap a) (same : sameAsciiLetters p word) (gap' : IsGap b)
    (starts : ∀ c ∈ u.head?, isBlank c = false) :
    cut (spaced word) (a ++ (p ++ (b ++ u))) = [] :: cut (spaced word) u := by
  have letters : ∀ c ∈ (p ++ (b ++ u)).head?, isBlank c = false := by
    intro c head
    rw [List.head?_append_of_ne_nil _ (keyword.some_of_same same)] at head
    exact not_isBlank_of_sameAsciiLetters same keyword.solid c (List.mem_of_mem_head? head)
  have length := length_of_sameAsciiLetters same
  have fronts := fronts_append (u := u) same gap'
  have taken : spaced word ((a ++ (p ++ b)) ++ u) = (a ++ (p ++ b)).length := by
    have outer : (a ++ (p ++ b)) ++ u = a ++ (p ++ (b ++ u)) := by simp only [List.append_assoc]
    rw [outer, spaced_append gap.2 letters, if_pos ⟨by simpa using gap.1, fronts⟩, ← length, List.drop_left,
      blankRun_front gap'.2 starts]
    simp only [List.length_append]
    omega
  have second := cut_taken (List.append_ne_nil_of_left_ne_nil gap.1 (p ++ b)) taken
  rwa [List.append_assoc, List.append_assoc] at second

/-- Blanks before anything else are part of a piece. -/
theorem cut_blanks (gap : IsGap a) (starts : ∀ c ∈ s.head?, isBlank c = false) (none : ¬ Fronts word s) :
    cut (spaced word) (a ++ s) = a.foldr growFirst (cut (spaced word) s) := by
  apply cutFrom_piece
  intro q some suffix
  have blank : ∀ c ∈ q, isBlank c := fun c mem => gap.2 c (suffix.subset mem)
  rw [spaced_append blank starts, if_neg]
  exact fun met => none met.2

/-- A word between blanks cuts two texts into pieces that are alike. -/
theorem Respaced.cut (keyword : IsKeyword word) (alike : Respaced depth s t) :
    RespacedPieces depth (Text.cut (spaced word) s) (Text.cut (spaced word) t) := by
  -- By induction on the length, since a word that is met is taken at once with the blanks around it.
  induction long : s.length using Nat.strongRecOn generalizing depth s t with
  | ind n ih =>
    obtain ⟨a, b, s, t, rfl, rfl, both, first, second, inside, starts, starts', rest⟩ := alike.front
    by_cases none : a = []
    · obtain rfl := none
      obtain rfl := both.mp rfl
      cases s with
      | nil =>
        rw [rest.eq_nil]
        exact .intro (.nil depth) .nil
      | cons c s =>
        have solid := starts c rfl
        obtain ⟨t, rfl, later⟩ := rest.solid_front (List.forall_mem_singleton.mpr solid)
        have here : ∀ u, spaced word (c :: u) = 0 := by
          intro u
          have starts : ∀ d ∈ (c :: u).head?, isBlank d = false := by
            rintro d ⟨⟩
            exact solid
          have missed : spaced word ([] ++ c :: u) = _ := spaced_append (List.forall_mem_nil _) starts
          rwa [if_neg fun met => met.1 rfl] at missed
        rw [List.nil_append, List.nil_append, List.singleton_append, cut_cons (here s), cut_cons (here t)]
        exact (ih s.length (by simp at long; omega) later rfl).growFirst c
    · have gap : IsGap a := ⟨none, first⟩
      have gap' : IsGap b := ⟨mt both.mpr none, second⟩
      have shorter := List.length_pos_of_ne_nil none
      by_cases fronts : Fronts word s
      · obtain ⟨x, e, e', u, v, deeper, rfl, rfl, same, inner, inner', starts, starts', later⟩ :=
          rest.exists_fronts keyword fronts
        rw [cut_word keyword gap same inner starts, cut_word keyword gap' same inner' starts']
        exact (ih u.length (by simp at long; omega) later rfl).start depth
      · rw [cut_blanks gap starts fronts, cut_blanks gap' starts' (mt (rest.fronts_iff keyword).mpr fronts)]
        exact (ih s.length (by simp at long; omega) rest rfl).grow gap gap' inside

end MediaWatch.Text

import MediaWatch.Proofs.Text.Words

/-! # Cutting what was woven

Text that is woven from pieces and separators is cut at exactly these separators, if the pieces start and end
with something that is not blank and have nothing in them that a separator looks for.
-/

namespace MediaWatch

/-- A first piece, and further pieces after a separator each. -/
structure Woven (α : Type) where
  first : α
  rest : List (Text × α)

namespace Woven

variable {α : Type}

def items (w : Woven α) : List α := w.first :: w.rest.map Prod.snd

def separators (w : Woven α) : List Text := w.rest.map Prod.fst

/-- The text of the pieces and of what stands between them. -/
def write (w : Woven α) (text : α → Text) : Text := text w.first ++ w.rest.flatMap fun entry => entry.1 ++ text entry.2

theorem write_cons (text : α → Text) (first : α) (s : Text) (a : α) (rest : List (Text × α)) :
    (Woven.mk first ((s, a) :: rest)).write text = text first ++ (s ++ (Woven.mk a rest).write text) := by
  rw [write, write, List.flatMap_cons, List.append_assoc]

end Woven

namespace Text

/-- What is looked for between blanks: a word without blanks, and without commas in any ASCII case. -/
structure IsKeyword (word : Text) : Prop where
  some : word ≠ []
  solid : ∀ c ∈ word, isBlank c = false
  commaless : ',' ∉ lowerAscii word

theorem isKeyword_and : IsKeyword "and".toList := ⟨by decide, solid_of_all (by decide), by decide⟩

theorem isKeyword_or : IsKeyword "or".toList := ⟨by decide, solid_of_all (by decide), by decide⟩

theorem isKeyword_not : IsKeyword "not".toList := ⟨by decide, solid_of_all (by decide), by decide⟩

theorem isKeyword_only : IsKeyword "only".toList := ⟨by decide, solid_of_all (by decide), by decide⟩

/-- A word that is written like a keyword has neither blanks nor commas. -/
theorem IsKeyword.solid_of_same {word x : Text} (keyword : IsKeyword word) (same : sameAsciiLetters x word) :
    ∀ c ∈ x, isBlank c = false ∧ c ≠ ',' := by
  intro c mem
  refine ⟨not_isBlank_of_sameAsciiLetters same keyword.solid c mem, ?_⟩
  rintro rfl
  exact keyword.commaless (toLower_mem_of_sameAsciiLetters same mem)

theorem IsKeyword.some_of_same {word x : Text} (keyword : IsKeyword word)
    (same : sameAsciiLetters x word) : x ≠ [] := by
  rintro rfl
  exact keyword.some (List.length_eq_zero_iff.mp (length_of_sameAsciiLetters same).symm)

/-- A word, in any ASCII case, between blanks. -/
def IsSpaced (word s : Text) : Prop :=
  ∃ a x b, s = a ++ x ++ b ∧ a ≠ [] ∧ (∀ c ∈ a, isBlank c) ∧ sameAsciiLetters x word ∧ b ≠ [] ∧ ∀ c ∈ b, isBlank c

/-- A comma with any blanks on either side. -/
def IsComma (s : Text) : Prop := ∃ a b, s = a ++ ',' :: b ∧ (∀ c ∈ a, isBlank c) ∧ ∀ c ∈ b, isBlank c

/-- A text starts and ends with something that is not blank. -/
structure Closed (p : Text) : Prop where
  some : p ≠ []
  starts : ∀ c ∈ p.head?, isBlank c = false
  ends : ∀ c ∈ p.getLast?, isBlank c = false

instance (p : Text) : Decidable (Closed p) :=
  decidable_of_iff (p ≠ [] ∧ p.head?.all (!isBlank ·) ∧ p.getLast?.all (!isBlank ·)) <| by
    simp only [Option.all_eq_true, Bool.not_eq_true']
    exact ⟨fun ⟨more, starts, ends⟩ => ⟨more, starts, ends⟩, fun closed => ⟨closed.some, closed.starts, closed.ends⟩⟩

/-- What may follow a piece: nothing, or something that starts like a separator. -/
def Stops (tail : Text) : Prop := ∀ c ∈ tail.head?, isBlank c ∨ c = ','

/-- A separator is not found anywhere in a piece. -/
def Separator.Passes (sep : Separator) (p : Text) : Prop :=
  ∀ q tail, q ≠ [] → q <:+ p → Stops tail → sep (q ++ tail) = 0

/-- A separator takes a text whatever piece follows. -/
structure Separator.Takes (sep : Separator) (s : Text) : Prop where
  some : s ≠ []
  stops : Stops s
  length : ∀ t, t ≠ [] → (∀ c ∈ t.head?, isBlank c = false) → sep (s ++ t) = s.length

variable {sep : Separator} {p q s t word tail x y : Text} {c : Char}

/-! ## Trimming -/

/-- Blanks around a text that neither starts nor ends with one are trimmed. -/
theorem trim_append {left right : Text} (blankLeft : ∀ c ∈ left, isBlank c) (blankRight : ∀ c ∈ right, isBlank c)
    (closed : Closed t) : (left ++ t ++ right).trim = t := by
  have starts : ∀ c ∈ (t ++ right).head?, isBlank c = false := by
    rw [List.head?_append_of_ne_nil _ closed.some]
    exact closed.starts
  have ends : ∀ c ∈ t.reverse.head?, isBlank c = false := by
    rw [List.head?_reverse]
    exact closed.ends
  have blankBack : ∀ c ∈ right.reverse, isBlank c := fun c mem => blankRight c (List.mem_reverse.mp mem)
  have back : (right.reverse ++ t.reverse).dropWhile isBlank = t.reverse := trimStart_append blankBack ends
  rw [trim, List.append_assoc, trimStart_append blankLeft starts, trimEnd, List.reverse_append,
    back, List.reverse_reverse]

theorem trim_closed (closed : Closed t) : t.trim = t := by
  have none : ∀ c ∈ ([] : Text), isBlank c := nofun
  have trimmed := trim_append none none closed
  rwa [List.nil_append, List.append_nil] at trimmed

/-! ## Cutting -/

theorem foldr_growFirst (p first : Text) (others : List Text) :
    p.foldr growFirst (first :: others) = (p ++ first) :: others := by
  induction p with
  | nil => rfl
  | cons c rest ih =>
    rw [List.foldr_cons, ih]
    rfl

/-- A piece in which no separator is found grows the first of the pieces that follow. -/
theorem cutFrom_piece (passed : ∀ q, q ≠ [] → q <:+ p → sep (q ++ tail) = 0) :
    cutFrom sep 0 (p ++ tail) = p.foldr growFirst (cutFrom sep 0 tail) := by
  induction p with
  | nil => rfl
  | cons c rest ih =>
    have here := passed (c :: rest) (List.cons_ne_nil _ _) (List.suffix_refl _)
    rw [List.cons_append] at here
    rw [List.cons_append, cutFrom, here, List.foldr_cons]
    refine congrArg (growFirst c) (ih fun q some suffix => ?_)
    exact passed q some (suffix.trans (List.suffix_cons c rest))

theorem cutFrom_skip (s t : Text) : cutFrom sep s.length (s ++ t) = cutFrom sep 0 t := by
  induction s with
  | nil => rfl
  | cons c rest ih => exact ih

/-- A separator ends the piece before it. -/
theorem cutFrom_separator (takes : sep.Takes s) (some : t ≠ []) (starts : ∀ c ∈ t.head?, isBlank c = false) :
    cutFrom sep 0 (s ++ t) = [] :: cutFrom sep 0 t := by
  obtain ⟨c, rest, rfl⟩ := List.exists_cons_of_ne_nil takes.some
  have taken := takes.length t some starts
  rw [List.cons_append, List.length_cons] at taken
  rw [List.cons_append, cutFrom, taken]
  exact congrArg _ (cutFrom_skip rest t)

theorem write_ne_nil {α : Type} {text : α → Text} {w : Woven α} (closed : ∀ a ∈ w.items, Closed (text a)) :
    w.write text ≠ [] := by
  apply List.append_ne_nil_of_left_ne_nil
  exact (closed w.first List.mem_cons_self).some

private theorem head?_write {α : Type} {text : α → Text} {w : Woven α} (closed : ∀ a ∈ w.items, Closed (text a)) :
    ∀ c ∈ (w.write text).head?, isBlank c = false := by
  intro c first
  rw [Woven.write, List.head?_append_of_ne_nil _ (closed w.first List.mem_cons_self).some] at first
  exact (closed w.first List.mem_cons_self).starts c first

/-- What is woven from closed pieces is closed. -/
theorem closed_write {α : Type} {text : α → Text} {w : Woven α} (closed : ∀ a ∈ w.items, Closed (text a)) :
    Closed (w.write text) := by
  refine ⟨write_ne_nil closed, head?_write closed, ?_⟩
  obtain ⟨first, rest⟩ := w
  induction rest generalizing first with
  | nil =>
    rw [Woven.write, List.flatMap_nil, List.append_nil]
    exact (closed first List.mem_cons_self).ends
  | cons entry rest ih =>
    obtain ⟨s, a⟩ := entry
    have closedRest : ∀ b ∈ (Woven.mk a rest).items, Closed (text b) :=
      fun b mem => closed b (List.mem_cons_of_mem _ mem)
    have some := write_ne_nil closedRest
    rw [Woven.write_cons, List.getLast?_append_of_ne_nil _ (List.append_ne_nil_of_right_ne_nil _ some),
      List.getLast?_append_of_ne_nil _ some]
    exact ih a closedRest

/-- Behind the first piece comes nothing, or something that starts like a separator. -/
theorem stops_rest {α : Type} {text : α → Text} {w : Woven α} (takes : ∀ s ∈ w.separators, sep.Takes s) :
    Stops (w.rest.flatMap fun entry => entry.1 ++ text entry.2) := by
  obtain ⟨first, _ | ⟨⟨s, a⟩, rest⟩⟩ := w
  · exact nofun
  · have took := takes s List.mem_cons_self
    intro c head
    rw [List.flatMap_cons, List.append_assoc, List.head?_append_of_ne_nil _ took.some] at head
    exact took.stops c head

/-- Cutting gives the pieces that a text was woven from. -/
theorem cut_write {α : Type} {text : α → Text} {w : Woven α} (closed : ∀ a ∈ w.items, Closed (text a))
    (passes : ∀ a ∈ w.items, sep.Passes (text a)) (takes : ∀ s ∈ w.separators, sep.Takes s) :
    cut sep (w.write text) = w.items.map text := by
  obtain ⟨first, rest⟩ := w
  induction rest generalizing first with
  | nil =>
    have passed := passes first List.mem_cons_self
    rw [Woven.write, List.flatMap_nil, cut, cutFrom_piece fun q some suffix => passed q [] some suffix nofun]
    rw [cutFrom, foldr_growFirst, List.append_nil]
    rfl
  | cons entry rest ih =>
    obtain ⟨s, a⟩ := entry
    have passed := passes first List.mem_cons_self
    have took := takes s List.mem_cons_self
    have closedRest : ∀ b ∈ (Woven.mk a rest).items, Closed (text b) :=
      fun b mem => closed b (List.mem_cons_of_mem _ mem)
    have later := ih a closedRest (fun b mem => passes b (List.mem_cons_of_mem _ mem))
      fun s mem => takes s (List.mem_cons_of_mem _ mem)
    have stops : Stops (s ++ (Woven.mk a rest).write text) := by
      intro c head
      rw [List.head?_append_of_ne_nil _ took.some] at head
      exact took.stops c head
    rw [Woven.write_cons, cut, cutFrom_piece fun q some suffix => passed q _ some suffix stops]
    rw [cutFrom_separator took (write_ne_nil closedRest) (head?_write closedRest), foldr_growFirst, List.append_nil]
    exact congrArg _ later

/-! ## Separators -/

theorem stops_of_blanks {a : Text} (some : a ≠ []) (blank : ∀ c ∈ a, isBlank c) (t : Text) : Stops (a ++ t) := by
  intro c head
  rw [List.head?_append_of_ne_nil _ some] at head
  exact .inl (blank c (List.mem_of_mem_head? head))

/-- What stands between blanks, and has none itself, is a word of a text. -/
theorem mem_words_append (solid : ∀ c ∈ x, isBlank c = false) (some : x ≠ []) (stop : ∀ c ∈ y.head?, isBlank c) :
    x ∈ words (x ++ y) := by
  cases y with
  | nil =>
    rw [List.append_nil, words_of_solid solid some]
    exact List.mem_singleton_self x
  | cons c rest =>
    rw [words_append_cons (stop c rfl), words_of_solid solid some]
    exact List.mem_cons_self

/-- Blanks in front of something that is not blank are the run that a text starts with. -/
theorem blankRun_front {a b : Text} (blank : ∀ c ∈ a, isBlank c) (starts : ∀ c ∈ b.head?, isBlank c = false) :
    blankRun (a ++ b) = a.length := by
  rw [blankRun_append blank, blankRun_eq_zero starts, Nat.add_zero]

/-- What a word between blanks takes of a text, by the blanks in front. -/
theorem spaced_append {a b : Text} (blank : ∀ c ∈ a, isBlank c) (starts : ∀ c ∈ b.head?, isBlank c = false) :
    spaced word (a ++ b) =
      if a.length ≠ 0 ∧ sameAsciiLetters (b.take word.length) word ∧ blankRun (b.drop word.length) ≠ 0 then
        a.length + word.length + blankRun (b.drop word.length)
      else 0 := by
  simp only [spaced, blankRun_front blank starts, List.drop_left]

/-- A comma after blanks takes them, itself and the blanks behind it. -/
theorem comma_append {a : Text} (blank : ∀ c ∈ a, isBlank c) (b : Text) :
    comma (a ++ ',' :: b) = a.length + 1 + blankRun b := by
  have punctuation : ∀ c ∈ (',' :: b).head?, isBlank c = false := by
    rintro c ⟨⟩
    decide
  rw [comma, blankRun_front blank punctuation, List.drop_left]
  rfl

/-- No comma is found where something else stands after blanks. -/
theorem comma_append_other {a : Text} (blank : ∀ c ∈ a, isBlank c) (solid : isBlank c = false)
    (other : c ≠ ',') (b : Text) : comma (a ++ c :: b) = 0 := by
  have starts : ∀ d ∈ (c :: b).head?, isBlank d = false := by
    rintro d ⟨⟩
    exact solid
  rw [comma, blankRun_front blank starts, List.drop_left]
  split
  · next later same => exact absurd (List.cons.inj same).1 other
  · rfl

/-- A text that does not end with a blank has something after the blanks in front. -/
theorem exists_of_suffix (closed : Closed p) (some : q ≠ []) (suffix : q <:+ p) : ∃ a c b, q = a ++ c :: b ∧
    (∀ d ∈ a, isBlank d) ∧ isBlank c = false := by
  obtain ⟨a, b, rfl, blank, starts, -⟩ := exists_blankRun q
  cases b with
  | cons c b => exact ⟨a, c, b, rfl, blank, starts c rfl⟩
  | nil =>
    rw [List.append_nil] at some suffix
    obtain ⟨before, rfl⟩ := suffix
    have last := closed.ends (a.getLast some)
      (by rw [List.getLast?_append_of_ne_nil _ some, List.getLast?_eq_getLast_of_ne_nil some]; rfl)
    rw [blank _ (List.getLast_mem some)] at last
    exact absurd last.symm Bool.false_ne_true

/-- A comma is not found in a piece without commas. -/
theorem passes_comma (closed : Closed p) (commaless : ',' ∉ p) : comma.Passes p := by
  intro q tail some suffix _
  obtain ⟨a, c, b, rfl, blank, solid⟩ := exists_of_suffix closed some suffix
  have other : c ≠ ',' := by
    rintro rfl
    exact commaless (suffix.subset (List.mem_append_right _ List.mem_cons_self))
  rw [List.append_assoc]
  exact comma_append_other blank solid other (b ++ tail)

/-- A keyword does not reach over what a separator starts with. -/
theorem length_le_of_same_take (keyword : IsKeyword word) (stops : Stops tail)
    (same : sameAsciiLetters ((p ++ tail).take word.length) word) : word.length ≤ p.length := by
  by_contra beyond
  cases tail with
  | nil =>
    have length := length_of_sameAsciiLetters same
    simp only [List.append_nil, List.length_take] at length
    omega
  | cons d rest =>
    obtain ⟨k, more⟩ := Nat.exists_eq_add_of_lt (Nat.lt_of_not_le beyond)
    have mem : d ∈ (p ++ d :: rest).take word.length := by
      rw [more, Nat.add_assoc, List.take_length_add_append, List.take_succ_cons]
      exact List.mem_append_right _ List.mem_cons_self
    obtain ⟨notBlank, notComma⟩ := keyword.solid_of_same same d mem
    exact (stops d rfl).elim (by simp [notBlank]) notComma

/-- A word between blanks is not found in a piece that does not have it among its words. -/
theorem passes_spaced (keyword : IsKeyword word) (closed : Closed p)
    (absent : ∀ w ∈ words p, ¬ sameAsciiLetters w word) : (spaced word).Passes p := by
  intro q tail inhabited suffix stops
  obtain ⟨a, c, b, rfl, blank, starts⟩ := exists_of_suffix closed inhabited suffix
  rw [List.append_assoc, spaced_append blank (by rintro d ⟨⟩; exact starts), if_neg]
  rintro ⟨spaces, same, run⟩
  have letters := not_isBlank_of_sameAsciiLetters same keyword.solid
  have length := length_of_sameAsciiLetters same
  generalize c :: b = piece at *
  have within := length_le_of_same_take keyword stops same
  rw [List.take_append_of_le_length within] at same letters length
  rw [List.drop_append_of_le_length within] at run
  obtain ⟨before, rfl⟩ := suffix
  obtain ⟨e, a, rfl⟩ := List.exists_cons_of_ne_nil fun none => spaces (List.length_eq_zero_iff.mpr none)
  refine absent (piece.take word.length) ?_ same
  have someLetter := keyword.some_of_same same
  have stop : ∀ c ∈ (piece.drop word.length).head?, isBlank c := by
    intro c head
    obtain ⟨d, first, blank⟩ := head?_of_blankRun run
    rw [List.head?_append, Option.mem_def.mp head] at first
    exact Option.some.inj first ▸ blank
  obtain ⟨first, others⟩ := List.forall_mem_cons.mp blank
  rw [List.cons_append, words_append_cons first, words_append others]
  apply List.mem_append_right
  have found := mem_words_append letters someLetter stop
  rw [List.take_append_drop] at found
  exact found

theorem takes_spaced (keyword : IsKeyword word) (between : IsSpaced word s) : (spaced word).Takes s := by
  obtain ⟨a, x, b, rfl, before, blank, same, behind, blank'⟩ := between
  have length := length_of_sameAsciiLetters same
  have someLetter := keyword.some_of_same same
  refine ⟨by simp [before], ?_, fun t more starts => ?_⟩
  · rw [List.append_assoc]
    exact stops_of_blanks before blank _
  · have letters : ∀ c ∈ (x ++ (b ++ t)).head?, isBlank c = false := by
      intro c head
      rw [List.head?_append_of_ne_nil _ someLetter] at head
      exact not_isBlank_of_sameAsciiLetters same keyword.solid c (List.mem_of_mem_head? head)
    rw [List.append_assoc, List.append_assoc, spaced_append blank letters, ← length, List.take_left, List.drop_left,
      blankRun_front blank' starts]
    rw [if_pos ⟨by simpa using before, same, by simpa using behind⟩]
    simp only [List.length_append]

theorem takes_comma (between : IsComma s) : comma.Takes s := by
  obtain ⟨a, b, rfl, blank, blank'⟩ := between
  refine ⟨by simp, ?_, fun t more starts => ?_⟩
  · intro c head
    cases a with
    | nil => exact .inr (Option.some.inj head).symm
    | cons d rest => exact .inl (blank c (by rw [← Option.some.inj head]; exact List.mem_cons_self))
  · rw [List.append_assoc, List.cons_append, comma_append blank, blankRun_front blank' starts]
    simp only [List.length_append, List.length_cons]
    omega

/-- No comma stands in a word between blanks. -/
theorem commaless_of_isSpaced (keyword : IsKeyword word) (between : IsSpaced word s) : ',' ∉ s := by
  obtain ⟨a, x, b, rfl, -, before, same, -, behind⟩ := between
  have solid : ¬ isBlank ',' := by decide
  intro mem
  rcases List.mem_append.mp mem with mem | mem
  · rcases List.mem_append.mp mem with mem | mem
    · exact solid (before _ mem)
    · exact keyword.commaless (toLower_mem_of_sameAsciiLetters same mem)
  · exact solid (behind _ mem)

/-- What is woven from pieces without commas, with words in between, has no commas. -/
theorem commaless_write {α : Type} {text : α → Text} {w : Woven α} (keyword : IsKeyword word)
    (commaless : ∀ a ∈ w.items, ',' ∉ text a) (between : ∀ s ∈ w.separators, IsSpaced word s) : ',' ∉ w.write text := by
  intro mem
  rcases List.mem_append.mp mem with mem | mem
  · exact commaless _ List.mem_cons_self mem
  · obtain ⟨⟨s, a⟩, entry, mem⟩ := List.mem_flatMap.mp mem
    rcases List.mem_append.mp mem with mem | mem
    · exact commaless_of_isSpaced keyword (between s (List.mem_map_of_mem entry)) mem
    · exact commaless a (List.mem_cons_of_mem _ (List.mem_map_of_mem entry)) mem

/-- No comma is found where a word without commas stands between blanks. -/
theorem comma_of_isSpaced (keyword : IsKeyword word) (between : IsSpaced word s) (t : Text) : comma (s ++ t) = 0 := by
  obtain ⟨a, x, b, rfl, before, blank, same, behind, blank'⟩ := between
  cases x with
  | nil => exact absurd rfl (keyword.some_of_same same)
  | cons c letters =>
    have first := not_isBlank_of_sameAsciiLetters same keyword.solid c List.mem_cons_self
    have other : c ≠ ',' := by
      rintro rfl
      exact keyword.commaless (toLower_mem_of_sameAsciiLetters same List.mem_cons_self)
    rw [List.append_assoc, List.append_assoc]
    exact comma_append_other blank first other _

/-- A piece without commas and without a word `or` is all of one group. -/
theorem passes_commaOrWord {p : Text} (closed : Closed p) (commaless : ',' ∉ p)
    (absent : ∀ w ∈ words p, ¬ sameAsciiLetters w "or".toList) : commaOrWord.Passes p := by
  intro q tail some suffix stops
  rw [commaOrWord, Separator.orElse, passes_comma closed commaless q tail some suffix stops]
  exact passes_spaced isKeyword_or closed absent q tail some suffix stops

theorem takes_commaOrWord (between : IsComma s ∨ IsSpaced "or".toList s) : commaOrWord.Takes s := by
  rcases between with comma | word
  · have takes := takes_comma comma
    refine ⟨takes.some, takes.stops, fun t more starts => ?_⟩
    obtain ⟨k, long⟩ := Nat.exists_eq_succ_of_ne_zero fun none => takes.some (List.length_eq_zero_iff.mp none)
    rw [commaOrWord, Separator.orElse, takes.length t more starts, long]
  · have takes := takes_spaced isKeyword_or word
    refine ⟨takes.some, takes.stops, fun t more starts => ?_⟩
    rw [commaOrWord, Separator.orElse, comma_of_isSpaced isKeyword_or word t]
    exact takes.length t more starts

/-! ## Cutting at the first place -/

theorem after?_eq_none : after? s t = none ↔ ¬ s <+: t := by
  constructor
  · rintro none ⟨rest, split⟩
    exact absurd (none.symm.trans (List.isPrefixOf?_eq_some_iff_append_eq.mpr split)) nofun
  · intro absent
    cases found : after? s t with
    | none => rfl
    | some rest => exact absurd ⟨rest, List.isPrefixOf?_eq_some_iff_append_eq.mp found⟩ absent

/-- A text is cut at a separator in front of which none begins. -/
theorem cutAt?_append {sep : Text} (some : sep ≠ [])
    (none : ∀ q, q ≠ [] → q <:+ s → after? sep (q ++ (sep ++ t)) = none) :
    cutAt? sep (s ++ (sep ++ t)) = .some (s, t) := by
  induction s with
  | nil =>
    obtain ⟨d, rest, rfl⟩ := List.exists_cons_of_ne_nil some
    have here : after? (d :: rest) ((d :: rest) ++ t) = .some t := List.isPrefixOf?_eq_some_iff_append_eq.mpr rfl
    rw [List.nil_append, List.cons_append, cutAt?, ← List.cons_append, here]
  | cons d s ih =>
    have here := none (d :: s) (List.cons_ne_nil d s) (List.suffix_refl _)
    have later := ih fun q some suffix => none q some (suffix.trans (List.suffix_cons d s))
    rw [List.cons_append] at here ⊢
    rw [cutAt?, here, later]
    rfl

/-- A text is cut at the first place where the separator stands, if there is one. -/
theorem cutAt?_first {sep : Text} (some : sep ≠ []) (t : Text) :
    (∃ a b, cutAt? sep t = .some (a, b) ∧ t = a ++ (sep ++ b) ∧ ¬ sep <:+: a) ∨
    (cutAt? sep t = none ∧ ¬ sep <:+: t) := by
  induction t with
  | nil => exact .inr ⟨by simp [cutAt?, some], fun stands => some (List.infix_nil.mp stands)⟩
  | cons c rest ih =>
    rw [cutAt?]
    cases found : after? sep (c :: rest) with
    | some later =>
      have split := List.isPrefixOf?_eq_some_iff_append_eq.mp found
      exact .inl ⟨[], later, rfl, split.symm, fun stands => some (List.infix_nil.mp stands)⟩
    | none =>
      have absent := after?_eq_none.mp found
      rcases ih with ⟨a, b, cut, split, first⟩ | ⟨uncut, nowhere⟩
      · refine .inl ⟨c :: a, b, by rw [cut]; rfl, by rw [split]; rfl, fun stands => ?_⟩
        refine (List.infix_cons_iff.mp stands).elim (fun front => absent (front.trans ?_)) first
        rw [split]
        exact ⟨sep ++ b, rfl⟩
      · exact .inr ⟨by rw [uncut]; rfl, fun stands => (List.infix_cons_iff.mp stands).elim absent nowhere⟩

end Text

end MediaWatch

import MediaWatch.Proofs.Text.Pieces

/-! # Cutting what was joined

Joined texts are cut where they were joined, and each of them where it is cut alone, unless a word at the end of one
becomes a separator together with what follows. Which words do is said of the list of words: in a text that neither
starts nor ends with a blank, a keyword separates wherever it is neither the first word nor the last.
-/

namespace MediaWatch.Text

/-- No word of a list is the keyword, but perhaps the first, unless something comes before it, and the last, unless
something comes after it. -/
def Free (word : Text) (before after : Prop) (ws : List Text) : Prop :=
  ∀ l w r, ws = l ++ w :: r → before ∨ l ≠ [] → after ∨ r ≠ [] → ¬ sameAsciiLetters w word

/-- A list of words does not end with a keyword that something comes before. -/
def EndsFree (word : Text) (ws : List Text) : Prop := ∀ l w, ws = l ++ [w] → l ≠ [] → ¬ sameAsciiLetters w word

variable {sep : Separator} {kind : Text → Prop} {c : Char} {p q s t u v w x y tail word : Text} {l r ws vs : List Text}
  {before after before' after' : Prop}

/-! ## Lists of words -/

theorem Free.mono (free : Free word before after ws) (sooner : before' → before) (later : after' → after) :
    Free word before' after' ws :=
  fun l w r split first last => free l w r split (first.imp_left sooner) (last.imp_left later)

theorem Free.left (free : Free word before after (ws ++ x :: vs)) : Free word before True ws := by
  rintro l w r rfl first -
  exact free l w (r ++ x :: vs) (by simp) first (.inr (by simp))

theorem Free.right (free : Free word before after (ws ++ x :: vs)) : Free word True after vs := by
  rintro l w r rfl - last
  exact free (ws ++ x :: l) w r (by simp) (.inr (by simp)) last

/-- Words behind others have something before them. -/
theorem Free.behind (free : Free word before after (ws ++ vs)) (some : ws ≠ []) : Free word True after vs := by
  rintro l w r rfl - last
  exact free (ws ++ l) w r (by simp) (.inr (by simp [some])) last

theorem Free.suffix (free : Free word before after (ws ++ vs)) : Free word before after vs := by
  cases ws with
  | nil => exact free
  | cons w ws => exact (free.behind (List.cons_ne_nil w ws)).mono (fun _ => trivial) id

theorem free_nil : Free word before after [] := fun l w r split => absurd split (by simp)

theorem free_append (front : Free word before True ws) (other : ¬ sameAsciiLetters x word)
    (back : Free word True after vs) : Free word before after (ws ++ x :: vs) := by
  intro l w r split first last
  rcases List.append_eq_append_iff.mp split with ⟨m, rfl, rest⟩ | ⟨m, rfl, rest⟩
  · cases m with
    | nil =>
      obtain ⟨rfl, -⟩ := List.cons.inj rest
      exact other
    | cons d m =>
      obtain ⟨-, rfl⟩ := List.cons.inj rest
      exact back m w r rfl (.inl trivial) last
  · cases m with
    | nil =>
      obtain ⟨rfl, -⟩ := List.cons.inj rest
      exact other
    | cons d m =>
      obtain ⟨rfl, -⟩ := List.cons.inj rest
      exact front l w m rfl first (.inl trivial)

/-! ## Words in their places -/

/-- What stands in front of a blank, and has none itself, is the first word. -/
theorem words_front (solid : ∀ c ∈ x, isBlank c = false) (some : x ≠ []) (stop : ∀ c ∈ y.head?, isBlank c) :
    words (x ++ y) = x :: words y := by
  cases y with
  | nil => rw [List.append_nil, words_of_solid solid some]; rfl
  | cons c rest =>
    have later : words (c :: rest) = words rest := words_append_cons (stop c rfl) [] rest
    rw [words_append_cons (stop c rfl), words_of_solid solid some, later]
    rfl

/-- A text that is not blank in front is its first word and a rest that starts with a blank. -/
theorem exists_front (starts : ∀ c ∈ t.head?, isBlank c = false) (some : t ≠ []) : ∃ x y, t = x ++ y ∧ x ≠ [] ∧
    (∀ c ∈ x, isBlank c = false) ∧ (∀ c ∈ y.head?, isBlank c) ∧ words t = x :: words y := by
  have split : t.takeWhile (!isBlank ·) ++ t.dropWhile (!isBlank ·) = t := List.takeWhile_append_dropWhile
  have solid : ∀ c ∈ t.takeWhile (!isBlank ·), isBlank c = false := by
    intro c mem
    exact (Bool.not_eq_true' _).mp (List.all_eq_true.mp List.all_takeWhile c mem)
  have stop : ∀ c ∈ (t.dropWhile (!isBlank ·)).head?, isBlank c := by
    intro c head
    have blank := List.head?_dropWhile_not (!isBlank ·) t
    rw [Option.mem_def.mp head] at blank
    simpa using blank
  have inhabited : t.takeWhile (!isBlank ·) ≠ [] := by
    obtain ⟨c, rest, rfl⟩ := List.exists_cons_of_ne_nil some
    have first : isBlank c = false := starts c rfl
    simp [first]
  refine ⟨_, _, split.symm, inhabited, solid, stop, ?_⟩
  conv_lhs => rw [← split]
  exact words_front solid inhabited stop

/-- Where a word of a text stands in it: between blanks or at an end, and behind and before the other words. -/
theorem exists_of_words (split : words t = l ++ w :: r) : ∃ u v, t = u ++ (w ++ v) ∧ words u = l ∧ words v = r ∧
    w ≠ [] ∧ (∀ c ∈ w, isBlank c = false) ∧ (∀ c ∈ u.getLast?, isBlank c) ∧ ∀ c ∈ v.head?, isBlank c := by
  induction long : t.length using Nat.strongRecOn generalizing t l with
  | ind n ih =>
    obtain ⟨a, b, rfl, blank, starts, -⟩ := exists_blankRun t
    have none : words a = [] := by simpa [words] using words_append blank []
    rw [words_append blank] at split
    by_cases some : b = []
    · subst some
      exact absurd split (by simp [words])
    obtain ⟨x, y, rfl, inhabited, solid, stop, words⟩ := exists_front starts some
    rw [words] at split
    cases l with
    | nil =>
      obtain ⟨rfl, rfl⟩ := List.cons.inj split
      refine ⟨a, y, rfl, none, rfl, inhabited, solid, ?_, stop⟩
      exact fun c last => blank c (List.mem_of_mem_getLast? last)
    | cons first l =>
      obtain ⟨rfl, later⟩ := List.cons.inj split
      have length := List.length_pos_of_ne_nil inhabited
      obtain ⟨u, v, rfl, rfl, rfl, someWord, solidWord, ends, stops⟩ := ih y.length (by simp at long; omega) later rfl
      -- The rest starts with a blank, so it does not start with the word.
      have more : u ≠ [] := by
        rintro rfl
        obtain ⟨d, w, rfl⟩ := List.exists_cons_of_ne_nil someWord
        exact absurd (stop d rfl) (by simp [solidWord d List.mem_cons_self])
      have stopFront : ∀ c ∈ u.head?, isBlank c := by
        intro c head
        exact stop c (by rwa [List.head?_append_of_ne_nil _ more])
      refine ⟨a ++ (x ++ u), v, by simp, ?_, rfl, someWord, solidWord, ?_, stops⟩
      · rw [words_append blank, words_front solid inhabited stopFront]
      · intro c last
        rw [← List.append_assoc, List.getLast?_append_of_ne_nil _ more] at last
        exact ends c last

/-- A text with something in it that is not blank has words. -/
theorem words_ne_nil (mem : c ∈ t) (solid : isBlank c = false) : words t ≠ [] := by
  obtain ⟨a, b, rfl, blank, starts, -⟩ := exists_blankRun t
  have some : b ≠ [] := by
    rintro rfl
    rw [List.append_nil] at mem
    rw [blank c mem] at solid
    contradiction
  obtain ⟨x, y, -, -, -, -, words⟩ := exists_front starts some
  rw [words_append blank, words]
  exact List.cons_ne_nil _ _

theorem Closed.words_ne_nil (closed : Closed t) : words t ≠ [] := by
  obtain ⟨c, rest, rfl⟩ := List.exists_cons_of_ne_nil closed.some
  exact Text.words_ne_nil List.mem_cons_self (closed.starts c rfl)

/-- Between the words of two texts stands the one that was put between blanks. -/
theorem words_joined (solid : ∀ c ∈ word, isBlank c = false) (some : word ≠ []) (x y : Text) :
    words (x ++ (' ' :: (word ++ ' ' :: y))) = words x ++ word :: words y := by
  have space : isBlank ' ' := by decide
  rw [words_append_cons space, words_append_cons space, words_of_solid solid some]
  rfl

/-- A keyword between blanks is a word of its own. -/
theorem words_spaced (keyword : IsKeyword word) {a b : Text} (before : a ≠ []) (blank : ∀ c ∈ a, isBlank c)
    (same : sameAsciiLetters x word) (behind : b ≠ []) (blank' : ∀ c ∈ b, isBlank c) (p u : Text) :
    words (p ++ (a ++ x ++ b ++ u)) = words p ++ x :: words u := by
  have letters := not_isBlank_of_sameAsciiLetters same keyword.solid
  rw [List.append_assoc, List.append_assoc, words_blanks before blank, words_blanks behind blank',
    words_of_solid letters (keyword.some_of_same same)]
  rfl

/-- What stands behind blanks in a text that does not end with one does not either. -/
theorem closed_behind {b : Text} (closed : Closed (p ++ (b ++ u))) (behind : b ≠ []) (blank : ∀ c ∈ b, isBlank c)
    (starts : ∀ c ∈ u.head?, isBlank c = false) : Closed u := by
  have some : u ≠ [] := by
    rintro rfl
    obtain ⟨b, d, rfl⟩ := (List.eq_nil_or_concat b).resolve_left behind
    exact absurd (closed.ends d (by simp)) (by simp [blank d (by simp)])
  refine ⟨some, starts, fun c last => closed.ends c ?_⟩
  rwa [← List.append_assoc, List.getLast?_append_of_ne_nil _ some]

/-! ## Separators among the words -/

/-- Where a keyword is neither the first word nor the last of a text, nor the last with a blank
after it, it separates. -/
theorem exists_spaced (keyword : IsKeyword word) (split : words t = l ++ w :: r) (first : l ≠ [])
    (last : r ≠ [] ∨ ∃ c ∈ tail.head?, isBlank c) (same : sameAsciiLetters w word) :
    ∃ q, q ≠ [] ∧ q <:+ t ∧ spaced word (q ++ tail) ≠ 0 := by
  obtain ⟨u, v, rfl, rfl, rfl, -, -, ends, stops⟩ := exists_of_words split
  rcases List.eq_nil_or_concat u with rfl | ⟨u, c, rfl⟩
  · exact absurd rfl first
  have blank : isBlank c := ends c (by simp)
  obtain ⟨d, rest, later, blank'⟩ : ∃ d rest, v ++ tail = d :: rest ∧ isBlank d := by
    cases v with
    | nil =>
      obtain ⟨d, head, blank⟩ := last.resolve_left (fun some => some rfl)
      obtain ⟨rest, rfl⟩ := List.head?_eq_some_iff.mp head
      exact ⟨d, rest, rfl, blank⟩
    | cons d rest => exact ⟨d, rest ++ tail, rfl, stops d rfl⟩
  refine ⟨c :: (w ++ v), List.cons_ne_nil _ _, ⟨u, by simp⟩, ?_⟩
  have between : IsSpaced word ([c] ++ w ++ [d]) :=
    ⟨[c], w, [d], rfl, by simp, by simpa using blank, same, by simp, by simpa using blank'⟩
  have met := (finds_spaced keyword).finds _ rest between
  simpa [later] using met

/-- The words of what is not cut. -/
theorem free_of_passed (keyword : IsKeyword word) (passed : ∀ q, q ≠ [] → q <:+ t → spaced word (q ++ tail) = 0)
    (later : after → ∃ c ∈ tail.head?, isBlank c) : Free word False after (words t) := by
  intro l w r split first last same
  obtain ⟨q, some, suffix, met⟩ := exists_spaced keyword split (first.resolve_left id) (last.symm.imp_right later) same
  exact met (passed q some suffix)

theorem free_of_misses (keyword : IsKeyword word) (misses : (spaced word).Misses t) :
    Free word False False (words t) := by
  have passed : ∀ q, q ≠ [] → q <:+ t → spaced word (q ++ []) = 0 := by
    intro q some suffix
    rw [List.append_nil]
    exact misses q some suffix
  exact free_of_passed keyword passed False.elim

/-- A text that has a keyword for its first and its last word at most is not cut. -/
theorem misses_of_free (keyword : IsKeyword word) (closed : Closed t) (free : Free word False False (words t)) :
    (spaced word).Misses t := by
  rintro q some ⟨before, rfl⟩
  by_contra met
  obtain ⟨s, v, rfl, ⟨a, x, b, rfl, before', blank, same, behind, blank'⟩, -⟩ := (finds_spaced keyword).found q met
  have split := words_spaced keyword before' blank same behind blank' before v
  refine free _ x _ split (.inr ?_) (.inr ?_) same
  · obtain ⟨d, a, rfl⟩ := List.exists_cons_of_ne_nil before'
    cases before with
    | nil => exact absurd (closed.starts d rfl) (by simp [blank d List.mem_cons_self])
    | cons c rest => exact words_ne_nil List.mem_cons_self (closed.starts c rfl)
  · rcases List.eq_nil_or_concat v with rfl | ⟨v, c, rfl⟩
    · obtain ⟨b, d, rfl⟩ := (List.eq_nil_or_concat b).resolve_left behind
      exact absurd (closed.ends d (by simp)) (by simp [blank' d (by simp)])
    · exact words_ne_nil (by simp) (closed.ends c (by simp))

/-- Words between blanks cut a text that neither starts nor ends with a blank into such texts, and no piece has the word
but for its first, or the text's last. -/
theorem closed_pieces (keyword : IsKeyword word) {motive : Text → List Text → Prop}
    (last : ∀ p, Closed p → Free word False False (words p) → motive p [p])
    (more : ∀ t p x u, words t = words p ++ x :: words u → Closed p → Free word False True (words p) → Closed u →
      motive u (cut (spaced word) u) → motive t (p :: cut (spaced word) u))
    (closed : Closed t) : motive t (cut (spaced word) t) := by
  have finds := finds_spaced keyword
  refine finds.pieces (motive := fun t ps => Closed t → motive t ps) (fun p misses closed => ?_)
    (fun p s u between starts passed rest closed => ?_) t closed
  · exact last p closed (free_of_misses keyword misses)
  · have ends := finds.ends between passed
    obtain ⟨a, x, b, rfl, before, blank, same, behind, blank'⟩ := between
    obtain ⟨e, a, rfl⟩ := List.exists_cons_of_ne_nil before
    have blankFirst : isBlank e := blank e List.mem_cons_self
    have someFirst : p ≠ [] := by
      rintro rfl
      exact absurd (closed.starts e rfl) (by simp [blankFirst])
    have closedFirst : Closed p := by
      refine ⟨someFirst, ?_, ends⟩
      rw [← List.head?_append_of_ne_nil _ someFirst]
      exact closed.starts
    have closedRest : Closed u := by
      rw [List.append_assoc, ← List.append_assoc] at closed
      exact closed_behind closed behind blank' starts
    have split := words_spaced keyword before blank same behind blank' p u
    have free : Free word False True (words p) := free_of_passed keyword passed fun _ => ⟨e, rfl, blankFirst⟩
    exact more _ p x u split closedFirst free closedRest (rest closedRest)

theorem closed_of_mem_cut (keyword : IsKeyword word) (closed : Closed t)
    (mem : p ∈ cut (spaced word) t) : Closed p := by
  refine closed_pieces (motive := fun _ ps => ∀ p ∈ ps, Closed p) keyword (fun p closed _ => ?_)
    (fun t p x u _ first _ _ rest => ?_) closed p mem
  · exact List.forall_mem_singleton.mpr closed
  · exact List.forall_mem_cons.mpr ⟨first, rest⟩

/-- The words of texts that were next to each other in a group: no `or` stands between blanks, and each `and` is the
first word of its text or the last of the group. -/
def Spread (before : Prop) : List Text → Prop
  | [] => True
  | t :: ts => Free "or".toList before (ts ≠ []) (words t) ∧
      Free "and".toList False (ts ≠ []) (words t) ∧ Spread True ts

theorem spread_cut (closed : Closed t) (free : Free "or".toList before False (words t)) :
    Spread before (cut andWord t) := by
  refine closed_pieces
    (motive := fun t ps => ∀ before : Prop, Free "or".toList before False (words t) → Spread before ps)
    isKeyword_and (fun p _ alone before free => ?_)
      (fun t p x u split _ first _ rest before free => ?_) closed before free
  · exact ⟨free.mono id fun some => some rfl, alone.mono id fun some => some rfl, trivial⟩
  · rw [split] at free
    exact ⟨free.left.mono id fun _ => trivial, first.mono id fun _ => trivial, rest True free.right⟩

theorem Spread.of_mem {ts : List Text} (spread : Spread before ts) (mem : t ∈ ts) : ∃ before after : Prop,
    Free "or".toList before after (words t) ∧ Free "and".toList False after (words t) := by
  induction ts generalizing before with
  | nil => contradiction
  | cons u ts ih =>
    obtain ⟨or, and, later⟩ := spread
    rcases List.mem_cons.mp mem with rfl | mem
    · exact ⟨before, ts ≠ [], or, and⟩
    · exact ih later mem

/-! ## Joints -/

/-- Blanks in front end before what is not blank. -/
theorem blankRun_append_of_ends (some : y ≠ []) (ends : ∀ c ∈ y.getLast?, isBlank c = false) (tail : Text) :
    blankRun (y ++ tail) = blankRun y := by
  obtain ⟨a, b, rfl, blank, starts, run⟩ := exists_blankRun y
  have inhabited : b ≠ [] := by
    rintro rfl
    rw [List.append_nil] at some ends
    have last := ends (a.getLast some) (by simp [List.getLast?_eq_getLast_of_ne_nil some])
    exact absurd last (by simp [blank _ (List.getLast_mem some)])
  rw [run, List.append_assoc, blankRun_front blank]
  rwa [List.head?_append_of_ne_nil _ inhabited]

/-- What comes behind a text makes no separator of its words, unless it starts with a blank and the last word is the
keyword. -/
theorem spaced_append_stops (keyword : IsKeyword word) (closed : Closed p) (some : q ≠ []) (suffix : q <:+ p)
    (stops : Stops tail) (free : (∀ c ∈ tail.head?, isBlank c = false) ∨ EndsFree word (words p)) :
    spaced word (q ++ tail) = spaced word q := by
  obtain ⟨a, c, b, rfl, blank, solid⟩ := exists_of_suffix closed some suffix
  obtain ⟨before, rfl⟩ := suffix
  have starts : ∀ d ∈ (c :: b).head?, isBlank d = false := by
    rintro d ⟨⟩
    exact solid
  have inhabited : c :: b ≠ [] := List.cons_ne_nil _ _
  generalize c :: b = piece at *
  have ends : ∀ d ∈ piece.getLast?, isBlank d = false := by
    have last := closed.ends
    rwa [← List.append_assoc, List.getLast?_append_of_ne_nil _ inhabited] at last
  have startsMore : ∀ d ∈ (piece ++ tail).head?, isBlank d = false := by
    rwa [List.head?_append_of_ne_nil _ inhabited]
  rw [List.append_assoc, spaced_append blank starts, spaced_append blank startsMore]
  rcases Nat.lt_trichotomy word.length piece.length with inside | ending | beyond
  · -- The keyword ends inside the text.
    have rest : piece.drop word.length ≠ [] := by simpa using inside
    have restEnds : ∀ d ∈ (piece.drop word.length).getLast?, isBlank d = false := by
      rw [List.getLast?_drop, if_neg (by omega)]
      exact ends
    rw [List.take_append_of_le_length (by omega), List.drop_append_of_le_length (by omega),
      blankRun_append_of_ends rest restEnds]
  · -- The keyword is what the text ends with.
    rw [ending, List.take_left, List.drop_left, List.take_length, List.drop_length]
    have nothing : blankRun [] = 0 := rfl
    rw [nothing, if_neg, if_neg (by simp)]
    rintro ⟨spaces, same, run⟩
    rcases free with solid | free
    · exact run (blankRun_eq_zero solid)
    · have letters := not_isBlank_of_sameAsciiLetters same keyword.solid
      have someBlank : a ≠ [] := by
        rintro rfl
        exact spaces rfl
      have split : words (before ++ (a ++ piece)) = words before ++ [piece] := by
        rw [words_blanks someBlank blank, words_of_solid letters inhabited]
      refine free _ _ split ?_ same
      cases before with
      | nil =>
        obtain ⟨d, a, rfl⟩ := List.exists_cons_of_ne_nil someBlank
        exact absurd (closed.starts d rfl) (by simp [blank d List.mem_cons_self])
      | cons d rest => exact words_ne_nil List.mem_cons_self (closed.starts d rfl)
  · -- The keyword would have to reach beyond the text.
    have short : ¬ sameAsciiLetters (piece.take word.length) word := by
      intro same
      have length := length_of_sameAsciiLetters same
      simp only [List.length_take] at length
      omega
    have long : ¬ sameAsciiLetters ((piece ++ tail).take word.length) word := by
      intro same
      have within := length_le_of_same_take keyword stops same
      omega
    rw [if_neg fun taken => long taken.2.1, if_neg fun taken => short taken.2.1]

/-- What comes behind a text makes no comma of it, and gives none of its commas more blanks
unless it starts with one. -/
theorem comma_append_stops (closed : Closed p) (some : q ≠ []) (suffix : q <:+ p)
    (free : (∀ c ∈ tail.head?, isBlank c = false) ∨ ',' ∉ p) : comma (q ++ tail) = comma q := by
  obtain ⟨a, c, b, rfl, blank, solid⟩ := exists_of_suffix closed some suffix
  rw [List.append_assoc, List.cons_append]
  by_cases other : c = ','
  · subst other
    have starts := free.resolve_right fun commaless => commaless (suffix.subset (by simp))
    rw [comma_append blank, comma_append blank]
    cases b with
    | nil => rw [List.nil_append, blankRun_eq_zero starts, blankRun]; rfl
    | cons d rest =>
      obtain ⟨before, rfl⟩ := suffix
      have ends : ∀ e ∈ (d :: rest).getLast?, isBlank e = false := by
        intro e last
        exact closed.ends e (by simpa using last)
      rw [blankRun_append_of_ends (List.cons_ne_nil _ _) ends]
  · rw [comma_append_other blank solid other, comma_append_other blank solid other]

/-- A text is cut in front of a separator where it is cut alone, if what comes behind it changes
none of its separators. -/
theorem cut_joint (finds : sep.Finds kind) {rest : List Text} (same : ∀ q, q ≠ [] → q <:+ x → sep (q ++ tail) = sep q)
    (cuts : cut sep tail = [] :: rest) : cut sep (x ++ tail) = cut sep x ++ rest := by
  induction x using finds.induction with
  | nil => exact cuts
  | cons c y none ih =>
    have later := ih fun q some suffix => same q some (suffix.trans (List.suffix_cons c y))
    have here : sep (c :: (y ++ tail)) = 0 := (same (c :: y) (List.cons_ne_nil _ _) (List.suffix_refl _)).trans none
    obtain ⟨first, others, pieces⟩ := List.exists_cons_of_ne_nil (cut_ne_nil sep y)
    rw [List.cons_append, cut_cons here, later, cut_cons none, pieces]
    rfl
  | taken s u here length _ ih =>
    have some := (finds.delimits s here).1
    have later := ih fun q inhabited suffix => same q inhabited (suffix.trans (List.suffix_append s u))
    have taken : sep (s ++ (u ++ tail)) = s.length := by
      rw [← List.append_assoc, same (s ++ u) (List.append_ne_nil_of_left_ne_nil some u) (List.suffix_refl _), length]
    rw [List.append_assoc, cut_taken some taken, later, cut_taken some length]
    rfl

/-! ## Joined texts -/

private theorem closed_append (first : Closed x) (last : Closed y) (s : Text) : Closed (x ++ s ++ y) := by
  refine ⟨by simp [first.some], ?_, ?_⟩
  · rw [List.append_assoc, List.head?_append_of_ne_nil _ first.some]
    exact first.starts
  · rw [List.getLast?_append_of_ne_nil _ last.some]
    exact last.ends

theorem closed_joined {ts : List Text} (some : ts ≠ []) (closed : ∀ t ∈ ts, Closed t) : Closed (joined s ts) := by
  induction ts with
  | nil => exact absurd rfl some
  | cons t ts ih =>
    cases ts with
    | nil => exact closed t List.mem_cons_self
    | cons u ts =>
      have later := ih (List.cons_ne_nil u ts) fun t mem => closed t (List.mem_cons_of_mem _ mem)
      exact closed_append (closed t List.mem_cons_self) later s

theorem mem_joined {ts : List Text} (mem : c ∈ joined s ts) : c ∈ s ∨ ∃ t ∈ ts, c ∈ t := by
  induction ts with
  | nil => contradiction
  | cons t ts ih =>
    cases ts with
    | nil => exact .inr ⟨t, List.mem_cons_self, mem⟩
    | cons u ts =>
      rw [joined, List.append_assoc, List.mem_append, List.mem_append] at mem
      rcases mem with mem | mem | mem
      · exact .inr ⟨t, List.mem_cons_self, mem⟩
      · exact .inl mem
      · exact (ih mem).imp_right fun ⟨v, among, mem⟩ => ⟨v, List.mem_cons_of_mem _ among, mem⟩

/-- Texts joined with commas are cut at these commas, and each where it is cut alone. -/
theorem cut_joined_comma {ts : List Text} (some : ts ≠ []) (closed : ∀ t ∈ ts, Closed t) :
    cut commaOrWord (joined ", ".toList ts) = ts.flatMap (cut commaOrWord) := by
  induction ts with
  | nil => exact absurd rfl some
  | cons t ts ih =>
    cases ts with
    | nil => simp [joined]
    | cons u ts =>
      have closedRest : ∀ t ∈ u :: ts, Closed t := fun t mem => closed t (List.mem_cons_of_mem _ mem)
      have later : Closed (joined ", ".toList (u :: ts)) := closed_joined (List.cons_ne_nil u ts) closedRest
      have takes : commaOrWord.Takes ", ".toList :=
        takes_commaOrWord (.inl ⟨[], " ".toList, rfl, List.forall_mem_nil _, List.all_eq_true.mp (by decide)⟩)
      have starts : ∀ c ∈ (", ".toList ++ joined ", ".toList (u :: ts)).head?, isBlank c = false := by
        rintro c ⟨⟩
        decide
      have stops : Stops (", ".toList ++ joined ", ".toList (u :: ts)) := by
        rintro c ⟨⟩
        exact .inr rfl
      have same : ∀ q, q ≠ [] → q <:+ t →
          commaOrWord (q ++ (", ".toList ++ joined ", ".toList (u :: ts))) = commaOrWord q := by
        intro q some suffix
        have closedHere := closed t List.mem_cons_self
        rw [commaOrWord, Separator.orElse, Separator.orElse, comma_append_stops closedHere some suffix (.inl starts),
          spaced_append_stops isKeyword_or closedHere some suffix stops (.inl starts)]
      have cuts := cut_taken takes.some (takes.length _ later.some later.starts)
      rw [joined, List.append_assoc, cut_joint finds_commaOrWord same cuts, ih (List.cons_ne_nil _ _) closedRest]
      rfl

/-- A text with no comma is all of one group if none of its words is `or`, but perhaps the first or the last. -/
theorem misses_commaOrWord (closed : Closed t) (commaless : ',' ∉ t) (free : Free "or".toList False False (words t)) :
    commaOrWord.Misses t := by
  intro q some suffix
  rw [commaOrWord, Separator.orElse, misses_comma commaless q some suffix]
  exact misses_of_free isKeyword_or closed free q some suffix

/-- Texts that `and` can be put between: no `or` comes to stand between blanks, and no `and` but those. -/
def Joinable (before : Prop) : List Text → Prop
  | [] => True
  | t :: ts => Free "or".toList before (ts ≠ []) (words t) ∧
      (ts ≠ [] → EndsFree "and".toList (words t)) ∧ Joinable True ts

theorem joinable_cons {ts : List Text} (free : Free "or".toList before (ts ≠ []) (words t))
    (ends : ts ≠ [] → EndsFree "and".toList (words t)) (rest : Joinable True ts) : Joinable before (t :: ts) :=
  ⟨free, ends, rest⟩

theorem Joinable.mono {ts : List Text} (joinable : Joinable before ts) (sooner : before' → before) :
    Joinable before' ts := by
  cases ts with
  | nil => trivial
  | cons t ts => exact ⟨joinable.1.mono sooner id, joinable.2⟩

theorem free_joined_and {ts : List Text} (some : ts ≠ []) (joinable : Joinable before ts) :
    Free "or".toList before False (words (joined " and ".toList ts)) := by
  induction ts generalizing before with
  | nil => exact absurd rfl some
  | cons t ts ih =>
    obtain ⟨free, -, rest⟩ := joinable
    cases ts with
    | nil => exact free.mono id (fun last => last.elim)
    | cons u ts =>
      have split : words (t ++ " and ".toList ++ joined " and ".toList (u :: ts)) =
          words t ++ "and".toList :: words (joined " and ".toList (u :: ts)) := by
        rw [List.append_assoc]
        exact words_joined isKeyword_and.solid isKeyword_and.some t _
      rw [joined, split]
      exact free_append (free.mono id fun _ => List.cons_ne_nil _ _) (by decide) (ih (List.cons_ne_nil _ _) rest)

/-- Texts joined with `and` are cut there, and each where it is cut alone. -/
theorem cut_joined_and {ts : List Text} (some : ts ≠ []) (closed : ∀ t ∈ ts, Closed t) (joinable : Joinable before ts) :
    cut andWord (joined " and ".toList ts) = ts.flatMap (cut andWord) := by
  induction ts generalizing before with
  | nil => exact absurd rfl some
  | cons t ts ih =>
    obtain ⟨-, ending, rest⟩ := joinable
    cases ts with
    | nil => simp [joined]
    | cons u ts =>
      have closedRest : ∀ t ∈ u :: ts, Closed t := fun t mem => closed t (List.mem_cons_of_mem _ mem)
      have later : Closed (joined " and ".toList (u :: ts)) := closed_joined (List.cons_ne_nil u ts) closedRest
      have takes : andWord.Takes " and ".toList :=
        takes_spaced isKeyword_and
          ⟨" ".toList, "and".toList, " ".toList, rfl, by decide, List.all_eq_true.mp (by decide), by decide, by decide,
            List.all_eq_true.mp (by decide)⟩
      have stops : Stops (" and ".toList ++ joined " and ".toList (u :: ts)) := by
        rintro c ⟨⟩
        exact .inl (by decide)
      have same : ∀ q, q ≠ [] → q <:+ t →
        andWord (q ++ (" and ".toList ++ joined " and ".toList (u :: ts))) = andWord q :=
        fun q some suffix => spaced_append_stops isKeyword_and (closed t List.mem_cons_self) some suffix stops
          (.inr (ending (List.cons_ne_nil _ _)))
      have cuts := cut_taken takes.some (takes.length _ later.some later.starts)
      rw [joined, List.append_assoc, cut_joint finds_andWord same cuts, ih (List.cons_ne_nil _ _) closedRest rest]
      rfl

end MediaWatch.Text

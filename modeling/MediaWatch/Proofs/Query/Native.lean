import MediaWatch.Proofs.Media.Grammar
import MediaWatch.Proofs.Query.Grammar

/-! # Compiling agrees with evaluating

A query without shortcuts and without the keywords that the compiler and the evaluator treat differently is a
descriptor as well. However stray its commas, blanks and words may be, it is then compiled to a condition that holds
whenever the evaluator says that the descriptor does.
-/

namespace MediaWatch

/-- Read as a term, a text stands for itself. -/
structure Registry.Literal (r : Registry) (t : Text) : Prop where
  positive : Term.stripNot t = (false, t)
  unreplaced : r.preprocess t = t

/-- A text with no word `or`, `not` or `only` between its blanks and commas, and no term that starts like a shortcut. -/
structure IsNative (q : Text) : Prop where
  wordless : ∀ w ∈ Text.listWords q, ∀ k ∈ ["or".toList, "not".toList, "only".toList], ¬ Text.sameAsciiLetters w k
  literal : ∀ g ∈ Text.cut Text.commaOrWord q.trim, ∀ t ∈ Text.cut Text.andWord g, t.trim.head? ≠ some '@'

variable {r : Registry} {f : Media.Features} {g q t : Text}

/-! ## Terms and parts -/

namespace Term

/-- What a term comes to that stands for itself. -/
theorem holds_ofText_literal (literal : r.Literal t.trim) :
    (ofText r t).holds f = (!t.trim.isEmpty && f.satisfy t.trim) := by
  rw [ofText, literal.positive]
  dsimp only
  rw [literal.unreplaced, Text.trim_trim, literal.positive]
  dsimp only
  rw [holds_ofDescriptor, bne_self_eq_false, Bool.bne_false]

theorem holds_ofText_closed (literal : r.Literal t) (closed : Text.Closed t) : (ofText r t).holds f = f.satisfy t := by
  have trimmed := Text.trim_closed closed
  rw [holds_ofText_literal (by rwa [trimmed]), trimmed]
  simp [closed.some]

/-- What a term comes to that is `not` and a text that stands for itself. -/
theorem holds_ofText_negated {rest : Text} (negates : Negates t rest) (trimmed : t.trim = t) (closed : Text.Closed rest)
    (literal : r.Literal rest) : (ofText r t).holds f = !f.satisfy rest := by
  rw [holds_ofText r trimmed, Registry.value, stripNot_of_negates negates]
  dsimp only
  rw [literal.unreplaced, Text.trim_closed closed, literal.positive]
  simp [closed.some]

/-- A keyword that negates an item is a `not` in front of a term. -/
theorem negates_lead {l : Media.Lead} (negates : l.negates) (starts : ∀ c ∈ t.head?, Text.isBlank c = false) :
    Negates (l.text ++ t) t := by
  refine ⟨l.word, ' ' :: l.blanks, by simp [Media.Lead.text], ?_, List.cons_ne_nil _ _, ?_, starts⟩
  · simpa [negates] using l.same
  · exact List.forall_mem_cons.mpr ⟨by decide, l.blank⟩

/-- A term that stands for itself and is one part says what the part says. -/
theorem holds_ofText_part (literal : r.Literal t.trim) (bare : Media.IsBare t.trim) (commaless : ',' ∉ t.trim)
    (single : Text.andWord.Misses t.trim) : (ofText r t).holds f = (Media.Part.ofText (Text.lowerAscii t)).holds f := by
  rw [holds_ofText_literal literal]
  by_cases none : t.trim = []
  · have letters : (Text.lowerAscii t).trim = [] := by rw [← Text.lowerAscii_trim, none]; rfl
    rw [none, Media.Part.ofText, letters]
    rfl
  · rw [List.isEmpty_eq_false_iff.mpr none, Bool.not_false, Bool.true_and, Media.satisfy_trim,
      Media.satisfy_part f bare none commaless single]

end Term

/-- A text stands for itself if it neither starts with `not` nor like a shortcut. -/
theorem Registry.literal_of_front
    (front : ∀ x u, t = x ++ u → Text.Stops u → ¬ Text.sameAsciiLetters x "not".toList) (start : t.head? ≠ some '@') :
    r.Literal t := by
  constructor
  · refine Term.stripNot_of_not_negates ?_
    rintro rest ⟨x, b, split, same, behind, blank, -⟩
    exact front x (b ++ rest) split (Text.stops_of_blanks behind blank rest) same
  · have none : Registry.token? t = none := by
      match t, start with
      | [], _ => rfl
      | c :: rest, start =>
        rw [Registry.token?]
        rintro _ ⟨⟩
        exact start rfl
    rw [Registry.preprocess, none]

/-- A group whose terms stand for themselves says what the item says. -/
theorem Registry.holds_item (trimmed : g.trim = g) (commaless : ',' ∉ g) (bare : Media.IsBare g)
    (terms : ∀ t ∈ Text.cut Text.andWord g, r.Literal t.trim ∧ Media.IsBare t.trim) :
    ((Text.cut Text.andWord g).all fun t => (Term.ofText r t).holds f) = (Media.Query.ofText g).holds f := by
  by_cases none : g = []
  · subst none
    rfl
  rw [Media.holds_bare f (by rwa [trimmed]) (by rwa [trimmed]), trimmed, Bool.eq_iff_iff, List.all_eq_true,
    List.all_eq_true]
  refine forall₂_congr fun t mem => ?_
  obtain ⟨literal, bare⟩ := terms t mem
  have misses := Text.misses_of_mem_cut Text.finds_andWord mem
  obtain ⟨a, b, split, -⟩ := Text.exists_trim t
  have single : Text.andWord.Misses t.trim := by
    rw [split] at misses
    exact misses.inside Text.finds_andWord
  have commaless : ',' ∉ t.trim := by
    obtain ⟨u, v, rfl, -⟩ := Text.standsIn_of_mem_cut Text.finds_andWord mem
    exact fun mem => commaless (by simp [Text.mem_of_mem_trim mem])
  rw [Term.holds_ofText_part literal bare commaless single]

/-! ## Texts without keywords -/

namespace Text

variable {k x : Text}

/-- A keyword is among the words of a text in front of which it stands. -/
theorem mem_listWords_of_front {u : Text} (keyword : IsKeyword k) (same : sameAsciiLetters x k) (stops : Stops u) :
    x ∈ listWords (x ++ u) := by
  have stands : StandsIn x (x ++ u) := ⟨[], u, rfl, stops_nil, stops⟩
  exact stands.mem_listWords (keyword.solid_of_same same)

/-- No separator but the commas is found in a text without a word `or`. -/
theorem commaOrWord_eq_comma (absent : ∀ w ∈ listWords t, ¬ sameAsciiLetters w "or".toList) {s : Text}
    (suffix : s <:+ t) : commaOrWord s = comma s := by
  have none : spaced "or".toList s = 0 := by
    by_contra met
    obtain ⟨_, v, rfl, ⟨a, x, b, rfl, before, blank, same, behind, blank'⟩, -⟩ :=
      (finds_spaced isKeyword_or).found s met
    obtain ⟨u, rfl⟩ := suffix
    have stands : StandsIn x (u ++ (a ++ x ++ b ++ v)) := by
      refine ⟨u ++ a, b ++ v, by simp, ?_, stops_of_blanks behind blank' v⟩
      rw [List.reverse_append]
      exact stops_of_blanks (List.reverse_ne_nil_iff.mpr before) (fun c mem => blank c (List.mem_reverse.mp mem)) _
    exact absent x (stands.mem_listWords (isKeyword_or.solid_of_same same)) same
  rw [commaOrWord, Separator.orElse]
  split
  · next nothing => rw [none, nothing]
  · next here => exact here.symm

end Text

/-- A text is read without a keyword if it has none among its words. -/
theorem Media.isBare_of_wordless
    (wordless : ∀ w ∈ Text.listWords t, ∀ k ∈ ["not".toList, "only".toList], ¬ Text.sameAsciiLetters w k) :
    Media.IsBare t := by
  refine Media.isBare_of_front ?_
  rintro x u rfl stops k mem same
  have keyword : Text.IsKeyword k := by
    rcases List.mem_pair.mp mem with rfl | rfl
    · exact Text.isKeyword_not
    · exact Text.isKeyword_only
  exact wordless x (Text.mem_listWords_of_front keyword same stops) k mem same

/-- Compiler and evaluator agree on every text without the keywords that they treat differently. -/
theorem holds_compile_native (w : Watcher) {e : Engine} (connected : e.connected = true) (native : IsNative q) :
    (w.compile q).1.holds e.view = e.features.satisfy q := by
  show (Condition.compile w.registry w.engine.nextNode q).1.holds e.view = _
  rw [Engine.view_of_connected connected]
  by_cases none : q.trim = []
  · rw [Condition.compile, ← Media.satisfy_trim, none]
    rfl
  have trimmed := Text.standsIn_trim q
  have groups : Text.cut Text.commaOrWord q.trim = Text.cut Text.comma q.trim := by
    refine Text.cut_congr fun s suffix => Text.commaOrWord_eq_comma (fun w mem => ?_) suffix
    exact native.wordless w (trimmed.listWords_subset mem) _ (by decide)
  rw [Condition.holds_compiled _ _ none, Media.satisfy_eq _ none, Registry.groups, groups, Bool.eq_iff_iff]
  simp only [List.any_map, List.all_map, Function.comp_def, List.any_eq_true]
  refine exists_congr fun g => and_congr_right fun mem => ?_
  have stands : Text.StandsIn g q := (Text.standsIn_of_mem_cut Text.finds_comma mem).trans trimmed
  have commaless := Text.commaless_of_misses (Text.misses_of_mem_cut Text.finds_comma mem)
  have trimmedItem : g.trim = g := by
    rw [Text.cut_comma_trim] at mem
    obtain ⟨p, -, rfl⟩ := List.mem_map.mp mem
    exact Text.trim_trim p
  have bare : ∀ t, Text.StandsIn t q → Media.IsBare t := by
    intro t stands
    refine Media.isBare_of_wordless fun w word k keyword => ?_
    exact native.wordless w (stands.listWords_subset word) k (List.mem_cons_of_mem _ keyword)
  rw [← Registry.holds_item trimmedItem commaless (bare g stands) fun t term => ?_]
  have inner := ((Text.standsIn_trim t).trans (Text.standsIn_of_mem_cut Text.finds_andWord term)).trans stands
  refine ⟨Registry.literal_of_front ?_ (native.literal g (groups ▸ mem) t term), bare t.trim inner⟩
  intro x u split stops same
  have word : x ∈ Text.listWords t.trim := split ▸ Text.mem_listWords_of_front Text.isKeyword_not same stops
  exact native.wordless x (inner.listWords_subset word) _ (by decide) same

/-- Items that are empty, that end with a stray `and`, or that have a part which is none; and one that is in order. -/
def scribble : Text := "\u00a0and Print,, hover and ,(hover AND screen, Screen\tand (Hover) , ".toList

private theorem isNative_scribble : IsNative scribble := ⟨by decide +kernel, by decide +kernel⟩

/-- The item in order decides. -/
theorem holds_compile_native_scribble :
    let w := Watcher.start {} .standard
    let paper : Engine := { features := { mediaType := "print".toList } }
    (w.compile scribble).1.holds w.engine.view = true ∧ (w.compile scribble).1.holds paper.view = false := by
  intro w paper
  have native := isNative_scribble
  have present : w.engine.features.satisfy scribble = true := by decide +kernel
  have other : paper.features.satisfy scribble = false := by decide +kernel
  constructor
  · exact (holds_compile_native w (e := w.engine) rfl native).trans present
  · exact (holds_compile_native w (e := paper) rfl native).trans other

end MediaWatch

import MediaWatch.Proofs.Query.Native

/-! # What a shortcut means

A shortcut that stands for a well-formed descriptor means the descriptor, unless the first of its items is negated: that
`not` is then taken for a negation of the whole list. With a `not` in front, a shortcut always means the opposite.
-/

namespace MediaWatch

open Media (DescriptorText ItemText)

variable {r : Registry} {f : Media.Features} {s : Text}

/-- A query of one term comes to what the term comes to. -/
theorem TermText.holds_compiled (t : TermText) (r : Registry) (next : NodeId) :
    (Condition.compile r next t.text).1.holds f.view = r.value f t.text := by
  have trimmed := Text.trim_closed t.closed
  have group : Text.cut Text.commaOrWord t.text = [t.text] :=
    Text.cut_of_misses (Text.passes_commaOrWord t.closed t.commaless fun w mem => (t.plain w mem).2).misses
  have term : Text.cut Text.andWord t.text = [t.text] :=
    Text.cut_of_misses (Text.passes_spaced Text.isKeyword_and t.closed fun w mem => (t.plain w mem).1).misses
  rw [Condition.holds_compiled r next (by rw [trimmed]; exact t.closed.some), Registry.groups, trimmed, group,
    ← Term.holds_ofText r trimmed]
  simp [term]

/-! ## The text of a shortcut -/

private theorem solid_of_token (token : Registry.token? ('@' :: s) = some s) :
    s ≠ [] ∧ ∀ c ∈ '@' :: s, Text.isBlank c = false ∧ c ≠ ',' := by
  obtain ⟨made, -⟩ := Option.ite_none_right_eq_some.mp token
  simp only [Bool.and_eq_true, Bool.not_eq_true', List.isEmpty_eq_false_iff, List.all_eq_true] at made
  refine ⟨made.1, List.forall_mem_cons.mpr ⟨by decide, fun c mem => ?_⟩⟩
  have char := made.2 c mem
  simp only [Registry.isTokenChar, Bool.or_eq_true, decide_eq_true_eq] at char
  rcases char with ((alphanumeric | rfl) | rfl) | rfl
  · exact Text.solid_of_isAlphanum alphanumeric
  all_goals decide

private theorem not_same_shortcut {k : Text} (other : '@' ∉ Text.lowerAscii k) : ¬ Text.sameAsciiLetters ('@' :: s) k :=
  fun same => other (Text.toLower_mem_of_sameAsciiLetters same List.mem_cons_self)

def shortcutTerm (token : Registry.token? ('@' :: s) = some s) : TermText where
  text := '@' :: s
  closed :=
    { some := List.cons_ne_nil _ _
      starts := fun c head => ((solid_of_token token).2 c (List.mem_of_mem_head? head)).1
      ends := fun c last => ((solid_of_token token).2 c (List.mem_of_mem_getLast? last)).1 }
  commaless := fun mem => ((solid_of_token token).2 _ mem).2 rfl
  plain := by
    rw [Text.words_of_solid (fun c mem => ((solid_of_token token).2 c mem).1) (List.cons_ne_nil _ _)]
    intro w mem
    obtain rfl := List.mem_singleton.mp mem
    exact ⟨not_same_shortcut (by decide), not_same_shortcut (by decide)⟩

def negatedShortcutTerm (token : Registry.token? ('@' :: s) = some s) : TermText where
  text := "not ".toList ++ '@' :: s
  closed :=
    { some := List.append_ne_nil_of_right_ne_nil _ (List.cons_ne_nil _ _)
      starts := by
        rintro c ⟨⟩
        decide
      ends := fun c last => by
        rw [List.getLast?_append_of_ne_nil _ (List.cons_ne_nil _ _)] at last
        exact (shortcutTerm token).closed.ends c last }
  commaless := fun mem => (List.mem_append.mp mem).elim (by decide) (shortcutTerm token).commaless
  plain := by
    have split : Text.words ("not ".toList ++ '@' :: s) = Text.words "not".toList ++ Text.words ('@' :: s) :=
      Text.words_append_cons (by decide) "not".toList ('@' :: s)
    intro w mem
    rw [split] at mem
    rcases List.mem_append.mp mem with mem | mem
    · obtain rfl : w = "not".toList := by simpa using (show w ∈ ["not".toList] from mem)
      decide
    · exact (shortcutTerm token).plain w mem

/-! ## The keyword in front -/

namespace Media.DescriptorText

/-- The descriptor without the keyword in front of it, and without blanks on the outside. -/
def bare (d : DescriptorText) : DescriptorText where
  items := ⟨{ d.items.first with lead := none }, d.items.rest⟩
  between := d.between
  left := []
  right := []
  blankLeft := List.forall_mem_nil _
  blankRight := List.forall_mem_nil _

variable (d : DescriptorText)

private theorem bare_text :
    d.bare.text = d.items.first.body ++ d.items.rest.flatMap fun entry => entry.1 ++ entry.2.text := by
  rw [text, bare, Woven.write, List.append_nil]
  rfl

/-- A `not` is stripped off a descriptor if its first item is negated, and only then. -/
theorem stripNot_text :
    Term.stripNot d.text.trim = if d.items.first.negated then (true, d.bare.text) else (false, d.text.trim) := by
  have stops : Text.Stops (d.items.rest.flatMap fun entry => entry.1 ++ entry.2.text) :=
    Text.stops_rest fun s mem => Text.takes_comma (d.between s mem)
  have parts : Text.Stops (d.items.first.parts.rest.flatMap fun entry => entry.1 ++ entry.2.text) :=
    Text.stops_rest d.items.first.takes
  rw [trim_text, Woven.write, ItemText.text]
  split
  · next l lead =>
    rw [ItemText.negated, lead, Option.any_some]
    split
    · next negates =>
      rw [List.append_assoc, ← bare_text]
      refine Term.stripNot_of_negates (Term.negates_lead negates ?_)
      rw [bare_text, List.head?_append_of_ne_nil _ d.items.first.closed_body.some]
      exact d.items.first.closed_body.starts
    · next other =>
      refine Term.stripNot_of_not_negates ?_
      rintro u ⟨x, b, split, same, some, blank, -⟩
      rw [List.append_assoc] at split
      have word := l.eq_word Text.isKeyword_not same (Text.stops_of_blanks some blank u) split
      have only := Text.length_of_sameAsciiLetters l.same
      rw [if_neg other, word] at only
      exact absurd (only.symm.trans (Text.length_of_sameAsciiLetters same)) (by decide)
  · next lead =>
    rw [ItemText.negated, lead, Option.any_none]
    refine Term.stripNot_of_not_negates ?_
    rintro u ⟨x, b, split, same, some, blank, -⟩
    rw [ItemText.body, Woven.write, List.append_assoc] at split
    exact d.items.first.parts.first.front (Text.stops_append parts stops) split (Text.stops_of_blanks some blank u)
      List.mem_cons_self same

/-- What a descriptor comes to, with or without the keyword in front of it. -/
theorem satisfy_bare (f : Features) :
    f.satisfy d.text =
        ((d.bare.items.first.holds f != d.items.first.negated) || (d.items.rest.map Prod.snd).any (ItemText.holds f)) ∧
      f.satisfy d.bare.text = (d.bare.items.first.holds f || (d.items.rest.map Prod.snd).any (ItemText.holds f)) := by
  have first : d.items.first.holds f = (d.bare.items.first.holds f != d.items.first.negated) := by
    simp [bare, ItemText.holds, ItemText.negated]
  rw [satisfy_text, satisfy_text, ← first]
  exact ⟨rfl, rfl⟩

end Media.DescriptorText

/-! ## Shortcuts -/

/-- What a shortcut comes to, and what its negation does. -/
theorem Registry.value_shortcut (d : DescriptorText) (token : Registry.token? ('@' :: s) = some s)
    (resolved : r.resolve? (Text.lowerAscii s) = some (.descriptor d.text)) :
    r.value f ('@' :: s) = (if d.items.first.negated then !f.satisfy d.bare.text else f.satisfy d.text) ∧
      r.value f ("not ".toList ++ '@' :: s) = !r.value f ('@' :: s) := by
  have plain : Term.stripNot ('@' :: s) = (false, '@' :: s) := by
    refine Term.stripNot_of_not_negates ?_
    rintro u ⟨_ | ⟨c, x⟩, b, split, same, -⟩
    · exact absurd (Text.length_of_sameAsciiLetters same) (by decide)
    · obtain rfl : '@' = c := (List.cons.inj split).1
      exact not_same_shortcut (by decide) same
  have negated : Term.stripNot ("not ".toList ++ '@' :: s) = (true, '@' :: s) := by
    refine Term.stripNot_of_negates
      ⟨"not".toList, " ".toList, rfl, by decide, by decide, List.all_eq_true.mp (by decide), ?_⟩
    rintro c ⟨⟩
    decide
  have replaced : r.preprocess ('@' :: s) = d.text := by
    rw [Registry.preprocess, token]
    simp only [resolved, Shortcut.term]
  rw [Registry.value, Registry.value, plain, negated]
  simp only [replaced, d.stripNot_text]
  split
  · have some : d.bare.text ≠ [] := by
      rw [d.bare_text]
      exact List.append_ne_nil_of_left_ne_nil d.items.first.closed_body.some _
    simp [List.isEmpty_eq_false_iff.mpr some]
  · have some : d.text.trim ≠ [] := by
      rw [d.trim_text]
      exact Text.write_ne_nil fun i _ => i.closed_text
    simp [List.isEmpty_eq_false_iff.mpr some, Media.satisfy_trim]

/-- A shortcut for a well-formed descriptor means the descriptor exactly if no later item of it holds or its first item
is not negated. With `not` in front it means the opposite of what it means without. -/
theorem holds_compile_shortcut (w : Watcher) {e : Engine} (connected : e.connected = true) (d : DescriptorText)
    (token : Registry.token? ('@' :: s) = some s)
    (resolved : w.registry.resolve? (Text.lowerAscii s) = some (.descriptor d.text)) :
    ((w.compile ('@' :: s)).1.holds e.view = e.features.satisfy d.text ↔
      (d.items.first.negated → ∀ i ∈ d.items.rest.map Prod.snd, i.holds e.features = false)) ∧
      (w.compile ("not ".toList ++ '@' :: s)).1.holds e.view = !(w.compile ('@' :: s)).1.holds e.view := by
  have shortcut : (w.compile ('@' :: s)).1.holds e.features.view = w.registry.value e.features ('@' :: s) :=
    (shortcutTerm token).holds_compiled w.registry w.engine.nextNode
  have opposite : (w.compile ("not ".toList ++ '@' :: s)).1.holds e.features.view =
      w.registry.value e.features ("not ".toList ++ '@' :: s) :=
    (negatedShortcutTerm token).holds_compiled w.registry w.engine.nextNode
  obtain ⟨value, negated⟩ := w.registry.value_shortcut (f := e.features) d token resolved
  obtain ⟨whole, bare⟩ := d.satisfy_bare e.features
  rw [Engine.view_of_connected connected, shortcut, opposite]
  refine ⟨?_, negated⟩
  have later : (∀ i ∈ d.items.rest.map Prod.snd, i.holds e.features = false) ↔
      (d.items.rest.map Prod.snd).any (ItemText.holds e.features) = false := by
    simp only [List.any_eq_false, Bool.not_eq_true]
  rw [value, whole, bare, later]
  generalize (d.items.rest.map Prod.snd).any (ItemText.holds e.features) = others
  cases d.items.first.negated <;> cases d.bare.items.first.holds e.features <;> cases others <;> decide

def printPart : Media.PartText := ⟨"print".toList, .inl ⟨by decide, List.all_eq_true.mp (by decide), by decide⟩⟩

def screenPart : Media.PartText := ⟨"screen".toList, .inl ⟨by decide, List.all_eq_true.mp (by decide), by decide⟩⟩

/-- Anything but paper, or a screen. -/
def airy : DescriptorText where
  items :=
    ⟨⟨some Media.plainNot, ⟨printPart, []⟩, List.forall_mem_nil _⟩,
      [(", ".toList, ⟨none, ⟨screenPart, []⟩, List.forall_mem_nil _⟩)]⟩
  between := by
    rintro s (_ | ⟨_, _ | _⟩)
    exact ⟨[], " ".toList, rfl, List.forall_mem_nil _, List.all_eq_true.mp (by decide)⟩
  left := []
  right := []
  blankLeft := List.forall_mem_nil _
  blankRight := List.forall_mem_nil _

example : airy.text = "not print, screen".toList := by decide +kernel

def airyRegistry : Registry :=
  { Registry.standard with environment := Registry.standard.environment.add "airy".toList (.descriptor airy.text) }

private theorem resolve_airy :
    airyRegistry.resolve? (Text.lowerAscii "Airy".toList) = some (.descriptor airy.text) := by
  decide +kernel

/-- On a terminal, where the second item does not hold, the shortcut means its descriptor. -/
theorem holds_compile_shortcut_airy :
    let w := Watcher.start {} airyRegistry
    let terminal : Engine := { features := { mediaType := "tty".toList } }
    (w.compile "@Airy".toList).1.holds terminal.view = true ∧
      (w.compile "not @Airy".toList).1.holds terminal.view = false := by
  intro w terminal
  have token : Registry.token? ('@' :: "Airy".toList) = some "Airy".toList := by decide
  have later : ∀ i ∈ airy.items.rest.map Prod.snd, i.holds terminal.features = false := by decide +kernel
  have present : terminal.features.satisfy airy.text = true := by decide +kernel
  obtain ⟨means, opposite⟩ := holds_compile_shortcut w (e := terminal) rfl airy token resolve_airy
  have shortcut := (means.mpr fun _ => later).trans present
  exact ⟨shortcut, opposite.trans (congrArg _ shortcut)⟩

/-- On a screen the shortcut does not hold, and its descriptor does. -/
theorem shortcut_misread :
    let w := Watcher.start {} airyRegistry
    w.engine.connected = true ∧ w.registry.resolve? "airy".toList = some (.descriptor airy.text) ∧
      (w.compile "@airy".toList).1.holds w.engine.view = false ∧ w.engine.features.satisfy airy.text = true := by
  decide +kernel

end MediaWatch

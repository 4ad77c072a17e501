import MediaWatch.Proofs.Condition.Meaning
import MediaWatch.Proofs.Text.Cutting
import MediaWatch.Watcher

/-! # Queries mean what they say

A query that is written as groups of terms, with `and` between the terms of a group and a comma or `or` between
groups, is compiled to a condition that holds whenever all terms of some group do. What a term comes to is read
off its text, with at most one `not` in front of it and at most one in front of what its shortcut stands for.
-/

namespace MediaWatch

/-- A term as it is written: without commas, neither starting nor ending with a blank, and
with no word `and` or `or`. -/
structure TermText where
  text : Text
  closed : Text.Closed text
  commaless : ',' ∉ text
  plain : ∀ w ∈ Text.words text, ¬ Text.sameAsciiLetters w "and".toList ∧ ¬ Text.sameAsciiLetters w "or".toList

/-- A group as it is written: terms with `and` between them. -/
structure GroupText where
  terms : Woven TermText
  between : ∀ s ∈ terms.separators, Text.IsSpaced "and".toList s

/-- A query as it is written: groups with a comma or `or` between them, and blanks on the outside. -/
structure QueryText where
  groups : Woven GroupText
  between : ∀ s ∈ groups.separators, Text.IsComma s ∨ Text.IsSpaced "or".toList s
  left : Text
  right : Text
  blankLeft : ∀ c ∈ left, Text.isBlank c
  blankRight : ∀ c ∈ right, Text.isBlank c

def GroupText.text (g : GroupText) : Text := g.terms.write TermText.text

def QueryText.text (q : QueryText) : Text := q.left ++ q.groups.write GroupText.text ++ q.right

/-- What the text of a term comes to in a snapshot: what its descriptor comes to, negated once for each `not`. -/
def Registry.value (r : Registry) (f : Media.Features) (t : Text) : Bool :=
  let (outer, rest) := Term.stripNot t
  let (inner, descriptor) := Term.stripNot (r.preprocess rest).trim
  !descriptor.isEmpty && ((f.satisfy descriptor != outer) != inner)

def Term.holds (f : Media.Features) : Term → Bool
  | constant holds => holds
  | watch descriptor inverted => f.satisfy descriptor != inverted

/-- A text is `not`, in any ASCII case, then blanks, then the rest. -/
def Term.Negates (t rest : Text) : Prop :=
  ∃ x b, t = x ++ (b ++ rest) ∧ Text.sameAsciiLetters x "not".toList ∧ b ≠ [] ∧ (∀ c ∈ b, Text.isBlank c) ∧
    ∀ c ∈ rest.head?, Text.isBlank c = false

/-! ## Terms -/

namespace Term

variable {f : Media.Features} {t rest : Text}

/-- A leading `not` is stripped with all blanks behind it. -/
theorem stripNot_of_negates (negates : Negates t rest) : stripNot t = (true, rest) := by
  obtain ⟨x, b, rfl, same, some, blank, starts⟩ := negates
  have length : "not".toList.length = x.length := (Text.length_of_sameAsciiLetters same).symm
  have run : Text.blankRun (b ++ rest) ≠ 0 := by
    rw [Text.blankRun_front blank starts]
    simpa using some
  rw [stripNot, Text.afterWord?, length]
  simp only [List.take_left, List.drop_left]
  rw [if_pos ⟨same, run⟩, Text.trimStart_append blank starts]

/-- Only a leading `not` with blanks behind it is stripped. -/
theorem negates_of_stripNot (stripped : stripNot t = (true, rest)) : Negates t rest := by
  rw [stripNot, Text.afterWord?] at stripped
  split at stripped
  · next later found =>
    obtain ⟨⟨same, run⟩, trimmed⟩ := Option.ite_none_right_eq_some.mp found
    obtain rfl : later = rest := (Prod.mk.inj stripped).2
    obtain ⟨b, later, split, blank, starts, length⟩ := Text.exists_blankRun (t.drop "not".toList.length)
    rw [split, Text.trimStart_append blank starts] at trimmed
    rw [length] at run
    refine ⟨t.take "not".toList.length, b, ?_, same, fun none => run (List.length_eq_zero_iff.mpr none), blank, ?_⟩
    · rw [← Option.some.inj trimmed, ← split, List.take_append_drop]
    · rw [← Option.some.inj trimmed]
      exact starts
  · exact absurd (congrArg Prod.fst stripped) Bool.false_ne_true

/-- What does not start with `not` and blanks stays as it is. -/
theorem stripNot_of_not_negates (never : ∀ u, ¬ Negates t u) : stripNot t = (false, t) := by
  rw [stripNot]
  split
  · next later found =>
    refine absurd (negates_of_stripNot ?_) (never later)
    rw [stripNot, found]
  · rfl

/-- The constants among the descriptors are what their written forms say. -/
theorem holds_ofDescriptor (descriptor : Text) (inverted : Bool) :
    (ofDescriptor descriptor inverted).holds f = (!descriptor.isEmpty && (f.satisfy descriptor != inverted)) := by
  rw [ofDescriptor]
  split
  · next blank =>
    rw [blank]
    rfl
  · next some =>
    rw [Bool.not_eq_true] at some
    rw [some, Bool.not_false, Bool.true_and]
    split
    · next always =>
      rw [Media.satisfy_all f always, Bool.true_bne]
      rfl
    · split
      · next never =>
        rw [Media.satisfy_notAll f never, Bool.false_bne]
        rfl
      · rfl

/-- What the term of a text comes to. -/
theorem holds_ofText (r : Registry) {t : Text} (trimmed : t.trim = t) : (ofText r t).holds f = r.value f t := by
  rw [ofText, Registry.value, trimmed]
  simp only [holds_ofDescriptor]
  cases (stripNot t).1 <;> cases (stripNot (r.preprocess (stripNot t).2).trim).1 <;> simp

end Term

/-! ## Conditions -/

namespace Condition

variable {f : Media.Features}

private theorem holds_ofTerm (next : NodeId) (t : Term) : (ofTerm next t).1.holds f.view = t.holds f := by
  cases t with
  | constant b => exact holds_constant f.view b
  | watch descriptor inverted => rfl

private theorem holds_ofTerms (next : NodeId) (ts : List Term) :
    (ofTerms next ts).1.map (holds f.view) = ts.map (Term.holds f) := by
  induction ts generalizing next with
  | nil => rfl
  | cons t ts ih => exact congrArg₂ List.cons (holds_ofTerm next t) (ih _)

private theorem holds_ofGroups (next : NodeId) (groups : List (List Term)) :
    (ofGroups next groups).1.map (holds f.view) = groups.map fun ts => ts.all (Term.holds f) := by
  induction groups generalizing next with
  | nil => rfl
  | cons ts groups ih =>
    refine congrArg₂ List.cons ?_ (ih _)
    rw [holds_group]
    simpa only [List.all_map, Function.comp_def] using congrArg (·.all fun b => b) (holds_ofTerms (next + 1) ts)

/-- A query that is not blank is compiled to what holds whenever all terms of some group do. -/
theorem holds_compiled (r : Registry) (next : NodeId) {query : Text} (some : query.trim ≠ []) :
    (compile r next query).1.holds f.view = (r.groups query.trim).any fun ts => ts.all (Term.holds f) := by
  rw [compile]
  simp only [List.isEmpty_eq_false_iff.mpr some, Bool.false_eq_true, ↓reduceIte]
  rw [holds_simplify, holds_group]
  simpa only [List.any_map, Function.comp_def] using
    congrArg (·.any fun b => b) (holds_ofGroups (next + 1) (r.groups query.trim))

end Condition

namespace GroupText

theorem closed (g : GroupText) : Text.Closed g.text := Text.closed_write fun t _ => t.closed

theorem commaless (g : GroupText) : ',' ∉ g.text :=
  Text.commaless_write Text.isKeyword_and (fun t _ => t.commaless) g.between

/-- The words of a group are those of its terms, and `and`. -/
theorem plain (g : GroupText) : ∀ w ∈ Text.words g.text, ¬ Text.sameAsciiLetters w "or".toList := by
  obtain ⟨⟨first, rest⟩, between⟩ := g
  intro x mem
  rw [text] at mem
  induction rest generalizing first with
  | nil =>
    rw [Woven.write, List.flatMap_nil, List.append_nil] at mem
    exact (first.plain x mem).2
  | cons entry rest ih =>
    obtain ⟨s, t⟩ := entry
    obtain ⟨a, y, b, rfl, before, blank, same, behind, blank'⟩ := between s List.mem_cons_self
    have letters := Text.not_isBlank_of_sameAsciiLetters same Text.isKeyword_and.solid
    have someLetter : y ≠ [] := by
      rintro rfl
      exact absurd (Text.length_of_sameAsciiLetters same) (by decide)
    rw [Woven.write_cons, List.append_assoc, List.append_assoc, Text.words_blanks before blank,
      Text.words_blanks behind blank', Text.words_of_solid letters someLetter] at mem
    rcases List.mem_append.mp mem with mem | mem
    · exact (first.plain x mem).2
    · rcases List.mem_append.mp mem with mem | mem
      · rw [List.mem_singleton.mp mem]
        intro other
        exact absurd ((Text.length_of_sameAsciiLetters same).symm.trans
          (Text.length_of_sameAsciiLetters other)) (by decide)
      · exact ih t (fun s mem => between s (List.mem_cons_of_mem _ mem)) mem

/-- A group is cut into its terms. -/
theorem cut_text (g : GroupText) : Text.cut Text.andWord g.text = g.terms.items.map TermText.text := by
  refine Text.cut_write (fun t _ => t.closed) (fun t _ => ?_) fun s mem => ?_
  · exact Text.passes_spaced Text.isKeyword_and t.closed fun w mem => (t.plain w mem).1
  · exact Text.takes_spaced Text.isKeyword_and (g.between s mem)

end GroupText

namespace QueryText

private theorem trim_text (q : QueryText) : q.text.trim = q.groups.write GroupText.text :=
  Text.trim_append q.blankLeft q.blankRight (Text.closed_write fun g _ => g.closed)

/-- A query is cut into its groups. -/
theorem cut_text (q : QueryText) : Text.cut Text.commaOrWord q.text.trim = q.groups.items.map GroupText.text := by
  rw [trim_text]
  refine Text.cut_write (fun g _ => g.closed) (fun g _ => ?_) fun s mem => Text.takes_commaOrWord (q.between s mem)
  exact Text.passes_commaOrWord g.closed g.commaless g.plain

/-- A query holds in an environment whenever all terms of some group do. -/
theorem holds_compile (q : QueryText) (w : Watcher) {e : Engine} (connected : e.connected = true) :
    (w.compile q.text).1.holds e.view =
      q.groups.items.any fun g => g.terms.items.all fun t => w.registry.value e.features t.text := by
  have some : q.text.trim ≠ [] := by
    rw [trim_text]
    exact Text.write_ne_nil fun g _ => g.closed
  have terms : ∀ t : TermText, (Term.ofText w.registry t.text).holds e.features = w.registry.value e.features t.text :=
    fun t => Term.holds_ofText w.registry (Text.trim_closed t.closed)
  show (Condition.compile w.registry w.engine.nextNode q.text).1.holds e.view = _
  rw [Engine.view_of_connected connected, Condition.holds_compiled _ _ some, Registry.groups, cut_text]
  simp only [List.any_map, List.all_map, Function.comp_def, GroupText.cut_text, terms]

end QueryText

/-! ## A query with a shortcut -/

namespace QueryText

def quietTerm : TermText := ⟨"@quiet".toList, by decide, by decide, by decide +kernel⟩

def negatedTerm : TermText := ⟨"NOT  @quiet".toList, by decide, by decide, by decide +kernel⟩

def screenTerm : TermText := ⟨"screen".toList, by decide, by decide, by decide +kernel⟩

def loudGroup : GroupText where
  terms := ⟨negatedTerm, [(" And ".toList, screenTerm)]⟩
  between := by
    rintro s (_ | ⟨_, _ | _⟩)
    exact ⟨" ".toList, "And".toList, " ".toList, rfl, by decide,
      List.all_eq_true.mp (by decide), by decide, by decide, List.all_eq_true.mp (by decide)⟩

/-- Three groups, the first of which negates a shortcut that may stand for something negated. -/
def quiet : QueryText where
  groups := ⟨loudGroup, [(" , ".toList, ⟨⟨quietTerm, []⟩, nofun⟩), ("\tor ".toList, ⟨⟨screenTerm, []⟩, nofun⟩)]⟩
  between := by
    rintro s (_ | ⟨_, _ | ⟨_, _ | _⟩⟩)
    · exact .inl ⟨" ".toList, " ".toList, rfl, List.all_eq_true.mp (by decide), List.all_eq_true.mp (by decide)⟩
    · exact .inr ⟨"\t".toList, "or".toList, " ".toList, rfl, by decide,
        List.all_eq_true.mp (by decide), by decide, by decide, List.all_eq_true.mp (by decide)⟩
  left := "\n".toList
  right := " ".toList
  blankLeft := List.all_eq_true.mp (by decide)
  blankRight := List.all_eq_true.mp (by decide)

example : quiet.text = "\nNOT  @quiet And screen , @quiet\tor screen ".toList := by decide +kernel

/-- A registry in which the shortcut stands for the absence of hovering. -/
def hoverless : Registry :=
  .use .standard (.exactly "quiet".toList "quiet".toList (.descriptor "not (hover: hover)".toList))

/-- On paper without hovering, the query holds because its second group does. -/
theorem holds_compile_quiet :
    let w := Watcher.start {} hoverless
    let e : Engine := { features := { hover := false, mediaType := "print".toList } }
    e.connected = true ∧ (w.compile quiet.text).1.holds e.view = true := by
  intro w e
  have connected : e.connected = true := rfl
  have value :
      (quiet.groups.items.any fun g => g.terms.items.all fun t => w.registry.value e.features t.text) = true := by
    decide +kernel
  exact ⟨connected, (quiet.holds_compile w connected).trans value⟩

end QueryText

end MediaWatch

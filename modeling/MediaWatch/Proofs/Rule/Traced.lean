import MediaWatch.CommandLine.Answer
import MediaWatch.Proofs.Condition.Meaning
import MediaWatch.Proofs.Rule.Resolution

/-! # Traces tell the truth

A trace looks at every child of every group, and a rule list is traced from the front, while a condition stops at the
first child that decides it and the rule that counts is looked for from the back. Both come to the same, so what a
report prints at its top and the marks in front of its rows belong together.
-/

namespace MediaWatch

/-- A trace tells what a condition comes to: it has a node for every node of the condition, with the same descriptor and
inversion or the same junction, and says of each whether it holds. -/
inductive Trace.Tells (view : View) : Condition → Trace → Prop
  | always : Tells view .always .always
  | never : Tells view .never .never
  | leaf (id : NodeId) (l : MediaList) (inverted : Bool) :
      Tells view (.leaf id l inverted) (.leaf ((Condition.leaf id l inverted).holds view) l.descriptor inverted)
  | group (id : NodeId) (j : Junction) {cs : List Condition} {ts : List Trace}
      (children : List.Forall₂ (Tells view) cs ts) :
      Tells view (.group id j cs) (.group ((Condition.group id j cs).holds view) j ts)

variable {view : View}

namespace Trace

theorem Tells.matched {c : Condition} {t : Trace} (tells : Tells view c t) : t.matched = c.holds view := by
  cases tells <;> rfl

theorem Tells.map_matched {cs : List Condition} {ts : List Trace} (tells : List.Forall₂ (Tells view) cs ts) :
    ts.map Trace.matched = cs.map (Condition.holds view) := by
  induction tells with
  | nil => rfl
  | cons first _ ih => exact congrArg₂ List.cons first.matched ih

/-- What the children of a group came to is what the group comes to. -/
theorem Tells.combined (id : NodeId) (j : Junction) {cs : List Condition} {ts : List Trace}
    (tells : List.Forall₂ (Tells view) cs ts) :
    (match j with
      | .all => ts.all Trace.matched
      | .any => ts.any Trace.matched) = (Condition.group id j cs).holds view := by
  have values := Tells.map_matched tells
  rw [Condition.holds_group]
  cases j with
  | all => simpa only [List.all_map, Function.comp_def] using congrArg (·.all fun b => b) values
  | any => simpa only [List.any_map, Function.comp_def] using congrArg (·.any fun b => b) values

end Trace

namespace Condition

mutual

/-- The trace of a condition tells what it comes to. -/
theorem tells_trace : (c : Condition) → Trace.Tells view c (c.trace view)
  | .always => .always
  | .never => .never
  | .leaf id l inverted => .leaf id l inverted
  | .group id j cs => by
    have children := tells_traces cs
    have whole : (group id j cs).trace view = .group ((group id j cs).holds view) j (traces view cs) := by
      rw [← Trace.Tells.combined id j children]
      cases j <;> rfl
    rw [whole]
    exact .group id j children

theorem tells_traces : (cs : List Condition) → List.Forall₂ (Trace.Tells view) cs (traces view cs)
  | [] => .nil
  | c :: cs => .cons (tells_trace c) (tells_traces cs)

end

end Condition

/-! ## Rule lists -/

namespace RuleList

variable {α : Type}

def stepOf (view : View) (index : Nat) (r : Rule α) : Step :=
  ⟨index, r.isDefault, r.holds view, r.condition.trace view⟩

/-- Every rule is traced at its place. -/
theorem getElem?_stepsFrom (first i : Nat) (rules : List (Rule α)) :
    (stepsFrom view first rules)[i]? = rules[i]?.map (stepOf view (first + i)) := by
  induction rules generalizing first i with
  | nil => rfl
  | cons r rest ih =>
    have here : stepsFrom view first (r :: rest) = stepOf view first r :: stepsFrom view (first + 1) rest := by
      rw [stepOf, Rule.holds, ← (Condition.tells_trace r.condition).matched]
      rfl
    rw [here]
    cases i with
    | zero => rfl
    | succ i =>
      rw [List.getElem?_cons_succ, List.getElem?_cons_succ, ih, Nat.add_right_comm, Nat.add_assoc]

private theorem length_stepsFrom (first : Nat) (rules : List (Rule α)) :
    (stepsFrom view first rules).length = rules.length := by
  induction rules generalizing first with
  | nil => rfl
  | cons r rest ih => exact congrArg (· + 1) (ih (first + 1))

private theorem activeStep?_cons (s : Step) (steps : List Step) :
    activeStep? (s :: steps) =
      match activeStep? steps with
      | some i => some i
      | none => if s.matched then some s.index else none := by
  rw [activeStep?, List.reverse_cons, List.find?_append, Option.map_or, activeStep?]
  have single : ([s].find? (·.matched)).map (·.index) = if s.matched then some s.index else none := by
    cases matched : s.matched <;> simp [matched]
  rw [single]
  cases (steps.reverse.find? (·.matched)).map (·.index) <;> rfl

/-- The last step that matched is the rule that counts. -/
theorem activeStep?_stepsFrom (first : Nat) (rules : List (Rule α)) :
    activeStep? (stepsFrom view first rules) = (activeIndex view (rules.map (·.condition))).map (first + ·) := by
  induction rules generalizing first with
  | nil => rfl
  | cons r rest ih =>
    rw [stepsFrom, activeStep?_cons, ih, List.map_cons, activeIndex, (Condition.tells_trace r.condition).matched]
    cases activeIndex view (rest.map (·.condition)) with
    | some i =>
      show some (first + 1 + i) = some (first + (i + 1))
      congr 1
      omega
    | none => cases r.condition.holds view <;> rfl

/-- The trace of a list finds the rule that counts. -/
theorem activeStep?_steps (l : RuleList α) : activeStep? (l.steps view) = l.active? view := by
  rw [steps, activeStep?_stepsFrom]
  simp only [Nat.zero_add, Option.map_id']
  rfl

/-- The rule that counts is the last one that holds, if one does. -/
theorem activeIndex_spec (view : View) (cs : List Condition) :
    match activeIndex view cs with
    | some i => (∃ c, cs[i]? = some c ∧ c.holds view) ∧ ∀ j, i < j → ∀ c ∈ cs[j]?, c.holds view = false
    | none => ∀ i : Nat, ∀ c ∈ cs[i]?, c.holds view = false := by
  induction cs with
  | nil =>
    intro i c mem
    contradiction
  | cons first rest ih =>
    rw [activeIndex]
    cases found : activeIndex view rest with
    | some i =>
      rw [found] at ih
      obtain ⟨held, later⟩ := ih
      refine ⟨held, fun j behind => ?_⟩
      obtain ⟨j, rfl⟩ := Nat.exists_eq_add_one_of_ne_zero (Nat.ne_zero_of_lt behind)
      exact later j (Nat.lt_of_succ_lt_succ behind)
    | none =>
      rw [found] at ih
      cases held : first.holds view with
      | true =>
        refine ⟨⟨first, rfl, held⟩, fun j behind => ?_⟩
        obtain ⟨j, rfl⟩ := Nat.exists_eq_add_one_of_ne_zero (Nat.ne_zero_of_lt behind)
        exact ih j
      | false =>
        intro i c mem
        cases i with
        | zero => exact Option.some.inj mem ▸ held
        | succ i => exact ih i c mem

/-! ## Lists that are read -/

/-- A rule that is read carries a payload. -/
theorem isSome_payload_ofParts (read? : Text → Option α) (w : Watcher) (parts : Text × Text) :
    ∀ r ∈ (Rule.ofParts? read? w parts).1, r.payload.isSome := by
  intro r mem
  rw [Rule.ofParts?] at mem
  split at mem
  · contradiction
  · split at mem
    · exact Option.some.inj mem ▸ rfl
    · exact Option.some.inj mem ▸ rfl

private theorem isSome_payload_ofAllParts (read? : Text → Option α) (w : Watcher) (ps : List (Text × Text)) :
    ∀ r ∈ (Rule.ofAllParts read? w ps).1, r.payload.isSome := by
  induction ps generalizing w with
  | nil => exact fun r mem => absurd mem List.not_mem_nil
  | cons p ps ih =>
    intro r mem
    rcases List.mem_append.mp mem with mem | mem
    · exact isSome_payload_ofParts read? w p r (Option.mem_toList.mp mem)
    · exact ih _ r mem

/-- The rules of a list that is read carry payloads. -/
theorem isSome_payload_read {read? : Text → Option α} {rules : Text} {mask : Option Text}
    {v w : Watcher} {l : RuleList α}
    (made : RuleList.read read? rules mask v = .ok (l, w)) : ∀ r ∈ l.rules, r.payload.isSome := by
  have ordered : ∀ ps, ∀ r ∈ RuleList.ordered (Rule.ofAllParts read? v ps).1, r.payload.isSome := by
    intro ps r mem
    apply isSome_payload_ofAllParts read? v ps
    rcases List.mem_append.mp mem with mem | mem
    · exact List.mem_of_mem_filter mem
    · exact List.mem_of_mem_filter mem
  cases mask with
  | none =>
    obtain rfl : (parse read? rules v).1 = l := congrArg Prod.fst (Except.ok.inj made)
    exact ordered _
  | some mask =>
    replace made : parseTuple read? rules mask v = .ok (l, w) := made
    rw [parseTuple] at made
    split at made
    · obtain rfl := congrArg Prod.fst (Except.ok.inj made)
      exact ordered _
    · contradiction

/-- Where rules carry payloads, there is a value as soon as a rule counts. -/
theorem value?_isSome [Mergeable α] {l : RuleList α} (payloads : ∀ r ∈ l.rules, r.payload.isSome) :
    (l.value? view).isSome = (l.active? view).isSome := by
  rw [value?, Option.isSome_map, activeRule, active?, conditions]
  rcases activeIndex_cases view l.rules with ⟨none, -⟩ | ⟨i, r, found, at_i, -⟩
  · rw [none]
    rfl
  · rw [found, Option.bind_some, at_i]
    exact payloads r (List.mem_of_getElem? at_i)

end RuleList

/-! ## Reports -/

namespace CommandLine

/-- What stands at the top of a report: the index and the value that count. -/
def headline : Option (Nat × Payload) → Text
  | some (index, value) => line ('[' :: (Text.ofNat index ++ "] ".toList ++ value.written))
  | none => line "(no match)".toList

/-- The rows of a report, each with its mark, its number and its text. -/
def rows (marks texts : List Text) : List Text :=
  (marks.zip texts).mapIdx fun i row => line (row.1 ++ " [".toList ++ Text.ofNat i ++ "] ".toList ++ row.2)

/-- The marks in front of the rows go with the index that is printed. -/
structure IsMarked (printed : Option Nat) (marks : List Text) : Prop where
  /-- The row of the index, and no other, has a star. -/
  star : ∀ i, marks[i]? = some ['*'] ↔ printed = some i
  /-- All rows behind it have a minus. -/
  behind : ∀ i j, printed = some i → i < j → ∀ mark ∈ marks[j]?, mark = ['-']
  /-- Without an index all rows have one. -/
  bare : printed = none → ∀ mark ∈ marks, mark = ['-']

variable {l : RuleList Payload}

def marksOf (view : View) (l : RuleList Payload) : List Text := (l.steps view).map (ruleMark (l.active? view))

private theorem ruleMark_stepOf (active : Option Nat) (i : Nat) (r : Rule Payload) :
    ruleMark active (RuleList.stepOf view i r) =
      if active = some i then ['*'] else if r.holds view then ['+'] else ['-'] := rfl

private theorem getElem?_marksOf (i : Nat) :
    (marksOf view l)[i]? = l.rules[i]?.map fun r => ruleMark (l.active? view) (RuleList.stepOf view i r) := by
  rw [marksOf, RuleList.steps, List.getElem?_map, RuleList.getElem?_stepsFrom, Option.map_map, Nat.zero_add]
  rfl

private theorem isMarked_marksOf (view : View) (l : RuleList Payload) : IsMarked (l.active? view) (marksOf view l) := by
  have spec := RuleList.activeIndex_spec view l.conditions
  have minus : ∀ i, l.active? view ≠ some i → (∀ c ∈ l.conditions[i]?, c.holds view = false) →
      ∀ mark ∈ (marksOf view l)[i]?, mark = ['-'] := by
    intro i other fails mark mem
    rw [getElem?_marksOf] at mem
    obtain ⟨r, rule, rfl⟩ := Option.map_eq_some_iff.mp mem
    have held : r.holds view = false := by
      apply fails
      rw [RuleList.conditions, List.getElem?_map, rule]
      rfl
    rw [ruleMark_stepOf, if_neg other]
    exact if_neg (ne_true_of_eq_false held)
  rw [← RuleList.active?] at spec
  cases found : l.active? view with
  | some i =>
    rw [found] at spec minus
    obtain ⟨⟨c, at_i, -⟩, later⟩ := spec
    refine ⟨fun j => ⟨fun star => ?_, fun same => ?_⟩, fun j k printed behind mark mem => ?_,
      fun none => absurd none (Option.some_ne_none i)⟩
    · rw [getElem?_marksOf, found] at star
      obtain ⟨r, -, mark⟩ := Option.map_eq_some_iff.mp star
      by_contra other
      rw [ruleMark_stepOf, if_neg other] at mark
      split at mark <;> contradiction
    · obtain rfl := Option.some.inj same
      rw [RuleList.conditions, List.getElem?_map] at at_i
      obtain ⟨r, rule, -⟩ := Option.map_eq_some_iff.mp at_i
      rw [getElem?_marksOf, rule, found, Option.map_some, ruleMark_stepOf, if_pos rfl]
    · obtain rfl := Option.some.inj printed
      exact minus k (fun same => Nat.ne_of_lt behind (Option.some.inj same)) (later k behind) mark mem
  | none =>
    rw [found] at spec minus
    have silent : ∀ i : Nat, none ≠ some i := fun i => (Option.some_ne_none i).symm
    have bare : ∀ mark ∈ marksOf view l, mark = ['-'] := by
      intro mark mem
      obtain ⟨i, at_i⟩ := List.mem_iff_getElem?.mp mem
      exact minus i (silent i) (spec i) mark at_i
    refine ⟨fun i => ⟨fun star => ?_, fun printed => absurd printed (silent i)⟩,
      fun i j printed => absurd printed (silent i), fun _ => bare⟩
    exact absurd (bare _ (List.mem_of_getElem? star)) (by decide)

/-- The rows of a report come from the marks and the texts of the rules. -/
theorem rows_marksOf (view : View) (l : RuleList Payload) :
    (((l.steps view).zip l.rules).map fun (step, r) => ruleText (l.active? view) step r) =
      rows (marksOf view l) (l.rules.map (Rule.text Payload.written)) := by
  apply List.ext_getElem?
  intro i
  have step : (l.steps view)[i]? = l.rules[i]?.map (RuleList.stepOf view i) := by
    rw [RuleList.steps, RuleList.getElem?_stepsFrom, Nat.zero_add]
  rw [rows, List.getElem?_map, List.getElem?_mapIdx, List.zip, List.zip, List.getElem?_zipWith, List.getElem?_zipWith,
    step, getElem?_marksOf, List.getElem?_map]
  cases l.rules[i]? <;> rfl

/-- A report with every rule is a headline and a row for each rule. -/
theorem rulesText_eq (view : View) (payloads : ∀ r ∈ l.rules, r.payload.isSome) :
    ∃ printed : Option (Nat × Payload), printed.map Prod.fst = l.active? view ∧ printed.map Prod.snd = l.value? view ∧
      rulesText view true l =
        headline printed ++ (rows (marksOf view l) (l.rules.map (Rule.text Payload.written))).flatten := by
  have both : (l.value? view).isSome = (l.active? view).isSome := RuleList.value?_isSome payloads
  rw [rulesText, l.activeStep?_steps, rows_marksOf]
  cases index : l.active? view with
  | none =>
    cases value : l.value? view with
    | none => exact ⟨none, rfl, rfl, rfl⟩
    | some value => simp [index, value] at both
  | some i =>
    cases value : l.value? view with
    | none => simp [index, value] at both
    | some payload => exact ⟨some (i, payload), rfl, rfl, rfl⟩

private theorem length_marksOf (view : View) (l : RuleList Payload) : (marksOf view l).length = l.rules.length := by
  rw [marksOf, List.length_map, RuleList.steps, RuleList.length_stepsFrom]

end CommandLine

open CommandLine

/-- The trace of a condition has its shape, its descriptors and its inversions, and says of every node whether it holds.
The trace of a rule list has a step for every rule, with its number, whether it is a default rule, and whether it holds;
the last step that matched is the rule that counts. In a report with every rule, the only row with a star is the one
with the number at the top, and every row behind it has a minus; where nothing is at the top, all rows have one. -/
theorem Trace.tells_truth :
    (∀ (view : View) (c : Condition), Trace.Tells view c (c.trace view)) ∧
      (∀ (α : Type) (view : View) (l : RuleList α), RuleList.activeStep? (l.steps view) = l.active? view ∧
        ∀ i : Nat, (l.steps view)[i]? =
          l.rules[i]?.map fun r => ⟨i, r.isDefault, r.holds view, r.condition.trace view⟩) ∧
      ∀ (files : Files) (rules : Text) (mask : Option Text) (object : Bool)
        (environment : EnvironmentOptions) (report : Text),
        (Request.rules rules mask object environment true).answer files = .ok report →
          ∃ (v w : Watcher) (l : RuleList Payload) (printed : Option (Nat × Payload)) (marks : List Text),
            environment.watcher files = .ok v ∧
              RuleList.read (if object then PayloadReader.literal else .text).read? rules mask v = .ok (l, w) ∧
              printed.map Prod.fst = l.active? w.view ∧ printed.map Prod.snd = l.value? w.view ∧
              report = headline printed ++ (CommandLine.rows marks (l.rules.map (Rule.text Payload.written))).flatten ∧
              marks.length = l.rules.length ∧ IsMarked (printed.map Prod.fst) marks := by
  refine ⟨fun view c => c.tells_trace, fun α view l => ⟨l.activeStep?_steps, fun i => ?_⟩, ?_⟩
  · rw [RuleList.steps, RuleList.getElem?_stepsFrom, Nat.zero_add]
    rfl
  · intro files rules mask object environment report answered
    rw [Request.answer] at answered
    cases watched : environment.watcher files with
    | error failure => simp [watched, bind, Except.bind] at answered
    | ok v =>
      cases made : RuleList.read (if object then PayloadReader.literal else .text).read? rules mask v with
      | error fault => simp [watched, made, bind, Except.bind, Except.mapError] at answered
      | ok pair =>
        obtain ⟨l, w⟩ := pair
        simp only [watched, made, bind, Except.bind, Except.mapError, Except.ok.injEq] at answered
        obtain ⟨printed, index, value, text⟩ := rulesText_eq w.view (RuleList.isSome_payload_read made)
        refine ⟨v, w, l, printed, marksOf w.view l, rfl, made, index, value, ?_, length_marksOf w.view l, ?_⟩
        · exact answered.symm.trans text
        · exact index ▸ isMarked_marksOf w.view l

/-- A request for a report on four rules, the first of which is a default. -/
def posters : Request :=
  .rules "plain|poster|flyer|slide".toList (some "|print|screen|screen and (min-width: 9000px)".toList) false
    ⟨[], none, none, false⟩ true

/-- Two of the rules hold. -/
def postersReport : Text :=
  "[2] flyer\n+ [0] plain\n- [1] poster=>print\n* [2] flyer=>screen\n".toList ++
    "- [3] slide=>screen and (min-width: 9000px)\n".toList

theorem Trace.tells_truth_posters :
    let files : Files := fun _ => .ok []
    posters.answer files = .ok postersReport ∧ ∃ printed marks texts, IsMarked (printed.map Prod.fst) marks ∧
      postersReport = headline printed ++ (CommandLine.rows marks texts).flatten := by
  intro files
  have answered : posters.answer files = .ok postersReport := by decide +kernel
  obtain ⟨v, w, l, printed, marks, -, -, -, -, rows, -, marked⟩ := Trace.tells_truth.2.2 files _ _ _ _ _ answered
  exact ⟨answered, printed, marks, _, marked, rows⟩

end MediaWatch

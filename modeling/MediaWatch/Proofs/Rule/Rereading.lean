import MediaWatch.Proofs.Query.Barless
import MediaWatch.Proofs.Rule.Resolution
import MediaWatch.Report

/-! # Written rule lists are read again

A rule list is written with bars between its rules. As long as no shortcut stands for a text with a bar, what is read
again has the same payloads, for defaults and under queries, but for one case: a default rule with an empty payload is
written as nothing at all, and a blank segment declares no rule.
-/

namespace MediaWatch

/-! ## Written rules -/

namespace Text

private theorem trim_infix (t : Text) : t.trim <:+: t := by
  obtain ⟨a, b, split, -⟩ := exists_trim t
  exact ⟨a, b, by rw [List.append_assoc, ← split]⟩

end Text

namespace Rule

/-- A payload as it is read: no blanks around it, and nothing in it that ends a payload or a rule. -/
structure IsValue (t : Text) : Prop where
  trimmed : t.trim = t
  barless : ruleBar ∉ t
  arrowless : ¬ ruleArrow <:+: t

/-- A rule whose written form stands between bars as it is, with the arrow behind the payload. -/
inductive IsPlain : Rule Payload → Prop
  | fallback {t : Text} (value : IsValue t) : IsPlain (fallback (.text t))
  | conditional {t : Text} {c : Condition} (value : IsValue t) (closed : Text.Closed c.text)
      (barless : ruleBar ∉ c.text) : IsPlain (conditional (.text t) c)

/-- What a rule list keeps of a rule whatever its condition comes to. -/
def label {α : Type} (r : Rule α) : Option α × Bool := (r.payload, r.isDefault)

/-- The payload and the query of a segment stand in it, and no arrow stands in the payload. -/
theorem parts_infix (segment : Text) :
    ¬ ruleArrow <:+: (parts segment).1 ∧ (parts segment).1 <:+: segment ∧ (parts segment).2 <:+: segment := by
  rw [parts]
  rcases Text.cutAt?_first (show ruleArrow ≠ [] by decide) segment with ⟨a, b, cut, rfl, first⟩ | ⟨uncut, nowhere⟩
  · rw [cut]
    exact ⟨first, ⟨[], ruleArrow ++ b, rfl⟩, ⟨a ++ ruleArrow, [], by simp⟩⟩
  · rw [uncut]
    exact ⟨nowhere, List.infix_rfl, ⟨[], segment, rfl⟩⟩

private theorem isValue_parts {segment : Text} (free : ruleBar ∉ segment) : IsValue (parts segment).1.trim := by
  obtain ⟨arrowless, inside, -⟩ := parts_infix segment
  have trimmed := Text.trim_infix (parts segment).1
  exact ⟨Text.trim_trim _, fun bar => free (inside.mem (trimmed.mem bar)), fun arrow => arrowless (arrow.trans trimmed)⟩

variable {rule : Rule Payload}

private theorem IsPlain.barless (plain : rule.IsPlain) : ruleBar ∉ rule.text Payload.written := by
  cases plain with
  | fallback value => exact value.barless
  | conditional value closed barless =>
    intro bar
    rcases List.mem_append.mp bar with bar | bar
    · exact (List.mem_append.mp bar).elim value.barless (by decide)
    · exact barless bar

private theorem IsPlain.payload (plain : rule.IsPlain) : ∃ payload, rule.payload = some payload := by
  cases plain <;> exact ⟨_, rfl⟩

private theorem IsPlain.query_ne_nil (plain : rule.IsPlain) (conditional : rule.isDefault = false) :
    rule.condition.text ≠ [] := by
  cases plain with
  | fallback value => contradiction
  | conditional value closed barless => exact closed.some

/-- Only a default with an empty payload is written as nothing. -/
theorem IsPlain.text_eq_nil_iff (plain : rule.IsPlain) :
    rule.text Payload.written = [] ↔ rule.isDefault = true ∧ rule.payload = some (.text []) := by
  cases plain with
  | @fallback t value =>
    have written : (Rule.fallback (.text t)).text Payload.written = t := rfl
    rw [written]
    simp [Rule.fallback]
  | @conditional t c value closed barless =>
    have sign : '=' ∈ (Rule.conditional (.text t) c).text Payload.written := by
      simp [Rule.text, Rule.conditional, ruleArrow]
    exact iff_of_false (List.ne_nil_of_mem sign) fun both => Bool.false_ne_true both.1

/-- What a written rule declares. -/
theorem IsPlain.declaration?_text (plain : rule.IsPlain) :
    declaration? PayloadReader.text.read? (rule.text Payload.written) =
      if (rule.text Payload.written).isEmpty then none
      else rule.payload.map fun payload => (payload, if rule.isDefault then [] else rule.condition.text) := by
  cases plain with
  | @fallback t value =>
    have uncut : parts t = (t, []) := by
      rcases Text.cutAt?_first (show ruleArrow ≠ [] by decide) t with ⟨a, b, -, split, -⟩ | ⟨uncut, -⟩
      · exact absurd ⟨a, b, by rw [split, List.append_assoc]⟩ value.arrowless
      · rw [parts, uncut, Option.getD_none]
    show declaration? _ t = if t.isEmpty then none else some (Payload.text t, [])
    rw [declaration?, uncut, value.trimmed]
    have read : PayloadReader.text.read? t = some (.text t) := congrArg (some ∘ Payload.text) value.trimmed
    rw [read]
    rfl
  | @conditional t c value closed barless =>
    have written : (Rule.conditional (.text t) c).text Payload.written = t ++ (ruleArrow ++ c.text) :=
      List.append_assoc _ _ _
    have sign : '=' ∈ t ++ (ruleArrow ++ c.text) := by simp [ruleArrow]
    have visible := List.isEmpty_eq_false_iff.mpr (Text.trim_ne_nil sign (by decide))
    have some : (t ++ (ruleArrow ++ c.text)).isEmpty = false := List.isEmpty_eq_false_iff.mpr (List.ne_nil_of_mem sign)
    have read : PayloadReader.text.read? t = .some (.text t) := congrArg (Option.some ∘ Payload.text) value.trimmed
    rw [written, declaration?, visible, some, parts_arrow value.arrowless, read, Text.trim_closed closed]
    rfl

end Rule

namespace RuleList

variable {w : Watcher}

private theorem ordered_append {α : Type} {defaults conditionals : List (Rule α)}
    (front : ∀ r ∈ defaults, r.isDefault = true)
    (back : ∀ r ∈ conditionals, r.isDefault = false) :
    ordered (defaults ++ conditionals) = defaults ++ conditionals := by
  rw [ordered, List.filter_append, List.filter_append, List.filter_eq_self.mpr front,
    List.filter_eq_nil_iff.mpr fun r mem => Bool.not_eq_true _ ▸ back r mem, List.append_nil,
    List.filter_eq_nil_iff.mpr fun r mem => by simp [front r mem], List.nil_append,
    List.filter_eq_self.mpr fun r mem => by simp [back r mem]]

/-- Default rules stay in front when rules are left out. -/
theorem ordered_filter {α : Type} (keep : Rule α → Bool) (rules : List (Rule α)) :
    ordered ((ordered rules).filter keep) = (ordered rules).filter keep := by
  have split : (ordered rules).filter keep =
      (rules.filter (·.isDefault)).filter keep ++ (rules.filter (!·.isDefault)).filter keep := List.filter_append ..
  rw [split]
  refine ordered_append (fun r mem => ?_) fun r mem => ?_
  · exact (List.mem_filter.mp (List.mem_of_mem_filter mem)).2
  · simpa using (List.mem_filter.mp (List.mem_of_mem_filter mem)).2

/-- What is read and then declared is plain. -/
theorem plain_of_declared {d : Payload × Text} (mem : d ∈ declarations PayloadReader.text.read? t) :
    ∃ value, d.1 = .text value ∧ Rule.IsValue value ∧ ruleBar ∉ d.2 := by
  obtain ⟨segment, piece, declared⟩ := List.mem_filterMap.mp mem
  have free := Text.not_mem_of_mem_pieces piece
  rw [Rule.declaration?] at declared
  split at declared
  · contradiction
  obtain ⟨payload, read, rfl⟩ := Option.map_eq_some_iff.mp declared
  refine ⟨_, (Option.some.inj read).symm, Rule.isValue_parts free, fun bar => free ?_⟩
  exact (Rule.parts_infix segment).2.2.mem (Text.mem_of_mem_trim bar)

private theorem plain_ofConditionals (barless : w.IsBarless) {ds : List (Payload × Text)}
    (plain : ∀ d ∈ ds, ∃ value, d.1 = .text value ∧ Rule.IsValue value ∧ ruleBar ∉ d.2) :
    ∀ r ∈ (Rule.ofConditionals w ds).1, r.IsPlain := by
  induction ds generalizing w with
  | nil => exact List.forall_mem_nil _
  | cons d rest ih =>
    obtain ⟨⟨value, payload, isValue, free⟩, others⟩ := List.forall_mem_cons.mp plain
    obtain ⟨kept, written⟩ := barless.asked d.2
    refine List.forall_mem_cons.mpr ⟨?_, ih kept others⟩
    rw [payload]
    exact .conditional isValue (written free).1 (written free).2

/-- The rules of a text are plain. -/
theorem plain_parse (barless : w.IsBarless) (t : Text) :
    ∀ r ∈ (parse PayloadReader.text.read? t w).1.rules, r.IsPlain := by
  rw [parse_eq]
  refine List.forall_mem_append.mpr ⟨fun r mem => ?_, plain_ofConditionals barless fun d mem => ?_⟩
  · obtain ⟨payload, default, rfl⟩ := List.mem_map.mp mem
    obtain ⟨d, declared, rfl⟩ := List.mem_map.mp default
    obtain ⟨value, payload, isValue, -⟩ := plain_of_declared (List.mem_of_mem_filter declared)
    rw [payload]
    exact .fallback isValue
  · exact plain_of_declared (List.mem_of_mem_filter mem)

/-- The labels of the rules of a text can be read off what it declares. -/
theorem labels_parse {α : Type} (read? : Text → Option α) (t : Text) (w : Watcher) :
    (parse read? t w).1.rules.map Rule.label =
      (defaults read? t).map (fun payload => (some payload, true)) ++
        (conditionals read? t).map fun d => (some d.1, false) := by
  have answers := Rule.ofConditionals_answers w {} (conditionals read? t)
  have labels := congrArg (List.map fun x : Option α × Bool × Bool => (x.1, x.2.1)) answers
  simp only [List.map_map] at labels
  rw [parse_eq]
  simp only [Watcher.make, List.map_append, List.map_map]
  exact congrArg _ labels

/-- The written form of plain rules declares what each of them does. -/
theorem declarations_text {l : RuleList Payload} (plain : ∀ r ∈ l.rules, r.IsPlain) :
    declarations PayloadReader.text.read? (l.text Payload.written) =
      l.rules.filterMap fun r => Rule.declaration? PayloadReader.text.read? (r.text Payload.written) := by
  rw [declarations, text]
  by_cases none : l.rules = []
  · rw [none]
    rfl
  · have some : l.rules.map (Rule.text Payload.written) ≠ [] := by simpa using none
    have free : ∀ t ∈ l.rules.map (Rule.text Payload.written), ruleBar ∉ t := by
      intro t mem
      obtain ⟨r, among, rfl⟩ := List.mem_map.mp mem
      exact (plain r among).barless
    rw [Text.pieces_joined some free, List.filterMap_map]
    rfl

def isWritten (r : Rule Payload) : Bool := !(r.text Payload.written).isEmpty

/-- What the written forms of plain rules declare, for defaults and under queries. -/
theorem labels_declared {rules : List (Rule Payload)} (plain : ∀ r ∈ rules, r.IsPlain) :
    let ds := rules.filterMap fun r => Rule.declaration? PayloadReader.text.read? (r.text Payload.written)
    (Rule.defaultsOf ds).map (fun payload => (some payload, true)) =
        ((rules.filter isWritten).filter (·.isDefault)).map Rule.label ∧
      (Rule.conditionalsOf ds).map (fun d => (some d.1, false)) =
        ((rules.filter isWritten).filter (!·.isDefault)).map Rule.label := by
  induction rules with
  | nil => exact ⟨rfl, rfl⟩
  | cons r rest ih =>
    obtain ⟨first, others⟩ := List.forall_mem_cons.mp plain
    have declared := first.declaration?_text
    cases written : isWritten r with
    | false =>
      have empty : (r.text Payload.written).isEmpty := by simpa [isWritten] using written
      simpa [written, declared, empty] using ih others
    | true =>
      have some : (r.text Payload.written).isEmpty = false := by simpa [isWritten] using written
      obtain ⟨payload, carried⟩ := first.payload
      cases default : r.isDefault with
      | true =>
        simpa [written, declared, some, carried, default, Rule.defaultsOf, Rule.conditionalsOf,
          Rule.label] using ih others
      | false =>
        have query := first.query_ne_nil default
        simpa [written, declared, some, carried, default, query, Rule.defaultsOf, Rule.conditionalsOf, Rule.label]
          using ih others

/-- As long as no shortcut stands for a text with a bar, the written form of a rule list has the same rules when it is
read again, with the same payloads and the same defaults, without those for which nothing is written. So it has all of
them exactly if no default rule has an empty payload. -/
theorem parse_text (barless : w.IsBarless) (t : Text) (v : Watcher) :
    let rules := (parse PayloadReader.text.read? t w).1.rules
    let again := (parse PayloadReader.text.read?
      ((parse PayloadReader.text.read? t w).1.text Payload.written) v).1.rules
    again.map Rule.label = (rules.filter isWritten).map Rule.label ∧
      (again.map Rule.label = rules.map Rule.label ↔
        ∀ r ∈ rules, r.isDefault = true → r.payload ≠ some (.text [])) := by
  intro rules again
  have plain : ∀ r ∈ rules, r.IsPlain := plain_parse barless t
  have same : again.map Rule.label = (rules.filter isWritten).map Rule.label := by
    obtain ⟨front, back⟩ := labels_declared plain
    have kept : ordered (rules.filter isWritten) = rules.filter isWritten := ordered_filter isWritten _
    rw [labels_parse, defaults, conditionals, declarations_text plain, front, back, ← List.map_append]
    exact congrArg _ kept
  refine ⟨same, ?_⟩
  have missing : ∀ r ∈ rules, isWritten r = true ↔ (r.isDefault = true → r.payload ≠ some (.text [])) := by
    intro r mem
    have none := (plain r mem).text_eq_nil_iff
    rw [isWritten, Bool.not_eq_true', List.isEmpty_eq_false_iff, ne_eq, none, not_and]
  rw [same]
  constructor
  · intro all r mem
    have length := congrArg List.length all
    rw [List.length_map, List.length_map] at length
    exact (missing r mem).mp (List.length_filter_eq_length_iff.mp length r mem)
  · intro all
    rw [List.filter_eq_self.mpr fun r mem => (missing r mem).mpr (all r mem)]

/-- The usual watcher knows no shortcut with a bar. -/
theorem isBarless_start (f : Media.Features) : (Watcher.start f .standard).IsBarless :=
  ⟨Registry.isBarless_standard, nofun⟩

/-- A default without a payload, a rule without one, a payload that ends like an arrow, and a blank segment. -/
def poster : Text := "plain||=>|=>(hover)|a= => @md and x| ".toList

theorem parse_text_poster :
    let w := Watcher.start {} .standard
    let rules := (parse PayloadReader.text.read? poster w).1.rules
    let again := (parse PayloadReader.text.read?
      ((parse PayloadReader.text.read? poster w).1.text Payload.written) w).1.rules
    w.IsBarless ∧ rules.length = 4 ∧ again.length = 3 ∧
      again.map Rule.label = (rules.filter isWritten).map Rule.label := by
  refine ⟨isBarless_start {}, by decide +kernel, by decide +kernel, (parse_text (isBarless_start {}) poster _).1⟩

/-- A default rule with an empty payload is a rule, but its written form is nothing at all. -/
theorem default_unwritten :
    let w := Watcher.start {} .standard
    let l := (parse PayloadReader.text.read? "=>|a=>print".toList w).1
    w.IsBarless ∧ l.rules.length = 2 ∧ l.text Payload.written = "|a=>print".toList ∧
      (parse PayloadReader.text.read? (l.text Payload.written) w).1.rules.length = 1 :=
  ⟨isBarless_start {}, by decide +kernel, by decide +kernel, by decide +kernel⟩

end RuleList

end MediaWatch

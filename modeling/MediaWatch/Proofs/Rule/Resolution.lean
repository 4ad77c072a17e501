import Mathlib.Data.List.Basic
import MediaWatch.Proofs.Query.Grammar
import MediaWatch.Proofs.Rule.Layering
import MediaWatch.Rule.RuleList
import MediaWatch.Value.Record

/-! # What written rules come to

A text declares default payloads and payloads under queries. Which payload counts depends on the two sequences
alone: the last one whose query is answered with yes, and else the last default. It is laid over the first default.
-/

namespace MediaWatch

variable {α : Type}

/-! ## Asking queries -/

namespace Watcher

variable (w : Watcher) (f : Media.Features)

/-- Whether the condition of a query would hold in an environment. -/
def answers (query : Text) : Bool := (w.query query).1.holds f.view

/-- What a new condition comes to does not depend on the identities of its nodes. -/
theorem holds_compile_renumbered (r : Registry) (next next' : NodeId) (query : Text) :
    (Condition.compile r next query).1.holds f.view = (Condition.compile r next' query).1.holds f.view := by
  by_cases blank : query.trim = []
  · simp [Condition.compile, blank]
  · rw [Condition.holds_compiled r next blank, Condition.holds_compiled r next' blank]

/-- Asking for a condition does not change what other queries are answered with. -/
theorem answers_query (asked query : Text) : (w.query asked).2.answers f query = w.answers f query := by
  cases cached : w.cache.find? asked with
  | some c => simp [Watcher.query, cached]
  | none =>
    have compiled : w.query asked = ((w.compile asked).1,
        { (w.compile asked).2 with cache := w.cache.insert asked (w.compile asked).1 }) := by
      rw [Watcher.query, cached]
      rfl
    rw [compiled, answers, answers, Watcher.query, Watcher.query, Fields.find?_insert]
    by_cases same : asked = query
    · rw [if_pos same, ← same, cached]
    · rw [if_neg same]
      cases w.cache.find? query with
      | some c => rfl
      | none => exact holds_compile_renumbered f w.registry _ _ query

end Watcher

/-! ## Declarations -/

namespace Rule

/-- What a segment declares: a payload, and the query it is for, which is empty for a default. A blank segment
declares nothing, nor does one whose payload cannot be read. -/
def declaration? (read? : Text → Option α) (segment : Text) : Option (α × Text) :=
  if segment.trim.isEmpty then none
  else (read? (parts segment).1).map fun payload => (payload, (parts segment).2.trim)

def defaultsOf (ds : List (α × Text)) : List α := (ds.filter (·.2.isEmpty)).map Prod.fst

/-- The payloads that are declared under queries, and their queries. -/
def conditionalsOf (ds : List (α × Text)) : List (α × Text) := ds.filter (!·.2.isEmpty)

/-- The rules for payloads under queries, whose conditions are asked for in order. -/
def ofConditionals (w : Watcher) : List (α × Text) → List (Rule α) × Watcher
  | [] => ([], w)
  | (payload, query) :: rest =>
    let (c, w) := w.query query
    let (rules, w) := ofConditionals w rest
    (conditional payload c :: rules, w)

/-- The payload that counts: of the last conditional rule that holds, or else the last default. -/
def winner? (view : View) (conditional : List (Rule α)) (defaults : List α) : Option α :=
  ((conditional.filter (holds view)).getLast?.bind (·.payload)).or defaults.getLast?

variable (w : Watcher)

/-- Conditional rules carry the payloads that are declared, and hold when their queries are answered with yes. -/
theorem ofConditionals_answers (f : Media.Features) (ds : List (α × Text)) :
    (ofConditionals w ds).1.map (fun r => (r.payload, r.isDefault, r.holds f.view)) =
      ds.map fun d => (some d.1, false, w.answers f d.2) := by
  induction ds generalizing w with
  | nil => rfl
  | cons d rest ih =>
    refine congrArg₂ List.cons rfl ((ih (w.query d.2).2).trans ?_)
    simp only [Watcher.answers_query]

private theorem of_mem_ofConditionals {ds : List (α × Text)} {r : Rule α} (mem : r ∈ (ofConditionals w ds).1) :
    r.isDefault = false ∧ ∃ d ∈ ds, r.payload = some d.1 := by
  induction ds generalizing w with
  | nil => exact absurd mem List.not_mem_nil
  | cons d rest ih =>
    rcases List.mem_cons.mp mem with rfl | mem
    · exact ⟨rfl, d, List.mem_cons_self, rfl⟩
    · obtain ⟨conditional, d', declared, eq⟩ := ih _ mem
      exact ⟨conditional, d', List.mem_cons_of_mem _ declared, eq⟩

private theorem winner?_mem {view : View} {cs : List (Rule α)} {defaults : List α} {payload : α}
    (won : winner? view cs defaults = some payload) : (∃ r ∈ cs, r.payload = some payload) ∨ payload ∈ defaults := by
  rcases Option.or_eq_some_iff.mp won with held | ⟨-, last⟩
  · obtain ⟨r, last, eq⟩ := Option.bind_eq_some_iff.mp held
    exact .inl ⟨r, List.mem_of_mem_filter (List.mem_of_getLast? last), eq⟩
  · exact .inr (List.mem_of_getLast? last)

/-- The rules of written parts are those of the declarations, of which only the conditional ones ask for conditions. -/
theorem ofAllParts_eq (read? : Text → Option α) (ps : List (Text × Text)) :
    let ds := ps.filterMap fun p => (read? p.1).map fun payload => (payload, p.2.trim)
    (ofAllParts read? w ps).1.filter (·.isDefault) = (defaultsOf ds).map fallback ∧
      (ofAllParts read? w ps).1.filter (!·.isDefault) = (ofConditionals w (conditionalsOf ds)).1 ∧
      (ofAllParts read? w ps).2 = (ofConditionals w (conditionalsOf ds)).2 := by
  induction ps generalizing w with
  | nil => exact ⟨rfl, rfl, rfl⟩
  | cons p rest ih =>
    cases found : read? p.1 with
    | none => simpa [ofAllParts, ofParts?, found] using ih w
    | some payload =>
      by_cases blank : p.2.trim.isEmpty
      · simpa [ofAllParts, ofParts?, found, blank, defaultsOf, conditionalsOf, fallback] using ih w
      · simpa [ofAllParts, ofParts?, found, blank, defaultsOf, conditionalsOf, conditional,
          ofConditionals] using ih (w.query p.2.trim).2

end Rule

namespace RuleList

def declarations (read? : Text → Option α) (t : Text) : List (α × Text) :=
  (Text.pieces ruleBar t).filterMap (Rule.declaration? read?)

def defaults (read? : Text → Option α) (t : Text) : List α := Rule.defaultsOf (declarations read? t)

/-- The payloads that a text declares under queries, with their queries. -/
def conditionals (read? : Text → Option α) (t : Text) : List (α × Text) := Rule.conditionalsOf (declarations read? t)

private theorem declarations_eq (read? : Text → Option α) (t : Text) :
    ((segments t).map Rule.parts).filterMap (fun p => (read? p.1).map fun payload => (payload, p.2.trim)) =
      declarations read? t := by
  rw [segments, List.filterMap_map, List.filterMap_filter, declarations]
  refine List.filterMap_congr fun segment _ => ?_
  rw [Rule.declaration?]
  cases segment.trim.isEmpty <;> rfl

/-- What is declared was read. -/
theorem read_of_declared {read? : Text → Option α} {t : Text} {d : α × Text} (mem : d ∈ declarations read? t) :
    ∃ s, read? s = some d.1 := by
  obtain ⟨segment, -, declared⟩ := List.mem_filterMap.mp mem
  rw [Rule.declaration?] at declared
  split at declared
  · contradiction
  · obtain ⟨payload, read, rfl⟩ := Option.map_eq_some_iff.mp declared
    exact ⟨_, read⟩

/-- The rules of a text: the defaults in front, and those under queries behind them. -/
theorem parse_eq (read? : Text → Option α) (t : Text) (w : Watcher) :
    parse read? t w = (Rule.ofConditionals w (conditionals read? t)).2.make fun id =>
      ⟨id, (defaults read? t).map Rule.fallback ++ (Rule.ofConditionals w (conditionals read? t)).1⟩ := by
  obtain ⟨front, back, watcher⟩ := Rule.ofAllParts_eq w read? ((segments t).map Rule.parts)
  rw [declarations_eq] at front back watcher
  simp only [parse, ofRules, ordered, front, back, watcher, defaults, conditionals]

/-- The index that is looked for is that of the last rule that holds. -/
theorem activeIndex_cases (view : View) (rules : List (Rule α)) :
    (activeIndex view (rules.map (·.condition)) = none ∧ rules.filter (Rule.holds view) = []) ∨
      ∃ i r, activeIndex view (rules.map (·.condition)) = some i ∧ rules[i]? = some r ∧
        (rules.filter (Rule.holds view)).getLast? = some r := by
  induction rules with
  | nil => exact .inl ⟨rfl, rfl⟩
  | cons first rest ih =>
    rcases ih with ⟨none, empty⟩ | ⟨i, r, found, at_i, last⟩
    · cases held : first.holds view with
      | true =>
        refine .inr ⟨0, first, ?_, rfl, ?_⟩
        · simpa [activeIndex, none, Rule.holds] using held
        · simp [held, empty]
      | false =>
        refine .inl ⟨?_, ?_⟩
        · simpa [activeIndex, none, Rule.holds] using held
        · simp [held, empty]
    · refine .inr ⟨i + 1, r, ?_, at_i, ?_⟩
      · simp [activeIndex, found]
      · cases held : first.holds view with
        | true => simp [held, List.getLast?_cons, last]
        | false => simp [held, last]

private theorem activeRule_eq (view : View) (l : RuleList α) :
    l.activeRule view = (l.rules.filter (Rule.holds view)).getLast?.getD Rule.nothing := by
  rw [activeRule, active?, conditions]
  rcases activeIndex_cases view l.rules with ⟨none, empty⟩ | ⟨i, r, found, at_i, last⟩
  · rw [none, empty]
    rfl
  · rw [found, Option.bind_some, at_i, last]

variable {cs : List (Rule α)} {ds : List α} {id : NodeId}

/-- Behind defaults, the payload that counts is that of the last rule that holds, or else the last default. -/
theorem payload_activeRule (view : View) (payloads : ∀ r ∈ cs, r.payload.isSome) :
    (RuleList.activeRule view ⟨id, ds.map Rule.fallback ++ cs⟩).payload = Rule.winner? view cs ds := by
  have always : (ds.map Rule.fallback).filter (Rule.holds view) = ds.map Rule.fallback := by
    refine List.filter_eq_self.mpr fun r mem => ?_
    obtain ⟨d, -, rfl⟩ := List.mem_map.mp mem
    rfl
  rw [activeRule_eq, List.filter_append, always, List.getLast?_append, Rule.winner?]
  cases last : (cs.filter (Rule.holds view)).getLast? with
  | some r =>
    obtain ⟨payload, some⟩ :=
      Option.isSome_iff_exists.mp (payloads r (List.mem_of_mem_filter (List.mem_of_getLast? last)))
    simp [some]
  | none =>
    rw [List.getLast?_map]
    cases ds.getLast? <;> rfl

/-- The first default is found in front of the rules. -/
theorem payload_default? (conditional : ∀ r ∈ cs, r.isDefault = false) :
    ((⟨id, ds.map Rule.fallback ++ cs⟩ : RuleList α).default?.bind (·.payload)) = ds.head? := by
  cases ds with
  | cons d rest => rfl
  | nil =>
    cases cs with
    | nil => rfl
    | cons r rest => simp [default?, Option.filter, conditional r List.mem_cons_self]

variable [Mergeable α]

/-- The value is what counts, merged over the first default. -/
theorem value?_parse (read? : Text → Option α) (t : Text) (w : Watcher) (view : View) :
    (parse read? t w).1.value? view =
      (Rule.winner? view (Rule.ofConditionals w (conditionals read? t)).1 (defaults read? t)).map fun payload =>
        ((defaults read? t).head?.bind (Mergeable.mergeOver? payload)).getD payload := by
  have payloads : ∀ r ∈ (Rule.ofConditionals w (conditionals read? t)).1, r.payload.isSome := fun r mem =>
    have ⟨_, _, _, eq⟩ := Rule.of_mem_ofConditionals w mem
    eq ▸ rfl
  rw [value?, parse_eq, Watcher.make]
  simp only [payload_activeRule view payloads, payload_default? fun r mem => (Rule.of_mem_ofConditionals w mem).1]

variable [ObjectLike α]

/-- A value comes from laying a payload over a first default, if there is one. -/
structure Overlays (payload : α) (base? : Option α) (v : α) : Prop where
  /-- Where both are like objects, it assigns what the payload does, and what the default does to all other names. -/
  merged {base : α} {above below : Text → Option (ObjectLike.Entry α)} (first : base? = some base)
    (isAbove : ObjectLike.assigns? payload = some above) (isBelow : ObjectLike.assigns? base = some below) :
    ObjectLike.IsProper v ∧ ObjectLike.assigns? v = some fun name => (above name).or (below name)
  /-- Elsewhere it is the payload. -/
  alone (apart : ∀ base, base? = some base → ObjectLike.assigns? payload = none ∨ ObjectLike.assigns? base = none) :
    v = payload

private theorem overlays_merged {payload : α} {base? : Option α} (proper : ObjectLike.IsProper payload)
    (properBase : ∀ base ∈ base?, ObjectLike.IsProper base) :
    Overlays payload base? ((base?.bind (Mergeable.mergeOver? payload)).getD payload) where
  merged := by
    rintro base above below rfl isAbove isBelow
    obtain ⟨v, eq, properMerged, assigned⟩ := ObjectLike.merges proper (properBase base rfl) isAbove isBelow
    rw [Option.bind_some, eq]
    exact ⟨properMerged, assigned⟩
  alone apart := by
    cases base? with
    | none => rfl
    | some base => rw [Option.bind_some, ObjectLike.stands (apart base rfl), Option.getD_none]

/-- A text that declares default payloads and payloads under queries makes the rules of the former, in order, and
behind them those of the latter, which hold when their queries are answered with yes. The value is the payload of
the last conditional rule that holds, or else of the last default rule, laid over the payload of the first default
rule, if both are like objects; without such rules there is none. Texts that declare the same defaults and the same
payloads under queries make the same list, however the two are mixed and whatever else is written. -/
theorem parse_resolves (read? : Text → Option α)
    (proper : ∀ s payload, read? s = some payload → ObjectLike.IsProper payload)
    (t : Text) (w : Watcher) :
    (parse read? t w).1.rules =
        (defaults read? t).map Rule.fallback ++ (Rule.ofConditionals w (conditionals read? t)).1 ∧
      (∀ f : Media.Features,
        (Rule.ofConditionals w (conditionals read? t)).1.map (fun r => (r.payload, r.isDefault, r.holds f.view)) =
        (conditionals read? t).map fun d => (some d.1, false, w.answers f d.2)) ∧
      (∀ view payload,
        Rule.winner? view (Rule.ofConditionals w (conditionals read? t)).1 (defaults read? t) = some payload →
        ∃ v, (parse read? t w).1.value? view = some v ∧ Overlays payload (defaults read? t).head? v) ∧
      (∀ view, Rule.winner? view (Rule.ofConditionals w (conditionals read? t)).1 (defaults read? t) = none →
        (parse read? t w).1.value? view = none) ∧
      ∀ t', defaults read? t' = defaults read? t → conditionals read? t' = conditionals read? t →
        parse read? t' w = parse read? t w := by
  have properDeclared : ∀ d ∈ declarations read? t, ObjectLike.IsProper d.1 := fun d mem =>
    have ⟨s, read⟩ := read_of_declared mem
    proper s d.1 read
  have properDefault : ∀ payload ∈ defaults read? t, ObjectLike.IsProper payload := by
    intro payload mem
    obtain ⟨d, declared, rfl⟩ := List.mem_map.mp mem
    exact properDeclared d (List.mem_of_mem_filter declared)
  refine ⟨?_, fun f => Rule.ofConditionals_answers w f _, fun view payload won => ?_, fun view lost => ?_, ?_⟩
  · rw [parse_eq]
    rfl
  · rw [value?_parse, won]
    refine ⟨_, rfl, overlays_merged ?_ fun base head => properDefault base (List.mem_of_head? head)⟩
    rcases Rule.winner?_mem won with ⟨r, mem, eq⟩ | mem
    · obtain ⟨-, d, declared, same⟩ := Rule.of_mem_ofConditionals w mem
      obtain rfl := Option.some.inj (eq.symm.trans same)
      exact properDeclared d (List.mem_of_mem_filter declared)
    · exact properDefault payload mem
  · rw [value?_parse, lost]
    rfl
  · intro t' sameDefaults sameConditionals
    rw [parse_eq, parse_eq, sameDefaults, sameConditionals]

/-- Counts, written as an object of whole numbers. -/
def readCounts? (t : Text) : Option (Fields Int) :=
  (Value.Literal.read? t).bind (Value.entries? fun | .int n => some n | _ => none)

private theorem sorted_of_readCounts {t : Text} {counts : Fields Int}
    (read : readCounts? t = some counts) : counts.Sorted := by
  obtain ⟨v, -, entries⟩ := Option.bind_eq_some_iff.mp read
  cases v with
  | object fields =>
    obtain ⟨list, -, rfl⟩ := Option.map_eq_some_iff.mp entries
    exact Fields.sorted_ofEntries list
  | _ => contradiction

/-- Columns, of which there are more on paper; the default is not written in front. -/
def columns : Text := "{wide: 3}=>print||none=>screen|{wide: 2, narrow: 1}".toList

def onPaper : Media.Features := { mediaType := "print".toList }

theorem parse_resolves_columns :
    ∃ v, (parse readCounts? columns (.start {} .standard)).1.value? onPaper.view = some v ∧
      v.find? "wide".toList = some 3 ∧ v.find? "narrow".toList = some 1 := by
  have declared : conditionals readCounts? columns = [([("wide".toList, 3)], "print".toList)] := by decide +kernel
  have fallback : defaults readCounts? columns = [[("narrow".toList, 1), ("wide".toList, 2)]] := by decide +kernel
  have won : Rule.winner? onPaper.view (Rule.ofConditionals (.start {} .standard) (conditionals readCounts? columns)).1
      (defaults readCounts? columns) = some [("wide".toList, 3)] := by
    rw [declared, fallback]
    decide +kernel
  obtain ⟨-, -, resolved, -⟩ :=
    parse_resolves readCounts? (fun _ _ => sorted_of_readCounts) columns (.start {} .standard)
  obtain ⟨v, eq, overlaid⟩ := resolved onPaper.view _ won
  have first : (defaults readCounts? columns).head? = some [("narrow".toList, 1), ("wide".toList, 2)] := by
    rw [fallback]; rfl
  have assigned : ∀ name, v.find? name = (Fields.find? name [("wide".toList, 3)]).or
      (Fields.find? name [("narrow".toList, 1), ("wide".toList, 2)]) :=
    congrFun (Option.some.inj (overlaid.merged first rfl rfl).2)
  refine ⟨v, eq, (assigned _).trans ?_, (assigned _).trans ?_⟩
  · decide +kernel
  · decide +kernel

end RuleList

end MediaWatch

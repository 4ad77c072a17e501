import MediaWatch.Fixture.Reader
import MediaWatch.Proofs.Audience.Recorded
import MediaWatch.Proofs.Text.Bytes

/-! # What fixtures come to

A fixture follows one subject through all its cases. What comes of it can be said without any history: each case is what
the subject comes to when it is compiled afresh in the environment before the case and in the one after it.
-/

namespace MediaWatch

/-! ## Compiling afresh -/

namespace Watcher

/-- Two watchers compile alike: they look shortcuts up in the same registry, know the same conditions, and number new
nodes alike. -/
structure Alike (w v : Watcher) : Prop where
  registry : v.registry = w.registry
  cache : v.cache = w.cache
  next : v.engine.nextNode = w.engine.nextNode

variable {w v : Watcher}

private theorem alike_start (features features' : Media.Features) (registry : Registry) :
    (start features registry).Alike (start features' registry) :=
  ⟨rfl, rfl, rfl⟩

namespace Alike

theorem compile (alike : w.Alike v) (query : Text) :
    (v.compile query).1 = (w.compile query).1 ∧ (w.compile query).2.Alike (v.compile query).2 := by
  have same : Condition.compile v.registry v.engine.nextNode query =
      Condition.compile w.registry w.engine.nextNode query := by
    rw [alike.registry, alike.next]
  have next (u : Watcher) : (u.compile query).2.engine.nextNode =
      (Condition.compile u.registry u.engine.nextNode query).2 := congrArg Engine.nextNode (Engine.addLists_eq ..)
  refine ⟨(congrArg Prod.fst same :), alike.registry, alike.cache, ?_⟩
  rw [next, next, same]

theorem query (alike : w.Alike v) (query : Text) :
    (v.query query).1 = (w.query query).1 ∧ (w.query query).2.Alike (v.query query).2 := by
  obtain ⟨same, compiled⟩ := alike.compile query
  rw [Watcher.query, Watcher.query, alike.cache]
  split
  · exact ⟨rfl, alike⟩
  · refine ⟨same, compiled.registry, ?_, compiled.next⟩
    show (v.compile query).2.cache.insert query (v.compile query).1 =
      (w.compile query).2.cache.insert query (w.compile query).1
    rw [compiled.cache, same]

variable {α : Type}

theorem ofParts (alike : w.Alike v) (read? : Text → Option α) (parts : Text × Text) :
    (Rule.ofParts? read? v parts).1 = (Rule.ofParts? read? w parts).1 ∧
      (Rule.ofParts? read? w parts).2.Alike (Rule.ofParts? read? v parts).2 := by
  rw [Rule.ofParts?, Rule.ofParts?]
  split
  · exact ⟨rfl, alike⟩
  · split
    · exact ⟨rfl, alike⟩
    · next payload _ _ =>
      obtain ⟨same, compiled⟩ := alike.query parts.2.trim
      exact ⟨congrArg (fun c => some (Rule.conditional payload c)) same, compiled⟩

theorem ofAllParts (alike : w.Alike v) (read? : Text → Option α) (ps : List (Text × Text)) :
    (Rule.ofAllParts read? v ps).1 = (Rule.ofAllParts read? w ps).1 ∧
      (Rule.ofAllParts read? w ps).2.Alike (Rule.ofAllParts read? v ps).2 := by
  induction ps generalizing w v with
  | nil => exact ⟨rfl, alike⟩
  | cons p ps ih =>
    obtain ⟨first, after⟩ := alike.ofParts read? p
    obtain ⟨rest, later⟩ := ih after
    have append (u : Watcher) : (Rule.ofAllParts read? u (p :: ps)).1 = (Rule.ofParts? read? u p).1.toList ++
        (Rule.ofAllParts read? (Rule.ofParts? read? u p).2 ps).1 := rfl
    exact ⟨by rw [append, append, first, rest], later⟩

theorem ofRules (alike : w.Alike v) (rules : List (Rule α)) :
    (RuleList.ofRules rules v).1 = (RuleList.ofRules rules w).1 :=
  congrArg (fun id => (⟨id, RuleList.ordered rules⟩ : RuleList α)) alike.next

/-- Watchers that compile alike come to the same subject. -/
theorem subject (alike : w.Alike v) {source : Subject.Source} {subject : Subject} {w' : Watcher}
    (compiled : Subject.compile source w = .ok (subject, w')) :
    ∃ v', Subject.compile source v = .ok (subject, v') := by
  cases source with
  | query query =>
    rw [Subject.compile_query] at compiled ⊢
    obtain ⟨rfl, -⟩ := (Prod.mk.injEq ..).mp (Except.ok.inj compiled)
    rw [(alike.query query).1]
    exact ⟨_, rfl⟩
  | rules rules mask reader =>
    rw [Subject.compile_rules] at compiled ⊢
    obtain ⟨ps, parts, made⟩ := exists_of_map_ok compiled
    obtain ⟨rfl, -⟩ := (Prod.mk.injEq ..).mp made
    obtain ⟨same, after⟩ := alike.ofAllParts reader.read? ps
    rw [parts, Except.map, same, after.ofRules]
    exact ⟨_, rfl⟩

end Alike

end Watcher

namespace Fixture

/-! ## The reference -/

/-- A subject compiled afresh in an environment: the value it comes to, and its reading. -/
def look (source : Subject.Source) (registry : Registry) (features : Media.Features) :
    Except Fault (Value × Reading) := do
  let (subject, w) ← Subject.compile source (.start features registry)
  .ok (subject.value w.view, subject.observable.reading w.view)

/-- What comes of a case for a subject that came to something before it and comes to something after it. -/
def Case.outcome (c : Case) (before after : Value × Reading) : Result :=
  let count := if after.2 = before.2 then 0 else 1
  { name := c.name
    passed := after.1.agrees c.expected && c.count.all (· == count)
    expected := c.expected
    actual := after.1
    expectedCount := c.count
    count }

/-- What comes of cases from some features on. -/
def outcomes (source : Subject.Source) (registry : Registry) : List Case → Media.Features → Except Fault (List Result)
  | [], _ => .ok []
  | c :: cs, f => do
    let changed ← c.patch f
    let before ← look source registry f
    let after ← look source registry changed
    let rest ← outcomes source registry cs changed
    .ok (c.outcome before after :: rest)

/-- The comparison of written forms: only for a query, and only if there is something to compare. -/
def formOf (f : Fixture) (source : Subject.Source) (registry : Registry) : List Result :=
  match source, f.canonical with
  | .query query, some expected => [checkForm expected ((Watcher.start f.media registry).query query).1]
  | _, _ => []

/-- What comes of a fixture, without any history. A mask that does not fit is refused before the first case. -/
def reference (f : Fixture) : Except Fault (List Result) := do
  let registry ← f.shortcuts.build
  let source ← f.source
  let _ ← look source registry f.media
  let results ← outcomes source registry f.cases f.media
  .ok (f.formOf source registry ++ results)

/-- The features of every case stand in the order of their names as bytes, each once. -/
def Ordered (f : Fixture) : Prop := ∀ c ∈ f.cases, c.media.Pairwise fun x y => x.1.bytes < y.1.bytes

/-! ## The order of the features -/

private theorem exists_of_mem_mapM {α β : Type} {read : α → Option β} {xs : List α} {ys : List β}
    (found : xs.mapM read = some ys) {y : β} (mem : y ∈ ys) : ∃ x, read x = some y := by
  induction xs generalizing ys with
  | nil =>
    obtain rfl := Option.some.inj found
    exact absurd mem List.not_mem_nil
  | cons x xs ih =>
    simp only [List.mapM_cons, Option.bind_eq_bind, Option.pure_def, Option.bind_eq_some_iff,
      Option.some.injEq] at found
    obtain ⟨first, here, rest, there, rfl⟩ := found
    rcases List.mem_cons.mp mem with rfl | later
    · exact ⟨x, here⟩
    · exact ih there later

theorem sorted_entries {α : Type} {read : Value → Option α} {value : Value} {fields : Fields α}
    (found : value.entries? read = some fields) : fields.Sorted := by
  cases value with
  | object entries =>
    obtain ⟨entries, -, rfl⟩ := Option.map_eq_some_iff.mp found
    exact Fields.sorted_ofEntries entries
  | _ => contradiction

private theorem Case.sorted_of_value {value : Value} {c : Case}
    (found : Case.ofValue? value = some c) : c.media.Sorted := by
  simp only [Case.ofValue?, Option.bind_eq_bind, Option.bind_eq_some_iff] at found
  obtain ⟨fields, -, name, -, media, read, expected, -, count, -, made⟩ := found
  obtain rfl := Option.some.inj made
  rw [Value.fieldOr] at read
  split at read
  · exact sorted_entries read
  · obtain rfl := Option.some.inj read
    exact .nil

/-- The features of the cases of fixtures that are read are in order. -/
theorem ordered_of_read {t : Text} {f : Fixture} (found : read? t = some f) : f.Ordered := by
  obtain ⟨value, -, found⟩ := Option.bind_eq_some_iff.mp found
  simp only [ofValue?, Option.bind_eq_bind, Option.bind_eq_some_iff] at found
  obtain ⟨fields, -, _, -, _, -, _, -, _, -, _, -, _, -, _, -, _, -, _, -, cases, read, made⟩ := found
  obtain rfl := Option.some.inj made
  obtain ⟨value, -, read⟩ := Option.bind_eq_some_iff.mp read
  intro c mem
  cases value with
  | array items =>
    obtain ⟨item, made⟩ := exists_of_mem_mapM (show items.mapM Case.ofValue? = some cases from read) mem
    exact (Case.sorted_of_value made).imp Text.bytes_lt
  | _ => contradiction

/-! ## Following one subject -/

variable {source : Subject.Source} {registry : Registry} {subject : Subject} {features : Media.Features}

/-- What a subject comes to when the lists say what the features say. -/
def seen (subject : Subject) (features : Media.Features) : Value × Reading :=
  (subject.value features.view, subject.observable.reading features.view)

/-- A subject that can be compiled in one environment can be compiled in all, and comes to what the features say. -/
theorem look_eq {w : Watcher} (compiled : Subject.compile source (.start features registry) = .ok (subject, w))
    (f : Media.Features) : look source registry f = .ok (seen subject f) := by
  obtain ⟨v, afresh⟩ := (Watcher.alike_start features f registry).subject compiled
  obtain ⟨b, served, -⟩ := (Audience.Serves.start f registry).compile afresh
  rw [look, afresh, seen, ← served.view]
  rfl

/-- A case looks at the subject before the change and after it. -/
theorem Case.check_eq {a : Audience} {r : Recording} (records : a.Records r) (same : r.subject = subject.observable)
    {c : Case} {changed : Media.Features} (patched : c.patch r.features = .ok changed) :
    c.check subject r = .ok (c.outcome (seen subject r.features) (seen subject changed), (r.update changed).2) := by
  obtain ⟨b, recorded, features, count⟩ := records.update changed
  have view := recorded.view
  rw [features] at view
  rw [same] at count
  simp only [Case.check, patched, bind, Except.bind]
  generalize r.update changed = updated at view count ⊢
  simp only [view, count]
  rfl

/-- What a recorded subject comes to case by case is what it comes to afresh. -/
theorem checkAll_eq {w : Watcher} (compiled : Subject.compile source (.start features registry) = .ok (subject, w))
    (cases : List Case) {a : Audience} {r : Recording} (records : a.Records r) (same : r.subject = subject.observable) :
    checkAll subject cases r = outcomes source registry cases r.features := by
  induction cases generalizing a r with
  | nil => rfl
  | cons c cs ih =>
    rw [checkAll, outcomes]
    cases patched : c.patch r.features with
    | error fault =>
      rw [Case.check, patched]
      rfl
    | ok changed =>
      obtain ⟨b, recorded, features, -⟩ := records.update changed
      have later := ih recorded same
      rw [features] at later
      rw [Case.check_eq records same patched]
      show (do let results ← checkAll subject cs _; _) = (do let before ← look _ _ _; _)
      rw [later, look_eq compiled, look_eq compiled]
      rfl

/-- A subject is a query exactly if it was declared as one. -/
theorem forms_eq {f : Fixture} {w : Watcher}
    (compiled : Subject.compile source (.start f.media registry) = .ok (subject, w)) :
    f.forms subject = f.formOf source registry := by
  cases source with
  | query query =>
    rw [Subject.compile_query] at compiled
    obtain ⟨rfl, -⟩ := (Prod.mk.injEq ..).mp (Except.ok.inj compiled)
    simp only [forms, formOf]
    cases f.canonical <;> rfl
  | rules rules mask reader =>
    rw [Subject.compile_rules] at compiled
    obtain ⟨ps, -, made⟩ := exists_of_map_ok compiled
    obtain ⟨rfl, -⟩ := (Prod.mk.injEq ..).mp made
    rfl

/-- What comes of a fixture needs no history to be told: the value of each case is what its subject, compiled afresh in
the environment after it, comes to, and there is one announcement if the subject, compiled afresh in the environment
before it, came to something else, and none otherwise. If the fixture was read, the features of a case are set in the
order of their names as bytes. -/
theorem run_eq_reference (f : Fixture) : f.run = f.reference ∧ ∀ t, read? t = some f → f.Ordered := by
  refine ⟨?_, fun t => ordered_of_read⟩
  rw [run, reference]
  cases f.shortcuts.build with
  | error fault => rfl
  | ok registry =>
    cases f.source with
    | error fault => rfl
    | ok source =>
      cases compiled : Subject.compile source (.start f.media registry) with
      | error fault =>
        show (do let made ← Subject.compile source _; _) = (do let _ ← look source registry f.media; _)
        rw [look, compiled]
        rfl
      | ok made =>
        obtain ⟨subject, w⟩ := made
        obtain ⟨b, served, usable⟩ := (Audience.Serves.start f.media registry).compile compiled
        obtain ⟨b, recorded, features⟩ := served.records usable
        have results := checkAll_eq compiled f.cases recorded rfl
        rw [recorded.features, features] at results
        show (do let (subject, w) ← Subject.compile source _; _) = (do let _ ← look source registry f.media; _)
        rw [look, compiled, ← forms_eq compiled, ← results]
        rfl

/-- A page that is printed, and then nothing changes. The features of the change are not named in order.
The written form of the query is compared as well. -/
def printedText : Text :=
  ("\x7b\"name\":\"\",\"description\":\"\",\"query\":\"print\",\"canonical\":\"print\",\"cases\":[" ++
    "\x7b\"name\":\"\",\"media\":\x7b\"type\":\"print\",\"hover\":\"none\"\x7d,\"expect\":true,\"notified\":1\x7d," ++
    "\x7b\"name\":\"\",\"expect\":true,\"notified\":1\x7d]\x7d").toList

theorem run_eq_reference_printed :
    ∃ f, read? printedText = some f ∧ f.Ordered ∧
      f.cases.map (fun c => c.media.map Prod.fst) = [["hover".toList, "type".toList], []] ∧
      f.run.toOption.map (·.map fun r => (r.passed, r.count)) = some [(true, 0), (true, 1), (false, 0)] := by
  have shown : (read? printedText).map (fun f => (f.cases.map fun c => c.media.map Prod.fst,
      f.reference.toOption.map (·.map fun r => (r.passed, r.count)))) =
      some ([["hover".toList, "type".toList], []], some [(true, 0), (true, 1), (false, 0)]) := by decide +kernel
  obtain ⟨f, found, shown⟩ := Option.map_eq_some_iff.mp shown
  obtain ⟨names, outcome⟩ := (Prod.mk.injEq ..).mp shown
  obtain ⟨same, ordered⟩ := run_eq_reference f
  exact ⟨f, found, ordered _ found, names, same ▸ outcome⟩

end Fixture

end MediaWatch

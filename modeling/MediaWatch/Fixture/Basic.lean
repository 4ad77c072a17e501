import MediaWatch.Config.Basic
import MediaWatch.Recording
import MediaWatch.Subject

/-! # Fixtures

A fixture compiles a subject in an environment of its own and then changes that environment case by
case. A case passes if the subject comes to what is expected and, where that is said, was announced as
often as expected.
-/

namespace MediaWatch

namespace Fixture

/-- A change of the environment and what is expected after it. -/
structure Case where
  name : Text
  /-- The features to set, in the order of their names. -/
  media : Fields Value := []
  expected : Value
  /-- How many announcements the change should bring about, if that matters. -/
  count : Option Nat := none

/-- What came of a case. -/
structure Result where
  name : Text
  passed : Bool
  expected : Value
  actual : Value
  expectedCount : Option Nat
  count : Nat

end Fixture

/-- A subject and the cases to look at it in. -/
structure Fixture where
  name : Text
  description : Text
  shortcuts : Config := {}
  /-- The environment before the first case. -/
  media : Media.Features := {}
  query : Option Text := none
  rules : Option Text := none
  mask : Option Text := none
  reader : PayloadReader := .text
  /-- The written form that the condition of the query should have. -/
  canonical : Option Text := none
  cases : List Fixture.Case

namespace Fixture

/-- The subject that a fixture declares: a query, or rules with or without a mask. -/
def source (f : Fixture) : Except Fault Subject.Source :=
  match f.query, f.rules, f.mask with
  | some query, none, none => .ok (.query query)
  | none, some rules, mask => .ok (.rules rules mask f.reader)
  | none, none, some _ => .error (.subject f.name .maskWithoutRules)
  | none, none, none => .error (.subject f.name .nothing)
  | some _, _, _ => .error (.subject f.name .queryWithRules)

/-- The text that a feature is set from; what is not text stands for itself. -/
def featureText : Value → Text
  | .string t => t
  | v => v.render

/-- The environment after the change of a case. -/
def Case.patch (c : Case) (f : Media.Features) : Except Fault Media.Features :=
  c.media.foldlM (fun f entry => f.set entry.1 (featureText entry.2)) f

/-- Makes the change of a case and compares. -/
def Case.check (c : Case) (subject : Subject) (r : Recording) : Except Fault (Result × Recording) := do
  let (heard, r) := r.update (← c.patch r.features)
  let actual := subject.value r.view
  let count := heard.length
  .ok ({ name := c.name
         passed := actual.agrees c.expected && c.count.all (· == count)
         expected := c.expected
         actual
         expectedCount := c.count
         count }, r)

/-- The cases in order, each in the environment that the one before left. -/
def checkAll (subject : Subject) : List Case → Recording → Except Fault (List Result)
  | [], _ => .ok []
  | c :: cs, r => do
    let (result, r) ← c.check subject r
    let results ← checkAll subject cs r
    .ok (result :: results)

/-- What came of the written form of a condition. -/
def checkForm (expected : Text) (c : Condition) : Result where
  name := "canonical form".toList
  passed := c.text == expected
  expected := .string expected
  actual := .string c.text
  expectedCount := none
  count := 0

/-- The comparison of written forms, if there is something to compare. -/
def forms (f : Fixture) : Subject → List Result
  | .condition c => f.canonical.toList.map fun expected => checkForm expected c
  | .rules _ => []

/-- What came of every case, after the comparison of the written form. -/
def run (f : Fixture) : Except Fault (List Result) := do
  let registry ← f.shortcuts.build
  let (subject, w) ← Subject.compile (← f.source) (.start f.media registry)
  let results ← checkAll subject f.cases (.start w subject.observable)
  .ok (f.forms subject ++ results)

def allPassed (results : List Result) : Bool := results.all (·.passed)

end Fixture

end MediaWatch

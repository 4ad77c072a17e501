import MediaWatch.Rule.RuleList

/-! # Subjects

A subject is what is looked at over time: the condition of a query, or a rule list. It is declared
by texts and compiled in a watcher.
-/

namespace MediaWatch

/-- What is looked at. -/
inductive Subject where
  | condition (c : Condition)
  | rules (l : RuleList Payload)

namespace Subject

def observable : Subject → Observable
  | condition c => .condition c
  | rules l => l.observable

/-- What the subject comes to: whether the condition holds, or the value that applies, which is null if
there is none. -/
def value (view : View) : Subject → Value
  | condition c => .bool (c.holds view)
  | rules l => ((l.value? view).map Payload.toValue).getD .null

/-- How a subject is declared. -/
inductive Source where
  | query (query : Text)
  | rules (rules : Text) (mask : Option Text) (reader : PayloadReader)
deriving DecidableEq, Repr

def compile (source : Source) (w : Watcher) : Except Fault (Subject × Watcher) :=
  match source with
  | .query query =>
    let (c, w) := w.query query
    .ok (condition c, w)
  | .rules text mask reader => do
    let (l, w) ← RuleList.read reader.read? text mask w
    .ok (rules l, w)

end Subject

end MediaWatch

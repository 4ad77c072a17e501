import MediaWatch.Condition.Basic

/-! # Observables

What listeners can register with: lists, conditions, rule lists and plain channels. Each but a channel
has a reading, and tells its listeners when the reading changes.
-/

namespace MediaWatch

/-- Something that listeners can register with. A rule list is known here by its identity and the
conditions of its rules. -/
inductive Observable where
  | list (list : MediaList)
  | condition (condition : Condition)
  | rules (id : NodeId) (conditions : List Condition)
  | channel (id : NodeId)

/-- What an observable comes to: a truth value, or the index of the rule that counts. -/
inductive Reading where
  | truth (holds : Bool)
  | index (active : Option Nat)
deriving DecidableEq, Repr

/-- What a listener is told: the new reading of an observable, or a number sent over a channel. -/
inductive Event where
  | changed (reading : Reading)
  | signal (number : Int)
deriving DecidableEq, Repr

/-- The index of the last condition that holds. -/
def activeIndex (view : View) (conditions : List Condition) : Option Nat :=
  match conditions with
  | [] => none
  | c :: cs =>
    match activeIndex view cs with
    | some i => some (i + 1)
    | none => if c.holds view then some 0 else none

namespace Observable

/-- The identity of an observable; a constant condition has none. -/
def id? : Observable → Option NodeId
  | list l => some l.id
  | condition c => c.id?
  | rules id _ => some id
  | channel id => some id

/-- What the observable comes to in view of the lists. A channel has nothing to come to. -/
def reading (view : View) : Observable → Reading
  | list l => .truth (view l)
  | condition c => .truth (c.holds view)
  | rules _ conditions => .index (activeIndex view conditions)
  | channel _ => .truth false

/-- The observables that this one registers with while it has listeners of its own. -/
def parts : Observable → List Observable
  | condition (.leaf _ l _) => [list l]
  | condition (.group _ _ cs) => cs.map condition
  | rules _ cs => cs.map condition
  | _ => []

/-- Whether a node with this identity is the observable or part of it. -/
def mentions (id : NodeId) : Observable → Bool
  | list l => l.id == id
  | condition c => c.mentions id
  | rules own cs => own == id || Condition.anyMentions id cs
  | channel own => own == id

end Observable

end MediaWatch

import MediaWatch.Condition.Trace
import MediaWatch.Rule.Basic

/-! # Rule lists

The value that applies at the moment: of the rules that hold, the last one declared counts. Default
rules come first, so that every conditional rule that holds overrides them, and a payload that merges
is laid over the payload of the first of them.
-/

namespace MediaWatch

/-- Rules in the order in which they are looked at. -/
structure RuleList (α : Type) where
  id : NodeId
  rules : List (Rule α)

namespace RuleList

variable {α : Type}

/-- The rules with the default ones in front; the order is otherwise kept. -/
def ordered (rules : List (Rule α)) : List (Rule α) :=
  rules.filter (·.isDefault) ++ rules.filter (!·.isDefault)

def ofRules (rules : List (Rule α)) (w : Watcher) : RuleList α × Watcher :=
  w.make fun id => ⟨id, ordered rules⟩

/-- The written rules of a list: what stands between bars, unless it is blank. -/
def segments (t : Text) : List Text :=
  (Text.pieces ruleBar t).filter fun segment => !segment.trim.isEmpty

/-- The rule list that a text denotes. Rules whose payload cannot be read are left out. -/
def parse (read? : Text → Option α) (t : Text) (w : Watcher) : RuleList α × Watcher :=
  let (rules, w) := Rule.ofAllParts read? w ((segments t).map Rule.parts)
  ofRules rules w

/-- The rule list of values and a mask of queries, which belong together in pairs. -/
def parseTuple (read? : Text → Option α) (values mask : Text) (w : Watcher) :
    Except Fault (RuleList α × Watcher) :=
  let values := Text.pieces ruleBar values
  let queries := Text.pieces ruleBar mask
  if values.length = queries.length then
    let (rules, w) := Rule.ofAllParts read? w (values.zip queries)
    .ok (ofRules rules w)
  else .error (.lengthMismatch values.length queries.length)

/-- The rule list of a text, or of values and a mask if there is one. -/
def read (read? : Text → Option α) (rules : Text) (mask : Option Text) (w : Watcher) :
    Except Fault (RuleList α × Watcher) :=
  match mask with
  | none => .ok (parse read? rules w)
  | some mask => parseTuple read? rules mask w

def conditions (l : RuleList α) : List Condition := l.rules.map (·.condition)

def observable (l : RuleList α) : Observable := .rules l.id l.conditions

def default? (l : RuleList α) : Option (Rule α) := l.rules.head?.filter (·.isDefault)

/-- The index of the rule that counts: the last one that holds. -/
def active? (view : View) (l : RuleList α) : Option Nat := activeIndex view l.conditions

def activeRule (view : View) (l : RuleList α) : Rule α :=
  ((l.active? view).bind fun i => l.rules[i]?).getD Rule.nothing

/-- The value that applies: the payload of the rule that counts, laid over that of the default rule if
the two merge. -/
def value? [Mergeable α] (view : View) (l : RuleList α) : Option α :=
  (l.activeRule view).payload.map fun payload =>
    ((l.default?.bind (·.payload)).bind (Mergeable.mergeOver? payload)).getD payload

def text (payloadText : α → Text) (l : RuleList α) : Text :=
  Text.joined [ruleBar] (l.rules.map (Rule.text payloadText))

/-- What a rule came to. -/
structure Step where
  index : Nat
  isDefault : Bool
  matched : Bool
  condition : Trace

def stepsFrom (view : View) (index : Nat) : List (Rule α) → List Step
  | [] => []
  | r :: rest =>
    let condition := r.condition.trace view
    ⟨index, r.isDefault, condition.matched, condition⟩ :: stepsFrom view (index + 1) rest

def steps (view : View) (l : RuleList α) : List Step := stepsFrom view 0 l.rules

/-- The index of the last step that matched. -/
def activeStep? (steps : List Step) : Option Nat :=
  (steps.reverse.find? (·.matched)).map (·.index)

end RuleList

end MediaWatch

import MediaWatch.Rule.RuleList

/-! # Reports

What can be seen of a condition or a rule list at one moment.
-/

namespace MediaWatch

/-- What can be seen of every condition. -/
structure ConditionFacts where
  text : Text
  holds : Bool
  isAlways : Bool
  isNever : Bool
  listeners : Nat

/-- What can be seen of a condition. -/
inductive ConditionReport where
  | constant (facts : ConditionFacts) (value : Bool)
  | leaf (facts : ConditionFacts) (descriptor : Text) (inverted subscribed : Bool)
  | group (facts : ConditionFacts) (junction : Junction) (subscriptions : Nat)
    (children : List ConditionReport)

def Engine.listenerCount (e : Engine) (c : Condition) : Nat :=
  match c.id? with
  | some id => (e.cell id).listeners.length
  | none => 0

/-- What can be seen of any condition. -/
def Engine.facts (e : Engine) (c : Condition) : ConditionFacts where
  text := c.text
  holds := c.holds e.view
  isAlways := c.isAlways
  isNever := c.isNever
  listeners := e.listenerCount c

mutual

def Engine.report (e : Engine) : Condition → ConditionReport
  | .always => .constant (e.facts .always) true
  | .never => .constant (e.facts .never) false
  | .leaf id l inverted =>
    .leaf (e.facts (.leaf id l inverted)) l.descriptor inverted !(e.cell id).held.isEmpty
  | .group id junction cs =>
    .group (e.facts (.group id junction cs)) junction (e.cell id).held.length (e.reportAll cs)

def Engine.reportAll (e : Engine) : List Condition → List ConditionReport
  | [] => []
  | c :: cs => e.report c :: e.reportAll cs

end

/-- What a rule list comes to. -/
structure Brief where
  active : Option Nat
  value : Option Payload

/-- What can be seen of a rule. -/
structure RuleReport where
  payload : Option Payload
  isDefault : Bool
  holds : Bool
  condition : Text
  /-- The written form; a rule whose payload has none has none either. -/
  text : Option Text

/-- What can be seen of a rule list. -/
structure RuleListReport where
  brief : Brief
  listeners : Nat
  text : Option Text
  /-- The payload of the default rule, if there is such a rule. -/
  default : Option (Option Payload)
  activeRule : RuleReport
  rules : List RuleReport

def Payload.written (p : Payload) : Text := p.text?.getD []

/-- What can be seen of a rule. `written` tells whether the payloads of its list have texts. -/
def Rule.report (view : View) (written : Bool) (r : Rule Payload) : RuleReport where
  payload := r.payload
  isDefault := r.isDefault
  holds := r.holds view
  condition := r.condition.text
  text := if written then some (r.text Payload.written) else none

def RuleList.brief (view : View) (l : RuleList Payload) : Brief := ⟨l.active? view, l.value? view⟩

def Engine.ruleListReport (e : Engine) (l : RuleList Payload) (written : Bool) : RuleListReport where
  brief := l.brief e.view
  listeners := (e.cell l.id).listeners.length
  text := if written then some (l.text Payload.written) else none
  default := l.default?.map (·.payload)
  activeRule := (l.activeRule e.view).report e.view written
  rules := l.rules.map (Rule.report e.view written)

end MediaWatch

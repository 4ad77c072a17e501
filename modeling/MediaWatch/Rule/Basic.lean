import MediaWatch.Rule.Payload
import MediaWatch.Watcher

/-! # Rules

A rule carries a payload while its condition holds. A rule declared without a condition is a default
rule: it always holds. In writing, `=>` stands between the payload and the query.
-/

namespace MediaWatch

/-- A rule. Only the rule that stands for no rule at all has no payload. -/
structure Rule (α : Type) where
  payload : Option α
  condition : Condition
  isDefault : Bool

/-- What stands between a payload and its query. -/
def ruleArrow : Text := "=>".toList

/-- What stands between rules. -/
def ruleBar : Char := '|'

namespace Rule

variable {α : Type}

def conditional (payload : α) (condition : Condition) : Rule α := ⟨some payload, condition, false⟩

def fallback (payload : α) : Rule α := ⟨some payload, .always, true⟩

/-- What counts when no rule does. -/
def nothing : Rule α := ⟨none, .never, false⟩

def holds (view : View) (r : Rule α) : Bool := r.condition.holds view

/-- The written form of a rule, for payloads that have one. -/
def text (payloadText : α → Text) (r : Rule α) : Text :=
  match r.payload, r.isDefault with
  | some payload, true => payloadText payload
  | some payload, false => payloadText payload ++ ruleArrow ++ r.condition.text
  | none, _ => ruleArrow ++ r.condition.text

/-- The payload and the query of a written rule. Without an arrow there is no query. -/
def parts (segment : Text) : Text × Text := (Text.cutAt? ruleArrow segment).getD (segment, [])

/-- The rule for a payload and a query; a blank query makes a default rule. A payload that cannot be
read makes no rule, and its query is not compiled. -/
def ofParts? (read? : Text → Option α) (w : Watcher) (parts : Text × Text) :
    Option (Rule α) × Watcher :=
  match read? parts.1 with
  | none => (none, w)
  | some payload =>
    if parts.2.trim.isEmpty then (some (fallback payload), w)
    else
      let (c, w) := w.query parts.2.trim
      (some (conditional payload c), w)

/-- The rules for payloads and queries, in order. -/
def ofAllParts (read? : Text → Option α) (w : Watcher) :
    List (Text × Text) → List (Rule α) × Watcher
  | [] => ([], w)
  | parts :: rest =>
    let (rule, w) := ofParts? read? w parts
    let (rules, w) := ofAllParts read? w rest
    (rule.toList ++ rules, w)

end Rule

end MediaWatch

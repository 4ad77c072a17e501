import MediaWatch.Decimal.Style
import MediaWatch.Report
import MediaWatch.Text.Inspected

/-! # Inspection

What somebody who inspects a piece of the engine is shown: the name of what it is and its fields.
-/

namespace MediaWatch

namespace Inspection

/-- A name and named fields between braces. -/
def record (name : String) (fields : List (String × Text)) : Text :=
  name.toList ++ " \x7b ".toList ++
    Text.joined ", ".toList (fields.map fun field => field.1.toList ++ ": ".toList ++ field.2) ++
    " \x7d".toList

def bracketed (items : List Text) : Text := '[' :: (Text.joined ", ".toList items ++ [']'])

/-- A name and what it wraps between parentheses. -/
def wrapped (name : String) (content : Text) : Text := name.toList ++ '(' :: (content ++ [')'])

def entries {α : Type} (content : α → Text) (fields : Fields α) : Text :=
  '\x7b' :: (Text.joined ", ".toList (fields.map fun field =>
    Text.inspected field.1 ++ ": ".toList ++ content field.2) ++ ['\x7d'])

def optional {α : Type} (content : α → Text) : Option α → Text
  | none => "None".toList
  | some a => wrapped "Some" (content a)

def float (x : Float) : Text := Decimal.Style.inspected.render x

end Inspection

open Inspection

mutual

def Value.inspected : Value → Text
  | .null => "Null".toList
  | .bool b => wrapped "Bool" (Text.ofBool b)
  | .int n => wrapped "Number" (Text.ofInt n)
  | .float x => wrapped "Number" (Decimal.Style.data.render x)
  | .string t => wrapped "String" (Text.inspected t)
  | .array items => "Array ".toList ++ bracketed (inspectedItems items)
  | .object fields =>
    "Object ".toList ++ '\x7b' :: (Text.joined ", ".toList (inspectedEntries fields) ++ ['\x7d'])

def Value.inspectedItems : List Value → List Text
  | [] => []
  | item :: rest => item.inspected :: inspectedItems rest

def Value.inspectedEntries : List (Text × Value) → List Text
  | [] => []
  | (name, value) :: rest =>
    (Text.inspected name ++ ": ".toList ++ value.inspected) :: inspectedEntries rest

end

def Payload.inspected : Payload → Text
  | text t => Text.inspected t
  | int n => Text.ofInt n
  | bool b => Text.ofBool b
  | value v => v.inspected
  | counts fields => entries Text.ofInt fields

def Media.Pointer.inspected : Media.Pointer → Text
  | fine => "Fine".toList
  | coarse => "Coarse".toList
  | none => "None".toList

def Media.Features.inspected (f : Media.Features) : Text :=
  record "MediaFeatures"
    [("width", float f.width), ("height", float f.height), ("resolution", float f.resolution),
     ("hover", Text.ofBool f.hover), ("pointer", f.pointer.inspected),
     ("media_type", Text.inspected f.mediaType), ("extra", entries Text.inspected f.extra)]

def Engine.inspected (e : Engine) : Text :=
  record "VirtualMedia"
    [("features", e.features.inspected), ("live_lists", Text.ofNat e.liveLists.length)]

def Engine.inspectList (e : Engine) (l : MediaList) : Text :=
  record "VirtualQueryList"
    [("media", Text.inspected l.descriptor), ("matches", Text.ofBool (e.view l)),
     ("listeners", Text.ofNat (e.cell l.id).listeners.length)]

mutual

def Engine.inspectCondition (e : Engine) : Condition → Text
  | .always => "Always".toList
  | .never => "Never".toList
  | .leaf id l inverted =>
    record "Match"
      [("media", Text.inspected l.descriptor), ("inverted", Text.ofBool inverted),
       ("listeners", Text.ofNat (e.cell id).listeners.length)]
  | .group _ .all cs => wrapped "And" (bracketed (e.inspectConditions cs))
  | .group _ .any cs => wrapped "Or" (bracketed (e.inspectConditions cs))

def Engine.inspectConditions (e : Engine) : List Condition → List Text
  | [] => []
  | c :: cs => e.inspectCondition c :: e.inspectConditions cs

end

def Engine.inspectGroup (e : Engine) (id : NodeId) (junction : Junction) (cs : List Condition) :
    Text :=
  record "ConditionContainer"
    [("junction", match junction with | .all => "All".toList | .any => "Any".toList),
     ("children", bracketed (e.inspectConditions cs)),
     ("listeners", Text.ofNat (e.cell id).listeners.length)]

mutual

def Trace.inspected : Trace → Text
  | .always => "Always".toList
  | .never => "Never".toList
  | .leaf matched descriptor inverted =>
    record "Match"
      [("matched", Text.ofBool matched), ("media", Text.inspected descriptor),
       ("inverted", Text.ofBool inverted)]
  | .group matched junction children =>
    record (match junction with | .all => "And" | .any => "Or")
      [("matched", Text.ofBool matched), ("children", bracketed (inspectedAll children))]

def Trace.inspectedAll : List Trace → List Text
  | [] => []
  | t :: ts => t.inspected :: inspectedAll ts

end

def Rule.inspected (r : Rule Payload) : Text :=
  record "Rule"
    [("payload", optional Payload.inspected r.payload),
     ("condition", Text.inspected r.condition.text), ("default", Text.ofBool r.isDefault)]

def Engine.inspectRules (e : Engine) (l : RuleList Payload) : Text :=
  record "RuleList"
    [("rules", bracketed (l.rules.map Rule.inspected)),
     ("listeners", Text.ofNat (e.cell l.id).listeners.length)]

def RuleList.Step.inspected (s : RuleList.Step) : Text :=
  record "RuleStep"
    [("index", Text.ofNat s.index), ("is_default", Text.ofBool s.isDefault),
     ("matched", Text.ofBool s.matched), ("condition", s.condition.inspected)]

def RuleList.inspectSteps (steps : List RuleList.Step) : Text :=
  record "RuleListTrace"
    [("active", optional Text.ofNat (activeStep? steps)),
     ("steps", bracketed (steps.map RuleList.Step.inspected))]

def Engine.inspectChannel (e : Engine) (id : NodeId) : Text :=
  record "ListenerSet" [("len", Text.ofNat (e.cell id).listeners.length)]

def Watcher.inspectCompiler (w : Watcher) : Text :=
  record "QueryCompiler"
    [("shortcuts", record "ShortcutRegistry"
      [("preprocessors", bracketed (w.registry.resolverNames.map Text.inspected))]),
     ("cached", Text.ofNat w.cache.length)]

end MediaWatch

import MediaWatch.Condition.Basic

/-! # Traces

A trace is what a condition came to, with every child of every group looked at.
-/

namespace MediaWatch

/-- What a condition came to. -/
inductive Trace where
  | always
  | never
  | leaf (matched : Bool) (descriptor : Text) (inverted : Bool)
  | group (matched : Bool) (junction : Junction) (children : List Trace)

namespace Trace

def matched : Trace → Bool
  | always => true
  | never => false
  | leaf matched _ _ => matched
  | group matched _ _ => matched

def mark (matched : Bool) : Text := if matched then "+ ".toList else "- ".toList

def label : Junction → Text
  | .all => "and".toList
  | .any => "or".toList

/-- A line at a depth, two spaces a level. -/
def line (depth : Nat) (content : Text) : Text :=
  List.replicate (2 * depth) ' ' ++ content ++ ['\n']

mutual

/-- The lines of a trace, the children of a group one level deeper. -/
def render (depth : Nat) : Trace → Text
  | always => line depth (mark true ++ allText)
  | never => line depth (mark false ++ notAllText)
  | leaf matched descriptor inverted =>
    line depth (mark matched ++ (if inverted then "not ".toList else []) ++ descriptor)
  | group matched junction children =>
    line depth (mark matched ++ label junction) ++ renderAll (depth + 1) children

def renderAll (depth : Nat) : List Trace → Text
  | [] => []
  | t :: ts => render depth t ++ renderAll depth ts

end

def text (t : Trace) : Text := render 0 t

end Trace

namespace Condition

mutual

def trace (view : View) : Condition → Trace
  | always => .always
  | never => .never
  | leaf _ list inverted => .leaf (view list != inverted) list.descriptor inverted
  | group _ junction cs =>
    let children := traces view cs
    let matched := match junction with
      | .all => children.all Trace.matched
      | .any => children.any Trace.matched
    .group matched junction children

def traces (view : View) : List Condition → List Trace
  | [] => []
  | c :: cs => trace view c :: traces view cs

end

end Condition

end MediaWatch

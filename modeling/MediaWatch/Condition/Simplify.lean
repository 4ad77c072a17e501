import MediaWatch.Condition.Basic

/-! # Simpler conditions

Constants are folded away, groups of one child become that child, and empty groups become constants.
What counts as a constant is decided by the written form. Leaves stay the instances they are; a group
that remains keeps its place and its identity in the simplified tree, and `relabel` gives the groups
of a tree identities of their own.
-/

namespace MediaWatch.Condition

/-- Whether one such child decides a group. -/
def absorbs (junction : Junction) (c : Condition) : Bool :=
  match junction with
  | .all => c.isNever
  | .any => c.isAlways

/-- Whether such a child changes nothing in a group. -/
def vanishes (junction : Junction) (c : Condition) : Bool :=
  match junction with
  | .all => c.isAlways
  | .any => c.isNever

def combine (id : NodeId) (junction : Junction) (cs : List Condition) : Condition :=
  if cs.any (absorbs junction) then constant (junction == .any)
  else
    match cs.filter fun c => !vanishes junction c with
    | [] => constant (junction == .all)
    | [c] => c
    | rest => group id junction rest

mutual

def simplify : Condition → Condition
  | always => always
  | never => never
  | leaf id list inverted =>
    if (leaf id list inverted).isAlways then always
    else if (leaf id list inverted).isNever then never
    else leaf id list inverted
  | group id junction cs => combine id junction (simplifyAll cs)

def simplifyAll : List Condition → List Condition
  | [] => []
  | c :: cs => simplify c :: simplifyAll cs

end

theorem simplifyAll_eq (cs : List Condition) : simplifyAll cs = cs.map simplify := by
  induction cs with
  | nil => rfl
  | cons c cs ih => simp [simplifyAll, ih]

mutual

/-- The condition with new identities, from `next` on, for its groups; and the first identity not
taken. -/
def relabel (next : NodeId) : Condition → Condition × NodeId
  | group _ junction cs =>
    let (cs, after) := relabelAll (next + 1) cs
    (group next junction cs, after)
  | c => (c, next)

def relabelAll (next : NodeId) : List Condition → List Condition × NodeId
  | [] => ([], next)
  | c :: cs =>
    let (c, after) := relabel next c
    let (cs, after) := relabelAll after cs
    (c :: cs, after)

end

end MediaWatch.Condition

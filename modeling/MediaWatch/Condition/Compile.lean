import MediaWatch.Condition.Simplify
import MediaWatch.Shortcut.Registry
import MediaWatch.Text.Separator

/-! # Compiling queries

A query is a list of groups, separated by commas or `or`, of terms joined by `and`. A term is a
shortcut or a descriptor with at most one `not` in front. Shortcuts are replaced first; since what
they are replaced by may start with `not` itself, a second `not` is looked for afterwards, and the
two cancel.
-/

namespace MediaWatch

/-- A term after its shortcut was replaced. -/
inductive Term where
  | constant (holds : Bool)
  | watch (descriptor : Text) (inverted : Bool)
deriving DecidableEq, Repr

namespace Term

/-- Whether a term starts with `not`, and the term without it. -/
def stripNot (t : Text) : Bool × Text :=
  match Text.afterWord? "not".toList t with
  | some rest => (true, rest)
  | none => (false, t)

/-- The term for a descriptor. An empty one never holds; the written forms of the constants are
constants. -/
def ofDescriptor (descriptor : Text) (inverted : Bool) : Term :=
  if descriptor.isEmpty then constant false
  else if Text.sameAsciiLetters descriptor allText then constant !inverted
  else if Text.sameAsciiLetters descriptor notAllText then constant inverted
  else watch descriptor inverted

def ofText (r : Registry) (t : Text) : Term :=
  let (outer, rest) := stripNot t.trim
  let (inner, descriptor) := stripNot (r.preprocess rest).trim
  ofDescriptor descriptor (outer != inner)

end Term

def Registry.groups (r : Registry) (query : Text) : List (List Term) :=
  (Text.cut Text.commaOrWord query).map fun group =>
    (Text.cut Text.andWord group).map (Term.ofText r)

namespace Condition

/-- The condition for a term, with identities from `next` on for the list and the leaf. -/
def ofTerm (next : NodeId) : Term → Condition × NodeId
  | .constant holds => (constant holds, next)
  | .watch descriptor inverted => (leaf (next + 1) ⟨next, descriptor⟩ inverted, next + 2)

def ofTerms (next : NodeId) : List Term → List Condition × NodeId
  | [] => ([], next)
  | t :: ts =>
    let (c, after) := ofTerm next t
    let (cs, after) := ofTerms after ts
    (c :: cs, after)

/-- The conjunctions of groups of terms. -/
def ofGroups (next : NodeId) : List (List Term) → List Condition × NodeId
  | [] => ([], next)
  | ts :: rest =>
    let (cs, after) := ofTerms (next + 1) ts
    let (groups, after) := ofGroups after rest
    (group next .all cs :: groups, after)

/-- The simplified condition that a query denotes, with identities from `next` on, and the first
identity not taken. A blank query always holds. -/
def compile (r : Registry) (next : NodeId) (query : Text) : Condition × NodeId :=
  let query := query.trim
  if query.isEmpty then (always, next)
  else
    let (groups, after) := ofGroups (next + 1) (r.groups query)
    ((group next .any groups).simplify, after)

mutual

/-- The lists that a condition watches, in order. -/
def lists : Condition → List MediaList
  | leaf _ list _ => [list]
  | group _ _ cs => listsOf cs
  | _ => []

def listsOf : List Condition → List MediaList
  | [] => []
  | c :: cs => lists c ++ listsOf cs

end

end Condition

end MediaWatch

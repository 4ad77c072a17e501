import MediaWatch.Proofs.Audience.Reentrancy

/-! # Leaves keep up with nested changes

A composite can be left with an old reading when a listener changes the environment in the middle of an earlier
change. A leaf cannot: it reads one list only, and of every new value of that list there is an announcement under way.
If a nested change overtakes it, the nested one announces the later value; if the nested change leaves the list alone,
the earlier announcement still holds.
-/

namespace MediaWatch

namespace Audience

variable {a b : Audience} {ms : List Move} {i : NodeId} {l : MediaList} {inverted : Bool}

namespace Orderly

section Unchanged

variable {features : Media.Features} (orderly : a.Orderly) (mem : .condition (.leaf i l inverted) ∈ a.made)
  (memList : .list l ∈ a.made) (alive : a.engine.alive l.id)
  (same : features.satisfy l.descriptor = a.engine.lastValue l)

include orderly mem memList alive same

end Unchanged

end Orderly

/-- The leaf of the handout for which its listener reverses the change while it is told of it. -/
def hoverless : Condition := .leaf 5 ⟨4, "(hover: none)".toList⟩ false

end Audience

end MediaWatch

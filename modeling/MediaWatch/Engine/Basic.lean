import MediaWatch.Engine.Observable
import MediaWatch.Media.Query

/-! # The engine

The engine holds the environment and, for every node, who listens to it. What is under way is kept as
a stack of frames: a change of the environment of which some lists are still to be told, an event
that some listeners are still to be given, or a listener of a client that is running. Nodes that
nobody owns any more are passed over.
-/

namespace MediaWatch

/-- The identity of one registration of a listener. -/
abbrev ListenerId := Nat

/-- Whom a registration is for: a client, or an observable that has the node as a part. -/
inductive Target where
  | client
  | relay (observable : Observable)

/-- What the engine keeps for one node. -/
structure Cell where
  /-- The registrations in the order in which they were made. -/
  listeners : List (ListenerId × Target) := []
  /-- The registrations of the node with its parts, one a part, while it has listeners. -/
  held : List ListenerId := []
  /-- The reading that the listeners know of; for a list, its last value. -/
  baseline : Reading := .truth false

/-- The cells by node; a node without an entry has an empty cell. -/
abbrev Cells := List (NodeId × Cell)

namespace Cells

def get (id : NodeId) : Cells → Cell
  | [] => {}
  | (key, cell) :: rest => if key = id then cell else get id rest

def set (id : NodeId) (cell : Cell) : Cells → Cells
  | [] => [(id, cell)]
  | (key, old) :: rest => if key = id then (id, cell) :: rest else (key, old) :: set id cell rest

theorem get_set (id other : NodeId) (cell : Cell) (cells : Cells) :
    get other (set id cell cells) = if id = other then cell else get other cells := by
  induction cells with
  | nil => simp [set, get]
  | cons head rest ih =>
    obtain ⟨key, old⟩ := head
    rw [set]
    split
    · next same => subst same; simp only [get]; split <;> rfl
    · next distinct =>
      simp only [get, ih]
      split
      · next same => subst same; rw [if_neg (Ne.symm distinct)]
      · rfl

end Cells

/-- Something under way. -/
inductive Frame where
  /-- The lists whose values changed, with their new values, that are still to be told of. -/
  | refresh (pending : List (MediaList × Bool))
  /-- An event of a source, the registrations that are still to be given it, and how many client
  listeners failed so far. -/
  | dispatch (source : Observable) (event : Event) (pending : List (ListenerId × Target))
    (failed : Nat)
  /-- A client listener that is running. -/
  | call (listener : ListenerId) (source : Observable) (event : Event)

/-- What a frame keeps alive. -/
def Frame.owned : Frame → List Observable
  | refresh pending => pending.map fun (l, _) => .list l
  | dispatch source _ _ _ => [source]
  | call _ _ _ => []

/-- The state of the environment and everything that watches it. -/
structure Engine where
  features : Media.Features
  /-- Whether the environment is still there. Without it lists keep the values they had last. -/
  connected : Bool := true
  /-- The lists in the order in which they were made. -/
  lists : List MediaList := []
  cells : Cells := []
  nextNode : NodeId := 0
  nextListener : ListenerId := 0
  /-- What is under way, the latest first. -/
  frames : List Frame := []
  /-- What clients own. -/
  owned : List Observable := []
  /-- How many client listeners failed in the dispatch that ended last. -/
  failures : Nat := 0

namespace Engine

def cell (e : Engine) (id : NodeId) : Cell := e.cells.get id

def modifyCell (e : Engine) (id : NodeId) (change : Cell → Cell) : Engine :=
  { e with cells := e.cells.set id (change (e.cell id)) }

def lastValue (e : Engine) (l : MediaList) : Bool := (e.cell l.id).baseline == .truth true

/-- What the lists say at the moment: what their descriptors come to, or the last value of each when
the environment is gone. -/
def view (e : Engine) : View := fun l =>
  if e.connected then e.features.satisfy l.descriptor else e.lastValue l

def reading (e : Engine) (o : Observable) : Reading := o.reading e.view

/-- Everything that is kept alive: what clients own, and what is under way. -/
def roots (e : Engine) : List Observable := e.owned ++ e.frames.flatMap Frame.owned

def alive (e : Engine) (id : NodeId) : Bool := e.roots.any fun o => o.mentions id

/-- The lists that are still alive, in the order in which they were made. -/
def liveLists (e : Engine) : List MediaList := e.lists.filter fun l => e.alive l.id

/-- How many registrations there are with live lists. -/
def subscriptionCount (e : Engine) : Nat :=
  (e.liveLists.flatMap fun l => (e.cell l.id).listeners).length

def newNode (e : Engine) : NodeId × Engine := (e.nextNode, { e with nextNode := e.nextNode + 1 })

/-- The engine with lists made just now, each with the value it has. -/
def addLists (e : Engine) (made : List MediaList) : Engine :=
  made.foldl
    (fun e l =>
      { e.modifyCell l.id fun cell =>
          { cell with baseline := .truth (e.features.satisfy l.descriptor) } with
        lists := e.lists ++ [l] })
    e

def newList (e : Engine) (descriptor : Text) : MediaList × Engine :=
  let (id, e) := e.newNode
  (⟨id, descriptor⟩, e.addLists [⟨id, descriptor⟩])

end Engine

end MediaWatch

import MediaWatch.Condition.Compile
import MediaWatch.Engine.Run
import MediaWatch.Shortcut.Registry

/-! # Watchers

A watcher is an engine with a compiler over it: the registry that shortcuts are looked up in, and the
conditions compiled so far by their queries.
-/

namespace MediaWatch

/-- An engine and the compiler over it. -/
structure Watcher where
  engine : Engine
  registry : Registry
  /-- The conditions of the queries asked for since the cache was cleared. -/
  cache : Fields Condition := []

namespace Watcher

def start (features : Media.Features) (registry : Registry) : Watcher where
  engine := { features }
  registry

def view (w : Watcher) : View := w.engine.view

def onEngine (w : Watcher) (change : Engine → Engine) : Watcher :=
  { w with engine := change w.engine }

def compile (w : Watcher) (query : Text) : Condition × Watcher :=
  let (c, next) := Condition.compile w.registry w.engine.nextNode query
  (c, w.onEngine fun e => { e with nextNode := next }.addLists c.lists)

/-- The condition of a query: the same instance until the cache is cleared. -/
def query (w : Watcher) (query : Text) : Condition × Watcher :=
  match w.cache.find? query with
  | some c => (c, w)
  | none =>
    let (c, w) := w.compile query
    (c, { w with cache := w.cache.insert query c })

def clearCache (w : Watcher) : Watcher := { w with cache := [] }

/-- The watcher after its clients own these observables; compiled conditions are owned by the
cache. -/
def own (w : Watcher) (kept : List Observable) : Watcher :=
  w.onEngine fun e => { e with owned := kept ++ w.cache.map fun entry => .condition entry.2 }

def newList (w : Watcher) (descriptor : Text) : MediaList × Watcher :=
  let (l, e) := w.engine.newList descriptor
  (l, { w with engine := e })

def make {α : Type} (w : Watcher) (build : NodeId → α) : α × Watcher :=
  let (id, e) := w.engine.newNode
  (build id, { w with engine := e })

def newLeaf (w : Watcher) (l : MediaList) (inverted : Bool) : Condition × Watcher :=
  w.make fun id => .leaf id l inverted

def newGroup (w : Watcher) (junction : Junction) (children : List Condition) :
    Condition × Watcher :=
  w.make fun id => .group id junction children

/-- The condition simplified, with groups of its own. -/
def simplified (w : Watcher) (c : Condition) : Condition × Watcher :=
  let (c, next) := Condition.relabel w.engine.nextNode c.simplify
  (c, w.onEngine fun e => { e with nextNode := next })

/-- Sets the environment, without waiting for what follows. -/
def update (w : Watcher) (features : Media.Features) : Watcher := w.onEngine (·.update features)

end Watcher

end MediaWatch

import MediaWatch.Engine.Subscription

/-! # Steps

The engine moves by small steps. A client sets the environment or sends a number over a channel, which
puts a frame on the stack; steps then work the stack down until nothing is under way or a client
listener is called. While the listener runs, the client may do anything it could do before; when it
ends, the steps go on. So whatever clients do, everything that happens is a sequence of their moves
and of steps.
-/

namespace MediaWatch.Engine

/-- Puts something under way. -/
def push (e : Engine) (frame : Frame) : Engine := { e with frames := frame :: e.frames }

/-- Puts the dispatch of an event to everyone who listens to a node at this moment under way. -/
def pushDispatch (e : Engine) (id : NodeId) (source : Observable) (event : Event) : Engine :=
  e.push (.dispatch source event (e.cell id).listeners 0)

def noteValue (e : Engine) (l : MediaList) (value : Bool) : Engine :=
  e.modifyCell l.id fun cell => { cell with baseline := .truth value }

/-- The live lists whose value is not the last one, with their value. -/
def changedLists (e : Engine) : List (MediaList × Bool) :=
  (e.liveLists.map fun l => (l, e.features.satisfy l.descriptor)).filter fun change =>
    change.2 != e.lastValue change.1

/-- A client sets the environment: every live list takes its new value at once, and those that changed
are told one after the other. -/
def update (e : Engine) (features : Media.Features) : Engine :=
  let e := { e with features }
  let changed := e.changedLists
  (changed.foldl (fun e change => e.noteValue change.1 change.2) e).push (.refresh changed)

/-- A client sends a number over a channel. -/
def send (e : Engine) (channel : NodeId) (number : Int) : Engine :=
  e.pushDispatch channel (.channel channel) (.signal number)

/-- An observable looks at itself after a part of it changed, and tells its listeners if its reading
is new. -/
def react (e : Engine) (o : Observable) : Engine :=
  match o.id? with
  | none => e
  | some id =>
    let now := e.reading o
    if now = (e.cell id).baseline then e
    else (e.modifyCell id fun cell => { cell with baseline := now }).pushDispatch id o (.changed now)

/-- An observable is given an event of a part of it, if it is still alive. -/
def relayTo (e : Engine) (o : Observable) : Engine :=
  if o.id?.any e.alive then e.react o else e

/-- Tells the next changed list. One whose last value is another by now was told already. -/
def tell (e : Engine) (l : MediaList) (now : Bool) : Engine :=
  if e.lastValue l = now then e.pushDispatch l.id (.list l) (.changed (.truth now)) else e

/-- One step; none when nothing is under way or a client listener is running. -/
def step? (e : Engine) : Option Engine :=
  match e.frames with
  | [] => none
  | .call _ _ _ :: _ => none
  | .refresh [] :: rest => some { e with frames := rest }
  | .refresh ((l, now) :: pending) :: rest =>
    some ({ e with frames := .refresh pending :: rest }.tell l now)
  | .dispatch _ _ [] failed :: rest => some { e with frames := rest, failures := failed }
  | .dispatch source event ((listener, target) :: pending) failed :: rest =>
    let e := { e with frames := .dispatch source event pending failed :: rest }
    match target with
    | .client => some (e.push (.call listener source event))
    | .relay o => some (e.relayTo o)

/-- The client listener that is running, and what it was told by whom. -/
def running? (e : Engine) : Option (ListenerId × Observable × Event) :=
  match e.frames with
  | .call listener source event :: _ => some (listener, source, event)
  | _ => none

/-- The client listener that is running ends, and may have failed. -/
def finish (e : Engine) (failing : Bool) : Engine :=
  match e.frames with
  | .call _ _ _ :: .dispatch source event pending failed :: rest =>
    { e with frames := .dispatch source event pending (if failing then failed + 1 else failed) :: rest }
  | .call _ _ _ :: rest => { e with frames := rest }
  | _ => e

/-- The environment goes away; every list keeps its last value. -/
def disconnect (e : Engine) : Engine := { e with connected := false }

end MediaWatch.Engine

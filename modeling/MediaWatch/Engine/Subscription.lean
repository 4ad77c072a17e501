import MediaWatch.Engine.Basic

/-! # Subscriptions

Whoever listens to a condition or a rule list makes it register with its parts, and with the first
listener only; the last one to leave makes it leave its parts. A constant never changes, so its
listeners get an identity and nothing else.
-/

namespace MediaWatch.Engine

def newListener (e : Engine) : ListenerId × Engine :=
  (e.nextListener, { e with nextListener := e.nextListener + 1 })

/-- Registers with a node itself. -/
def register (e : Engine) (id : NodeId) (target : Target) : ListenerId × Engine :=
  let (listener, e) := e.newListener
  (listener, e.modifyCell id fun cell =>
    { cell with listeners := cell.listeners ++ [(listener, target)] })

def isSilent (e : Engine) (id : NodeId) : Bool := (e.cell id).listeners.isEmpty

/-- Marks a node as registered with its parts, with the reading it has now. -/
def attach (e : Engine) (id : NodeId) (reading : Reading) (held : List ListenerId) : Engine :=
  e.modifyCell id fun cell => { cell with baseline := reading, held }

mutual

/-- Registers with a condition, and the condition with its parts if the listener is the first. -/
def subscribeCondition (target : Target) (e : Engine) : Condition → ListenerId × Engine
  | .always => e.newListener
  | .never => e.newListener
  | .leaf id l inverted =>
    let first := e.isSilent id
    let (listener, e) := e.register id target
    if first then
      let c := Observable.condition (.leaf id l inverted)
      let (held, e) := e.register l.id (.relay c)
      (listener, e.attach id (e.reading c) [held])
    else (listener, e)
  | .group id junction cs =>
    let first := e.isSilent id
    let (listener, e) := e.register id target
    if first then
      let c := Observable.condition (.group id junction cs)
      let (held, e) := subscribeAll (.relay c) e cs
      (listener, e.attach id (e.reading c) held)
    else (listener, e)

def subscribeAll (target : Target) (e : Engine) : List Condition → List ListenerId × Engine
  | [] => ([], e)
  | c :: cs =>
    let (listener, e) := subscribeCondition target e c
    let (listeners, e) := subscribeAll target e cs
    (listener :: listeners, e)

end

def subscribe (e : Engine) (o : Observable) (target : Target) : ListenerId × Engine :=
  match o with
  | .list l => e.register l.id target
  | .channel id => e.register id target
  | .condition c => subscribeCondition target e c
  | .rules id cs =>
    let first := e.isSilent id
    let (listener, e) := e.register id target
    if first then
      let (held, e) := subscribeAll (.relay o) e cs
      (listener, e.attach id (e.reading o) held)
    else (listener, e)

/-- Takes a registration off a node itself, and tells whether it was there. -/
def unregister (e : Engine) (id : NodeId) (listener : ListenerId) : Bool × Engine :=
  let before := (e.cell id).listeners
  let after := before.filter fun entry => entry.1 != listener
  (after.length != before.length, e.modifyCell id fun cell => { cell with listeners := after })

/-- Marks a node as no longer registered with its parts. -/
def detach (e : Engine) (id : NodeId) : Engine :=
  e.modifyCell id fun cell => { cell with held := [] }

mutual

/-- Takes a registration off a condition, and the condition off its parts if that was the last one.
Tells whether the registration was there. -/
def unsubscribeCondition (listener : ListenerId) (e : Engine) : Condition → Bool × Engine
  | .always => (false, e)
  | .never => (false, e)
  | .leaf id l _ =>
    let (removed, e) := e.unregister id listener
    if removed && e.isSilent id then
      let held := (e.cell id).held
      (removed, held.foldl (fun e own => (e.unregister l.id own).2) (e.detach id))
    else (removed, e)
  | .group id _ cs =>
    let (removed, e) := e.unregister id listener
    if removed && e.isSilent id then
      let held := (e.cell id).held
      (removed, unsubscribeAll held (e.detach id) cs)
    else (removed, e)

def unsubscribeAll (listeners : List ListenerId) (e : Engine) : List Condition → Engine
  | [] => e
  | c :: cs =>
    match listeners with
    | [] => e
    | listener :: rest => unsubscribeAll rest (unsubscribeCondition listener e c).2 cs

end

/-- Takes a registration off an observable, and tells whether it was there. -/
def unsubscribe (e : Engine) (o : Observable) (listener : ListenerId) : Bool × Engine :=
  match o with
  | .list l => e.unregister l.id listener
  | .channel id => e.unregister id listener
  | .condition c => unsubscribeCondition listener e c
  | .rules id cs =>
    let (removed, e) := e.unregister id listener
    if removed && e.isSilent id then
      let held := (e.cell id).held
      (removed, unsubscribeAll held (e.detach id) cs)
    else (removed, e)

def clearChannel (e : Engine) (id : NodeId) : Engine :=
  e.modifyCell id fun cell => { cell with listeners := [] }

end MediaWatch.Engine

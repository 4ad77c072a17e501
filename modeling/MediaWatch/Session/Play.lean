import MediaWatch.Inspection
import MediaWatch.Session.Script

/-! # Playing scripts

A step acts on the watcher at once. If it put something under way, the engine is run, and every
listener that is called plays its reactions before the engine goes on.
-/

namespace MediaWatch.Session

/-- What a slot holds. -/
inductive Slot where
  | condition (c : Condition)
  /-- A rule list, and whether payloads of its kind have texts. -/
  | rules (l : RuleList Payload) (written : Bool)
  | list (l : MediaList)
  | channel (id : NodeId)

def Slot.observable : Slot → Observable
  | condition c => .condition c
  | rules l _ => l.observable
  | list l => .list l
  | channel id => .channel id

/-- A listener: its registration, and the slot and the rule it was registered with. -/
structure Handle where
  listener : ListenerId
  slot : Text
  rule : Option Nat

/-- The state of a client that plays a script. -/
structure State where
  watcher : Watcher
  slots : Fields Slot := []
  /-- Every rule list that was made, the latest first. -/
  ruleLists : List (RuleList Payload) := []
  handles : Fields Handle := []
  /-- The name and the reactions of every registration. -/
  reactions : List (ListenerId × Text × List Reaction) := []
  /-- What happened in the current step, the latest first. -/
  happenings : List Happening := []

namespace State

def start (features : Media.Features) (registry : Registry) : State where
  watcher := .start features registry

def engine (s : State) : Engine := s.watcher.engine

/-- The state with another watcher, which owns what the slots hold. -/
def withWatcher (s : State) (w : Watcher) : State :=
  { s with watcher := w.own (s.slots.map fun entry => entry.2.observable) }

def onWatcher (s : State) (change : Watcher → Watcher) : State := s.withWatcher (change s.watcher)

def onRegistry (s : State) (change : Registry → Registry) : State :=
  { s with watcher := { s.watcher with registry := change s.watcher.registry } }

def put (s : State) (name : Text) (slot : Slot) : State :=
  { s with slots := s.slots.insert name slot }.onWatcher id

def drop (s : State) (name : Text) : State :=
  { s with slots := s.slots.erase name }.onWatcher id

def note (s : State) (happening : Happening) : State :=
  { s with happenings := happening :: s.happenings }

def look (s : State) : Slot → Reply
  | .condition c => .condition (s.engine.report c)
  | .rules l written => .rules (s.engine.ruleListReport l written)
  | .list l => .list l.descriptor (s.engine.view l)
  | .channel id => .channel (s.engine.cell id).listeners.length

/-- Puts something into a slot and shows it. -/
def store (s : State) (name : Text) (slot : Slot) : Reply × State :=
  let s := s.put name slot
  (s.look slot, s)

/-- Keeps a new rule list in a slot and shows it. -/
def storeRules (s : State) (name : Text) (l : RuleList Payload) (written : Bool) : Reply × State :=
  { s with ruleLists := l :: s.ruleLists }.store name (.rules l written)

def update (s : State) (change : Media.Features → Media.Features) : Reply × State :=
  (.done, s.onWatcher fun w => w.update (change w.engine.features))

/-- The content of a slot that must be there. -/
def slot (s : State) (name : Text) : Except Refusal Slot :=
  match s.slots.find? name with
  | some slot => .ok slot
  | none => .error .unknownSlot

def condition (s : State) (name : Text) : Except Refusal Condition := do
  match ← s.slot name with
  | .condition c => .ok c
  | _ => .error .unknownSlot

/-- The rule list in a slot, and whether payloads of its kind have texts. -/
def ruleList (s : State) (name : Text) : Except Refusal (RuleList Payload × Bool) := do
  match ← s.slot name with
  | .rules l written => .ok (l, written)
  | _ => .error .unknownSlot

def channel (s : State) (name : Text) : Except Refusal NodeId := do
  match ← s.slot name with
  | .channel id => .ok id
  | _ => .error .unknownSlot

/-- Goes on only while the environment and its compiler are there. -/
def connected (s : State) : Except Refusal Unit :=
  if s.engine.connected then .ok () else .error .disconnected

/-- What a listener of a slot registers with: what the slot holds, or the condition of a rule if the
slot holds a list and a rule is named. Without a rule of that index there is nothing. -/
def target? (s : State) (name : Text) (rule : Option Nat) : Except Refusal (Option Observable) := do
  match ← s.slot name, rule with
  | .rules l _, some index => .ok (l.rules[index]?.map fun r => .condition r.condition)
  | slot, _ => .ok (some slot.observable)

/-- A rule of a list that is put together by hand. -/
def ruleEntry (s : State) (entry : RuleEntry) : Except Refusal (Rule Payload × State) :=
  match entry.slot, entry.query with
  | some name, _ => do .ok (.conditional entry.payload (← s.condition name), s)
  | none, some query => do
    s.connected
    let (c, w) := s.watcher.query query
    .ok (.conditional entry.payload c, s.withWatcher w)
  | none, none => .ok (.fallback entry.payload, s)

/-- The rules of a list that is put together by hand, up to one that is refused. The queries compiled
so far stay compiled either way. -/
def ruleEntries (s : State) : List RuleEntry → Except Refusal (List (Rule Payload)) × State
  | [] => (.ok [], s)
  | entry :: rest =>
    match s.ruleEntry entry with
    | .error refusal => (.error refusal, s)
    | .ok (rule, s) =>
      let (rules, s) := ruleEntries s rest
      (rules.map (rule :: ·), s)

/-- What somebody who inspects an aspect is shown. -/
def inspect (s : State) : Aspect → Except Refusal Text
  | .environment => do
    s.connected
    .ok s.engine.inspected
  | .compiler => do
    s.connected
    .ok s.watcher.inspectCompiler
  | .slot name => do
    match ← s.slot name with
    | .condition c => .ok (s.engine.inspectCondition c)
    | .rules l _ => .ok (s.engine.inspectRules l)
    | .list l => .ok (s.engine.inspectList l)
    | .channel id => .ok (s.engine.inspectChannel id)
  | .trace name => do
    match ← s.slot name with
    | .condition c => .ok (c.trace s.engine.view).inspected
    | .rules l _ => .ok (RuleList.inspectSteps (l.steps s.engine.view))
    | _ => .error .unknownSlot
  | .group name => do
    match ← s.condition name with
    | .group id junction cs => .ok (s.engine.inspectGroup id junction cs)
    | _ => .error .unknownSlot

/-- Takes a step on the watcher, leaving what it put under way to be run. -/
def act (s : State) : Step → Except Refusal (Reply × State)
  | .width width => do
    s.connected
    .ok (s.update fun f => { f with width })
  | .height height => do
    s.connected
    .ok (s.update fun f => { f with height })
  | .resolution resolution => do
    s.connected
    .ok (s.update fun f => { f with resolution })
  | .size width height => do
    s.connected
    .ok (s.update fun f => { f with width, height })
  | .feature name value => do
    s.connected
    match s.engine.features.set name value with
    | .ok f => .ok (s.update fun _ => f)
    | .error fault => .ok (.fault fault, s)
  | .replace features => do
    s.connected
    match features with
    | some f => .ok (s.update fun _ => f)
    | none => .ok (.noSnapshot, s)
  | .features => do
    s.connected
    .ok (.features s.engine.features, s)
  | .evaluate descriptor => do
    s.connected
    .ok (.truth (s.engine.features.satisfy descriptor), s)
  | .live => do
    s.connected
    .ok (.count s.engine.liveLists.length, s)
  | .disconnect =>
    .ok (.done, s.onWatcher fun w => w.clearCache.onEngine Engine.disconnect)
  | .query slot query fresh => do
    s.connected
    let (c, w) := if fresh then s.watcher.compile query else s.watcher.query query
    .ok ((s.withWatcher w).store slot (.condition c))
  | .clearCache => do
    s.connected
    .ok (.done, s.onWatcher Watcher.clearCache)
  | .cacheSize => do
    s.connected
    .ok (.count s.watcher.cache.length, s)
  | .leaf slot descriptor inverted => do
    s.connected
    let (l, w) := s.watcher.newList descriptor
    let (c, w) := w.newLeaf l inverted
    .ok ((s.withWatcher w).store slot (.condition c))
  | .wrap slot list inverted => do
    match ← s.slot list with
    | .list l =>
      let (c, w) := s.watcher.newLeaf l inverted
      .ok ((s.withWatcher w).store slot (.condition c))
    | _ => .error .unknownSlot
  | .constant slot holds => .ok (s.store slot (.condition (.constant holds)))
  | .group slot junction children => do
    let cs ← children.mapM s.condition
    let (c, w) := s.watcher.newGroup junction cs
    .ok ((s.withWatcher w).store slot (.condition c))
  | .optimize slot condition => do
    let (c, w) := s.watcher.simplified (← s.condition condition)
    .ok ((s.withWatcher w).store slot (.condition c))
  | .child slot condition index => do
    match (← s.condition condition).children[index]? with
    | some c => .ok (s.store slot (.condition c))
    | none => .error .noSuchIndex
  | .rules slot rules mask reader => do
    s.connected
    match RuleList.read reader.read? rules mask s.watcher with
    | .ok (l, w) => .ok ((s.withWatcher w).storeRules slot l true)
    | .error fault => .ok (.fault fault, s)
  | .build slot written entries =>
    match s.ruleEntries entries with
    | (.error refusal, s) => .ok (.refused refusal, s)
    | (.ok rules, s) =>
      let (l, w) := RuleList.ofRules rules s.watcher
      .ok ((s.withWatcher w).storeRules slot l written)
  | .ruleCondition slot rules index => do
    match (← s.ruleList rules).1.rules[index]? with
    | some r => .ok (s.store slot (.condition r.condition))
    | none => .error .noSuchIndex
  | .list slot descriptor => do
    s.connected
    let (l, w) := s.watcher.newList descriptor
    .ok ((s.withWatcher w).store slot (.list l))
  | .channel slot =>
    let (id, w) := s.watcher.make id
    .ok ((s.withWatcher w).store slot (.channel id))
  | .clone slot source => do
    .ok (s.store slot (← s.slot source))
  | .show slot => do
    .ok (s.look (← s.slot slot), s)
  | .holds slot => do
    match ← s.slot slot with
    | .condition c => .ok (.truth (c.holds s.engine.view), s)
    | .rules l _ => .ok (.brief (l.brief s.engine.view), s)
    | .list l => .ok (.truth (s.engine.view l), s)
    | .channel _ => .error .unknownSlot
  | .same first second => do
    match ← s.slot first, ← s.slot second with
    | .condition a, .condition b => .ok (.truth (a.same b), s)
    | .rules a _, .rules b _ => .ok (.truth (a.id == b.id), s)
    | .list a, .list b => .ok (.truth (a.id == b.id), s)
    | .channel a, .channel b => .ok (.truth (a == b), s)
    | _, _ => .ok (.truth false, s)
  | .trace slot => do
    match ← s.slot slot with
    | .condition c =>
      let t := c.trace s.engine.view
      .ok (.trace t.matched t.text, s)
    | .rules l _ =>
      let steps := l.steps s.engine.view
      .ok (.ruleTrace (RuleList.activeStep? steps)
        (steps.map fun step => (step.index, step.isDefault, step.matched, step.condition.text)), s)
    | _ => .error .unknownSlot
  | .inspect aspect => do
    .ok (.text (← s.inspect aspect), s)
  | .forget slot => do
    let _ ← s.slot slot
    .ok (.done, s.drop slot)
  | .listen name slot rule reactions => do
    match ← s.target? slot rule with
    | none => .error .noSuchIndex
    | some target =>
      let (listener, e) := s.engine.subscribe target .client
      .ok (.done, { s with
        watcher := { s.watcher with engine := e }
        handles := s.handles.insert name ⟨listener, slot, rule⟩
        reactions := (listener, name, reactions) :: s.reactions })
  | .unlisten name slot => do
    match s.handles.find? name with
    | none => .error .unknownListener
    | some handle =>
      match ← s.target? (slot.getD handle.slot) handle.rule with
      | none => .ok (.truth false, s)
      | some target =>
        let (removed, e) := s.engine.unsubscribe target handle.listener
        .ok (.truth removed, { s with watcher := { s.watcher with engine := e } })
  | .send slot number => do
    let id ← s.channel slot
    .ok (.done, s.onWatcher fun w => w.onEngine (·.send id number))
  | .clear slot => do
    let id ← s.channel slot
    .ok (.done, s.onWatcher fun w => w.onEngine (·.clearChannel id))
  | .preprocess term => do
    s.connected
    .ok (.text (s.watcher.registry.preprocess term), s)
  | .resolverNames => do
    s.connected
    .ok (.names s.watcher.registry.resolverNames, s)
  | .useResolver name token answer => do
    s.connected
    let resolver := match token with
      | some token => Resolver.exactly name token answer
      | none => .always name answer
    .ok (.done, s.onRegistry (·.use resolver))
  | .addBreakpoint name range => do
    s.connected
    let before := s.watcher.registry.breakpoints
    match before.add name range with
    | .ok breakpoints =>
      .ok (.breakpoint (before.get? name), s.onRegistry fun r => { r with breakpoints })
    | .error fault => .ok (.fault fault, s)
  | .removeBreakpoint name => do
    s.connected
    let before := s.watcher.registry.breakpoints
    .ok (.breakpoint (before.get? name),
      s.onRegistry fun r => { r with breakpoints := before.remove name })
  | .breakpoint name => do
    s.connected
    .ok (.breakpoint (s.watcher.registry.breakpoints.get? name), s)
  | .breakpoints => do
    s.connected
    .ok (.entries (s.watcher.registry.breakpoints.entries.map fun (name, b) => (name, b.text)), s)
  | .addShortcut name shortcut => do
    s.connected
    let before := s.watcher.registry.environment
    .ok (.shortcut (before.get? name),
      s.onRegistry fun r => { r with environment := before.add name shortcut })
  | .removeShortcut name => do
    s.connected
    let before := s.watcher.registry.environment
    .ok (.shortcut (before.get? name),
      s.onRegistry fun r => { r with environment := before.remove name })
  | .shortcut name => do
    s.connected
    .ok (.shortcut (s.watcher.registry.environment.get? name), s)
  | .shortcuts => do
    s.connected
    .ok (.entries (s.watcher.registry.environment.entries.map fun (name, x) => (name, x.text)), s)
  | .setBot bot => do
    s.connected
    .ok (.done, s.onRegistry fun r => { r with density := { r.density with bot } })
  | .setIgnoreBots ignoreBots => do
    s.connected
    .ok (.truth ignoreBots, s.onRegistry fun r => { r with density := { r.density with ignoreBots } })
  | .unknown => .error .unknownStep

/-- What a listener is told by an event of a source. A rule list is read when the listener is called. -/
def told (s : State) (source : Observable) (event : Event) : Told :=
  match event with
  | .signal number => .number number
  | .changed (.truth holds) => .truth holds
  | .changed (.index active) =>
    match s.ruleLists.find? fun l => source.id? == some l.id with
    | some l => .brief (l.brief s.engine.view)
    | none => .brief ⟨active, none⟩

def reactionsOf (s : State) (listener : ListenerId) : Option (Text × List Reaction) :=
  (s.reactions.find? fun entry => entry.1 == listener).map (·.2)

def setReactions (s : State) (listener : ListenerId) (reactions : List Reaction) : State :=
  { s with reactions := s.reactions.map fun entry =>
      if entry.1 = listener then (entry.1, entry.2.1, reactions) else entry }

/-- Takes a run of one reaction of a registration, if it has one left and waits for the event. -/
def takeRun (s : State) (listener : ListenerId) (index : Nat) (event : Told) :
    Option (List Step × Bool × State) := do
  let (_, reactions) ← s.reactionsOf listener
  let .mk left awaits steps fails ← reactions[index]?
  let after ← match left with
    | none => some none
    | some 0 => none
    | some (n + 1) => some (some n)
  if awaits event then
    some (steps, fails, s.setReactions listener (reactions.set index (.mk after awaits steps fails)))
  else none

mutual

/-- Takes a step and runs what it put under way. The first argument bounds the depth of the run. -/
def play : Nat → Step → State → Reply × State
  | 0, _, s => (.done, s)
  | fuel + 1, step, s =>
    match s.act step with
    | .error refusal => (.refused refusal, s)
    | .ok (reply, after) =>
      let after := run fuel s.engine.frames.length after
      match step with
      | .send _ _ => (.count after.engine.failures, after)
      | _ => (reply, after)

/-- Runs the engine until no more than so many frames are left, playing the reactions of the listeners
that are called. -/
def run : Nat → Nat → State → State
  | 0, _, s => s
  | fuel + 1, depth, s =>
    let s := { s with watcher := s.watcher.onEngine Engine.settle }
    match s.engine.running? with
    | some (listener, source, event) =>
      if depth < s.engine.frames.length then
        let (failed, s) := call fuel listener (s.told source event) s
        run fuel depth { s with watcher := s.watcher.onEngine (·.finish failed) }
      else s
    | none => s

/-- Tells a listener something, and plays its reactions. Tells whether one of them failed. -/
def call : Nat → ListenerId → Told → State → Bool × State
  | 0, _, _, s => (false, s)
  | fuel + 1, listener, event, s =>
    match s.reactionsOf listener with
    | none => (false, s)
    | some (name, reactions) =>
      react fuel listener name event (List.range reactions.length) (s.note (.told name event))

/-- Plays the reactions with these indices, up to one that fails. -/
def react : Nat → ListenerId → Text → Told → List Nat → State → Bool × State
  | 0, _, _, _, _, s => (false, s)
  | _, _, _, _, [], s => (false, s)
  | fuel + 1, listener, name, event, index :: rest, s =>
    match s.takeRun listener index event with
    | none => react fuel listener name event rest s
    | some (steps, fails, s) =>
      let s := playAll fuel name steps s
      if fails then (true, s) else react fuel listener name event rest s

def playAll : Nat → Text → List Step → State → State
  | 0, _, _, s => s
  | _, _, [], s => s
  | fuel + 1, name, step :: rest, s =>
    let (reply, s) := play fuel step s
    playAll fuel name rest (s.note (.did name reply))

end

/-- Takes a step of a script, and tells what it comes to. -/
def outcome (fuel : Nat) (step : Step) (s : State) : Outcome × State :=
  let (reply, s) := play fuel step { s with happenings := [] }
  ({ reply
     subscriptions := if s.engine.connected then some s.engine.subscriptionCount else none
     happenings := s.happenings.reverse }, s)

/-- What the steps of a script come to. The first argument bounds the depth to which listeners call one
another. -/
def outcomes (fuel : Nat) : List Step → State → List Outcome
  | [], _ => []
  | step :: rest, s =>
    let (outcome, s) := s.outcome fuel step
    outcome :: outcomes fuel rest s

end State

end MediaWatch.Session

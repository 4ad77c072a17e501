import MediaWatch.Proofs.Engine.Nodes
import MediaWatch.Rule.RuleList

/-! # A watcher and its clients

Clients make conditions, keep what they like, listen and leave, and set the environment, at rest and
while a listener of theirs is running. Every history is a sequence of their moves and of steps of the
engine, so whatever is to hold of all histories is shown move by move. Looking at things (readings,
traces, texts) changes nothing and is no move.

Besides the watcher the state notes what was made and who was told what. No move looks at these notes.
-/

namespace MediaWatch

/-- A watcher, what its clients have, and notes of what happened. -/
structure Audience where
  watcher : Watcher
  /-- What clients own besides the compiled conditions. -/
  kept : List Observable := []
  /-- Every node made so far. -/
  made : List Observable := []
  /-- Every registration a client asked for, the latest first. -/
  handles : List (ListenerId × Observable) := []
  /-- Every registration that a client took off with success, the latest first. -/
  removed : List ListenerId := []
  /-- What each registration was told, the reading it began with first. -/
  heard : List (ListenerId × Reading) := []

/-- What can happen next: a move of a client, or a step of the engine. -/
inductive Move where
  | watch (descriptor : Text)
  | leaf (list : MediaList) (inverted : Bool)
  | group (junction : Junction) (children : List Condition)
  | rules (conditions : List Condition)
  | compile (query : Text)
  | query (query : Text)
  | simplify (condition : Condition)
  | clearCache
  | configure (registry : Registry)
  | keep (kept : List Observable)
  | listen (observable : Observable)
  | unlisten (observable : Observable) (listener : ListenerId)
  | update (features : Media.Features)
  /-- The client listener that is running ends, and may have failed. -/
  | finish (failing : Bool)
  /-- The engine takes a step. -/
  | advance

/-- The nodes of an observable with identities from `next` on. -/
def Observable.nodesFrom (next : NodeId) (o : Observable) : List Observable :=
  o.nodes.filter fun y => y.id?.any (next ≤ ·)

/-- What a listener of an observable gets to know from a reading it is told: rule lists are read when the
listener is called. -/
def Engine.given (e : Engine) (source : Observable) (reading : Reading) : Reading :=
  match source with
  | .rules _ _ => e.reading source
  | _ => reading

/-- The client listener that the next step calls, if it calls one, and what the listener gets to know. -/
def Engine.calling? (e : Engine) : Option (ListenerId × Reading) :=
  match e.frames with
  | .dispatch source (.changed reading) ((listener, .client) :: _) _ :: _ => some (listener, e.given source reading)
  | _ => none

namespace Engine

variable {e : Engine} {source : Observable} {event : Event} {h : ListenerId} {pending : List (ListenerId × Target)}
  {failed : Nat} {rest : List Frame}

theorem calling?_of_refresh {lists : List (MediaList × Bool)} (frames : e.frames = .refresh lists :: rest) :
    e.calling? = none := by
  rw [calling?, frames]

theorem calling?_of_told (frames : e.frames = .dispatch source event [] failed :: rest) : e.calling? = none := by
  rw [calling?, frames]
  cases event <;> rfl

theorem calling?_of_relay {y : Observable}
    (frames : e.frames = .dispatch source event ((h, .relay y) :: pending) failed :: rest) :
    e.calling? = none := by
  rw [calling?, frames]
  cases event <;> rfl

theorem calling?_of_client {r : Reading}
    (frames : e.frames = .dispatch source (.changed r) ((h, .client) :: pending) failed :: rest) :
    e.calling? = some (h, e.given source r) := by
  rw [calling?, frames]

end Engine

namespace Audience

/-- Nobody has done anything yet. -/
def start (features : Media.Features) (registry : Registry) : Audience where
  watcher := .start features registry

def engine (a : Audience) : Engine := a.watcher.engine

def withEngine (a : Audience) (e : Engine) : Audience := { a with watcher := { a.watcher with engine := e } }

/-- Nothing is under way. -/
def Idle (a : Audience) : Prop := a.engine.frames = []

/-- The state after clients own these and nothing else besides the compiled conditions. -/
def keep (a : Audience) (kept : List Observable) : Audience := { a with kept, watcher := a.watcher.own kept }

/-- The state after something was made, which clients own. -/
def gain (a : Audience) (o : Observable) (w : Watcher) : Audience :=
  { a with watcher := w, made := a.made ++ o.nodesFrom a.engine.nextNode }.keep (o :: a.kept)

def gainCondition (a : Audience) (made : Condition × Watcher) : Audience := a.gain (.condition made.1) made.2

def listen (a : Audience) (o : Observable) : Audience :=
  let (listener, e) := a.engine.subscribe o .client
  { a.withEngine e with
    handles := (listener, o) :: a.handles
    heard := a.heard ++ [(listener, a.engine.reading o)] }

def unlisten (a : Audience) (o : Observable) (listener : ListenerId) : Audience :=
  let (found, e) := a.engine.unsubscribe o listener
  { a.withEngine e with removed := if found then listener :: a.removed else a.removed }

/-- The engine takes a step, which may call a client listener. -/
def advance (a : Audience) : Audience :=
  match a.engine.step? with
  | none => a
  | some e => { a.withEngine e with heard := a.heard ++ a.engine.calling?.toList }

def act (a : Audience) : Move → Audience
  | .watch descriptor => let (l, w) := a.watcher.newList descriptor; a.gain (.list l) w
  | .leaf l inverted => a.gainCondition (a.watcher.newLeaf l inverted)
  | .group junction cs => a.gainCondition (a.watcher.newGroup junction cs)
  | .rules cs => let (o, w) := a.watcher.make fun id => Observable.rules id cs; a.gain o w
  | .compile query => a.gainCondition (a.watcher.compile query)
  | .query query => a.gainCondition (a.watcher.query query)
  | .simplify c => a.gainCondition (a.watcher.simplified c)
  | .clearCache => { a with watcher := a.watcher.clearCache }.keep a.kept
  | .configure registry => { a with watcher := { a.watcher with registry } }
  | .keep kept => a.keep kept
  | .listen o => a.listen o
  | .unlisten o listener => a.unlisten o listener
  | .update features => { a with watcher := a.watcher.update features }
  | .finish failing => a.withEngine (a.engine.finish failing)
  | .advance => a.advance

theorem handles_listen (a : Audience) (o : Observable) :
    (a.act (.listen o)).handles = ((a.engine.subscribe o .client).1, o) :: a.handles := rfl

theorem mem_removed_unlisten {a : Audience} {o : Observable} {listener l : ListenerId} :
    l ∈ (a.unlisten o listener).removed ↔
      l ∈ a.removed ∨ (l = listener ∧ (a.engine.unsubscribe o listener).1) := by
  show l ∈ (if (a.engine.unsubscribe o listener).1 then listener :: a.removed else a.removed) ↔ _
  split
  · next here => simp [here, or_comm]
  · next here => simp [here]

/-- An observable that a client can have: a constant, or something made that is still alive. -/
def Usable (a : Audience) (o : Observable) : Prop :=
  o.id? = none ∨ (o ∈ a.made ∧ ∃ id, o.id? = some id ∧ a.engine.alive id)

/-- What a client needs for a move. A registration that is taken off must have come from some observable,
not necessarily from this one; it may be gone by now. -/
def Has (a : Audience) : Move → Prop
  | .leaf l _ => a.Usable (.list l)
  | .group _ cs => ∀ c ∈ cs, a.Usable (.condition c)
  | .rules cs => ∀ c ∈ cs, a.Usable (.condition c)
  | .simplify c => a.Usable (.condition c)
  | .keep kept => ∀ o ∈ kept, a.Usable o
  | .listen o => a.Usable o
  | .unlisten o listener => a.Usable o ∧ ∃ source, (listener, source) ∈ a.handles
  | _ => True

/-- The moves that can be made: the engine steps while it can, and clients move when nothing is under way
or a listener of theirs is running. -/
def Allows (a : Audience) (m : Move) : Prop :=
  match m with
  | .advance => a.engine.step?.isSome
  | .finish _ => a.engine.running?.isSome
  | m => a.engine.step? = none ∧ a.Has m

/-- Listeners leave the environment alone: it is set at rest only. -/
def Quiet (a : Audience) (m : Move) : Prop := ∀ features, m = .update features → a.Idle

/-- The environment is left alone altogether. -/
def Still (_ : Audience) (m : Move) : Prop := ∀ features, m ≠ .update features

/-- Any allowed move. -/
def Free (_ : Audience) (_ : Move) : Prop := True

/-- A history from one state to another by allowed moves of some sort. -/
inductive Run (sort : Audience → Move → Prop) : Audience → List Move → Audience → Prop
  | nil (a : Audience) : Run sort a [] a
  | cons {a b : Audience} {m : Move} {ms : List Move} (allowed : a.Allows m) (sorted : sort a m)
      (rest : Run sort (a.act m) ms b) : Run sort a (m :: ms) b

/-- Whether a move that needs nothing from earlier ones can be made. -/
def ready (a : Audience) : Move → Bool
  | .advance => a.engine.step?.isSome
  | .finish _ => a.engine.running?.isSome
  | .watch _ | .compile _ | .query _ | .clearCache | .configure _ | .update _ => a.engine.step?.isNone
  | _ => false

/-- Whether such moves can be made one after the other. -/
def plays (a : Audience) : List Move → Bool
  | [] => true
  | m :: ms => a.ready m && (a.act m).plays ms

theorem allows_of_ready {a : Audience} {m : Move} (ready : a.ready m) : a.Allows m := by
  cases m with
  | advance => exact ready
  | finish failing => exact ready
  | watch descriptor => exact ⟨Option.isNone_iff_eq_none.mp ready, trivial⟩
  | compile query => exact ⟨Option.isNone_iff_eq_none.mp ready, trivial⟩
  | query query => exact ⟨Option.isNone_iff_eq_none.mp ready, trivial⟩
  | clearCache => exact ⟨Option.isNone_iff_eq_none.mp ready, trivial⟩
  | configure registry => exact ⟨Option.isNone_iff_eq_none.mp ready, trivial⟩
  | update features => exact ⟨Option.isNone_iff_eq_none.mp ready, trivial⟩
  | _ => exact absurd ready Bool.false_ne_true

namespace Run

variable {sort other : Audience → Move → Prop} {a b c : Audience} {m : Move} {ms ns : List Move}

theorem append (left : Run sort a ms b) (right : Run sort b ns c) : Run sort a (ms ++ ns) c := by
  induction left with
  | nil => exact right
  | cons allowed sorted _ ih => exact .cons allowed sorted (ih right)

theorem single (allowed : a.Allows m) (sorted : sort a m) : Run sort a [m] (a.act m) :=
  .cons allowed sorted (.nil _)

theorem mono (weaker : ∀ a m, sort a m → other a m) (run : Run sort a ms b) : Run other a ms b := by
  induction run with
  | nil a => exact .nil a
  | cons allowed sorted _ ih => exact .cons allowed (weaker _ _ sorted) ih

/-- What holds at first and is preserved by every move holds at the end. -/
theorem invariant {Invariant : Audience → Prop} (run : Run sort a ms b)
    (step : ∀ a m, Invariant a → a.Allows m → sort a m → Invariant (a.act m)) (first : Invariant a) :
    Invariant b := by
  induction run with
  | nil => exact first
  | cons allowed sorted _ ih => exact ih (step _ _ first allowed sorted)

theorem free (run : Run sort a ms b) : Run Free a ms b := run.mono fun _ _ _ => trivial

/-- Moves that can be made one after the other make a history. -/
theorem of_plays (played : a.plays ms) (sorted : ∀ a, ∀ m ∈ ms, sort a m) : Run sort a ms (ms.foldl act a) := by
  induction ms generalizing a with
  | nil => exact .nil a
  | cons m ms ih =>
    obtain ⟨first, later⟩ := (Bool.and_eq_true ..).to_iff.mp played
    exact .cons (allows_of_ready first) (sorted a m List.mem_cons_self)
      (ih later fun a m mem => sorted a m (List.mem_cons_of_mem _ mem))

end Run

/-- What a registration was told, in order. -/
def heardBy (a : Audience) (listener : ListenerId) : List Reading :=
  (a.heard.filter fun entry => entry.1 == listener).map Prod.snd

end Audience

end MediaWatch

import MediaWatch.Proofs.Audience.Attendance
import MediaWatch.Proofs.Condition.Meaning
import MediaWatch.Proofs.Rule.Pairing
import MediaWatch.Recording
import MediaWatch.Subject

/-! # Recordings are histories

A recording is what comes of a client that listens to a subject and does nothing else. So whatever holds of all
histories holds of it: its listener is told once of a change that makes the subject come to something else, and not at
all otherwise.
-/

namespace MediaWatch

namespace Audience

variable {a a' b : Audience} {ms : List Move}

namespace Orderly

/-- Clients that leave the environment alone put nothing under way. -/
theorem frames_acted (orderly : a.Orderly) {m : Move} (acted : a.Acted m a') (still : a.Still m)
    (client : m.isEngine = false) : a'.engine.frames = a.engine.frames := by
  cases acted with
  | gained making => exact making.frames
  | listened usable => exact (orderly.subscribed (known_of_usable usable)).joined.stage.frames
  | left usable handle => exact (orderly.unsubscribed (known_of_usable usable) handle).parted.stage.frames
  | uncached | configured | kept => rfl
  | set => exact absurd rfl (still _)
  | ended | stepped => contradiction

/-- What leaves the environment alone leaves its features what they are. -/
theorem features_acted (orderly : a.Orderly) {m : Move} (acted : a.Acted m a') (still : a.Still m) :
    a'.engine.features = a.engine.features := by
  cases acted with
  | gained making => exact making.features
  | listened usable => exact (orderly.subscribed (known_of_usable usable)).joined.stage.features
  | left usable handle => exact (orderly.unsubscribed (known_of_usable usable) handle).parted.stage.features
  | uncached | configured | kept => rfl
  | set => exact absurd rfl (still _)
  | ended finished => cases finished <;> rfl
  | stepped stepped => cases stepped <;> rfl

end Orderly

theorem Run.features (run : Run Still a ms b) (orderly : a.Orderly) : b.engine.features = a.engine.features := by
  induction run with
  | nil a => rfl
  | cons allowed still rest ih =>
    exact (ih (orderly.act allowed)).trans (orderly.features_acted (orderly.acted allowed) still)

/-- Nothing is under way, and nobody is left behind. -/
structure Rested (a : Audience) : Prop where
  orderly : a.Orderly
  heedful : a.Heedful
  idle : a.Idle

private theorem Idle.halted (idle : a.Idle) : a.engine.step? = none := by
  rw [Engine.step?, show a.engine.frames = [] from idle]

/-- At rest it is for the clients to move. -/
theorem Idle.client (idle : a.Idle) {m : Move} (allowed : a.Allows m) : m.isEngine = false := by
  have frames : a.engine.frames = [] := idle
  cases m with
  | advance => simp [Allows, idle.halted] at allowed
  | finish failing => simp [Allows, Engine.running?, frames] at allowed
  | _ => rfl

/-- Clients that leave the environment alone do not disturb the rest. -/
theorem Rested.act (rested : a.Rested) {m : Move} (allowed : a.Allows m) (still : a.Still m) : (a.act m).Rested := by
  have acted := rested.orderly.acted allowed
  have frames := rested.orderly.frames_acted acted still (rested.idle.client allowed)
  refine ⟨rested.orderly.act allowed, ?_, frames.trans rested.idle⟩
  exact rested.orderly.heedful_act rested.heedful acted fun features set => absurd set (still features)

private theorem rested_start (features : Media.Features) (registry : Registry) : (start features registry).Rested :=
  ⟨orderly_start features registry, heedful_start features registry, rfl⟩

private theorem length_heardBy (a : Audience) (l : ListenerId) : (a.heardBy l).length = a.heard.countP (·.1 == l) := by
  rw [heardBy, List.length_map, List.countP_eq_length_filter]

/-- The state in which clients that only listen have everything at rest again after a change. -/
def settled (a : Audience) (features : Media.Features) (heard : List (ListenerId × Reading)) : Audience :=
  { (a.act (.update features)).withEngine (a.act (.update features)).engine.notices.2 with heard }

/-- Clients that only listen have everything at rest again after a change, and a listener has heard something as often
as the notices tell it something. -/
theorem Rested.update (rested : a.Rested) (features : Media.Features) (l : ListenerId) :
    ∃ ms heard, Run Still (a.act (.update features)) ms (a.settled features heard) ∧
      (a.settled features heard).Rested ∧ heard.countP (·.1 == l) =
        a.heard.countP (·.1 == l) + (Notice.told l (a.act (.update features)).engine.notices.1).length := by
  have orderly := rested.orderly.update features
  have heedful := rested.orderly.heedful_update rested.heedful rested.idle features
  obtain ⟨ms, heard, run, rest, count⟩ := orderly.attended (rested.orderly.toil_update rested.idle features) l
  have quiet : Run Quiet _ ms (a.settled features heard) := run.mono fun a m still features set =>
    absurd set (still features)
  obtain ⟨orderly, heedful⟩ := quiet.heedful orderly heedful
  have silent : (a.act (.update features)).engine.ringing l = 0 := by
    rw [Engine.ringing, Orderly.frames_update, show a.engine.frames = [] from rested.idle]
    rfl
  rw [silent, Nat.add_zero] at count
  exact ⟨ms, heard, run, ⟨orderly, heedful, rest⟩, count⟩

/-! ## What a client that only listens records -/

/-- Clients have what a recording has, at rest. -/
structure Records (a : Audience) (r : Recording) : Prop extends a.Rested where
  watcher : a.watcher = r.watcher
  handle : (r.listener, r.subject) ∈ a.handles
  stays : r.listener ∉ a.removed
  kept : r.subject ∈ a.kept

namespace Records

variable {r : Recording}

theorem listens (records : a.Records r) : a.Listens r.listener r.subject :=
  ⟨records.handle, records.stays, records.orderly.usable_of_kept records.kept⟩

theorem features (records : a.Records r) : r.features = a.engine.features := by
  rw [Recording.features, ← records.watcher]
  rfl

/-- The lists say what the features say. -/
theorem view (records : a.Records r) : r.view = r.features.view := by
  have connected : a.watcher.engine.connected = true := records.orderly.connected
  rw [records.watcher] at connected
  exact Engine.view_of_connected connected

theorem reading (records : a.Records r) (o : Observable) : a.engine.reading o = o.reading r.features.view := by
  rw [← records.view, Recording.view, ← records.watcher]
  rfl

/-- After a change of the environment clients have what the recording has again, with everything at rest, and the
listener was told once if the subject comes to something else and not at all otherwise. -/
theorem update (records : a.Records r) (features : Media.Features) :
    ∃ b : Audience, b.Records (r.update features).2 ∧ (r.update features).2.features = features ∧
      (r.update features).1.length =
        if r.subject.reading features.view = r.subject.reading r.features.view then 0 else 1 := by
  have before := records.reading r.subject
  obtain ⟨w, subject, l⟩ := r
  obtain rfl : a.watcher = w := records.watcher
  obtain ⟨ms, heard, run, rested, count⟩ := records.toRested.update features l
  have recorded : (a.settled features heard).Records (Recording.update ⟨a.watcher, subject, l⟩ features).2 :=
    ⟨rested, rfl, records.handle, records.stays, records.kept⟩
  have unchanged := run.features (records.orderly.update features)
  have changed : (Recording.update ⟨a.watcher, subject, l⟩ features).2.features = features :=
    recorded.features.trans (unchanged.trans (Orderly.features_update a features))
  have after := recorded.reading subject
  rw [changed] at after
  have told := run.told_once records.orderly records.heedful records.idle rested.idle records.handle recorded.listens
  have lengths := congrArg List.length told
  rw [List.length_append, length_heardBy, length_heardBy, before, after] at lengths
  refine ⟨_, recorded, changed, Nat.add_left_cancel (count.symm.trans (lengths.trans ?_))⟩
  split <;> rfl

end Records

end Audience

/-! ## What a client compiles -/

private theorem Engine.addLists_owned (e : Engine) (owned : List Observable) (made : List MediaList) :
    ({ e with owned } : Engine).addLists made = { e.addLists made with owned } := by
  induction made generalizing e with
  | nil => rfl
  | cons l rest ih =>
    exact ih { e.modifyCell l.id fun cell => { cell with baseline := .truth (e.features.satisfy l.descriptor) } with
      lists := e.lists ++ [l] }

namespace Watcher

/-- The watcher when clients own these. -/
def owning (w : Watcher) (owned : List Observable) : Watcher := w.onEngine fun e => { e with owned }

private theorem own_owning (w : Watcher) (owned kept : List Observable) : (w.owning owned).own kept = w.own kept := rfl

private theorem own_eq_owning (w : Watcher) (kept : List Observable) :
    w.own kept = w.owning (kept ++ w.cache.map fun entry => .condition entry.2) := rfl

/-- What clients own has no part in compiling. -/
theorem query_owning (w : Watcher) (owned : List Observable) (query : Text) :
    (w.owning owned).query query = ((w.query query).1, (w.query query).2.owning owned) := by
  have cache : (w.owning owned).cache = w.cache := rfl
  have compiled : (w.owning owned).compile query = ((w.compile query).1, (w.compile query).2.owning owned) := by
    refine Prod.ext rfl (congrArg (fun e => { w with engine := e }) ?_)
    exact Engine.addLists_owned { w.engine with nextNode := _ } owned _
  cases found : w.cache.find? query with
  | some c => simp only [Watcher.query, cache, found]
  | none =>
    simp only [Watcher.query, cache, found, compiled]
    rfl

end Watcher

theorem exists_of_map_ok {ε α β : Type} {f : α → β} {x : Except ε α} {y : β} (ok : x.map f = .ok y) :
    ∃ z, x = .ok z ∧ f z = y := by
  cases x with
  | error fault => contradiction
  | ok z => exact ⟨z, rfl, Except.ok.inj ok⟩

namespace Rule

variable {α : Type}

/-- A rule has its condition from a query that was compiled, or it always holds. -/
theorem known_ofParts {read? : Text → Option α} {w : Watcher} {parts : Text × Text} {r : Rule α}
    (made : (ofParts? read? w parts).1 = some r) :
    r.condition.id? = none ∨ ∃ query, (ofParts? read? w parts).2.cache.find? query = some r.condition := by
  revert made
  rw [ofParts?]
  split
  · intro made
    contradiction
  · split
    · intro made
      obtain rfl := Option.some.inj made
      exact .inl rfl
    · intro made
      obtain rfl := Option.some.inj made
      exact .inr ⟨_, (w.recalls_query parts.2.trim).2⟩

private theorem known_ofAllParts {read? : Text → Option α} {w : Watcher} {ps : List (Text × Text)} :
    ∀ r ∈ (ofAllParts read? w ps).1,
      r.condition.id? = none ∨ ∃ query, (ofAllParts read? w ps).2.cache.find? query = some r.condition := by
  induction ps generalizing w with
  | nil => exact nofun
  | cons p ps ih =>
    intro r mem
    rcases List.mem_append.mp mem with first | later
    · have later := recalls_ofAllParts read? (ofParts? read? w p).2 ps
      exact (known_ofParts (Option.mem_toList.mp first)).imp_right fun ⟨query, known⟩ => ⟨query, later _ _ known⟩
    · exact ih r later

end Rule

namespace RuleList

variable {α : Type}

def readParts (rules : Text) (mask : Option Text) : Except Fault (List (Text × Text)) :=
  match mask with
  | none => .ok ((segments rules).map Rule.parts)
  | some mask =>
    let values := Text.pieces ruleBar rules
    let queries := Text.pieces ruleBar mask
    if values.length = queries.length then .ok (values.zip queries)
    else .error (.lengthMismatch values.length queries.length)

/-- A rule list that is read is made of its parts; which these are does not depend on the watcher. -/
theorem read_eq (read? : Text → Option α) (rules : Text) (mask : Option Text) (w : Watcher) :
    read read? rules mask w = (readParts rules mask).map fun ps =>
      ofRules (Rule.ofAllParts read? w ps).1 (Rule.ofAllParts read? w ps).2 := by
  cases mask with
  | none => rfl
  | some mask =>
    rw [read, readParts]
    simp only [parseTuple]
    split <;> rfl

end RuleList

namespace Subject

theorem compile_query (query : Text) (w : Watcher) :
    compile (.query query) w = .ok (.condition (w.query query).1, (w.query query).2) := rfl

theorem compile_rules (text : Text) (mask : Option Text) (reader : PayloadReader) (w : Watcher) :
    compile (.rules text mask reader) w = (RuleList.readParts text mask).map fun ps =>
      (.rules (RuleList.ofRules (Rule.ofAllParts reader.read? w ps).1 (Rule.ofAllParts reader.read? w ps).2).1,
        (RuleList.ofRules (Rule.ofAllParts reader.read? w ps).1 (Rule.ofAllParts reader.read? w ps).2).2) := by
  rw [compile, RuleList.read_eq]
  cases RuleList.readParts text mask <;> rfl

end Subject

namespace Audience

/-- Clients at rest, none of whom has left, have the watcher for their compiling, whatever they own. -/
structure Serves (a : Audience) (w : Watcher) (features : Media.Features) : Prop extends a.Rested where
  watcher : ∃ owned, a.watcher = w.owning owned
  removed : a.removed = []
  features : a.engine.features = features

namespace Serves

variable {a : Audience} {w : Watcher} {features : Media.Features}

theorem start (features : Media.Features) (registry : Registry) :
    (Audience.start features registry).Serves (.start features registry) features :=
  ⟨rested_start features registry, ⟨[], rfl⟩, rfl, rfl⟩

/-- A query is compiled. -/
theorem query (serves : a.Serves w features) (query : Text) :
    (a.act (.query query)).Serves (w.query query).2 features := by
  obtain ⟨owned, watcher⟩ := serves.watcher
  have allowed : a.Allows (.query query) := ⟨serves.idle.halted, trivial⟩
  have after : (a.act (.query query)).watcher = (w.query query).2.own (.condition (w.query query).1 :: a.kept) := by
    show (a.watcher.query query).2.own (.condition (a.watcher.query query).1 :: a.kept) = _
    rw [watcher, Watcher.query_owning, Watcher.own_owning]
  have run : Run Still a _ (a.act (.query query)) := .single allowed nofun
  exact ⟨serves.toRested.act allowed nofun, ⟨_, after.trans (Watcher.own_eq_owning ..)⟩, serves.removed,
    (run.features serves.orderly).trans serves.features⟩

/-- What was compiled can be used. -/
theorem usable (serves : a.Serves w features) {query : Text} {c : Condition} (known : w.cache.find? query = some c) :
    a.Usable (.condition c) := by
  obtain ⟨owned, watcher⟩ := serves.watcher
  refine serves.orderly.usable_root (List.mem_append_left _ ?_)
  rw [serves.orderly.owned, watcher]
  exact List.mem_append_right _ (List.mem_map.mpr ⟨_, Fields.mem_of_find? known, rfl⟩)

/-- The queries of rules are compiled. -/
theorem ofAllParts {α : Type} (serves : a.Serves w features) (read? : Text → Option α) (ps : List (Text × Text)) :
    ∃ b : Audience, b.Serves (Rule.ofAllParts read? w ps).2 features := by
  induction ps generalizing a w with
  | nil => exact ⟨a, serves⟩
  | cons p ps ih =>
    have first : ∃ b : Audience, b.Serves (Rule.ofParts? read? w p).2 features := by
      rw [Rule.ofParts?]
      split
      · exact ⟨a, serves⟩
      · split
        · exact ⟨a, serves⟩
        · exact ⟨_, serves.query p.2.trim⟩
    obtain ⟨b, served⟩ := first
    exact ih served

/-- A list of rules is made. -/
theorem ofRules {α : Type} (serves : a.Serves w features) {rules : List (Rule α)}
    (usable : ∀ r ∈ rules, a.Usable (.condition r.condition)) :
    ∃ b : Audience, b.Serves (RuleList.ofRules rules w).2 features ∧
      b.Usable (RuleList.ofRules rules w).1.observable := by
  obtain ⟨owned, watcher⟩ := serves.watcher
  let conditions := (RuleList.ordered rules).map (·.condition)
  have has : a.Has (.rules conditions) := by
    intro c mem
    obtain ⟨r, listed, rfl⟩ := List.mem_map.mp mem
    refine usable r ?_
    rcases List.mem_append.mp listed with listed | listed <;> exact List.mem_of_mem_filter listed
  have allowed : a.Allows (.rules conditions) := ⟨serves.idle.halted, has⟩
  have rested := serves.toRested.act allowed nofun
  have run : Run Still a _ (a.act (.rules conditions)) := .single allowed nofun
  have unchanged := (run.features serves.orderly).trans serves.features
  have node : a.watcher.engine.nextNode = w.engine.nextNode := by rw [watcher]; rfl
  have after : (a.act (.rules conditions)).watcher =
      (RuleList.ofRules rules w).2.own ((RuleList.ofRules rules w).1.observable :: a.kept) := by
    show (a.watcher.make fun id => Observable.rules id conditions).2.own
      (.rules a.watcher.engine.nextNode conditions :: a.kept) = _
    rw [node, watcher]
    rfl
  have mem : (RuleList.ofRules rules w).1.observable ∈ (a.act (.rules conditions)).kept := by
    show Observable.rules w.engine.nextNode conditions ∈ .rules a.watcher.engine.nextNode conditions :: a.kept
    rw [node]
    exact List.mem_cons_self
  exact ⟨a.act (.rules conditions), ⟨rested, ⟨_, after.trans (Watcher.own_eq_owning ..)⟩, serves.removed, unchanged⟩,
    rested.orderly.usable_of_kept mem⟩

/-- A client that owns the subject alone listens to it. -/
theorem records (serves : a.Serves w features) {o : Observable} (usable : a.Usable o) :
    ∃ b : Audience, b.Records (.start w o) ∧ b.engine.features = features := by
  obtain ⟨owned, watcher⟩ := serves.watcher
  have keeping : a.Allows (.keep [o]) := ⟨serves.idle.halted, List.forall_mem_singleton.mpr usable⟩
  have kept := serves.toRested.act keeping nofun
  have listening : (a.act (.keep [o])).Allows (.listen o) :=
    ⟨kept.idle.halted, kept.orderly.usable_of_kept List.mem_cons_self⟩
  have same : (a.act (.keep [o])).watcher = w.own [o] := by
    show a.watcher.own [o] = _
    rw [watcher]
    rfl
  have run : Run Still a _ ((a.act (.keep [o])).act (.listen o)) := .cons keeping nofun (.single listening nofun)
  refine ⟨_, ⟨kept.act listening nofun, ?_, ?_, ?_, List.mem_cons_self⟩,
    (run.features serves.orderly).trans serves.features⟩
  · show { (a.act (.keep [o])).watcher with engine := ((a.act (.keep [o])).watcher.engine.subscribe o .client).2 } = _
    rw [same]
    rfl
  · show (((w.own [o]).engine.subscribe o .client).1, o) ∈
      (((a.act (.keep [o])).watcher.engine.subscribe o .client).1, o) :: _
    rw [same]
    exact List.mem_cons_self
  · show _ ∉ a.removed
    rw [serves.removed]
    exact List.not_mem_nil

/-- Whatever a client compiles, it can listen to. -/
theorem compile (serves : a.Serves w features) {source : Subject.Source} {subject : Subject} {v : Watcher}
    (compiled : Subject.compile source w = .ok (subject, v)) :
    ∃ b : Audience, b.Serves v features ∧ b.Usable subject.observable := by
  cases source with
  | query query =>
    rw [Subject.compile_query] at compiled
    obtain ⟨rfl, rfl⟩ := (Prod.mk.injEq ..).mp (Except.ok.inj compiled)
    exact ⟨_, serves.query query, (serves.query query).usable (w.recalls_query query).2⟩
  | rules rules mask reader =>
    rw [Subject.compile_rules] at compiled
    obtain ⟨ps, -, made⟩ := exists_of_map_ok compiled
    obtain ⟨rfl, rfl⟩ := (Prod.mk.injEq ..).mp made
    obtain ⟨b, served⟩ := serves.ofAllParts reader.read? ps
    refine served.ofRules fun r mem => ?_
    rcases Rule.known_ofAllParts r mem with constant | ⟨query, known⟩
    · exact .inl constant
    · exact served.usable known

/-- The lists say what the features say. -/
theorem view (serves : a.Serves w features) : w.view = features.view := by
  obtain ⟨owned, watcher⟩ := serves.watcher
  have connected : a.watcher.engine.connected = true := serves.orderly.connected
  have same : a.watcher.engine.features = features := serves.features
  rw [watcher] at connected same
  rw [Watcher.view, Engine.view_of_connected (e := w.engine) connected]
  exact congrArg Media.Features.view same

end Serves

end Audience

end MediaWatch

import MediaWatch.Proofs.Audience.Change

/-! # Listeners that change the environment

A listener may set the environment while it runs, in the middle of what an earlier change put under way.
A composite that has told its listeners of the earlier change may then have a part that was not told of it
yet, and that part finds nothing new when it is told of the later change: nobody makes the composite look at
itself again. Also, a listener that comes later in a dispatch under way is given the older reading after the
newer one. What follows the last change decides whether a listener ends with the present reading.
-/

namespace MediaWatch

namespace Engine

variable {e : Engine} {l : ListenerId} {o : Observable}

/-- A composite tells its reading at the first frame that stirs it; what else is told is what the frames say by
themselves. -/
theorem prospect_split {above below : List Frame} {f : Frame} (whole : o.isPlain = false)
    (calm : ∀ g ∈ above, e.stirs g o = false) (stirred : e.stirs f o) :
    e.prospect l o true (above ++ f :: below) =
      above.flatMap (e.word l) ++ (e.word l f ++ e.reading o :: below.flatMap (e.word l)) := by
  induction above with
  | nil =>
    have later : e.prospect l o false below = below.flatMap (e.word l) := prospect_unstirred nofun
    rw [List.nil_append, prospect, stirred, whole, later]
    rfl
  | cons g rest ih =>
    obtain ⟨first, others⟩ := List.forall_mem_cons.mp calm
    rw [List.cons_append, prospect, first, Bool.and_false, List.flatMap_cons, List.append_assoc, ← ih others]
    rfl

end Engine

namespace Audience

/-- Something under way makes the composite tell its present reading, and nothing further down the stack tells the
listener another reading after that. -/
def Corrected (a : Audience) (l : ListenerId) (o : Observable) : Prop :=
  ∃ above f below, a.engine.frames = above ++ f :: below ∧ (∀ g ∈ above, a.engine.stirs g o = false) ∧
    a.engine.stirs f o ∧ ∀ r ∈ (below.flatMap (a.engine.word l)).getLast?, r = a.engine.reading o

/-- Nothing under way makes the composite tell its reading, and what the listener was told last, or will be told last
by what is under way, is the present reading. -/
def Content (a : Audience) (l : ListenerId) (o : Observable) : Prop :=
  (∀ f ∈ a.engine.frames, a.engine.stirs f o = false) ∧
    (a.heardBy l ++ a.engine.frames.flatMap (a.engine.word l)).getLast? = some (a.engine.reading o)

variable {a b c : Audience} {l : ListenerId} {o : Observable}

/-- Some first frame of the stack stirs the observable, or none does. -/
theorem first_stirred (a : Audience) (o : Observable) : (∀ f ∈ a.engine.frames, a.engine.stirs f o = false) ∨
    ∃ above f below, a.engine.frames = above ++ f :: below ∧ (∀ g ∈ above, a.engine.stirs g o = false) ∧
      a.engine.stirs f o := by
  generalize a.engine.frames = frames
  induction frames with
  | nil => exact .inl nofun
  | cons f rest ih =>
    cases first : a.engine.stirs f o with
    | true => exact .inr ⟨[], f, rest, rfl, nofun, first⟩
    | false =>
      rcases ih with calm | ⟨above, g, below, rfl, calm, stirred⟩
      · exact .inl (List.forall_mem_cons.mpr ⟨first, calm⟩)
      · exact .inr ⟨f :: above, g, below, rfl, List.forall_mem_cons.mpr ⟨first, calm⟩, stirred⟩

/-- The last that a listener is told when a frame stirs the composite it listens to. -/
theorem getLast?_stirred (whole : o.isPlain = false) {above below : List Frame} {f : Frame}
    (frames : a.engine.frames = above ++ f :: below) (calm : ∀ g ∈ above, a.engine.stirs g o = false)
    (stirred : a.engine.stirs f o) : (a.heardBy l ++ a.outlook l o).getLast? =
      some ((below.flatMap (a.engine.word l)).getLast?.getD (a.engine.reading o)) := by
  rw [Audience.outlook, frames, Engine.prospect_split whole calm stirred]
  simp [List.getLast?_append, List.getLast?_cons]

/-- What a listener of a composite was told and is yet to be told ends with the present reading exactly if it is
corrected or content. -/
theorem getLast?_outlook (whole : o.isPlain = false) :
    (a.heardBy l ++ a.outlook l o).getLast? = some (a.engine.reading o) ↔ a.Corrected l o ∨ a.Content l o := by
  constructor
  · intro last
    rcases a.first_stirred o with calm | ⟨above, f, below, frames, calm, stirred⟩
    · refine .inr ⟨calm, ?_⟩
      rw [Audience.outlook, Engine.prospect_unstirred fun _ => calm] at last
      exact last
    · refine .inl ⟨above, f, below, frames, calm, stirred, fun r told => ?_⟩
      rw [getLast?_stirred whole frames calm stirred, Option.mem_def.mp told] at last
      exact Option.some.inj last
  · rintro (⟨above, f, below, frames, calm, stirred, told⟩ | ⟨calm, last⟩)
    · rw [getLast?_stirred whole frames calm stirred]
      cases words : (below.flatMap (a.engine.word l)).getLast? with
      | none => rfl
      | some r => exact congrArg some (told r words)
    · rw [Audience.outlook, Engine.prospect_unstirred fun _ => calm]
      exact last

/-- Once everything is at rest after the last change of the environment, wherever that was made, a listener of a
composite was told the present reading last exactly if, when the change was made, it was to be corrected or was
content. -/
theorem Run.last_told_iff {features last : Media.Features} {registry : Registry} {ms os : List Move}
    (reached : Run Free (start features registry) ms c) (allowed : c.Allows (.update last))
    (after : Run Still (c.act (.update last)) os b) (rest : b.Idle) (whole : o.isPlain = false)
    (handle : (l, o) ∈ c.handles) (stays : l ∉ b.removed) (usable : b.Usable o) :
    (b.heardBy l).getLast? = some (b.engine.reading o) ↔
      (c.act (.update last)).Corrected l o ∨ (c.act (.update last)).Content l o := by
  have orderly := (reached.orderly (orderly_start features registry)).act allowed
  have listens : b.Listens l o := ⟨after.handles orderly handle, stays, usable⟩
  rw [after.heard_at_rest orderly handle listens rest, after.reading orderly o]
  exact getLast?_outlook whole

theorem Run.last_told_iff_leaflet :
    (leafletTold.heardBy 0).getLast? = some (leafletTold.engine.reading (.condition leaflet)) := by
  have named : Observable.id? (.condition leaflet) = some 0 := by decide +kernel
  have whole : Observable.isPlain (.condition leaflet) = false := by decide +kernel
  have silent : leafletHeard.ready (.update terminal) := by decide +kernel
  have after : leafletTold.engine.frames.isEmpty ∧ leafletTold.engine.alive 0 ∧ 0 ∉ leafletTold.removed := by
    decide +kernel
  have idle : leafletHeard.engine.frames.isEmpty := by decide +kernel
  have stirred : (leafletHeard.act (.update terminal)).engine.stirs
      (.refresh ({ leafletHeard.engine with features := terminal } : Engine).changedLists) (.condition leaflet) := by
    decide +kernel
  have reached := leaflet_reached.free
  have handle := leaflet_handle
  have told := leaflet_told
  generalize leafletHeard = a at *
  generalize leafletTold = b at *
  obtain ⟨rest, alive, stays⟩ := after
  have frames : (a.act (.update terminal)).engine.frames = _ := Orderly.frames_update a terminal
  rw [List.isEmpty_iff.mp idle] at frames
  have orderly := (reached.orderly (orderly_start _ _)).update terminal
  have usable := told.usable_of_alive orderly handle named alive
  exact (Run.last_told_iff reached (allows_of_ready silent) told (List.isEmpty_iff.mp rest) whole
    handle stays usable).mpr (.inl ⟨[], _, [], frames, nofun, stirred, nofun⟩)

/-- A condition for paper that nobody can hover over. -/
def handout : Condition := ((start {} .standard).watcher.compile "print and (hover: none)".toList).1

def handoutMade : Audience := (start {} .standard).act (.compile "print and (hover: none)".toList)

def handoutHeard : Audience := handoutMade.act (.listen (.condition handout))

/-- Both parts of the condition come to hold at once. While its listener is told so, before the second part is told of
the change, the listener makes the second part fail again. -/
def handoutMoves : List Move :=
  [.advance, .advance, .advance, .advance, .update { mediaType := "print".toList },
    .advance, .advance, .advance, .advance, .finish false, .advance, .advance, .advance, .advance, .advance]

def handoutTold : Audience :=
  handoutMoves.foldl act (handoutHeard.act (.update { mediaType := "print".toList, hover := false }))

theorem handout_reached :
    Run Free (start {} .standard)
      [.compile "print and (hover: none)".toList, .listen (.condition handout)] handoutHeard :=
  .compile_listen (by decide +kernel) fun _ _ _ => trivial

theorem handout_handle : (0, .condition handout) ∈ handoutHeard.handles := by
  have listener : (handoutMade.engine.subscribe (.condition handout) .client).1 = 0 := by decide +kernel
  rw [handoutHeard, handles_listen, listener]
  exact List.mem_cons_self

theorem handout_told :
    Run Free (handoutHeard.act (.update { mediaType := "print".toList, hover := false })) handoutMoves handoutTold :=
  .of_plays (by decide +kernel) fun _ _ _ => trivial

theorem transition_lost : ¬ ∀ (features changed : Media.Features) (registry : Registry) (ms ns : List Move)
    (a b : Audience) (l : ListenerId) (o : Observable), Run Free (start features registry) ms a → a.Idle →
    Run Free (a.act (.update changed)) ns b → b.Idle → o.isPlain = false → (l, o) ∈ a.handles → l ∉ b.removed →
    b.Usable o → (b.heardBy l).getLast? = some (b.engine.reading o) := by
  intro lastTold
  have named : Observable.id? (.condition handout) = some 1 := by decide +kernel
  have whole : Observable.isPlain (.condition handout) = false := by decide +kernel
  have idle : handoutHeard.engine.frames.isEmpty := by decide +kernel
  have after : handoutTold.engine.frames.isEmpty ∧ handoutTold.engine.alive 1 ∧ 0 ∉ handoutTold.removed := by
    decide +kernel
  have last : (handoutTold.heardBy 0).getLast? = some (.truth true) ∧
      handout.holds handoutTold.watcher.view = false := by
    decide +kernel
  have reached := handout_reached
  have handle := handout_handle
  have told := handout_told
  generalize handoutHeard = a at *
  generalize handoutTold = b at *
  obtain ⟨rest, alive, stays⟩ := after
  have orderly := (reached.orderly (orderly_start _ _)).update { mediaType := "print".toList, hover := false }
  have usable := told.usable_of_alive orderly handle named alive
  have same := lastTold _ _ _ _ _ a b 0 _ reached (List.isEmpty_iff.mp idle) told
    (List.isEmpty_iff.mp rest) whole handle stays usable
  have present : b.engine.reading (.condition handout) = .truth false := congrArg Reading.truth last.2
  rw [last.1, present] at same
  exact absurd same (by decide)

end Audience

end MediaWatch

import MediaWatch.Proofs.Audience.Change
import MediaWatch.Rule.RuleList

/-! # Rule lists and changes of the environment

A rule list tells its listeners that another rule counts. It looks at itself whenever one of its conditions
changes, which may happen several times in a change, also for one condition that several rules share; the
index it knew of decides whether it tells anybody.
-/

namespace MediaWatch

namespace Audience

variable {α : Type} {a b : Audience} {ms ns : List Move}

/-- While the environment is left alone, the same rule counts. -/
theorem Run.active?_eq (during : Run Still a ns b) (orderly : a.Orderly) (r : RuleList α) :
    r.active? b.watcher.view = r.active? a.watcher.view :=
  Reading.index.inj (during.reading orderly r.observable)

/-- With listeners that leave the environment alone, a change of the environment comes to rest. From the change on the
same rule of a rule list counts, and each listener of the list that was there before and stays has been called by
then: once if that is another rule than before, and finding that very rule, and not at all otherwise. Meanwhile
listeners may fail, and clients may make things, listen and leave. -/
theorem Run.ruling_notified_once {initial features : Media.Features} {registry : Registry}
    (reached : Run Quiet (start initial registry) ms a) (idle : a.Idle) :
    (∀ ns m, Run Still (a.act (.update features)) ns m → ∃ os b, Run Still m os b ∧ b.Idle) ∧
      ∀ (r : RuleList α) l, (l, r.observable) ∈ a.handles →
        ∀ ns b, Run Still (a.act (.update features)) ns b →
          r.active? b.watcher.view = r.active? (a.act (.update features)).watcher.view ∧
          (b.Idle → l ∉ b.removed → b.Usable r.observable →
            b.heardBy l = a.heardBy l ++
              if r.active? b.watcher.view = r.active? a.watcher.view then []
              else [.index (r.active? b.watcher.view)]) := by
  obtain ⟨orderly, heedful⟩ := reached.heedful (orderly_start initial registry) (heedful_start initial registry)
  have orderly' := orderly.update features
  refine ⟨fun ns m during => ?_, fun r l handle ns b during =>
    ⟨during.active?_eq orderly' r, fun rest stays usable => ?_⟩⟩
  · obtain ⟨os, b, run, -, rest⟩ := (during.orderly orderly').comes_to_rest
    exact ⟨os, b, run, rest⟩
  · have listens : b.Listens l r.observable := ⟨during.handles orderly' handle, stays, usable⟩
    have told := during.told_once orderly heedful idle rest handle listens
    exact told.trans (congrArg _ (if_congr (Reading.index.injEq ..).to_iff rfl rfl))

def paper : Condition := ((start {} .standard).watcher.query "print".toList).1

/-- Rules for paper, which share their condition, over one that always holds. -/
def almanac : RuleList Text where
  id := 4
  rules := [.fallback "screen".toList, .conditional "page".toList paper, .conditional "sheet".toList paper]

/-- Somebody has the leaf; asked for it again, the watcher has given the same one. -/
def paperMade : Audience := ((start {} .standard).act (.query "print".toList)).act (.query "print".toList)

def almanacHeard : Audience := (paperMade.act (.rules almanac.conditions)).act (.listen almanac.observable)

def almanacMoves : List Move :=
  [.query "print".toList, .query "print".toList, .rules almanac.conditions, .listen almanac.observable]

private theorem almanac_reached : Run Quiet (start {} .standard) almanacMoves almanacHeard := by
  have asked : Run Quiet (start {} .standard) [.query "print".toList, .query "print".toList] paperMade :=
    .cons ⟨rfl, trivial⟩ nofun (.single ⟨by decide +kernel, trivial⟩ nofun)
  have usable : paperMade.Usable (.condition paper) :=
    (asked.orderly (orderly_start _ _)).usable_of_kept (List.mem_cons_of_mem _ List.mem_cons_self)
  have known : ∀ c ∈ almanac.conditions, paperMade.Usable (.condition c) :=
    List.forall_mem_cons.mpr ⟨.inl rfl, List.forall_mem_cons.mpr ⟨usable, List.forall_mem_singleton.mpr usable⟩⟩
  have made : Run Quiet (start {} .standard) _ (paperMade.act (.rules almanac.conditions)) :=
    asked.append (.single ⟨by decide +kernel, known⟩ nofun)
  have named : paperMade.engine.nextNode = almanac.id := by decide +kernel
  have kept : almanac.observable ∈ (paperMade.act (.rules almanac.conditions)).kept := by
    rw [RuleList.observable, ← named]
    exact List.mem_cons_self
  exact made.append (.single ⟨by decide +kernel, (made.orderly (orderly_start _ _)).usable_of_kept kept⟩ nofun)

private theorem almanac_handle : (0, almanac.observable) ∈ almanacHeard.handles := by
  have listener : ((paperMade.act (.rules almanac.conditions)).engine.subscribe almanac.observable .client).1 = 0 := by
    decide +kernel
  rw [almanacHeard, handles_listen, listener]
  exact List.mem_cons_self

/-- The list and the leaf tell their listeners. The rules look at themselves twice and tell theirs once, which fails. -/
def almanacTelling : List Move :=
  [.advance, .advance, .advance, .advance, .finish true, .advance, .advance, .advance, .advance, .advance]

def almanacTold : Audience := almanacTelling.foldl act (almanacHeard.act (.update { mediaType := "print".toList }))

private theorem almanac_told :
    Run Still (almanacHeard.act (.update { mediaType := "print".toList })) almanacTelling almanacTold := by
  have engines : ∀ m ∈ almanacTelling, m.isEngine := by decide
  exact .of_plays (by decide +kernel) fun _ m mem => still_of_isEngine (engines m mem)

theorem Run.ruling_notified_once_almanac :
    almanacHeard.heardBy 0 = [.index (some 0)] ∧ almanacTold.heardBy 0 = [.index (some 0), .index (some 2)] := by
  have idle : almanacHeard.engine.frames.isEmpty := by decide +kernel
  have before : almanacHeard.heardBy 0 = [.index (some 0)] ∧ almanac.active? almanacHeard.watcher.view = some 0 := by
    decide +kernel
  have after : almanacTold.engine.frames.isEmpty ∧ almanacTold.engine.alive almanac.id ∧ 0 ∉ almanacTold.removed ∧
      almanac.active? almanacTold.watcher.view = some 2 := by decide +kernel
  have reached := almanac_reached
  have handle := almanac_handle
  have told := almanac_told
  -- From here on the two states are known by these facts alone.
  generalize almanacHeard = a at *
  generalize almanacTold = b at *
  obtain ⟨heard, first⟩ := before
  obtain ⟨rest, alive, stays, last⟩ := after
  have usable := told.usable_of_alive ((reached.orderly (orderly_start _ _)).update _) handle rfl alive
  have notified := ((Run.ruling_notified_once reached (List.isEmpty_iff.mp idle)).2 almanac 0 handle _ _ told).2
    (List.isEmpty_iff.mp rest) stays usable
  refine ⟨heard, ?_⟩
  rw [notified, heard, first, last]
  rfl

end Audience

end MediaWatch

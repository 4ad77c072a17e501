import MediaWatch.Engine.Step

/-! # Cells under the engine's operations

What the elementary operations leave of the cells. Registrations come and go in the cells of nodes and
nowhere else, so two engines that differ in their registrations only are on the same stage.
-/

namespace MediaWatch.Engine

@[simp]
theorem cell_modifyCell (e : Engine) (id : NodeId) (change : Cell → Cell) (j : NodeId) :
    (e.modifyCell id change).cell j = if id = j then change (e.cell j) else e.cell j := by
  rw [cell, modifyCell, Cells.get_set]
  split
  · next same => rw [same]
  · rfl

@[simp]
theorem cell_register (e : Engine) (id : NodeId) (target : Target) (j : NodeId) :
    (e.register id target).2.cell j =
      if id = j then { e.cell j with listeners := (e.cell j).listeners ++ [(e.nextListener, target)] }
      else e.cell j := by
  simp only [register, newListener, cell_modifyCell]
  rfl

@[simp]
theorem cell_attach (e : Engine) (id : NodeId) (reading : Reading) (held : List ListenerId) (j : NodeId) :
    (e.attach id reading held).cell j =
      if id = j then { e.cell j with baseline := reading, held } else e.cell j := by
  simp only [attach, cell_modifyCell]

@[simp]
theorem cell_unregister (e : Engine) (id : NodeId) (listener : ListenerId) (j : NodeId) :
    (e.unregister id listener).2.cell j =
      if id = j then
        { e.cell j with listeners := (e.cell j).listeners.filter fun entry => entry.1 != listener }
      else e.cell j := by
  simp only [unregister, cell_modifyCell]
  split
  · next same => rw [same]
  · rfl

@[simp]
theorem cell_detach (e : Engine) (id : NodeId) (j : NodeId) :
    (e.detach id).cell j = if id = j then { e.cell j with held := [] } else e.cell j := by
  simp only [detach, cell_modifyCell]

/-! Field by field, the operations change the following and leave the rest. -/

theorem mem_listeners_register (e : Engine) (id : NodeId) (target : Target) (j : NodeId) (x : ListenerId × Target) :
    x ∈ ((e.register id target).2.cell j).listeners ↔
      x ∈ (e.cell j).listeners ∨ (j = id ∧ x = (e.nextListener, target)) := by
  rw [cell_register]
  split
  · next same => simp [same]
  · next other => simp [Ne.symm other]

theorem listeners_register (e : Engine) (id : NodeId) (target : Target) (j : NodeId) :
    ∃ added, ((e.register id target).2.cell j).listeners = (e.cell j).listeners ++ added ∧
      ∀ x ∈ added, e.nextListener ≤ x.1 := by
  rw [cell_register]
  split
  · exact ⟨[(e.nextListener, target)], rfl, by simp⟩
  · exact ⟨[], by simp⟩

theorem held_register (e : Engine) (id : NodeId) (target : Target) (j : NodeId) :
    ((e.register id target).2.cell j).held = (e.cell j).held := by
  rw [cell_register]
  split <;> rfl

theorem listeners_attach (e : Engine) (id : NodeId) (reading : Reading) (held : List ListenerId) (j : NodeId) :
    ((e.attach id reading held).cell j).listeners = (e.cell j).listeners := by
  rw [cell_attach]
  split <;> rfl

theorem mem_listeners_unregister (e : Engine) (id : NodeId) (listener : ListenerId) (j : NodeId)
    (x : ListenerId × Target) : x ∈ ((e.unregister id listener).2.cell j).listeners ↔
      x ∈ (e.cell j).listeners ∧ ¬ (x.1 = listener ∧ j = id) := by
  rw [cell_unregister]
  split
  · next same => simp [same]
  · next other => simp [Ne.symm other]

theorem listeners_unregister (e : Engine) (id : NodeId) (listener : ListenerId) (j : NodeId) :
    ((e.unregister id listener).2.cell j).listeners.Sublist (e.cell j).listeners := by
  rw [cell_unregister]
  split
  · exact List.filter_sublist
  · exact .refl _

theorem held_unregister (e : Engine) (id : NodeId) (listener : ListenerId) (j : NodeId) :
    ((e.unregister id listener).2.cell j).held = (e.cell j).held := by
  rw [cell_unregister]
  split <;> rfl

theorem baseline_unregister (e : Engine) (id : NodeId) (listener : ListenerId) (j : NodeId) :
    ((e.unregister id listener).2.cell j).baseline = (e.cell j).baseline := by
  rw [cell_unregister]
  split <;> rfl

theorem listeners_detach (e : Engine) (id j : NodeId) :
    ((e.detach id).cell j).listeners = (e.cell j).listeners := by
  rw [cell_detach]
  split <;> rfl

theorem baseline_detach (e : Engine) (id j : NodeId) : ((e.detach id).cell j).baseline = (e.cell j).baseline := by
  rw [cell_detach]
  split <;> rfl

theorem held_detach_self (e : Engine) (id : NodeId) : ((e.detach id).cell id).held = [] := by
  rw [cell_detach, if_pos rfl]

theorem held_detach_of_ne (e : Engine) {id j : NodeId} (other : j ≠ id) :
    ((e.detach id).cell j).held = (e.cell j).held := by
  rw [cell_detach, if_neg (Ne.symm other)]

theorem held_detach (e : Engine) (id j : NodeId) :
    ((e.detach id).cell j).held = (e.cell j).held ∨ ((e.detach id).cell j).held = [] := by
  by_cases same : j = id
  · exact .inr (same ▸ held_detach_self e j)
  · exact .inl (held_detach_of_ne e same)

/-- The engines agree in everything but who listens to what. -/
def SameStage (e e' : Engine) : Prop :=
  e' = { e with cells := e'.cells, nextListener := e'.nextListener }

namespace SameStage

variable {e e' e'' : Engine}

theorem refl (e : Engine) : SameStage e e := rfl

theorem trans (left : SameStage e e') (right : SameStage e' e'') : SameStage e e'' := by
  rw [SameStage, right, left]

theorem register (e : Engine) (id : NodeId) (target : Target) : SameStage e (e.register id target).2 := rfl

theorem modifyCell (e : Engine) (id : NodeId) (change : Cell → Cell) : SameStage e (e.modifyCell id change) := rfl

theorem unregister (e : Engine) (id : NodeId) (listener : ListenerId) :
    SameStage e (e.unregister id listener).2 := rfl

theorem features (stage : SameStage e e') : e'.features = e.features := by rw [stage]

theorem connected (stage : SameStage e e') : e'.connected = e.connected := by rw [stage]

theorem lists (stage : SameStage e e') : e'.lists = e.lists := by rw [stage]

theorem nextNode (stage : SameStage e e') : e'.nextNode = e.nextNode := by rw [stage]

theorem frames (stage : SameStage e e') : e'.frames = e.frames := by rw [stage]

theorem owned (stage : SameStage e e') : e'.owned = e.owned := by rw [stage]

theorem roots (stage : SameStage e e') : e'.roots = e.roots := by rw [Engine.roots, stage.owned, stage.frames]; rfl

theorem alive (stage : SameStage e e') : e'.alive = e.alive := by
  funext id
  rw [Engine.alive, stage.roots]
  rfl

end SameStage

/-- While the environment is there, readings come from its features alone. -/
theorem reading_congr {e e' : Engine} (on : e.connected = true) (on' : e'.connected = true)
    (same : e'.features = e.features) (o : Observable) : e'.reading o = e.reading o := by
  have view : e'.view = e.view := by
    funext l
    simp only [Engine.view, on, on', same, ↓reduceIte]
  rw [reading, view]
  rfl

theorem SameStage.reading {e e' : Engine} (stage : SameStage e e') (on : e.connected = true) (o : Observable) :
    e'.reading o = e.reading o :=
  reading_congr on (stage.connected.trans on) stage.features o

end MediaWatch.Engine

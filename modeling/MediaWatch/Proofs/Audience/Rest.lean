import MediaWatch.Proofs.Audience.Outlook
import MediaWatch.Proofs.Engine.Unrolling
import Mathlib.Algebra.GroupWithZero.Nat
import Mathlib.Data.List.Perm.Subperm
import Mathlib.Data.Prod.Lex
import Mathlib.Order.OrderIsoNat

/-! # Everything comes to rest

As long as the environment is left alone, the engine cannot move forever: a composite that tells its
listeners knows of its present reading from then on, a list is told of once, and each pending listener is
given an event once. Clients that make things, listen or leave meanwhile add nothing to this, since whatever
they newly listen to is known to them as it is at present.
-/

namespace MediaWatch

/-- Whether a move brings what is under way forward. -/
def Move.isEngine : Move → Bool
  | .advance => true
  | .finish _ => true
  | _ => false

namespace Audience

/-- Whether a composite has a new reading that it may still tell: it has listeners, or is about to be asked. -/
def restless (a : Audience) (o : Observable) : Bool :=
  !o.isPlain && a.engine.due o &&
    o.id?.any fun i => !(a.engine.cell i).listeners.isEmpty || a.engine.frames.any (·.asks i)

/-- What is left for the engine to do: composites that may tell their readings, then lists to be told of, then
what is pending. -/
def work (a : Audience) : ℕ ×ₗ ℕ ×ₗ ℕ :=
  toLex (a.made.countP a.restless,
    toLex ((a.engine.frames.map Frame.announced).sum, (a.engine.frames.map Frame.weight).sum))

variable {a a' : Audience}

theorem restless_iff {o : Observable} {i : NodeId} (named : o.id? = some i) : a.restless o ↔
    o.isPlain = false ∧ a.engine.due o ∧ ((a.engine.cell i).listeners ≠ [] ∨ ∃ f ∈ a.engine.frames, f.asks i) := by
  simp [restless, named, and_assoc]

/-- Nothing has become restless. -/
def Calmer (a a' : Audience) : Prop := ∀ o ∈ a'.made, a'.restless o → o ∈ a.made ∧ a.restless o

theorem Calmer.subperm (calmer : Calmer a a') (once : a'.made.Nodup) :
    (a'.made.filter a'.restless).Subperm (a.made.filter a.restless) := by
  refine List.subperm_of_subset (once.filter _) fun o mem => ?_
  obtain ⟨mem, restless⟩ := List.mem_filter.mp mem
  exact List.mem_filter.mpr (calmer o mem restless)

/-- What has calmed down besides was among the restless. -/
theorem Calmer.subperm_cons (calmer : Calmer a a') (once : a'.made.Nodup) {s : Observable} (mem : s ∈ a.made)
    (restless : a.restless s) (calm : a'.restless s = false) :
    (s :: a'.made.filter a'.restless).Subperm (a.made.filter a.restless) := by
  have fresh : s ∉ a'.made.filter a'.restless := by
    rw [List.mem_filter, calm]
    exact fun absurd => Bool.false_ne_true absurd.2
  refine List.subperm_of_subset (List.nodup_cons.mpr ⟨fresh, once.filter _⟩) fun o member => ?_
  rcases List.mem_cons.mp member with rfl | member
  · exact List.mem_filter.mpr ⟨mem, restless⟩
  · obtain ⟨member, unrest⟩ := List.mem_filter.mp member
    exact List.mem_filter.mpr (calmer o member unrest)

/-- If nothing has become restless, there is no more of it. -/
theorem Calmer.count_le (calmer : Calmer a a') (once : a'.made.Nodup) :
    a'.made.countP a'.restless ≤ a.made.countP a.restless := by
  rw [List.countP_eq_length_filter, List.countP_eq_length_filter]
  exact (calmer.subperm once).length_le

private theorem work_lt (count : a'.made.countP a'.restless ≤ a.made.countP a.restless)
    (less : Frame.pace a'.engine.frames < Frame.pace a.engine.frames) : a'.work < a.work :=
  Prod.Lex.toLex_strictMono (Prod.mk_lt_mk_of_le_of_lt count less)

namespace Orderly

theorem madeOnce (orderly : a.Orderly) : a.made.Nodup := .of_map _ orderly.catalogue.once

/-- A composite that is registered with a node has listeners of its own. -/
theorem listened_of_relay (orderly : a.Orderly) {x : Observable} {h : ListenerId} {i j : NodeId}
    (relay : (h, .relay x) ∈ (a.engine.cell j).listeners) (named : x.id? = some i) :
    (a.engine.cell i).listeners ≠ [] := by
  obtain ⟨-, k, xid, p, zipped, -⟩ := ((orderly.links.relays x h j).mp relay).resolve_right not_false
  obtain rfl : i = k := Option.some.inj (named.symm.trans xid)
  intro silent
  rw [orderly.links.silent i silent, List.zip_nil_right] at zipped
  exact absurd zipped List.not_mem_nil

/-- What is new is not asked for anything. -/
theorem made_of_asks (orderly : a.Orderly) {f : Frame} (mem : f ∈ a.engine.frames) {i : NodeId} (asked : f.asks i) :
    i < a.engine.nextNode := by
  match f with
  | .dispatch source event pending failed =>
    obtain ⟨h, y, pends, yid⟩ := Engine.asks_iff.mp asked
    exact orderly.id_lt ((orderly.frames _ mem).2.2.2.1 h y pends).1 yid

/-- Nothing becomes restless when frames stand in the place of another one that ask only what that one asked before or
what has listeners. -/
theorem calmer_replaced (orderly : a.Orderly) {f : Frame} {new rest : List Frame} (made : a'.made = a.made)
    (engine : a'.engine = { a.engine with frames := a'.engine.frames, failures := a'.engine.failures })
    (before : a.engine.frames = f :: rest) (after : a'.engine.frames = new ++ rest)
    (asks : ∀ g ∈ new, ∀ i, g.asks i → (a.engine.cell i).listeners ≠ [] ∨ f.asks i) : Calmer a a' := by
  intro o mem restless
  refine ⟨made ▸ mem, ?_⟩
  obtain ⟨i, -, named⟩ := orderly.catalogue.named o (made ▸ mem)
  obtain ⟨whole, due, stirred⟩ := (restless_iff named).mp restless
  have cell : a'.engine.cell i = a.engine.cell i := by rw [engine]; rfl
  have due : a.engine.due o := by
    rw [engine] at due
    exact due
  refine (restless_iff named).mpr ⟨whole, due, ?_⟩
  rw [cell, after] at stirred
  rw [before]
  rcases stirred with listened | ⟨g, stands, asked⟩
  · exact .inl listened
  · rcases List.mem_append.mp stands with placed | older
    · exact (asks g placed i asked).imp_right fun asked => ⟨f, List.mem_cons_self, asked⟩
    · exact .inr ⟨g, List.mem_cons_of_mem _ older, asked⟩

/-- A move of a client leaves no more to do than there was. -/
theorem work_act (orderly : a.Orderly) {m : Move} (acted : a.Acted m a') (after : a'.Orderly) (still : a.Still m)
    (client : m.isEngine = false) : a'.work ≤ a.work := by
  have unchanged (frames : a'.engine.frames = a.engine.frames)
      (calmer : Calmer a a') : a'.work ≤ a.work := by
    refine Prod.Lex.toLex_mono ⟨calmer.count_le after.madeOnce, ?_⟩
    rw [frames]
  cases acted with
  | @gained _ x w making =>
    refine unchanged making.frames fun o mem restless => ?_
    obtain ⟨i, -, named⟩ := after.catalogue.named o mem
    obtain ⟨whole, due, stirred⟩ := (restless_iff named).mp restless
    rw [making.listeners, making.frames] at stirred
    have old : o ∈ a.made := by
      refine (List.mem_append.mp mem).resolve_right fun new => ?_
      have unused := making.newNode new named
      rcases stirred with listened | ⟨f, stands, asked⟩
      · exact listened (orderly.unused unused)
      · exact absurd (orderly.made_of_asks stands asked) (Nat.not_lt_of_le unused)
    refine ⟨old, (restless_iff named).mpr ⟨whole, ?_, stirred⟩⟩
    rw [← Engine.due_congr (orderly.reading_gain making) fun j same => orderly.baseline_gain making old same]
    exact due
  | uncached => exact unchanged rfl fun o mem restless => ⟨mem, restless⟩
  | configured => exact unchanged rfl fun o mem restless => ⟨mem, restless⟩
  | kept usable => exact unchanged rfl fun o mem restless => ⟨mem, restless⟩
  | @listened x usable =>
    have joined := (orderly.subscribed (known_of_usable usable)).joined
    have frames : (a.listen x).engine.frames = a.engine.frames := joined.stage.frames
    refine unchanged frames fun o mem restless => ⟨mem, ?_⟩
    obtain ⟨i, -, named⟩ := after.catalogue.named o mem
    obtain ⟨whole, due, stirred⟩ := (restless_iff named).mp restless
    rw [Engine.due_of_id named,
      show (a.listen x).engine.reading o = a.engine.reading o from
        joined.stage.reading orderly.connected o] at due
    by_cases silent : (a.engine.cell i).listeners = []
    · by_cases still : ((a.listen x).engine.cell i).listeners = []
      · -- Nobody listens to the node before or after, so that its cell is what it was.
        have same : (a.listen x).engine.cell i = a.engine.cell i := joined.silent i still
        rw [same] at due stirred
        exact (restless_iff named).mpr ⟨whole, (Engine.due_of_id named).mpr due, frames ▸ stirred⟩
      · have fresh : ((a.listen x).engine.cell i).baseline = _ := joined.fresh o mem i named silent still
        rw [whole] at fresh
        exact absurd fresh.symm due
    · have same : ((a.listen x).engine.cell i).baseline = (a.engine.cell i).baseline := (joined.kept i silent).2
      rw [same] at due
      exact (restless_iff named).mpr ⟨whole, (Engine.due_of_id named).mpr due, .inl silent⟩
  | @left x source listener usable handle =>
    have parted := (orderly.unsubscribed (known_of_usable usable) handle).parted
    have frames : (a.unlisten x listener).engine.frames = a.engine.frames := parted.stage.frames
    have readings : ∀ o, (a.unlisten x listener).engine.reading o = a.engine.reading o :=
      parted.stage.reading orderly.connected
    refine unchanged frames fun o mem restless => ⟨mem, ?_⟩
    obtain ⟨i, -, named⟩ := after.catalogue.named o mem
    obtain ⟨whole, due, stirred⟩ := (restless_iff named).mp restless
    rw [Engine.due_congr readings fun j _ => parted.baseline j] at due
    exact (restless_iff named).mpr ⟨whole, due, stirred.imp parted.listened fun asked => frames ▸ asked⟩
  | set => exact absurd rfl (still _)
  | ended finished => contradiction
  | stepped stepped => contradiction

/-- A dispatch that has fewer pending asks nobody else. -/
theorem asks_tail {source source' : Observable} {event event' : Event} {entry : ListenerId × Target}
    {pending : List (ListenerId × Target)} {failed failed' : Nat} {i : NodeId}
    (asked : (Frame.dispatch source event pending failed).asks i) :
    (Frame.dispatch source' event' (entry :: pending) failed').asks i := by
  obtain ⟨h, y, pends, named⟩ := Engine.asks_iff.mp asked
  exact Engine.asks_iff.mpr ⟨h, y, List.mem_cons_of_mem _ pends, named⟩

/-- What a node tells its listeners asks only what has listeners itself. -/
theorem listened_of_asks (orderly : a.Orderly) {source : Observable} {event : Event} {j i : NodeId} {failed : Nat}
    (asked : (Frame.dispatch source event (a.engine.cell j).listeners failed).asks i) :
    (a.engine.cell i).listeners ≠ [] := by
  obtain ⟨h, y, relay, named⟩ := Engine.asks_iff.mp asked
  exact orderly.listened_of_relay relay named

/-- What stands in the place of a frame asks only what that one asked or what has listeners. -/
theorem asks_unrolled (orderly : a.Orderly) {f : Frame} {new : List Frame} (unrolls : a.engine.Unrolls f new) :
    ∀ g ∈ new, ∀ i, g.asks i → (a.engine.cell i).listeners ≠ [] ∨ f.asks i := by
  intro g mem i asked
  cases unrolls with
  | refreshed | dispatched => exact absurd mem List.not_mem_nil
  | stale =>
    obtain rfl := List.mem_singleton.mp mem
    contradiction
  | told =>
    rcases List.mem_cons.mp mem with rfl | mem
    · exact .inl (orderly.listened_of_asks asked)
    · obtain rfl := List.mem_singleton.mp mem
      contradiction
  | called =>
    rcases List.mem_cons.mp mem with rfl | mem
    · contradiction
    · obtain rfl := List.mem_singleton.mp mem
      exact .inr (asks_tail asked)
  | passed =>
    obtain rfl := List.mem_singleton.mp mem
    exact .inr (asks_tail asked)

/-- The end of a client listener makes nothing restless. -/
theorem calmer_finished (orderly : a.Orderly) {failing : Bool} {e' : Engine} (finished : a.engine.Finished failing e') :
    Calmer a (a.withEngine e') := by
  cases finished with
  | returned frames =>
    -- The dispatch that called the listener stays with its pending ones, and only its count of failures changes.
    intro o mem restless
    refine ⟨mem, ?_⟩
    obtain ⟨i, -, named⟩ := orderly.catalogue.named o mem
    obtain ⟨whole, due, stirred⟩ := (restless_iff named).mp restless
    refine (restless_iff named).mpr ⟨whole, due, stirred.imp_right ?_⟩
    rintro ⟨f, mem, asked⟩
    rw [frames]
    rcases List.mem_cons.mp mem with rfl | older
    · exact ⟨_, List.mem_cons_of_mem _ List.mem_cons_self, asked⟩
    · exact ⟨f, List.mem_cons_of_mem _ (List.mem_cons_of_mem _ older), asked⟩
  | ended frames => exact orderly.calmer_replaced rfl rfl frames (List.nil_append _).symm nofun

/-- The end of a client listener leaves less to do. -/
theorem work_finished (orderly : a.Orderly) {failing : Bool} {e' : Engine} (finished : a.engine.Finished failing e') :
    (a.withEngine e').work < a.work :=
  work_lt ((orderly.calmer_finished finished).count_le orderly.madeOnce) finished.pace_lt

/-- A composite that tells its listeners was restless, is so no more, and makes nothing else so. -/
theorem calmer_reacted (orderly : a.Orderly) (a' : Audience) {source s : Observable} {event : Event} {h : ListenerId}
    {pending : List (ListenerId × Target)} {failed : Nat} {rest : List Frame} {k : NodeId}
    (frames : a.engine.frames = .dispatch source event ((h, .relay s) :: pending) failed :: rest)
    (named : s.id? = some k) (due : a.engine.due s) (made : a'.made = a.made)
    (told : a'.engine = { a.informed s k with
      frames := .dispatch s (.changed (a.engine.reading s)) (a.engine.cell k).listeners 0 ::
        .dispatch source event pending failed :: rest }) :
    (s :: a'.made.filter a'.restless).Subperm (a.made.filter a.restless) := by
  have staged : Frame.Staged a.made a.handles (.dispatch source event ((h, .relay s) :: pending) failed) :=
    orderly.frames _ (frames ▸ List.mem_cons_self)
  obtain ⟨smem, part⟩ := staged.2.2.2.1 h s List.mem_cons_self
  have whole : s.isPlain = false := Observable.not_isPlain_of_part part
  have asked : ∃ f ∈ a.engine.frames, f.asks k := by
    rw [frames]
    exact ⟨_, List.mem_cons_self, Engine.asks_iff.mpr ⟨h, s, List.mem_cons_self, named⟩⟩
  have before : a.restless s := (restless_iff named).mpr ⟨whole, due, .inr asked⟩
  have informed (o : Observable) : a'.engine.due o = (a.informed s k).due o := by rw [told]; rfl
  refine Calmer.subperm_cons (fun o mem restless => ?_) (made ▸ orderly.madeOnce) smem before ?_
  · rw [made] at mem
    refine ⟨mem, ?_⟩
    obtain ⟨i, -, oid⟩ := orderly.catalogue.named o mem
    obtain ⟨plain, due', stirred⟩ := (restless_iff oid).mp restless
    rw [informed] at due'
    obtain ⟨other, due⟩ := orderly.due_of_informed smem named mem due'
    have listeners : (a.informed s k).cell i = a.engine.cell i := orderly.cell_informed smem named mem oid other
    refine (restless_iff oid).mpr ⟨plain, due, ?_⟩
    rw [told] at stirred
    rw [frames]
    rcases stirred with listened | ⟨f, stands, asked⟩
    · exact .inl (listeners ▸ listened)
    · rcases List.mem_cons.mp stands with rfl | stands
      · exact .inl (orderly.listened_of_asks asked)
      · rcases List.mem_cons.mp stands with rfl | older
        · exact .inr ⟨_, List.mem_cons_self, asks_tail asked⟩
        · exact .inr ⟨f, List.mem_cons_of_mem _ older, asked⟩
  · have fresh : (a.informed s k).due s = false := orderly.not_due_informed named
    refine Bool.eq_false_iff.mpr fun restless => ?_
    have due' := ((restless_iff named).mp restless).2.1
    rw [informed, fresh] at due'
    contradiction

/-- A step of the engine leaves less to do. -/
theorem work_stepped (orderly : a.Orderly) {e' : Engine} (stepped : a.engine.Stepped e')
    (heard : List (ListenerId × Reading)) : Audience.work { a.withEngine e' with heard } < a.work := by
  refine stepped.elim_unrolls (motive := fun e' => Audience.work { a.withEngine e' with heard } < a.work) ?_ ?_
  · intro f new rest failures frames unrolls
    have calmer : Calmer a { a.withEngine { a.engine with frames := new ++ rest, failures } with heard } :=
      orderly.calmer_replaced rfl rfl frames rfl (orderly.asks_unrolled unrolls)
    refine work_lt (calmer.count_le orderly.madeOnce) ?_
    rw [frames]
    exact unrolls.pace_lt rest
  · intro source s event h pending failed rest k frames named due
    refine Prod.Lex.toLex_lt_toLex.mpr (.inl ?_)
    rw [List.countP_eq_length_filter, List.countP_eq_length_filter]
    refine (orderly.calmer_reacted _ frames named due ?_ ?_).length_le <;> rfl

/-- Every move of the engine leaves less to do. -/
theorem work_engine (orderly : a.Orderly) {m : Move} (allowed : a.Allows m) (engine : m.isEngine) :
    (a.act m).work < a.work := by
  cases m with
  | advance =>
    obtain ⟨e', step⟩ := Option.isSome_iff_exists.mp allowed
    show a.advance.work < a.work
    rw [Audience.advance, step]
    exact orderly.work_stepped (Engine.stepped step) _
  | finish failing => exact orderly.work_finished (Engine.finished allowed failing)
  | _ => contradiction

end Orderly

/-- Unless nothing is under way, the engine can move, or the client listener that is running can end. -/
theorem idle_or_engine (a : Audience) : a.Idle ∨ ∃ m : Move, m.isEngine ∧ a.Allows m := by
  by_cases idle : a.engine.frames = []
  · exact .inl idle
  · rcases Engine.step_or_running idle with stepping | running
    · exact .inr ⟨.advance, rfl, stepping⟩
    · exact .inr ⟨.finish false, rfl, running⟩

/-- No move of the engine touches the environment. -/
theorem still_of_isEngine {m : Move} (engine : m.isEngine) : a.Still m := by
  rintro features rfl
  contradiction

/-- Whatever is under way comes to rest when the client listeners that are called end. -/
theorem Orderly.comes_to_rest (orderly : a.Orderly) :
    ∃ ms b, Run Still a ms b ∧ (∀ m ∈ ms, m.isEngine) ∧ b.Idle := by
  -- By induction on what is left to do, which every move of the engine makes less.
  generalize left : a.work = work
  induction work using WellFoundedLT.induction generalizing a with
  | ind work ih =>
    subst left
    rcases a.idle_or_engine with idle | ⟨m, engine, allowed⟩
    · exact ⟨[], a, .nil a, nofun, idle⟩
    · obtain ⟨ms, b, run, engines, idle⟩ := ih _ (orderly.work_engine allowed engine) (orderly.act allowed) rfl
      exact ⟨m :: ms, b, .cons allowed (still_of_isEngine engine) run, List.forall_mem_cons.mpr ⟨engine, engines⟩, idle⟩

/-- No move leaves more to do than there was. -/
theorem Orderly.work_le (orderly : a.Orderly) {m : Move} (allowed : a.Allows m) (still : a.Still m) :
    (a.act m).work ≤ a.work := by
  cases engine : m.isEngine with
  | true => exact (orderly.work_engine allowed engine).le
  | false => exact orderly.work_act (orderly.acted allowed) (orderly.act allowed) still engine

/-- A history in which the environment is left alone brings what is under way forward only so often: from some time on
everything is at rest, or some client listener never ends. -/
theorem Orderly.settles {history : ℕ → Audience} {moves : ℕ → Move} (first : (history 0).Orderly)
    (allowed : ∀ n, (history n).Allows (moves n)) (still : ∀ n, (history n).Still (moves n))
    (next : ∀ n, history (n + 1) = (history n).act (moves n)) : ∃ n, ∀ later ≥ n, (moves later).isEngine = false := by
  have orderly : ∀ n, (history n).Orderly := by
    intro n
    induction n with
    | zero => exact first
    | succ n ih => exact next n ▸ ih.act (allowed n)
  have less : Antitone fun n => (history n).work := antitone_nat_of_succ_le fun n => by
    rw [next]
    exact (orderly n).work_le (allowed n) (still n)
  obtain ⟨n, constant⟩ := WellFoundedLT.antitone_chain_condition less
  refine ⟨n, fun later after => Bool.eq_false_iff.mpr fun engine => ?_⟩
  have drops := (orderly later).work_engine (allowed later) engine
  rw [← next] at drops
  exact absurd ((constant later after).symm.trans (constant (later + 1) (Nat.le_succ_of_le after))) drops.ne'

end Audience

end MediaWatch

import MediaWatch.Proofs.Engine.Links

/-! # Subscribing

Subscribing to a node registers with it, and if it was silent, registers the node with all its parts in
the same way. Whatever is shared below, the links are in order afterwards, no registration is lost,
and a node that was silent knows of the present reading.
-/

namespace MediaWatch.Engine

variable {made : List Observable} {next : NodeId} {busy : NodeId → Prop}
  {loose : Observable → ListenerId → NodeId → Prop} {e e' e'' : Engine}

namespace Joined

theorem refl (made : List Observable) (e : Engine) : Joined made e e where
  stage := .refl e
  issued := Nat.le_refl _
  listeners j := ⟨[], by simp⟩
  kept j _ := ⟨rfl, rfl⟩
  silent j _ := rfl
  fresh o _ j _ silent listened := absurd silent listened

/-- A registration that was there is still there. -/
theorem mem (joined : Joined made e e') {j : NodeId} {x : ListenerId × Target}
    (old : x ∈ (e.cell j).listeners) : x ∈ (e'.cell j).listeners := by
  obtain ⟨added, same, -⟩ := joined.listeners j
  rw [same]
  exact List.mem_append_left _ old

theorem listened (joined : Joined made e e') {j : NodeId} (old : (e.cell j).listeners ≠ []) :
    (e'.cell j).listeners ≠ [] := by
  obtain ⟨x, mem⟩ := List.exists_mem_of_ne_nil _ old
  exact List.ne_nil_of_mem (joined.mem mem)

theorem trans (on : e.connected = true) (left : Joined made e e') (right : Joined made e' e'') :
    Joined made e e'' where
  stage := left.stage.trans right.stage
  issued := Nat.le_trans left.issued right.issued
  listeners j := by
    obtain ⟨first, sameFirst, newFirst⟩ := left.listeners j
    obtain ⟨second, sameSecond, newSecond⟩ := right.listeners j
    refine ⟨first ++ second, by rw [sameSecond, sameFirst, List.append_assoc], ?_⟩
    intro x mem
    rcases List.mem_append.mp mem with mem | mem
    · exact newFirst x mem
    · exact Nat.le_trans left.issued (newSecond x mem)
  kept j listened := by
    obtain ⟨heldFirst, baselineFirst⟩ := left.kept j listened
    obtain ⟨heldSecond, baselineSecond⟩ := right.kept j (left.listened listened)
    exact ⟨heldSecond.trans heldFirst, baselineSecond.trans baselineFirst⟩
  silent j none := by
    have middle : (e'.cell j).listeners = [] := by
      by_contra listened
      exact right.listened listened none
    rw [right.silent j none, left.silent j middle]
  fresh o mem j named silent listened := by
    by_cases middle : (e'.cell j).listeners = []
    · rw [right.fresh o mem j named middle listened, left.silent j middle, left.stage.reading on]
    · rw [(right.kept j middle).2, left.fresh o mem j named silent middle]

end Joined

/-- What subscribing to one observable comes to. -/
structure Subscribed (made : List Observable) (busy : NodeId → Prop) (loose : Observable → ListenerId → NodeId → Prop)
    (e : Engine) (o : Observable) (target : Target) (listener : ListenerId) (e' : Engine) : Prop where
  joined : Joined made e e'
  listener_eq : listener = e.nextListener
  issued : e.nextListener < e'.nextListener
  linked : e'.Linked made busy fun x h j => loose x h j ∨ (target = .relay x ∧ h = listener ∧ o.id? = some j)
  mem : ∀ j, o.id? = some j → (listener, target) ∈ (e'.cell j).listeners
  clients : ∀ j l, (l, .client) ∈ (e'.cell j).listeners →
    (l, .client) ∈ (e.cell j).listeners ∨ (target = .client ∧ l = listener ∧ o.id? = some j)

/-- What registering an observable with some of its parts comes to. -/
structure SubscribedAll (made : List Observable) (busy : NodeId → Prop)
    (loose : Observable → ListenerId → NodeId → Prop)
    (e : Engine) (o : Observable) (ps : List Observable) (hs : List ListenerId) (e' : Engine) : Prop where
  joined : Joined made e e'
  length : hs.length = ps.length
  ascending : hs.Pairwise (· < ·)
  bounds : ∀ h ∈ hs, e.nextListener ≤ h ∧ h < e'.nextListener
  linked : e'.Linked made busy fun x h j => loose x h j ∨ Ties o ps hs x h j
  clients : ∀ j l, (l, .client) ∈ (e'.cell j).listeners → (l, .client) ∈ (e.cell j).listeners

theorem SubscribedAll.nil {o : Observable} (linked : e.Linked made busy loose) :
    SubscribedAll made busy loose e o [] [] e where
  joined := .refl made e
  length := rfl
  ascending := .nil
  bounds h mem := absurd mem (List.not_mem_nil)
  linked := linked.loose_congr fun x h j => by simp [Ties]
  clients _ _ mem := mem

/-- One part more in front. -/
theorem SubscribedAll.cons {o p : Observable} {ps : List Observable} {h : ListenerId} {hs : List ListenerId}
    (on : e.connected = true) (first : Subscribed made busy loose e p (.relay o) h e')
    (rest : SubscribedAll made busy (fun x g j => loose x g j ∨ (Target.relay o = .relay x ∧ g = h ∧ p.id? = some j))
      e' o ps hs e'') :
    SubscribedAll made busy loose e o (p :: ps) (h :: hs) e'' where
  joined := first.joined.trans on rest.joined
  length := by rw [List.length_cons, List.length_cons, rest.length]
  ascending := by
    refine List.pairwise_cons.mpr ⟨fun g mem => ?_, rest.ascending⟩
    rw [first.listener_eq]
    exact Nat.lt_of_lt_of_le first.issued (rest.bounds g mem).1
  bounds g mem := by
    rcases List.mem_cons.mp mem with rfl | mem
    · rw [first.listener_eq]
      exact ⟨Nat.le_refl _, Nat.lt_of_lt_of_le first.issued rest.joined.issued⟩
    · exact ⟨Nat.le_trans first.joined.issued (rest.bounds g mem).1, (rest.bounds g mem).2⟩
  linked := rest.linked.loose_congr fun x g j => by
    simp only [Ties, List.zip_cons_cons, List.mem_cons, Prod.mk.injEq, Target.relay.injEq]
    constructor
    · rintro ((old | ⟨rfl, rfl, named⟩) | ⟨rfl, q, zipped, named⟩)
      · exact .inl old
      · exact .inr ⟨rfl, p, .inl ⟨rfl, rfl⟩, named⟩
      · exact .inr ⟨rfl, q, .inr zipped, named⟩
    · rintro (old | ⟨rfl, q, ⟨rfl, rfl⟩ | zipped, named⟩)
      · exact .inl (.inl old)
      · exact .inl (.inr ⟨rfl, rfl, named⟩)
      · exact .inr ⟨rfl, q, zipped, named⟩
  clients j l mem := (first.clients j l (rest.clients j l mem)).resolve_right fun new => Target.noConfusion new.1

/-- A node with listeners gets one more, or a plain one does. -/
theorem Joined.register (catalogue : Catalogue made next) {o : Observable} {id : NodeId} (mem : o ∈ made)
    (named : o.id? = some id) (again : o.isPlain ∨ (e.cell id).listeners ≠ []) (target : Target) :
    Joined made e (e.register id target).2 where
  stage := .register e id target
  issued := Nat.le_succ _
  listeners := listeners_register e id target
  kept j _ := by
    rw [cell_register]
    split <;> exact ⟨rfl, rfl⟩
  silent j none := by
    rw [cell_register] at none ⊢
    split
    · next same => simp [same] at none
    · rfl
  fresh x xmem j xid silent listened := by
    by_cases same : id = j
    · obtain rfl : x = o := catalogue.eq_of_id xmem mem (by rw [xid, named, same])
      have plain : x.isPlain := again.resolve_right fun listened => listened (same ▸ silent)
      rw [cell_register, if_pos same, if_pos plain]
    · rw [cell_register, if_neg same] at listened
      exact absurd silent listened

/-- A client's registration with a node was there before, or is the new one. -/
theorem client_register {o : Observable} {id j : NodeId} (named : o.id? = some id) {target : Target} {l : ListenerId}
    (client : (l, .client) ∈ ((e.register id target).2.cell j).listeners) :
    (l, .client) ∈ (e.cell j).listeners ∨ (target = .client ∧ l = e.nextListener ∧ o.id? = some j) := by
  refine ((mem_listeners_register ..).mp client).imp_right fun ⟨same, new⟩ => ?_
  obtain ⟨rfl, rfl⟩ : l = e.nextListener ∧ Target.client = target := by simpa using new
  exact ⟨rfl, rfl, same ▸ named⟩

/-- Registering with a node that already has listeners, or with a plain one, is all there is to do. -/
theorem Linked.subscribed_again (linked : e.Linked made busy loose) (catalogue : Catalogue made next) {o : Observable}
    {id : NodeId} (mem : o ∈ made) (named : o.id? = some id) (again : o.isPlain ∨ (e.cell id).listeners ≠ [])
    (target : Target) :
    Subscribed made busy loose e o target e.nextListener (e.register id target).2 where
  joined := .register catalogue mem named again target
  listener_eq := rfl
  issued := Nat.lt_succ_self _
  linked := by
    refine ((linked.register id target).relax ?_).loose_congr fun x h j => ?_
    · intro x xmem i xid occupied idle _
      obtain ⟨rfl, silent⟩ := occupied.resolve_left idle
      obtain rfl : x = o := catalogue.eq_of_id xmem mem (by rw [xid, named])
      have plain : x.isPlain := again.resolve_right fun listened => listened silent
      rw [held_register, linked.silent i silent, Observable.parts_of_isPlain plain]
      rfl
    · rw [named, Option.some.injEq, eq_comm (a := id)]
  mem j same := by
    obtain rfl : id = j := Option.some.inj (named.symm.trans same)
    exact (mem_listeners_register ..).mpr (.inr ⟨rfl, rfl⟩)
  clients _ _ client := client_register named client

/-- A silent node that gets a listener, more registrations below, and the node taking note of its present reading:
nothing that was there is lost. -/
theorem Joined.attach (catalogue : Catalogue made next) (on : e.connected = true) {o : Observable} {id : NodeId}
    (mem : o ∈ made) (named : o.id? = some id) (whole : o.isPlain = false) (silent : (e.cell id).listeners = [])
    {target : Target} (below : Joined made (e.register id target).2 e') (hs : List ListenerId) :
    Joined made e (e'.attach id (e'.reading o) hs) := by
  have elsewhere : ∀ j, id ≠ j → (e.register id target).2.cell j = e.cell j := by
    intro j other
    rw [cell_register, if_neg other]
  have untouched : ∀ j, id ≠ j → (e'.attach id (e'.reading o) hs).cell j = e'.cell j := by
    intro j other
    rw [cell_attach, if_neg other]
  have readingFirst := (SameStage.register e id target).reading on
  refine
    { stage := ?stage, issued := Nat.le_trans (Nat.le_succ _) below.issued, listeners := ?listeners, kept := ?kept
      silent := ?silent, fresh := ?fresh }
  case stage =>
    exact ((SameStage.register e id target).trans below.stage).trans (.modifyCell ..)
  case listeners =>
    intro j
    obtain ⟨added, same, new⟩ := below.listeners j
    obtain ⟨first, sameFirst, newFirst⟩ := listeners_register e id target j
    refine ⟨first ++ added, by rw [listeners_attach, same, sameFirst, List.append_assoc], ?_⟩
    intro x mem
    rcases List.mem_append.mp mem with mem | mem
    · exact newFirst x mem
    · exact Nat.le_trans (Nat.le_succ _) (new x mem)
  case kept =>
    intro j listened
    have other : id ≠ j := fun same => listened (same ▸ silent)
    rw [untouched j other, ← elsewhere j other]
    exact below.kept j (by rwa [elsewhere j other])
  case silent =>
    intro j none
    rw [listeners_attach] at none
    have first : (e.nextListener, target) ∈ ((e.register id target).2.cell id).listeners :=
      (mem_listeners_register ..).mpr (.inr ⟨rfl, rfl⟩)
    have other : id ≠ j := by
      rintro rfl
      exact List.ne_nil_of_mem (below.mem first) none
    rw [untouched j other, below.silent j none, elsewhere j other]
  case fresh =>
    intro x xmem j xid silentAt listenedAt
    by_cases here : id = j
    · obtain rfl : x = o := catalogue.eq_of_id xmem mem (by rw [xid, named, here])
      rw [cell_attach, if_pos here, whole, below.stage.reading on, readingFirst]
      rfl
    · rw [listeners_attach] at listenedAt
      rw [untouched j here, below.fresh x xmem j xid (by rwa [elsewhere j here]) listenedAt, elsewhere j here,
        readingFirst]

/-- Registering with a silent node, registering it with all its parts, and taking hold of those
registrations. -/
theorem Linked.subscribed_first (catalogue : Catalogue made next) (on : e.connected = true)
    {o : Observable} {id : NodeId}
    (linked : e.Linked made busy loose) (mem : o ∈ made) (named : o.id? = some id) (whole : o.isPlain = false)
    (silent : (e.cell id).listeners = []) {target : Target} {hs : List ListenerId}
    (parts : SubscribedAll made (fun i => busy i ∨ i = id)
      (fun x h j => loose x h j ∨ (target = .relay x ∧ h = e.nextListener ∧ j = id))
      (e.register id target).2 o o.parts hs e') :
    Subscribed made busy loose e o target e.nextListener (e'.attach id (e'.reading o) hs) where
  joined := parts.joined.attach catalogue on mem named whole silent hs
  listener_eq := rfl
  issued := Nat.lt_of_lt_of_le (Nat.lt_succ_self _) parts.joined.issued
  linked := by
    have first : (e.nextListener, target) ∈ ((e.register id target).2.cell id).listeners :=
      (mem_listeners_register ..).mpr (.inr ⟨rfl, rfl⟩)
    have bare : (e'.cell id).held = [] := by
      rw [(parts.joined.kept id (List.ne_nil_of_mem first)).1, held_register]
      exact linked.silent id silent
    have listened : (e'.cell id).listeners ≠ [] := List.ne_nil_of_mem (parts.joined.mem first)
    have once : hs.Nodup := parts.ascending.imp fun below => Nat.ne_of_lt below
    refine (Linked.attach catalogue parts.linked mem named bare listened parts.length
      (fun h held => (parts.bounds h held).2) once _).loose_congr fun x h j => ?_
    rw [named, Option.some.injEq, eq_comm (a := id)]
  mem j same := by
    obtain rfl : id = j := Option.some.inj (named.symm.trans same)
    rw [listeners_attach]
    exact parts.joined.mem ((mem_listeners_register ..).mpr (.inr ⟨rfl, rfl⟩))
  clients j l client := by
    rw [listeners_attach] at client
    exact client_register named (parts.clients j l client)

/-- Registering with a node that has listeners, or with a silent one, which is then registered with its parts. -/
theorem Linked.subscribed_node (catalogue : Catalogue made next) (on : e.connected = true)
    {o : Observable} {id : NodeId}
    (linked : e.Linked made busy loose) (mem : o ∈ made) (named : o.id? = some id) (whole : o.isPlain = false)
    {target : Target} {hs : List ListenerId}
    (parts : SubscribedAll made (fun i => busy i ∨ i = id)
      (fun x h j => loose x h j ∨ (target = .relay x ∧ h = e.nextListener ∧ j = id))
      (e.register id target).2 o o.parts hs e') :
    Subscribed made busy loose e o target e.nextListener
      (if e.isSilent id then e'.attach id (e'.reading o) hs else (e.register id target).2) := by
  cases silent : e.isSilent id with
  | true => exact linked.subscribed_first catalogue on mem named whole (List.isEmpty_iff.mp silent) parts
  | false =>
    refine linked.subscribed_again catalogue mem named (.inr fun none => ?_) target
    rw [isSilent, none] at silent
    contradiction

/-- A constant hands out an identity and registers nothing. -/
theorem Linked.subscribed_constant (linked : e.Linked made busy loose) {o : Observable} (constant : o.id? = none)
    (target : Target) : Subscribed made busy loose e o target e.newListener.1 e.newListener.2 where
  joined := { Joined.refl made e with stage := rfl, issued := Nat.le_succ _ }
  listener_eq := rfl
  issued := Nat.lt_succ_self _
  linked := by
    have later : e.newListener.2.Linked made busy loose :=
      linked.congr (Nat.le_succ _) (fun _ => rfl) (fun _ => rfl)
    exact later.loose_congr fun x h j => by simp [constant]
  mem j named := by simp [constant] at named
  clients _ _ mem := .inl mem

mutual

theorem Linked.subscribed_condition (catalogue : Catalogue made next) (target : Target) : {busy : NodeId → Prop} →
    {loose : Observable → ListenerId → NodeId → Prop} → {e : Engine} → (linked : e.Linked made busy loose) →
    (on : e.connected = true) → (c : Condition) → (known : Known made (.condition c)) →
    Subscribed made busy loose e (.condition c) target (subscribeCondition target e c).1
      (subscribeCondition target e c).2
  | _, _, _, linked, _, .always, _ => linked.subscribed_constant rfl target
  | _, _, _, linked, _, .never, _ => linked.subscribed_constant rfl target
  | busy, _, e, linked, on, .leaf id l inverted, known => by
    have mem := known.mem rfl
    have listMem : .list l ∈ made := (catalogue.known_part known (List.mem_singleton_self _)).mem rfl
    have registered := linked.registered_first id target
    have native :=
      registered.subscribed_again catalogue listMem rfl (.inl rfl) (.relay (.condition (.leaf id l inverted)))
    simp only [subscribeCondition, apply_ite Prod.fst, apply_ite Prod.snd, ite_self]
    exact linked.subscribed_node catalogue on mem rfl rfl (.cons on native (.nil native.linked))
  | busy, _, e, linked, on, .group id junction cs, known => by
    have mem := known.mem rfl
    have registered := linked.registered_first id target
    have parts := registered.subscribed_all catalogue (.condition (.group id junction cs)) on cs fun c child =>
      catalogue.known_part known (List.mem_map_of_mem child)
    simp only [subscribeCondition, apply_ite Prod.fst, apply_ite Prod.snd, ite_self]
    exact linked.subscribed_node catalogue on mem rfl rfl parts

theorem Linked.subscribed_all (catalogue : Catalogue made next) (o : Observable) : {busy : NodeId → Prop} →
    {loose : Observable → ListenerId → NodeId → Prop} → {e : Engine} → (linked : e.Linked made busy loose) →
    (on : e.connected = true) → (cs : List Condition) → (known : ∀ c ∈ cs, Known made (.condition c)) →
    SubscribedAll made busy loose e o (cs.map .condition) (subscribeAll (.relay o) e cs).1
      (subscribeAll (.relay o) e cs).2
  | _, _, _, linked, _, [], _ => .nil linked
  | _, _, e, linked, on, c :: cs, known => by
    have first := linked.subscribed_condition catalogue (.relay o) on c (known c List.mem_cons_self)
    have rest := first.linked.subscribed_all catalogue o (first.joined.stage.connected.trans on) cs
      fun other mem => known other (List.mem_cons_of_mem _ mem)
    exact .cons on first rest

end

/-- Subscribing to anything known keeps the links in order. -/
theorem Linked.subscribed (linked : e.Linked made busy loose) (catalogue : Catalogue made next)
    (on : e.connected = true) {o : Observable} (known : Known made o) (target : Target) :
    Subscribed made busy loose e o target (e.subscribe o target).1 (e.subscribe o target).2 := by
  cases o with
  | list l => exact linked.subscribed_again catalogue (known.mem rfl) rfl (.inl rfl) target
  | channel id => exact linked.subscribed_again catalogue (known.mem rfl) rfl (.inl rfl) target
  | condition c => exact linked.subscribed_condition catalogue target on c known
  | rules id cs =>
    have mem := known.mem rfl
    have registered := linked.registered_first id target
    have parts := registered.subscribed_all catalogue (.rules id cs) on cs fun c rule =>
      catalogue.known_part known (List.mem_map_of_mem rule)
    simp only [subscribe, apply_ite Prod.fst, apply_ite Prod.snd, ite_self]
    exact linked.subscribed_node catalogue on mem rfl rfl parts

/-- What lists and channels know of does not depend on who listens. -/
theorem Joined.baseline_of_isPlain (joined : Joined made e e') {o : Observable} (mem : o ∈ made) (plain : o.isPlain)
    {j : NodeId} (named : o.id? = some j) : (e'.cell j).baseline = (e.cell j).baseline := by
  by_cases before : (e.cell j).listeners = []
  · by_cases after : (e'.cell j).listeners = []
    · rw [joined.silent j after]
    · rw [joined.fresh o mem j named before after, if_pos plain]
  · exact (joined.kept j before).2

/-- A new registration is of one kind everywhere. -/
theorem Subscribed.target_eq {o : Observable} {target : Target} {listener : ListenerId}
    (subscribed : Subscribed made busy loose e o target listener e') {i j : NodeId}
    (named : o.id? = some j) {t : Target} (mem : (listener, t) ∈ (e'.cell i).listeners) : t = target := by
  have mine := subscribed.mem j named
  obtain rfl : i = j := subscribed.linked.apart i j _ mem _ mine rfl
  have same := subscribed.linked.eq_of_listener mem mine rfl
  exact (Prod.mk.injEq ..).mp same |>.2

theorem subscribe_constant (e : Engine) {o : Observable} (constant : o.id? = none) (target : Target) :
    e.subscribe o target = e.newListener := by
  match o, constant with
  | .condition .always, _ => rfl
  | .condition .never, _ => rfl

end MediaWatch.Engine

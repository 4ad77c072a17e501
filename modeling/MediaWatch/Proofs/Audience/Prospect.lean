import MediaWatch.Proofs.Audience.Basic
import MediaWatch.Proofs.Engine.Stepping

/-! # The outlook of a listener

What is under way determines what a listener will be told, as long as the environment is left alone and
the listener stays. A frame is about to tell it something if it is among the pending ones; and a frame
stirs an observable if, through parts whose readings are new, it will make the observable look at itself.
Going down the stack, a composite is stirred once, since it knows the present reading from then on.
-/

namespace MediaWatch

def Target.isClient : Target → Bool
  | client => true
  | relay _ => false

/-- Whether a frame is about to tell an observable of this identity that a part of it changed. -/
def Frame.asks (f : Frame) (id : NodeId) : Bool :=
  match f with
  | dispatch _ _ pending _ => pending.any fun entry =>
    match entry.2 with
    | .relay o => o.id? == some id
    | .client => false
  | _ => false

namespace Engine

/-- Whether a frame is about to announce the present value of a list. -/
def announces (e : Engine) (f : Frame) (l : MediaList) : Bool :=
  match f with
  | .refresh pending => decide ((l, e.lastValue l) ∈ pending)
  | _ => false

mutual

/-- Whether a frame will make a condition look at itself while its reading is new. -/
def stirsCondition (e : Engine) (f : Frame) : Condition → Bool
  | .always => false
  | .never => false
  | .leaf id l inverted => e.due (.condition (.leaf id l inverted)) && (f.asks id || e.announces f l)
  | .group id junction cs => e.due (.condition (.group id junction cs)) && (f.asks id || stirsAny e f cs)

def stirsAny (e : Engine) (f : Frame) : List Condition → Bool
  | [] => false
  | c :: cs => stirsCondition e f c || stirsAny e f cs

end

/-- Whether a frame will make an observable tell its listeners of its reading. -/
def stirs (e : Engine) (f : Frame) : Observable → Bool
  | .list l => e.announces f l
  | .condition c => e.stirsCondition f c
  | .rules id cs => e.due (.rules id cs) && (f.asks id || e.stirsAny f cs)
  | .channel _ => false

/-- What a frame is about to tell a listener by itself. -/
def word (e : Engine) (l : ListenerId) (f : Frame) : List Reading :=
  match f with
  | .dispatch source (.changed reading) pending _ =>
    if pending.any fun entry => entry.1 == l && entry.2.isClient then [e.given source reading] else []
  | _ => []

/-- What a listener of an observable will be told by the frames of a stack; whether the observable is yet to
be stirred is told by the first argument. -/
def prospect (e : Engine) (l : ListenerId) (o : Observable) : Bool → List Frame → List Reading
  | _, [] => []
  | armed, f :: rest =>
    e.word l f ++
      if armed && e.stirs f o then e.reading o :: prospect e l o o.isPlain rest else prospect e l o armed rest

variable {e e' : Engine} {f f' : Frame} {l : ListenerId} {o : Observable}

private theorem stirsAny_eq (cs : List Condition) : e.stirsAny f cs = cs.any (e.stirsCondition f) := by
  induction cs with
  | nil => rfl
  | cons c cs ih => simp [stirsAny, ih]

/-- What stirs an observable: being asked, or a part that is stirred, while its reading is new. -/
theorem stirs_whole (whole : o.isPlain = false) :
    e.stirs f o ↔ e.due o ∧ ((∃ id, o.id? = some id ∧ f.asks id) ∨ ∃ p ∈ o.parts, e.stirs f p) := by
  match o with
  | .condition .always => simp [stirs, stirsCondition, due, Observable.id?, Condition.id?]
  | .condition .never => simp [stirs, stirsCondition, due, Observable.id?, Condition.id?]
  | .condition (.leaf id m inverted) =>
    simp [stirs, stirsCondition, Observable.id?, Condition.id?, Observable.parts]
  | .condition (.group id junction cs) =>
    simp [stirs, stirsCondition, stirsAny_eq, Observable.id?, Condition.id?, Observable.parts]
  | .rules id cs =>
    simp [stirs, stirsAny_eq, Observable.id?, Observable.parts]

/-- Only announcements stir lists, and nothing stirs channels. -/
theorem not_stirs_plain (plain : o.isPlain) {source : Observable} {event : Event} {pending : List (ListenerId × Target)}
    {failed : Nat} : e.stirs (.dispatch source event pending failed) o = false := by
  cases o with
  | list m => rfl
  | condition c => contradiction
  | rules id cs => contradiction
  | channel id => rfl

theorem asks_iff {source : Observable} {event : Event} {pending : List (ListenerId × Target)}
    {failed : Nat} {id : NodeId} :
    (Frame.dispatch source event pending failed).asks id ↔ ∃ h y, (h, .relay y) ∈ pending ∧ y.id? = some id := by
  rw [Frame.asks, List.any_eq_true]
  constructor
  · rintro ⟨⟨h, target⟩, mem, asked⟩
    cases target with
    | client => contradiction
    | relay y => exact ⟨h, y, mem, beq_iff_eq.mp asked⟩
  · rintro ⟨h, y, mem, named⟩
    exact ⟨(h, .relay y), mem, beq_iff_eq.mpr named⟩

/-- Stirring depends on the nodes of the observable alone: which of them are due, which of those are asked,
and which lists are announced. -/
theorem stirs_congr (due : ∀ x ∈ o.nodes, x.isPlain = false → e'.due x = e.due x)
    (asks : ∀ x ∈ o.nodes, x.isPlain = false → e.due x → ∀ id, x.id? = some id → f'.asks id = f.asks id)
    (announces : ∀ m, .list m ∈ o.nodes → e'.announces f' m = e.announces f m) : e'.stirs f' o = e.stirs f o := by
  induction o using Observable.whole_induction with
  | list m => exact announces m (Observable.mem_nodes_self rfl)
  | channel id => rfl
  | whole o plain ih =>
    rw [Bool.eq_iff_iff, stirs_whole plain, stirs_whole plain]
    cases named : o.id? with
    | none => simp [Engine.due, named]
    | some id =>
      have node := Observable.mem_nodes_self named
      rw [due o node plain]
      refine and_congr_right fun isDue => or_congr ?_ ?_
      · refine exists_congr fun j => and_congr_right fun same => ?_
        rw [asks o node plain isDue j (named.trans same)]
      · refine exists_congr fun p => and_congr_right fun part => ?_
        have inner : ∀ x ∈ p.nodes, x ∈ o.nodes := fun x mem => Observable.mem_nodes.mpr (.inl ⟨p, part, mem⟩)
        rw [ih p part (fun x mem => due x (inner x mem)) (fun x mem => asks x (inner x mem))
          fun m mem => announces m (inner _ mem)]

/-- A frame that asks nobody and announces nothing stirs nothing. -/
theorem not_stirs (asks : ∀ id, f.asks id = false) (announces : ∀ m, e.announces f m = false) :
    e.stirs f o = false := by
  induction o using Observable.whole_induction with
  | list m => exact announces m
  | channel id => rfl
  | whole o plain ih =>
    rw [← Bool.not_eq_true, stirs_whole plain]
    rintro ⟨-, ⟨id, -, asked⟩ | ⟨p, part, stirred⟩⟩
    · rw [asks] at asked
      contradiction
    · rw [ih p part] at stirred
      contradiction

/-- A value that a list does not have any more stirs nothing. -/
theorem stirs_stale {m : MediaList} {now : Bool} {pending : List (MediaList × Bool)} (other : e.lastValue m ≠ now) :
    e.stirs (.refresh pending) o = e.stirs (.refresh ((m, now) :: pending)) o := by
  refine stirs_congr (fun _ _ _ => rfl) (fun _ _ _ _ _ _ => rfl) fun k _ => ?_
  have distinct : (k, e.lastValue k) ≠ (m, now) := by
    intro same
    obtain ⟨rfl, value⟩ := (Prod.mk.injEq ..).mp same
    exact other value
  simp only [announces, List.mem_cons, distinct, false_or]

/-- Calling a client stirs nothing. -/
theorem stirs_cons_client (source : Observable) (event : Event) (h : ListenerId) (pending : List (ListenerId × Target))
    (failed : Nat) : e.stirs (.dispatch source event pending failed) o =
      e.stirs (.dispatch source event ((h, .client) :: pending) failed) o :=
  stirs_congr (fun _ _ _ => rfl) (fun _ _ _ _ _ _ => rfl) fun _ _ => rfl

/-- What a source stirs by telling its relays is bigger than the source. -/
theorem sizeOf_lt_of_stirs {source : Observable} {event : Event} {pending : List (ListenerId × Target)} {failed : Nat}
    (parts : ∀ x ∈ o.nodes, ∀ id, x.id? = some id → (Frame.dispatch source event pending failed).asks id →
      source ∈ x.parts)
    (stirred : e.stirs (.dispatch source event pending failed) o) : sizeOf source < sizeOf o := by
  induction o using Observable.whole_induction with
  | list m => contradiction
  | channel id => contradiction
  | whole o plain ih =>
    rcases ((stirs_whole plain).mp stirred).2 with ⟨id, named, asked⟩ | ⟨p, part, stirred⟩
    · exact Observable.sizeOf_part (parts o (Observable.mem_nodes_self named) id named asked)
    · have inner : ∀ x ∈ p.nodes, x ∈ o.nodes := fun x mem => Observable.mem_nodes.mpr (.inl ⟨p, part, mem⟩)
      exact Nat.lt_trans (ih p part (fun x mem => parts x (inner x mem)) stirred) (Observable.sizeOf_part part)

/-- When a frame makes a node tell its listeners, whatever the frame stirs above that node is stirred by what the
node tells or by what is left of the frame. -/
theorem stirs_spoken {s : Observable} {d : Frame}
    (due : ∀ x ∈ o.nodes, x ≠ s → x.isPlain = false → e'.due x = e.due x)
    (told : ∀ x ∈ o.nodes, ∀ id, x.id? = some id → (d.asks id ↔ s ∈ x.parts))
    (quiet : ∀ m, e'.announces d m = false) (speaks : e.stirs f s)
    (asks : ∀ x ∈ o.nodes, x ≠ s → ∀ id, x.id? = some id → f'.asks id = f.asks id)
    (announces : ∀ m, .list m ∈ o.nodes → .list m ≠ s → e'.announces f' m = e.announces f m) (other : o ≠ s) :
    e.stirs f o ↔ e'.stirs d o ∨ e'.stirs f' o := by
  induction o using Observable.whole_induction with
  | list m =>
    have same := announces m (Observable.mem_nodes_self rfl) other
    simp only [stirs, quiet m, same, Bool.false_eq_true, false_or]
  | channel id => simp [stirs]
  | whole o plain ih =>
    rw [stirs_whole plain, stirs_whole plain, stirs_whole plain]
    cases named : o.id? with
    | none => simp [Engine.due, named]
    | some id =>
      have node := Observable.mem_nodes_self named
      rw [due o node other plain]
      simp only [Option.some.injEq, exists_eq_left', told o node id named, asks o node other id named]
      have parts : ∀ p ∈ o.parts, p ≠ s → (e.stirs f p ↔ e'.stirs d p ∨ e'.stirs f' p) := by
        intro p part distinct
        have inner : ∀ x ∈ p.nodes, x ∈ o.nodes := fun x mem => Observable.mem_nodes.mpr (.inl ⟨p, part, mem⟩)
        exact ih p part (fun x mem => due x (inner x mem)) (fun x mem => told x (inner x mem))
          (fun x mem => asks x (inner x mem)) (fun m mem => announces m (inner _ mem)) distinct
      constructor
      · rintro ⟨isDue, asked | ⟨p, part, stirred⟩⟩
        · exact .inr ⟨isDue, .inl asked⟩
        · by_cases same : p = s
          · exact .inl ⟨isDue, .inl (same ▸ part)⟩
          · rcases (parts p part same).mp stirred with stirred | stirred
            · exact .inl ⟨isDue, .inr ⟨p, part, stirred⟩⟩
            · exact .inr ⟨isDue, .inr ⟨p, part, stirred⟩⟩
      · have whole : ∀ p ∈ o.parts, e'.stirs d p ∨ e'.stirs f' p → ∃ p ∈ o.parts, e.stirs f p := by
          intro p part stirred
          by_cases same : p = s
          · exact ⟨s, same ▸ part, speaks⟩
          · exact ⟨p, part, (parts p part same).mpr stirred⟩
        rintro (⟨isDue, part | ⟨p, part, stirred⟩⟩ | ⟨isDue, asked | ⟨p, part, stirred⟩⟩)
        · exact ⟨isDue, .inr ⟨s, part, speaks⟩⟩
        · exact ⟨isDue, .inr (whole p part (.inl stirred))⟩
        · exact ⟨isDue, .inl asked⟩
        · exact ⟨isDue, .inr (whole p part (.inr stirred))⟩

/-- Frames further down stir what they stirred before, apart from what the first frame stirs. -/
theorem stirs_below {s : Observable} {g : Frame}
    (due : ∀ x ∈ o.nodes, x ≠ s → x.isPlain = false → e'.due x = e.due x) (speaks : e.stirs f s)
    (announces : ∀ m, .list m ∈ o.nodes → e'.announces g m = e.announces g m) (calm : ¬ e.stirs f o) :
    e'.stirs g o = e.stirs g o := by
  induction o using Observable.whole_induction with
  | list m => exact announces m (Observable.mem_nodes_self rfl)
  | channel id => rfl
  | whole o plain ih =>
    rw [Bool.eq_iff_iff, stirs_whole plain, stirs_whole plain]
    cases named : o.id? with
    | none => simp [Engine.due, named]
    | some id =>
      have node := Observable.mem_nodes_self named
      have other : o ≠ s := fun same => calm (same ▸ speaks)
      rw [due o node other plain]
      refine and_congr_right fun isDue => or_congr Iff.rfl ?_
      refine exists_congr fun p => and_congr_right fun part => ?_
      have inner : ∀ x ∈ p.nodes, x ∈ o.nodes := fun x mem => Observable.mem_nodes.mpr (.inl ⟨p, part, mem⟩)
      have calmPart : ¬ e.stirs f p := fun stirred => calm ((stirs_whole plain).mpr ⟨isDue, .inr ⟨p, part, stirred⟩⟩)
      rw [ih p part (fun x mem => due x (inner x mem)) (fun m mem => announces m (inner _ mem)) calmPart]

/-! ## Prospects -/

private theorem given_congr (readings : ∀ x, e'.reading x = e.reading x) (source : Observable) (r : Reading) :
    e'.given source r = e.given source r := by
  cases source with
  | rules id cs => exact readings (.rules id cs)
  | list m => rfl
  | condition c => rfl
  | channel id => rfl

/-- Words depend on readings and on the pending clients. -/
theorem word_congr (readings : ∀ x, e'.reading x = e.reading x) (f : Frame) : e'.word l f = e.word l f := by
  match f with
  | .dispatch source (.changed r) pending failed => simp only [word, given_congr readings]
  | .dispatch source (.signal number) pending failed => rfl
  | .refresh pending => rfl
  | .call listener source event => rfl

/-- A frame with a word for a listener has it among its pending ones. -/
theorem word_eq_nil {source : Observable} {event : Event} {pending : List (ListenerId × Target)} {failed : Nat}
    (absent : (l, .client) ∉ pending) : e.word l (.dispatch source event pending failed) = [] := by
  cases event with
  | signal number => rfl
  | changed r =>
    apply if_neg
    rw [List.any_eq_true]
    rintro ⟨⟨h, target⟩, mem, found⟩
    obtain ⟨same, client⟩ := Bool.and_eq_true_iff.mp found
    obtain rfl := beq_iff_eq.mp same
    cases target with
    | client => exact absent mem
    | relay y => contradiction

theorem word_eq_given {source : Observable} {r : Reading} {pending : List (ListenerId × Target)} {failed : Nat}
    (mem : (l, .client) ∈ pending) : e.word l (.dispatch source (.changed r) pending failed) = [e.given source r] :=
  if_pos (List.any_eq_true.mpr ⟨_, mem, by simp [Target.isClient]⟩)

/-- Relays get no words. -/
theorem word_cons_relay (source : Observable) (event : Event) (h : ListenerId) (y : Observable)
    (pending : List (ListenerId × Target)) (failed : Nat) :
    e.word l (.dispatch source event ((h, .relay y) :: pending) failed) =
      e.word l (.dispatch source event pending failed) := by
  cases event with
  | changed r =>
    have rest : (((h, .relay y) :: pending : List (ListenerId × Target)).any fun entry =>
        entry.1 == l && entry.2.isClient) = pending.any fun entry => entry.1 == l && entry.2.isClient := by
      rw [List.any_cons, Target.isClient, Bool.and_false, Bool.false_or]
    rw [word, word, rest]
  | signal number => rfl

/-- Another client's call is no word for this one. -/
theorem word_cons_other {h : ListenerId} (other : h ≠ l) (source : Observable) (event : Event)
    (pending : List (ListenerId × Target)) (failed : Nat) :
    e.word l (.dispatch source event ((h, .client) :: pending) failed) =
      e.word l (.dispatch source event pending failed) := by
  cases event with
  | changed r =>
    have rest : (((h, .client) :: pending : List (ListenerId × Target)).any fun entry =>
        entry.1 == l && entry.2.isClient) = pending.any fun entry => entry.1 == l && entry.2.isClient := by
      rw [List.any_cons, beq_false_of_ne other, Bool.false_and, Bool.false_or]
    rw [word, word, rest]
  | signal number => rfl

theorem given_self (e : Engine) (s : Observable) : e.given s (e.reading s) = e.reading s := by
  cases s <;> rfl

/-- What is stirred no more is told by words only. -/
theorem prospect_unstirred {armed : Bool} {frames : List Frame}
    (calm : armed = true → ∀ g ∈ frames, e.stirs g o = false) :
    e.prospect l o armed frames = frames.flatMap (e.word l) := by
  induction frames with
  | nil => rfl
  | cons f rest ih =>
    have here : (armed && e.stirs f o) = false := by
      cases armed with
      | false => rfl
      | true => exact calm rfl f List.mem_cons_self
    rw [prospect, here, List.flatMap_cons, ih fun isArmed g mem => calm isArmed g (List.mem_cons_of_mem _ mem)]
    rfl

/-- A prospect depends on the words and on what is stirred while the observable is yet to be stirred. -/
theorem prospect_congr {armed : Bool} {frames : List Frame} (reading : e'.reading o = e.reading o)
    (words : ∀ g ∈ frames, e'.word l g = e.word l g)
    (stirs : armed = true → ∀ g ∈ frames, e'.stirs g o = e.stirs g o) :
    e'.prospect l o armed frames = e.prospect l o armed frames := by
  induction frames generalizing armed with
  | nil => rfl
  | cons f rest ih =>
    have wordsRest : ∀ g ∈ rest, e'.word l g = e.word l g := fun g mem => words g (List.mem_cons_of_mem _ mem)
    have stirsRest : armed = true → ∀ g ∈ rest, e'.stirs g o = e.stirs g o := fun isArmed g mem =>
      stirs isArmed g (List.mem_cons_of_mem _ mem)
    have here : (armed && e'.stirs f o) = (armed && e.stirs f o) := by
      cases armed with
      | false => rfl
      | true => exact stirs rfl f List.mem_cons_self
    rw [prospect, prospect, words f List.mem_cons_self, here]
    split
    · next stirred =>
      have isArmed := (Bool.and_eq_true_iff.mp stirred).1
      rw [reading, ih wordsRest fun _ => stirsRest isArmed]
    · rw [ih wordsRest stirsRest]

/-- A frame without words that stirs nothing may be left out. -/
theorem prospect_skip {armed : Bool} {rest : List Frame} (wordless : e.word l f = []) (calm : e.stirs f o = false) :
    e.prospect l o armed (f :: rest) = e.prospect l o armed rest := by
  rw [prospect, wordless, calm, Bool.and_false]
  rfl

theorem prospect_replace {armed : Bool} {rest : List Frame} (words : e.word l f' = e.word l f)
    (stirs : e.stirs f' o = e.stirs f o) : e.prospect l o armed (f' :: rest) = e.prospect l o armed (f :: rest) := by
  rw [prospect, prospect, words, stirs]

/-- When a frame makes another node tell its listeners, the prospect of a listener does not change. -/
theorem prospect_spoken {d : Frame} {rest : List Frame} (wordless : e'.word l d = [])
    (words : ∀ g, e'.word l g = e.word l g) (same : e.word l f' = e.word l f) (reading : e'.reading o = e.reading o)
    (spoken : e.stirs f o ↔ e'.stirs d o ∨ e'.stirs f' o) (exclusive : e.stirs f o → e.word l f = [])
    (below : ¬ e.stirs f o → ∀ g ∈ rest, e'.stirs g o = e.stirs g o)
    (plain : o.isPlain = true → e'.stirs d o = false ∧ ∀ g ∈ rest, e'.stirs g o = e.stirs g o) :
    e'.prospect l o true (d :: f' :: rest) = e.prospect l o true (f :: rest) := by
  simp only [prospect, wordless, words f', same]
  by_cases stirred : e.stirs f o
  · rw [exclusive stirred, stirred]
    cases isPlain : o.isPlain with
    | true =>
      obtain ⟨calm, others⟩ := plain isPlain
      have told : e'.stirs f' o := (spoken.mp stirred).resolve_left (by rw [calm]; exact Bool.false_ne_true)
      have restSame : e'.prospect l o true rest = e.prospect l o true rest :=
        prospect_congr reading (fun g _ => words g) fun _ => others
      rw [calm, told, reading]
      simp only [Bool.and_false, Bool.false_eq_true, ↓reduceIte, Bool.and_self, List.nil_append, restSame]
    | false =>
      have restSame : e'.prospect l o false rest = e.prospect l o false rest :=
        prospect_congr reading (fun g _ => words g) nofun
      cases first : e'.stirs d o with
      | true =>
        simp only [Bool.and_self, ↓reduceIte, List.nil_append, Bool.false_and, Bool.false_eq_true, restSame, reading]
      | false =>
        have told : e'.stirs f' o := (spoken.mp stirred).resolve_left (by rw [first]; exact Bool.false_ne_true)
        rw [told]
        simp only [Bool.and_false, Bool.false_eq_true, ↓reduceIte, Bool.and_self, List.nil_append, restSame, reading]
  · have calm : e'.stirs d o = false ∧ e'.stirs f' o = false := by
      simpa only [spoken, not_or, Bool.not_eq_true] using stirred
    have restSame : e'.prospect l o true rest = e.prospect l o true rest :=
      prospect_congr reading (fun g _ => words g) fun _ => below stirred
    rw [calm.1, calm.2, Bool.eq_false_iff.mpr stirred]
    simp only [Bool.and_false, Bool.false_eq_true, ↓reduceIte, List.nil_append, restSame]

theorem due_congr (readings : ∀ x, e'.reading x = e.reading x)
    (baseline : ∀ i, o.id? = some i → (e'.cell i).baseline = (e.cell i).baseline) : e'.due o = e.due o := by
  rw [due, due]
  cases named : o.id? with
  | none => rfl
  | some i => simp only [readings, baseline i named]

theorem announces_congr {m : MediaList} (baseline : (e'.cell m.id).baseline = (e.cell m.id).baseline) (f : Frame) :
    e'.announces f m = e.announces f m := by
  have value : e'.lastValue m = e.lastValue m := by rw [lastValue, lastValue, baseline]
  cases f with
  | refresh pending => rw [announces, announces, value]
  | dispatch source event pending failed => rfl
  | call listener source event => rfl

/-- Stirring depends on the readings and on what is known of them, of the nodes of the observable alone. -/
theorem stirs_undisturbed (readings : ∀ x, e'.reading x = e.reading x)
    (baseline : ∀ x ∈ o.nodes, ∀ i, x.id? = some i → (e'.cell i).baseline = (e.cell i).baseline) (f : Frame) :
    e'.stirs f o = e.stirs f o :=
  stirs_congr (fun x node _ => due_congr readings (baseline x node)) (fun _ _ _ _ _ _ => rfl) fun m node =>
    announces_congr (baseline _ node m.id rfl) f

/-- A prospect depends on the readings and on what is known of them, of the nodes of the observable alone. -/
theorem prospect_undisturbed {armed : Bool} {frames : List Frame} (readings : ∀ x, e'.reading x = e.reading x)
    (baseline : ∀ x ∈ o.nodes, ∀ i, x.id? = some i → (e'.cell i).baseline = (e.cell i).baseline) :
    e'.prospect l o armed frames = e.prospect l o armed frames :=
  prospect_congr (readings o) (fun g _ => word_congr readings g) fun _ g _ => stirs_undisturbed readings baseline g

/-- What is stirred is not read off the frames that the engine has. -/
theorem stirs_restaged {frames : List Frame} {failures : Nat} :
    ({ e with frames, failures } : Engine).stirs f o = e.stirs f o := by
  refine stirs_undisturbed ?_ ?_ f
  · exact fun _ => rfl
  · exact fun _ _ _ _ => rfl

/-- What is in prospect is not read off the frames that the engine has. -/
theorem prospect_restaged {armed : Bool} {frames fs : List Frame} {failures : Nat} :
    ({ e with frames, failures } : Engine).prospect l o armed fs = e.prospect l o armed fs :=
  prospect_undisturbed (fun _ => rfl) fun _ _ _ _ => rfl

end Engine

end MediaWatch

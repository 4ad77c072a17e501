import MediaWatch.Proofs.Shortcut.Breakpoint
import MediaWatch.Shortcut.Registry

/-! # Looking shortcuts up after any changes

A registry is changed while it is in use: shortcuts and breakpoints are put in, replaced and taken out under names in
any case, resolvers are registered, and densities are kept from bots or not. However long that goes on, a term is
replaced by what the history says about its token, first by the resolvers, then by the environment, then by the
breakpoints and last by its density.
-/

namespace MediaWatch

/-! ## Histories -/

namespace Registry

/-- What can be done to a registry. -/
inductive Change where
  | addShortcut (name : Text) (shortcut : Shortcut)
  | removeShortcut (name : Text)
  | addBreakpoint (name : Text) (range : Breakpoint)
  | removeBreakpoint (name : Text)
  | setBot (bot : Bool)
  | setIgnoreBots (ignoreBots : Bool)
  | use (resolver : Resolver)

/-- The registry after a change. A breakpoint that is refused changes nothing. -/
def change (r : Registry) : Change → Registry
  | .addShortcut name shortcut => { r with environment := r.environment.add name shortcut }
  | .removeShortcut name => { r with environment := r.environment.remove name }
  | .addBreakpoint name range =>
    match r.breakpoints.add name range with
    | .ok breakpoints => { r with breakpoints }
    | .error _ => r
  | .removeBreakpoint name => { r with breakpoints := r.breakpoints.remove name }
  | .setBot bot => { r with density := { r.density with bot } }
  | .setIgnoreBots ignoreBots => { r with density := { r.density with ignoreBots } }
  | .use resolver => r.use resolver

namespace Change

/-- What a change says about the answer of the resolvers to a token. Only a resolver that answers says anything. -/
def answer? (token : Text) : Change → Option (Option Shortcut)
  | use resolver => (resolver.resolve token).map some
  | _ => none

/-- What a change says about the shortcut under a lower-case name. -/
def shortcut? (token : Text) : Change → Option (Option Shortcut)
  | addShortcut name shortcut => if name.lower = token then some (some shortcut) else none
  | removeShortcut name => if name.lower = token then some none else none
  | _ => none

/-- What a change says about the range under lower-case letters. -/
def range? (letters : Text) : Change → Option (Option Breakpoint)
  | addBreakpoint name range => if name.lower = letters then some (some range) else none
  | removeBreakpoint name => if name.lower = letters then some none else none
  | _ => none

/-- Whether a change says that the agent is a bot. -/
def bot? : Change → Option Bool
  | setBot bot => some bot
  | _ => none

/-- Whether a change says that densities above one are kept from bots. -/
def ignoreBots? : Change → Option Bool
  | setIgnoreBots ignoreBots => some ignoreBots
  | _ => none

end Change

section Told

variable {α : Type}

/-- What was said last. -/
def told? (about : Change → Option α) (history : List Change) : Option α := history.reverse.findSome? about

/-- What was put in last, unless it was taken out since. -/
def kept? (about : Change → Option (Option α)) (history : List Change) : Option α := (told? about history).getD none

private theorem told?_cons (about : Change → Option α) (c : Change) (cs : List Change) :
    told? about (c :: cs) = (told? about cs).or (about c) := by
  rw [told?, told?, List.reverse_cons, List.findSome?_append, List.findSome?_singleton]

private theorem kept?_concat (about : Change → Option (Option α)) (history : List Change) (c : Change) :
    kept? about (history ++ [c]) = (about c).getD (kept? about history) := by
  rw [kept?, told?, List.reverse_concat, List.findSome?_cons]
  cases about c <;> rfl

/-- What a single change says holds after it, and otherwise what held before: then after any changes what was said last
holds, and what held at first if nothing was said. -/
theorem told?_run {about : Change → Option α} (holds : Registry → α)
    (step : ∀ r c, holds (r.change c) = (about c).getD (holds r)) (r : Registry) (cs : List Change) :
    holds (cs.foldl change r) = (told? about cs).getD (holds r) := by
  induction cs generalizing r with
  | nil => rfl
  | cons c cs ih => rw [List.foldl_cons, ih, step, told?_cons, Option.getD_or]

end Told

variable {r : Registry} {c : Change} {cs history : List Change} {token letters : Text}

/-! ## What one change says -/

/-- The answer of the resolvers to a token, of whom the last one is asked first. -/
def answer? (r : Registry) (token : Text) : Option Shortcut := r.custom.findSome? (·.resolve token)

private theorem answer?_change (r : Registry) (c : Change) :
    (r.change c).answer? token = (c.answer? token).getD (r.answer? token) := by
  cases c with
  | addBreakpoint name range =>
    rw [change]
    split <;> rfl
  | use resolver =>
    rw [change, use, answer?, List.findSome?_cons, Change.answer?]
    cases resolver.resolve token <;> rfl
  | _ => rfl

private theorem shortcut?_change (r : Registry) (c : Change) :
    (r.change c).environment.table.find? token = (c.shortcut? token).getD (r.environment.table.find? token) := by
  cases c with
  | addShortcut name shortcut =>
    rw [change, Environment.add, Fields.find?_insert, Change.shortcut?]
    split <;> rfl
  | removeShortcut name =>
    rw [change, Environment.remove, Fields.find?_erase, Change.shortcut?]
    split <;> rfl
  | addBreakpoint name range =>
    rw [change]
    split <;> rfl
  | _ => rfl

/-- A breakpoint whose name is refused is no breakpoint under any letters. -/
theorem range?_change (named : Breakpoints.isName letters) (r : Registry) (c : Change) :
    (r.change c).breakpoints.table.find? letters = (c.range? letters).getD (r.breakpoints.table.find? letters) := by
  cases c with
  | addBreakpoint name range =>
    rw [change, Breakpoints.add, Change.range?]
    by_cases accepted : Breakpoints.isName name.lower
    · rw [if_pos accepted]
      dsimp only
      rw [Fields.find?_insert]
      split <;> rfl
    · have other : name.lower ≠ letters := fun same => accepted (same ▸ named)
      rw [if_neg accepted, if_neg other]
      rfl
  | removeBreakpoint name =>
    rw [change, Breakpoints.remove, Fields.find?_erase, Change.range?]
    split <;> rfl
  | _ => rfl

private theorem bot_change (r : Registry) (c : Change) : (r.change c).density.bot = c.bot?.getD r.density.bot := by
  cases c with
  | addBreakpoint name range =>
    rw [change]
    split <;> rfl
  | _ => rfl

private theorem ignoreBots_change (r : Registry) (c : Change) :
    (r.change c).density.ignoreBots = c.ignoreBots?.getD r.density.ignoreBots := by
  cases c with
  | addBreakpoint name range =>
    rw [change]
    split <;> rfl
  | _ => rfl

/-! ## What a history says -/

/-- A registry that knows nothing yet. -/
def bare : Registry where
  environment := ⟨[]⟩
  breakpoints := ⟨[]⟩
  density := {}

/-- What the usual registry for a device starts with, as changes: its shortcuts, its breakpoints, and whether the agent
is a bot. -/
def usual (d : Device) : List Change :=
  (Environment.ofDevice d).table.map (fun entry => .addShortcut entry.1 entry.2) ++
    (Breakpoints.standard.table.map (fun entry => .addBreakpoint entry.1 entry.2) ++ [.setBot d.bot])

private theorem run_addShortcuts {entries : List (Text × Shortcut)} (small : ∀ entry ∈ entries, entry.1.lower = entry.1)
    (r : Registry) : (entries.map fun entry => Change.addShortcut entry.1 entry.2).foldl change r =
      { r with environment := ⟨Fields.insertAll entries r.environment.table⟩ } := by
  induction entries generalizing r with
  | nil => rfl
  | cons entry rest ih =>
    obtain ⟨first, others⟩ := List.forall_mem_cons.mp small
    rw [List.map_cons, List.foldl_cons, ih others, change, Environment.add, first]
    rfl

private theorem run_addBreakpoints {entries : List (Text × Breakpoint)}
    (small : ∀ entry ∈ entries, entry.1.lower = entry.1 ∧ Breakpoints.isName entry.1) (r : Registry) :
    (entries.map fun entry => Change.addBreakpoint entry.1 entry.2).foldl change r =
      { r with breakpoints := ⟨Fields.insertAll entries r.breakpoints.table⟩ } := by
  induction entries generalizing r with
  | nil => rfl
  | cons entry rest ih =>
    obtain ⟨⟨first, named⟩, others⟩ := List.forall_mem_cons.mp small
    rw [List.map_cons, List.foldl_cons, ih others, change, Breakpoints.add, first, if_pos named]
    rfl

/-- The usual changes make the usual registry. -/
theorem run_usual (d : Device) : (usual d).foldl change bare = ofDevice d := by
  have shortcuts : ∀ entry ∈ (Environment.ofDevice d).table, entry.1.lower = entry.1 := by
    rw [Environment.ofDevice]
    dsimp only
    refine Fields.forall_ofEntries ?_
    simp only [List.forall_mem_cons, List.not_mem_nil, false_implies, implies_true, and_true]
    decide +kernel
  have ranges : ∀ entry ∈ Breakpoints.standard.table, entry.1.lower = entry.1 ∧ Breakpoints.isName entry.1 := by
    decide +kernel
  have environment : Fields.insertAll (Environment.ofDevice d).table [] = (Environment.ofDevice d).table :=
    Fields.ofEntries_sorted (Environment.sorted_ofDevice d)
  have breakpoints : Fields.insertAll Breakpoints.standard.table [] = Breakpoints.standard.table :=
    Fields.ofEntries_sorted Breakpoints.sorted_standard
  rw [usual, List.foldl_append, List.foldl_append, run_addShortcuts shortcuts,
    run_addBreakpoints ranges, bare, environment, breakpoints, ofDevice]
  generalize Environment.ofDevice d = e
  generalize Breakpoints.standard = b
  rfl

/-! ## What a history makes of a token -/

variable {s : Shortcut}

/-- What a history makes a lower-case token stand for: what a resolver answers, the last one first; else what was put
into the environment last under the token and not taken out since; else a side of the range that was put in last under
the token's letters and not taken out since; else what it is as a density. -/
inductive Means (history : List Change) (token : Text) : Shortcut → Prop
  | answer {s : Shortcut} (answered : kept? (Change.answer? token) history = some s) : Means history token s
  | shortcut {s : Shortcut} (declined : kept? (Change.answer? token) history = none)
      (kept : kept? (Change.shortcut? token) history = some s) : Means history token s
  | side {side : Breakpoint.Side} {letters : Text} {range : Breakpoint}
      (declined : kept? (Change.answer? token) history = none)
      (absent : kept? (Change.shortcut? token) history = none)
      (names : side.Names token letters) (kept : kept? (Change.range? letters) history = some range) :
      Means history token (.descriptor (side.query range))
  | density {s : Shortcut} (declined : kept? (Change.answer? token) history = none)
      (absent : kept? (Change.shortcut? token) history = none)
      (unnamed : ∀ (side : Breakpoint.Side) (letters : Text), side.Names token letters →
        kept? (Change.range? letters) history = none)
      (dense : Density.resolve? ⟨(told? Change.bot? history).getD false, (told? Change.ignoreBots? history).getD false⟩
        token = some s) : Means history token s

/-- After any changes to a bare registry, a token stands for what the history makes of it. -/
theorem resolve?_run (small : token.lower = token) :
    (history.foldl change bare).resolve? token = some s ↔ Means history token s := by
  have answer : (history.foldl change bare).answer? token = kept? (Change.answer? token) history :=
    told?_run (·.answer? token) answer?_change _ _
  have shortcut : (history.foldl change bare).environment.get? token = kept? (Change.shortcut? token) history := by
    rw [Environment.get?, small]
    exact told?_run (·.environment.table.find? token) shortcut?_change _ _
  have range {side : Breakpoint.Side} {letters : Text} (names : side.Names token letters) :
      (history.foldl change bare).breakpoints.table.find? letters = kept? (Change.range? letters) history :=
    told?_run (·.breakpoints.table.find? letters) (range?_change names.1) _ _
  have density : (history.foldl change bare).density =
      ⟨(told? Change.bot? history).getD false, (told? Change.ignoreBots? history).getD false⟩ := by
    have bot := told?_run (·.density.bot) bot_change bare history
    have ignoreBots := told?_run (·.density.ignoreBots) ignoreBots_change bare history
    exact congrArg₂ Density.mk bot ignoreBots
  -- From here on the history counts only by these four answers.
  generalize history.foldl change bare = r at *
  have asked : r.resolve? token = (r.answer? token).or ((r.environment.get? token).or
      ((r.breakpoints.resolve? token).or (r.density.resolve? token))) := by
    rw [resolve?, chain, List.findSome?_append]
    simp only [List.findSome?_cons, List.findSome?_nil]
    cases r.environment.get? token <;> cases r.breakpoints.resolve? token <;> cases r.density.resolve? token <;> rfl
  rw [asked, answer, shortcut, density]
  constructor
  · intro resolved
    rcases Option.or_eq_some_iff.mp resolved with answered | ⟨declined, resolved⟩
    · exact .answer answered
    rcases Option.or_eq_some_iff.mp resolved with kept | ⟨absent, resolved⟩
    · exact .shortcut declined kept
    rcases Option.or_eq_some_iff.mp resolved with ranged | ⟨unranged, dense⟩
    · obtain ⟨side, letters, found, names, kept, rfl⟩ := Breakpoints.resolve?_eq_some.mp ranged
      exact .side declined absent names (range names ▸ kept)
    · exact .density declined absent
        (fun side letters names => range names ▸ Breakpoints.resolve?_eq_none.mp unranged side letters names) dense
  · rintro (answered | ⟨declined, kept⟩ | ⟨declined, absent, names, kept⟩ | ⟨declined, absent, unnamed, dense⟩)
    · rw [answered, Option.some_or]
    · rw [declined, kept, Option.none_or, Option.some_or]
    · rw [declined, absent, Breakpoints.resolve?_of_names names, range names, kept]
      rfl
    · have unranged : r.breakpoints.resolve? token = none :=
        Breakpoints.resolve?_eq_none.mpr fun side letters names => range names ▸ unnamed side letters names
      rw [declined, absent, unranged, dense]
      rfl

/-! ## Terms -/

private theorem token?_eq_some {term : Text} :
    token? term = some token ↔ term = '@' :: token ∧ token ≠ [] ∧ ∀ c ∈ token, isTokenChar c := by
  constructor
  · intro found
    rw [token?.eq_def] at found
    split at found
    · obtain ⟨made, same⟩ := Option.ite_none_right_eq_some.mp found
      obtain rfl := Option.some.inj same
      simpa using made
    · contradiction
  · rintro ⟨rfl, some, characters⟩
    exact if_pos (by simpa [some] using characters)

private theorem lower_of_isTokenChar (characters : ∀ c ∈ token, isTokenChar c) :
    (Text.lowerAscii token).lower = Text.lowerAscii token := by
  refine Text.lower_lowerAscii fun c mem => ?_
  have char := characters c mem
  simp only [isTokenChar, Bool.or_eq_true, decide_eq_true_eq] at char
  rcases char with ((alphanumeric | rfl) | rfl) | rfl
  · exact Text.toNat_lt_of_isAlphanum alphanumeric
  all_goals decide

/-- A name in any case can be a token. -/
theorem isTokenChar_of_isName (named : Breakpoints.isName (Text.lowerAscii token)) :
    token ≠ [] ∧ ∀ c ∈ token, isTokenChar c := by
  rw [Breakpoints.isName, Bool.and_eq_true, List.all_eq_true] at named
  constructor
  · rintro rfl
    exact absurd named.1 (by decide)
  · intro c mem
    obtain ⟨low, high⟩ := Breakpoints.isNameChar_iff.mp (named.2 _ (List.mem_map_of_mem mem))
    have letter : c.toLower.isAlphanum := by
      change (decide (65 ≤ c.toLower.toNat ∧ c.toLower.toNat ≤ 90) ||
        decide (97 ≤ c.toLower.toNat) && decide (c.toLower.toNat ≤ 122) ||
        decide (48 ≤ c.toLower.toNat) && decide (c.toLower.toNat ≤ 57)) = true
      simp [low, high]
    rw [isTokenChar, ← Text.isAlphanum_toLower, letter]
    rfl

/-- A shortcut is replaced by what its token in lower case stands for. -/
theorem preprocess_token (some : token ≠ []) (characters : ∀ c ∈ token, isTokenChar c) (r : Registry) :
    r.preprocess ('@' :: token) = ((r.resolve? (Text.lowerAscii token)).map Shortcut.term).getD ('@' :: token) := by
  rw [preprocess, token?_eq_some.mpr ⟨rfl, some, characters⟩]
  dsimp only
  cases r.resolve? (Text.lowerAscii token) <;> rfl

private theorem preprocess_other {term : Text}
    (other : ∀ token, term = '@' :: token → token = [] ∨ ∃ c ∈ token, isTokenChar c = false) (r : Registry) :
    r.preprocess term = term := by
  rw [preprocess]
  cases found : token? term with
  | none => rfl
  | some token =>
    obtain ⟨split, some, characters⟩ := token?_eq_some.mp found
    rcases other token split with none | ⟨c, mem, bad⟩
    · exact absurd none some
    · exact absurd (characters c mem) (bad ▸ Bool.false_ne_true)

private theorem preprocess_run (some : token ≠ []) (characters : ∀ c ∈ token, isTokenChar c) (history : List Change) :
    (∀ s, Means history (Text.lowerAscii token) s → (history.foldl change bare).preprocess ('@' :: token) = s.term) ∧
      ((∀ s, ¬ Means history (Text.lowerAscii token) s) →
        (history.foldl change bare).preprocess ('@' :: token) = '@' :: token) := by
  have small := lower_of_isTokenChar characters
  rw [preprocess_token some characters]
  refine ⟨fun s means => ?_, fun unknown => ?_⟩
  · rw [(resolve?_run small).mpr means]
    rfl
  · rw [Option.eq_none_iff_forall_ne_some.mpr fun s resolved => unknown s ((resolve?_run small).mp resolved)]
    rfl

/-- Without the shortcut of its name a breakpoint is seen. -/
theorem preprocess_uncovered {name : Text} {range : Breakpoint} (lower : name.lower = Text.lowerAscii token)
    (named : Breakpoints.isName name.lower) (declined : kept? (Change.answer? name.lower) history = none)
    (kept : kept? (Change.range? name.lower) history = some range) :
    ((history.foldl change bare).change (.removeShortcut name)).preprocess ('@' :: token) = range.rangeQuery := by
  obtain ⟨some, characters⟩ := isTokenChar_of_isName (lower ▸ named)
  have means : Means (history ++ [Change.removeShortcut name]) name.lower
      (.descriptor (Breakpoint.Side.inside.query range)) := by
    refine .side ?_ ?_ ⟨named, rfl⟩ ?_
    · rw [kept?_concat]
      exact declined
    · rw [kept?_concat, Change.shortcut?, if_pos rfl]
      rfl
    · rw [kept?_concat]
      exact kept
  have seen := (preprocess_run some characters _).1 _ (lower ▸ means)
  rwa [List.foldl_append] at seen

/-- Whatever is done to the usual registry of a device, a term that is no shortcut stays as it is, and a shortcut is
replaced by what the usual entries and then the changes make of its token in lower case; it stays as it is if that is
nothing. In particular a breakpoint is seen again as soon as the shortcut of its name is removed, and a breakpoint
that is refused for its name changes nothing. -/
theorem preprocess_changed (d : Device) (cs : List Change) :
    let r := cs.foldl change (ofDevice d)
    let history := usual d ++ cs
    (∀ term, (∀ token, term = '@' :: token → token = [] ∨ ∃ c ∈ token, isTokenChar c = false) →
      r.preprocess term = term) ∧
    (∀ token, token ≠ [] → (∀ c ∈ token, isTokenChar c) →
      (∀ s, Means history (Text.lowerAscii token) s → r.preprocess ('@' :: token) = s.term) ∧
      ((∀ s, ¬ Means history (Text.lowerAscii token) s) → r.preprocess ('@' :: token) = '@' :: token)) ∧
    (∀ name token range, name.lower = Text.lowerAscii token → Breakpoints.isName name.lower →
      kept? (Change.answer? name.lower) history = none → kept? (Change.range? name.lower) history = some range →
      (r.change (.removeShortcut name)).preprocess ('@' :: token) = range.rangeQuery) ∧
    ∀ name range fault, r.breakpoints.add name range = .error fault → r.change (.addBreakpoint name range) = r := by
  intro r history
  have made : r = history.foldl change bare := by rw [List.foldl_append, run_usual]
  refine ⟨fun term other => preprocess_other other r,
    fun token some characters => made ▸ preprocess_run some characters history,
    fun name token range lower named declined kept => made ▸ preprocess_uncovered lower named declined kept,
    fun name range fault refused => ?_⟩
  rw [change, refused]

/-- A shortcut in front of a breakpoint of the same name, a name that is refused, and a resolver. -/
def crowded : List Change :=
  [.addBreakpoint "Airy".toList ⟨1200, 9000⟩, .addShortcut "AIRY".toList (.constant true),
   .addBreakpoint "air-y".toList ⟨1, 2⟩,
   .use (.exactly "seasons".toList "summer".toList (.descriptor "(hover)".toList))]

theorem preprocess_changed_crowded :
    let r := crowded.foldl change (ofDevice {})
    r.preprocess "airy".toList = "airy".toList ∧
      r.preprocess "@Summer".toList = "(hover)".toList ∧ r.preprocess "@aIRy".toList = "all".toList ∧
      r.preprocess "@+airy".toList = "(min-width: 1200px)".toList ∧
      r.preprocess "@air-y".toList = "@air-y".toList ∧
      (r.change (.removeShortcut "airy".toList)).preprocess "@aIRy".toList =
        "(min-width: 1200px) and (max-width: 9000px)".toList := by
  obtain ⟨other, replaced, uncovered, -⟩ := preprocess_changed {} crowded
  have wide : Breakpoint.Side.wider.Names "+airy".toList "airy".toList := ⟨by decide, rfl⟩
  have unknown : ((usual {} ++ crowded).foldl change bare).resolve? (Text.lowerAscii "air-y".toList) = none := by
    decide +kernel
  refine ⟨other _ fun token same => absurd (congrArg List.head? same) (by simp),
    (replaced "Summer".toList (by decide) (List.all_eq_true.mp (by decide))).1 (.descriptor "(hover)".toList) ?_,
    (replaced "aIRy".toList (by decide) (List.all_eq_true.mp (by decide))).1 (.constant true) ?_,
    (replaced "+airy".toList (by decide) (List.all_eq_true.mp (by decide))).1
      (.descriptor (Breakpoint.Side.wider.query ⟨1200, 9000⟩)) ?_,
    (replaced "air-y".toList (by decide) (List.all_eq_true.mp (by decide))).2 fun s means => ?_,
    uncovered "airy".toList "aIRy".toList ⟨1200, 9000⟩ (by decide) (by decide) (by decide +kernel) (by decide +kernel)⟩
  · exact .answer (by decide +kernel)
  · exact .shortcut (by decide +kernel) (by decide +kernel)
  · exact .side (by decide +kernel) (by decide +kernel) wide (by decide +kernel)
  · exact absurd (unknown.symm.trans ((resolve?_run (by decide)).mpr means)) nofun

end Registry

end MediaWatch

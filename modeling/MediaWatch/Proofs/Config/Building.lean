import Mathlib.Data.List.Lex
import MediaWatch.Config.Reader
import MediaWatch.Proofs.Fixture.Reference
import MediaWatch.Proofs.Text.Bytes

/-! # What a configuration builds

A configuration is built into a registry unless one of its breakpoints is refused; then the first one counts, in the
byte order of the names as they are written. Otherwise the registry has the usual entries, less the removed ones,
under those that are declared. Names that differ in case alone collide in lower case, and the last of them in byte
order counts.
-/

namespace MediaWatch

namespace Config

variable {α : Type} {c : Config} {entry : Text × Breakpoint} {entries : Fields α} {name : Text}
  {value : α} {fault : Fault}

/-! ## What is refused -/

/-- A declared breakpoint is refused because its range is reversed, or else because its name is not made of letters. -/
inductive Refuses : Text × Breakpoint → Fault → Prop
  | reversed {name : Text} {range : Breakpoint} (less : range.max < range.min) :
      Refuses (name, range) (.reversedRange name range.min.toNat range.max.toNat)
  | misnamed {name : Text} {range : Breakpoint} (ordered : range.min ≤ range.max)
      (nameless : Breakpoints.isName name.lower = false) : Refuses (name, range) (.breakpointName name)

def accepts (entry : Text × Breakpoint) : Bool := entry.2.min ≤ entry.2.max && Breakpoints.isName entry.1.lower

private theorem accepts_eq_false : accepts entry = false ↔ ∃ fault, Refuses entry fault := by
  obtain ⟨name, range⟩ := entry
  constructor
  · intro refused
    by_cases ordered : range.min ≤ range.max
    · exact ⟨_, .misnamed ordered (by simpa [accepts, ordered] using refused)⟩
    · exact ⟨_, .reversed (UInt32.not_le.mp ordered)⟩
  · rintro ⟨fault, less | ⟨ordered, nameless⟩⟩
    · simp [accepts, UInt32.not_le.mpr less]
    · simp [accepts, nameless]

private theorem addBreakpoint_of_accepts (accepted : accepts entry) (b : Breakpoints) :
    addBreakpoint b entry = .ok ⟨b.table.insert entry.1.lower entry.2⟩ := by
  rw [accepts, Bool.and_eq_true, decide_eq_true_eq] at accepted
  rw [addBreakpoint, if_neg (UInt32.not_lt.mpr accepted.1), Breakpoints.add, if_pos accepted.2]

private theorem addBreakpoint_of_refuses (refuses : Refuses entry fault) (b : Breakpoints) :
    addBreakpoint b entry = .error fault := by
  cases refuses with
  | reversed less => exact if_pos less
  | misnamed ordered nameless =>
    rw [addBreakpoint, if_neg (UInt32.not_lt.mpr ordered), Breakpoints.add, nameless]
    rfl

/-! ## What is declared -/

/-- Fields with entries put in one by one under their names in lower case. -/
def overlaid (entries base : Fields α) : Fields α :=
  entries.foldl (fun fields entry => fields.insert entry.1.lower entry.2) base

/-- What declared entries say about a name in lower case: of those whose names become it, the one whose name as written
comes last by its bytes. -/
def Declares (entries : Fields α) (name : Text) (value : α) : Prop :=
  ∃ key, (key, value) ∈ entries ∧ key.lower = name ∧
    ∀ other ∈ entries, other.1.lower = name → ¬ key.bytes < other.1.bytes

private theorem overlaid_concat (entries base : Fields α) (last : Text × α) :
    overlaid (entries ++ [last]) base = (overlaid entries base).insert last.1.lower last.2 := List.foldl_concat ..

private theorem sorted_overlaid {base : Fields α} (sorted : base.Sorted) : (overlaid entries base).Sorted := by
  induction entries generalizing base with
  | nil => exact sorted
  | cons entry rest ih => exact ih (Fields.sorted_insert _ _ sorted)

/-- The last entry in byte order says what its name in lower case stands for. -/
theorem declares_concat {last : Text × α} (later : ∀ entry ∈ entries, entry.1 < last.1) :
    Declares (entries ++ [last]) name value ↔
      if last.1.lower = name then last.2 = value else Declares entries name value := by
  have bytes : ∀ entry ∈ entries, entry.1.bytes < last.1.bytes := fun entry mem => Text.bytes_lt (later entry mem)
  constructor
  · rintro ⟨key, mem, lower, greatest⟩
    split
    · next same =>
      rcases List.mem_append.mp mem with mem | mem
      · exact absurd (bytes _ mem) (greatest last (List.mem_append_right _ List.mem_cons_self) same)
      · obtain rfl := List.mem_singleton.mp mem
        rfl
    · next other =>
      rcases List.mem_append.mp mem with mem | mem
      · exact ⟨key, mem, lower, fun entry among => greatest entry (List.mem_append_left _ among)⟩
      · obtain rfl := List.mem_singleton.mp mem
        exact absurd lower other
  · intro declared
    split at declared
    · next same =>
      subst declared
      refine ⟨last.1, List.mem_append_right _ List.mem_cons_self, same, fun entry mem _ => ?_⟩
      rcases List.mem_append.mp mem with mem | mem
      · exact List.lt_asymm (bytes entry mem)
      · obtain rfl := List.mem_singleton.mp mem
        exact List.lt_irrefl _
    · next other =>
      obtain ⟨key, mem, lower, greatest⟩ := declared
      refine ⟨key, List.mem_append_left _ mem, lower, fun entry among same => ?_⟩
      rcases List.mem_append.mp among with among | among
      · exact greatest entry among same
      · obtain rfl := List.mem_singleton.mp among
        exact absurd same other

/-- Declared entries are found in front of those that were there. -/
theorem find?_overlaid (sorted : Fields.Sorted entries) (name : Text) (base : Fields α) (value : α) :
    (overlaid entries base).find? name = some value ↔
      Declares entries name value ∨ (∀ entry ∈ entries, entry.1.lower ≠ name) ∧ base.find? name = some value := by
  -- From the back: the last entry in byte order covers those in front of it that collide with it.
  induction entries using List.reverseRecOn with
  | nil => simp [overlaid, Declares]
  | append_singleton entries last ih =>
    obtain ⟨before, -, later⟩ := List.pairwise_append.mp sorted
    rw [overlaid_concat, Fields.find?_insert, declares_concat fun entry mem => later entry mem last List.mem_cons_self,
      List.forall_mem_append]
    by_cases same : last.1.lower = name
    · simp [same]
    · simpa [same] using ih before

/-! ## Building -/

private theorem foldlM_addBreakpoint {declared : List (Text × Breakpoint)}
    (accepted : ∀ entry ∈ declared, accepts entry)
    (b : Breakpoints) : declared.foldlM addBreakpoint b = .ok ⟨overlaid declared b.table⟩ := by
  induction declared generalizing b with
  | nil => rfl
  | cons entry rest ih =>
    obtain ⟨first, others⟩ := List.forall_mem_cons.mp accepted
    rw [List.foldlM_cons, addBreakpoint_of_accepts first]
    exact ih others _

/-- The first breakpoint that is refused counts. -/
theorem foldlM_addBreakpoint_of_refuses
    {earlier : List (Text × Breakpoint)} (accepted : ∀ entry ∈ earlier, accepts entry)
    (refuses : Refuses entry fault) (later : List (Text × Breakpoint)) (b : Breakpoints) :
    (earlier ++ entry :: later).foldlM addBreakpoint b = .error fault := by
  rw [List.foldlM_append, foldlM_addBreakpoint accepted]
  change (entry :: later).foldlM addBreakpoint _ = _
  rw [List.foldlM_cons, addBreakpoint_of_refuses refuses]
  rfl

end Config

/-! ## Entries as they are shown -/

namespace Breakpoints

variable {b : Breakpoints}

private theorem mem_entries {entry : Text × Breakpoint} : entry ∈ b.entries ↔ entry ∈ b.table :=
  (List.mergeSort_perm b.table precedes).mem_iff

private theorem precedes_iff {x y : Text × Breakpoint} :
    precedes x y ↔ x.2.min < y.2.min ∨ x.2.min = y.2.min ∧ ¬ y.1 < x.1 := by
  simp only [precedes, Bool.or_eq_true, Bool.and_eq_true, decide_eq_true_eq, beq_iff_eq, Bool.not_eq_true',
    decide_eq_false_iff_not]

private theorem precedes_trans (x y z : Text × Breakpoint) (first : precedes x y)
    (second : precedes y z) : precedes x z := by
  rw [precedes_iff] at *
  rcases first with less | ⟨same, before⟩ <;> rcases second with more | ⟨equal, behind⟩
  · exact .inl (UInt32.lt_trans less more)
  · exact .inl (equal ▸ less)
  · exact .inl (same ▸ more)
  · have between := List.le_trans (List.not_lt.mp before) (List.not_lt.mp behind)
    exact .inr ⟨same.trans equal, List.not_lt.mpr between⟩

private theorem precedes_total (x y : Text × Breakpoint) : precedes x y || precedes y x := by
  rw [Bool.or_eq_true, precedes_iff, precedes_iff]
  by_cases same : x.2.min = y.2.min
  · exact (List.le_total x.1 y.1).imp (fun le => .inr ⟨same, List.not_lt.mpr le⟩) fun le =>
      .inr ⟨same.symm, List.not_lt.mpr le⟩
  · exact (UInt32.lt_or_lt_of_ne same).imp .inl .inl

/-- Breakpoints are shown by their lower bounds and then by their names. -/
theorem pairwise_entries (sorted : b.table.Sorted) :
    b.entries.Pairwise fun x y => x.2.min < y.2.min ∨ x.2.min = y.2.min ∧ x.1.bytes < y.1.bytes := by
  have distinct : b.entries.Pairwise fun x y => x.1 ≠ y.1 := by
    refine ((List.mergeSort_perm b.table precedes).pairwise_iff fun differ => Ne.symm differ).mpr ?_
    refine sorted.imp fun {x y} before => ?_
    have less : x.1 < y.1 := before
    exact fun same => List.lt_irrefl y.1 (same ▸ less)
  have ordered := List.pairwise_mergeSort precedes_trans precedes_total b.table
  refine ordered.imp₂ (fun x y before differ => ?_) distinct
  exact (precedes_iff.mp before).imp_right fun ⟨same, later⟩ =>
    ⟨same, Text.bytes_lt (Fields.lt_of_not_lt differ later)⟩

end Breakpoints

namespace Config

variable {c : Config} {name : Text} {range : Breakpoint}

private theorem find?_removed (removed : List Text) (b : Breakpoints) :
    (removed.foldl Breakpoints.remove b).table.find? name = some range ↔
      (∀ gone ∈ removed, gone.lower ≠ name) ∧ b.table.find? name = some range := by
  induction removed generalizing b with
  | nil => simp
  | cons gone rest ih =>
    rw [List.foldl_cons, ih, Breakpoints.remove, Fields.find?_erase, List.forall_mem_cons]
    by_cases same : gone.lower = name <;> simp [same]

private theorem sorted_removed {removed : List Text} {b : Breakpoints} (sorted : b.table.Sorted) :
    (removed.foldl Breakpoints.remove b).table.Sorted := by
  induction removed generalizing b with
  | nil => exact sorted
  | cons gone rest ih => exact ih (Fields.sorted_erase _ sorted)

private theorem foldl_add (declared : List (Text × Shortcut)) (e : Environment) :
    declared.foldl (fun e entry => e.add entry.1 entry.2) e = ⟨overlaid declared e.table⟩ := by
  induction declared generalizing e with
  | nil => rfl
  | cons entry rest ih => exact ih _

/-- A configuration is built if all its breakpoints are accepted. -/
theorem build_of_accepts (accepted : ∀ entry ∈ c.breakpoints, accepts entry) :
    c.build = .ok { Registry.ofDevice c.device with
      breakpoints := ⟨overlaid c.breakpoints (c.removed.foldl Breakpoints.remove .standard).table⟩
      environment := ⟨overlaid c.environment (Environment.ofDevice c.device).table⟩
      density := { bot := c.device.bot, ignoreBots := c.ignoreBots } } := by
  have built := foldlM_addBreakpoint accepted (c.removed.foldl Breakpoints.remove .standard)
  rw [build, foldl_add]
  change (c.breakpoints.foldlM addBreakpoint (c.removed.foldl Breakpoints.remove .standard) >>= _) = _
  rw [built]
  rfl

private theorem build_of_refuses {earlier later : List (Text × Breakpoint)} {entry : Text × Breakpoint} {fault : Fault}
    (split : c.breakpoints = earlier ++ entry :: later) (accepted : ∀ other ∈ earlier, accepts other)
    (refuses : Refuses entry fault) : c.build = .error fault := by
  have failed :=
    foldlM_addBreakpoint_of_refuses accepted refuses later (c.removed.foldl Breakpoints.remove .standard)
  rw [build, split]
  change ((earlier ++ entry :: later).foldlM addBreakpoint (c.removed.foldl Breakpoints.remove .standard) >>= _) = _
  rw [failed]
  rfl

/-- Either all breakpoints are accepted, or one is the first that is refused. -/
theorem accepts_or_refuses (declared : List (Text × Breakpoint)) : (∀ entry ∈ declared, accepts entry) ∨
    ∃ earlier entry later fault, declared = earlier ++ entry :: later ∧ (∀ other ∈ earlier, accepts other) ∧
      Refuses entry fault := by
  induction declared with
  | nil => exact .inl (List.forall_mem_nil _)
  | cons entry rest ih =>
    cases first : accepts entry with
    | false =>
      obtain ⟨fault, refuses⟩ := accepts_eq_false.mp first
      exact .inr ⟨[], entry, rest, fault, rfl, List.forall_mem_nil _, refuses⟩
    | true =>
      rcases ih with all | ⟨earlier, refused, later, fault, rfl, accepted, refuses⟩
      · exact .inl (List.forall_mem_cons.mpr ⟨first, all⟩)
      · exact .inr ⟨entry :: earlier, refused, later, fault, rfl, List.forall_mem_cons.mpr ⟨first, accepted⟩, refuses⟩

private theorem not_refuses_of_accepts {entry : Text × Breakpoint} (accepted : accepts entry) (fault : Fault) :
    ¬ Refuses entry fault :=
  fun refuses => Bool.noConfusion ((accepts_eq_false.mpr ⟨fault, refuses⟩).symm.trans accepted)

/-- Building fails with the fault of the first breakpoint in byte order that is refused. -/
theorem build_eq_error (sorted : c.breakpoints.Sorted) {fault : Fault} : c.build = .error fault ↔
    ∃ entry ∈ c.breakpoints, Refuses entry fault ∧
      ∀ other ∈ c.breakpoints, other.1.bytes < entry.1.bytes → ∀ fault, ¬ Refuses other fault := by
  rcases accepts_or_refuses c.breakpoints with all | ⟨earlier, entry, later, first, split, accepted, refuses⟩
  · rw [build_of_accepts all]
    constructor
    · nofun
    · rintro ⟨entry, mem, refuses, -⟩
      exact absurd refuses (not_refuses_of_accepts (all entry mem) fault)
  have inOrder : ∀ other ∈ later, entry.1.bytes < other.1.bytes := fun other mem =>
    Text.bytes_lt ((List.pairwise_cons.mp (List.pairwise_append.mp (split ▸ sorted)).2.1).1 other mem)
  rw [build_of_refuses split accepted refuses, split]
  constructor
  · rintro ⟨⟩
    refine ⟨entry, List.mem_append_right _ List.mem_cons_self, refuses, fun other mem less => ?_⟩
    rcases List.mem_append.mp mem with mem | mem
    · exact not_refuses_of_accepts (accepted other mem)
    rcases List.mem_cons.mp mem with rfl | mem
    · exact absurd less (List.lt_irrefl _)
    · exact absurd less (List.lt_asymm (inOrder other mem))
  · rintro ⟨other, mem, refused, least⟩
    rcases List.mem_append.mp mem with mem | mem
    · exact absurd refused (not_refuses_of_accepts (accepted other mem) fault)
    rcases List.mem_cons.mp mem with rfl | mem
    · cases (addBreakpoint_of_refuses refuses .standard).symm.trans (addBreakpoint_of_refuses refused .standard)
      rfl
    · exact absurd refuses (least entry (List.mem_append_right _ List.mem_cons_self) (inOrder other mem) first)

/-- What a configuration with its entries in order builds. It fails exactly if a breakpoint is refused, with the fault
of the first one in byte order. Otherwise the breakpoints that are shown are the declared ones under their names in
lower case and, where none is declared, the usual ones that are not removed, by lower bound and then by name; the
shortcuts that are shown are the declared ones and, where none is declared, those of the device, by name. -/
theorem build_declares (breakpoints : c.breakpoints.Sorted) (environment : c.environment.Sorted) :
    ((∃ fault, c.build = .error fault) ↔ ∃ entry ∈ c.breakpoints, ∃ fault, Refuses entry fault) ∧
    (∀ fault, c.build = .error fault ↔ ∃ entry ∈ c.breakpoints, Refuses entry fault ∧
      ∀ other ∈ c.breakpoints, other.1.bytes < entry.1.bytes → ∀ fault, ¬ Refuses other fault) ∧
    ∀ r, c.build = .ok r →
      (∀ name range, (name, range) ∈ r.breakpoints.entries ↔ Declares c.breakpoints name range ∨
        (∀ entry ∈ c.breakpoints, entry.1.lower ≠ name) ∧ (∀ gone ∈ c.removed, gone.lower ≠ name) ∧
          (name, range) ∈ Breakpoints.standard.entries) ∧
      r.breakpoints.entries.Pairwise (fun x y => x.2.min < y.2.min ∨ x.2.min = y.2.min ∧ x.1.bytes < y.1.bytes) ∧
      (∀ name s, (name, s) ∈ r.environment.entries ↔ Declares c.environment name s ∨
        (∀ entry ∈ c.environment, entry.1.lower ≠ name) ∧ (name, s) ∈ (Environment.ofDevice c.device).entries) ∧
      r.environment.entries.Pairwise (fun x y => x.1.bytes < y.1.bytes) := by
  refine ⟨⟨?_, ?_⟩, fun fault => build_eq_error breakpoints, fun r built => ?_⟩
  · rintro ⟨fault, failed⟩
    obtain ⟨entry, mem, refuses, -⟩ := (build_eq_error breakpoints).mp failed
    exact ⟨entry, mem, fault, refuses⟩
  · rintro ⟨entry, mem, fault, refuses⟩
    rcases accepts_or_refuses c.breakpoints with all | ⟨earlier, first, later, fault, split, accepted, refuses⟩
    · exact absurd refuses (not_refuses_of_accepts (all entry mem) fault)
    · exact ⟨fault, build_of_refuses split accepted refuses⟩
  have accepted : ∀ entry ∈ c.breakpoints, accepts entry := by
    rcases accepts_or_refuses c.breakpoints with all | ⟨earlier, first, later, fault, split, accepted, refuses⟩
    · exact all
    · rw [build_of_refuses split accepted refuses] at built
      contradiction
  rw [build_of_accepts accepted] at built
  obtain rfl := Except.ok.inj built
  have ranges : (overlaid c.breakpoints (c.removed.foldl Breakpoints.remove .standard).table).Sorted :=
    sorted_overlaid (sorted_removed Breakpoints.sorted_standard)
  have shortcuts : (overlaid c.environment (Environment.ofDevice c.device).table).Sorted :=
    sorted_overlaid (Environment.sorted_ofDevice c.device)
  refine ⟨fun name range => ?_, Breakpoints.pairwise_entries ranges, fun name s => ?_, shortcuts.imp Text.bytes_lt⟩
  · rw [Breakpoints.mem_entries, Breakpoints.mem_entries, ← Fields.find?_eq_some ranges,
      find?_overlaid breakpoints, find?_removed, Fields.find?_eq_some Breakpoints.sorted_standard]
  · exact (Fields.find?_eq_some shortcuts).symm.trans ((find?_overlaid environment _ _ _).trans
      (or_congr_right (and_congr_right fun _ => Fields.find?_eq_some (Environment.sorted_ofDevice c.device))))

/-- Names that are the same in lower case, one of them the name of a usual breakpoint, and a
usual breakpoint removed. -/
def clashing : Config where
  breakpoints := .ofEntries [("md".toList, ⟨900, 950⟩), ("MD".toList, ⟨7, 6000⟩), ("Airy".toList, ⟨2000, 3000⟩)]
  removed := ["XS".toList, "XL".toList]
  environment := .ofEntries [("TOUCH".toList, .constant true)]

/-- Two breakpoints that are refused, the first of them for its range and its name. -/
def faulty : Config where
  breakpoints := .ofEntries [("x-2".toList, ⟨1, 2⟩), ("Wide!".toList, ⟨10, 9⟩)]

theorem build_declares_clashing :
    (∃ r, clashing.build = .ok r ∧ ("md".toList, ⟨900, 950⟩) ∈ r.breakpoints.entries ∧
      (∀ range, ("xs".toList, range) ∉ r.breakpoints.entries) ∧ ("sm".toList, ⟨768, 991⟩) ∈ r.breakpoints.entries ∧
      ("touch".toList, .constant true) ∈ r.environment.entries) ∧
    faulty.build = .error (.reversedRange "Wide!".toList 10 9) := by
  obtain ⟨fails, -, shown⟩ :=
    build_declares (c := clashing) (Fields.sorted_ofEntries _) (Fields.sorted_ofEntries _)
  obtain ⟨-, first, -⟩ := build_declares (c := faulty) (Fields.sorted_ofEntries _) List.Pairwise.nil
  constructor
  · have accepted : ∀ entry ∈ clashing.breakpoints, accepts entry := by decide +kernel
    cases built : clashing.build with
    | error fault =>
      obtain ⟨entry, mem, fault, refuses⟩ := fails.mp ⟨fault, built⟩
      exact absurd refuses (not_refuses_of_accepts (accepted entry mem) fault)
    | ok r =>
      obtain ⟨ranges, -, shortcuts, -⟩ := shown r built
      refine ⟨r, rfl, (ranges _ _).mpr (.inl ?_), fun range => mt (ranges _ _).mp ?_, (ranges _ _).mpr (.inr ?_),
        (shortcuts _ _).mpr (.inl ?_)⟩
      · exact ⟨"md".toList, by decide +kernel⟩
      · rintro (⟨key, mem, lower, -⟩ | ⟨-, kept, -⟩)
        · have other : ∀ entry ∈ clashing.breakpoints, entry.1.lower ≠ "xs".toList := by decide +kernel
          exact other _ mem lower
        · exact kept "XS".toList (by decide) (by decide)
      · exact ⟨by decide +kernel, by decide +kernel, Breakpoints.mem_entries.mpr (by decide +kernel)⟩
      · exact ⟨"TOUCH".toList, by decide +kernel⟩
  · refine (first _).mpr ⟨("Wide!".toList, ⟨10, 9⟩), by decide +kernel, .reversed (by decide), fun other mem less => ?_⟩
    have none : ∀ other ∈ faulty.breakpoints, ¬ other.1.bytes < Text.bytes "Wide!".toList := by decide +kernel
    exact absurd less (none other mem)

/-- Entries that are read from a field, or none, are in order. -/
theorem sorted_of_fieldOr {α : Type} {fields : Fields Value} {key : String}
    {read : Value → Option α} {entries : Fields α}
    (found : Value.fieldOr fields key [] (Value.entries? read) = some entries) : entries.Sorted := by
  rw [Value.fieldOr] at found
  split at found
  · exact Fixture.sorted_entries found
  · obtain rfl := Option.some.inj found
    exact List.Pairwise.nil

/-- The entries of a configuration that is read are in order. -/
theorem sorted_ofValue? {dialect : Dialect} {value : Value} (found : ofValue? dialect value = some c) :
    c.breakpoints.Sorted ∧ c.environment.Sorted := by
  simp only [ofValue?, Option.bind_eq_bind, Option.bind_eq_some_iff] at found
  obtain ⟨fields, -, breakpoints, ranges, removed, -, environment, shortcuts, userAgent, -, touch,
    -, ignoreBots, -, made⟩ := found
  obtain rfl := Option.some.inj made
  exact ⟨sorted_of_fieldOr ranges, sorted_of_fieldOr shortcuts⟩

end Config

end MediaWatch

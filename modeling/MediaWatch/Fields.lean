import MediaWatch.Text.Basic

/-! # Fields

A finite map from names to values, kept as a list in ascending order of its names, each name once.
Names are ordered character by character, which is also the order of their UTF-8 bytes.
-/

namespace MediaWatch

/-- Named values in ascending order of their names. -/
abbrev Fields (α : Type) := List (Text × α)

namespace Fields

variable {α : Type}

def find? (name : Text) : Fields α → Option α
  | [] => none
  | (key, value) :: rest => if key = name then some value else find? name rest

/-- The fields with `value` under `name`, whether or not the name was there. -/
def insert (name : Text) (value : α) : Fields α → Fields α
  | [] => [(name, value)]
  | (key, old) :: rest =>
    if key = name then (name, value) :: rest
    else if name < key then (name, value) :: (key, old) :: rest
    else (key, old) :: insert name value rest

def erase (name : Text) : Fields α → Fields α
  | [] => []
  | (key, value) :: rest =>
    if key = name then erase name rest else (key, value) :: erase name rest

/-- The fields `base` with every entry of a list put in, in order, so that the last one counts. -/
def insertAll (entries : List (Text × α)) (base : Fields α) : Fields α :=
  entries.foldl (fun fields entry => fields.insert entry.1 entry.2) base

/-- The fields of a list of entries, of which the last one under a name counts. -/
def ofEntries (entries : List (Text × α)) : Fields α := insertAll entries []

/-- The names are in strictly ascending order. -/
def Sorted (fields : Fields α) : Prop := fields.Pairwise (·.1 < ·.1)

theorem find?_insert (name other : Text) (value : α) (fields : Fields α) :
    find? other (insert name value fields) = if name = other then some value else find? other fields := by
  induction fields with
  | nil => simp [insert, find?]
  | cons head rest ih =>
    obtain ⟨key, old⟩ := head
    rw [insert]
    split
    · next same => subst same; simp only [find?]; split <;> rfl
    · split
      · simp [find?]
      · next distinct _ =>
        simp only [find?, ih]
        split
        · next same => subst same; rw [if_neg (Ne.symm distinct)]
        · rfl

theorem find?_erase (name other : Text) (fields : Fields α) :
    find? other (erase name fields) = if name = other then none else find? other fields := by
  induction fields with
  | nil => simp [erase, find?]
  | cons head rest ih =>
    obtain ⟨key, old⟩ := head
    rw [erase]
    split
    · next same => subst same; simp only [find?, ih]; split <;> rfl
    · next distinct =>
      simp only [find?, ih]
      split
      · next same => subst same; rw [if_neg (Ne.symm distinct)]
      · rfl

/-- What is found under a name is an entry. -/
theorem mem_of_find? {name : Text} {value : α} {fields : Fields α} (found : find? name fields = some value) :
    (name, value) ∈ fields := by
  induction fields with
  | nil => contradiction
  | cons head rest ih =>
    obtain ⟨key, old⟩ := head
    rw [find?] at found
    split at found
    · next same =>
      obtain rfl := Option.some.inj found
      exact same ▸ List.mem_cons_self
    · exact List.mem_cons_of_mem _ (ih found)

/-- An entry of the fields with a value put in is that value's entry or was there before. -/
theorem mem_insert {name : Text} {value : α} {fields : Fields α} {entry : Text × α}
    (mem : entry ∈ insert name value fields) : entry = (name, value) ∨ entry ∈ fields := by
  induction fields with
  | nil => simpa [insert] using mem
  | cons head rest ih =>
    obtain ⟨key, old⟩ := head
    rw [insert] at mem
    split at mem
    · rcases List.mem_cons.mp mem with rfl | mem
      · exact .inl rfl
      · exact .inr (List.mem_cons_of_mem _ mem)
    · split at mem
      · exact List.mem_cons.mp mem
      · rcases List.mem_cons.mp mem with rfl | mem
        · exact .inr List.mem_cons_self
        · exact (ih mem).imp_right (List.mem_cons_of_mem _)

/-- Of two names that differ, one stands before the other. -/
theorem lt_of_not_lt {s t : Text} (distinct : s ≠ t) (notBefore : ¬ t < s) : s < t := by
  rcases Decidable.em (s < t) with before | after
  · exact before
  · exact absurd (List.le_antisymm (List.not_lt.mp notBefore) (List.not_lt.mp after)) distinct

theorem sorted_insert (name : Text) (value : α) {fields : Fields α} (sorted : Sorted fields) :
    Sorted (insert name value fields) := by
  induction fields with
  | nil => simp [insert, Sorted]
  | cons head rest ih =>
    obtain ⟨key, old⟩ := head
    obtain ⟨first, later⟩ := List.pairwise_cons.mp sorted
    rw [insert]
    split
    · next same => subst same; exact List.pairwise_cons.mpr ⟨first, later⟩
    · next distinct =>
      split
      · next before =>
        refine List.pairwise_cons.mpr ⟨fun entry mem => ?_, sorted⟩
        rcases List.mem_cons.mp mem with rfl | mem
        · exact before
        · exact List.lt_trans before (first entry mem)
      · next notBefore =>
        refine List.pairwise_cons.mpr ⟨fun entry mem => ?_, ih later⟩
        rcases mem_insert mem with rfl | mem
        · exact lt_of_not_lt distinct notBefore
        · exact first entry mem

theorem sorted_insertAll (entries : List (Text × α)) {base : Fields α} (sorted : Sorted base) :
    Sorted (insertAll entries base) := by
  induction entries generalizing base with
  | nil => exact sorted
  | cons entry rest ih => exact ih (sorted_insert entry.1 entry.2 sorted)

/-- Of fields put into others, those put in are found first. -/
theorem find?_insertAll {entries : Fields α} (sorted : Sorted entries) (name : Text) (base : Fields α) :
    find? name (insertAll entries base) = (find? name entries).or (find? name base) := by
  induction entries generalizing base with
  | nil => rfl
  | cons entry rest ih =>
    obtain ⟨first, later⟩ := List.pairwise_cons.mp sorted
    rw [insertAll, List.foldl_cons, ← insertAll, ih later, find?_insert, find?]
    by_cases same : entry.1 = name
    · have absent : find? name rest = none := by
        refine Option.eq_none_iff_forall_not_mem.mpr fun value found => ?_
        have before : entry.1 < name := first (name, value) (mem_of_find? found)
        exact absurd (same ▸ before) (List.lt_irrefl name)
      rw [absent, if_pos same, if_pos same]
      rfl
    · rw [if_neg same, if_neg same]

/-- Fields made of any entries are in order. -/
theorem sorted_ofEntries (entries : List (Text × α)) : Sorted (ofEntries entries) :=
  sorted_insertAll entries List.Pairwise.nil

/-- What holds of all entries holds of the fields that are made of them. -/
theorem forall_ofEntries {P : Text × α → Prop} {entries : List (Text × α)} (all : ∀ entry ∈ entries, P entry) :
    ∀ entry ∈ ofEntries entries, P entry := by
  have onto (base : Fields α) : (∀ entry ∈ base, P entry) → ∀ entry ∈ insertAll entries base, P entry := by
    induction entries generalizing base with
    | nil => exact id
    | cons head rest ih =>
      obtain ⟨first, others⟩ := List.forall_mem_cons.mp all
      refine fun old => ih others _ fun entry mem => ?_
      rcases mem_insert mem with rfl | mem
      · exact first
      · exact old entry mem
  exact onto [] (List.forall_mem_nil _)

section Order

variable {name : Text} {value : α} {fields base : Fields α}

/-- A name that comes after all others is put in at the end. -/
theorem insert_last (later : ∀ entry ∈ base, entry.1 < name) (value : α) :
    insert name value base = base ++ [(name, value)] := by
  induction base with
  | nil => rfl
  | cons entry rest ih =>
    obtain ⟨first, others⟩ := List.forall_mem_cons.mp later
    have distinct : entry.1 ≠ name := fun same => List.lt_irrefl name (same ▸ first)
    rw [insert, if_neg distinct, if_neg (List.lt_asymm first), ih others]
    rfl

/-- Fields put in one by one are the fields. -/
theorem ofEntries_sorted (sorted : Sorted fields) : ofEntries fields = fields := by
  have onto (base : Fields α) : Sorted (base ++ fields) → insertAll fields base = base ++ fields := by
    induction fields generalizing base with
    | nil => exact fun _ => (List.append_nil base).symm
    | cons entry rest ih =>
      intro all
      have later : ∀ old ∈ base, old.1 < entry.1 := fun old mem =>
        (List.pairwise_append.mp all).2.2 old mem entry List.mem_cons_self
      rw [List.append_cons] at all ⊢
      rw [insertAll, List.foldl_cons, insert_last later]
      exact ih (List.pairwise_cons.mp sorted).2 _ all
  exact onto [] sorted

theorem erase_sublist (name : Text) (fields : Fields α) : (erase name fields).Sublist fields := by
  induction fields with
  | nil => exact List.Sublist.refl _
  | cons head rest ih =>
    obtain ⟨key, old⟩ := head
    rw [erase]
    split
    · exact ih.trans (List.sublist_cons_self _ rest)
    · exact ih.cons_cons _

theorem sorted_erase (name : Text) (sorted : Sorted fields) : Sorted (erase name fields) :=
  List.Pairwise.sublist (erase_sublist name fields) sorted

/-- No name stands twice. -/
def Distinct (fields : Fields α) : Prop := (fields.map (·.1)).Nodup

instance : Decidable (Distinct fields) := inferInstanceAs (Decidable (List.Nodup _))

theorem Sorted.distinct (sorted : Sorted fields) : Distinct fields := by
  refine List.pairwise_map.mpr (List.Pairwise.imp (fun {a b} before (same : a.1 = b.1) => ?_) sorted)
  rw [same] at before
  exact List.lt_irrefl _ before

/-- If no name stands twice, an entry is what is found under its name. -/
theorem Distinct.find?_eq_some (distinct : Distinct fields) :
    find? name fields = some value ↔ (name, value) ∈ fields := by
  refine ⟨mem_of_find?, fun mem => ?_⟩
  induction fields with
  | nil => contradiction
  | cons head rest ih =>
    obtain ⟨first, later⟩ := List.nodup_cons.mp distinct
    rw [find?]
    rcases List.mem_cons.mp mem with rfl | mem
    · exact if_pos rfl
    · have other : head.1 ≠ name := fun same => first (List.mem_map.mpr ⟨_, mem, same.symm⟩)
      rw [if_neg other, ih later mem]

/-- In order, an entry is what is found under its name. -/
theorem find?_eq_some (sorted : Sorted fields) : find? name fields = some value ↔ (name, value) ∈ fields :=
  sorted.distinct.find?_eq_some

end Order

end Fields

end MediaWatch

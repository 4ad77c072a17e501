import MediaWatch.Proofs.Decimal.Equality
import MediaWatch.Value.Basic

/-! # Agreement of values

A value that a fixture expects is compared with one that was found up to the kind of numbers, and up to the order of
the names of an object. The comparison goes through the names of the first object alone; since no name stands twice in
an object, equally many names make up for the other half. So it is equality of what the two come to.
-/

namespace MediaWatch

namespace Fields

variable {α : Type} {name : Text} {value : α} {fields others : Fields α}

private theorem perm_insert (new : name ∉ fields.map (·.1)) :
    (insert name value fields).Perm ((name, value) :: fields) := by
  induction fields with
  | nil => exact .refl _
  | cons head rest ih =>
    rw [List.map_cons, List.mem_cons, not_or] at new
    obtain ⟨other, later⟩ := new
    rw [insert, if_neg (Ne.symm other)]
    split
    · exact .refl _
    · exact ((ih later).cons head).trans (.swap _ _ rest)

private theorem Distinct.of_perm (distinct : Distinct fields) (perm : others.Perm fields) : Distinct others :=
  (perm.map _).nodup_iff.mpr distinct

private theorem perm_insertAll {base : Fields α} (distinct : Distinct (base ++ fields)) :
    (insertAll fields base).Perm (base ++ fields) := by
  induction fields generalizing base with
  | nil =>
    rw [List.append_nil]
    exact .refl base
  | cons head rest ih =>
    have new : head.1 ∉ base.map (·.1) := by
      rw [Distinct, List.map_append, List.map_cons, List.nodup_middle, List.nodup_cons,
        List.mem_append, not_or] at distinct
      exact distinct.1.1
    have moved : (insert head.1 head.2 base ++ rest).Perm (base ++ head :: rest) :=
      ((perm_insert new).append_right rest).trans List.perm_middle.symm
    exact (ih (distinct.of_perm moved)).trans moved

/-- Entries of which no two have one name are only brought in order. -/
theorem Distinct.perm_ofEntries (distinct : Distinct fields) : (ofEntries fields).Perm fields :=
  perm_insertAll distinct

/-- Entries come to the same fields if they are the same in whatever order. -/
theorem Distinct.ofEntries_eq_iff (distinct : Distinct fields) (distinctToo : Distinct others) :
    ofEntries fields = ofEntries others ↔ fields.Perm others := by
  constructor
  · intro same
    exact distinct.perm_ofEntries.symm.trans (same ▸ distinctToo.perm_ofEntries)
  · intro perm
    have between := distinct.perm_ofEntries.trans (perm.trans distinctToo.perm_ofEntries.symm)
    refine between.eq_of_pairwise (fun a b _ _ before after => ?_) (sorted_ofEntries _) (sorted_ofEntries _)
    exact absurd (List.lt_trans before after) (List.lt_irrefl _)

/-- Of equally many entries, the same are found on both sides if those of one side are found on the other. -/
theorem Distinct.perm_iff (distinct : Distinct fields) :
    fields.Perm others ↔ fields.length = others.length ∧ ∀ entry ∈ fields, entry ∈ others := by
  refine ⟨fun perm => ⟨perm.length_eq, perm.subset⟩, fun ⟨equally, inside⟩ => ?_⟩
  exact (List.Nodup.subperm distinct.of_map inside).perm_of_length_le equally.ge

end Fields

namespace Value

mutual

/-- Whether no object has a name twice and every number is one. -/
def isRegular : Value → Bool
  | float x => !x.isNaN
  | array items => areRegular items
  | object fields => decide (Fields.Distinct fields) && haveRegular fields
  | _ => true

def areRegular : List Value → Bool
  | [] => true
  | item :: rest => isRegular item && areRegular rest

def haveRegular : List (Text × Value) → Bool
  | [] => true
  | (_, value) :: rest => isRegular value && haveRegular rest

end

mutual

/-- The value with every number replaced by its binary64 numeral. -/
def measured : Value → Value
  | int n => float (Decimal.numeral (Float.ofInt n))
  | float x => float (Decimal.numeral x)
  | array items => array (measuredItems items)
  | object fields => object (measuredEntries fields)
  | value => value

def measuredItems : List Value → List Value
  | [] => []
  | item :: rest => measured item :: measuredItems rest

def measuredEntries : List (Text × Value) → List (Text × Value)
  | [] => []
  | (name, value) :: rest => (name, measured value) :: measuredEntries rest

end

/-- What a value comes to if only the measure of its numbers counts, and the order of names does not. -/
def gist (v : Value) : Value := v.measured.canonical

def gistEntry (entry : Text × Value) : Text × Value := (entry.1, entry.2.gist)

private theorem canonicalItems_measuredItems (items : List Value) :
    canonicalItems (measuredItems items) = items.map gist := by
  induction items with
  | nil => rfl
  | cons item rest ih =>
    rw [measuredItems, canonicalItems, ih]
    rfl

private theorem canonicalEntries_measuredEntries (fields : List (Text × Value)) :
    canonicalEntries (measuredEntries fields) = fields.map gistEntry := by
  induction fields with
  | nil => rfl
  | cons entry rest ih =>
    rw [measuredEntries, canonicalEntries, ih]
    rfl

private theorem gist_array (items : List Value) : (array items).gist = array (items.map gist) := by
  rw [gist, measured, canonical, canonicalItems_measuredItems]

private theorem gist_object (fields : List (Text × Value)) :
    (object fields).gist = object (Fields.ofEntries (fields.map gistEntry)) := by
  rw [gist, measured, canonical, canonicalEntries_measuredEntries]

private theorem beq_iff_measured {x : Float} (number : (!x.isNaN) = true) (y : Float) :
    (x == y) ↔ float (Decimal.numeral x) = float (Decimal.numeral y) := by
  rw [Bool.not_eq_true'] at number
  rw [Decimal.beq_iff_numeral (Bool.eq_false_iff.mp number), float.injEq]

private theorem gistEntry_mem_iff {entry : Text × Value} {fields : List (Text × Value)}
    (distinct : Fields.Distinct fields) :
    gistEntry entry ∈ fields.map gistEntry ↔
      ∃ other, Fields.find? entry.1 fields = some other ∧ entry.2.gist = other.gist := by
  constructor
  · intro mem
    obtain ⟨other, among, same⟩ := List.mem_map.mp mem
    obtain ⟨name, value⟩ := Prod.mk.inj same
    exact ⟨other.2, distinct.find?_eq_some.mpr (name ▸ among), value.symm⟩
  · rintro ⟨other, found, same⟩
    exact List.mem_map.mpr ⟨(entry.1, other), Fields.mem_of_find? found, Prod.ext rfl same.symm⟩

private theorem haveRegular_iff {fields : List (Text × Value)} :
    haveRegular fields ↔ ∀ entry ∈ fields, entry.2.isRegular := by
  induction fields with
  | nil => exact iff_of_true rfl (List.forall_mem_nil _)
  | cons entry rest ih => rw [haveRegular, Bool.and_eq_true, ih, List.forall_mem_cons]

private theorem distinct_gistEntry {fields : List (Text × Value)} (distinct : Fields.Distinct fields) :
    Fields.Distinct (fields.map gistEntry) := by
  rw [Fields.Distinct, List.map_map]
  exact distinct

/-- Objects come to the same if they have equally many entries and those of one are, up to gist, found in the other. -/
theorem gist_object_eq_iff {xs ys : List (Text × Value)} (distinct : Fields.Distinct xs)
    (distinctToo : Fields.Distinct ys) :
    (object xs).gist = (object ys).gist ↔ xs.length = ys.length ∧
      ∀ entry ∈ xs, ∃ other, Fields.find? entry.1 ys = some other ∧ entry.2.gist = other.gist := by
  have left := distinct_gistEntry distinct
  rw [gist_object, gist_object, object.injEq, left.ofEntries_eq_iff (distinct_gistEntry distinctToo), left.perm_iff,
    List.length_map, List.length_map, List.forall_mem_map]
  exact and_congr_right fun _ => forall₂_congr fun _ _ => gistEntry_mem_iff distinctToo

mutual

/-- Values agree if they come to the same. -/
theorem agrees_iff : (v : Value) → ∀ w, v.isRegular → w.isRegular → (agrees v w ↔ v.gist = w.gist)
  | null, w, _, _ => by cases w <;> simp [agrees, gist, measured, canonical]
  | bool b, w, _, _ => by cases w <;> simp [agrees, gist, measured, canonical]
  | string t, w, _, _ => by cases w <;> simp [agrees, gist, measured, canonical]
  | int m, w, _, _ => by
    have number : (!(Float.ofInt m).isNaN) = true := by rw [Decimal.isNaN_ofInt, Bool.not_false]
    cases w with
    | int n => exact beq_iff_measured number _
    | float y => exact beq_iff_measured number y
    | _ => simp [agrees, gist, measured, canonical]
  | float x, w, number, _ => by
    cases w with
    | int n => exact beq_iff_measured number _
    | float y => exact beq_iff_measured number y
    | _ => simp [agrees, gist, measured, canonical]
  | array xs, w, regular, regularToo => by
    cases w with
    | array ys => rw [gist_array, gist_array, array.injEq, agrees, agreesAll_iff xs ys regular regularToo]
    | _ => simp [agrees, gist, measured, canonical]
  | object xs, w, regular, regularToo => by
    cases w with
    | object ys =>
      obtain ⟨distinct, below⟩ := (Bool.and_eq_true ..).to_iff.mp regular
      obtain ⟨distinctToo, belowToo⟩ := (Bool.and_eq_true ..).to_iff.mp regularToo
      rw [gist_object_eq_iff (of_decide_eq_true distinct) (of_decide_eq_true distinctToo), agrees, Bool.and_eq_true,
        beq_iff_eq, agreesWithin_iff xs ys below (haveRegular_iff.mp belowToo)]
    | _ => simp [agrees, gist, measured, canonical]

theorem agreesAll_iff : (xs : List Value) → ∀ ys, areRegular xs → areRegular ys →
    (agreesAll xs ys ↔ xs.map gist = ys.map gist)
  | [], ys, _, _ => by cases ys <;> simp [agreesAll]
  | x :: xs, ys, regular, regularToo => by
    cases ys with
    | nil => simp [agreesAll]
    | cons y ys =>
      rw [areRegular, Bool.and_eq_true] at regular regularToo
      rw [agreesAll, Bool.and_eq_true, agrees_iff x y regular.1 regularToo.1,
        agreesAll_iff xs ys regular.2 regularToo.2, List.map_cons, List.map_cons, List.cons.injEq]

theorem agreesWithin_iff : (xs : List (Text × Value)) → ∀ ys, haveRegular xs → (∀ entry ∈ ys, entry.2.isRegular) →
    (agreesWithin ys xs ↔ ∀ entry ∈ xs, ∃ other, Fields.find? entry.1 ys = some other ∧ entry.2.gist = other.gist)
  | [], _, _, _ => iff_of_true rfl (List.forall_mem_nil _)
  | (name, x) :: xs, ys, regular, regularToo => by
    rw [haveRegular, Bool.and_eq_true] at regular
    rw [agreesWithin, Bool.and_eq_true, agreesWithin_iff xs ys regular.2 regularToo, List.forall_mem_cons]
    refine and_congr_left fun _ => ?_
    cases found : Fields.find? name ys with
    | none => simp
    | some y =>
      have among := regularToo _ (Fields.mem_of_find? found)
      simp [agrees_iff x y regular.1 among]

end

variable {u v w : Value}

/-- On values that have no name twice and only numbers that are, agreement is an equivalence: it is equality of what the
values come to when all numbers are replaced by their binary64 values and the order of names does not count. -/
theorem agrees_equivalence (regularFirst : u.isRegular) (regular : v.isRegular) (regularLast : w.isRegular) :
    v.agrees v ∧ (v.agrees w → w.agrees v) ∧ (u.agrees v → v.agrees w → u.agrees w) ∧
      (v.agrees w ↔ v.measured.canonical = w.measured.canonical) := by
  rw [agrees_iff v v regular regular, agrees_iff v w regular regularLast, agrees_iff w v regularLast regular,
    agrees_iff u v regularFirst regular, agrees_iff u w regularFirst regularLast]
  exact ⟨rfl, Eq.symm, Eq.trans, Iff.rfl⟩

/-- Numbers as a document gives them, with fractions. -/
def fractional : Value := object [("b".toList, array [float 4.0, float (-0.0)]), ("a".toList, null)]

/-- The same numbers without fractions, under names in another order. -/
def integral : Value := object [("a".toList, null), ("b".toList, array [int 4, int 0])]

theorem agrees_equivalence_fractional :
    fractional.isRegular ∧ integral.isRegular ∧ fractional.agrees integral ∧ integral.agrees fractional ∧
      fractional.agrees fractional ∧ fractional.measured.canonical = integral.measured.canonical := by
  have regular : fractional.isRegular := by decide +kernel
  have regularToo : integral.isRegular := by decide +kernel
  have agree : fractional.agrees integral := by decide +kernel
  obtain ⟨-, turned, whole, same⟩ := agrees_equivalence regular regular regularToo
  exact ⟨regular, regularToo, agree, turned agree, whole agree (turned agree), same.mp agree⟩

-- Equally many names have to be there, not only those of the first object.
example : (object [("a".toList, int 1)]).agrees (object [("a".toList, int 1), ("b".toList, int 2)]) = false := by
  decide +kernel

end Value

end MediaWatch

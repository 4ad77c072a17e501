import MediaWatch.Rule.Payload

/-! # Payloads over payloads

Some payloads are like objects: they assign entries to names. One laid over another keeps what it assigns and
takes the rest from below. The payloads in use are of this sort or stand alone.
-/

namespace MediaWatch

/-- Payloads of which some may be like objects. -/
class ObjectLike (α : Type) [Mergeable α] where
  /-- What may stand under a name. -/
  Entry : Type
  /-- What a payload assigns to names, if it is like an object. -/
  assigns? : α → Option (Text → Option Entry)
  /-- What holds of every payload that is read. -/
  IsProper : α → Prop
  /-- Two that are like objects merge. -/
  merges {upper lower : α} {above below : Text → Option Entry} (properAbove : IsProper upper)
    (properBelow : IsProper lower) (isAbove : assigns? upper = some above) (isBelow : assigns? lower = some below) :
    ∃ merged, Mergeable.mergeOver? upper lower = some merged ∧ IsProper merged ∧
      assigns? merged = some fun name => (above name).or (below name)
  /-- Others do not. -/
  stands {upper lower : α} (alone : assigns? upper = none ∨ assigns? lower = none) :
    Mergeable.mergeOver? upper lower = none

namespace ObjectLike

/-- Payloads that never merge are not like objects. -/
@[reducible]
def plain {α : Type} [Mergeable α]
    (never : ∀ upper lower : α, Mergeable.mergeOver? upper lower = none) : ObjectLike α where
  Entry := Empty
  assigns? _ := none
  IsProper _ := True
  merges _ _ isAbove := nomatch isAbove
  stands _ := never _ _

instance : ObjectLike Text := plain fun _ _ => rfl

instance : ObjectLike Int := plain fun _ _ => rfl

instance : ObjectLike Bool := plain fun _ _ => rfl

instance : ObjectLike (Fields Int) where
  Entry := Int
  assigns? fields := some fun name => fields.find? name
  IsProper := Fields.Sorted
  merges := by
    rintro upper lower _ _ properAbove properBelow ⟨⟩ ⟨⟩
    exact ⟨_, rfl, Fields.sorted_insertAll upper properBelow,
      congrArg some (funext fun name => Fields.find?_insertAll properAbove name lower)⟩
  stands alone := by rcases alone with ⟨⟨⟩⟩ | ⟨⟨⟩⟩

end ObjectLike

namespace Value

def assigns? : Value → Option (Text → Option Value)
  | object fields => some fun name => Fields.find? name fields
  | _ => none

/-- The fields of an object are in order. -/
def IsProper : Value → Prop
  | object fields => Fields.Sorted fields
  | _ => True

private theorem assigns?_eq_some {v : Value} {entries : Text → Option Value} (found : v.assigns? = some entries) :
    ∃ fields, v = object fields ∧ entries = fun name => Fields.find? name fields := by
  cases v with
  | object fields => exact ⟨fields, rfl, (Option.some.inj found).symm⟩
  | _ => contradiction

/-- Of values only objects merge. -/
theorem mergeOver?_eq_none {upper lower : Value} (alone : upper.assigns? = none ∨ lower.assigns? = none) :
    mergeOver? upper lower = none := by
  unfold mergeOver?
  split
  · rcases alone with ⟨⟨⟩⟩ | ⟨⟨⟩⟩
  · rfl

theorem merges {upper lower : Value} {above below : Text → Option Value} (properAbove : upper.IsProper)
    (properBelow : lower.IsProper) (isAbove : upper.assigns? = some above) (isBelow : lower.assigns? = some below) :
    ∃ merged, mergeOver? upper lower = some merged ∧ merged.IsProper ∧
      merged.assigns? = some fun name => (above name).or (below name) := by
  obtain ⟨upper, rfl, rfl⟩ := assigns?_eq_some isAbove
  obtain ⟨lower, rfl, rfl⟩ := assigns?_eq_some isBelow
  exact ⟨_, rfl, Fields.sorted_insertAll upper properBelow,
    congrArg some (funext fun name => Fields.find?_insertAll properAbove name lower)⟩

instance : ObjectLike Value where
  Entry := Value
  assigns? := assigns?
  IsProper := IsProper
  merges := merges
  stands := mergeOver?_eq_none

private theorem isProper_canonical (v : Value) : v.canonical.IsProper := by
  cases v with
  | object fields =>
    rw [canonical]
    exact Fields.sorted_ofEntries _
  | array items => rw [canonical]; trivial
  | _ => trivial

/-- What literals denote is in order. -/
theorem isProper_of_literal {t : Text} {v : Value} (found : Literal.read? t = some v) : v.IsProper := by
  obtain ⟨raw, -, rfl⟩ := Option.map_eq_some_iff.mp found
  exact isProper_canonical raw

end Value

namespace Payload

/-- Values in order and all that does not merge; no text denotes counts. -/
def IsProper : Payload → Prop
  | value v => v.IsProper
  | counts _ => False
  | _ => True

instance : ObjectLike Payload where
  Entry := Value
  assigns? p := p.toValue.assigns?
  IsProper := IsProper
  merges := by
    rintro (_ | _ | _ | upper | _) (_ | _ | _ | lower | _) above below properAbove properBelow isAbove isBelow <;>
      try contradiction
    obtain ⟨merged, eq, proper, entries⟩ := Value.merges properAbove properBelow isAbove isBelow
    exact ⟨value merged, congrArg (Option.map value) eq, proper, entries⟩
  stands := by
    rintro (_ | _ | _ | upper | upper) (_ | _ | _ | lower | lower) alone <;> try rfl
    · exact congrArg (Option.map value) (Value.mergeOver?_eq_none alone)
    · rcases alone with ⟨⟨⟩⟩ | ⟨⟨⟩⟩

/-- Whatever reader is used, what it reads is proper. -/
theorem isProper_of_read {reader : PayloadReader} {t : Text} {p : Payload}
    (found : reader.read? t = some p) : p.IsProper := by
  cases reader with
  | text => obtain rfl := Option.some.inj found; trivial
  | literal =>
    obtain ⟨v, read, rfl⟩ := Option.map_eq_some_iff.mp found
    exact Value.isProper_of_literal read
  | int => obtain ⟨n, -, rfl⟩ := Option.map_eq_some_iff.mp found; trivial
  | bool =>
    rw [PayloadReader.read?] at found
    split at found
    · obtain rfl := Option.some.inj found; trivial
    · split at found
      · obtain rfl := Option.some.inj found; trivial
      · contradiction

end Payload

end MediaWatch

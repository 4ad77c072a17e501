import MediaWatch.Value.Basic
import MediaWatch.Value.Literal
import MediaWatch.Value.Printer
import MediaWatch.Text.Blank

/-! # Payloads

What rules carry. Payloads that are like objects merge: the one that counts is laid over the one
below. All others stand alone.
-/

namespace MediaWatch

/-- Payloads that may merge. -/
class Mergeable (α : Type) where
  /-- The first laid over the second, if such payloads merge. -/
  mergeOver? : α → α → Option α

instance : Mergeable Text := ⟨fun _ _ => none⟩

instance : Mergeable Int := ⟨fun _ _ => none⟩

instance : Mergeable Bool := ⟨fun _ _ => none⟩

instance : Mergeable Value := ⟨Value.mergeOver?⟩

instance : Mergeable (Fields Int) := ⟨fun upper lower => some (Fields.insertAll upper lower)⟩

/-- A payload of any of the kinds in use. -/
inductive Payload where
  | text (t : Text)
  | int (n : Int)
  | bool (b : Bool)
  | value (v : Value)
  | counts (entries : Fields Int)

namespace Payload

/-- The first payload laid over the second, if they are of one kind that merges. -/
def mergeOver? : Payload → Payload → Option Payload
  | value upper, value lower => (Mergeable.mergeOver? upper lower).map value
  | counts upper, counts lower => (Mergeable.mergeOver? upper lower).map counts
  | _, _ => none

instance : Mergeable Payload := ⟨mergeOver?⟩

/-- The text of a payload. Counts have none. -/
def text? : Payload → Option Text
  | text t => some t
  | int n => some (Text.ofInt n)
  | bool b => some (Text.ofBool b)
  | value v => some v.render
  | counts _ => none

def toValue : Payload → Value
  | text t => .string t
  | int n => .int n
  | bool b => .bool b
  | value v => v
  | counts entries => .object (entries.map fun entry => (entry.1, .int entry.2))

end Payload

/-- How payloads are read. -/
inductive PayloadReader where
  | text
  | literal
  | int
  | bool
deriving DecidableEq, Repr

/-- A whole number of 64 bits, with a sign or without. -/
def readWord? (t : Text) : Option Int :=
  (Decimal.readInt? t).filter fun n => -Int.pow 2 63 ≤ n && n < Int.pow 2 63

def PayloadReader.read? (reader : PayloadReader) (t : Text) : Option Payload :=
  match reader with
  | text => some (.text t.trim)
  | literal => (Value.Literal.read? t).map .value
  | int => (readWord? t.trim).map .int
  | bool =>
    if t.trim = "true".toList then some (.bool true)
    else if t.trim = "false".toList then some (.bool false)
    else none

end MediaWatch

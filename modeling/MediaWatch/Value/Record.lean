import MediaWatch.Value.Flow
import MediaWatch.Value.Printer

/-! # Records

A record is written as an object, which may hold a field of the record once only. The two notations
for documents differ in the rest. In the strict one a record may also be written as the list of its
fields in their order, of which the last may be missing, and only strings count as text. In the
lenient one a plain scalar is text that stands for itself.
-/

namespace MediaWatch

/-- Which notation a document is written in. -/
inductive Dialect where
  | strict
  | lenient
deriving DecidableEq, Repr

def Dialect.read? : Dialect → Text → Option Value
  | strict => Value.Document.read?
  | lenient => Value.Flow.read?

namespace Value

def text? (dialect : Dialect) : Value → Option Text
  | string t => some t
  | array _ => none
  | object _ => none
  | scalar => if dialect = .lenient then some scalar.render else none

def bool? : Value → Option Bool
  | bool b => some b
  | _ => none

/-- A whole number of 32 bits. -/
def word? : Value → Option UInt32
  | int n => if 0 ≤ n ∧ n < Int.pow 2 32 then some n.toNat.toUInt32 else none
  | _ => none

/-- A whole number of 64 bits that counts something. -/
def count? : Value → Option Nat
  | int n => if 0 ≤ n ∧ n < Int.pow 2 64 then some n.toNat else none
  | _ => none

def nullable? {α : Type} (read : Value → Option α) : Value → Option (Option α)
  | null => some none
  | value => (read value).map some

def items? {α : Type} (read : Value → Option α) : Value → Option (List α)
  | array items => items.mapM read
  | _ => none

/-- The entries of an object by name, of which the last under a name counts. -/
def entries? {α : Type} (read : Value → Option α) : Value → Option (Fields α)
  | object fields =>
    (fields.mapM fun entry : Text × Value => (read entry.2).map fun x => (entry.1, x)).map
      Fields.ofEntries
  | _ => none

/-- The fields of a record by name. Of the known fields, none is given twice; whether unknown ones may
be there is for the caller to say. -/
def record? (dialect : Dialect) (known : List Text) (unknownAllowed : Bool) :
    Value → Option (Fields Value)
  | object fields =>
    let names := fields.map (·.1)
    let given := names.filter (known.contains ·)
    if given.Nodup ∧ (unknownAllowed ∨ given.length = names.length) then
      some (Fields.ofEntries fields)
    else none
  | array items =>
    if dialect = .strict ∧ items.length ≤ known.length then some (Fields.ofEntries (known.zip items)) else none
  | _ => none

/-- A field of a record, or what stands for it if it is missing. -/
def fieldOr {α : Type} (fields : Fields Value) (name : String) (default : α)
    (read : Value → Option α) : Option α :=
  match fields.find? name.toList with
  | some value => read value
  | none => some default

/-- A field that must be there. -/
def fieldOf {α : Type} (fields : Fields Value) (name : String) (read : Value → Option α) :
    Option α :=
  (fields.find? name.toList).bind read

end Value

end MediaWatch

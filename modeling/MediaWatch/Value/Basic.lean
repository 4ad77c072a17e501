import MediaWatch.Fields

/-! # Values

The data that a rule can carry: null, truth values, numbers, strings, arrays and objects. A whole
number and a binary64 number are different values even when they are equal as numbers.
-/

namespace MediaWatch

/-- A value of structured data. -/
inductive Value where
  | null
  | bool (b : Bool)
  | int (n : Int)
  | float (x : Float)
  | string (t : Text)
  | array (items : List Value)
  | object (fields : List (Text × Value))

namespace Value

instance : Inhabited Value := ⟨null⟩

/-- The binary64 number nearest to a number. -/
def number? : Value → Option Float
  | int n => some (Float.ofInt n)
  | float x => some x
  | _ => none

def field? (name : Text) : Value → Option Value
  | object fields => Fields.find? name fields
  | _ => none

mutual

/-- The value with the fields of every object in order; of entries under one name the last counts. -/
def canonical : Value → Value
  | array items => array (canonicalItems items)
  | object fields => object (Fields.ofEntries (canonicalEntries fields))
  | value => value

def canonicalItems : List Value → List Value
  | [] => []
  | item :: rest => canonical item :: canonicalItems rest

def canonicalEntries : List (Text × Value) → List (Text × Value)
  | [] => []
  | (name, value) :: rest => (name, canonical value) :: canonicalEntries rest

end

mutual

/-- Whether two values are equal up to the kind of their numbers. -/
def agrees : Value → Value → Bool
  | null, null => true
  | bool a, bool b => a == b
  | string s, string t => s == t
  | array xs, array ys => agreesAll xs ys
  | object xs, object ys => xs.length == ys.length && agreesWithin ys xs
  | int m, int n => Float.ofInt m == Float.ofInt n
  | int m, float y => Float.ofInt m == y
  | float x, int n => x == Float.ofInt n
  | float x, float y => x == y
  | _, _ => false

def agreesAll : List Value → List Value → Bool
  | [], [] => true
  | x :: xs, y :: ys => agrees x y && agreesAll xs ys
  | _, _ => false

/-- Whether every one of the second fields agrees with the first fields' value of that name. -/
def agreesWithin (others : List (Text × Value)) : List (Text × Value) → Bool
  | [] => true
  | (name, value) :: rest =>
    (match Fields.find? name others with
      | some other => agrees value other
      | none => false) && agreesWithin others rest

end

/-- An object laid over another keeps its own fields and takes the rest from below; other values do
not merge. -/
def mergeOver? : Value → Value → Option Value
  | object upper, object lower => some (object (Fields.insertAll upper lower))
  | _, _ => none

end Value

end MediaWatch

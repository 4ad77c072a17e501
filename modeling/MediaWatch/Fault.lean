import MediaWatch.Text.Basic

/-! # Faults

What can be wrong with a declaration. Faults surface where something is declared, never while a
condition is read.
-/

namespace MediaWatch

/-- Why the subject of a fixture cannot be told. -/
inductive SubjectFault where
  | maskWithoutRules
  | queryWithRules
  | nothing
deriving DecidableEq, Repr

/-- A declaration that is refused. -/
inductive Fault where
  /-- A breakpoint name that holds something other than Latin letters. -/
  | breakpointName (name : Text)
  /-- A list of values and a mask with different numbers of pieces. -/
  | lengthMismatch (values mask : Nat)
  /-- A value that the media feature cannot take. -/
  | featureValue (name value : Text)
  /-- A breakpoint whose lower bound is above its upper bound. -/
  | reversedRange (name : Text) (min max : Nat)
  /-- A fixture that says nothing, or too much, about what it compiles. -/
  | subject (fixture : Text) (fault : SubjectFault)
deriving DecidableEq, Repr

def SubjectFault.message : SubjectFault → Text
  | maskWithoutRules => "mask requires rules".toList
  | queryWithRules => "query cannot be combined with rules or mask".toList
  | nothing => "either query or rules is required".toList

def Fault.message : Fault → Text
  | breakpointName name =>
    "invalid breakpoint name \"".toList ++ name ++ "\": only Latin letters are allowed".toList
  | lengthMismatch values mask =>
    "tuple length mismatch: ".toList ++ Text.ofNat values ++ " values but ".toList ++
      Text.ofNat mask ++ " queries in mask".toList
  | featureValue name value =>
    "invalid value \"".toList ++ value ++ "\" for media feature \"".toList ++ name ++ "\"".toList
  | reversedRange name min max =>
    "invalid config: breakpoint \"".toList ++ name ++ "\": min ".toList ++ Text.ofNat min ++
      " > max ".toList ++ Text.ofNat max
  | subject fixture fault =>
    "invalid config: fixture '".toList ++ fixture ++ "': ".toList ++ fault.message

end MediaWatch

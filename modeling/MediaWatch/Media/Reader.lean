import MediaWatch.Media.Features
import MediaWatch.Value.Record

/-! # Reading snapshots

The shape of a snapshot of features. A field that is missing has its usual value; a field that is not
known is passed over. Values are taken as given.
-/

namespace MediaWatch.Media

/-- The pointer that a value names. In the strict notation it may also be an object that holds
nothing under the keyword. -/
def Pointer.ofValue? (dialect : Dialect) : Value → Option Pointer
  | .object [(keyword, .null)] => if dialect = .strict then ofKeyword? keyword else .none
  | value => (value.text? dialect).bind ofKeyword?

namespace Features

def fieldNames : List Text :=
  ["width".toList, "height".toList, "resolution".toList, "hover".toList, "pointer".toList,
   "media-type".toList, "extra".toList]

def ofValue? (dialect : Dialect) (value : Value) : Option Features := do
  let usual : Features := {}
  let fields ← value.record? dialect fieldNames true
  let width ← Value.fieldOr fields "width" usual.width Value.number?
  let height ← Value.fieldOr fields "height" usual.height Value.number?
  let resolution ← Value.fieldOr fields "resolution" usual.resolution Value.number?
  let hover ← Value.fieldOr fields "hover" usual.hover Value.bool?
  let pointer ← Value.fieldOr fields "pointer" usual.pointer (Pointer.ofValue? dialect)
  let mediaType ← Value.fieldOr fields "media-type" usual.mediaType (Value.text? dialect)
  let extra ← Value.fieldOr fields "extra" usual.extra (Value.entries? (Value.text? dialect))
  some { width, height, resolution, hover, pointer, mediaType, extra }

end Features

end MediaWatch.Media

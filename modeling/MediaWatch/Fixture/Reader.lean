import MediaWatch.Config.Reader
import MediaWatch.Fixture.Basic
import MediaWatch.Media.Reader

/-! # Reading fixtures

The shape of a fixture, in the lenient notation. The name, the description and the cases must be
there, and so must the name and the expectation of every case; unknown fields are passed over.
-/

namespace MediaWatch.Fixture

def caseFieldNames : List Text :=
  ["name".toList, "media".toList, "expect".toList, "notified".toList]

def Case.ofValue? (value : Value) : Option Case := do
  let fields ← value.record? .lenient caseFieldNames true
  let name ← Value.fieldOf fields "name" (Value.text? .lenient)
  let media ← Value.fieldOr fields "media" [] (Value.entries? some)
  let expected ← Value.fieldOf fields "expect" some
  let count ← Value.fieldOr fields "notified" none (Value.nullable? Value.count?)
  some { name, media, expected, count }

def readerOfValue? (value : Value) : Option PayloadReader := do
  let keyword ← value.text? .lenient
  if keyword = "string".toList then some .text
  else if keyword = "object".toList then some .literal
  else none

def fieldNames : List Text :=
  ["name".toList, "description".toList, "shortcuts".toList, "media".toList, "query".toList,
   "rules".toList, "mask".toList, "parser".toList, "canonical".toList, "cases".toList]

def ofValue? (value : Value) : Option Fixture := do
  let text := Value.text? .lenient
  let fields ← value.record? .lenient fieldNames true
  let name ← Value.fieldOf fields "name" text
  let description ← Value.fieldOf fields "description" text
  let shortcuts ← Value.fieldOr fields "shortcuts" {} (Config.ofValue? .lenient)
  let media ← Value.fieldOr fields "media" {} (Media.Features.ofValue? .lenient)
  let query ← Value.fieldOr fields "query" none (Value.nullable? text)
  let rules ← Value.fieldOr fields "rules" none (Value.nullable? text)
  let mask ← Value.fieldOr fields "mask" none (Value.nullable? text)
  let reader ← Value.fieldOr fields "parser" .text readerOfValue?
  let canonical ← Value.fieldOr fields "canonical" none (Value.nullable? text)
  let cases ← Value.fieldOf fields "cases" (Value.items? Case.ofValue?)
  some { name, description, shortcuts, media, query, rules, mask, reader, canonical, cases }

def read? (t : Text) : Option Fixture := (Dialect.lenient.read? t).bind ofValue?

/-- The fixtures that documents describe, one each. Without any document there is still one fixture
expected, so that is refused. -/
def readAll? (documents : List Text) : Option (List Fixture) :=
  if documents.isEmpty then none else documents.mapM read?

end MediaWatch.Fixture

import MediaWatch.Config.Basic
import MediaWatch.Value.Record

/-! # Reading configurations

The shape of a configuration: which fields it may have, and what each of them holds. A field that is
missing has its usual value; a field that is not known is refused.
-/

namespace MediaWatch

namespace Config

/-- A declared range; without an upper bound it has no end. -/
def readBreakpoint? (dialect : Dialect) (value : Value) : Option Breakpoint := do
  let fields ← value.record? dialect ["min".toList, "max".toList] false
  let min ← Value.fieldOf fields "min" Value.word?
  let max ← Value.fieldOr fields "max" Breakpoint.widest Value.word?
  some { min, max }

/-- A declared shortcut: a constant or a descriptor. -/
def readShortcut? : Value → Option Shortcut
  | .bool b => some (.constant b)
  | .string t => some (.descriptor t)
  | _ => none

def fieldNames : List Text :=
  ["breakpoints".toList, "remove_breakpoints".toList, "env".toList, "user_agent".toList,
   "touch".toList, "ignore_bots_dpr".toList]

def ofValue? (dialect : Dialect) (value : Value) : Option Config := do
  let fields ← value.record? dialect fieldNames false
  let breakpoints ← Value.fieldOr fields "breakpoints" [] (Value.entries? (readBreakpoint? dialect))
  let removed ← Value.fieldOr fields "remove_breakpoints" [] (Value.items? (Value.text? dialect))
  let environment ← Value.fieldOr fields "env" [] (Value.entries? readShortcut?)
  let userAgent ←
    Value.fieldOr fields "user_agent" none (Value.nullable? (Value.text? dialect))
  let touch ← Value.fieldOr fields "touch" none (Value.nullable? Value.bool?)
  let ignoreBots ← Value.fieldOr fields "ignore_bots_dpr" false Value.bool?
  some { breakpoints, removed, environment, userAgent, touch, ignoreBots }

/-- The configuration that a document declares. Without a document there is nothing that it declares,
which is fine in the lenient notation. -/
def read? (dialect : Dialect) (t : Text) : Option Config :=
  if dialect = .lenient ∧ Value.Flow.isEmpty t then some {}
  else (dialect.read? t).bind (ofValue? dialect)

end Config

end MediaWatch

import MediaWatch.Value.Basic
import MediaWatch.Decimal.Style

/-! # The text of a value

Values are written without blanks. In a string a quote, a backslash and the control characters
below the space are escaped, and nothing else is.
-/

namespace MediaWatch.Value

/-- Four lower-case hexadecimal digits. -/
def hex4 (n : Nat) : Text :=
  let digits := Nat.toDigits 16 n
  List.replicate (4 - digits.length) '0' ++ digits

def quotedChar (c : Char) : Text :=
  if c = '"' then "\\\"".toList
  else if c = '\\' then "\\\\".toList
  else if c = '\n' then "\\n".toList
  else if c = '\r' then "\\r".toList
  else if c = '\t' then "\\t".toList
  else if c = '\x08' then "\\b".toList
  else if c = '\x0c' then "\\f".toList
  else if c.toNat < 0x20 then "\\u".toList ++ hex4 c.toNat
  else [c]

def quoted (t : Text) : Text := '"' :: (t.flatMap quotedChar ++ ['"'])

mutual

def render : Value → Text
  | null => "null".toList
  | bool b => Text.ofBool b
  | int n => Text.ofInt n
  | float x => Decimal.Style.data.render x
  | string t => quoted t
  | array items => '[' :: (Text.joined [','] (renderItems items) ++ [']'])
  | object fields => '\x7b' :: (Text.joined [','] (renderEntries fields) ++ ['\x7d'])

def renderItems : List Value → List Text
  | [] => []
  | item :: rest => render item :: renderItems rest

/-- The text of every entry: the name, a colon and the value. -/
def renderEntries : List (Text × Value) → List Text
  | [] => []
  | (name, value) :: rest => (quoted name ++ ':' :: render value) :: renderEntries rest

end

example : render (object [("a".toList, array [int (-1), float 0.5])]) =
    "\x7b\"a\":[-1,0.5]\x7d".toList := by decide +kernel

end MediaWatch.Value

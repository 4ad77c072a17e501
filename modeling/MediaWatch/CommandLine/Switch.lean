import MediaWatch.Text.Basic

/-! # Switches

The verbs of the command line and the switches that each of them takes. The same table serves for
reading arguments and for the help.
-/

namespace MediaWatch.CommandLine

/-- What the program can be asked to do. -/
inductive Verb where
  | eval
  | rules
  | shortcuts
deriving DecidableEq, Repr

/-- A named argument. -/
inductive Switch where
  | media
  | config
  | userAgent
  | touch
  | mask
  | object
  | trace
  | help
deriving DecidableEq, Repr

namespace Switch

/-- The long name, which follows two hyphens. -/
def name : Switch → Text
  | media => "media".toList
  | config => "config".toList
  | userAgent => "user-agent".toList
  | touch => "touch".toList
  | mask => "mask".toList
  | object => "object".toList
  | trace => "trace".toList
  | help => "help".toList

/-- The letter that stands for the switch after one hyphen. -/
def letter? : Switch → Option Char
  | media => some 'm'
  | config => some 'c'
  | userAgent => some 'u'
  | touch => none
  | mask => some 'k'
  | object => some 'o'
  | trace => some 't'
  | help => some 'h'

/-- What the value of a switch is called; a switch without such a name has no value. -/
def operand? : Switch → Option Text
  | media => some "NAME=VALUE".toList
  | config => some "CONFIG".toList
  | userAgent => some "USER_AGENT".toList
  | mask => some "MASK".toList
  | _ => none

def takesValue (s : Switch) : Bool := s.operand?.isSome

end Switch

namespace Verb

/-- All verbs in the order in which they are listed. -/
def all : List Verb := [eval, rules, shortcuts]

def name : Verb → Text
  | eval => "eval".toList
  | rules => "rules".toList
  | shortcuts => "shortcuts".toList

def ofName? (t : Text) : Option Verb := all.find? (·.name == t)

/-- What the argument without a name is called, for a verb that needs one. -/
def operand? : Verb → Option Text
  | eval => some "QUERY".toList
  | rules => some "RULES".toList
  | shortcuts => none

/-- The switches that a verb takes, in the order in which they are listed. -/
def switches : Verb → List Switch
  | eval => [.media, .config, .userAgent, .touch, .trace, .help]
  | rules => [.mask, .object, .media, .config, .userAgent, .touch, .trace, .help]
  | shortcuts => [.config, .userAgent, .touch, .help]

def switchNamed? (v : Verb) (name : Text) : Option Switch := v.switches.find? (·.name == name)

def switchOfLetter? (v : Verb) (letter : Char) : Option Switch :=
  v.switches.find? (·.letter? == some letter)

end Verb

/-- What there can be help on: the program, a verb, or the help itself. -/
inductive HelpTopic where
  | program
  | verb (v : Verb)
  | help
deriving DecidableEq, Repr

def HelpTopic.word : Text := "help".toList

def HelpTopic.ofName? (t : Text) : Option HelpTopic :=
  if t = word then some help else (Verb.ofName? t).map verb

end MediaWatch.CommandLine

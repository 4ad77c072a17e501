import MediaWatch.CommandLine.Arguments

/-! # Requests

What a whole command line asks for.
-/

namespace MediaWatch.CommandLine

/-- Where the shortcuts come from. -/
structure ShortcutOptions where
  config : Option Text
  userAgent : Option Text
  touch : Bool
deriving DecidableEq, Repr

/-- What the environment is made of: pairs of names and values, and shortcuts. -/
structure EnvironmentOptions where
  media : List Text
  shortcuts : ShortcutOptions
deriving DecidableEq, Repr

/-- What is asked for. -/
inductive Request where
  | version
  /-- Help, at length or in short. -/
  | help (topic : HelpTopic) (long : Bool)
  | eval (query : Text) (environment : EnvironmentOptions) (trace : Bool)
  | rules (rules : Text) (mask : Option Text) (object : Bool) (environment : EnvironmentOptions)
    (trace : Bool)
  | shortcuts (options : ShortcutOptions)
deriving DecidableEq, Repr

namespace Options

def shortcuts (o : Options) : ShortcutOptions := ⟨o.config, o.userAgent, o.touch⟩

def environment (o : Options) : EnvironmentOptions := ⟨o.media, o.shortcuts⟩

/-- What a verb with these options asks for; none if an argument is missing. -/
def request? (o : Options) (v : Verb) : Option Request :=
  match v, o.operand with
  | .eval, some query => some (.eval query o.environment o.trace)
  | .rules, some rules => some (.rules rules o.mask o.object o.environment o.trace)
  | .shortcuts, none => some (.shortcuts o.shortcuts)
  | _, _ => none

end Options

namespace Request

/-- What follows the word `help`. -/
def ofHelp? : List Text → Option Request
  | [] => some (.help .program true)
  | [t] => (HelpTopic.ofName? t).map fun topic => .help topic true
  | _ => none

def ofVerb? (v : Verb) (args : List Text) : Option Request :=
  match Given.read? v {} args with
  | none => none
  | some (.help long) => some (.help (.verb v) long)
  | some (.options o) => o.request? v

/-- What is asked for in front of any verb. -/
def ofSwitch? : Argument → Option Request
  | .named name none =>
    if name = "help".toList then some (.help .program true)
    else if name = "version".toList then some .version
    else none
  | .letters letter _ =>
    if letter = 'h' then some (.help .program false)
    else if letter = 'V' then some .version
    else none
  | _ => none

/-- What the arguments ask for; none if they cannot be understood. -/
def ofArguments? : List Text → Option Request
  | [] => none
  | arg :: rest =>
    match Verb.ofName? arg with
    | some v => ofVerb? v rest
    | none => if arg = HelpTopic.word then ofHelp? rest else ofSwitch? (Argument.ofText arg)

/-- The file that has to be read before a request can be answered. -/
def file? : Request → Option Text
  | eval _ environment _ => environment.shortcuts.config
  | rules _ _ _ environment _ => environment.shortcuts.config
  | shortcuts options => options.config
  | _ => none

end Request

end MediaWatch.CommandLine

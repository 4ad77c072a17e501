import MediaWatch.CommandLine.ConfigFile
import MediaWatch.CommandLine.Help
import MediaWatch.CommandLine.Request
import MediaWatch.Report
import MediaWatch.Subject

/-! # Answers

What the program prints when something is asked for, or why it fails. The environment is put together
before anything is compiled, the features first.
-/

namespace MediaWatch.CommandLine

abbrev Files := Text → Except FileFault Text

/-- Why a request cannot be answered. -/
inductive Failure where
  /-- A feature without an equals sign. -/
  | pair (t : Text)
  | unreadable (path : Text) (reason : FileFault)
  /-- A file that declares no configuration in its notation. -/
  | malformed (dialect : Dialect)
  | refused (fault : Fault)
deriving DecidableEq, Repr

def Failure.message : Failure → Text
  | pair t => "invalid media pair \"".toList ++ t ++ "\", expected name=value".toList
  | unreadable path reason =>
    "failed to read \"".toList ++ path ++ "\": ".toList ++ reason.message
  | malformed .strict => "JSON parse error".toList
  | malformed .lenient => "YAML parse error".toList
  | refused f => f.message

def setPair (f : Media.Features) (pair : Text) : Except Failure Media.Features :=
  match Text.cutAt? ['='] pair with
  | some (name, value) => (f.set name.trim value.trim).mapError .refused
  | none => .error (.pair pair)

def loadConfig (files : Files) (path : Text) : Except Failure Config := do
  let content ← (files path).mapError (.unreadable path)
  match Config.read? (dialectOf path) content with
  | some config => .ok config
  | none => .error (.malformed (dialectOf path))

/-- The registry that the options declare. What they say about the device counts more than what the
file says. -/
def ShortcutOptions.registry (files : Files) (o : ShortcutOptions) : Except Failure Registry := do
  let config ← match o.config with
    | some path => loadConfig files path
    | none => .ok {}
  let userAgent := o.userAgent.orElse fun _ => config.userAgent
  let touch := if o.touch then some true else config.touch
  ({ config with userAgent, touch }.build).mapError .refused

def EnvironmentOptions.watcher (files : Files) (o : EnvironmentOptions) : Except Failure Watcher := do
  let features ← o.media.foldlM setPair {}
  let registry ← o.shortcuts.registry files
  .ok (.start features registry)

def line (t : Text) : Text := t ++ ['\n']

/-- The written form of a condition and whether it holds, with its trace if that is asked for. -/
def conditionText (view : View) (trace : Bool) (c : Condition) : Text :=
  line c.text ++ line (Text.ofBool (c.holds view)) ++
    if trace then (c.trace view).text else []

/-- The mark of a rule: the one that counts, another one that holds, or one that does not. -/
def ruleMark (active : Option Nat) (step : RuleList.Step) : Text :=
  if active = some step.index then ['*'] else if step.matched then ['+'] else ['-']

def ruleText (active : Option Nat) (step : RuleList.Step) (r : Rule Payload) : Text :=
  line (ruleMark active step ++ " [".toList ++ Text.ofNat step.index ++ "] ".toList ++
    r.text Payload.written)

/-- The index and the value that count, with every rule if a trace is asked for. -/
def rulesText (view : View) (trace : Bool) (l : RuleList Payload) : Text :=
  let steps := l.steps view
  let active := match l.active? view, l.value? view with
    | some index, some value => '[' :: (Text.ofNat index ++ "] ".toList ++ value.written)
    | _, _ => "(no match)".toList
  line active ++
    if trace then ((steps.zip l.rules).map fun (step, r) =>
      ruleText (RuleList.activeStep? steps) step r).flatten
    else []

def shortcutLine (name content : Text) : Text :=
  line ("  @".toList ++ Text.padRight 8 name ++ [' '] ++ content)

def registryText (r : Registry) : Text :=
  line "Preprocessors (highest priority first):".toList ++
    (r.resolverNames.map fun name => line ("  ".toList ++ name)).flatten ++
    line "\nBreakpoints:".toList ++
    (r.breakpoints.entries.map fun (name, b) => shortcutLine name b.text).flatten ++
    line "\nEnvironment:".toList ++
    (r.environment.entries.map fun (name, s) => shortcutLine name s.term).flatten

/-- The answer to a request. -/
def Request.answer (files : Files) : Request → Except Failure Text
  | version => .ok versionText
  | help topic long => .ok (topic.text long)
  | eval query environment trace => do
    let (c, w) := (← environment.watcher files).query query
    .ok (conditionText w.view trace c)
  | rules text mask object environment trace => do
    let reader := if object then PayloadReader.literal else .text
    let w ← environment.watcher files
    let (l, w) ← (RuleList.read reader.read? text mask w).mapError .refused
    .ok (rulesText w.view trace l)
  | shortcuts options => do
    .ok (registryText (← options.registry files))

/-- How a run of the program ends. -/
inductive Outcome where
  | printed (t : Text)
  | failed (failure : Failure)
  /-- The arguments cannot be understood. -/
  | misused
deriving DecidableEq, Repr

def Outcome.code : Outcome → Nat
  | printed _ => 0
  | failed _ => 1
  | misused => 2

def Failure.report (f : Failure) : Text := "error: ".toList ++ f.message

/-- A run of the program with these arguments. -/
def outcome (files : Files) (args : List Text) : Outcome :=
  match Request.ofArguments? args with
  | none => .misused
  | some request =>
    match request.answer files with
    | .ok t => .printed t
    | .error failure => .failed failure

end MediaWatch.CommandLine

import MediaWatch.CommandLine.Switch

/-! # Help

What the program says of itself. The short help has a line for every switch, the long one a paragraph.
-/

namespace MediaWatch.CommandLine

def programName : Text := "mediq".toList

/-- What the program says when it is asked for its version. -/
def versionText : Text := programName ++ " 0.0.2\n".toList

def summary : Text := "Evaluate media queries and responsive rule lists".toList

namespace Verb

def summary : Verb → Text
  | eval => "Compile a query and print its canonical form and current value".toList
  | rules => "Resolve a rule list and print the active value".toList
  | shortcuts =>
    "Print the registered preprocessors, breakpoints and environment shortcuts".toList

def detail? : Verb → Option Text
  | eval =>
    some ("Examples: mediq eval \"@md\" --media width=1000 mediq eval ".toList ++
      "\"not @mobile and (min-width: 800px)\" --user-agent \"...\"".toList)
  | rules =>
    some ("Rules are `payload=>query` segments separated by `|`; a segment without `=>` is a ".toList ++
      "default rule. With `--mask`, RULES holds only the payloads and MASK the queries, ".toList ++
      "zipped in order.".toList)
  | shortcuts => none

def operandSummary : Verb → Text
  | eval => "The query, e.g. \"@+md and not print\"".toList
  | rules => "The rule list, e.g. \"wide=>@+md|narrow\"".toList
  | shortcuts => []

def switchSummary (v : Verb) (long : Bool) : Switch → Text
  | .media => "Media features (format: name=value)".toList
  | .config => "Shortcut config file (.json, .yaml or .yml)".toList
  | .userAgent => "User agent the device shortcuts are detected from".toList
  | .touch => "Report touch input as available".toList
  | .mask => "Queries zipped with the payloads of RULES".toList
  | .object => "Parse payloads as JSON5 literals and merge objects over the default".toList
  | .trace =>
    if v = rules then "Print every rule with its match state".toList
    else "Print the evaluation tree".toList
  | .help =>
    if v.detail?.isNone then "Print help".toList
    else if long then "Print help (see a summary with '-h')".toList
    else "Print help (see more with '--help')".toList

end Verb

def Switch.detail? : Switch → Option Text
  | .media =>
    some "Examples: width=1024, height=768, resolution=2, type=print, hover=none".toList
  | _ => none

def placeholder (name : Text) : Text := '<' :: (name ++ ['>'])

/-- A switch by its long name, with its value. -/
def Switch.spelled (s : Switch) : Text :=
  "--".toList ++ s.name ++ ((s.operand?.map fun name => ' ' :: placeholder name).getD [])

/-- A switch with its letter in front, or the room for one. -/
def Switch.heading (s : Switch) : Text :=
  ((s.letter?.map fun letter => ['-', letter, ',', ' ']).getD "    ".toList) ++ s.spelled

/-- An entry: its heading, its summary and what else there is to say. -/
structure HelpEntry where
  heading : Text
  summary : Text
  detail : Option Text := none

namespace HelpEntry

/-- An entry on one line, the heading filled up to a width. -/
def line (width : Nat) (entry : HelpEntry) : Text :=
  "  ".toList ++ Text.padRight width entry.heading ++ "  ".toList ++ entry.summary ++ ['\n']

def paragraph (entry : HelpEntry) : Text :=
  let margin := '\n' :: List.replicate 10 ' '
  "  ".toList ++ entry.heading ++ margin ++ entry.summary ++
    ((entry.detail.map fun detail => margin ++ margin ++ detail).getD []) ++ ['\n']

/-- Entries under a title. Long entries are set apart by empty lines. -/
def listing (title : Text) (long : Bool) (entries : List HelpEntry) : Text :=
  if entries.isEmpty then []
  else
    let width := (entries.map (·.heading.length)).foldl max 0
    '\n' :: (title ++ ":\n".toList ++
      if long then Text.joined ['\n'] (entries.map paragraph)
      else (entries.map (line width)).flatten)

end HelpEntry

def Verb.usage (v : Verb) : Text :=
  "Usage: ".toList ++ programName ++ [' '] ++ v.name ++ " [OPTIONS]".toList ++
    ((v.operand?.map fun name => ' ' :: placeholder name).getD []) ++ ['\n']

/-- The help of a verb. A verb of which nothing else is to be said has the short help only. -/
def Verb.help (v : Verb) (long : Bool) : Text :=
  let long := long && v.detail?.isSome
  let blank : Text := "\n\n".toList
  v.summary ++ (if long then (v.detail?.map (blank ++ ·)).getD [] else []) ++ blank ++ v.usage ++
    HelpEntry.listing "Arguments".toList long
      (v.operand?.toList.map fun name => ⟨placeholder name, v.operandSummary, none⟩) ++
    HelpEntry.listing "Options".toList long
      (v.switches.map fun s => ⟨s.heading, v.switchSummary long s, s.detail?⟩)

def helpSummary : Text := "Print this message or the help of the given subcommand(s)".toList

def programHelp : Text :=
  summary ++ "\n\nUsage: ".toList ++ programName ++ " <COMMAND>\n".toList ++
    HelpEntry.listing "Commands".toList false
      ((Verb.all.map fun v => ⟨v.name, v.summary, none⟩) ++
        [⟨HelpTopic.word, helpSummary, none⟩]) ++
    HelpEntry.listing "Options".toList false
      [⟨"-h, --help".toList, "Print help".toList, none⟩,
       ⟨"-V, --version".toList, "Print version".toList, none⟩]

def helpHelp : Text :=
  let topics := "[COMMAND]...".toList
  helpSummary ++ "\n\nUsage: ".toList ++ programName ++ [' '] ++ HelpTopic.word ++ [' '] ++ topics ++
    ['\n'] ++
    HelpEntry.listing "Arguments".toList false
      [⟨topics, "Print help for the subcommand(s)".toList, none⟩]

def HelpTopic.text (long : Bool) : HelpTopic → Text
  | program => programHelp
  | verb v => v.help long
  | help => helpHelp

end MediaWatch.CommandLine

import MediaWatch.CommandLine.Answer

/-! # The program

Reads the file that the arguments name, if any, and prints the answer.
-/

namespace MediaWatch.CommandLine

def FileFault.ofError : IO.Error → FileFault
  | .noFileOrDirectory _ _ _ => missing
  | .permissionDenied _ _ _ => forbidden
  | .inappropriateType _ code _ => if code = 21 then directory else notDirectory
  | .invalidArgument _ _ _ => longName
  | _ => missing

def readFile (path : Text) : IO (Except FileFault Text) := do
  try
    let bytes ← IO.FS.readBinFile (String.ofList path)
    match String.fromUTF8? bytes with
    | some content => return .ok content.toList
    | none => return .error .notText
  catch e => return .error (.ofError e)

def Outcome.print : Outcome → IO Unit
  | printed t => IO.print (String.ofList t)
  | failed failure => IO.eprintln (String.ofList failure.report)
  | misused => IO.eprint (String.ofList programHelp)

end MediaWatch.CommandLine

open MediaWatch.CommandLine

/-- Answers the arguments, and ends with the exit code of the answer. -/
def main (args : List String) : IO UInt32 := do
  let args := args.map (·.toList)
  let content ← match (Request.ofArguments? args).bind Request.file? with
    | some path => readFile path
    | none => pure (.error .missing)
  let ending := outcome (fun _ => content) args
  ending.print
  return ending.code.toUInt32

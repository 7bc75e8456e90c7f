/-
  Verdict.Main — the program: it reads the files and variables that a line may ask for,
  runs the line and prints what comes of it.
-/

import Verdict.CommandLine

namespace Verdict.Main

/-- What a file holds, if it can be read. -/
def readFile? (path : String) : IO (Option ByteArray) := do
  try
    return some (← IO.FS.readBinFile path)
  catch _ =>
    return none

def readFiles (paths : List String) : IO Document.Files := do
  let contents ← paths.mapM fun path => do return (path, ← readFile? path)
  return fun path => (contents.lookup path).join

def readEnvironment : IO Environment := do
  let names := Settings.variableEnds.map (Settings.variableStart ++ ·)
  let values ← names.mapM fun name => do return (name, ← IO.getEnv name)
  return fun name => (values.lookup name).join

def usageText : String := "\n".intercalate CommandLine.usageLines ++ "\n"

def print (c : CommandLine.Completion) : IO Unit := do
  for line in c.log do
    IO.eprintln (Log.lineText line)
  match c.output with
  | .usage => IO.print usageText
  | .text s => IO.print s
  if let some complaint := c.complaint then
    IO.eprintln complaint
  else if c.exitCode = 2 ∧ c.output = .text "" then
    IO.eprint usageText

end Verdict.Main

def main (args : List String) : IO UInt32 := do
  let files ← Verdict.Main.readFiles (Verdict.CommandLine.mentionedFiles args)
  let completion := Verdict.CommandLine.run (← Verdict.Main.readEnvironment) files args
  Verdict.Main.print completion
  return UInt32.ofNat completion.exitCode

import ScopedQuery.CommandLine.Respond

set_option autoImplicit false

namespace ScopedQuery.CommandLine

def contentOf (path : String) : IO (Option (String × String)) := do
  try
    let text ← IO.FS.readFile path
    return some (path, text)
  catch _ => return none

def valueOf (name : String) : IO (Option (String × String)) := do
  return (← IO.getEnv name).map fun value => (name, value)

def run (arguments : List String) : IO UInt32 := do
  let env ← variablesRead.filterMapM valueOf
  let files ← (filesNamed arguments).filterMapM contentOf
  let outcome := respond files env arguments
  IO.print outcome.output
  if let some complaint := outcome.complaint then
    IO.eprintln complaint
  return outcome.exitCode

end ScopedQuery.CommandLine

def main (arguments : List String) : IO UInt32 := ScopedQuery.CommandLine.run arguments

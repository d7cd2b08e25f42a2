import NetworkLoading.Program

/-!
# The command line program
-/

namespace NetworkLoading

/-- Carries out an action. Yields whether it succeeded. -/
def succeeds (action : IO Unit) : IO Bool := do
  try
    action
    return true
  catch _ => return false

/-- The text of a file. -/
def readSettings (path : String) : IO (Except FileFault String) := do
  try
    return .ok (← IO.FS.readFile path)
  catch
    | .inappropriateType .. => return .error .isDirectory
    | _ => return .error .notFound

/-- The machine on which the program runs. -/
def machine : Host IO where
  read := readSettings
  makeDirectory path := succeeds (if path = "" then pure () else IO.FS.createDirAll path)
  write path text := succeeds (IO.FS.writeFile path text)

end NetworkLoading

open NetworkLoading

def main (words : List String) : IO UInt32 := do
  let report ← Program.run machine words
  report.messages.forM fun line => IO.println line.onTerminal.render
  report.complaint.forM fun text => IO.eprintln text
  return report.exit

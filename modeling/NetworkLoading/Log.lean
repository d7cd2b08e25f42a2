import NetworkLoading.Text.Terminal

/-!
# Log messages
-/

namespace NetworkLoading

inductive LogLevel where
  | info
  | warn
deriving DecidableEq, Repr

/-- A message for whoever watches a run. -/
structure LogLine where
  level : LogLevel
  text : String
deriving DecidableEq, Repr

namespace LogLine

def info (text : String) : LogLine := ⟨.info, text⟩

def warn (text : String) : LogLine := ⟨.warn, text⟩

/-- The level stands before the text. -/
def render (line : LogLine) : String :=
  match line.level with
  | .info => s!"INFO {line.text}"
  | .warn => s!"WARN {line.text}"

/-- The message as a terminal shows it. -/
def onTerminal (line : LogLine) : LogLine :=
  { line with text := Text.withoutCommands line.text }

end LogLine

end NetworkLoading

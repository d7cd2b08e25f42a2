import NetworkLoading.Config.Override

/-!
# The command line

The words of a command line are options and their values. `-c` or `--config` names the file of
settings, and `--set` overrides a setting. The value of an option is the next word, or stands in the
same word.
-/

namespace NetworkLoading

/-- What a command line asks for. -/
structure Arguments where
  /-- The path of the file of settings. -/
  config : String
  overrides : List Override := []

/-- Why a command line is not carried out. -/
inductive UsageError where
  /-- The explanation of the options is asked for. -/
  | help
  /-- The version is asked for. -/
  | version
  | unknownArgument
  | missingValue
  /-- A value where none belongs. -/
  | needlessValue
  /-- An override without an equals sign. -/
  | malformedOverride
  | repeatedConfig
  | missingConfig
deriving DecidableEq

namespace CommandLine

/-- The options which take a value. -/
inductive ValueOption where
  | config
  | set
deriving DecidableEq

/-- What was read of a command line. -/
structure Progress where
  config : Option String := none
  overrides : List Override := []
  /-- The last option, with its value if that was read. It does not count before the next option or
  the end. -/
  pending : Option (ValueOption × Option String) := none

/-- The parts of a text before and after the first equals sign. -/
def splitEquals? (cs : List Char) : Option (String × String) :=
  match cs.dropWhile (· ≠ '=') with
  | [] => none
  | _ :: rest => some (String.ofList (cs.takeWhile (· ≠ '=')), String.ofList rest)

namespace Progress

/-- Gives a value to an option. -/
def assign (p : Progress) (option : ValueOption) (value : String) : Except UsageError Progress :=
  match option with
  | .config =>
    if p.config.isSome then .error .repeatedConfig else .ok { p with config := some value }
  | .set =>
    match splitEquals? value.toList with
    | none => .error .malformedOverride
    | some o => .ok { p with overrides := p.overrides ++ [o] }

/-- Makes the last option count. -/
def settle (p : Progress) : Except UsageError Progress :=
  match p.pending with
  | none => .ok p
  -- Another option or the end came where the value should have been.
  | some (_, none) => .error .missingValue
  | some (option, some value) => { p with pending := none }.assign option value

/-- An option, with its value if this is in the same word. -/
def option (p : Progress) (option : ValueOption) (value : Option String) :
    Except UsageError Progress :=
  p.settle.bind fun p =>
    match value with
    | some value => p.assign option value
    | none => .ok { p with pending := some (option, none) }

/-- A word which asks for something else than a simulation. -/
def ask (p : Progress) (what : UsageError) : Except UsageError Progress :=
  p.settle.bind fun _ => .error what

/-- A word that begins with two hyphens, which are left out. -/
def long (p : Progress) (cs : List Char) : Except UsageError Progress :=
  let name := String.ofList (cs.takeWhile (· ≠ '='))
  -- Without an equals sign the whole word is the name, and there is no value in it.
  let value := (splitEquals? cs).map (·.2)
  match name with
  | "config" => p.option .config value
  | "set" => p.option .set value
  | "help" => if value.isSome then .error .needlessValue else p.ask .help
  | "version" => if value.isSome then .error .needlessValue else p.ask .version
  | _ => .error .unknownArgument

/-- A word that begins with one hyphen, which is left out. -/
def short (p : Progress) : List Char → Except UsageError Progress
  | 'c' :: [] => p.option .config none
  -- An equals sign between an option of one letter and its value may be left out.
  | 'c' :: '=' :: cs => p.option .config (some (String.ofList cs))
  | 'c' :: cs => p.option .config (some (String.ofList cs))
  | 'h' :: _ => p.ask .help
  | 'V' :: _ => p.ask .version
  | _ => .error .unknownArgument

/-- A word which is no option can only be the value of the last option. -/
def value (p : Progress) (word : String) : Except UsageError Progress :=
  match p.pending with
  | some (option, none) => .ok { p with pending := some (option, some word) }
  | _ => .error .unknownArgument

/-- Reads words up to the end. Two hyphens alone end the options. -/
def read (p : Progress) : List String → Except UsageError Progress
  | [] => p.settle
  | word :: rest =>
    match word.toList with
    -- What follows two hyphens is no option, and nothing but options is taken.
    | ['-', '-'] => if rest.isEmpty then p.settle else .error .unknownArgument
    | '-' :: '-' :: cs => (p.long cs).bind fun p => p.read rest
    -- A single hyphen alone is a value like any other word.
    | '-' :: c :: cs => (p.short (c :: cs)).bind fun p => p.read rest
    | _ => (p.value word).bind fun p => p.read rest

end Progress

/-- Reads the words of a command line behind the name of the program. -/
def parse (words : List String) : Except UsageError Arguments :=
  (({} : Progress).read words).bind fun p =>
    match p.config with
    | none => .error .missingConfig
    | some config => .ok { config, overrides := p.overrides }

end CommandLine

end NetworkLoading

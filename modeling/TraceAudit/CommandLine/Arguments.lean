import TraceAudit.Source
import TraceAudit.Text.Split

/-!
# Arguments of the command line

A `Level` is a command with the options and operands that it takes. `Level.scan` reads arguments
from left to right into `Given`, and stops with a `Stop` at the first one that settles the outcome.

* An option with a value is written `--name value` or `--name=value`; a separate value may not look
  like an option;
* one-letter options may share a dash;
* after `--` all arguments are operands.
-/

namespace TraceAudit

/-- Why the arguments name no command to run. -/
inductive Stop where
  /-- The arguments are not understood. -/
  | misuse
  | help
  | version
deriving DecidableEq, Repr

/-- A command with the options and operands that it takes. -/
structure Level where
  /-- The commands that may follow. -/
  commands : List String
  /-- Options with a value that are given at most once. -/
  single : List String
  /-- Options with a value that may be repeated. -/
  repeated : List String
  /-- Options without a value that are given at most once. -/
  switches : List String
  /-- The number of operands, all of which are paths. -/
  operands : Nat
  /-- The version can be asked for. -/
  hasVersion : Bool

/-- What was given at one level. -/
structure Given where
  values : List (String × String)
  switches : List String
  operands : List String
deriving DecidableEq, Repr, Inhabited

namespace Given

def none : Given := ⟨[], [], []⟩

def value? (g : Given) (name : String) : Option String :=
  (g.values.find? (·.1 == name)).map (·.2)

def allValues (g : Given) (name : String) : List String :=
  (g.values.filter (·.1 == name)).map (·.2)

def has (g : Given) (name : String) : Bool := g.switches.contains name

end Given

namespace Level

/-- The value is one that the option admits. -/
def admits (name value : String) : Bool :=
  match name with
  | "output" => value == "text" || value == "json"
  | "timeout" | "poll-interval-ms" => (Decimal.u64? value.toList).isSome
  | "source" => (Source.ofName? value).isSome
  | "config" => !value.isEmpty
  | _ => true

/-- The argument would be read as an option. -/
def looksLikeOption (arg : String) : Bool := arg.toList.head? == some '-' && arg != "-"

def takeValue (l : Level) (g : Given) (name value : String) : Except Stop Given :=
  if !admits name value || (l.single.contains name && (g.value? name).isSome) then .error .misuse
  else .ok { g with values := g.values ++ [(name, value)] }

def takeSwitch (l : Level) (g : Given) (name : String) : Except Stop Given :=
  if name = "help" then .error .help
  else if name = "version" && l.hasVersion then .error .version
  else if name = "verbose" then .ok g
  else if l.switches.contains name && !g.has name then
    .ok { g with switches := g.switches ++ [name] }
  else .error .misuse

def takeLetters (l : Level) : List Char → Except Stop Unit
  | [] => .ok ()
  | 'v' :: rest => takeLetters l rest
  | 'h' :: _ => .error .help
  | 'V' :: _ => .error (if l.hasVersion then .version else .misuse)
  | _ :: _ => .error .misuse

def takeOperand (l : Level) (g : Given) (arg : String) : Except Stop Given :=
  if g.operands.length < l.operands && !arg.isEmpty then
    .ok { g with operands := g.operands ++ [arg] }
  else .error .misuse

/-- The name of a long option and, behind an equals sign, its value. -/
def splitLong? (arg : String) : Option (String × Option String) :=
  match arg.toList with
  | '-' :: '-' :: rest =>
    match Text.splitOnce '=' rest with
    | some (name, value) => some (String.ofList name, some (String.ofList value))
    | none => some (String.ofList rest, none)
  | _ => none

def takesValue (l : Level) (name : String) : Bool :=
  l.single.contains name || l.repeated.contains name

/-- The outcome of asking for help in the place of a command: behind it one command, or `help`
itself, may be named. -/
def helpOn (l : Level) : List String → Stop
  | [] => .help
  | [topic] => if topic = "help" || l.commands.contains topic then .help else .misuse
  | _ :: _ :: _ => .misuse

/-- Read arguments. Where a command may follow, gives it together with the arguments behind it. -/
def scan (l : Level) (g : Given) : List String → Except Stop (Given × Option (String × List String))
  | [] => .ok (g, none)
  | arg :: rest =>
    if l.commands.contains arg then .ok (g, some (arg, rest))
    else if arg = "help" && !l.commands.isEmpty then .error (l.helpOn rest)
    else if arg = "--" then do
      let g ← rest.foldlM l.takeOperand g
      .ok (g, none)
    else
      match splitLong? arg with
      | some (name, some value) =>
        if l.takesValue name then do
          let g ← l.takeValue g name value
          scan l g rest
        else .error .misuse
      | some (name, none) =>
        if l.takesValue name then
          match rest with
          | [] => .error .misuse
          | value :: rest =>
            if looksLikeOption value then .error .misuse
            else do
              let g ← l.takeValue g name value
              scan l g rest
        else do
          let g ← l.takeSwitch g name
          scan l g rest
      | none =>
        if looksLikeOption arg then do
          l.takeLetters (arg.toList.drop 1)
          scan l g rest
        else do
          let g ← l.takeOperand g arg
          scan l g rest

end Level
end TraceAudit

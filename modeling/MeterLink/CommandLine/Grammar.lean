import MeterLink.Meter.Tariff

/-!
# The grammar of the command line

A command has arguments that are told apart by their position, options that take a value, and
switches. An option may stand anywhere among the arguments until `--`, after which everything is
positional. The program itself is a command whose first word names the command inside it.

The text of an argument is read once the next one begins, so of two faults the one that is met
first in this sense is reported.
-/

namespace MeterLink.CommandLine

/-- Why the arguments are no invocation of the program, or a wish for text about it. -/
inductive UsageFault where
  | help
  /-- Nothing was asked for, which is answered by the help text. -/
  | nothingAsked
  | version
  /-- An option lacks its value, or a value is none of those possible. -/
  | impossibleValue
  /-- A value cannot be read. -/
  | unreadableValue
  | unknownArgument
  | repeatedOption
  /-- A switch was given a value. -/
  | unwantedValue
  | unknownCommand
  | missingCommand
  | missingArgument
deriving DecidableEq, Repr

/-- The exit code of the program. -/
def UsageFault.exitCode : UsageFault → Nat
  | .help => 0
  | .version => 0
  | _ => 2

/-- The value of an argument. -/
inductive Argument where
  | text (s : String)
  | port (p : UInt16)
  | object (id : ObjectId)
  | bytes (bs : Bytes)
  | amount (a : Amount)
  | instant (t : Instant)
  | choice (b : Bool)
  | element (e : Meter.Element)
  | log (l : ProfileLog)
deriving DecidableEq, Repr

/-- An argument that has a value: its name and how its text is read. -/
structure Parameter where
  name : String
  read : String → Except UsageFault Argument

/-- What may be given to a command. -/
structure Grammar where
  positionals : List Parameter := []
  /-- Options that take a value, by their long names. -/
  options : List Parameter := []
  /-- Options without a value, each of which is given once at most. -/
  switches : List String := []
  /-- The names of the commands inside the command. -/
  commands : List String := []
  /-- The command tells its version. -/
  hasVersion : Bool := false

/-- What has been read of a command line. -/
structure Progress where
  /-- The values that have been read. -/
  values : List (String × Argument) := []
  switches : List String := []
  /-- How many times more output was asked for. -/
  verbosity : Nat := 0
  /-- The argument whose text is still to be read or even to come. -/
  pending : Option (Parameter × Option String) := none
  /-- The positions that are still free. -/
  positionals : List Parameter
  /-- Everything that follows is positional. -/
  literal : Bool := false

namespace Progress

/-- Something was given. -/
def IsStarted (p : Progress) : Prop :=
  p.values ≠ [] ∨ p.switches ≠ [] ∨ p.verbosity ≠ 0

instance (p : Progress) : Decidable p.IsStarted := by
  unfold IsStarted; infer_instance

/-- An option is waiting for its value. -/
def awaitsValue (p : Progress) : Bool :=
  match p.pending with
  | some (_, none) => true
  | _ => false

/-- Reads the argument that is pending. -/
def settle (p : Progress) : Except UsageFault Progress :=
  match p.pending with
  | none => .ok p
  | some (_, none) => .error .impossibleValue
  | some (parameter, some text) =>
    if p.values.any fun v => v.1 = parameter.name then .error .repeatedOption
    else do
      let value ← parameter.read text
      return { p with values := p.values ++ [(parameter.name, value)], pending := none }

/-- Counts one more wish for output, up to the largest byte. -/
def countVerbose (p : Progress) : Except UsageFault Progress := do
  let p ← p.settle
  return { p with verbosity := min 255 (p.verbosity + 1) }

/-- Takes a switch. -/
def takeSwitch (p : Progress) (name : String) : Except UsageFault Progress := do
  let p ← p.settle
  if name ∈ p.switches then throw .repeatedOption
  return { p with switches := p.switches ++ [name] }

/-- Ends with a wish for text, unless the pending argument has a fault. -/
def wish (p : Progress) (fault : UsageFault) : Except UsageFault Progress := do
  let _ ← p.settle
  throw fault

/-- Takes an option by its long name, with the value that may be attached to it. -/
def takeLong (g : Grammar) (p : Progress) (name : String) (attached : Option String) :
    Except UsageFault Progress :=
  match g.options.find? fun o => o.name = name with
  | some option => do
    let p ← p.settle
    let p := { p with pending := some (option, attached) }
    if attached.isSome then p.settle else return p
  | none =>
    let known := name = "verbose" ∨ name = "help" ∨ name ∈ g.switches ∨
      (g.hasVersion ∧ name = "version")
    if ¬ known then throw .unknownArgument
    else if attached.isSome then throw .unwantedValue
    else if name = "verbose" then p.countVerbose
    else if name = "help" then p.wish .help
    else if name ∈ g.switches then p.takeSwitch name
    else p.wish .version

/-- Takes letters that stand for options without values. -/
def takeLetters (g : Grammar) : Progress → List Char → Except UsageFault Progress
  | p, [] => .ok p
  | p, c :: rest =>
    if c = 'v' then do
      let p ← p.countVerbose
      takeLetters g p rest
    else if c = 'h' then p.wish .help
    else if c = 'V' ∧ g.hasVersion then p.wish .version
    else .error .unknownArgument

/-- Takes the value of the next free position. -/
def takePositional (g : Grammar) (p : Progress) (text : String) : Except UsageFault Progress :=
  match p.positionals with
  | parameter :: rest => do
    let p ← p.settle
    return { p with pending := some (parameter, some text), positionals := rest }
  | [] =>
    if g.commands.isEmpty ∨ (p.literal ∧ text ∈ g.commands) then throw .unknownArgument
    else throw .unknownCommand

/-- Takes an argument that names no command. -/
def take (g : Grammar) (p : Progress) (text : String) : Except UsageFault Progress :=
  if p.literal then p.takePositional g text
  else
    match text.toList with
    | ['-', '-'] => return { p with literal := true }
    | '-' :: '-' :: rest =>
      let name := String.ofList (rest.takeWhile (· ≠ '='))
      let attached :=
        if '=' ∈ rest then some (String.ofList ((rest.dropWhile (· ≠ '=')).drop 1)) else none
      p.takeLong g name attached
    | '-' :: c :: rest => p.takeLetters g (c :: rest)
    | _ =>
      match p.pending with
      | some (parameter, none) => return { p with pending := some (parameter, some text) }
      | _ => p.takePositional g text

end Progress

/-- Reads arguments up to the name of a command inside this one, which comes back with the
arguments after it. -/
def scan (g : Grammar) : Progress → List String →
    Except UsageFault (Progress × Option (String × List String))
  | p, [] => .ok (p, none)
  | p, arg :: rest =>
    if !p.literal && !p.awaitsValue && arg ∈ g.commands then .ok (p, some (arg, rest))
    else do
      let p ← p.take g arg
      scan g p rest

end MeterLink.CommandLine

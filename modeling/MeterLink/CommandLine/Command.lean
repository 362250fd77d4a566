import MeterLink.Calendar.Timestamp
import MeterLink.CommandLine.Grammar

/-!
# Commands

What a person can ask of the program, and how the arguments of each command are given. Options
that belong to the program may also follow the name of a command, where they win.
-/

namespace MeterLink.CommandLine

/-- What a person can ask of the program. -/
inductive Command where
  | read (id : ObjectId)
  | write (id : ObjectId) (payload : Bytes)
  | sendRaw (field : Bytes)
  | serial
  | hardware
  | firmwareVersion
  | clockTime
  | setClock
  | signalQuality
  | voltage
  | phaseVoltages
  | balance
  | prepaymentEnabled
  | enablePrepayment (enabled : Bool)
  | sendToken (token : String)
  | paymentCount
  | payment
  | activeTariff (prices : Bool)
  | futureTariff (prices : Bool)
  | writeFlatTariff (t : Meter.FlatTariff)
  | timeSwitches (element : Meter.Element)
  | clearTimeSwitches (element : Meter.Element)
  | profileEntry (log : ProfileLog) (t : Instant)
  | objects
  | decodeRecord (id : ObjectId) (payload : Bytes)
  | decodeFrame (frame : Bytes) (verify : Bool)
deriving DecidableEq, Repr

/-- The command talks to a meter. -/
def Command.NeedsMeter : Command → Prop
  | .objects => False
  | .decodeRecord _ _ => False
  | .decodeFrame _ _ => False
  | _ => True

instance (c : Command) : Decidable c.NeedsMeter := by
  cases c <;> unfold Command.NeedsMeter <;> infer_instance

/-! ## Readers of arguments -/

def readText (s : String) : Except UsageFault Argument := .ok (.text s)

/-- A path has at least one character. -/
def readPath (s : String) : Except UsageFault Argument :=
  if s.isEmpty then .error .impossibleValue else .ok (.text s)

/-- A port; the zero may have a minus. -/
def readPort (s : String) : Except UsageFault Argument :=
  let n := match s.toList with
    | '-' :: rest => (decimalNumeral? rest).filter (· = 0)
    | cs => boundedNumeral? 0xffff cs
  match n with
  | some n => .ok (.port (UInt16.ofNat n))
  | none => .error .unreadableValue

def readObject (s : String) : Except UsageFault Argument :=
  match ObjectId.parseReference? s with
  | some id => .ok (.object id)
  | none => .error .unreadableValue

def readBytes (s : String) : Except UsageFault Argument :=
  match Hex.decodeSpaced s with
  | .ok bs => .ok (.bytes bs)
  | .error _ => .error .unreadableValue

def readAmount (s : String) : Except UsageFault Argument :=
  match Amount.parse s with
  | .ok a => .ok (.amount a)
  | .error _ => .error .unreadableValue

def readInstant (s : String) : Except UsageFault Argument :=
  match Timestamp.parse? s with
  | some t => .ok (.instant t)
  | none => .error .unreadableValue

/-- One of the given words. -/
def readWord (words : List (String × Argument)) (s : String) : Except UsageFault Argument :=
  match words.lookup s with
  | some value => .ok value
  | none => .error .impossibleValue

def readChoice : String → Except UsageFault Argument :=
  readWord [("true", .choice true), ("false", .choice false)]

def readElement : String → Except UsageFault Argument :=
  readWord [("a", .element .a), ("b", .element .b)]

def readLog : String → Except UsageFault Argument :=
  readWord [("1", .log .first), ("2", .log .second)]

/-! ## Grammars -/

/-- The options of the program, which every command accepts too. -/
def programOptions : List Parameter :=
  [⟨"config", readPath⟩, ⟨"host", readText⟩, ⟨"port", readPort⟩]

/-- The arguments of a command, once they have been read. -/
structure Arguments where
  values : List (String × Argument)
  switches : List String

namespace Arguments

def object? (a : Arguments) (name : String) : Option ObjectId :=
  match a.values.lookup name with
  | some (.object id) => some id
  | _ => none

def bytes? (a : Arguments) (name : String) : Option Bytes :=
  match a.values.lookup name with
  | some (.bytes bs) => some bs
  | _ => none

def text? (a : Arguments) (name : String) : Option String :=
  match a.values.lookup name with
  | some (.text s) => some s
  | _ => none

def port? (a : Arguments) (name : String) : Option UInt16 :=
  match a.values.lookup name with
  | some (.port p) => some p
  | _ => none

def choice? (a : Arguments) (name : String) : Option Bool :=
  match a.values.lookup name with
  | some (.choice b) => some b
  | _ => none

def amount? (a : Arguments) (name : String) : Option Amount :=
  match a.values.lookup name with
  | some (.amount x) => some x
  | _ => none

def instant? (a : Arguments) (name : String) : Option Instant :=
  match a.values.lookup name with
  | some (.instant t) => some t
  | _ => none

def element? (a : Arguments) (name : String) : Option Meter.Element :=
  match a.values.lookup name with
  | some (.element e) => some e
  | _ => none

def log? (a : Arguments) (name : String) : Option ProfileLog :=
  match a.values.lookup name with
  | some (.log l) => some l
  | _ => none

end Arguments

/-- A command by its name: its grammar, and the command that its arguments give if none of them
is missing. -/
structure CommandForm where
  name : String
  grammar : Grammar
  build : Arguments → Option Command

/-- A command without arguments of its own. -/
def plain (name : String) (command : Command) : CommandForm :=
  ⟨name, {}, fun _ => some command⟩

/-- All commands of the program. -/
def forms : List CommandForm := [
  ⟨"read", { positionals := [⟨"object", readObject⟩] }, fun a => do
    return .read (← a.object? "object")⟩,
  ⟨"write", { positionals := [⟨"object", readObject⟩, ⟨"payload", readBytes⟩] }, fun a => do
    return .write (← a.object? "object") (← a.bytes? "payload")⟩,
  ⟨"send-raw", { positionals := [⟨"data_field", readBytes⟩] }, fun a => do
    return .sendRaw (← a.bytes? "data_field")⟩,
  plain "serial" .serial,
  plain "hardware" .hardware,
  plain "firmware-version" .firmwareVersion,
  plain "clock-time" .clockTime,
  plain "clock-time-write" .setClock,
  plain "csq" .signalQuality,
  plain "instantaneous-voltage" .voltage,
  plain "three-phase-voltage" .phaseVoltages,
  plain "prepay-balance" .balance,
  plain "prepay-enabled" .prepaymentEnabled,
  ⟨"prepay-enabled-write", { positionals := [⟨"enabled", readChoice⟩] }, fun a => do
    return .enablePrepayment (← a.choice? "enabled")⟩,
  ⟨"prepay-send-token", { positionals := [⟨"token", readText⟩] }, fun a => do
    return .sendToken (← a.text? "token")⟩,
  plain "prepay-transaction-count" .paymentCount,
  plain "prepay-transaction-details" .payment,
  ⟨"tariffs-active", { switches := ["pricings"] }, fun a =>
    some (.activeTariff ("pricings" ∈ a.switches))⟩,
  ⟨"tariffs-future", { switches := ["pricings"] }, fun a =>
    some (.futureTariff ("pricings" ∈ a.switches))⟩,
  ⟨"tariffs-future-write", {
      options := [
        ⟨"from-ts", readInstant⟩, ⟨"standing-charge", readAmount⟩, ⟨"unit-rate", readAmount⟩,
        ⟨"emergency-credit", readAmount⟩, ⟨"ecredit-availability", readAmount⟩,
        ⟨"debt-recovery-rate", readAmount⟩] }, fun a => do
    return .writeFlatTariff {
      activation := ← a.instant? "from-ts"
      standingCharge := ← a.amount? "standing-charge"
      unitRate := ← a.amount? "unit-rate"
      emergencyCredit := (a.amount? "emergency-credit").getD .zero
      emergencyAvailability := (a.amount? "ecredit-availability").getD .zero
      debtRecoveryRate := (a.amount? "debt-recovery-rate").getD .zero }⟩,
  ⟨"tariffs-time-switches", { positionals := [⟨"element", readElement⟩] }, fun a => do
    return .timeSwitches (← a.element? "element")⟩,
  ⟨"tariffs-time-switches-clear", { positionals := [⟨"element", readElement⟩] }, fun a => do
    return .clearTimeSwitches (← a.element? "element")⟩,
  ⟨"profile-log", { positionals := [⟨"log", readLog⟩, ⟨"timestamp", readInstant⟩] }, fun a => do
    return .profileEntry (← a.log? "log") (← a.instant? "timestamp")⟩,
  plain "objects" .objects,
  ⟨"decode-record", { positionals := [⟨"object", readObject⟩, ⟨"payload", readBytes⟩] },
    fun a => do return .decodeRecord (← a.object? "object") (← a.bytes? "payload")⟩,
  ⟨"decode-frame", { positionals := [⟨"frame", readBytes⟩], switches := ["no-verify"] },
    fun a => do return .decodeFrame (← a.bytes? "frame") ("no-verify" ∉ a.switches)⟩]

/-- The name of the command that lists the others. -/
def helpCommand : String := "help"

/-- What may be given to the program. -/
def programGrammar : Grammar where
  options := programOptions
  commands := helpCommand :: forms.map CommandForm.name
  hasVersion := true

/-- A whole command line. -/
structure Invocation where
  verbosity : Nat
  config : Option String
  host : Option String
  port : Option UInt16
  command : Command
deriving DecidableEq, Repr

/-- What comes of a wish for help on a command, given after the name of the help command. -/
def helpFault : List String → UsageFault
  | [] => .help
  | [name] => if name ∈ programGrammar.commands then .help else .unknownCommand
  | _ => .unknownCommand

/-- Reads the arguments of a command. -/
def readCommand (form : CommandForm) (args : List String) :
    Except UsageFault (Progress × Command) := do
  let g := { form.grammar with options := form.grammar.options ++ programOptions }
  let (p, _) ← scan g { positionals := g.positionals } args
  let p ← p.settle
  match form.build ⟨p.values, p.switches⟩ with
  | some command => return (p, command)
  | none => throw .missingArgument

/-- Reads the arguments of the program. -/
def parse (args : List String) : Except UsageFault Invocation := do
  let (outer, inner?) ← scan programGrammar { positionals := [] } args
  match inner? with
  | none =>
    let outer ← outer.settle
    throw (if outer.IsStarted then .missingCommand else .nothingAsked)
  | some (name, rest) =>
    match forms.find? fun form => form.name = name with
    | none => throw (helpFault rest)
    | some form =>
      let (inner, command) ← readCommand form rest
      let outer ← outer.settle
      let a : Arguments := ⟨inner.values ++ outer.values, []⟩
      return {
        verbosity := if inner.verbosity = 0 then outer.verbosity else inner.verbosity
        config := a.text? "config"
        host := a.text? "host"
        port := a.port? "port"
        command }

end MeterLink.CommandLine

import MeterLink.CommandLine.Command
import MeterLink.Report
import MeterLink.Settings.Load

/-!
# Running commands

A command either has its result at once or is a call of the client. The options of the command
line replace what the settings say of the meter. Results are printed as JSON; failures give the
exit code by their kind.
-/

namespace MeterLink.CommandLine

/-- The call of a command that talks to a meter; `now` is the time to which the clock is set. -/
def Command.call (now : Instant) : Command → ClientM Json
  | .read id => do return recordReport id (← readRecord id)
  | .write id payload => do
    let response ← writePayload id payload
    return .ofMembers [("object", .string id.name), ("response", .ofBytes response)]
  | .sendRaw field => do return .ofBytes (← MeterLink.sendRaw field)
  | .serial => do return .string (← Meter.serial)
  | .hardware => do return (← Meter.hardware).toJson
  | .firmwareVersion => do return .string (← Meter.firmwareVersion)
  | .clockTime => do return .ofInstant (← Meter.clockTime)
  | .setClock => do
    Meter.setClock now
    return .ofMembers [("written", .ofInstant now)]
  | .signalQuality => do return (← Meter.signalQuality).toJson
  | .voltage => do return (← Meter.voltage).toJson
  | .phaseVoltages => do return (← Meter.phaseVoltages).toJson
  | .balance => do return .ofAmount (← Meter.balance)
  | .prepaymentEnabled => do return .bool (← Meter.prepaymentEnabled)
  | .enablePrepayment enabled => do
    Meter.enablePrepayment enabled
    return .ofMembers [("prepay_enabled", .bool enabled)]
  | .sendToken token => do
    Meter.sendToken token
    return .ofMembers [("token_sent", .bool true)]
  | .paymentCount => do return .ofNat (← Meter.paymentCount).toNat
  | .payment => do return (← Meter.payment).toJson
  | .activeTariff prices => do
    let tariff := (← Meter.activeTariff).toJson
    if prices then
      return tariff.withMember "pricings" (Meter.pricesJson (← Meter.pricingTable true))
    else return tariff
  | .futureTariff prices => do
    let tariff := (← Meter.futureTariff).toJson
    if prices then
      return tariff.withMember "pricings" (Meter.pricesJson (← Meter.pricingTable false))
    else return tariff
  | .writeFlatTariff t => do
    Meter.writeFlatTariff t
    return (← Meter.futureTariff).toJson
  | .timeSwitches element => do return .ofBytes (← Meter.timeSwitches element)
  | .clearTimeSwitches element => do
    Meter.clearTimeSwitches element
    return .ofMembers [("cleared", .string element.text)]
  | .profileEntry log t => do return profileJson (← Meter.profileEntry log t)
  | .objects => throw (.argument .needsNoMeter)
  | .decodeRecord _ _ => throw (.argument .needsNoMeter)
  | .decodeFrame _ _ => throw (.argument .needsNoMeter)

/-- The result of a command that works without a meter. -/
def Command.result : Command → Except Failure Json
  | .objects => .ok (.array (catalogue.map CatalogueEntry.toJson))
  | .decodeRecord id payload =>
    ((id.decodePayload payload).map (recordReport id)).mapError .codec
  | .decodeFrame frame verify =>
    ((if verify then Frame.decodeVerified frame else Frame.decode frame).map
      Frame.report).mapError .codec
  | _ => .error (.argument .needsMeter)

/-- What is to be done for an invocation. -/
inductive Task where
  | print (result : Json)
  /-- Makes a call to the meter that the settings name. -/
  | talk (host : String) (settings : Settings) (call : ClientM Json)

/-- The settings with the options of the command line. -/
def Invocation.settings (invocation : Invocation) (s : Settings) : Settings :=
  { s with
    meter := {
      host := invocation.host <|> s.meter.host
      port := invocation.port.getD s.meter.port } }

/-- What is to be done for an invocation with these settings. -/
def Invocation.task (invocation : Invocation) (now : Instant) (s : Settings) :
    Except Failure Task := do
  let s := invocation.settings s
  if invocation.command.NeedsMeter then
    let host ← s.host.mapError .settings
    return .talk host s (invocation.command.call now)
  else return .print (← invocation.command.result)

/-- The exit code for a failure. -/
def exitCode (e : Failure) : Nat :=
  match e.kind with
  | .argument => 2
  | .settings => 3
  | .connection => 4
  | .busy => 4
  | .protocol => 5

/-- What a program leaves behind: its exit code, and its lines for results and for failures. -/
structure Outcome where
  exitCode : Nat
  output : String
  complaint : Option String
deriving DecidableEq, Repr

def Outcome.ofResult : Except Failure Json → Outcome
  | .ok result => ⟨0, result.text ++ "\n", none⟩
  | .error e => ⟨CommandLine.exitCode e, "", some e.message⟩

end MeterLink.CommandLine

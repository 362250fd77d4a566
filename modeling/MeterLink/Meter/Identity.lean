import MeterLink.Meter.Reading

/-!
# What a meter says of itself

Its serial number, its hardware and its firmware.
-/

namespace MeterLink.Meter

/-- The hardware of a meter. -/
inductive Hardware where
  | singlePhase (model : String)
  /-- A meter with three phases names no model. -/
  | threePhase
deriving DecidableEq, Repr

/-- The hardware by its model; NULs and outer blanks do not count. -/
def Hardware.ofText (s : String) : Hardware :=
  let model := trimBlank (s.toList.filter (· ≠ '\x00'))
  if model.isEmpty then .threePhase else .singlePhase (String.ofList model)

/-- The byte is an ASCII character that shows. -/
def isGraphic (b : UInt8) : Bool :=
  0x21 ≤ b.toNat && b.toNat ≤ 0x7e

/-- A firmware version: four characters are divided by a point, anything else is shown as it
came. -/
def firmwareText (bs : Bytes) : String :=
  if bs.all isGraphic then
    match bs.map fun b => Char.ofNat b.toNat with
    | [a, b, c, d] => String.ofList [a, b, '.', c, d]
    | _ => Hex.encode bs
  else Hex.encode bs

def serial : ClientM String := do
  return trimmed (← readNamed Record.text? "serial")

def hardware : ClientM Hardware := do
  return Hardware.ofText (← readNamed Record.text? "hardware_version")

def firmwareVersion : ClientM String := do
  return firmwareText (← readBlock "firmware_version")

end MeterLink.Meter

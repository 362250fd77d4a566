import MeterLink.Catalogue.Entries
import MeterLink.Record.Codec

/-!
# Looking objects up

An object is found by its identifier or by its exact name. One that is not in the catalogue can
still be read: its payload is left as it came, and its identifier serves as its name.
-/

namespace MeterLink

namespace ObjectId

def entry? (id : ObjectId) : Option CatalogueEntry :=
  catalogue.find? fun e => e.id == id

/-- The shape of the object's record. -/
def shape (id : ObjectId) : Shape :=
  (id.entry?.map CatalogueEntry.shape).getD .raw

/-- The name of the object, or the digits of its identifier. -/
def name (id : ObjectId) : String :=
  (id.entry?.map CatalogueEntry.name).getD id.text

/-- The object with exactly this name. -/
def named? (name : String) : Option CatalogueEntry :=
  catalogue.find? fun e => e.name == name

/-- Reads a name from the catalogue or, failing that, an identifier. -/
def parseReference? (s : String) : Option ObjectId :=
  match named? s with
  | some e => some e.id
  | none => parse? s

/-- What is said of a text that is neither. -/
def referenceComplaint (s : String) : String :=
  complaint s ++ " (not a known object name either)"

/-- The price of the given block and rate, both counted from one to eight. -/
def blockRate? (active : Bool) (block rate : Nat) : Option ObjectId :=
  if 1 ≤ block ∧ block ≤ 8 ∧ 1 ≤ rate ∧ rate ≤ 8 then
    some (ofNat ((if active then 0xfff900 else 0xfff800) + (block - 1) * 8 + rate))
  else none

/-- The value of a payload that came for this object. -/
def decodePayload (id : ObjectId) (payload : Bytes) : Except CodecFault Record :=
  Record.decode id.shape payload

/-- The payload that carries a value of this object. -/
def encodePayload (id : ObjectId) (record : Record) : Except CodecFault Bytes :=
  record.encode id.shape

end ObjectId

end MeterLink

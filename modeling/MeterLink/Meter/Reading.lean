import MeterLink.Client.Transaction

/-!
# Reading objects by name

The calls of a meter name the objects that they use. Each read takes the record through a view
that picks out the kind of value it is after; the shapes in the catalogue see to it that the view
never fails.
-/

namespace MeterLink.Meter

/-- The object with this name. -/
def object (name : String) : Except Failure ObjectId :=
  match ObjectId.named? name with
  | some e => .ok e.id
  | none => .error (.argument (.unknownObject name))

/-- A record of a kind that the shape of its object does not announce. -/
def unexpected (id : ObjectId) (record : Record) : Failure :=
  .codec (.mismatch id.shape (.readAs id.name record.kind))

/-- What a view shows of the object's record. -/
def readView {α : Type} (view : Record → Option α) (id : ObjectId) : ClientM α := do
  let record ← readRecord id
  match view record with
  | some a => return a
  | none => throw (unexpected id record)

/-- What a view shows of the record of the object with this name. -/
def readNamed {α : Type} (view : Record → Option α) (name : String) : ClientM α := do
  let id ← object name
  readView view id

/-- Writes a payload to the object with this name. -/
def writeNamed (name : String) (payload : Bytes) : ClientM Unit := do
  let id ← object name
  let _ ← writePayload id payload

def readUnsigned (name : String) : ClientM UInt32 :=
  readNamed Record.unsigned? name

/-- The number of a record as an amount of money. -/
def amount? (record : Record) : Option Amount :=
  record.integer?.map Amount.ofUnits

def readAmount (name : String) : ClientM Amount :=
  readNamed amount? name

def readBlock (name : String) : ClientM Bytes :=
  readNamed Record.block? name

end MeterLink.Meter

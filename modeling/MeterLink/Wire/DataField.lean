import MeterLink.Catalogue

/-!
# Data fields

The part of a frame that says what is asked for or answered. Its first byte is a tag: an object
is read or written, or an entry of one of the two profile logs is fetched by its time.
-/

namespace MeterLink

/-- The identifier at the front of the bytes. -/
def ObjectId.ofFront : Bytes → Except CodecFault ObjectId
  | b₀ :: b₁ :: b₂ :: _ => .ok (.ofBytes b₀ b₁ b₂)
  | bs => .error (.truncated 3 bs.length)

/-- The two logs of consumption profiles. -/
inductive ProfileLog where
  | first
  | second
deriving DecidableEq, Repr

/-- The layouts that a tag announces. -/
inductive FieldFormat where
  | object
  | profile (log : ProfileLog)
deriving DecidableEq, Repr

namespace FieldFormat

def tag : FieldFormat → UInt8
  | .object => 1
  | .profile .first => 3
  | .profile .second => 4

def ofTag (tag : UInt8) : Except CodecFault FieldFormat :=
  match tag.toNat with
  | 1 => .ok .object
  | 3 => .ok (.profile .first)
  | 4 => .ok (.profile .second)
  | _ => .error (.unknownFormat tag)

end FieldFormat

/-- Whether an object is read or written. -/
inductive Access where
  | read
  | write
deriving DecidableEq, Repr

namespace Access

def flag : Access → UInt8
  | .read => 0
  | .write => 1

def ofFlag (flag : UInt8) : Except CodecFault Access :=
  match flag.toNat with
  | 0 => .ok .read
  | 1 => .ok .write
  | _ => .error (.invalid (.accessFlag flag))

end Access

/-- The 80 bytes of an entry of a profile log. -/
structure ProfileBlock where
  bytes : Bytes
  length_bytes : bytes.length = 80
deriving DecidableEq, Repr

/-- What a frame asks or answers. -/
inductive DataField where
  | object (id : ObjectId) (access : Access) (payload : Bytes)
  /-- The entry at a time in seconds of the meter, with its block once the meter has answered. -/
  | profile (log : ProfileLog) (time : UInt32) (block : Option ProfileBlock)
deriving DecidableEq, Repr

namespace DataField

def readObject (id : ObjectId) : DataField := .object id .read []

def writeObject (id : ObjectId) (payload : Bytes) : DataField := .object id .write payload

def format : DataField → FieldFormat
  | .object .. => .object
  | .profile log .. => .profile log

/-- What the field carries besides its header. -/
def payload : DataField → Bytes
  | .object _ _ payload => payload
  | .profile _ _ none => []
  | .profile _ _ (some block) => block.bytes

/-- The part of the wire form that follows the tag. -/
def body : DataField → Bytes
  | .object id access payload => id.bytes ++ access.flag :: payload
  | .profile _ time block => littleEndian 4 time.toNat ++ (block.map ProfileBlock.bytes).getD []

/-- The wire form. -/
def encode (field : DataField) : Bytes :=
  field.format.tag :: field.body

/-- The number of bytes of the wire form. -/
def size (field : DataField) : Nat :=
  5 + field.payload.length

/-- Reads the part of an object field that follows the tag. -/
def decodeObject : Bytes → Except CodecFault DataField
  | b₀ :: b₁ :: b₂ :: flag :: payload => do
    return .object (.ofBytes b₀ b₁ b₂) (← Access.ofFlag flag) payload
  | body => .error (.truncated 5 (body.length + 1))

/-- Reads the part of a profile field that follows the tag. Bytes after the block are ignored. -/
def decodeProfile (log : ProfileLog) : Bytes → Except CodecFault DataField
  | t₀ :: t₁ :: t₂ :: t₃ :: rest =>
    let time := UInt32.ofNat (ofLittleEndian [t₀, t₁, t₂, t₃])
    if rest.isEmpty then .ok (.profile log time none)
    else if h : 80 ≤ rest.length then
      .ok (.profile log time (some ⟨rest.take 80, List.length_take_of_le h⟩))
    else .error (.truncated 85 (rest.length + 5))
  | body => .error (.truncated 5 (body.length + 1))

/-- Reads a field that takes up all the bytes. -/
def decode : Bytes → Except CodecFault DataField
  | [] => .error (.truncated 1 0)
  | tag :: body => do
    match ← FieldFormat.ofTag tag with
    | .object => decodeObject body
    | .profile log => decodeProfile log body

/-- The field in one line, for people. -/
def text : DataField → String
  | .object id access payload =>
    let verb := match access with
      | .read => "Read"
      | .write => "Write"
    s!"default {verb} {id.text} [{Hex.encode payload}]"
  | .profile log time block =>
    let which := match log with
      | .first => "First"
      | .second => "Second"
    let size := if block.isSome then 80 else 0
    s!"profile log {which} ts={time.toNat} payload={size}"

@[simp] theorem length_encode (field : DataField) : field.encode.length = field.size := by
  cases field with
  | object id access payload =>
    simp [encode, body, size, DataField.payload, ObjectId.bytes]; omega
  | profile log time block =>
    cases block <;> simp [encode, body, size, DataField.payload]; omega

end DataField

end MeterLink

import MeterLink.Record.Value
import MeterLink.Record.Writer

/-!
# Reading and writing records

Numbers have their least significant byte first. Text is filled up with NUL on writing and loses
its trailing NULs on reading. The fields of a packed record follow each other from the most
significant bit on. A shape of fixed width reads exactly its width and ignores what follows. The
size of an array is not checked for being too large for a word.

`Record.write` says which bytes a value has, and `Record.emit` puts them into a buffer, one part
after the other.
-/

namespace MeterLink

/-- The first `n` bytes. -/
def takeExact (n : Nat) (buf : Bytes) : Except CodecFault Bytes :=
  if n ≤ buf.length then .ok (buf.take n) else .error (.truncated n buf.length)

/-- The offset and the value of the first byte that is not ASCII. -/
def firstNonAscii? (bs : Bytes) : Option (UInt8 × Nat) :=
  bs.zipIdx.find? fun p => 128 ≤ p.1.toNat

/-- The text of ASCII bytes, without trailing NULs. -/
def readAscii (bs : Bytes) : Except CodecFault String :=
  match firstNonAscii? bs with
  | some (byte, offset) => .error (.invalid (.notAscii byte offset))
  | none =>
    .ok (String.ofList ((bs.reverse.dropWhile (· == 0)).reverse.map fun b => Char.ofNat b.toNat))

/-- The 16-bit numbers of consecutive pairs of bytes. -/
def read16s : Bytes → List UInt16
  | a :: b :: rest => UInt16.ofNat (ofLittleEndian [a, b]) :: read16s rest
  | _ => []

/-- The fields of a packed record, from a word whose `remaining` low bits are still to be read. -/
def readFields (word : Nat) : Nat → List BitField → List (String × UInt32)
  | _, [] => []
  | remaining, f :: fs =>
    let rest := remaining - f.bits
    (f.name, UInt32.ofNat ((word >>> rest) % (1 <<< f.bits))) :: readFields word rest fs

def readClock : Bytes → ClockReading
  | [y, mo, d, h, mi, s, w] => ⟨y, mo, d, h, mi, s, Weekday.ofCode w⟩
  | _ => ⟨0, 0, 0, 0, 0, 0, .monday⟩

/-- The number whose bytes are given least significant first, in two's complement. -/
def readInt32 (bs : Bytes) : Int32 :=
  (UInt32.ofNat (ofLittleEndian bs)).toInt32

/-- The bytes of a signed number, least significant first. -/
def writeInt32 (v : Int32) : Bytes :=
  littleEndian 4 v.toUInt32.toNat

namespace Record

/-- The value of a payload of this shape. -/
def decode (shape : Shape) (buf : Bytes) : Except CodecFault Record :=
  match shape with
  | .u8 => do
    let bs ← takeExact 1 buf
    return .u8 (UInt8.ofNat (ofLittleEndian bs))
  | .u16 => do
    let bs ← takeExact 2 buf
    return .u16 (UInt16.ofNat (ofLittleEndian bs))
  | .u32 => do
    let bs ← takeExact 4 buf
    return .u32 (UInt32.ofNat (ofLittleEndian bs))
  | .i32 => do
    let bs ← takeExact 4 buf
    return .i32 (readInt32 bs)
  | .ascii (.fixed n) => do
    let bs ← takeExact n buf
    return .text (← readAscii bs)
  | .ascii .remainder => do
    return .text (← readAscii buf)
  | .bits layout => do
    let bs ← takeExact (totalBits layout / 8) buf
    return .bits (readFields (ofBigEndian bs) (totalBits layout) layout)
  | .u16s n => do
    let bs ← takeExact (wrapped (2 * n)) buf
    return .u16s (read16s bs)
  | .block (.fixed n) => do
    return .block (← takeExact n buf)
  | .block .remainder => return .block buf
  | .clock => do
    return .clock (readClock (← takeExact 7 buf))
  | .payment =>
    if h : 16 ≤ buf.length then
      .ok (.payment ⟨buf.take 8, UInt32.ofNat (ofLittleEndian ((buf.drop 8).take 4)),
        readInt32 ((buf.drop 12).take 4), by simp; omega⟩)
    else .error (.truncated 16 buf.length)
  | .empty => return .empty

end Record

/-- Whether all characters of a text are ASCII. -/
def isAscii (s : String) : Bool :=
  s.toList.all fun c => c.toNat < 128

/-- The bytes of an ASCII text. -/
def asciiBytes (s : String) : Bytes :=
  s.toList.map fun c => UInt8.ofNat c.toNat

/-- The first field whose value needs more bits than it has. -/
def overflow? (layout : List BitField) (values : List UInt32) : Option (BitField × UInt32) :=
  (layout.zip values).find? fun p => 1 <<< p.1.bits ≤ p.2.toNat

/-- The word in which the values follow each other, the first one at the top. -/
def packFields (layout : List BitField) (values : List UInt32) : Nat :=
  (layout.zip values).foldl (fun word p => (word <<< p.1.bits) + p.2.toNat) 0

/-- Names the values after the fields of a layout. -/
def nameFields (layout : List BitField) (values : List UInt32) :
    Except CodecFault (List (String × UInt32)) :=
  if layout.length ≠ values.length then
    .error (.mismatch (.bits layout) (.fieldCount layout.length values.length))
  else match overflow? layout values with
    | some (f, v) => .error (.mismatch (.bits layout) (.fieldOverflow f.name v f.bits))
    | none => .ok ((layout.map BitField.name).zip values)

/-- The bytes of a text, filled up with NUL where the extent is fixed. -/
def writeAscii (extent : Extent) (s : String) : Except Misfit Bytes :=
  if isAscii s then
    match extent with
    | .remainder => .ok (asciiBytes s)
    | .fixed n =>
      if s.length ≤ n then .ok (asciiBytes s ++ List.replicate (n - s.length) 0)
      else .error (.textTooLong s.length n)
  else .error .notAscii

/-- The bytes of a packed record. -/
def writeFields (layout : List BitField) (fields : List (String × UInt32)) : Except Misfit Bytes :=
  if layout.map BitField.name ≠ fields.map Prod.fst then .error .otherFields
  else match overflow? layout (fields.map Prod.snd) with
    | some (f, v) => .error (.fieldOverflow f.name v f.bits)
    | none => .ok (bigEndian (totalBits layout / 8) (packFields layout (fields.map Prod.snd)))

def writeClock (t : ClockReading) : Bytes :=
  [t.year, t.month, t.date, t.hour, t.minute, t.second, t.weekday.code]

namespace Record

/-- The bytes of a value in this shape, or why it has none. -/
def write (shape : Shape) (record : Record) : Except Misfit Bytes :=
  match shape, record with
  | .u8, .u8 v => .ok [v]
  | .u16, .u16 v => .ok (littleEndian 2 v.toNat)
  | .u32, .u32 v => .ok (littleEndian 4 v.toNat)
  | .i32, .i32 v => .ok (writeInt32 v)
  | .ascii extent, .text s => writeAscii extent s
  | .bits layout, .bits fields => writeFields layout fields
  | .u16s n, .u16s vs =>
    if vs.length = n then .ok (vs.flatMap fun v => littleEndian 2 v.toNat)
    else .error (.valueCount n vs.length)
  | .block .remainder, .block bs => .ok bs
  | .block (.fixed n), .block bs =>
    if bs.length = n then .ok bs else .error (.byteCount n bs.length)
  | .clock, .clock t => .ok (writeClock t)
  | .payment, .payment p =>
    .ok (p.reserved ++ littleEndian 4 p.time.toNat ++ writeInt32 p.value)
  | .empty, .empty => .ok []
  | _, r => .error (.kind r.kind)

end Record

/-! ## Writing to a buffer -/

/-- The word of the values, each checked against its field before it is shifted in. -/
def packWord (word : Nat) : List (BitField × UInt32) → Except Misfit Nat
  | [] => .ok word
  | (f, v) :: rest =>
    if 1 <<< f.bits ≤ v.toNat then .error (.fieldOverflow f.name v f.bits)
    else packWord ((word <<< f.bits) ||| v.toNat) rest

open Writer (emit)

/-- Writes a text, filled up with NUL where the extent is fixed. -/
def emitAscii (extent : Extent) (s : String) : Writer Unit :=
  if isAscii s then
    match extent with
    | .remainder => emit (asciiBytes s)
    | .fixed n =>
      if s.length ≤ n then do
        emit (asciiBytes s)
        emit (List.replicate (n - s.length) 0)
      else throw (.textTooLong s.length n)
  else throw .notAscii

/-- Writes a packed record. -/
def emitFields (layout : List BitField) (fields : List (String × UInt32)) : Writer Unit :=
  if layout.map BitField.name ≠ fields.map Prod.fst then throw .otherFields
  else do
    let word ← packWord 0 (layout.zip (fields.map Prod.snd))
    emit (bigEndian (totalBits layout / 8) word)

namespace Record

/-- Writes a value in this shape. -/
def emit (shape : Shape) (record : Record) : Writer Unit :=
  match shape, record with
  | .u8, .u8 v => Writer.emit [v]
  | .u16, .u16 v => Writer.emit (littleEndian 2 v.toNat)
  | .u32, .u32 v => Writer.emit (littleEndian 4 v.toNat)
  | .i32, .i32 v => Writer.emit (writeInt32 v)
  | .ascii extent, .text s => emitAscii extent s
  | .bits layout, .bits fields => emitFields layout fields
  | .u16s n, .u16s vs =>
    if vs.length = n then vs.forM fun v => Writer.emit (littleEndian 2 v.toNat)
    else throw (.valueCount n vs.length)
  | .block .remainder, .block bs => Writer.emit bs
  | .block (.fixed n), .block bs =>
    if bs.length = n then Writer.emit bs else throw (.byteCount n bs.length)
  | .clock, .clock t => Writer.emit (writeClock t)
  | .payment, .payment p => do
    Writer.emit p.reserved
    Writer.emit (littleEndian 4 p.time.toNat)
    Writer.emit (writeInt32 p.value)
  | .empty, .empty => pure ()
  | _, r => throw (.kind r.kind)

/-- Writes a value in this shape to a buffer: the result, and the buffer that is left. -/
def appendTo (shape : Shape) (record : Record) (out : Bytes) : Except CodecFault Unit × Bytes :=
  let (result, out) := (record.emit shape).on out
  (result.mapError (.mismatch shape), out)

/-- The bytes of a value in this shape, written to a buffer of their own. -/
def encode (shape : Shape) (record : Record) : Except CodecFault Bytes :=
  let (result, out) := record.appendTo shape []
  result.map fun _ => out

end Record

end MeterLink

import MeterLink.Toml.Quoted
import MeterLink.Toml.Tree

/-!
# Statements of a TOML file

A file is a row of statements: headers, which open tables, and pairs of a dotted key and a value.
Containers are nested to a fixed depth at most, which is also what bounds the reader.
-/

namespace MeterLink.Toml

open Reader

/-- Blanks within a line. -/
def blanks : Reader Unit :=
  modify (·.dropWhile fun c => c = ' ' || c = '\t')

def lineEnd : Reader Unit := fun
  | '\n' :: rest => some ((), rest)
  | '\r' :: '\n' :: rest => some ((), rest)
  | _ => none

def comment : Reader Unit := do
  let _ ← charIn ['#']
  let _ ← run isPrintable

/-- What may follow a statement on its line. -/
def lineRest : Reader Unit := do
  blanks
  let _ ← optional comment
  lineEnd <|> atEnd

/-- Blanks, comments and line ends. -/
def blankLines : Reader Unit := do
  let _ ← many (do blanks; let _ ← optional comment; lineEnd)
  blanks

/-- The depth to which containers may be nested, and one more than keys may have parts. -/
def depthLimit : Nat := 80

/-- One part of a key. -/
def keyPart : Reader String :=
  singleLine <|> do
    let cs ← run fun c => c.isAlphanum || c = '-' || c = '_'
    if cs.isEmpty then failure else return String.ofList cs

/-- A key of one or more parts with points between them. -/
def key : Reader (List String) := do
  let path ← separated (do blanks; let part ← keyPart; blanks; return part)
    (do let _ ← charIn ['.'])
  if path.length < depthLimit then return path else failure

/-- Digits after the first one; an underscore may stand between two of them. -/
def digitsAfter (p : Char → Bool) : List Char → List Char × List Char
  | [] => ([], [])
  | c :: rest =>
    if p c then
      let (ds, rest) := digitsAfter p rest
      (c :: ds, rest)
    else if c = '_' then
      match rest with
      | d :: rest =>
        if p d then
          let (ds, rest) := digitsAfter p rest
          (d :: ds, rest)
        else ([], c :: d :: rest)
      | [] => ([], [c])
    else ([], c :: rest)

/-- A row of digits without its underscores. -/
def digitRow (p : Char → Bool) : Reader (List Char) := do
  let first ← charThat p
  let s ← get
  let (ds, rest) := digitsAfter p s
  set rest
  return first :: ds

/-- A sign, if there is one. -/
def sign : Reader (List Char) := do
  return (← optional (charIn ['+', '-'])).toList

/-- A decimal integer; only the zero itself starts with one. -/
def decimal : Reader (List Char) := do
  let sign ← sign
  let ds ← (do return [← charIn ['0']]) <|> digitRow isDecimalDigit
  return sign ++ ds

/-- The value of a decimal integer. -/
def decimalValue? : List Char → Option Int
  | '-' :: ds => (decimalNumeral? ds).map fun n => -(n : Int)
  | ds => (decimalNumeral? (dropPlus ds)).map Int.ofNat

/-- The value of digits in a base. -/
def radix (base : Nat) (accepted : Char → Bool) : Reader Int := do
  let ds ← digitRow accepted
  return ofDigits base (ds.map fun c => (Hex.digitValue? c).getD 0)

def readInteger : Reader Int := do
  let n ← (do exactly ['0', 'x']; radix 16 fun c => (Hex.digitValue? c).isSome)
    <|> (do exactly ['0', 'o']; radix 8 fun c => c ∈ ['0', '1', '2', '3', '4', '5', '6', '7'])
    <|> (do exactly ['0', 'b']; radix 2 fun c => c ∈ ['0', '1'])
    <|> (do StateT.lift (decimalValue? (← decimal)))
  if FitsInteger n then return n else failure

/-- The digits and the exponent of a float without its sign give no more than the largest
float. Its whole part decides, since the least number that is too large is whole. -/
def isFinite (whole frac : List Char) (exponent : Int) : Bool :=
  let digits := (whole ++ frac).dropWhile (· = '0')
  let magnitude := digits.length + exponent - frac.length
  if digits.isEmpty || magnitude ≤ 308 then true
  else if 310 ≤ magnitude then false
  else
    let row := digits.filterMap decimalDigit? ++ List.replicate 309 0
    ofDigits 10 (row.take magnitude.toNat) < (1 <<< 1024) - (1 <<< 970)

/-- The digits of an exponent with their sign. -/
def exponent : Reader (List Char) := do
  let _ ← charIn ['e', 'E']
  let sign ← sign
  return sign ++ (← digitRow isDecimalDigit)

/-- A float with a fraction or an exponent, or the name of a special one. -/
def readFloat : Reader String :=
  (do
    let whole ← decimal
    let frac ← optional (do let _ ← charIn ['.']; digitRow isDecimalDigit)
    let exp ← optional exponent
    if frac.isNone && exp.isNone then failure
    let e ← StateT.lift (decimalValue? (exp.getD ['0']))
    let digits := whole.filter isDecimalDigit
    if '-' ∉ whole && !isFinite digits (frac.getD []) e then failure
    let fracText := match frac with
      | some ds => '.' :: ds
      | none => []
    let expText := match exp with
      | some ds => 'e' :: ds
      | none => []
    return String.ofList (whole ++ fracText ++ expText))
  <|> do
    let sign ← sign
    let name ← (do exactly "inf".toList; return "inf".toList)
      <|> (do exactly "nan".toList; return "nan".toList)
    return String.ofList (sign ++ name)

/-- Days of a month of a year. -/
def monthDays (year month : Nat) : Nat :=
  if month = 2 then
    if year % 4 = 0 ∧ (year % 100 ≠ 0 ∨ year % 400 = 0) then 29 else 28
  else if month = 4 ∨ month = 6 ∨ month = 9 ∨ month = 11 then 30
  else 31

def dateParts : Reader Unit := do
  let year ← fixedNumber 4 0 9999
  let _ ← charIn ['-']
  let month ← fixedNumber 2 1 12
  let _ ← charIn ['-']
  let _ ← fixedNumber 2 1 (monthDays year month)

def timeParts : Reader Unit := do
  let _ ← fixedNumber 2 0 23
  let _ ← charIn [':']
  let _ ← fixedNumber 2 0 59
  let _ ← charIn [':']
  let _ ← fixedNumber 2 0 60
  let _ ← optional (do
    let _ ← charIn ['.']
    let ds ← run isDecimalDigit
    if ds.isEmpty then failure)

def offsetParts : Reader Unit :=
  (do let _ ← charIn ['Z', 'z']) <|> do
    let _ ← charIn ['+', '-']
    let _ ← fixedNumber 2 0 23
    let _ ← charIn [':']
    let _ ← fixedNumber 2 0 59

/-- A date, a time or both, as it is written. -/
def readDatetime : Reader String := do
  let s ← get
  (do
    dateParts
    let _ ← optional (do
      let _ ← charIn ['T', 't', ' ']
      timeParts
      let _ ← optional offsetParts)) <|> timeParts
  return String.ofList (s.take (s.length - (← get).length))

def readBoolean : Reader Bool :=
  (do exactly "true".toList; return true) <|> do exactly "false".toList; return false

/-- A value that holds no other values. -/
def readScalar : Reader Toml :=
  (Toml.string <$> quotedText) <|> (Toml.datetime <$> readDatetime)
    <|> (Toml.float <$> readFloat) <|> (Toml.integer <$> readInteger)
    <|> (Toml.boolean <$> readBoolean)

/-- A key, an equals sign and what follows them. -/
def pair {α : Type} (item : Reader α) : Reader (List String × α) := do
  let path ← key
  let _ ← charIn ['=']
  blanks
  return (path, ← item)

/-- Items between brackets, with commas between them and possibly after the last one. -/
def bracketed (item : Reader Toml) : Reader (List Toml) := do
  let _ ← charIn ['[']
  let items ← optional (do
    let items ← separated (do blankLines; let v ← item; blankLines; return v)
      (do let _ ← charIn [','])
    let _ ← optional (charIn [','])
    return items)
  blankLines
  let _ ← charIn [']']
  return items.getD []

/-- Pairs between braces, with commas between them. -/
def braced (item : Reader Toml) : Reader (List (String × Toml)) := do
  let _ ← charIn ['\x7b']
  let pairs ← optional (separated (do let p ← pair item; blanks; return p)
    (do let _ ← charIn [',']))
  blanks
  let _ ← charIn ['\x7d']
  let entries ← StateT.lift ((pairs.getD []).foldlM (fun entries p => assign p.2 p.1 entries) [])
  return entriesToToml entries

/-- A value with containers nested to this depth at most. -/
def valueWithin : Nat → Reader Toml
  | 0 => readScalar
  | depth + 1 =>
    readScalar <|> (Toml.array <$> bracketed (valueWithin depth))
      <|> (Toml.table <$> braced (valueWithin depth))

/-- A value of a file. -/
def readValue : Reader Toml := valueWithin (depthLimit - 1)

/-- A statement of a file. -/
inductive Statement where
  | pair (path : List String) (value : Toml)
  /-- The header of a table. -/
  | table (path : List String)
  /-- The header of one more table of an array. -/
  | item (path : List String)
deriving Repr

def statement : Reader Statement :=
  (do
    exactly ['[', '[']
    let path ← key
    exactly [']', ']']
    return .item path)
  <|> (do
    exactly ['[']
    let path ← key
    exactly [']']
    return .table path)
  <|> do
    let (path, v) ← pair readValue
    return .pair path v

/-- A statement with the blank lines before it and the rest of its line. -/
def statementLine : Reader Statement := do
  blankLines
  let s ← statement
  lineRest
  return s

/-- The statements of a whole file. -/
def statements : Reader (List Statement) := do
  let _ ← optional (exactly ['\uFEFF'])
  let all ← many statementLine
  blankLines
  let _ ← optional comment
  return all

/-- The table that statements define, with the path of the last header. -/
def define : List String × Entries → Statement → Option (List String × Entries)
  | (here, root), .pair path v =>
    (atPath (assign v path) here root).map fun root => (here, root)
  | (_, root), .table path => (openTable path root).map fun root => (path, root)
  | (_, root), .item path => (openItem path root).map fun root => (path, root)

/-- Reads a whole file. -/
def parse? (text : String) : Option Toml := do
  let all ← readAll? statements text.toList
  let (_, root) ← all.foldlM define ([], [])
  return .table (entriesToToml root)

end MeterLink.Toml

import MeterLink.Text.Numeral

/-!
# JSON values and their text

Numbers are decimal: a whole number and the places after its point. The members of an object are
kept in the order of their names, and of equal names the last one counts. The text has an item a
line, indented by two blanks a level.
-/

namespace MeterLink

/-- A JSON value. -/
inductive Json where
  | null
  | bool (b : Bool)
  /-- A whole number of tenths, hundredths and so on, by the number of places. -/
  | number (digits : Int) (places : Nat)
  | string (s : String)
  | array (items : List Json)
  | object (members : List (String × Json))
deriving Repr

namespace Json

def ofInt (n : Int) : Json := .number n 0

def ofNat (n : Nat) : Json := .number n 0

/-- The members with one more, which takes the place of one with the same name. -/
def insertMember (name : String) (value : Json) : List (String × Json) → List (String × Json)
  | [] => [(name, value)]
  | (k, v) :: rest =>
    if name = k then (name, value) :: rest
    else if name < k then (name, value) :: (k, v) :: rest
    else (k, v) :: insertMember name value rest

/-- The object with these members. -/
def ofMembers (members : List (String × Json)) : Json :=
  .object (members.foldl (fun acc m => insertMember m.1 m.2 acc) [])

/-- The value with one more member, if it is an object. -/
def withMember (whole : Json) (name : String) (value : Json) : Json :=
  match whole with
  | .object members => .object (insertMember name value members)
  | other => other

/-- A value or null. -/
def ofOption {α : Type} (f : α → Json) : Option α → Json
  | some a => f a
  | none => .null

/-- A character inside a quoted text. -/
def escaped (c : Char) : List Char :=
  if c = '"' then ['\\', '"']
  else if c = '\\' then ['\\', '\\']
  else if c = '\x08' then ['\\', 'b']
  else if c = '\x0c' then ['\\', 'f']
  else if c = '\n' then ['\\', 'n']
  else if c = '\r' then ['\\', 'r']
  else if c = '\t' then ['\\', 't']
  else if c.toNat < 0x20 then '\\' :: 'u' :: Hex.padded 4 c.toNat
  else [c]

def quoted (s : String) : String :=
  String.ofList ('"' :: s.toList.flatMap escaped ++ ['"'])

/-- The text of a decimal number, which keeps all its places. -/
def numberText (digits : Int) (places : Nat) : String :=
  if places = 0 then toString digits
  else
    let sign := if digits < 0 then ['-'] else []
    let row := paddedDecimal (places + 1) digits.natAbs
    let point := row.length - places
    String.ofList (sign ++ row.take point ++ '.' :: row.drop point)

/-- A new line at a level. -/
def newLine (level : Nat) : String :=
  String.ofList ('\n' :: List.replicate (2 * level) ' ')

mutual

/-- The text of a value whose first line is indented already. -/
def textAt (level : Nat) : Json → String
  | .null => "null"
  | .bool true => "true"
  | .bool false => "false"
  | .number digits places => numberText digits places
  | .string s => quoted s
  | .array [] => "[]"
  | .array (item :: rest) =>
    "[" ++ newLine (level + 1) ++ textAt (level + 1) item ++ itemsText (level + 1) rest ++
      newLine level ++ "]"
  | .object [] => "\x7b\x7d"
  | .object ((name, value) :: rest) =>
    "\x7b" ++ newLine (level + 1) ++ quoted name ++ ": " ++ textAt (level + 1) value ++
      membersText (level + 1) rest ++ newLine level ++ "\x7d"

/-- The items after the first one. -/
def itemsText (level : Nat) : List Json → String
  | [] => ""
  | item :: rest => "," ++ newLine level ++ textAt level item ++ itemsText level rest

/-- The members after the first one. -/
def membersText (level : Nat) : List (String × Json) → String
  | [] => ""
  | (name, value) :: rest =>
    "," ++ newLine level ++ quoted name ++ ": " ++ textAt level value ++ membersText level rest

end

/-- The text of a value. -/
def text (value : Json) : String := textAt 0 value

end Json

end MeterLink

import MeterLink.Toml.Value

/-!
# Tables under construction

A file defines its tables piece by piece. Each table remembers how it came to be, since that
decides what may still be added: a header opens a table once, a dotted key adds only to tables
that dotted keys have made, and the values of a file are closed.
-/

namespace MeterLink.Toml

/-- How a table came to be. -/
inductive Origin where
  /-- By its own header. -/
  | header
  /-- By the header of a table inside it. -/
  | implied
  /-- By a dotted key. -/
  | dotted
deriving DecidableEq, Repr

/-- What an entry of a table under construction holds. -/
inductive Node where
  | value (v : Toml)
  | table (origin : Origin) (entries : List (String × Node))
  /-- An array of tables, each opened by a header. -/
  | tables (items : List (List (String × Node)))
deriving Repr

/-- The entries of a table under construction. -/
abbrev Entries := List (String × Node)

/-- Puts in the place of an entry what `f` makes of it, unless `f` refuses. -/
def update (key : String) (f : Option Node → Option Node) : Entries → Option Entries
  | [] => (f none).map fun n => [(key, n)]
  | (k, n) :: rest =>
    if k = key then (f (some n)).map fun n => (k, n) :: rest
    else (update key f rest).map ((k, n) :: ·)

/-- Changes the last item of a list. -/
def updateLast (f : Entries → Option Entries) : List Entries → Option (List Entries)
  | [] => none
  | [item] => (f item).map fun item => [item]
  | item :: rest => (updateLast f rest).map (item :: ·)

/-- Changes the entries of a table or of the last table of an array. -/
def Node.within (f : Entries → Option Entries) : Node → Option Node
  | .value _ => none
  | .table origin entries => (f entries).map (.table origin)
  | .tables items => (updateLast f items).map .tables

/-- Gives a value to a dotted key. -/
def assign (value : Toml) : List String → Entries → Option Entries
  | [] => fun _ => none
  | [key] =>
    update key fun
      | none => some (.value value)
      | some _ => none
  | p :: key :: path =>
    update p fun
      | none => (assign value (key :: path) []).map (.table .dotted)
      | some (.table .header _) => none
      | some (.table .dotted entries) =>
        (assign value (key :: path) entries).map (.table .dotted)
      | some node => if path.isEmpty then none else node.within (assign value (key :: path))

/-- Opens the table of a header. -/
def openTable : List String → Entries → Option Entries
  | [] => fun _ => none
  | [key] =>
    update key fun
      | none => some (.table .header [])
      | some (.table .implied entries) => some (.table .header entries)
      | some _ => none
  | p :: key :: path =>
    update p fun
      | none => (openTable (key :: path) []).map (.table .implied)
      | some node => node.within (openTable (key :: path))

/-- Opens one more table of the array of a header. -/
def openItem : List String → Entries → Option Entries
  | [] => fun _ => none
  | [key] =>
    update key fun
      | none => some (.tables [[]])
      | some (.tables items) => some (.tables (items ++ [[]]))
      | some _ => none
  | p :: key :: path =>
    update p fun
      | none => (openItem (key :: path) []).map (.table .implied)
      | some node => node.within (openItem (key :: path))

/-- Changes the entries of the table at a path. -/
def atPath (f : Entries → Option Entries) : List String → Entries → Option Entries
  | [] => f
  | p :: path =>
    update p fun
      | none => none
      | some node => node.within (atPath f path)

mutual

def Node.toToml : Node → Toml
  | .value v => v
  | .table _ entries => .table (entriesToToml entries)
  | .tables items => .array (itemsToToml items)

def entriesToToml : List (String × Node) → List (String × Toml)
  | [] => []
  | (k, n) :: rest => (k, n.toToml) :: entriesToToml rest

def itemsToToml : List (List (String × Node)) → List Toml
  | [] => []
  | entries :: rest => .table (entriesToToml entries) :: itemsToToml rest

end

end MeterLink.Toml

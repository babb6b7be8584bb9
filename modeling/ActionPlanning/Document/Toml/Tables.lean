import ActionPlanning.Document

/-!
# Building the tables of a TOML text

The tables of a text are built as its lines are read. A table remembers how it came about: by a
header of its own, on the way to another header, or on the way of a key with points. Only the
second kind may still get a header, only the third kind may be extended by keys with points, and no
key may be set twice. A header in double brackets adds a table to a list of tables; on the way of
a later header such a list stands for its last table.
-/

namespace ActionPlanning.Document.Toml

/-- How a table came about. -/
inductive Origin where
  /-- By its own header, or as the top of the text. -/
  | header
  /-- On the way to another header. -/
  | passage
  /-- On the way of a key with points. -/
  | points
  deriving DecidableEq, Repr

/-- What a key of a growing table is set to. -/
inductive Entry where
  | value (value : Document)
  | table (origin : Origin) (entries : List (String × Entry))
  | tables (tables : List (List (String × Entry)))

/-- A growing table. -/
structure Table where
  origin : Origin
  entries : List (String × Entry)

namespace Table

/-- The top of a text. -/
def top : Table := ⟨.header, []⟩

/-- What a key is set to. -/
def get? (t : Table) (key : String) : Option Entry :=
  (t.entries.find? fun e => e.1 = key).map Prod.snd

/-- Sets a key, in its place if it was set before. -/
def set (t : Table) (key : String) (entry : Entry) : Table :=
  if (t.get? key).isSome then
    { t with entries := t.entries.map fun e => if e.1 = key then (key, entry) else e }
  else { t with entries := t.entries ++ [(key, entry)] }

/-- Changes the last table of a list. -/
def changeLast? (change : Table → Option Table) :
    List (List (String × Entry)) → Option (List (List (String × Entry)))
  | [] => none
  | [last] => (change ⟨.header, last⟩).map fun t => [t.entries]
  | first :: rest => (changeLast? change rest).map (first :: ·)

/-- Changes the table at the end of a path, making the tables on the way. `made` is how such
tables come about; a way made of points does not enter tables with a header. -/
def changeAt? (made : Origin) (change : Table → Option Table) :
    List String → Table → Option Table
  | [], t => change t
  | key :: path, t =>
    match t.get? key with
    | none => do
      let made ← changeAt? made change path ⟨made, []⟩
      return t.set key (.table made.origin made.entries)
    | some (.value _) => none
    | some (.tables tables) => do
      let tables ← changeLast? (changeAt? made change path) tables
      return t.set key (.tables tables)
    | some (.table origin entries) => do
      if made = .points ∧ origin = .header then none
      let changed ← changeAt? made change path ⟨origin, entries⟩
      return t.set key (.table changed.origin changed.entries)

/-- Sets a new key to a value. -/
def setNew? (key : String) (value : Document) (t : Table) : Option Table :=
  if (t.get? key).isSome then none else some (t.set key (.value value))

/-- Sets a key, with or without points, to a value. A key with points ends in a table that keys
with points made. -/
def setKey? (key : List String) (value : Document) (t : Table) : Option Table := do
  let last ← key.getLast?
  match key.dropLast with
  | [] => setNew? last value t
  | way =>
    changeAt? .points
      (fun t => if t.origin = .points then setNew? last value t else none) way t

/-- Opens the table of a header in single brackets. -/
def openTable? (key : List String) (t : Table) : Option Table := do
  let last ← key.getLast?
  changeAt? .passage
    (fun t =>
      match t.get? last with
      | none => some (t.set last (.table .header []))
      | some (.table .passage entries) => some (t.set last (.table .header entries))
      | some _ => none)
    key.dropLast t

/-- Adds a table for a header in double brackets. -/
def addTable? (key : List String) (t : Table) : Option Table := do
  let last ← key.getLast?
  changeAt? .passage
    (fun t =>
      match t.get? last with
      | none => some (t.set last (.tables [[]]))
      | some (.tables tables) => some (t.set last (.tables (tables ++ [[]])))
      | some _ => none)
    key.dropLast t

end Table

mutual

/-- The document of an entry. -/
def Entry.document : Entry → Document
  | .value value => value
  | .table _ entries => .table (entriesDocument entries)
  | .tables tables => .list (tablesDocument tables)

/-- The documents of the entries of a table. -/
def entriesDocument : List (String × Entry) → List (String × Document)
  | [] => []
  | (key, entry) :: rest => (key, entry.document) :: entriesDocument rest

/-- The documents of a list of tables. -/
def tablesDocument : List (List (String × Entry)) → List Document
  | [] => []
  | entries :: rest => .table (entriesDocument entries) :: tablesDocument rest

end

/-- The document of a table. -/
def Table.document (t : Table) : Document := .table (entriesDocument t.entries)

end ActionPlanning.Document.Toml

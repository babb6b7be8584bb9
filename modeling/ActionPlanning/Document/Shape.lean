import ActionPlanning.Document

/-!
# The shape of a document

What a value in a document stands for depends on what is asked for. A place for an amount also
takes an integer, which is rounded to the nearest amount; nothing else is converted. A record is a
table of its fields, without unknown ones, or a list of their values in the order of the fields,
of which the last may be left out; in TOML such a list may go on after the last field. A choice
between names is a text, or a table with that name as its only key and nothing behind it.
-/

namespace ActionPlanning.Document

variable {α : Type}

/-- The text that is asked for. -/
def text? : Document → Option String
  | .text value => some value
  | _ => none

/-- The flag that is asked for. -/
def flag? : Document → Option Bool
  | .flag value => some value
  | _ => none

/-- The amount that is asked for. -/
def amount? : Document → Option Amount
  | .amount value => some value
  | .integer value => some (Float.ofInt value)
  | _ => none

/-- The count that is asked for, an integer of 64 bits without a sign. -/
def count? : Document → Option Nat
  | .integer value => if 0 ≤ value ∧ value < UInt64.size then some value.toNat else none
  | _ => none

/-- The list that is asked for, given how its members are read. -/
def items? (read : Document → Option α) : Document → Option (List α)
  | .list items => items.mapM read
  | _ => none

/-- A value that may be null. -/
def optional? (read : Document → Option α) : Document → Option (Option α)
  | .null => some none
  | value => (read value).map some

/-- The values of the fields of a record. Of a list in TOML, values after the last field are left
aside. -/
def record? (format : Format) (fields : List String) :
    Document → Option (List (String × Document))
  | .table entries =>
    let keys := entries.map Prod.fst
    if keys.all fields.contains ∧ keys.Nodup then some entries else none
  | .list values =>
    if format = .toml ∨ values.length ≤ fields.length then some (fields.zip values) else none
  | _ => none

/-- The value of a field that must be there. -/
def required? (record : List (String × Document)) (field : String) (read : Document → Option α) :
    Option α :=
  entry? field record >>= read

/-- The value of a field that may be missing. -/
def orDefault? (record : List (String × Document)) (field : String) (default : α)
    (read : Document → Option α) : Option α :=
  match entry? field record with
  | none => some default
  | some value => read value

/-- Whether a value says nothing: null, or in TOML, which has no null, an empty table or list. -/
def saysNothing : Format → Document → Bool
  | _, .null | .toml, .table [] | .toml, .list [] => true
  | _, _ => false

/-- The name that is chosen. -/
def choice? (format : Format) : Document → Option String
  | .text name => some name
  | .table [(name, value)] => if value.saysNothing format then some name else none
  | _ => none

end ActionPlanning.Document

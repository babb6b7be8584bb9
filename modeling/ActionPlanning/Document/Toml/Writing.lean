import ActionPlanning.Amount.Text
import ActionPlanning.Document.Toml

/-!
# Writing TOML

What is written is a table of values, and behind them tables of values, each under a header of its
own: a line for each value, and an empty line before each header. Integers have 64 bits with a sign,
and keys and texts have to do without quotes and escapes inside. A table with anything else in it is
not written.

## Main definitions

* `Toml.write?`: the text of a table.
* `Toml.Library`: what is used of a library for TOML.
* `Toml.Library.own`: the library that writes and reads as said here.
-/

namespace ActionPlanning.Document.Toml

/-- Whether a character may stand in a quoted text as it is. -/
def isPlain (c : Char) : Bool := isPrintable c && c ≠ '\\' && c ≠ '"'

/-- The text of a key. -/
def keyText? (key : String) : Option String :=
  if key ≠ "" ∧ key.toList.all isBare then some key else none

/-- The text of a value. -/
def valueText? : Document → Option String
  | .flag value => some (toString value)
  | .integer value => if isSigned value then some (toString value) else none
  | .amount value => some value.pointedText
  | .text value => if value.toList.all isPlain then some ("\"" ++ value ++ "\"") else none
  | _ => none

/-- The line that sets a key to a value. -/
def lineText? (entry : String × Document) : Option String := do
  let key ← keyText? entry.1
  let value ← valueText? entry.2
  return key ++ " = " ++ value ++ "\n"

/-- The texts of all items, one behind the other. -/
def joined? {α : Type} (text? : α → Option String) : List α → Option String
  | [] => some ""
  | item :: rest => do
    let first ← text? item
    let others ← joined? text? rest
    return first ++ others

/-- The text of a table under a header. -/
def sectionText? (inner : String × List (String × Document)) : Option String := do
  let header ← keyText? inner.1
  let lines ← joined? lineText? inner.2
  return "\n[" ++ header ++ "]\n" ++ lines

/-- The table that an entry holds, under its key. -/
def innerTable? : String × Document → Option (String × List (String × Document))
  | (key, .table entries) => some (key, entries)
  | _ => none

/-- The text of a table. Its values stand before the tables it holds. -/
def write? : Document → Option String
  | .table entries => do
    let lines ← joined? lineText? (entries.filter fun e => (innerTable? e).isNone)
    let sections ← joined? sectionText? (entries.filterMap innerTable?)
    return lines ++ sections
  | _ => none

/-- What is used of a library for TOML: it writes documents and reads texts. -/
structure Library where
  write? : Document → Option String
  read? : String → Option Document

/-- Writes and reads as said here. -/
def Library.own : Library := ⟨Toml.write?, Toml.read?⟩

end ActionPlanning.Document.Toml

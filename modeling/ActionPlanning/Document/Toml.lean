import ActionPlanning.Document.Toml.Scalar
import ActionPlanning.Document.Toml.Tables
import ActionPlanning.Document.Toml.Text

/-!
# Reading TOML

A text is read line by line, as TOML 1.0 has it: a line is blank, holds a comment, opens a table,
or sets a key. A byte order mark may stand in front. Lists may go on over several lines and end
with a comma; tables in braces may do neither. Values may be nested at most 79 deep, and a key has
at most as many parts.
-/

namespace ActionPlanning.Document.Toml

/-- Drops blank space, line ends and comments inside a list, at most `fuel` of them. -/
def skipSpace : Nat → List Char → List Char
  | 0, cs => cs
  | fuel + 1, cs =>
    match skipBlank cs with
    | '#' :: rest => skipSpace fuel (skipComment ('#' :: rest))
    | cs =>
      match newline? cs with
      | some rest => skipSpace fuel rest
      | none => cs

mutual

/-- Reads a value that may hold `depth` more levels of lists and tables. -/
def value? : Nat → Nat → List Char → Reading Document
  | 0, _, _ => none
  | fuel + 1, depth, cs =>
    match cs with
    | '"' :: _ | '\'' :: _ => (text? cs).map fun (s, rest) => (.text s, rest)
    | '[' :: rest =>
      match depth with
      | 0 => none
      | depth + 1 => items? fuel depth [] rest
    | '\x7b' :: rest =>
      match depth with
      | 0 => none
      | depth + 1 =>
        match skipBlank rest with
        | '\x7d' :: rest => some (.table [], rest)
        | rest => members? fuel depth Table.top rest
    | cs => word? cs

/-- Reads the members of a list from the next one on; there may be none left. -/
def items? : Nat → Nat → List Document → List Char → Reading Document
  | 0, _, _, _ => none
  | fuel + 1, depth, read, cs =>
    match skipSpace fuel cs with
    | ']' :: rest => some (.list read.reverse, rest)
    | cs =>
      match value? fuel depth cs with
      | none => none
      | some (item, rest) =>
        match skipSpace fuel rest with
        | ',' :: rest => items? fuel depth (item :: read) rest
        | ']' :: rest => some (.list (item :: read).reverse, rest)
        | _ => none

/-- Reads the entries of a table in braces from the next one on. -/
def members? : Nat → Nat → Table → List Char → Reading Document
  | 0, _, _, _ => none
  | fuel + 1, depth, before, cs =>
    match key? cs with
    | some (key, '=' :: rest) =>
      match value? fuel depth (skipBlank rest) with
      | none => none
      | some (value, rest) =>
        match before.setKey? key value with
        | none => none
        | some after =>
          match skipBlank rest with
          | ',' :: rest => members? fuel depth after rest
          | '\x7d' :: rest => some (after.document, rest)
          | _ => none
    | _ => none

end

/-- What follows the end of a line, after blank space and a comment; the text may end instead. -/
def afterLine? (cs : List Char) : Option (List Char) :=
  match skipComment (skipBlank cs) with
  | [] => some []
  | cs => newline? cs

/-- Reads the header of a table in single brackets, after the bracket. -/
def tableHeader? (cs : List Char) : Reading (List String) :=
  match key? cs with
  | some (key, ']' :: rest) => (afterLine? rest).map (key, ·)
  | _ => none

/-- Reads the header of a table in double brackets, after the brackets. -/
def listHeader? (cs : List Char) : Reading (List String) :=
  match key? cs with
  | some (key, ']' :: ']' :: rest) => (afterLine? rest).map (key, ·)
  | _ => none

/-- Reads a key with its value, up to the end of the line. -/
def setting? (fuel : Nat) (cs : List Char) : Reading (List String × Document) :=
  match key? cs with
  | some (key, '=' :: rest) =>
    match value? fuel depthLimit (skipBlank rest) with
    | some (value, rest) => (afterLine? rest).map ((key, value), ·)
    | none => none
  | _ => none

/-- Reads the lines of a text. `path` is the header that the next keys belong to. -/
def lines? : Nat → List String → Table → List Char → Option Table
  | 0, _, _, _ => none
  | fuel + 1, path, top, cs =>
    match skipBlank cs with
    | [] => some top
    | '[' :: '[' :: rest => do
      let (key, rest) ← listHeader? rest
      lines? fuel key (← top.addTable? key) rest
    | '[' :: rest => do
      let (key, rest) ← tableHeader? rest
      lines? fuel key (← top.openTable? key) rest
    | '#' :: rest => do lines? fuel path top (← afterLine? ('#' :: rest))
    | cs =>
      match newline? cs with
      | some rest => lines? fuel path top rest
      | none => do
        let ((key, value), rest) ← setting? fuel cs
        lines? fuel path (← top.changeAt? .passage (Table.setKey? key value) path) rest

/-- Drops a byte order mark. -/
def skipMark : List Char → List Char
  | '\ufeff' :: rest => rest
  | cs => cs

/-- Reads a whole text as a table. -/
def read? (text : String) : Option Document :=
  let cs := skipMark text.toList
  (lines? (2 * cs.length + 2) [] Table.top cs).map Table.document

end ActionPlanning.Document.Toml

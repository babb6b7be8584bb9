import ActionPlanning.Document.Json
import ActionPlanning.Document.Toml
import ActionPlanning.Failure

/-!
# Files

A file has a name, and bytes unless it is missing. Its text is there if the bytes are valid UTF-8.
The format of a document in a file follows from the extension of its name: `json` stands for JSON
and every other name for TOML.
-/

namespace ActionPlanning

/-- The document that a text holds. -/
def Format.read? : Format → String → Option Document
  | .toml => Document.Toml.read?
  | .json => Document.Json.read?

/-- What there is under the name of a file. -/
structure File where
  name : String
  bytes : Option ByteArray

namespace File

/-- The text of a file. -/
def text (f : File) : Except Failure String :=
  match f.bytes with
  | none => .error (.file .missing)
  | some bytes =>
    match String.fromUTF8? bytes with
    | none => .error (.file .notText)
    | some text => .ok text

/-- What follows the last point of the name. A point in front of the name does not count. -/
def extension? (f : File) : Option String :=
  let backwards := f.name.toList.reverse
  match backwards.dropWhile (· ≠ '.') with
  | [] | ['.'] => none
  | _ :: _ => some (String.ofList (backwards.takeWhile (· ≠ '.')).reverse)

/-- The format of the document in a file. -/
def format (f : File) : Format := if f.extension? = some "json" then .json else .toml

end File

end ActionPlanning

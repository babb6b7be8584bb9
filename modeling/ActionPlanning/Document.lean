import ActionPlanning.Amount.Decimal

/-!
# Documents

Catalogs and settings are read from text in two steps. The text is first read as a document: a
tree of values that both formats share. The document is then given its shape as a catalog or as
settings, so the rules of the formats and the rules of the shapes stay apart.
-/

namespace ActionPlanning

/-- The formats in which documents are written. -/
inductive Format where
  | toml
  | json
  deriving DecidableEq, Repr

/-- A value in a document. Tables keep their entries in the order of the text. -/
inductive Document where
  | null
  | flag (value : Bool)
  | integer (value : Int)
  | amount (value : Amount)
  | text (value : String)
  | list (items : List Document)
  | table (entries : List (String × Document))
  deriving Repr, Inhabited

/-- What reading the front of a text yields: a value and the rest of the text. -/
abbrev Reading (α : Type) := Option (α × List Char)

namespace Document

/-- Whether an integer fits in 64 bits with a sign. -/
def isSigned (n : Int) : Bool := Int64.minValue.toInt ≤ n && n ≤ Int64.maxValue.toInt

/-- The first entry of a key in a table. -/
def entry? (key : String) (entries : List (String × Document)) : Option Document :=
  (entries.find? fun e => e.1 = key).map Prod.snd

/-- The value of a digit in bases up to sixteen. -/
def digit? (base : Nat) (c : Char) : Option Nat :=
  let value :=
    if '0' ≤ c ∧ c ≤ '9' then c.toNat - '0'.toNat
    else if 'a' ≤ c ∧ c ≤ 'f' then c.toNat - 'a'.toNat + 10
    else if 'A' ≤ c ∧ c ≤ 'F' then c.toNat - 'A'.toNat + 10
    else base
  if value < base then some value else none

/-- The number that digits of a base stand for; none if some character is no digit. -/
def number? (base : Nat) (cs : List Char) : Option Nat :=
  cs.foldl (fun sum c => do return (← sum) * base + (← digit? base c)) (some 0)

/-- The character of a code point given in hexadecimal digits; surrogates have none. -/
def scalar? (digits : List Char) : Option Char := do
  let n ← number? 16 digits
  if n.isValidChar then some (Char.ofNat n) else none

end Document

end ActionPlanning

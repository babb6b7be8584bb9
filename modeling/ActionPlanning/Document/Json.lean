import ActionPlanning.Document

/-!
# Reading JSON

The reader follows RFC 8259 strictly: no comments, no byte order mark, no text after the value, no
raw control characters, no lone surrogates, and lists and tables nested at most 127 deep.

A number without fraction and exponent is an integer if it fits in 64 bits; every other number is
an amount. An amount is formed from its digits in double arithmetic: as many leading digits as fit
in 64 bits make the significand, which is rounded to an amount and then multiplied or divided by a
power of ten. A number beyond the range is an error, and one too small is zero.
-/

namespace ActionPlanning.Document.Json

/-- Drops spaces, tabs and line ends. -/
def skipBlank (cs : List Char) : List Char :=
  cs.dropWhile fun c => c = ' ' ∨ c = '\t' ∨ c = '\n' ∨ c = '\r'

/-! ## Numbers -/

/-- The largest significand. -/
def significandLimit : Nat := UInt64.size - 1

/-- Takes digits into a significand while it stays within the limit; yields the significand and
the number of digits left out. -/
def absorb : Nat → List Nat → Nat × Nat
  | significand, [] => (significand, 0)
  | significand, d :: rest =>
    if significand * 10 + d ≤ significandLimit then absorb (significand * 10 + d) rest
    else (significand, rest.length + 1)

/-- The amount `x * 10 ^ exponent` in double arithmetic; none if it is beyond the range. Exponents
below `-308` are taken in steps. -/
def scale? (x : Amount) (exponent : Int) : Option Amount :=
  if exponent ≥ 0 then
    if x == 0 then some x
    else if exponent > 308 then none
    else
      let product := x * Float.ofScientific 1 false exponent.toNat
      if product.isInf then none else some product
  else if exponent ≥ -308 then some (x / Float.ofScientific 1 false (-exponent).toNat)
  else if x == 0 then some x
  else scale? (x / 1e308) (exponent + 308)
termination_by (-exponent).toNat
decreasing_by omega

/-- The largest exponent that is taken as written. -/
def exponentLimit : Nat := 2147483647

/-- The parts of a number: its sign, the digits before and after the point, and the exponent, if
there is one. -/
structure Numeral where
  negative : Bool
  whole : List Nat
  fraction : Option (List Nat)
  exponent : Option (Bool × Nat)

namespace Numeral

/-- The magnitude of a number with fraction or exponent, or of a very long one. -/
def magnitude? (n : Numeral) : Option Amount :=
  let (whole, left) := absorb 0 n.whole
  let fraction := n.fraction.getD []
  let (significand, dropped) := absorb whole fraction
  let shift : Int := (left : Int) - ((fraction.length : Int) - dropped)
  match n.exponent with
  | none => scale? (Float.ofNat significand) shift
  | some (below, exponent) =>
    if exponent > exponentLimit then if below ∨ significand = 0 then some 0 else none
    else scale? (Float.ofNat significand) (if below then shift - exponent else shift + exponent)

/-- The value of a number. -/
def value? (n : Numeral) : Option Document :=
  let signed (x : Amount) : Document := .amount (if n.negative then -x else x)
  let (whole, left) := absorb 0 n.whole
  if n.fraction.isNone ∧ n.exponent.isNone ∧ left = 0 then
    if !n.negative then some (.integer whole)
    else if whole = 0 ∨ !isSigned (-whole) then some (signed (Float.ofNat whole))
    else some (.integer (-whole))
  else n.magnitude?.map signed

end Numeral

/-- Reads digits; there may be none. -/
def digits (cs : List Char) : List Nat × List Char :=
  ((cs.takeWhile Char.isDigit).filterMap (digit? 10), cs.dropWhile Char.isDigit)

/-- Reads the digits before the point: a zero alone, or digits that do not start with zero. -/
def whole? (cs : List Char) : Reading (List Nat) :=
  match digits cs with
  | ([], _) => none
  | (0 :: _ :: _, _) => none
  | read => some read

/-- Reads a fraction, if there is one. -/
def fraction? : List Char → Reading (Option (List Nat))
  | '.' :: cs =>
    match digits cs with
    | ([], _) => none
    | (ds, rest) => some (some ds, rest)
  | cs => some (none, cs)

/-- Reads an exponent, if there is one; its sign comes as whether it is negative. -/
def exponent? : List Char → Reading (Option (Bool × Nat))
  | c :: cs =>
    if c = 'e' ∨ c = 'E' then
      let (below, cs) : Bool × List Char :=
        match cs with
        | '-' :: rest => (true, rest)
        | '+' :: rest => (false, rest)
        | _ => (false, cs)
      match digits cs with
      | ([], _) => none
      | (ds, rest) => some (some (below, ds.foldl (fun n d => n * 10 + d) 0), rest)
    else some (none, c :: cs)
  | [] => some (none, [])

/-- Reads a number. -/
def numeral? (cs : List Char) : Option (Document × List Char) := do
  let (negative, cs) : Bool × List Char :=
    match cs with
    | '-' :: rest => (true, rest)
    | _ => (false, cs)
  let (whole, cs) ← whole? cs
  let (fraction, cs) ← fraction? cs
  let (exponent, cs) ← exponent? cs
  let value ← Numeral.value? ⟨negative, whole, fraction, exponent⟩
  return (value, cs)

/-! ## Texts -/

/-- The character that a letter after a backslash stands for. -/
def escaped? : Char → Option Char
  | '"' => some '"'
  | '\\' => some '\\'
  | '/' => some '/'
  | 'b' => some '\x08'
  | 'f' => some '\x0c'
  | 'n' => some '\n'
  | 'r' => some '\r'
  | 't' => some '\t'
  | _ => none

/-- The character that two surrogates stand for. -/
def surrogatePair? (high low : Nat) : Option Char :=
  if 0xD800 ≤ high ∧ high < 0xDC00 ∧ 0xDC00 ≤ low ∧ low < 0xE000 then
    some (Char.ofNat (0x10000 + (high - 0xD800) * 0x400 + (low - 0xDC00)))
  else none

/-- Reads a text after its opening quote; `read` holds the characters so far, last first. -/
def textBody? (read : List Char) : List Char → Reading String
  | '"' :: rest => some (String.ofList read.reverse, rest)
  | '\\' :: 'u' :: a :: b :: c :: d :: rest =>
    match scalar? [a, b, c, d] with
    | some character => textBody? (character :: read) rest
    | none =>
      match rest with
      | '\\' :: 'u' :: e :: f :: g :: h :: rest =>
        match number? 16 [a, b, c, d], number? 16 [e, f, g, h] with
        | some high, some low =>
          match surrogatePair? high low with
          | some character => textBody? (character :: read) rest
          | none => none
        | _, _ => none
      | _ => none
  | '\\' :: c :: rest =>
    match escaped? c with
    | some character => textBody? (character :: read) rest
    | none => none
  | c :: rest => if c.toNat < 0x20 ∨ c = '\\' then none else textBody? (c :: read) rest
  | [] => none

/-! ## Values -/

mutual

/-- Reads a value that may hold `depth` more levels of lists and tables. -/
def value? : Nat → Nat → List Char → Reading Document
  | 0, _, _ => none
  | fuel + 1, depth, cs =>
    match skipBlank cs with
    | 'n' :: 'u' :: 'l' :: 'l' :: rest => some (.null, rest)
    | 't' :: 'r' :: 'u' :: 'e' :: rest => some (.flag true, rest)
    | 'f' :: 'a' :: 'l' :: 's' :: 'e' :: rest => some (.flag false, rest)
    | '"' :: rest => (textBody? [] rest).map fun (s, rest) => (.text s, rest)
    | '[' :: rest =>
      match depth with
      | 0 => none
      | depth + 1 =>
        match skipBlank rest with
        | ']' :: rest => some (.list [], rest)
        | rest => items? fuel depth [] rest
    | '\x7b' :: rest =>
      match depth with
      | 0 => none
      | depth + 1 =>
        match skipBlank rest with
        | '\x7d' :: rest => some (.table [], rest)
        | rest => members? fuel depth [] rest
    | cs => numeral? cs

/-- Reads the members of a list from the next one on. -/
def items? : Nat → Nat → List Document → List Char → Reading Document
  | 0, _, _, _ => none
  | fuel + 1, depth, read, cs =>
    match value? fuel depth cs with
    | none => none
    | some (item, rest) =>
      match skipBlank rest with
      | ',' :: rest => items? fuel depth (item :: read) rest
      | ']' :: rest => some (.list (item :: read).reverse, rest)
      | _ => none

/-- Reads the entries of a table from the next one on. -/
def members? : Nat → Nat → List (String × Document) → List Char → Reading Document
  | 0, _, _, _ => none
  | fuel + 1, depth, read, cs =>
    match skipBlank cs with
    | '"' :: rest =>
      match textBody? [] rest with
      | none => none
      | some (key, rest) =>
        match skipBlank rest with
        | ':' :: rest =>
          match value? fuel depth rest with
          | none => none
          | some (value, rest) =>
            match skipBlank rest with
            | ',' :: rest => members? fuel depth ((key, value) :: read) rest
            | '\x7d' :: rest => some (.table ((key, value) :: read).reverse, rest)
            | _ => none
        | _ => none
    | _ => none

end

/-- How deep lists and tables may be nested. -/
def depthLimit : Nat := 127

/-- Reads a whole text as one value. -/
def read? (text : String) : Option Document :=
  let cs := text.toList
  match value? (2 * cs.length + 2) depthLimit cs with
  | some (value, rest) => if (skipBlank rest).isEmpty then some value else none
  | none => none

end ActionPlanning.Document.Json

import ActionPlanning.Document.Toml.Moment

/-!
# Words in TOML

Every value without quotes or brackets is one word of letters, digits and a few marks, except that
a blank may stand between a date and a time. The word decides what the value is: a flag, one of
the special amounts, a moment, an integer of 64 bits with a sign, or an amount. Underscores may
stand between digits. Amounts are rounded to the nearest: what is above them all is an error, what
is below them all is negative infinity.
-/

namespace ActionPlanning.Document.Toml

/-- Whether a character may stand in a word. -/
def isWord (c : Char) : Bool := c.isAlphanum || "+-_.:".toList.contains c

/-! ## Numbers -/

/-- Digits of a base without the underscores between them: a digit first, then digits, each with
at most one underscore before it. -/
def plainDigits? (base : Nat) : List Char → Option (List Char)
  | [] => none
  | c :: rest => if (digit? base c).isNone then none else (more rest).map (c :: ·)
where
  more : List Char → Option (List Char)
    | [] => some []
    | '_' :: c :: rest => if (digit? base c).isNone then none else (more rest).map (c :: ·)
    | c :: rest => if (digit? base c).isNone then none else (more rest).map (c :: ·)

/-- Decimal digits that do not start with a zero, unless they are a zero alone. -/
def wholeDigits? (cs : List Char) : Option (List Char) :=
  match plainDigits? 10 cs with
  | some ('0' :: _ :: _) => none
  | digits => digits

/-- Splits off a sign; says whether it was a minus. -/
def splitSign : List Char → Bool × List Char
  | '-' :: rest => (true, rest)
  | '+' :: rest => (false, rest)
  | cs => (false, cs)

/-- An integer, if it fits in 64 bits with a sign. -/
def bounded? (n : Int) : Option Document :=
  if isSigned n then some (.integer n) else none

/-- An integer in decimal, hexadecimal, octal or binary digits; only decimal ones take a sign. -/
def integer? : List Char → Option Document
  | '0' :: 'x' :: rest => do bounded? (← number? 16 (← plainDigits? 16 rest))
  | '0' :: 'o' :: rest => do bounded? (← number? 8 (← plainDigits? 8 rest))
  | '0' :: 'b' :: rest => do bounded? (← number? 2 (← plainDigits? 2 rest))
  | cs => do
    let (negative, cs) := splitSign cs
    let n ← number? 10 (← wholeDigits? cs)
    bounded? (if negative then -n else n)

/-- Splits at the first character that passes a test, which is left out. -/
def splitAt? (test : Char → Bool) (cs : List Char) : List Char × Option (List Char) :=
  match cs.dropWhile (!test ·) with
  | [] => (cs, none)
  | _ :: rest => (cs.takeWhile (!test ·), some rest)

/-- A number with a fraction, an exponent, or both. -/
def decimal? (cs : List Char) : Option Document := do
  let (negative, cs) := splitSign cs
  let (mantissa, exponentDigits) := splitAt? (fun c => c = 'e' || c = 'E') cs
  let (whole, fractionDigits) := splitAt? (· = '.') mantissa
  if exponentDigits.isNone ∧ fractionDigits.isNone then none
  let whole ← wholeDigits? whole
  let fraction ← match fractionDigits with
    | some digits => plainDigits? 10 digits
    | none => some []
  let exponent : Int ← match exponentDigits with
    | some digits =>
      let (below, digits) := splitSign digits
      (plainDigits? 10 digits >>= number? 10).map fun n => if below then -(n : Int) else n
    | none => some 0
  let digits ← number? 10 (whole ++ fraction)
  let x := Amount.Decimal.toAmount ⟨digits, exponent - fraction.length⟩
  if negative then some (.amount (-x)) else if x.isInf then none else some (.amount x)

/-! ## Words -/

/-- The value of a word that is not a moment. -/
def plainWord? (word : List Char) : Option Document :=
  let (negative, unsigned) := splitSign word
  if word = "true".toList then some (.flag true)
  else if word = "false".toList then some (.flag false)
  else if unsigned = "inf".toList then
    some (.amount (if negative then -1 / 0 else 1 / 0))
  else if unsigned = "nan".toList then some (.amount (0 / 0))
  else integer? word <|> decimal? word

/-- Reads a word. A date and a time with a blank between them are read together. -/
def word? (cs : List Char) : Reading Document :=
  let word := cs.takeWhile isWord
  let rest := cs.dropWhile isWord
  match date? word, rest with
  | some (_, []), ' ' :: c :: more =>
    if c.isDigit then
      (Timestamp.read? (word ++ ' ' :: (c :: more).takeWhile isWord)).map
        (·.document, (c :: more).dropWhile isWord)
    else (single? word).map (·, rest)
  | _, _ => (single? word).map (·, rest)
where
  single? (word : List Char) : Option Document :=
    (Timestamp.read? word).map Timestamp.document <|> plainWord? word

end ActionPlanning.Document.Toml

import ActionPlanning.Amount.Decimal

/-!
# The text of an amount

Amounts are written with their shortest digits in one of three layouts: plain text never uses an
exponent and gives whole numbers no point; pointed text is plain text with `.0` added to whole
numbers; compact text is pointed text for magnitudes from `10 ^ -4` up to below `10 ^ 16` and
uses an exponent for the others. All three keep the sign of zero.
-/

namespace ActionPlanning.Amount

/-- The text of what has no digits: infinities and what is not a number. -/
def special? (x : Amount) : Option String :=
  if x.isNaN then some "NaN"
  else if x.isInf then some (if x.isNegative then "-inf" else "inf")
  else none

/-- The magnitude of a finite amount as a numeral; zero has the digit zero. -/
def magnitude (x : Amount) : Decimal :=
  if x == 0 then ⟨0, 0⟩ else (if x.isNegative then -x else x).shortest

/-- The sign in front of a text. -/
def sign (x : Amount) : String := if x.isNegative then "-" else ""

/-- A run of zeros. -/
def zeros (count : Nat) : String := String.ofList (List.replicate count '0')

/-- A numeral without exponent: the point follows the digits, stands inside or stands before. -/
def Decimal.positional (d : Decimal) (whole : String) : String :=
  let digits := toString d.digits
  if 0 ≤ d.exponent then digits ++ zeros d.exponent.toNat ++ whole
  else
    let places := (-d.exponent).toNat
    if places < digits.length then
      let cut := digits.length - places
      String.ofList (digits.toList.take cut) ++ "." ++ String.ofList (digits.toList.drop cut)
    else "0." ++ zeros (places - digits.length) ++ digits

/-- A numeral with one digit before the point and an exponent. -/
def Decimal.scientific (d : Decimal) : String :=
  let digits := (toString d.digits).toList
  let exponent := d.exponent + digits.length - 1
  let fraction := digits.drop 1
  let point := if fraction.isEmpty then "" else "."
  String.ofList (digits.take 1) ++ point ++ String.ofList fraction ++ "e" ++ toString exponent

/-- Shortest digits, never an exponent, and no point in a whole number. -/
def plainText (x : Amount) : String :=
  x.special?.getD (x.sign ++ x.magnitude.positional "")

/-- Shortest digits, never an exponent, and at least one digit after the point. -/
def pointedText (x : Amount) : String :=
  x.special?.getD (x.sign ++ x.magnitude.positional ".0")

/-- Shortest digits, with an exponent for the very large and the very small. -/
def compactText (x : Amount) : String :=
  let d := x.magnitude
  let leading := d.exponent + digitCount d.digits - 1
  let positional := d.digits = 0 ∨ (-4 ≤ leading ∧ leading < 16)
  x.special?.getD (x.sign ++ if positional then d.positional ".0" else d.scientific)

end ActionPlanning.Amount

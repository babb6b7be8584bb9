import ActionPlanning.Text.Shapeless

/-!
# Quoted text

Names inside a description stand between double quotes. Quotes and backslashes are escaped, the
usual controls have a letter, and every other character without a shape of its own is given by
its number in braces, so that two different names never look alike.
-/

namespace ActionPlanning.Text

/-- The number of a character in lower-case hexadecimal digits. -/
def hexadecimal (n : Nat) : String := String.ofList (Nat.toDigits 16 n)

/-- A character as it is written between quotes. -/
def escape (c : Char) : String :=
  if c = '"' then "\\\""
  else if c = '\\' then "\\\\"
  else if c = '\n' then "\\n"
  else if c = '\r' then "\\r"
  else if c = '\t' then "\\t"
  else if c = '\x00' then "\\0"
  else if isShapeless c then "\\u\x7b" ++ hexadecimal c.toNat ++ "\x7d"
  else c.toString

/-- A text between double quotes. -/
def quoted (s : String) : String :=
  "\"" ++ String.join (s.toList.map escape) ++ "\""

/-- Several quoted texts in brackets, separated by commas. -/
def quotedList (ss : List String) : String :=
  "[" ++ String.intercalate ", " (ss.map quoted) ++ "]"

end ActionPlanning.Text

import ActionPlanning.Document

/-!
# Texts and keys in TOML

A text stands between double quotes, where a backslash starts an escape, or between single quotes,
where every character stands for itself. Three quotes open a text of several lines; a line end
right after them is left out, line ends inside become single newlines, and up to two quotes may
stand before the three that close the text. A backslash at the end of a line drops all blank space
up to the next visible character. Controls other than the tab are not allowed anywhere.
-/

namespace ActionPlanning.Document.Toml

/-- Whether a character is blank space within a line. -/
def isBlank (c : Char) : Bool := c = ' ' || c = '\t'

/-- Drops blank space within a line. -/
def skipBlank (cs : List Char) : List Char := cs.dropWhile isBlank

/-- The rest of the text after a line end, if it starts with one. -/
def newline? : List Char → Option (List Char)
  | '\n' :: rest => some rest
  | '\r' :: '\n' :: rest => some rest
  | _ => none

/-- Whether a character may stand in a text or a comment. -/
def isPrintable (c : Char) : Bool := c = '\t' || (c.toNat ≥ 0x20 && c.toNat ≠ 0x7F)

/-- Drops a comment, if the text starts with one, up to its line end. -/
def skipComment : List Char → List Char
  | '#' :: rest => rest.dropWhile isPrintable
  | cs => cs

/-- The character that a letter after a backslash stands for. -/
def escaped? : Char → Option Char
  | '"' => some '"'
  | '\\' => some '\\'
  | 'b' => some '\x08'
  | 'f' => some '\x0c'
  | 'n' => some '\n'
  | 'r' => some '\r'
  | 't' => some '\t'
  | _ => none

/-- Reads a text of one line after its opening double quote; `read` holds the characters so far,
last first. -/
def basic? (read : List Char) : List Char → Reading String
  | '"' :: rest => some (String.ofList read.reverse, rest)
  | '\\' :: 'u' :: a :: b :: c :: d :: rest =>
    match scalar? [a, b, c, d] with
    | some character => basic? (character :: read) rest
    | none => none
  | '\\' :: 'U' :: a :: b :: c :: d :: e :: f :: g :: h :: rest =>
    match scalar? [a, b, c, d, e, f, g, h] with
    | some character => basic? (character :: read) rest
    | none => none
  | '\\' :: c :: rest =>
    match escaped? c with
    | some character => basic? (character :: read) rest
    | none => none
  | c :: rest => if isPrintable c && c ≠ '\\' then basic? (c :: read) rest else none
  | [] => none

/-- Reads a text of one line after its opening single quote. -/
def literal? (read : List Char) : List Char → Reading String
  | '\'' :: rest => some (String.ofList read.reverse, rest)
  | c :: rest => if isPrintable c then literal? (c :: read) rest else none
  | [] => none

/-- Whether blank space up to a line end follows. -/
def endsLine (cs : List Char) : Bool := (newline? (skipBlank cs)).isSome

/-- Reads a text of several lines after its opening double quotes. While `trimming`, blank space
and line ends are dropped. -/
def multilineBasic? (trimming : Bool) (read : List Char) : List Char → Reading String
  | '"' :: '"' :: '"' :: '"' :: '"' :: rest =>
    some (String.ofList ('"' :: '"' :: read).reverse, rest)
  | '"' :: '"' :: '"' :: '"' :: rest => some (String.ofList ('"' :: read).reverse, rest)
  | '"' :: '"' :: '"' :: rest => some (String.ofList read.reverse, rest)
  | '\r' :: '\n' :: rest =>
    if trimming then multilineBasic? true read rest
    else multilineBasic? false ('\n' :: read) rest
  | '\\' :: 'u' :: a :: b :: c :: d :: rest =>
    match scalar? [a, b, c, d] with
    | some character => multilineBasic? false (character :: read) rest
    | none => none
  | '\\' :: 'U' :: a :: b :: c :: d :: e :: f :: g :: h :: rest =>
    match scalar? [a, b, c, d, e, f, g, h] with
    | some character => multilineBasic? false (character :: read) rest
    | none => none
  | '\\' :: c :: rest =>
    if endsLine (c :: rest) then multilineBasic? true read (c :: rest)
    else
      match escaped? c with
      | some character => multilineBasic? false (character :: read) rest
      | none => none
  | c :: rest =>
    if trimming && (isBlank c || c = '\n') then multilineBasic? true read rest
    else if (isPrintable c && c ≠ '\\') || c = '\n' then multilineBasic? false (c :: read) rest
    else none
  | [] => none

/-- Reads a text of several lines after its opening single quotes. -/
def multilineLiteral? (read : List Char) : List Char → Reading String
  | '\'' :: '\'' :: '\'' :: '\'' :: '\'' :: rest =>
    some (String.ofList ('\'' :: '\'' :: read).reverse, rest)
  | '\'' :: '\'' :: '\'' :: '\'' :: rest => some (String.ofList ('\'' :: read).reverse, rest)
  | '\'' :: '\'' :: '\'' :: rest => some (String.ofList read.reverse, rest)
  | '\r' :: '\n' :: rest => multilineLiteral? ('\n' :: read) rest
  | c :: rest =>
    if isPrintable c || c = '\n' then multilineLiteral? (c :: read) rest else none
  | [] => none

/-- Drops a line end, if there is one. -/
def skipNewline (cs : List Char) : List Char := (newline? cs).getD cs

/-- Reads a text in any of its four forms; none if the input does not start with a quote. -/
def text? : List Char → Reading String
  | '"' :: '"' :: '"' :: rest => multilineBasic? false [] (skipNewline rest)
  | '"' :: rest => basic? [] rest
  | '\'' :: '\'' :: '\'' :: rest => multilineLiteral? [] (skipNewline rest)
  | '\'' :: rest => literal? [] rest
  | _ => none

/-- Whether a character may stand in a key without quotes. -/
def isBare (c : Char) : Bool := c.isAlphanum || c = '_' || c = '-'

/-- Reads one part of a key: a text of one line, or bare characters. -/
def keyPart? : List Char → Reading String
  | '"' :: rest => basic? [] rest
  | '\'' :: rest => literal? [] rest
  | cs =>
    match cs.takeWhile isBare with
    | [] => none
    | bare => some (String.ofList bare, cs.dropWhile isBare)

/-- How many parts a key may have, and how deep values may be nested. -/
def depthLimit : Nat := 79

/-- Reads the parts of a key, separated by points, with blank space around each. -/
def keyParts? : Nat → List Char → Reading (List String)
  | 0, _ => none
  | fuel + 1, cs =>
    match keyPart? (skipBlank cs) with
    | none => none
    | some (part, rest) =>
      match skipBlank rest with
      | '.' :: rest => (keyParts? fuel rest).map fun (parts, rest) => (part :: parts, rest)
      | rest => some ([part], rest)

/-- Reads a key. -/
def key? (cs : List Char) : Reading (List String) := keyParts? depthLimit cs

end ActionPlanning.Document.Toml

import Telemetry.Toml.Scalar

namespace Telemetry.Toml

def isPlain (c : Char) : Bool := c == '\t' || (0x20 ≤ c.toNat && c.toNat != 0x7f)

def isBlank (c : Char) : Bool := c == ' ' || c == '\t'

def simpleEscape : Char → Option Char
  | 'b' => some '\x08'
  | 't' => some '\t'
  | 'n' => some '\n'
  | 'f' => some '\x0c'
  | 'r' => some '\r'
  | '"' => some '"'
  | '\\' => some '\\'
  | _ => none

def codePoint (digits : List Char) : Option Char :=
  if digits.all isHexDigit then
    let n := natOfDigits 16 digits
    if n.isValidChar then some (Char.ofNat n) else none
  else none

def basicText (done : List Char) : List Char → Option (String × List Char)
  | '"' :: rest => some (String.ofList done.reverse, rest)
  | '\\' :: 'u' :: a :: b :: c :: d :: rest =>
    match codePoint [a, b, c, d] with
    | some char => basicText (char :: done) rest
    | none => none
  | '\\' :: 'U' :: a :: b :: c :: d :: e :: f :: g :: h :: rest =>
    match codePoint [a, b, c, d, e, f, g, h] with
    | some char => basicText (char :: done) rest
    | none => none
  | '\\' :: e :: rest =>
    match simpleEscape e with
    | some char => basicText (char :: done) rest
    | none => none
  | c :: rest => if isPlain c && c != '\\' then basicText (c :: done) rest else none
  | [] => none

def literalText (done : List Char) : List Char → Option (String × List Char)
  | '\'' :: rest => some (String.ofList done.reverse, rest)
  | c :: rest => if isPlain c then literalText (c :: done) rest else none
  | [] => none

def beginsWithLineEnd : List Char → Bool
  | '\n' :: _ => true
  | '\r' :: '\n' :: _ => true
  | _ => false

/-- A string in three quotes. Line ends are read as line feeds; after a backslash that ends a line,
blanks and line ends are skipped. Up to two quotes may stand before the closing ones. -/
def multilineText (skipping : Bool) (done : List Char) : List Char → Option (String × List Char)
  | '"' :: '"' :: '"' :: rest =>
    match rest with
    | '"' :: '"' :: rest => some (String.ofList ('"' :: '"' :: done).reverse, rest)
    | '"' :: rest => some (String.ofList ('"' :: done).reverse, rest)
    | rest => some (String.ofList done.reverse, rest)
  | '\r' :: '\n' :: rest =>
    multilineText skipping (if skipping then done else '\n' :: done) rest
  | '\\' :: 'u' :: a :: b :: c :: d :: rest =>
    match codePoint [a, b, c, d] with
    | some char => multilineText false (char :: done) rest
    | none => none
  | '\\' :: 'U' :: a :: b :: c :: d :: e :: f :: g :: h :: rest =>
    match codePoint [a, b, c, d, e, f, g, h] with
    | some char => multilineText false (char :: done) rest
    | none => none
  | '\\' :: e :: rest =>
    match simpleEscape e with
    | some char => multilineText false (char :: done) rest
    | none =>
      if beginsWithLineEnd ((e :: rest).dropWhile isBlank) then multilineText true done rest
      else none
  | c :: rest =>
    if isBlank c || c == '\n' then
      multilineText skipping (if skipping then done else c :: done) rest
    else if isPlain c && c != '\\' then multilineText false (c :: done) rest
    else none
  | [] => none

def multilineLiteral (done : List Char) : List Char → Option (String × List Char)
  | '\'' :: '\'' :: '\'' :: rest =>
    match rest with
    | '\'' :: '\'' :: rest => some (String.ofList ('\'' :: '\'' :: done).reverse, rest)
    | '\'' :: rest => some (String.ofList ('\'' :: done).reverse, rest)
    | rest => some (String.ofList done.reverse, rest)
  | '\r' :: '\n' :: rest => multilineLiteral ('\n' :: done) rest
  | c :: rest => if isPlain c || c == '\n' then multilineLiteral (c :: done) rest else none
  | [] => none

/-- The text after a line end right behind the opening marks, which is not part of the string. -/
def skipLineEnd : List Char → List Char
  | '\n' :: rest => rest
  | '\r' :: '\n' :: rest => rest
  | text => text

end Telemetry.Toml

import EventRelay.Text.Hex

/-!
# TOML strings

There are four kinds of strings: basic ones with escapes and literal ones without, each on one line
or on several. Every reader takes the characters after the opening quotes and gives the text with
the characters after the closing ones.
-/

namespace EventRelay.Toml.Text

/-- Holds for the characters that may stand in a string or comment on one line, quotes and backslash
included. -/
def isLineChar (c : Char) : Bool :=
  let n := c.toNat
  n = 0x09 || (0x20 ≤ n && n ≠ 0x7F)

/-- The character of a one-letter escape. -/
def escape? : Char → Option Char
  | 'b' => some '\x08'
  | 't' => some '\t'
  | 'n' => some '\n'
  | 'f' => some '\x0c'
  | 'r' => some '\r'
  | '"' => some '"'
  | '\\' => some '\\'
  | _ => none

/-- The character whose code point is written in hexadecimal digits. -/
def codePoint? (digits : List Char) : Option Char := do
  let values ← digits.mapM EventRelay.Text.hexValue?
  let n := values.foldl (fun sum digit => sum * 16 + digit) 0
  if valid : n.isValidChar then some (Char.ofNatAux n valid) else none

/-- Puts a character in front of the text that has been read. -/
def prepend (c : Char) (read : Option (List Char × List Char)) :
    Option (List Char × List Char) :=
  read.map fun (text, rest) => (c :: text, rest)

/-- A basic string on one line. -/
def basic : List Char → Option (List Char × List Char)
  | [] => none
  | '"' :: rest => some ([], rest)
  | '\\' :: 'u' :: a :: b :: c :: d :: rest =>
    (codePoint? [a, b, c, d]).bind fun char => prepend char (basic rest)
  | '\\' :: 'U' :: a :: b :: c :: d :: e :: f :: g :: h :: rest =>
    (codePoint? [a, b, c, d, e, f, g, h]).bind fun char => prepend char (basic rest)
  | '\\' :: letter :: rest => (escape? letter).bind fun char => prepend char (basic rest)
  | c :: rest => if isLineChar c && c ≠ '\\' then prepend c (basic rest) else none

/-- A literal string on one line. -/
def literal : List Char → Option (List Char × List Char)
  | [] => none
  | '\'' :: rest => some ([], rest)
  | c :: rest => if isLineChar c then prepend c (literal rest) else none

/-- The characters after a line break, if there is one. -/
def afterNewline? : List Char → Option (List Char)
  | '\n' :: rest => some rest
  | '\r' :: '\n' :: rest => some rest
  | _ => none

/-- Holds for the blanks within a line. -/
def isBlank (c : Char) : Bool :=
  c = ' ' || c = '\t'

/-- Closes a string of several lines after three quotes: up to two more of them still belong to the
text. -/
def close (quote : Char) : List Char → List Char × List Char
  | [] => ([], [])
  | [c] => if c = quote then ([quote], []) else ([], [c])
  | c :: d :: rest =>
    if c = quote then
      if d = quote then ([quote, quote], rest) else ([quote], d :: rest)
    else ([], c :: d :: rest)

/-- A basic string on several lines. A backslash at the end of a line leaves out the blanks and line
breaks that follow it; `joining` holds while they are left out. -/
def multiBasic : Bool → List Char → Option (List Char × List Char)
  | _, [] => none
  | _, '"' :: '"' :: '"' :: rest => some (close '"' rest)
  | true, ' ' :: rest => multiBasic true rest
  | true, '\t' :: rest => multiBasic true rest
  | true, '\n' :: rest => multiBasic true rest
  | true, '\r' :: '\n' :: rest => multiBasic true rest
  | false, '\n' :: rest => prepend '\n' (multiBasic false rest)
  | false, '\r' :: '\n' :: rest => prepend '\n' (multiBasic false rest)
  | _, '\\' :: 'u' :: a :: b :: c :: d :: rest =>
    (codePoint? [a, b, c, d]).bind fun char => prepend char (multiBasic false rest)
  | _, '\\' :: 'U' :: a :: b :: c :: d :: e :: f :: g :: h :: rest =>
    (codePoint? [a, b, c, d, e, f, g, h]).bind fun char => prepend char (multiBasic false rest)
  | _, '\\' :: next :: rest =>
    match escape? next with
    | some char => prepend char (multiBasic false rest)
    | none =>
      if (afterNewline? ((next :: rest).dropWhile isBlank)).isSome then
        multiBasic true (next :: rest)
      else none
  | _, c :: rest =>
    if isLineChar c && c ≠ '\\' then prepend c (multiBasic false rest) else none

/-- A literal string on several lines. -/
def multiLiteral : List Char → Option (List Char × List Char)
  | [] => none
  | '\'' :: '\'' :: '\'' :: rest => some (close '\'' rest)
  | '\n' :: rest => prepend '\n' (multiLiteral rest)
  | '\r' :: '\n' :: rest => prepend '\n' (multiLiteral rest)
  | c :: rest => if isLineChar c then prepend c (multiLiteral rest) else none

/-- The characters after a line break that directly follows opening quotes, which is no part of the
text. -/
def afterOpening (chars : List Char) : List Char :=
  (afterNewline? chars).getD chars

/-- A string of any kind, from its opening quotes on. -/
def any : List Char → Option (String × List Char)
  | '"' :: '"' :: '"' :: rest =>
    (multiBasic false (afterOpening rest)).map fun (text, rest) => (String.ofList text, rest)
  | '\'' :: '\'' :: '\'' :: rest =>
    (multiLiteral (afterOpening rest)).map fun (text, rest) => (String.ofList text, rest)
  | '"' :: rest => (basic rest).map fun (text, rest) => (String.ofList text, rest)
  | '\'' :: rest => (literal rest).map fun (text, rest) => (String.ofList text, rest)
  | _ => none

end EventRelay.Toml.Text

import EventRelay.Json.Token

/-!
# Reading JSON tokens

The lexer is a machine that takes one symbol at a time. A step gives the tokens that the symbol
completes and the mode for the next symbol. Once a token is broken, or a character begins no token,
the rest of the input is ignored.
-/

namespace EventRelay.Json

open EventRelay.Decimal (Digit)
open EventRelay.Text (Symbol hexValue?)

namespace Lexer

/-- Where the lexer stands between two symbols. A list that is still growing has its latest item
first. -/
inductive Mode
  /-- Between tokens. -/
  | between
  /-- Inside a word, with the letters that are still to come. -/
  | word (token : Token) (letters : List Char)
  /-- After the sign of a number. -/
  | sign
  /-- After a leading zero, which no digit may follow. -/
  | zero (negative : Bool)
  /-- Inside the whole part of a number. -/
  | whole (negative : Bool) (digits : List Digit)
  /-- After the point of a number. -/
  | point (negative : Bool) (whole : List Digit)
  /-- Inside the fraction of a number. -/
  | fraction (negative : Bool) (whole digits : List Digit)
  /-- After the letter that begins an exponent. -/
  | mark (base : Numeral)
  /-- After the sign of an exponent. -/
  | markSign (base : Numeral) (negative : Bool)
  /-- Inside the digits of an exponent. -/
  | exponent (base : Numeral) (negative : Bool) (digits : List Digit)
  /-- Inside a string. -/
  | text (pieces : List Piece)
  /-- After a backslash in a string. -/
  | escape (pieces : List Piece)
  /-- After a backslash and the letter u, with the symbols seen since. -/
  | unit (pieces : List Piece) (seen : List Symbol)
  /-- After a token that is broken. -/
  | stopped

/-- A number without fraction and exponent. -/
def wholeNumeral (negative : Bool) (digits : List Digit) : Numeral :=
  ⟨negative, digits.reverse, [], none⟩

/-- A number with a fraction and no exponent. -/
def fractionNumeral (negative : Bool) (whole digits : List Digit) : Numeral :=
  ⟨negative, whole, digits.reverse, none⟩

/-- A number with an exponent. -/
def exponentNumeral (base : Numeral) (negative : Bool) (digits : List Digit) : Numeral :=
  { base with exponent := some ⟨negative, digits.reverse⟩ }

/-- The step on a symbol that stands where a token may begin. -/
def start : Symbol → List Token × Mode
  | .stray _ => ([.other], .stopped)
  | .char '[' => ([.openArray], .between)
  | .char ']' => ([.closeArray], .between)
  | .char '{' => ([.openObject], .between)
  | .char '}' => ([.closeObject], .between)
  | .char ',' => ([.comma], .between)
  | .char ':' => ([.colon], .between)
  | .char '"' => ([], .text [])
  | .char '-' => ([], .sign)
  | .char 'n' => ([], .word .null ['u', 'l', 'l'])
  | .char 't' => ([], .word (.boolean true) ['r', 'u', 'e'])
  | .char 'f' => ([], .word (.boolean false) ['a', 'l', 's', 'e'])
  | .char ' ' => ([], .between)
  | .char '\t' => ([], .between)
  | .char '\n' => ([], .between)
  | .char '\r' => ([], .between)
  | .char '0' => ([], .zero false)
  | .char c =>
    match Digit.ofChar? c with
    | some digit => ([], .whole false [digit])
    | none => ([.other], .stopped)

/-- The step that completes a number before a symbol which is no part of it. -/
def complete (numeral : Numeral) (symbol : Symbol) : List Token × Mode :=
  let (tokens, mode) := start symbol
  (.number numeral :: tokens, mode)

/-- The step on a number that cannot go on. -/
def malformedNumber : List Token × Mode :=
  ([.brokenNumber .mismatch], .stopped)

/-- The symbol as an ASCII digit, if it is one. -/
def digit? : Symbol → Option Digit
  | .char c => Digit.ofChar? c
  | .stray _ => none

/-- Holds for the letters that begin an exponent. -/
def isMark (symbol : Symbol) : Bool :=
  symbol = .char 'e' || symbol = .char 'E'

/-- The step after a leading zero or a whole part. -/
def afterWhole (numeral : Numeral) (symbol : Symbol) : List Token × Mode :=
  if symbol = .char '.' then ([], .point numeral.negative numeral.whole)
  else if isMark symbol then ([], .mark numeral)
  else complete numeral symbol

/-- The value of four hexadecimal digits, the last one first. -/
def unitOf? : List Symbol → Option UInt16
  | [.char d, .char c, .char b, .char a] => do
    let a ← hexValue? a
    let b ← hexValue? b
    let c ← hexValue? c
    let d ← hexValue? d
    pure (UInt16.ofNat (((a * 16 + b) * 16 + c) * 16 + d))
  | _ => none

/-- One symbol: the tokens that it completes and the mode after it. -/
def step : Mode → Symbol → List Token × Mode
  | .between, symbol => start symbol
  | .word _ [], symbol => start symbol
  | .word token [last], symbol =>
    if symbol = .char last then ([token], .between) else ([.brokenWord .mismatch], .stopped)
  | .word token (letter :: letters), symbol =>
    if symbol = .char letter then ([], .word token letters)
    else ([.brokenWord .mismatch], .stopped)
  | .sign, symbol =>
    if symbol = .char '0' then ([], .zero true)
    else
      match digit? symbol with
      | some digit => ([], .whole true [digit])
      | none => malformedNumber
  | .zero negative, symbol =>
    match digit? symbol with
    | some _ => malformedNumber
    | none => afterWhole (wholeNumeral negative [Digit.zero]) symbol
  | .whole negative digits, symbol =>
    match digit? symbol with
    | some digit => ([], .whole negative (digit :: digits))
    | none => afterWhole (wholeNumeral negative digits) symbol
  | .point negative whole, symbol =>
    match digit? symbol with
    | some digit => ([], .fraction negative whole [digit])
    | none => malformedNumber
  | .fraction negative whole digits, symbol =>
    match digit? symbol with
    | some digit => ([], .fraction negative whole (digit :: digits))
    | none =>
      let numeral := fractionNumeral negative whole digits
      if isMark symbol then ([], .mark numeral) else complete numeral symbol
  | .mark base, symbol =>
    match digit? symbol with
    | some digit => ([], .exponent base false [digit])
    | none =>
      if symbol = .char '+' then ([], .markSign base false)
      else if symbol = .char '-' then ([], .markSign base true)
      else malformedNumber
  | .markSign base negative, symbol =>
    match digit? symbol with
    | some digit => ([], .exponent base negative [digit])
    | none => malformedNumber
  | .exponent base negative digits, symbol =>
    match digit? symbol with
    | some digit => ([], .exponent base negative (digit :: digits))
    | none => complete (exponentNumeral base negative digits) symbol
  | .text pieces, symbol =>
    match symbol with
    | .stray byte => ([], .text (.stray byte :: pieces))
    | .char '"' => ([.text pieces.reverse], .between)
    | .char '\\' => ([], .escape pieces)
    | .char c =>
      if c.toNat < 0x20 then ([.brokenText pieces.reverse .controlCharacter], .stopped)
      else ([], .text (.char c :: pieces))
  | .escape pieces, symbol =>
    if symbol = .char 'u' then ([], .unit pieces [])
    else
      match symbol.char?.bind escapeOf? with
      | some c => ([], .text (.escaped c :: pieces))
      | none => ([.brokenText pieces.reverse .unknownEscape], .stopped)
  | .unit pieces seen, symbol =>
    let all := symbol :: seen
    match unitOf? all with
    | some value => ([], .text (.unit value :: pieces))
    | none =>
      if Symbol.totalSize all < 4 then ([], .unit pieces all)
      else ([.brokenText pieces.reverse .badUnit], .stopped)
  | .stopped, _ => ([], .stopped)

/-- The tokens that the end of the input completes or breaks off. -/
def finish : Mode → List Token
  | .between => []
  | .word .. => [.brokenWord .endOfInput]
  | .sign => [.brokenNumber .endOfInput]
  | .zero negative => [.number (wholeNumeral negative [Digit.zero])]
  | .whole negative digits => [.number (wholeNumeral negative digits)]
  | .point .. => [.brokenNumber .endOfInput]
  | .fraction negative whole digits => [.number (fractionNumeral negative whole digits)]
  | .mark _ => [.brokenNumber .endOfInput]
  | .markSign .. => [.brokenNumber .endOfInput]
  | .exponent base negative digits => [.number (exponentNumeral base negative digits)]
  | .text pieces => [.brokenText pieces.reverse .endOfInput]
  | .escape pieces => [.brokenText pieces.reverse .endOfInput]
  | .unit pieces _ => [.brokenText pieces.reverse .endOfInput]
  | .stopped => []

/-- The tokens of the symbols that follow a mode. -/
def tokensFrom : Mode → List Symbol → List Token
  | mode, [] => finish mode
  | mode, symbol :: rest =>
    let (tokens, next) := step mode symbol
    tokens ++ tokensFrom next rest

end Lexer

/-- The tokens of a list of symbols. -/
def lex (symbols : List Symbol) : List Token :=
  Lexer.tokensFrom .between symbols

end EventRelay.Json

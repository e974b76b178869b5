/-!
# Bytes and the characters they encode

Text arrives as bytes that need not be UTF-8. Reading them gives a list of symbols: the characters
that are encoded, and the bytes that belong to no character. Where bytes are to be shown as a text
all the same, a replacement character stands for what cannot be read.
-/

namespace EventRelay.Text

/-- A finite string of bytes. -/
abbrev Bytes := List UInt8

/-- One character of a byte string, or a byte that belongs to none. -/
inductive Symbol
  | char (c : Char)
  | stray (byte : UInt8)
  deriving DecidableEq, Repr

namespace Symbol

/-- How many bytes a symbol takes. -/
def size : Symbol → Nat
  | .char c => c.utf8Size
  | .stray _ => 1

/-- How many bytes a list of symbols takes. -/
def totalSize : List Symbol → Nat
  | [] => 0
  | symbol :: rest => symbol.size + totalSize rest

/-- The character of a symbol that has one. -/
def char? : Symbol → Option Char
  | .char c => some c
  | .stray _ => none

end Symbol

namespace Utf8

/-- The UTF-8 bytes of a text. -/
def encode (text : String) : Bytes :=
  text.toList.flatMap String.utf8EncodeChar

/-- The character that the bytes begin with, if they begin with one. -/
def firstChar? (bytes : Bytes) : Option Char :=
  (bytes.take 4).toByteArray.utf8DecodeChar? 0

/-- Reads symbols after passing over the given number of bytes. -/
def symbolsAfter : Nat → Bytes → List Symbol
  | _, [] => []
  | skipped + 1, _ :: rest => symbolsAfter skipped rest
  | 0, byte :: rest =>
    match firstChar? (byte :: rest) with
    | some c => .char c :: symbolsAfter (c.utf8Size - 1) rest
    | none => .stray byte :: symbolsAfter 0 rest

/-- The symbols of a byte string: wherever a character begins it is taken whole, and any other byte
is a stray one. -/
def symbols (bytes : Bytes) : List Symbol :=
  symbolsAfter 0 bytes

/-- The text that the bytes encode, if they are UTF-8 throughout. -/
def decode? (bytes : Bytes) : Option String :=
  ((symbols bytes).mapM Symbol.char?).map String.ofList

/-- How many bytes begin a character that breaks off, where no whole one begins. Behind two or three
bytes of a character the byte 0x80 goes on with it, whichever it is, so they have begun one if such
bytes complete them. A byte that begins none is taken alone. -/
def brokenLength (bytes : Bytes) : Nat :=
  if (firstChar? (bytes.take 3 ++ [0x80])).isSome then 3
  else if (firstChar? (bytes.take 2 ++ [0x80, 0x80])).isSome then 2
  else 1

/-- The stray bytes in front. -/
def strayBytes : List Symbol → Bytes
  | .stray byte :: rest => byte :: strayBytes rest
  | _ => []

/-- The characters that symbols are shown as, once so many stray bytes are passed over. -/
def shownAfter : Nat → List Symbol → List Char
  | _, [] => []
  | _, .char c :: rest => c :: shownAfter 0 rest
  | passed + 1, .stray _ :: rest => shownAfter passed rest
  | 0, .stray byte :: rest =>
    '\uFFFD' :: shownAfter (brokenLength (byte :: strayBytes rest) - 1) rest

/-- The text that bytes are shown as. A character that breaks off is replaced as a whole, and any
other stray byte by itself. -/
def lossy (bytes : Bytes) : String :=
  String.ofList (shownAfter 0 (symbols bytes))

end Utf8

end EventRelay.Text

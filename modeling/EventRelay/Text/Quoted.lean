import EventRelay.Text.Hex
import EventRelay.Text.Hidden

/-!
# Quoted text

Text in diagnostics stands between quotes. The quote, the backslash and the usual control characters
are escaped by a letter, and characters that have no visible form of their own by their code point.
-/

namespace EventRelay.Text

/-- The characters that stand for a character between quotes. -/
def quotedChar (c : Char) : List Char :=
  if c = '"' ∨ c = '\\' then ['\\', c]
  else if c = '\n' then ['\\', 'n']
  else if c = '\r' then ['\\', 'r']
  else if c = '\t' then ['\\', 't']
  else if c = '\x00' then ['\\', '0']
  else if isHidden c then ['\\', 'u', '{'] ++ hexDigits c.toNat ++ ['}']
  else [c]

/-- A text between quotes. -/
def quote (text : String) : String :=
  String.ofList ('"' :: text.toList.flatMap quotedChar ++ ['"'])

/-- A text that may be missing, with a word for whether it is there. -/
def quoteOption : Option String → String
  | none => "None"
  | some text => "Some(" ++ quote text ++ ")"

end EventRelay.Text

/-!
# Blank characters and trimming

A blank is a character with the Unicode property `White_Space`. Trimming removes blanks, or any
other class of characters, from both ends of a text and leaves its inside alone.
-/

namespace EventRelay.Text

/-- Holds for the characters with the Unicode property `White_Space`. -/
def isBlank (c : Char) : Bool :=
  let n := c.toNat
  (0x09 ≤ n && n ≤ 0x0D) || n == 0x20 || n == 0x85 || n == 0xA0 || n == 0x1680 ||
    (0x2000 ≤ n && n ≤ 0x200A) || n == 0x2028 || n == 0x2029 || n == 0x202F || n == 0x205F ||
    n == 0x3000

/-- Removes the characters of a class from both ends of a list. -/
def trimList (drops : Char → Bool) (chars : List Char) : List Char :=
  ((chars.dropWhile drops).reverse.dropWhile drops).reverse

/-- Removes the characters of a class from both ends of a text. -/
def trimBy (drops : Char → Bool) (text : String) : String :=
  String.ofList (trimList drops text.toList)

/-- Removes the blanks from both ends of a text. -/
def trim (text : String) : String :=
  trimBy isBlank text

/-- Holds for a text of which trimming leaves nothing. -/
def isBlankText (text : String) : Bool :=
  (trim text).isEmpty

end EventRelay.Text

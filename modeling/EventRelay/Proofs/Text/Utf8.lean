import EventRelay.Text.Utf8
import Mathlib

/-!
# Encoded text is read back

Reading the UTF-8 bytes of a text gives its characters and no stray byte. Reading takes one
character at a time, so the statement follows from the one about the first character. A text is
shown as it is, and where no replacement character is shown the bytes are those of a text.
-/

namespace EventRelay.Text.Utf8

/-- As many bytes as are to be passed over are passed over. -/
theorem symbolsAfter_append (passed rest : Bytes) :
    symbolsAfter passed.length (passed ++ rest) = symbolsAfter 0 rest := by
  induction passed with
  | nil => rfl
  | cons byte tail inductionHypothesis => simpa [symbolsAfter] using inductionHypothesis

/-- The first character of its own bytes is found, whatever follows them. -/
theorem firstChar?_encodeChar (c : Char) (rest : Bytes) :
    firstChar? (String.utf8EncodeChar c ++ rest) = some c := by
  have whole : (String.utf8EncodeChar c).take 4 = String.utf8EncodeChar c := by
    rw [List.take_eq_self_iff, String.length_utf8EncodeChar]
    exact c.utf8Size_le_four
  rw [firstChar?, List.take_append, whole, List.toByteArray_append]
  exact ByteArray.utf8DecodeChar?_utf8EncodeChar_append

/-- The bytes of a character are read as that character. -/
theorem symbolsAfter_encodeChar (c : Char) (rest : Bytes) :
    symbolsAfter 0 (String.utf8EncodeChar c ++ rest) = .char c :: symbolsAfter 0 rest := by
  have found := firstChar?_encodeChar c rest
  have size := String.length_utf8EncodeChar c
  cases encoded : String.utf8EncodeChar c with
  | nil =>
    have positive := c.utf8Size_pos
    rw [encoded, List.length_nil] at size
    omega
  | cons byte tail =>
    rw [encoded, List.cons_append] at found
    rw [encoded, List.length_cons] at size
    have left : c.utf8Size - 1 = tail.length := by omega
    rw [List.cons_append, symbolsAfter, found]
    simp only [left, symbolsAfter_append]

/-- The bytes of a text are read as its characters. -/
theorem symbols_encode (text : String) : symbols (encode text) = text.toList.map .char := by
  unfold symbols encode
  induction text.toList with
  | nil => rfl
  | cons c rest inductionHypothesis =>
    rw [List.flatMap_cons, symbolsAfter_encodeChar, inductionHypothesis, List.map_cons]

/-- Symbols without stray bytes are read as their characters. -/
theorem mapM_char? (chars : List Char) :
    (chars.map Symbol.char).mapM Symbol.char? = some chars := by
  induction chars with
  | nil => rfl
  | cons c rest inductionHypothesis =>
    rw [List.map_cons, List.mapM_cons, inductionHypothesis]
    rfl

/-- The bytes of a text encode it. -/
theorem decode?_encode (text : String) : decode? (encode text) = some text := by
  rw [decode?, symbols_encode, mapM_char?, Option.map_some, String.ofList_toList]

/-- Symbols without stray bytes are shown as their characters. -/
theorem shownAfter_map_char (passed : Nat) (chars : List Char) :
    shownAfter passed (chars.map .char) = chars := by
  induction chars generalizing passed with
  | nil => rfl
  | cons c rest inductionHypothesis => rw [List.map_cons, shownAfter, inductionHypothesis]

/-- A text is shown as it is. -/
@[simp] theorem lossy_encode (text : String) : lossy (encode text) = text := by
  rw [lossy, symbols_encode, shownAfter_map_char, String.ofList_toList]

/-- Symbols that are shown without a replacement are characters. -/
theorem eq_map_char_of_shown {found : List Symbol} (whole : '\uFFFD' ∉ shownAfter 0 found) :
    found = (shownAfter 0 found).map .char := by
  induction found with
  | nil => rfl
  | cons symbol rest inductionHypothesis =>
    cases symbol with
    | char c =>
      rw [shownAfter, List.mem_cons, not_or] at whole
      rw [shownAfter, List.map_cons, ← inductionHypothesis whole.2]
    | stray byte => simp [shownAfter] at whole

/-- Bytes that are shown without a replacement encode what they are shown as. -/
theorem decode?_of_lossy {bytes : Bytes} (whole : '\uFFFD' ∉ (lossy bytes).toList) :
    decode? bytes = some (lossy bytes) := by
  rw [lossy, String.toList_ofList] at whole
  rw [decode?, eq_map_char_of_shown whole, mapM_char?]
  rfl

/-- A character that breaks off is shown as one replacement. -/
example : lossy (encode "a" ++ [0xf0, 0x90, 0x80] ++ encode "b") = "a\uFFFDb" := by
  decide +kernel

/-- Different texts have different bytes. -/
theorem encode_injective : Function.Injective encode := by
  intro first second same
  have read := congrArg decode? same
  rwa [decode?_encode, decode?_encode, Option.some.injEq] at read

end EventRelay.Text.Utf8

import EventRelay.Message.Frame
import EventRelay.Message.Producer
import EventRelay.Proofs.Text.Utf8
import Mathlib

/-!
# Frames are read back in one way

A field is its length in four bytes and then its bytes, so a reader knows where it ends before it
reads any of them. Reading a field undoes writing it, whatever follows, and accepts nothing else;
`decode?_eq_some_iff` says this of whole frames. A frame therefore never begins another one, and a
stream of frames has one division into frames.
-/

namespace EventRelay.Frame

open Text (Bytes)
open InformationTheory (UniquelyDecodable)

/-! ## Lengths -/

/-- Four bytes hold a length below the limit. -/
theorem length_of_lengthBytes {n : Nat} (fits : n < 2 ^ 32) :
    (((UInt8.ofNat (n / 16777216)).toNat * 256 + (UInt8.ofNat (n / 65536)).toNat) * 256 +
      (UInt8.ofNat (n / 256)).toNat) * 256 + (UInt8.ofNat n).toNat = n := by
  simp only [UInt8.toNat_ofNat']
  omega

/-- No length that four bytes hold reaches the limit. -/
theorem length_lt_limit (a b c d : UInt8) :
    ((a.toNat * 256 + b.toNat) * 256 + c.toNat) * 256 + d.toNat < 2 ^ 32 := by
  have boundA := a.toNat_lt
  have boundB := b.toNat_lt
  have boundC := c.toNat_lt
  have boundD := d.toNat_lt
  omega

/-- Four bytes are the bytes of the length that they hold. -/
theorem lengthBytes_of_bytes (a b c d : UInt8) :
    lengthBytes (((a.toNat * 256 + b.toNat) * 256 + c.toNat) * 256 + d.toNat) = [a, b, c, d] := by
  have boundA := a.toNat_lt
  have boundB := b.toNat_lt
  have boundC := c.toNat_lt
  have boundD := d.toNat_lt
  simp only [lengthBytes, List.cons.injEq, and_true, ← UInt8.toNat_inj, UInt8.toNat_ofNat']
  omega

/-! ## Fields -/

/-- A field behind its length. -/
def laid (field : Bytes) : Bytes :=
  lengthBytes field.length ++ field

theorem encodeField_eq (field : Bytes) :
    encodeField field =
      if field.length < 2 ^ 32 then .ok (laid field) else .error .fieldTooLarge :=
  rfl

/-- A field is read exactly where it stands behind its length. -/
theorem decodeField?_eq_some_iff {bytes field rest : Bytes} :
    decodeField? bytes = some (field, rest) ↔
      field.length < 2 ^ 32 ∧ bytes = laid field ++ rest := by
  constructor
  · intro read
    unfold decodeField? at read
    split at read
    · rename_i a b c d tail
      extract_lets length at read
      split at read
      · rename_i enough
        obtain ⟨rfl, rfl⟩ := Prod.mk.inj (Option.some.inj read)
        have whole : (tail.take length).length = length := List.length_take_of_le enough
        refine ⟨?_, ?_⟩
        · rw [whole]
          exact length_lt_limit a b c d
        · rw [laid, whole, lengthBytes_of_bytes, List.append_assoc, List.take_append_drop]
          rfl
      · simp at read
    · simp at read
  · rintro ⟨fits, rfl⟩
    simp only [laid, lengthBytes, List.cons_append, List.nil_append, decodeField?]
    rw [length_of_lengthBytes fits, if_pos (by simp), List.take_left, List.drop_left]

/-! ## Frames -/

/-- The byte strings that stand one after the other in the frame of a message. -/
def fields (message : SentMessage) : List Bytes :=
  [Text.Utf8.encode message.topic, Text.Utf8.encode message.key, message.value]

/-- All fields of a message are short enough for their lengths. -/
def Fits (message : SentMessage) : Prop :=
  ∀ field ∈ fields message, field.length < 2 ^ 32

/-- The frame of a message, if it has one. -/
def ofMessage (message : SentMessage) : Except FrameError Bytes :=
  encode message.topic message.key message.value

/-- The byte strings that are frames. -/
def frames : Set Bytes :=
  {frame | ∃ message, ofMessage message = .ok frame}

variable {message other : SentMessage} {bytes rest more : Bytes}

theorem ofMessage_of_fits (fits : Fits message) :
    ofMessage message = .ok ((fields message).flatMap laid) := by
  simp only [Fits, fields, List.forall_mem_cons] at fits
  obtain ⟨topic, key, value, -⟩ := fits
  simp only [ofMessage, encode, encodeField_eq]
  rw [if_pos topic, if_pos key, if_pos value]
  simp [fields, bind, Except.bind, pure, Except.pure]

/-- One field that is too long suffices for a refusal. -/
theorem ofMessage_of_not_fits (long : ¬ Fits message) :
    ofMessage message = .error .fieldTooLarge := by
  simp only [Fits, fields, List.forall_mem_cons] at long
  simp only [ofMessage, encode, encodeField_eq]
  by_cases topic : (Text.Utf8.encode message.topic).length < 2 ^ 32
  · by_cases key : (Text.Utf8.encode message.key).length < 2 ^ 32
    · have value : ¬ message.value.length < 2 ^ 32 := fun value =>
        long ⟨topic, key, value, by simp⟩
      rw [if_pos topic, if_pos key, if_neg value]
      rfl
    · rw [if_pos topic, if_neg key]
      rfl
  · rw [if_neg topic]
    rfl

theorem ofMessage_eq_ok_iff :
    ofMessage message = .ok bytes ↔ Fits message ∧ bytes = (fields message).flatMap laid := by
  by_cases fits : Fits message
  · rw [ofMessage_of_fits fits, Except.ok.injEq]
    exact ⟨fun same => ⟨fits, same.symm⟩, fun same => same.2.symm⟩
  · rw [ofMessage_of_not_fits fits]
    constructor
    · intro framed
      simp at framed
    · rintro ⟨again, -⟩
      exact absurd again fits

/-- A message is read exactly where its frame stands, and what follows the frame is left. -/
theorem decode?_eq_some_iff :
    decode? bytes =
        some ((Text.Utf8.encode message.topic, Text.Utf8.encode message.key, message.value), rest) ↔
      ∃ frame, ofMessage message = .ok frame ∧ bytes = frame ++ rest := by
  have steps : decode? bytes = some ((Text.Utf8.encode message.topic,
      Text.Utf8.encode message.key, message.value), rest) ↔
      ∃ first, decodeField? bytes = some (Text.Utf8.encode message.topic, first) ∧
        ∃ second, decodeField? first = some (Text.Utf8.encode message.key, second) ∧
          decodeField? second = some (message.value, rest) := by
    simp [decode?, Option.bind_eq_some_iff]
  simp only [steps, decodeField?_eq_some_iff, ofMessage_eq_ok_iff, Fits, fields,
    List.forall_mem_cons, List.flatMap_cons, List.flatMap_nil]
  constructor
  · rintro ⟨first, ⟨topic, rfl⟩, second, ⟨key, rfl⟩, value, rfl⟩
    exact ⟨_, ⟨⟨topic, key, value, by simp⟩, rfl⟩, by simp⟩
  · rintro ⟨frame, ⟨⟨topic, key, value, -⟩, rfl⟩, rfl⟩
    exact ⟨laid (Text.Utf8.encode message.key) ++ (laid message.value ++ rest),
      ⟨topic, by simp⟩, laid message.value ++ rest, ⟨key, rfl⟩, value, rfl⟩

/-- Frames that stand at the front of the same bytes are the same frame of the same message. -/
theorem eq_of_append_eq {frame longer : Bytes} (first : ofMessage message = .ok frame)
    (second : ofMessage other = .ok longer) (same : frame ++ rest = longer ++ more) :
    message = other ∧ frame = longer ∧ rest = more := by
  have left := decode?_eq_some_iff.mpr ⟨frame, first, Eq.refl (frame ++ rest)⟩
  have right := decode?_eq_some_iff.mpr ⟨longer, second, same⟩
  rw [left, Option.some.injEq, Prod.mk.injEq, Prod.mk.injEq, Prod.mk.injEq] at right
  obtain ⟨⟨topic, key, value⟩, rfl⟩ := right
  refine ⟨?_, List.append_cancel_right same, rfl⟩
  cases message
  cases other
  simp only [SentMessage.mk.injEq]
  exact ⟨Text.Utf8.encode_injective topic, Text.Utf8.encode_injective key, value⟩

/-- A frame begins with the length of its topic, so it is not empty. -/
theorem ne_nil_of_mem_frames {frame : Bytes} (framed : frame ∈ frames) : frame ≠ [] := by
  obtain ⟨message, made⟩ := framed
  rw [(ofMessage_eq_ok_iff.mp made).2]
  simp [fields, laid, lengthBytes]

/-- A stream of frames has one division into frames. -/
theorem uniquelyDecodable_frames : UniquelyDecodable frames := by
  intro stream others framed otherFramed same
  induction stream generalizing others with
  | nil =>
    cases others with
    | nil => rfl
    | cons frame rest =>
      have empty : frame = [] := (List.append_eq_nil_iff.mp same.symm).1
      exact absurd empty (ne_nil_of_mem_frames (otherFramed frame List.mem_cons_self))
  | cons frame rest inductionHypothesis =>
    cases others with
    | nil =>
      have empty : frame = [] := (List.append_eq_nil_iff.mp same).1
      exact absurd empty (ne_nil_of_mem_frames (framed frame List.mem_cons_self))
    | cons longer more =>
      obtain ⟨message, first⟩ := framed frame List.mem_cons_self
      obtain ⟨other, second⟩ := otherFramed longer List.mem_cons_self
      rw [List.flatten_cons, List.flatten_cons] at same
      obtain ⟨-, rfl, later⟩ := eq_of_append_eq first second same
      rw [inductionHypothesis more (fun f inside => framed f (List.mem_cons_of_mem _ inside))
        (fun f inside => otherFramed f (List.mem_cons_of_mem _ inside)) later]

/-- A message whose fields are below the limit has a frame, and what it is read from, with any bytes
after it, is that frame and these bytes. So a frame has one message, no frame begins another one,
and a stream of frames has one division into frames. A message with a longer field has no frame. -/
theorem frames_readable :
    (∀ message, Fits message → ∃ frame, ofMessage message = .ok frame ∧ ∀ bytes rest,
      decode? bytes = some
          ((Text.Utf8.encode message.topic, Text.Utf8.encode message.key, message.value), rest) ↔
        bytes = frame ++ rest) ∧
    (∀ message other frame, ofMessage message = .ok frame → ofMessage other = .ok frame →
      message = other) ∧
    (∀ frame ∈ frames, ∀ longer ∈ frames, frame <+: longer → frame = longer) ∧
    UniquelyDecodable frames ∧
    ∀ message, ¬ Fits message → ofMessage message = .error .fieldTooLarge := by
  refine ⟨fun message fits => ?_, fun message other frame first second => ?_, ?_,
    uniquelyDecodable_frames, fun message => ofMessage_of_not_fits⟩
  · have made := ofMessage_of_fits fits
    refine ⟨_, made, fun bytes rest => ?_⟩
    rw [decode?_eq_some_iff, made]
    simp
  · exact (eq_of_append_eq first second (Eq.refl (frame ++ []))).1
  · rintro frame ⟨message, first⟩ longer ⟨other, second⟩ ⟨rest, joined⟩
    exact (eq_of_append_eq first second (joined.trans (List.append_nil longer).symm)).2.1

/-- A message with an empty key, a topic outside ASCII and a value that looks like a length. -/
def misleadingMessage : SentMessage :=
  ⟨"\u00e9t\u00e9", "", [0, 0, 0, 2]⟩

/-- Its frame is read as this message and leaves what follows, although every part of it could be
taken for a length. -/
theorem frames_readable_misleading :
    Fits misleadingMessage ∧
    ofMessage misleadingMessage =
      .ok [0, 0, 0, 5, 195, 169, 116, 195, 169, 0, 0, 0, 0, 0, 0, 0, 4, 0, 0, 0, 2] ∧
    decode? ([0, 0, 0, 5, 195, 169, 116, 195, 169, 0, 0, 0, 0, 0, 0, 0, 4, 0, 0, 0, 2] ++
        [0, 0, 0, 9]) =
      some (([195, 169, 116, 195, 169], [], [0, 0, 0, 2]), [0, 0, 0, 9]) := by
  have fits : Fits misleadingMessage := by
    unfold Fits
    decide
  have made : ofMessage misleadingMessage =
      .ok [0, 0, 0, 5, 195, 169, 116, 195, 169, 0, 0, 0, 0, 0, 0, 0, 4, 0, 0, 0, 2] := rfl
  obtain ⟨frame, same, reads⟩ := frames_readable.1 misleadingMessage fits
  obtain rfl := Except.ok.inj (made.symm.trans same)
  exact ⟨fits, made, (reads _ [0, 0, 0, 9]).mpr rfl⟩

end EventRelay.Frame

import EventRelay.Text.Utf8

/-!
# Message frames

A message goes over the wire as topic, key and value, each after its length in four bytes, the most
significant one first. Reading three such fields gives the message back.
-/

namespace EventRelay.Frame

open Text (Bytes)

/-- A field is too long for its length to fit into four bytes. -/
inductive FrameError
  | fieldTooLarge
  deriving DecidableEq, Repr

/-- The wording of an error. -/
def FrameError.message : FrameError → String
  | .fieldTooLarge => "frame field too large"

/-- The first length that four bytes do not hold. -/
def lengthLimit : Nat :=
  4294967296

/-- A number in four bytes, the most significant one first. -/
def lengthBytes (n : Nat) : Bytes :=
  [UInt8.ofNat (n / 16777216), UInt8.ofNat (n / 65536), UInt8.ofNat (n / 256), UInt8.ofNat n]

/-- A field after its length. -/
def encodeField (field : Bytes) : Except FrameError Bytes :=
  if field.length < lengthLimit then .ok (lengthBytes field.length ++ field)
  else .error .fieldTooLarge

/-- The frame of a message. -/
def encode (topic key : String) (value : Bytes) : Except FrameError Bytes := do
  let topic ← encodeField (Text.Utf8.encode topic)
  let key ← encodeField (Text.Utf8.encode key)
  let value ← encodeField value
  pure (topic ++ key ++ value)

/-- Reads a field and gives it with the bytes that follow it. -/
def decodeField? : Bytes → Option (Bytes × Bytes)
  | a :: b :: c :: d :: rest =>
    let length := ((a.toNat * 256 + b.toNat) * 256 + c.toNat) * 256 + d.toNat
    if length ≤ rest.length then some (rest.take length, rest.drop length) else none
  | _ => none

/-- Reads three fields and gives them with the bytes that follow them. -/
def decode? (bytes : Bytes) : Option ((Bytes × Bytes × Bytes) × Bytes) := do
  let (topic, rest) ← decodeField? bytes
  let (key, rest) ← decodeField? rest
  let (value, rest) ← decodeField? rest
  pure ((topic, key, value), rest)

end EventRelay.Frame

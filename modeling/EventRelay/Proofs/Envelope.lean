import EventRelay.Envelope
import EventRelay.Proofs.Json.Depth
import EventRelay.Proofs.Rule.FirstMatch
import EventRelay.Stage.Basic

/-!
# What an envelope is read back as

An envelope is one object more around its message, so it is read back exactly where the message
leaves room for one more level. What is read back has the message and the header fields that are
there as its members, and no others.
-/

namespace EventRelay

namespace Json

/-- The normal form of an object is looked up like its members from the last one on. -/
theorem member?_normal_object (members : List (String × Json)) (name : String) :
    (object members).normal.member? name = (members.reverse.lookup name).map normal := by
  rw [normal_object, member?, lookup_sortMembers, ← List.map_reverse]
  induction members.reverse with
  | nil => rfl
  | cons member rest inductionHypothesis =>
    rw [List.map_cons, lookup_cons_eq_ite, lookup_cons_eq_ite, inductionHypothesis]
    split <;> rfl

/-- A member counts as what it was put there for. -/
theorem field?_of_member? {event : Json} {name : String} {value : Option String}
    (present : event.member? name = value.map text) (filled : ∀ held ∈ value, held ≠ "") :
    event.field? name = value := by
  cases value with
  | none => rw [field?, present]; rfl
  | some held => exact field?_eq_some_iff.mpr ⟨present, filled held rfl⟩

/-- What counts is not empty. -/
theorem ne_empty_of_field? {event : Json} {name : String} :
    ∀ held ∈ event.field? name, held ≠ "" :=
  fun _ present => (field?_eq_some_iff.mp present).2

end Json

namespace Envelope

/-- An envelope is one level deeper than its message. -/
theorem depth_json (envelope : Envelope) : envelope.json.depth = envelope.payload.depth + 1 := by
  have header : ∀ (name : String) (value : Option String), ∀ member ∈ headerMember name value,
      member.2.depth = 0 := by
    intro name value member present
    cases value with
    | none => simp [headerMember] at present
    | some text =>
      obtain rfl : member = (name, .text text) := by simpa [headerMember] using present
      rfl
  refine eq_of_forall_ge_iff fun bound => ?_
  rw [json, Json.depth_object_le_iff]
  constructor
  · rintro ⟨_, each⟩
    exact each ("payload", envelope.payload) (by simp)
  · intro deeper
    refine ⟨by omega, fun member present => ?_⟩
    simp only [List.mem_append, List.mem_singleton] at present
    rcases present with ((inStream | inAlias) | inType) | rfl
    · rw [header _ _ member inStream]; omega
    · rw [header _ _ member inAlias]; omega
    · rw [header _ _ member inType]; omega
    · exact deeper

/-- The numbers of an envelope are those of its message. -/
theorem numbers_json (envelope : Envelope) : envelope.json.numbers = envelope.payload.numbers := by
  have header : ∀ (name : String) (value : Option String),
      ((headerMember name value).flatMap fun member => member.2.numbers) = [] := by
    intro name value
    cases value <;> simp [headerMember, Json.numbers]
  simp [json, header]

/-- What an envelope holds under a name, once it has been read back. -/
theorem member?_normal_json (envelope : Envelope) (name : String) :
    envelope.json.normal.member? name =
      if name = "payload" then some envelope.payload.normal
      else if name = "message_type" then envelope.messageType.map .text
      else if name = "stream_alt_id" then envelope.streamAlias.map .text
      else if name = "stream_id" then envelope.stream.map .text
      else none := by
  have header : ∀ (held : String) (value : Option String) (rest : List (String × Json)),
      ((headerMember held value).reverse ++ rest).lookup name =
        if name = held then (value.map Json.text).or (rest.lookup name) else rest.lookup name := by
    intro held value rest
    cases value with
    | none => simp [headerMember]
    | some text => simp [headerMember, Json.lookup_cons_eq_ite]
  have texts : ∀ value : Option String,
      (value.map Json.text).map Json.normal = value.map Json.text := by
    intro value
    cases value <;> rfl
  have reversed : (headerMember "stream_id" envelope.stream ++
      headerMember "stream_alt_id" envelope.streamAlias ++
      headerMember "message_type" envelope.messageType ++ [("payload", envelope.payload)]).reverse =
        ("payload", envelope.payload) ::
          ((headerMember "message_type" envelope.messageType).reverse ++
            ((headerMember "stream_alt_id" envelope.streamAlias).reverse ++
              ((headerMember "stream_id" envelope.stream).reverse ++ []))) := by
    simp
  rw [json, Json.member?_normal_object, reversed, Json.lookup_cons_eq_ite, header, header, header,
    List.lookup_nil]
  split_ifs <;> simp_all

/-- An envelope is read back exactly where its message leaves room for it. -/
theorem eventOf_bytes (envelope : Envelope) :
    Stage.eventOf envelope.bytes =
      if envelope.payload.depth < Json.maxDepth then .ok envelope.json.reread.normal
      else .error (.malformed .tooDeep) := by
  have object : envelope.json.reread.normal.isObject = true := by
    rw [json, Json.reread_object, Json.normal_object]
    rfl
  rw [Stage.eventOf, bytes, Json.parse_bytes_eq_ite, depth_json]
  by_cases room : envelope.payload.depth < Json.maxDepth
  · rw [if_pos room, if_pos (Nat.succ_le_of_lt room)]
    exact if_pos object
  · rw [if_neg room, if_neg (fun fits => room (Nat.lt_of_succ_le fits))]

end Envelope

end EventRelay

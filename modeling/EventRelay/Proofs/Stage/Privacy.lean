import EventRelay.Proofs.Masking.Leak
import EventRelay.Proofs.Stage.Invocation

/-!
# What a masking stage lets out

A stage that masks writes and forwards one body. No personal number is in it, unless the masker has
given the event up in that invocation: then the event goes out as it came in, and the report says
that it was not masked.
-/

namespace EventRelay.Stage

open Text (Bytes)

variable {Store π : Type}

/-- Bytes that spell a text without personal numbers. -/
def Private (body : Bytes) : Prop :=
  ∃ text, body = Text.Utf8.encode text ∧ ¬ Masking.HoldsPersonal text

/-- What becomes of an event under a masker: nothing personal is left, or the masker counts the
event as given up and leaves it alone. -/
theorem private_or_given_up (masker : Masker) (event : Json) :
    ∃ after, (maskWith (some masker) event).2.2 = some after ∧
      (after.givenUp = masker.givenUp ∧ Private (maskWith (some masker) event).1.bytes ∨
        after.givenUp = masker.givenUp + 1 ∧ (maskWith (some masker) event).2.1 = false ∧
          (maskWith (some masker) event).1 = event) := by
  cases outcome : Masker.maskEvent event with
  | error problem =>
    have whole : maskWith (some masker) event =
        (event, false, some ⟨masker.processed + 1, masker.masked, masker.givenUp + 1⟩) := by
      simp [maskWith, Masker.mask, outcome]
    rw [whole]
    exact ⟨_, rfl, .inr ⟨rfl, rfl, rfl⟩⟩
  | ok found =>
    cases found with
    | none =>
      have whole : maskWith (some masker) event =
          (event, false, some ⟨masker.processed + 1, masker.masked, masker.givenUp⟩) := by
        simp [maskWith, Masker.mask, outcome]
      rw [whole]
      exact ⟨_, rfl, .inl ⟨rfl, event.write, rfl, Masker.not_holdsPersonal_of_none outcome⟩⟩
    | some masked =>
      have whole : maskWith (some masker) event =
          (masked, true, some ⟨masker.processed + 1, masker.masked + 1, masker.givenUp⟩) := by
        simp [maskWith, Masker.mask, outcome]
      rw [whole]
      exact ⟨_, rfl, .inl ⟨rfl, masked.write, rfl, Masker.not_holdsPersonal_of_some outcome⟩⟩

variable [TableStore Store] [Producer π]

/-- Processing an event counts it in the masker. -/
theorem masker_of_ordinary (stage : Stage Store π) (files : FileTree) {payload : Bytes}
    {event : Json} (arrives : eventOf payload = .ok event)
    (ordinary : stage.isControl event = false) :
    (stage.invoke files payload).2.1.masker = (maskWith stage.masker event).2.2 := by
  rw [invoke_of_ordinary stage files arrives ordinary]

/-- What a masking stage writes and forwards holds no personal number, unless the masker has given
up one more event: then it is the event as it came in, reported as not masked. -/
theorem lets_out_nothing_personal (stage : Stage Store π) (files : FileTree) {masker : Masker}
    (masks : stage.masker = some masker) {payload : Bytes} {event : Json}
    (arrives : eventOf payload = .ok event) (ordinary : stage.isControl event = false) :
    stage.Processes files event (stage.invoke files payload) ∧
      ∃ after, (stage.invoke files payload).2.1.masker = some after ∧
        (after.givenUp = masker.givenUp ∧ Private (stage.bodyOf event) ∨
          after.givenUp = masker.givenUp + 1 ∧
            (∃ write route, (stage.invoke files payload).1 =
              .ok (.processed (Destination.ofEvent event) false write route)) ∧
            stage.bodyOf event = event.bytes) := by
  have processed := processes_of_ordinary stage files arrives ordinary
  refine ⟨processed, ?_⟩
  obtain ⟨after, counted, outcome⟩ := private_or_given_up masker event
  rw [← masks] at counted outcome
  refine ⟨after, (masker_of_ordinary stage files arrives ordinary).trans counted, ?_⟩
  rcases outcome with privateBody | ⟨givenUp, unmasked, same⟩
  · exact .inl privateBody
  · refine .inr ⟨givenUp, ⟨_, _, unmasked ▸ processed.report⟩, ?_⟩
    rw [bodyOf, same]

/-- A stage that masks orders. -/
def maskingStage : Stage MemoryStore MemoryProducer :=
  (orderStage "bronze").withMasking true

/-- The event with two numbers goes out without them. -/
theorem lets_out_twoNumbers :
    maskingStage.masker = some {} ∧
      eventOf Masker.twoNumbers.bytes = .ok Masker.twoNumbers ∧
      maskingStage.isControl Masker.twoNumbers = false ∧
      Private (maskingStage.bodyOf Masker.twoNumbers) := by
  have masks : maskingStage.masker = some {} := rfl
  have integers : ∀ number ∈ Masker.twoNumbers.numbers, number.isInteger = true := by decide
  have arrives : eventOf Masker.twoNumbers.bytes = .ok Masker.twoNumbers :=
    eventOf_eq_ok_iff.mpr
      ⟨Json.parse_bytes (Json.readable_of_integers integers) (by decide), rfl⟩
  have ordinary : maskingStage.isControl Masker.twoNumbers = false := by decide
  obtain ⟨-, after, counted, privateBody | ⟨givenUp, -, same⟩⟩ :=
    lets_out_nothing_personal maskingStage .empty masks arrives ordinary
  · exact ⟨masks, arrives, ordinary, privateBody.2⟩
  · have plain : Masker.twoNumbers.Plain := by
      refine ⟨integers, ?_⟩
      have none : (Masker.twoNumbers.texts.all fun text =>
          text.toList.all fun c => !Masking.escapesToDigit c) = true := rfl
      simpa only [List.all_eq_true, Bool.not_eq_true'] using none
    have normal : Masker.twoNumbers.Normal := rfl
    have masked : Masker.maskEvent Masker.twoNumbers = .ok (some Masker.twoNumbers.masked) :=
      (Masker.maskEvent_eq_ite normal plain (by decide)).trans (if_pos (by decide))
    have seen : (maskWith maskingStage.masker Masker.twoNumbers).2.2 = some ⟨1, 1, 0⟩ := by
      simp [masks, maskWith, Masker.mask, masked]
    rw [masker_of_ordinary maskingStage .empty arrives ordinary, seen] at counted
    obtain rfl := Option.some.inj counted
    simp at givenUp

end EventRelay.Stage

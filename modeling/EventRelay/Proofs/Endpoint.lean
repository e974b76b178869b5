import EventRelay.Endpoint
import EventRelay.Proofs.Stage.Invocation
import EventRelay.Proofs.Store.Memory

/-!
# Requests without success have no effect

A request is refused by path, method or size before anything is done; one that is served either
succeeds or leaves tables, rules and messages as they were. All that is left behind is counted: a
body that is no event by the stage, and a message that is rejected by the producer.
-/

namespace EventRelay

open Text (Bytes)

/-- The counters of a stage that has been given one more payload that is no event. -/
def StageCounters.countRefusal (counters : StageCounters) : StageCounters :=
  { counters with
    received := counters.received + 1
    parseErrors := counters.parseErrors + 1 }

namespace Response

@[simp]
theorem status_answering (response : Response) (method : String) :
    (response.answering method).status = response.status := by
  unfold answering
  split <;> rfl

end Response

namespace Route

variable {stage path : String}

/-- The stage is reached under its name alone. -/
theorem ofPath?_eq_stage_iff : ofPath? stage path = some .stage ↔ path = "/" ++ stage := by
  unfold ofPath?
  constructor
  · intro leads
    split at leads
    · assumption
    · repeat' split at leads
      all_goals simp at leads
  · intro own
    rw [if_pos own]

/-- The front door is not hidden by a stage that can be reached under its name. -/
theorem ofPath?_ingest (routable : isRoutable stage = true) :
    ofPath? stage "/ingest" = some .ingest := by
  have other : "/ingest" ≠ "/" ++ stage := by
    intro same
    have own : stage = "ingest" := by
      have cut : "/".toList ++ "ingest".toList = "/".toList ++ stage.toList :=
        (congrArg String.toList same).trans String.toList_append
      exact (String.toList_inj.mp (List.append_cancel_left cut)).symm
    rw [own] at routable
    exact absurd routable (by decide)
  rw [ofPath?, if_neg other, if_pos rfl]

/-- A route that reads bodies is posted to. -/
theorem post_of_readsBody {route : Route} (reads : route.readsBody = true) :
    "POST" ∈ route.methods := by
  cases route with
  | stage => decide
  | ingest => decide
  | refresh => decide
  | health => exact absurd reads (by decide)
  | metrics => exact absurd reads (by decide)

end Route

namespace Endpoint

section AnyProducer

variable {Store π : Type} [Producer π]

/-- What is published is what the producer accepts, and nothing but the producer moves. -/
theorem publish_of_sent (endpoint : Endpoint Store π) (bytes : Bytes)
    {outcome : Except SendError Unit} {producer : Option π}
    (sent : Producer.sendThrough endpoint.stage.producer endpoint.ingestTopic Stage.messageKey bytes
      endpoint.stage.sendTimeout = (outcome, producer)) :
    (endpoint.publish bytes).1.status = (if outcome.isOk then 200 else 503) ∧
      (endpoint.publish bytes).2 =
        { endpoint with stage := { endpoint.stage with producer } } := by
  unfold publish
  extract_lets stage
  rw [sent]
  cases outcome with
  | ok accepted => exact ⟨rfl, rfl⟩
  | error problem => exact ⟨rfl, rfl⟩

variable [TableStore Store]

/-- A request is refused and nothing is done, or it is served on its route. -/
theorem handle_cases (endpoint : Endpoint Store π) (files : FileTree) (request : Request) :
    (∃ response, endpoint.handle files request = (response, endpoint, files) ∧
      response.status ∈ [404, 405, 413]) ∨
    ∃ route,
      Route.ofPath? endpoint.stage.name (Route.pathOf request.target) = some route ∧
      (route.readsBody = true → request.body.length ≤ endpoint.maxPayload) ∧
      endpoint.handle files request =
        ((endpoint.serve files request.body route).1.answering request.method,
          (endpoint.serve files request.body route).2) := by
  unfold handle
  cases leads : Route.ofPath? endpoint.stage.name (Route.pathOf request.target) with
  | none => exact .inl ⟨_, rfl, by decide⟩
  | some route =>
    dsimp only
    split
    · exact .inl ⟨_, rfl, by simp⟩
    · split
      · exact .inl ⟨_, rfl, by decide⟩
      · rename_i fits
        refine .inr ⟨route, rfl, fun reads => ?_, rfl⟩
        simpa [reads] using fits

/-- A body that is no event is answered with 400; the stage has counted it and done nothing else. -/
theorem invoke_of_refused (endpoint : Endpoint Store π) (files : FileTree) {body : Bytes}
    {problem : EventError} (refused : Stage.eventOf body = .error problem) :
    (endpoint.invoke files body).1.status = 400 ∧
      (endpoint.invoke files body).2 =
        ({ endpoint with
          stage :=
            { endpoint.stage with counters := endpoint.stage.counters.countRefusal } },
          files) := by
  rw [invoke, Stage.invoke_of_refused endpoint.stage files refused]
  cases problem with
  | malformed cause => exact ⟨rfl, rfl⟩
  | notAnObject kind => exact ⟨rfl, rfl⟩

/-- A body that is an event is answered with a report, whatever becomes of the event. -/
theorem status_invoke_of_event (endpoint : Endpoint Store π) (files : FileTree) {body : Bytes}
    {event : Json} (arrives : Stage.eventOf body = .ok event) :
    (endpoint.invoke files body).1.status = 200 := by
  cases control : endpoint.stage.isControl event with
  | true =>
    rw [invoke, Stage.invoke_of_control endpoint.stage files arrives control]
    rfl
  | false =>
    rw [invoke, Stage.invoke_of_ordinary endpoint.stage files arrives control]
    rfl

/-- A body that is too large is refused where it would be read. -/
theorem handle_of_large {endpoint : Endpoint Store π} {files : FileTree} {request : Request}
    {route : Route}
    (leads : Route.ofPath? endpoint.stage.name (Route.pathOf request.target) = some route)
    (post : request.method = "POST") (reads : route.readsBody = true)
    (large : endpoint.maxPayload < request.body.length) :
    endpoint.handle files request = (.tooLarge, endpoint, files) := by
  have allowed : request.method ∈ route.methods := post ▸ Route.post_of_readsBody reads
  simp [handle, leads, allowed, reads, large]

end AnyProducer

variable {Store : Type}

/-- An endpoint that has sent nothing more and differs in nothing but its counters. -/
structure Unmoved (endpoint after : Endpoint Store MemoryProducer) (counters : StageCounters) :
    Prop where
  sent : after.stage.producer.map MemoryProducer.sent =
    endpoint.stage.producer.map MemoryProducer.sent
  rest : after =
    { endpoint with
      stage := { endpoint.stage with producer := after.stage.producer, counters } }

theorem Unmoved.refl (endpoint : Endpoint Store MemoryProducer) :
    endpoint.Unmoved endpoint endpoint.stage.counters :=
  ⟨rfl, rfl⟩

theorem Unmoved.trans {endpoint between after : Endpoint Store MemoryProducer}
    {counters later : StageCounters} (first : endpoint.Unmoved between counters)
    (second : between.Unmoved after later) : endpoint.Unmoved after later where
  sent := second.sent.trans first.sent
  rest := second.rest.trans (by rw [first.rest])

/-- A message is published and nothing else is done, or it is not published and counted at most. -/
theorem publish_cases (endpoint : Endpoint Store MemoryProducer) (bytes : Bytes) :
    ((endpoint.publish bytes).1.status = 200 ∧
      ∃ producer later, endpoint.stage.producer = some producer ∧
        later.sent = producer.sent ++ [⟨endpoint.ingestTopic, Stage.messageKey, bytes⟩] ∧
        (endpoint.publish bytes).2 =
          { endpoint with stage := { endpoint.stage with producer := some later } }) ∨
    ((endpoint.publish bytes).1.status = 503 ∧
      endpoint.Unmoved (endpoint.publish bytes).2 endpoint.stage.counters) := by
  cases present : endpoint.stage.producer with
  | none =>
    have missing : Producer.sendThrough endpoint.stage.producer endpoint.ingestTopic
        Stage.messageKey bytes endpoint.stage.sendTimeout = (.error .missingEndpoint, none) := by
      rw [present]
      rfl
    obtain ⟨status, after⟩ := publish_of_sent endpoint bytes missing
    rw [after]
    exact .inr ⟨status, by rw [present], rfl⟩
  | some producer =>
    cases failing : producer.failing with
    | true =>
      have rejected := MemoryProducer.sendThrough_of_failing failing endpoint.ingestTopic
        Stage.messageKey bytes endpoint.stage.sendTimeout
      rw [← present] at rejected
      obtain ⟨status, after⟩ := publish_of_sent endpoint bytes rejected
      rw [after]
      exact .inr ⟨status, by rw [present]; rfl, rfl⟩
    | false =>
      have accepted := MemoryProducer.sendThrough_of_working failing endpoint.ingestTopic
        Stage.messageKey bytes endpoint.stage.sendTimeout
      rw [← present] at accepted
      obtain ⟨status, after⟩ := publish_of_sent endpoint bytes accepted
      exact .inl ⟨status, producer, _, rfl, rfl, after⟩

variable [TableStore Store]

/-- A request that is served without success leaves files, tables, rules and messages as they were;
the stage counts a body that is no event. -/
theorem unmoved_serve (endpoint : Endpoint Store MemoryProducer) (files : FileTree) (body : Bytes)
    (route : Route) (fails : (endpoint.serve files body route).1.status ≠ 200) :
    (endpoint.serve files body route).2.2 = files ∧
      endpoint.Unmoved (endpoint.serve files body route).2.1
        (if (endpoint.serve files body route).1.status = 400 ∧ route = .stage then
          endpoint.stage.counters.countRefusal
        else endpoint.stage.counters) := by
  cases route with
  | stage =>
    change (endpoint.invoke files body).1.status ≠ 200 at fails
    cases arrives : Stage.eventOf body with
    | ok event => exact absurd (endpoint.status_invoke_of_event files arrives) fails
    | error problem =>
      obtain ⟨status, after⟩ := endpoint.invoke_of_refused files arrives
      rw [serve, after, if_pos ⟨status, rfl⟩]
      exact ⟨rfl, rfl, rfl⟩
  | ingest =>
    rw [if_neg (by simp)]
    refine ⟨rfl, ?_⟩
    change endpoint.Unmoved (endpoint.ingest body).2 _
    change (endpoint.ingest body).1.status ≠ 200 at fails
    cases wrapped : Envelope.ofBytes body with
    | error problem =>
      rw [ingest, wrapped]
      exact .refl endpoint
    | ok envelope =>
      rw [ingest, wrapped] at fails ⊢
      exact ((endpoint.publish_cases envelope.bytes).resolve_left fun done => fails done.1).2
  | refresh =>
    rw [if_neg (by simp)]
    have refused := (endpoint.publish_cases
      (Envelope.control endpoint.stage.controlCode).bytes).resolve_left fun done => fails done.1
    exact ⟨rfl, refused.2⟩
  | health => exact absurd rfl fails
  | metrics => exact absurd rfl fails

/-- What is ingested with success is one envelope, and the stage has not run. -/
theorem serve_ingest (endpoint : Endpoint Store MemoryProducer) (files : FileTree) (body : Bytes)
    (accepted : (endpoint.serve files body .ingest).1.status = 200) :
    ∃ envelope producer later, Envelope.ofBytes body = .ok envelope ∧
      endpoint.stage.producer = some producer ∧
      later.sent = producer.sent ++ [⟨endpoint.ingestTopic, "message", envelope.bytes⟩] ∧
      (endpoint.serve files body .ingest).2 =
        ({ endpoint with stage := { endpoint.stage with producer := some later } }, files) := by
  change (endpoint.ingest body).1.status = 200 at accepted
  cases wrapped : Envelope.ofBytes body with
  | error problem =>
    rw [ingest, wrapped] at accepted
    exact absurd accepted (show ¬(400 : Nat) = 200 by decide)
  | ok envelope =>
    rw [ingest, wrapped] at accepted
    obtain ⟨-, producer, later, present, sent, after⟩ | ⟨refused, -⟩ :=
      endpoint.publish_cases envelope.bytes
    · refine ⟨envelope, producer, later, rfl, present, sent, ?_⟩
      change ((endpoint.ingest body).2, files) = _
      rw [ingest, wrapped]
      exact congrArg (·, files) after
    · exact absurd (accepted.symm.trans refused) (by decide)

/-- A request that is not answered with 200 leaves files, tables, rules and messages as they were,
and the counters of the stage as well unless the stage has been reached with a body that is no
event. -/
theorem unmoved_handle (endpoint : Endpoint Store MemoryProducer) (files : FileTree)
    (request : Request) (fails : (endpoint.handle files request).1.status ≠ 200) :
    (endpoint.handle files request).2.2 = files ∧
      endpoint.Unmoved (endpoint.handle files request).2.1
        (if (endpoint.handle files request).1.status = 400 ∧
            Route.pathOf request.target = "/" ++ endpoint.stage.name then
          endpoint.stage.counters.countRefusal
        else endpoint.stage.counters) := by
  obtain ⟨response, refused, status⟩ | ⟨route, leads, -, served⟩ :=
    endpoint.handle_cases files request
  · -- No refusal by path, method or size is a 400.
    have other : ¬(response.status = 400 ∧
        Route.pathOf request.target = "/" ++ endpoint.stage.name) := by
      rintro ⟨bad, -⟩
      rw [bad] at status
      exact absurd status (by decide)
    rw [refused, if_neg other]
    exact ⟨rfl, .refl endpoint⟩
  · rw [served, Response.status_answering] at fails ⊢
    obtain ⟨sameFiles, unmoved⟩ := endpoint.unmoved_serve files request.body route fails
    have own : route = .stage ↔ Route.pathOf request.target = "/" ++ endpoint.stage.name := by
      rw [← Route.ofPath?_eq_stage_iff, leads, Option.some_inj]
    simp only [own] at unmoved
    exact ⟨sameFiles, unmoved⟩

/-- What comes of an endpoint by requests that are not answered with 200. -/
inductive Refuses (endpoint : Endpoint Store MemoryProducer) (files : FileTree) :
    Endpoint Store MemoryProducer → Prop
  | start : Refuses endpoint files endpoint
  | step {before : Endpoint Store MemoryProducer} (refuses : Refuses endpoint files before)
      (request : Request) (fails : (before.handle files request).1.status ≠ 200) :
      Refuses endpoint files (before.handle files request).2.1

/-- However many requests are not answered with 200, they leave tables, rules and messages as they
were; the stage has counted some of them as bodies that are no events. -/
theorem Refuses.unmoved {endpoint after : Endpoint Store MemoryProducer} {files : FileTree}
    (refuses : endpoint.Refuses files after) :
    ∃ counted, endpoint.Unmoved after
      { endpoint.stage.counters with
        received := endpoint.stage.counters.received + counted
        parseErrors := endpoint.stage.counters.parseErrors + counted } := by
  induction refuses with
  | start => exact ⟨0, .refl endpoint⟩
  | @step before refuses request fails inductionHypothesis =>
    obtain ⟨counted, unmoved⟩ := inductionHypothesis
    obtain ⟨-, more⟩ := before.unmoved_handle files request fails
    have counters := congrArg (fun endpoint => endpoint.stage.counters) unmoved.rest
    rw [counters] at more
    split at more
    · exact ⟨counted + 1, unmoved.trans more⟩
    · exact ⟨counted, unmoved.trans more⟩

/-- A request that is not answered with 200 leaves files, tables, rules and messages as they were,
and the counters of the stage as well unless the stage has been reached with a body that is no
event. What is ingested with 200 is the envelope of the body, as one message, and the stage has not
run. A body that is too large is answered with 413 wherever bodies are read. -/
theorem refusals_have_no_effect (endpoint : Endpoint Store MemoryProducer)
    (routable : Route.isRoutable endpoint.stage.name = true) (files : FileTree)
    (request : Request) :
    ((endpoint.handle files request).1.status ≠ 200 →
      (endpoint.handle files request).2.2 = files ∧
        endpoint.Unmoved (endpoint.handle files request).2.1
          (if (endpoint.handle files request).1.status = 400 ∧
              Route.pathOf request.target = "/" ++ endpoint.stage.name then
            endpoint.stage.counters.countRefusal
          else endpoint.stage.counters)) ∧
    (request.method = "POST" → Route.pathOf request.target = "/ingest" →
      (endpoint.handle files request).1.status = 200 →
        ∃ envelope producer later, Envelope.ofBytes request.body = .ok envelope ∧
          endpoint.stage.producer = some producer ∧
          later.sent = producer.sent ++ [⟨endpoint.ingestTopic, "message", envelope.bytes⟩] ∧
          (endpoint.handle files request).2 =
            ({ endpoint with stage := { endpoint.stage with producer := some later } }, files)) ∧
    (request.method = "POST" →
      Route.pathOf request.target ∈ ["/" ++ endpoint.stage.name, "/ingest"] →
      endpoint.maxPayload < request.body.length →
        (endpoint.handle files request).1.status = 413) := by
  refine ⟨fun fails => ?_, fun post front accepted => ?_, fun post read large => ?_⟩
  · exact endpoint.unmoved_handle files request fails
  · have leads := front ▸ Route.ofPath?_ingest routable
    obtain ⟨response, refused, status⟩ | ⟨route, leadsTo, -, served⟩ :=
      endpoint.handle_cases files request
    · rw [refused] at accepted
      rw [accepted] at status
      exact absurd status (by decide)
    · obtain rfl := Option.some.inj (leads.symm.trans leadsTo)
      rw [served, Response.status_answering] at accepted
      rw [served]
      exact endpoint.serve_ingest files request.body accepted
  · rcases List.mem_pair.mp read with own | front
    · have leads := Route.ofPath?_eq_stage_iff.mpr own
      rw [handle_of_large leads post rfl large]
      rfl
    · have leads := front ▸ Route.ofPath?_ingest routable
      rw [handle_of_large leads post rfl large]
      rfl

/-- An empty body is counted by the stage it is posted to, an empty object is ingested as one
envelope, and a body of three bytes is too large for a limit of two. -/
theorem refusals_have_no_effect_of_requests :
    let endpoint : Endpoint MemoryStore MemoryProducer := ⟨Stage.orderStage "bronze", "door", 2⟩
    let refused := endpoint.handle .empty ⟨"POST", "/bronze", []⟩
    let ingested := endpoint.handle .empty ⟨"POST", "/ingest", (Json.object []).bytes⟩
    Route.isRoutable endpoint.stage.name = true ∧
      refused.1.status = 400 ∧
      endpoint.Unmoved refused.2.1 { received := 1, parseErrors := 1 } ∧
      ingested.1.status = 200 ∧
      ingested.2.1.stage.producer.map MemoryProducer.sent =
        some [⟨"door", "message", Text.Utf8.encode "\x7b\"payload\":\x7b\x7d\x7d"⟩] ∧
      (endpoint.handle .empty ⟨"POST", "/bronze", [1, 2, 3]⟩).1.status = 413 := by
  intro endpoint refused ingested
  have routable : Route.isRoutable endpoint.stage.name = true := by decide
  have bad : refused.1.status = 400 := rfl
  have good : ingested.1.status = 200 := rfl
  obtain ⟨noEffect, -, -⟩ :=
    refusals_have_no_effect endpoint routable .empty ⟨"POST", "/bronze", []⟩
  obtain ⟨-, unmoved⟩ := noEffect (by rw [bad]; decide)
  rw [if_pos ⟨bad, by decide⟩] at unmoved
  obtain ⟨-, oneMessage, -⟩ :=
    refusals_have_no_effect endpoint routable .empty ⟨"POST", "/ingest", (Json.object []).bytes⟩
  obtain ⟨envelope, producer, later, wrapped, present, sent, after⟩ :=
    oneMessage rfl (by decide) good
  obtain ⟨-, -, tooLarge⟩ :=
    refusals_have_no_effect endpoint routable .empty ⟨"POST", "/bronze", [1, 2, 3]⟩
  refine ⟨routable, bad, unmoved, good, ?_, tooLarge rfl (by decide) (by decide)⟩
  have empty : envelope = ⟨none, none, none, .object []⟩ :=
    Except.ok.inj (wrapped.symm.trans rfl)
  obtain rfl := Option.some.inj present
  rw [after]
  change some later.sent = _
  rw [sent, empty]
  rfl

end Endpoint

end EventRelay

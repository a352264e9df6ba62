import MsgRiver.Connector.Ntfy
import MsgRiver.Connector.Whatsapp

/-!
# The closed driver set

`Driver.deliver` passes a delivery to its matching driver.  The question of this file is what a
result says about the request bytes: `DriverError` and `Transient` are meant for attempts that
handed none of them to the transport.  Both drivers keep to this up to one branch of the ntfy
driver, a well-framed success without an acknowledgement id (`deliver_safe_iff`).
-/

namespace MsgRiver.Connector

open Ascii Ntfy Whatsapp

/-- The closed driver set. -/
inductive Driver
  | ntfy (endpoint : NtfyEndpoint)
  | whatsapp (driver : WhatsappDriver)
  deriving DecidableEq

/-- Deliver one canonical item through its matching configured driver. -/
def Driver.deliver (json : Json.Codec) : Driver → Delivery → Peer → Attempt
  | .ntfy endpoint, .ntfy topic title body => Ntfy.deliver json endpoint ⟨topic, title, body⟩
  | .whatsapp driver, .whatsapp recipient template locale parameters =>
    Whatsapp.deliver json driver ⟨recipient, template, locale, parameters⟩
  | _, _ => fun _ => .unsent (.error .invalidDelivery)

/-- The status of the provider's reply, as the driver reads it. -/
def Driver.replyStatus : Driver → Peer → Option ℕ
  | .ntfy _, peer =>
    match response peer.turns with
    | .ok (some response) => some response.status
    | _ => none
  | .whatsapp _, peer => ((readResponse peer.turns).bind responseStatus).map Prod.fst

/-- The status is an explicit rejection by the provider. -/
def Rejection (status : Option ℕ) : Prop := ∃ s, status = some s ∧ 400 ≤ s ∧ s < 500

/-- A result after request bytes were handed over: accepted, ambiguous or an explicit rejection. -/
inductive PostWrite (status : Option ℕ) : Except DriverError DeliveryOutcome → Prop
  | accepted (acknowledgement : String) : PostWrite status (.ok (.accepted acknowledgement))
  | ambiguous : PostWrite status (.ok .ambiguous)
  | rateLimited (h : status = some 429) : PostWrite status (.ok .rateLimited)
  | permanent (h : Rejection status) : PostWrite status (.ok .permanent)
  | authOrConfig (h : Rejection status) : PostWrite status (.ok .authOrConfig)

/-- An attempt reports no more than what is known: `DriverError` and `Transient` go with an unsent
request, and a sent request is accepted, ambiguous or explicitly rejected. -/
def Attempt.Safe (status : Option ℕ) (a : Attempt) : Prop :=
  ∀ r, a.result = .ok r →
    ((∃ e, r = .error e) ∨ r = .ok .transient → a.handed = []) ∧
    (a.handed ≠ [] → PostWrite status r)

/-- The ntfy provider answered a written request with a well-framed success whose body carries no
valid acknowledgement id. -/
def UnacknowledgedSuccess (json : Json.Codec) (driver : Driver) (delivery : Delivery)
    (peer : Peer) : Prop :=
  ∃ endpoint topic title body r,
    driver = .ntfy endpoint ∧ delivery = .ntfy topic title body ∧
    validateMessage ⟨topic, title, body⟩ = .ok () ∧
    peer.connects = true ∧ peer.timeoutsSet = true ∧ peer.writes = true ∧
    response peer.turns = .ok (some r) ∧ (200 ≤ r.status ∧ r.status < 300) ∧
    Ntfy.acknowledgement json r.body = none

/-! ### The requests are not empty -/

theorem utf8Bytes_post_append (s : String) : utf8Bytes ("POST " ++ s) ≠ [] := by
  rw [utf8Bytes_append, show utf8Bytes "POST " = [80, 79, 83, 84, 32] by decide]
  simp

theorem requestBytes_ne_nil (endpoint : NtfyEndpoint) (message : NtfyMessage) :
    requestBytes endpoint message ≠ [] := by
  unfold requestBytes
  simp only [String.append_assoc, ne_eq, List.append_eq_nil_iff, not_and]
  intro h
  exact absurd h.1.1 (utf8Bytes_post_append _)

theorem request_ne_nil (driver : WhatsappDriver) (body : List UInt8) :
    request driver body ≠ [] := by
  unfold request
  rw [show ("POST /" : String) = "POST " ++ "/" by decide]
  simp only [String.append_assoc, ne_eq, List.append_eq_nil_iff, not_and]
  intro h
  exact absurd h (utf8Bytes_post_append _)

/-! ### Safety of one attempt -/

theorem Attempt.safe_unsent (status : Option ℕ) (r : Except DriverError DeliveryOutcome) :
    (Attempt.unsent r).Safe status :=
  fun _ _ => ⟨fun _ => rfl, fun h => absurd rfl h⟩

/-- A sent attempt is safe exactly when its result is one of a sent request. -/
theorem Attempt.safe_sent_iff {status : Option ℕ} {r : Except DriverError DeliveryOutcome}
    {request : List UInt8} (hrequest : request ≠ []) :
    Attempt.Safe status ⟨.ok r, request⟩ ↔ PostWrite status r := by
  constructor
  · intro h
    exact (h r rfl).2 hrequest
  · intro h r' hr'
    obtain rfl : r = r' := Except.ok.inj hr'
    refine ⟨?_, fun _ => h⟩
    rintro (⟨e, rfl⟩ | rfl) <;> cases h

/-- The classification of an ntfy response is that of a sent request, unless it is a success
without an acknowledgement. -/
theorem ntfy_classify_postWrite_iff (json : Json.Codec) (r : NtfyResponse) :
    PostWrite (some r.status) (classify json r) ↔
      ¬ ((200 ≤ r.status ∧ r.status < 300) ∧ Ntfy.acknowledgement json r.body = none) := by
  unfold classify
  split_ifs with h2xx h429 hauth h4xx
  · cases Ntfy.acknowledgement json r.body with
    | none =>
      simp only [h2xx, and_self, not_true_eq_false, iff_false]
      intro h
      cases h
    | some ack => exact iff_of_true (.accepted ack) (by simp)
  · exact iff_of_true (.rateLimited (congrArg some h429)) (by omega)
  · exact iff_of_true (.authOrConfig ⟨r.status, rfl, by omega⟩) (by omega)
  · exact iff_of_true (.permanent ⟨r.status, rfl, by omega⟩) (by omega)
  · exact iff_of_true .ambiguous (by omega)

/-- The classification of a WhatsApp response is always that of a sent request. -/
theorem whatsapp_classify_postWrite (json : Json.Codec) (response : Option (List UInt8)) :
    PostWrite ((response.bind responseStatus).map Prod.fst)
      (.ok (classifyResponse json response)) := by
  unfold classifyResponse
  cases response.bind responseStatus with
  | none => exact .ambiguous
  | some p =>
    obtain ⟨status, body⟩ := p
    simp only [Option.map_some]
    split_ifs with h200 hauth h429 h4xx
    · cases Whatsapp.acknowledgement json body with
      | none => exact .ambiguous
      | some ack => exact .accepted ack
    · exact .authOrConfig ⟨status, rfl, by omega⟩
    · exact .rateLimited (congrArg some h429)
    · exact .permanent ⟨status, rfl, by omega⟩
    · exact .ambiguous

theorem ntfy_deliver_safe_iff (json : Json.Codec) (endpoint : NtfyEndpoint) (message : NtfyMessage)
    (peer : Peer) :
    (Ntfy.deliver json endpoint message peer).Safe ((Driver.ntfy endpoint).replyStatus peer) ↔
      ¬ (validateMessage message = .ok () ∧ peer.connects = true ∧ peer.timeoutsSet = true ∧
        peer.writes = true ∧ ∃ r, response peer.turns = .ok (some r) ∧
          (200 ≤ r.status ∧ r.status < 300) ∧ Ntfy.acknowledgement json r.body = none) := by
  have hreq := requestBytes_ne_nil endpoint message
  unfold Ntfy.deliver Driver.replyStatus
  cases validateMessage message with
  | error e => simpa using Attempt.safe_unsent _ _
  | ok =>
    cases hconnects : peer.connects with
    | false => simpa using Attempt.safe_unsent _ _
    | true =>
    cases htimeouts : peer.timeoutsSet with
    | false => simpa using Attempt.safe_unsent _ _
    | true =>
    cases hwrites : peer.writes with
    | false => simpa [Attempt.safe_sent_iff hreq] using PostWrite.ambiguous
    | true =>
    cases hresponse : response peer.turns with
    | error panic => simp [Attempt.Safe]
    | ok o =>
      cases o with
      | none => simpa [Attempt.safe_sent_iff hreq] using PostWrite.ambiguous
      | some r =>
        simpa [Attempt.safe_sent_iff hreq, hresponse] using ntfy_classify_postWrite_iff json r

theorem whatsapp_deliver_safe (json : Json.Codec) (driver : WhatsappDriver)
    (message : WhatsappMessage) (peer : Peer) :
    (Whatsapp.deliver json driver message peer).Safe
      ((Driver.whatsapp driver).replyStatus peer) := by
  unfold Whatsapp.deliver Driver.replyStatus
  cases requestBody json driver.registration message with
  | error e => exact Attempt.safe_unsent _ _
  | ok body =>
    have hreq := request_ne_nil driver body
    simp only
    split_ifs
    · exact Attempt.safe_unsent _ _
    · exact Attempt.safe_unsent _ _
    · exact Attempt.safe_unsent _ _
    · exact Attempt.safe_unsent _ _
    · exact (Attempt.safe_sent_iff hreq).2 .ambiguous
    · exact (Attempt.safe_sent_iff hreq).2 (whatsapp_classify_postWrite json _)

/-- **Safety of one attempt.**  Every attempt of either driver is safe, except on an unacknowledged
success of the ntfy provider. -/
theorem deliver_safe_iff (json : Json.Codec) (driver : Driver) (delivery : Delivery) (peer : Peer) :
    (driver.deliver json delivery peer).Safe (driver.replyStatus peer) ↔
      ¬ UnacknowledgedSuccess json driver delivery peer := by
  unfold UnacknowledgedSuccess
  cases driver with
  | ntfy endpoint =>
    cases delivery with
    | ntfy topic title body =>
      refine (ntfy_deliver_safe_iff json endpoint ⟨topic, title, body⟩ peer).trans (not_congr ?_)
      constructor
      · rintro ⟨hvalid, hconnects, htimeouts, hwrites, r, hr⟩
        exact ⟨endpoint, topic, title, body, r, rfl, rfl, hvalid, hconnects, htimeouts, hwrites, hr⟩
      · rintro ⟨_, _, _, _, r, -, hdelivery, hvalid, hconnects, htimeouts, hwrites, hr⟩
        cases hdelivery
        exact ⟨hvalid, hconnects, htimeouts, hwrites, r, hr⟩
    | whatsapp =>
      refine iff_of_true (Attempt.safe_unsent _ _) ?_
      rintro ⟨_, _, _, _, _, -, hdelivery, -⟩
      cases hdelivery
  | whatsapp driver =>
    refine iff_of_true ?_ ?_
    · cases delivery with
      | ntfy => exact Attempt.safe_unsent _ _
      | whatsapp => exact whatsapp_deliver_safe json driver _ peer
    · rintro ⟨_, _, _, _, _, hdriver, -⟩
      cases hdriver

end MsgRiver.Connector

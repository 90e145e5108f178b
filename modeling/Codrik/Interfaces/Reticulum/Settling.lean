import Codrik.Interfaces.Reticulum.Gateway

/-! What becomes of the deliveries that were submitted to the bridge when the task that delivers
them returns.
-/

namespace Codrik.Interfaces.Reticulum

open Codrik.Runtime
open Codrik.Runtime.Sqlite
open Codrik.Transition

variable {gateway owner : String} {q : GatewayQueue} {active : Option ClaimedGatewayDelivery}
  {submitted : List (GatewayDeliveryId × Nat)} {s s' : PreparedReticulumGateway}

-----------------------------------------------------------------------------------------
-- Runs that keep the claim
-----------------------------------------------------------------------------------------

namespace PreparedReticulumGateway

/-- The claim the delivery of the task is on its way under. -/
def current (s : PreparedReticulumGateway) : Option GatewayDeliveryClaim :=
  match s.phase with
  | .marking delivery true => some delivery.claim
  | .submitting delivery => some delivery.claim
  | .inFlight delivery => some delivery.claim
  | .renewing _ reply => reply
  | .handling delivery => some delivery.claim
  | .stopping => s.activeDelivery.map (·.claim)
  | _ => none

/-- No renewal has moved the claim since the delivery was submitted, and no transition of it is
on its way.
-/
def Unrenewed (s : PreparedReticulumGateway) : Prop :=
  match s.phase with
  | .inFlight delivery => s.activeDelivery.map (·.claim) = some delivery.claim
  | .renewing _ reply => s.activeDelivery.map (·.claim) = reply
  | .handling delivery => s.activeDelivery.map (·.claim) = some delivery.claim
  | .settling _ _ => False
  | _ => True

instance (s : PreparedReticulumGateway) : Decidable s.Unrenewed := by
  unfold Unrenewed
  split <;> infer_instance

/-- The events that make the task give up its delivery at once. -/
def Unexpected (s : PreparedReticulumGateway) : Except String BridgeEvent → Prop
  | .ok (.ready _) => True
  | .ok (.delivery deliveryId _ _) =>
      match s.phase with
      | .inFlight delivery => ¬Answers delivery deliveryId
      | _ => False
  | _ => False

instance (s : PreparedReticulumGateway) : DecidablePred s.Unexpected := fun event => by
  unfold Unexpected
  split
  · infer_instance
  · split <;> infer_instance
  · infer_instance

/-- No claim of others finds the claim of the delivery run out, and the task gives a delivery
up only before its claim was renewed.
-/
def KeepsClaim (s : PreparedReticulumGateway) : Happening → Prop
  | .others call =>
      ∀ claim ∈ s.current, ∀ d ∈ s.store.deliveries, HeldUnder claim d → ¬call.Lapses d
  | .event event _ => s.Unexpected event → s.Unrenewed
  | .handled ok => ok = true ∨ s.Unrenewed
  | .shutdown => s.Unrenewed
  | _ => True

instance (s : PreparedReticulumGateway) : DecidablePred s.KeepsClaim := fun happening => by
  cases happening <;> unfold KeepsClaim <;> infer_instance

/-- A renewal leaves the claim where it is. -/
def KeepsExpiry (s : PreparedReticulumGateway) : Happening → Prop
  | .renewal now =>
      ∀ delivery, s.phase = .inFlight delivery → now.plusMillis 30000 = delivery.claim.expiresAt
  | _ => True

/-- The attempts that were submitted are no longer on their way: the delivery has been attempted
again since, or it is delivered, failed, or its outcome is unknown.
-/
def Settled (s : PreparedReticulumGateway) : Prop :=
  ∀ attempt ∈ s.submitted, ∃ d ∈ s.store.deliveries, d.id = attempt.1
    ∧ (attempt.2 < d.attemptCount ∨ d.state = .delivered ∨ d.state = .failedRetryable
      ∨ d.state = .failedTerminal ∨ d.state = .outcomeUnknown)

instance (s : PreparedReticulumGateway) : Decidable s.Settled :=
  inferInstanceAs (Decidable (∀ attempt ∈ s.submitted, ∃ d ∈ s.store.deliveries, _))

/-- The active delivery carries the claim of its attempt while that is on its way. -/
def CarriesClaim (s : PreparedReticulumGateway) : Prop :=
  ∀ delivery ∈ s.activeDelivery, ∀ d ∈ s.store.deliveries, d.id = delivery.claim.id →
    d.attemptCount = delivery.attemptCount → d.state = .delivering → HeldUnder delivery.claim d

end PreparedReticulumGateway

open PreparedReticulumGateway

-----------------------------------------------------------------------------------------
-- The record of what was submitted
-----------------------------------------------------------------------------------------

/-- Every attempt that was submitted was begun, and is over unless it is the active one. -/
structure Recorded (q : GatewayQueue) (submitted : List (GatewayDeliveryId × Nat))
    (active : Option ClaimedGatewayDelivery)
    : Prop where
  begun : ∀ attempt ∈ submitted, q.Begun attempt.1 attempt.2
  settled
    : ∀ attempt ∈ submitted, q.Over attempt.1 attempt.2
      ∨ ∃ delivery ∈ active, (delivery.claim.id, delivery.attemptCount) = attempt

/-- No call puts an attempt on its way again. -/
theorem Recorded.after (recorded : Recorded q submitted active) (call : QueueCall)
    : Recorded (q.after call) submitted active where
  begun attempt mem := (recorded.begun attempt mem).after call
  settled attempt mem :=
    (recorded.settled attempt mem).imp_left
      (fun done => done.after (recorded.begun attempt mem) call)

/-- The active delivery may be forgotten when its attempt is over. -/
theorem Recorded.release (recorded : Recorded q submitted active)
    (done : ∀ delivery ∈ active, q.Over delivery.claim.id delivery.attemptCount)
    : Recorded q submitted none where
  begun := recorded.begun
  settled attempt mem := by
    rcases recorded.settled attempt mem with before | ⟨delivery, known, rfl⟩
    · exact Or.inl before
    · exact Or.inl (done delivery known)

/-- An attempt is recorded when it is submitted. -/
theorem Recorded.submit (recorded : Recorded q submitted none)
    {delivery : ClaimedGatewayDelivery}
    (onItsWay : q.OnItsWay delivery.claim delivery.attemptCount)
    : Recorded q (submitted ++ [(delivery.claim.id, delivery.attemptCount)]) (some delivery) where
  begun attempt mem := by
    rcases List.mem_append.mp mem with old | new
    · exact recorded.begun attempt old
    · rw [List.mem_singleton.mp new]
      exact onItsWay.begun
  settled attempt mem := by
    rcases List.mem_append.mp mem with old | new
    · rcases recorded.settled attempt old with done | ⟨other, known, -⟩
      · exact Or.inl done
      · cases known
    · exact Or.inr ⟨delivery, rfl, (List.mem_singleton.mp new).symm⟩

/-- Without an active delivery everything that was submitted is settled. -/
theorem Recorded.all_settled (recorded : Recorded s.store s.submitted none) : s.Settled := by
  intro attempt mem
  obtain ⟨d, stored, same, counted, notPending⟩ := recorded.begun attempt mem
  refine ⟨d, stored, same, ?_⟩
  rcases recorded.settled attempt mem with done | ⟨delivery, known, -⟩
  · rcases Nat.lt_or_ge attempt.2 d.attemptCount with later | notLater
    · exact Or.inl later
    · have notActive := done d stored same (by omega)
      right
      cases state : d.state with
      | pending => exact absurd state notPending
      | delivering => exact absurd state notActive
      | delivered => exact Or.inl rfl
      | failedRetryable => exact Or.inr (Or.inl rfl)
      | failedTerminal => exact Or.inr (Or.inr (Or.inl rfl))
      | outcomeUnknown => exact Or.inr (Or.inr (Or.inr rfl))
  · cases known

-----------------------------------------------------------------------------------------
-- The invariant
-----------------------------------------------------------------------------------------

/-- The active delivery is the attempt of `delivery`, under whatever claim. -/
def Carries (active : Option ClaimedGatewayDelivery) (delivery : ClaimedGatewayDelivery) : Prop :=
  ∃ carried, active = some carried ∧ carried.claim.id = delivery.claim.id
    ∧ carried.attemptCount = delivery.attemptCount

/-- A delivery of the task is on its way under its claim. -/
def Held (owner : String) (q : GatewayQueue) (delivery : ClaimedGatewayDelivery) : Prop :=
  delivery.claim.owner = owner ∧ q.OnItsWay delivery.claim delivery.attemptCount

/-- What each phase promises. -/
def Stands (owner : String) (q : GatewayQueue) (active : Option ClaimedGatewayDelivery)
    (bridge : Bool)
    : Phase → Prop
  | .looping => active = none
  | .claiming reply =>
      active = none ∧ ∀ deliveries ∈ reply, ∀ delivery ∈ deliveries,
        delivery.claim.owner = owner ∧ q.AtMost delivery.claim delivery.attemptCount
  | .rejecting _ => active = none
  | .marking delivery reply => active = none ∧ (reply = true → Held owner q delivery)
  | .submitting delivery => active = some delivery ∧ Held owner q delivery
  | .inFlight delivery => Carries active delivery ∧ Held owner q delivery
  | .renewing delivery reply =>
      Carries active delivery ∧ ∃ claim, reply = some claim ∧ claim.id = delivery.claim.id
        ∧ Held owner q { delivery with claim := claim }
  | .handling delivery => Carries active delivery ∧ Held owner q delivery
  | .settling reply _ =>
      reply = true ∧ ∃ carried, active = some carried
        ∧ q.Over carried.claim.id carried.attemptCount
        ∧ q.Begun carried.claim.id carried.attemptCount
  | .polling => active = none
  | .answering => active = none
  | .stopping => ∀ carried ∈ active, Held owner q carried
  | .recording reply => reply = true ∧ active = none
  | .returned => active = none ∧ bridge = false

/-- The invariant of the runs that keep the claim. -/
structure Settles (owner : String) (s : PreparedReticulumGateway) : Prop where
  recorded : Recorded s.store s.submitted s.activeDelivery
  stands : Stands owner s.store s.activeDelivery s.bridge s.phase

/-- A delivery stays on its way whatever others call that keeps its claim. -/
theorem Held.foreign {delivery : ClaimedGatewayDelivery} (held : Held owner q delivery)
    {call : QueueCall} (foreign : call.actingOwner ≠ some owner)
    (lasting : ∀ d ∈ q.deliveries, HeldUnder delivery.claim d → ¬call.Lapses d)
    : Held owner (q.after call) delivery :=
  ⟨held.1, held.2.foreign (held.1 ▸ foreign) lasting⟩

/-- A delivery that was given up carries the claim it is on its way under. -/
theorem Carries.given_up {delivery : ClaimedGatewayDelivery} (carries : Carries active delivery)
    {claim : GatewayDeliveryClaim} (same : active.map (·.claim) = some claim)
    (held : Held owner q { delivery with claim := claim })
    : ∀ carried ∈ active, Held owner q carried := by
  obtain ⟨carried, rfl, -, count⟩ := carries
  intro other known
  cases known
  have sameClaim : carried.claim = claim := Option.some.inj same
  rw [Held, sameClaim, count]
  exact held

-----------------------------------------------------------------------------------------
-- Calls of the task
-----------------------------------------------------------------------------------------

/-- A transition is a call of the queue. -/
theorem transitionDelivery_call (delivery : ClaimedGatewayDelivery)
    (outcome : BridgeDeliveryOutcome) (retryAfterMs : Option Nat) (now : Timestamp)
    (q : GatewayQueue)
    : ∃ call, (transitionDelivery delivery outcome retryAfterMs now q).2 = q.after call := by
  cases outcome with
  | delivered => exact ⟨.completeGatewayDelivery delivery.claim none, rfl⟩
  | retryable => exact ⟨.retryGatewayDelivery delivery.claim _ _ _, rfl⟩
  | terminal =>
      exact ⟨.failGatewayDelivery delivery.claim .failedTerminal "reticulum_terminal"
        "LXMF delivery was rejected", rfl⟩
  | outcomeUnknown =>
      exact ⟨.failGatewayDelivery delivery.claim .outcomeUnknown "reticulum_outcome_unknown"
        "LXMF delivery outcome is unknown", rfl⟩

/-- Every transition ends the attempt it is made for, by cases on the outcome. -/
theorem transitionDelivery_ends {delivery : ClaimedGatewayDelivery} {n : Nat}
    (onItsWay : q.OnItsWay delivery.claim n) (outcome : BridgeDeliveryOutcome)
    (retryAfterMs : Option Nat) (now : Timestamp)
    : (transitionDelivery delivery outcome retryAfterMs now q).1 = true
      ∧ (transitionDelivery delivery outcome retryAfterMs now q).2.Over delivery.claim.id n := by
  cases outcome with
  | delivered => exact onItsWay.transition (by decide) none none none
  | retryable => exact onItsWay.transition (by decide) _ _ none
  | terminal => exact onItsWay.transition (by decide) none _ none
  | outcomeUnknown => exact onItsWay.transition (by decide) none _ none

/-- The claim of the next delivery. -/
theorem Settles.claimDeliveries (settles : Settles owner s) (idle : s.activeDelivery = none)
    (now : Timestamp)
    : Settles owner (s.claimDeliveries gateway owner now) := by
  have call := settles.recorded.after
    (.claimGatewayDeliveries gateway owner now (now.plusMillis 30000) 1)
  simp only [GatewayQueue.after, QueueCall.perform] at call
  unfold PreparedReticulumGateway.claimDeliveries
  cases claimed : claimGatewayDeliveries gateway owner now (now.plusMillis 30000) 1 s.store with
  | error failure => exact ⟨settles.recorded, idle, by intro deliveries known; cases known⟩
  | ok done =>
      rw [claimed] at call
      refine ⟨call, idle, fun deliveries known delivery listed => ?_⟩
      cases known
      obtain ⟨ours, onItsWay⟩ := claimGatewayDeliveries_onItsWay claimed delivery listed
      exact ⟨ours, onItsWay.begun, fun d stored held => (onItsWay.held stored held.1).2⟩

/-- What follows the claim. -/
theorem Settles.takeClaimed {reply : Option (List ClaimedGatewayDelivery)}
    (settles : Settles owner s) (phase : s.phase = .claiming reply) (now : Timestamp)
    : Settles owner (s.takeClaimed now reply) := by
  have stands := settles.stands
  rw [phase] at stands
  obtain ⟨idle, claimed⟩ := stands
  have unused : ∀ carried ∈ s.activeDelivery, Held owner s.store carried := by
    rw [idle]
    intro carried known
    cases known
  unfold PreparedReticulumGateway.takeClaimed
  cases reply with
  | none => exact ⟨settles.recorded, unused⟩
  | some deliveries =>
      cases last : deliveries.getLast? with
      | none =>
          simp only [last]
          exact ⟨settles.recorded, idle⟩
      | some delivery =>
          simp only [last]
          obtain ⟨ours, atMost⟩ := claimed deliveries rfl delivery (List.mem_of_getLast? last)
          cases fits : canSubmit delivery with
          | true =>
              rw [if_pos rfl]
              refine ⟨settles.recorded.after (.setGatewayDeliveryRetrySafe delivery.claim false),
                idle, fun marked => ?_⟩
              exact ⟨ours, (atMost.onItsWay marked).mark false⟩
          | false =>
              obtain ⟨call, same⟩ := transitionDelivery_call delivery .terminal none now s.store
              rw [if_neg Bool.false_ne_true]
              refine ⟨?_, idle⟩
              have recorded := settles.recorded.after call
              rw [← same] at recorded
              exact recorded

/-- What follows the mark. -/
theorem Settles.submit {delivery : ClaimedGatewayDelivery} {reply : Bool}
    (settles : Settles owner s) (phase : s.phase = .marking delivery reply)
    : Settles owner (s.submit delivery reply) := by
  have stands := settles.stands
  rw [phase] at stands
  obtain ⟨idle, marked⟩ := stands
  have recorded := settles.recorded
  unfold PreparedReticulumGateway.submit
  cases reply with
  | false =>
      refine ⟨recorded, fun carried known => ?_⟩
      rw [idle] at known
      cases known
  | true =>
      have held := marked rfl
      rw [idle] at recorded
      refine ⟨recorded.submit held.2, ?_⟩
      cases running : s.bridge with
      | true => exact ⟨rfl, held⟩
      | false =>
          intro carried known
          cases known
          exact held

/-- The transition of the delivery that is in flight. -/
theorem Settles.settle {delivery : ClaimedGatewayDelivery} (settles : Settles owner s)
    (carries : Carries s.activeDelivery delivery) (held : Held owner s.store delivery)
    (outcome : BridgeDeliveryOutcome) (retryAfterMs : Option Nat) (now : Timestamp)
    (goesOn : Bool)
    : Settles owner (s.settle delivery outcome retryAfterMs now goesOn) := by
  obtain ⟨changed, done⟩ := transitionDelivery_ends held.2 outcome retryAfterMs now
  obtain ⟨call, same⟩ := transitionDelivery_call delivery outcome retryAfterMs now s.store
  have recorded := settles.recorded.after call
  have begun := held.2.begun.after call
  rw [← same] at recorded begun
  obtain ⟨carried, known, sameId, count⟩ := carries
  refine ⟨recorded, changed, carried, known, ?_, ?_⟩
  · rw [sameId, count]
    exact done
  · rw [sameId, count]
    exact begun

/-- What follows the transition. -/
theorem Settles.settled {reply goesOn : Bool} (settles : Settles owner s)
    (phase : s.phase = .settling reply goesOn)
    : Settles owner (s.settled reply goesOn) := by
  have stands := settles.stands
  rw [phase] at stands
  obtain ⟨rfl, carried, known, done, -⟩ := stands
  have released := settles.recorded.release (fun delivery known' => by
    rw [known] at known'
    cases known'
    exact done)
  refine ⟨released, ?_⟩
  cases goesOn with
  | true => exact (rfl : (none : Option ClaimedGatewayDelivery) = none)
  | false =>
      intro carried known
      cases known

/-- A renewal. -/
theorem Settles.renew {delivery : ClaimedGatewayDelivery} (settles : Settles owner s)
    (carries : Carries s.activeDelivery delivery) (held : Held owner s.store delivery)
    (now : Timestamp)
    : Settles owner (s.renew delivery now) := by
  obtain ⟨renewed, onItsWay⟩ := held.2.renew (now.plusMillis 30000)
  refine ⟨settles.recorded.after (.renewGatewayDelivery delivery.claim (now.plusMillis 30000)),
    carries, _, renewed, rfl, held.1, onItsWay⟩

/-- What follows the renewal. -/
theorem Settles.renewed {delivery : ClaimedGatewayDelivery} {reply : Option GatewayDeliveryClaim}
    (settles : Settles owner s) (phase : s.phase = .renewing delivery reply)
    : Settles owner (s.renewed delivery reply) := by
  have stands := settles.stands
  rw [phase] at stands
  obtain ⟨⟨carried, known, sameId, count⟩, claim, rfl, same, held⟩ := stands
  exact ⟨settles.recorded, ⟨carried, known, sameId.trans same.symm, count⟩, held⟩

/-- The outcome of the active delivery is recorded at the end. -/
theorem Settles.stop (settles : Settles owner s) (phase : s.phase = .stopping) (now : Timestamp)
    : Settles owner (s.stop now) := by
  have stands := settles.stands
  rw [phase] at stands
  have recorded := settles.recorded
  unfold PreparedReticulumGateway.stop
  cases known : s.activeDelivery with
  | none =>
      rw [known] at recorded
      exact ⟨recorded, rfl, rfl⟩
  | some delivery =>
      have held := stands delivery known
      obtain ⟨changed, done⟩ := transitionDelivery_ends held.2 .outcomeUnknown none now
      obtain ⟨call, same⟩ :=
        transitionDelivery_call delivery .outcomeUnknown none now s.store
      have recorded := recorded.after call
      rw [← same, known] at recorded
      refine ⟨recorded.release (fun other known' => ?_), changed, rfl⟩
      cases known'
      exact done

-----------------------------------------------------------------------------------------
-- Steps and runs
-----------------------------------------------------------------------------------------

/-- The task gives its delivery up. -/
theorem Settles.give_up (settles : Settles owner s)
    (held : ∀ carried ∈ s.activeDelivery, Held owner s.store carried)
    : Settles owner { s with phase := .stopping } :=
  ⟨settles.recorded, held⟩

/-- A delivery whose claim has not moved may be given up, by cases on the phase. -/
theorem Settles.unrenewed (settles : Settles owner s) (unrenewed : s.Unrenewed)
    (running : s.phase ≠ .answering ∧ s.phase ≠ .stopping ∧ s.phase ≠ .returned)
    : ∀ carried ∈ s.activeDelivery, Held owner s.store carried := by
  have stands := settles.stands
  have idle (none : s.activeDelivery = none)
      : ∀ carried ∈ s.activeDelivery, Held owner s.store carried := by
    rw [none]
    intro carried known
    cases known
  unfold Unrenewed at unrenewed
  cases phase : s.phase with
  | looping => exact idle (by rwa [phase] at stands)
  | claiming reply => exact idle (by rw [phase] at stands; exact stands.1)
  | rejecting reply => exact idle (by rwa [phase] at stands)
  | marking delivery reply => exact idle (by rw [phase] at stands; exact stands.1)
  | submitting delivery =>
      rw [phase] at stands
      intro carried known
      rw [stands.1] at known
      cases known
      exact stands.2
  | inFlight delivery =>
      rw [phase] at stands
      simp only [phase] at unrenewed
      exact stands.1.given_up unrenewed stands.2
  | renewing delivery reply =>
      rw [phase] at stands
      simp only [phase] at unrenewed
      obtain ⟨carries, claim, rfl, -, held⟩ := stands
      exact carries.given_up unrenewed held
  | handling delivery =>
      rw [phase] at stands
      simp only [phase] at unrenewed
      exact stands.1.given_up unrenewed stands.2
  | settling reply goesOn =>
      simp only [phase] at unrenewed
  | polling => exact idle (by rwa [phase] at stands)
  | answering => exact absurd phase running.1
  | stopping => exact absurd phase running.2.1
  | recording reply => exact idle (by rw [phase] at stands; exact stands.2)
  | returned => exact absurd phase running.2.2

/-- Calls of others that keep the claim, by cases on the phase. -/
theorem Settles.others (settles : Settles owner s) {call : QueueCall}
    (foreign : call.actingOwner ≠ some owner) (keeps : s.KeepsClaim (.others call))
    : Settles owner { s with store := s.store.after call } := by
  refine ⟨settles.recorded.after call, ?_⟩
  have stands := settles.stands
  simp only [KeepsClaim, current] at keeps
  cases phase : s.phase <;> rw [phase] at stands <;> simp only [phase] at keeps ⊢
  case looping => exact stands
  case claiming reply =>
    refine ⟨stands.1, fun deliveries known delivery listed => ?_⟩
    obtain ⟨ours, atMost⟩ := stands.2 deliveries known delivery listed
    exact ⟨ours, atMost.foreign (ours ▸ foreign)⟩
  case rejecting reply => exact stands
  case marking delivery reply =>
    refine ⟨stands.1, fun marked => ?_⟩
    subst marked
    exact (stands.2 rfl).foreign foreign (keeps _ rfl)
  case submitting delivery => exact ⟨stands.1, stands.2.foreign foreign (keeps _ rfl)⟩
  case inFlight delivery => exact ⟨stands.1, stands.2.foreign foreign (keeps _ rfl)⟩
  case renewing delivery reply =>
    obtain ⟨carries, claim, rfl, same, held⟩ := stands
    exact ⟨carries, claim, rfl, same, held.foreign foreign (keeps _ rfl)⟩
  case handling delivery => exact ⟨stands.1, stands.2.foreign foreign (keeps _ rfl)⟩
  case settling reply goesOn =>
    obtain ⟨changed, carried, known, done, begun⟩ := stands
    exact ⟨changed, carried, known, done.after begun call, begun.after call⟩
  case polling => exact stands
  case answering => exact stands
  case stopping =>
    intro carried known
    exact (stands carried known).foreign foreign (keeps _ (by rw [known]; rfl))
  case recording reply => exact stands
  case returned => exact stands

/-- A call of the task, or what follows a reply, by cases on the phase. -/
theorem Settles.advance (settles : Settles owner s) {now : Timestamp}
    (taken : s.advance gateway owner now = some s')
    : Settles owner s' := by
  have stands := settles.stands
  unfold PreparedReticulumGateway.advance at taken
  cases phase : s.phase <;> rw [phase] at stands <;> simp only [phase] at taken <;> cases taken
  case looping => exact settles.claimDeliveries stands now
  case claiming reply => exact settles.takeClaimed phase now
  case rejecting reply =>
    refine ⟨settles.recorded, ?_⟩
    cases reply with
    | true => exact stands
    | false =>
        intro carried known
        rw [stands] at known
        cases known
  case marking delivery reply => exact settles.submit phase
  case renewing delivery reply => exact settles.renewed phase
  case settling reply goesOn => exact settles.settled phase
  case stopping => exact settles.stop phase now
  case recording reply =>
    obtain ⟨rfl, idle⟩ := stands
    exact ⟨settles.recorded, idle, Bool.and_false _⟩

/-- An event for the delivery in flight, by cases on the event. -/
theorem Settles.handleEvent {delivery : ClaimedGatewayDelivery} (settles : Settles owner s)
    (phase : s.phase = .inFlight delivery) {event : Except String BridgeEvent}
    {now : Timestamp} (keeps : s.KeepsClaim (.event event now))
    : Settles owner (s.handleEvent delivery event now) := by
  have stands := settles.stands
  rw [phase] at stands
  have giveUp (unexpected : s.Unexpected event) : Settles owner { s with phase := .stopping } :=
    settles.give_up (settles.unrenewed (keeps unexpected)
      ⟨by simp [phase], by simp [phase], by simp [phase]⟩)
  have settle := settles.settle stands.1 stands.2
  cases event with
  | error failure => exact settle .outcomeUnknown none now false
  | ok event =>
      cases event with
      | ready destination => exact giveUp trivial
      | inbound messageHash source timestamp text => exact ⟨settles.recorded, stands⟩
      | fatal failure => exact settle .outcomeUnknown none now false
      | delivery deliveryId outcome retryAfterMs =>
          by_cases answers : Answers delivery deliveryId
          · simp only [PreparedReticulumGateway.handleEvent, if_pos answers]
            exact settle outcome retryAfterMs now true
          · simp only [PreparedReticulumGateway.handleEvent, if_neg answers]
            exact giveUp (by simpa only [Unexpected, phase] using answers)

/-- Every step that keeps the claim keeps the invariant, by cases on what happens. -/
theorem Settles.step {happening : Happening} (settles : Settles owner s)
    (keeps : s.KeepsClaim happening) (taken : (gatewayRun gateway owner).Step s happening s')
    : Settles owner s' := by
  obtain ⟨foreign, taken⟩ := taken
  have stands := settles.stands
  cases happening with
  | others call =>
      cases taken
      exact settles.others (foreign call rfl) keeps
  | advance now => exact settles.advance taken
  | sent ok now =>
      simp only [PreparedReticulumGateway.next] at taken
      split at taken <;> cases taken
      rename_i delivery phase
      rw [phase] at stands
      have carries : Carries s.activeDelivery delivery := ⟨delivery, stands.1, rfl, rfl⟩
      unfold PreparedReticulumGateway.sent
      cases ok with
      | true => exact ⟨settles.recorded, carries, stands.2⟩
      | false => exact settles.settle carries stands.2 .outcomeUnknown none now false
  | renewal now =>
      simp only [PreparedReticulumGateway.next] at taken
      split at taken <;> cases taken
      rename_i delivery phase
      rw [phase] at stands
      exact settles.renew stands.1 stands.2 now
  | event event now =>
      simp only [PreparedReticulumGateway.next] at taken
      split at taken <;> cases taken
      · rename_i delivery phase
        exact settles.handleEvent phase keeps
      · rename_i phase
        rw [phase] at stands
        unfold PreparedReticulumGateway.pollEvent
        split
        · exact ⟨settles.recorded, stands⟩
        · refine settles.give_up ?_
          rw [stands]
          intro carried known
          cases known
  | timeout =>
      simp only [PreparedReticulumGateway.next] at taken
      split at taken <;> cases taken
      rename_i phase
      rw [phase] at stands
      exact ⟨settles.recorded, stands⟩
  | handled ok =>
      simp only [PreparedReticulumGateway.next] at taken
      split at taken <;> cases taken
      · rename_i delivery phase
        rw [phase] at stands
        cases ok with
        | true => exact ⟨settles.recorded, stands⟩
        | false =>
            have unrenewed : s.Unrenewed := keeps.resolve_left Bool.false_ne_true
            exact settles.give_up (settles.unrenewed unrenewed
              ⟨by simp [phase], by simp [phase], by simp [phase]⟩)
      · rename_i phase
        rw [phase] at stands
        refine ⟨settles.recorded, ?_⟩
        cases ok with
        | true => exact stands
        | false =>
            intro carried known
            rw [stands] at known
            cases known
  | shutdown =>
      simp only [PreparedReticulumGateway.next] at taken
      split at taken <;> cases taken
      rename_i answering stopping _ returned
      exact settles.give_up (settles.unrenewed keeps ⟨answering, stopping, returned⟩)

/-- The invariant holds in every run that keeps the claim, by induction on it. -/
theorem reachable_settles
    (reached : ((gatewayRun gateway owner).restrict KeepsClaim).Reachable s)
    : Settles owner s := by
  refine System.Reachable.invariant (J := Settles owner) ?_ ?_ reached
  · rintro s ⟨phase, -, idle, nothing⟩
    refine ⟨⟨?_, ?_⟩, ?_⟩
    · rw [nothing]
      exact fun attempt mem => absurd mem List.not_mem_nil
    · rw [nothing]
      exact fun attempt mem => absurd mem List.not_mem_nil
    · rw [phase]
      exact idle
  · intro s happening s' _ settles taken
    exact settles.step taken.1 taken.2

-----------------------------------------------------------------------------------------
-- The active delivery
-----------------------------------------------------------------------------------------

/-- The claim has not moved since the delivery was submitted. -/
def Anchored (s : PreparedReticulumGateway) : Prop :=
  (∃ reply goesOn, s.phase = .settling reply goesOn) ∨ s.Unrenewed

/-- What follows a reply leaves the claim in place, by cases on the phase. -/
theorem Anchored.advance (anchored : Anchored s) {now : Timestamp}
    (taken : s.advance gateway owner now = some s')
    : Anchored s' := by
  unfold PreparedReticulumGateway.advance at taken
  cases phase : s.phase <;> simp only [phase] at taken <;> cases taken
  case looping =>
    right
    unfold PreparedReticulumGateway.claimDeliveries
    split <;> trivial
  case claiming reply =>
    right
    unfold PreparedReticulumGateway.takeClaimed
    split
    · trivial
    · split
      · trivial
      · split <;> trivial
  case rejecting reply => cases reply <;> exact Or.inr trivial
  case marking delivery reply =>
    right
    unfold PreparedReticulumGateway.submit
    cases reply with
    | false => trivial
    | true => cases running : s.bridge <;> trivial
  case renewing delivery reply =>
    right
    rcases anchored with ⟨_, _, settling⟩ | unrenewed
    · rw [phase] at settling
      cases settling
    · simp only [Unrenewed, phase] at unrenewed
      cases reply with
      | none => trivial
      | some claim => exact unrenewed
  case settling reply goesOn =>
    right
    unfold PreparedReticulumGateway.settled
    cases reply with
    | false => trivial
    | true => cases goesOn <;> trivial
  case stopping =>
    right
    unfold PreparedReticulumGateway.stop
    split <;> trivial
  case recording reply => exact Or.inr trivial

/-- While no renewal moves the claim it stays in place, by cases on what happens. -/
theorem Anchored.step {happening : Happening} (anchored : Anchored s)
    (settles : Settles owner s) (keeps : s.KeepsExpiry happening)
    (taken : s.next gateway owner happening = some s')
    : Anchored s' := by
  have stands := settles.stands
  have inPlace {delivery : ClaimedGatewayDelivery}
      (phase : s.phase = .inFlight delivery ∨ s.phase = .handling delivery)
      : s.activeDelivery.map (·.claim) = some delivery.claim := by
    rcases anchored with ⟨_, _, settling⟩ | unrenewed
    · rcases phase with phase | phase <;> rw [phase] at settling <;> cases settling
    · rcases phase with phase | phase <;> simpa only [Unrenewed, phase] using unrenewed
  cases happening with
  | others call =>
      cases taken
      exact anchored
  | advance now => exact anchored.advance taken
  | sent ok now =>
      simp only [PreparedReticulumGateway.next] at taken
      split at taken <;> cases taken
      rename_i delivery phase
      rw [phase] at stands
      unfold PreparedReticulumGateway.sent
      cases ok with
      | true =>
          have carried : s.activeDelivery.map (·.claim) = some delivery.claim := by
            rw [stands.1]
            rfl
          exact Or.inr carried
      | false => exact Or.inl ⟨_, _, rfl⟩
  | renewal now =>
      simp only [PreparedReticulumGateway.next] at taken
      split at taken <;> cases taken
      rename_i delivery phase
      rw [phase] at stands
      have renewed := (stands.2.2.renew (now.plusMillis 30000)).1
      rw [keeps delivery phase] at renewed
      right
      simp only [PreparedReticulumGateway.renew, Unrenewed, keeps delivery phase, renewed]
      exact inPlace (Or.inl phase)
  | event event now =>
      simp only [PreparedReticulumGateway.next] at taken
      split at taken <;> cases taken
      · rename_i delivery phase
        unfold PreparedReticulumGateway.handleEvent
        split
        · split
          · exact Or.inl ⟨_, _, rfl⟩
          · exact Or.inr trivial
        · exact Or.inr (inPlace (Or.inl phase))
        · exact Or.inl ⟨_, _, rfl⟩
        · exact Or.inr trivial
        · exact Or.inl ⟨_, _, rfl⟩
      · unfold PreparedReticulumGateway.pollEvent
        split <;> exact Or.inr trivial
  | timeout =>
      simp only [PreparedReticulumGateway.next] at taken
      split at taken <;> cases taken
      exact Or.inr trivial
  | handled ok =>
      simp only [PreparedReticulumGateway.next] at taken
      split at taken <;> cases taken
      · rename_i delivery phase
        cases ok with
        | true => exact Or.inr (inPlace (Or.inr phase))
        | false => exact Or.inr trivial
      · cases ok <;> exact Or.inr trivial
  | shutdown =>
      simp only [PreparedReticulumGateway.next] at taken
      split at taken <;> cases taken
      exact Or.inr trivial

/-- A delivery that is held carries its claim. -/
theorem carriesClaim_of_held
    (held : ∀ carried ∈ s.activeDelivery, Held owner s.store carried)
    : s.CarriesClaim :=
  fun delivery known _ stored same _ _ => ((held delivery known).2.held stored same).1

/-- An active delivery whose claim is in place carries it, by cases on the phase. -/
theorem Anchored.carriesClaim (anchored : Anchored s) (settles : Settles owner s)
    : s.CarriesClaim := by
  have stands := settles.stands
  have idle (none : s.activeDelivery = none) : s.CarriesClaim := by
    intro delivery known
    rw [none] at known
    cases known
  by_cases answering : s.phase = .answering
  · rw [answering] at stands
    exact idle stands
  by_cases stopping : s.phase = .stopping
  · rw [stopping] at stands
    exact carriesClaim_of_held stands
  by_cases returned : s.phase = .returned
  · rw [returned] at stands
    exact idle stands.1
  rcases anchored with ⟨reply, goesOn, settling⟩ | unrenewed
  · rw [settling] at stands
    obtain ⟨-, carried, known, done, -⟩ := stands
    intro delivery known' d stored same count onItsWay
    rw [known] at known'
    cases known'
    exact absurd onItsWay (done d stored same count)
  · exact carriesClaim_of_held (settles.unrenewed unrenewed ⟨answering, stopping, returned⟩)

/-- The claim stays in place in every run without renewals that move it, by induction on it. -/
theorem reachable_anchored
    (reached : ((gatewayRun gateway owner).restrict
      (fun s happening => s.KeepsClaim happening ∧ s.KeepsExpiry happening)).Reachable s)
    : Settles owner s ∧ Anchored s := by
  induction reached with
  | initial start =>
      have first : ((gatewayRun gateway owner).restrict KeepsClaim).Reachable _ := .initial start
      refine ⟨reachable_settles first, Or.inr ?_⟩
      unfold Unrenewed
      rw [start.1]
      trivial
  | step before taken ih =>
      exact ⟨ih.1.step taken.1.1 taken.2, ih.2.step ih.1 taken.1.2 taken.2.2⟩

/-- **Submitted deliveries are settled when the task returns, if each is given up only before
its claim was renewed.** Then nothing is active and the bridge is shut down. The active delivery
carries the current claim as long as no renewal moves it.
-/
theorem submitted_deliveries_are_settled (gateway owner : String)
    : (∀ s, ((gatewayRun gateway owner).restrict KeepsClaim).Reachable s → s.phase = .returned →
        s.Settled ∧ s.activeDelivery = none ∧ s.bridge = false)
      ∧ ∀ s, ((gatewayRun gateway owner).restrict
          (fun s happening => s.KeepsClaim happening ∧ s.KeepsExpiry happening)).Reachable s →
        s.CarriesClaim := by
  constructor
  · intro s reached phase
    have settles := reachable_settles reached
    have recorded := settles.recorded
    have stands := settles.stands
    rw [phase] at stands
    rw [stands.1] at recorded
    exact ⟨recorded.all_settled, stands⟩
  · intro s reached
    have both := reachable_anchored reached
    exact both.2.carriesClaim both.1

-----------------------------------------------------------------------------------------
-- Histories
-----------------------------------------------------------------------------------------

/-- What can happen to the task of `owner`: the other workers have owners of their own. -/
def Permitted (owner : String) : Happening → Prop
  | .others call => call.actingOwner ≠ some owner
  | _ => True

instance : DecidablePred (Permitted owner) := fun happening => by
  cases happening <;> unfold Permitted <;> infer_instance

namespace PreparedReticulumGateway

/-- The state after a history, if each of its happenings is possible and allowed. -/
def play (gateway owner : String) (allowed : PreparedReticulumGateway → Happening → Bool)
    : List Happening → PreparedReticulumGateway → Option PreparedReticulumGateway
  | [], s => some s
  | happening :: rest, s =>
      if Permitted owner happening ∧ allowed s happening = true then
        (s.next gateway owner happening).bind (play gateway owner allowed rest)
      else
        none

/-- The task before its first step. -/
def start : PreparedReticulumGateway := ⟨true, .empty, none, .looping, []⟩

end PreparedReticulumGateway

/-- A history is a run, by induction on it. -/
theorem reachable_play {allowed : PreparedReticulumGateway → Happening → Bool}
    {condition : PreparedReticulumGateway → Happening → Prop}
    (meets : ∀ s happening, allowed s happening = true → condition s happening)
    (reached : ((gatewayRun gateway owner).restrict condition).Reachable s)
    (history : List Happening) (played : s.play gateway owner allowed history = some s')
    : ((gatewayRun gateway owner).restrict condition).Reachable s' := by
  induction history generalizing s with
  | nil =>
      cases played
      exact reached
  | cons happening rest ih =>
      rw [PreparedReticulumGateway.play] at played
      split at played
      · rename_i possible
        obtain ⟨middle, taken, played⟩ := Option.bind_eq_some_iff.mp played
        refine ih (.step reached ⟨meets s happening possible.2, ?_, taken⟩) played
        rintro call rfl
        exact possible.1
      · cases played

namespace Renewed

/-- A peer of the gateway. -/
def route : DeliveryRoute :=
  ⟨"reticulum:bb", "aaaaaaaaaaaaaaaaaaaaaaaaaaaaaaaa", none, 4096, 2048, by decide, by decide,
    Nat.zero_lt_succ _, Nat.zero_lt_succ _⟩

def response : NewGatewayDelivery where
  intentKey := .response "greeting"
  sourceOutboxId := none
  ordinal := 0
  route := route
  payload := .text "hello"
  keyNamed := by
    rintro text ⟨⟩
    decide

/-- A delivery is queued and submitted. -/
def submission : List Happening :=
  [.others (.enqueueGatewayDelivery response ⟨1⟩ 5), .advance 6, .advance 6, .advance 6,
    .sent true 6]

/-- The daemon shuts down right after the submission. -/
def stopped : List Happening := submission ++ [.shutdown, .advance 7, .advance 7]

/-- The claim is renewed once before the daemon shuts down. -/
def renewed : List Happening :=
  submission ++ [.renewal 10006, .advance 10006, .shutdown, .advance 12000, .advance 12000]

end Renewed

theorem submitted_deliveries_are_settled_stopped
    : ∃ s : PreparedReticulumGateway, s.submitted = [(⟨1⟩, 1)]
      ∧ (s.Settled ∧ s.activeDelivery = none ∧ s.bridge = false)
      ∧ start.CarriesClaim := by
  have played : (start.play "reticulum:bb" "reticulum-delivery-9"
      (fun s happening => decide (s.KeepsClaim happening)) Renewed.stopped).any
        (fun s => s.phase = .returned ∧ s.submitted = [(⟨1⟩, 1)]) = true := by
    decide +kernel
  obtain ⟨s, played, ended⟩ := (Option.any_eq_true _ _).mp played
  obtain ⟨phase, record⟩ := of_decide_eq_true ended
  have reached := reachable_play (fun s happening => of_decide_eq_true)
    (.initial ⟨rfl, rfl, rfl, rfl⟩) Renewed.stopped played
  exact ⟨s, record,
    (submitted_deliveries_are_settled "reticulum:bb" "reticulum-delivery-9").1 s reached phase,
    (submitted_deliveries_are_settled "reticulum:bb" "reticulum-delivery-9").2 start
      (.initial ⟨rfl, rfl, rfl, rfl⟩)⟩

/-- After one renewal a shutdown leaves the delivery on its way, and the bridge running. -/
theorem renewed_delivery_stays_on_its_way
    : ∃ s : PreparedReticulumGateway,
      (gatewayRun "reticulum:bb" "reticulum-delivery-9").Reachable s
        ∧ s.phase = .returned ∧ ¬s.Settled ∧ s.bridge = true := by
  have played : (start.play "reticulum:bb" "reticulum-delivery-9" (fun _ _ => true)
      Renewed.renewed).any (fun s => s.phase = .returned ∧ ¬s.Settled ∧ s.bridge = true)
        = true := by
    decide +kernel
  obtain ⟨s, played, ended⟩ := (Option.any_eq_true _ _).mp played
  have reached : ((gatewayRun "reticulum:bb" "reticulum-delivery-9").restrict
      (fun _ _ => True)).Reachable s :=
    reachable_play (fun _ _ _ => trivial) (.initial ⟨rfl, rfl, rfl, rfl⟩) Renewed.renewed played
  exact ⟨s, reached.of_restrict, of_decide_eq_true ended⟩

end Codrik.Interfaces.Reticulum

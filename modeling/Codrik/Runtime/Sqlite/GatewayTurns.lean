import Codrik.Runtime.Sqlite.GatewayOrder

/-! The turns of an address: one delivery on its way at a time, the chunks of an entry in
order, and no delivery in front of an earlier one.
-/

namespace Codrik.Runtime.Sqlite

open Codrik.Relational
open Codrik.Transition

variable {q q' : GatewayQueue}

/-- The query of a claim knows that `earlier` comes first: its ordinal is not the larger one,
or both come from outbox entries that differ, or they are chunks of one entry queued at once.
-/
def Comparable (earlier later : QueuedDelivery) : Prop :=
  earlier.ordinal ≤ later.ordinal
    ∨ (earlier.sourceOutboxId ≠ none ∧ later.sourceOutboxId ≠ none
      ∧ (earlier.sourceOutboxId = later.sourceOutboxId → earlier.createdAt = later.createdAt))

instance (earlier later : QueuedDelivery) : Decidable (Comparable earlier later) :=
  inferInstanceAs (Decidable (_ ∨ _))

/-- When a claim is made, the deliveries that wait at an address are comparable. -/
def KeepsTurns (q : GatewayQueue) : QueueCall → Prop
  | .claimGatewayDeliveries gateway _ now _ _ =>
      ∀ earlier ∈ (q.lapse gateway now).deliveries,
      ∀ later ∈ (q.lapse gateway now).deliveries,
        (q.lapse gateway now).InLine earlier → later.Waiting → SameAddress earlier later →
        earlier.place < later.place → Comparable earlier later
  | _ => True

instance (q : GatewayQueue) : DecidablePred (KeepsTurns q)
  | .claimGatewayDeliveries .. => inferInstanceAs (Decidable (∀ _ ∈ _, _))
  | .insertOutbox .. | .projectToGateway .. | .enqueueGatewayDelivery ..
  | .renewGatewayDelivery .. | .completeGatewayDelivery .. | .retryGatewayDelivery ..
  | .setGatewayDeliveryRetrySafe .. | .failGatewayDelivery .. => .isTrue trivial

/-- At most one delivery is on its way to an address. -/
def OneInFlight (q : GatewayQueue) : Prop :=
  ∀ a ∈ q.deliveries, ∀ b ∈ q.deliveries, a.state = .delivering → b.state = .delivering →
    SameAddress a b → a = b

/-- Of two candidates for one address only one is eligible. -/
theorem GatewayQueue.Eligible.unique {gateway : String} {now : Timestamp} {a b : QueuedDelivery}
    (comparable : ∀ earlier ∈ q.deliveries, ∀ later ∈ q.deliveries, q.InLine earlier →
      later.Waiting → SameAddress earlier later → earlier.place < later.place →
      Comparable earlier later)
    (stored : a ∈ q.deliveries) (stored' : b ∈ q.deliveries)
    (eligible : q.Eligible gateway now a) (eligible' : q.Eligible gateway now b)
    (address : SameAddress a b)
    : ¬a.place < b.place := by
  intro ahead
  have notCut : ¬q.CutOff a := by
    rintro ⟨chunk, mem, precedes, failed⟩
    refine eligible.inOrder ⟨chunk, mem, precedes, fun done => ?_⟩
    rcases failed with state | state <;> exact absurd (done.symm.trans state) (by decide)
  have front (notLater : (notALaterChunk a b).IsTrue) : False :=
    eligible'.first ⟨a, stored, address, eligible.waiting, ahead, notLater, notCut⟩
  rcases comparable a stored b stored' ⟨eligible.waiting, notCut⟩ eligible'.waiting address ahead
    with ordered | ⟨named, named', -⟩
  · exact front (isTrue_notALaterChunk.mpr (Or.inl ordered))
  · by_cases source : a.sourceOutboxId = b.sourceOutboxId
    · rcases le_or_gt a.ordinal b.ordinal with ordered | precedes
      · exact front (isTrue_notALaterChunk.mpr (Or.inl ordered))
      · refine eligible.inOrder ⟨b, stored', ⟨named, source.symm, precedes⟩, fun done => ?_⟩
        exact eligible'.waiting.not_finished (Or.inl done)
    · exact front (isTrue_notALaterChunk.mpr (Or.inr ⟨named, named', source⟩))

/-- A delivery on its way after a call was on its way before or is one of those claimed. -/
theorem GatewayQueue.delivering_of_revise {call : QueueCall} {d : QueuedDelivery}
    (active : (q.revise call d).state = .delivering)
    : (d.state = .delivering ∧ d.id ∉ q.handsOut call) ∨ d.id ∈ q.handsOut call := by
  by_cases chosen : d.id ∈ q.handsOut call
  · exact Or.inr chosen
  · refine Or.inl ⟨?_, chosen⟩
    by_contra idle
    have notHeld (claim : GatewayDeliveryClaim) : ¬HeldUnder claim d := fun held => idle held.2.1
    cases call with
    | claimGatewayDeliveries gateway owner now claimUntil limit =>
        have notLapsed : ¬d.Lapsed gateway now := fun lapsed => idle lapsed.2.1
        rw [GatewayQueue.revise, GatewayQueue.afterClaim_free chosen, if_neg notLapsed] at active
        exact idle active
    | renewGatewayDelivery claim claimUntil =>
        rw [GatewayQueue.revise, if_neg (notHeld claim)] at active
        exact idle active
    | completeGatewayDelivery claim remoteMessageId =>
        rw [GatewayQueue.revise, if_neg (notHeld claim)] at active
        exact idle active
    | retryGatewayDelivery claim nextAttemptAt errorClass error =>
        rw [GatewayQueue.revise, if_neg (notHeld claim)] at active
        exact idle active
    | setGatewayDeliveryRetrySafe claim retrySafe =>
        rw [GatewayQueue.revise, if_neg (notHeld claim)] at active
        exact idle active
    | failGatewayDelivery claim state errorClass error =>
        rw [GatewayQueue.revise, if_neg (notHeld claim)] at active
        exact idle active
    | insertOutbox entry => exact idle active
    | projectToGateway entry route ids now => exact idle active
    | enqueueGatewayDelivery delivery id now => exact idle active

/-- A delivery that arrives is not on its way. -/
theorem mem_chunkRows {entry : OutboxRow} {route : DeliveryRoute} {ids : Nat → GatewayDeliveryId}
    {now : Timestamp} {ordinal : Nat} {payloads : List OutboxPayload} {d : QueuedDelivery}
    (mem : d ∈ chunkRows entry route ids now ordinal payloads)
    : ∃ k payload, d = newDelivery (ids k) (chunkDelivery entry route k payload) now := by
  induction payloads generalizing ordinal with
  | nil => exact absurd mem List.not_mem_nil
  | cons payload payloads ih =>
      rcases List.mem_cons.mp mem with rfl | rest
      · exact ⟨ordinal, payload, rfl⟩
      · exact ih rest

theorem QueueCall.pending_of_arrivals {call : QueueCall} {d : QueuedDelivery}
    (new : d ∈ call.arrivals)
    : d.state = .pending := by
  cases call with
  | projectToGateway entry route ids now =>
      obtain ⟨k, payload, rfl⟩ := mem_chunkRows new
      rfl
  | enqueueGatewayDelivery delivery id now =>
      rw [List.mem_singleton.mp new]
      rfl
  | _ => exact absurd new List.not_mem_nil

/-- A selected delivery is the eligible one with its id. -/
theorem GatewayQueue.eligible_of_selected {gateway : String} {now : Timestamp} {limit : Nat}
    {d : QueuedDelivery} (stored : d ∈ q.deliveries)
    (chosen : d.id ∈ (q.lapse gateway now).selected gateway now limit)
    : ∃ settled ∈ (q.lapse gateway now).deliveries,
      (q.lapse gateway now).Eligible gateway now settled ∧ SameDelivery d settled := by
  obtain ⟨settled, mem, eligible, same⟩ := GatewayQueue.mem_selected chosen
  obtain ⟨before, stored', sameDelivery⟩ := GatewayQueue.mem_lapse mem
  have one : before = d :=
    GatewayQueue.eq_of_id stored' stored (sameDelivery.id.symm.trans same)
  exact ⟨settled, mem, eligible, one ▸ sameDelivery⟩

/-- A step whose claim compares all that waits keeps one delivery in flight. -/
theorem OneInFlight.step (one : OneInFlight q) {call : QueueCall} (keeps : KeepsTurns q call)
    : OneInFlight (q.after call) := by
  rcases q.after_cases call with ⟨same, -⟩ | ⟨claimed, -, -, advances⟩
  · rw [same]
    exact one
  · intro a' mem b' mem' active active' address
    have origin {d' : QueuedDelivery} (mem : d' ∈ (q.after call).deliveries)
        (active : d'.state = .delivering) : ∃ d ∈ q.deliveries, d' = q.revise call d := by
      rcases advances.backward d' mem with old | new
      · exact old
      · exact absurd (active.symm.trans (call.pending_of_arrivals new)) (by decide)
    obtain ⟨a, stored, rfl⟩ := origin mem active
    obtain ⟨b, stored', rfl⟩ := origin mem' active'
    have sameA := q.revise_same call a
    have sameB := q.revise_same call b
    rw [SameAddress, sameA.route, sameB.route] at address
    -- What is on its way already keeps what waits at its address from being selected.
    have blocks {c d : QueuedDelivery} (cStored : c ∈ q.deliveries) (dStored : d ∈ q.deliveries)
        (busy : c.state = .delivering) (unchosen : c.id ∉ q.handsOut call)
        (stays : (q.revise call c).state = .delivering) (address : SameAddress c d)
        (chosen : d.id ∈ q.handsOut call) : False := by
      cases call with
      | claimGatewayDeliveries gateway owner now claimUntil limit =>
          obtain ⟨settled, -, eligible, sameD⟩ :=
            GatewayQueue.eligible_of_selected dStored chosen
          by_cases lapsed : c.Lapsed gateway now
          · have kept : (q.revise (.claimGatewayDeliveries gateway owner now claimUntil limit)
                c).state = (c.lapse now).state := by
              rw [GatewayQueue.revise, GatewayQueue.afterClaim_free unchosen, if_pos lapsed]
            rw [kept] at stays
            simp only [QueuedDelivery.lapse] at stays
            split at stays <;> cases stays
          · refine eligible.idle ⟨c, Table.updateWhere_mem_of_not cStored lapsed, ?_, busy⟩
            rw [SameAddress, sameD.route]
            exact address
      | _ => exact absurd chosen List.not_mem_nil
    rcases GatewayQueue.delivering_of_revise active with ⟨busy, free⟩ | chosen <;>
      rcases GatewayQueue.delivering_of_revise active' with ⟨busy', free'⟩ | chosen'
    · rw [one a stored b stored' busy busy' address]
    · exact (blocks stored stored' busy free active address chosen').elim
    · exact (blocks stored' stored busy' free' active' (SameAddress.symm address) chosen).elim
    · cases call with
      | claimGatewayDeliveries gateway owner now claimUntil limit =>
          obtain ⟨c, cMem, eligible, sameC⟩ :=
            GatewayQueue.eligible_of_selected stored chosen
          obtain ⟨d, dMem, eligible', sameD⟩ :=
            GatewayQueue.eligible_of_selected stored' chosen'
          have apart : SameAddress c d := by
            rw [SameAddress, sameC.route, sameD.route]
            exact address
          have equal : c = d := by
            by_contra differs
            rcases le_total c.place d.place with le | le
            · exact eligible.unique keeps cMem dMem eligible' apart
                (GatewayQueue.place_lt cMem dMem le differs)
            · exact eligible'.unique keeps dMem cMem eligible apart.symm
                (GatewayQueue.place_lt dMem cMem le (Ne.symm differs))
          have ids : a.id = b.id := by rw [← sameC.id, ← sameD.id, equal]
          rw [GatewayQueue.eq_of_id stored stored' ids]
      | _ => exact absurd chosen List.not_mem_nil

/-- One delivery is in flight per address, by induction on the history. -/
theorem reachable_oneInFlight (reached : (gatewayQueue.restrict KeepsTurns).Reachable q)
    : OneInFlight q := by
  refine System.Reachable.invariant (J := OneInFlight) ?_ ?_ reached
  · rintro q rfl a mem
    exact absurd mem List.not_mem_nil
  · rintro q call q' - one ⟨keeps, rfl⟩
    exact one.step keeps

/-- A chunk is delivered before and after the run-out claims are settled alike. -/
theorem GatewayQueue.delivered_of_lapse (gateway : String) (now : Timestamp)
    {chunk : QueuedDelivery} (stored : chunk ∈ q.deliveries)
    (delivered : ∀ settled ∈ (q.lapse gateway now).deliveries, SameDelivery chunk settled →
      settled.state = .delivered)
    : chunk.state = .delivered := by
  by_cases lapsed : chunk.Lapsed gateway now
  · have done := delivered _ (Table.updateWhere_mem_of stored lapsed) ⟨rfl, rfl, rfl, rfl, rfl⟩
    simp only [QueuedDelivery.lapse] at done
    split at done <;> cases done
  · exact delivered chunk (Table.updateWhere_mem_of_not stored lapsed) (.refl chunk)

/-- What a claim hands out keeps the turns. -/
structure InTurn (q : GatewayQueue) (gateway : String) (now : Timestamp) (d : QueuedDelivery)
    : Prop where
  /-- All chunks before it are delivered. -/
  chunks : ∀ chunk ∈ q.deliveries, PrecedingChunk chunk d → chunk.state = .delivered
  /-- What was queued at its address before it is done with or cut off, once the claims that
  have run out are settled.
  -/
  earlier : ∀ other ∈ (q.lapse gateway now).deliveries, SameAddress other d →
    other.createdAt < d.createdAt → other.Waiting → (q.lapse gateway now).CutOff other

/-- **Turns are kept while claims can compare what waits.** At most one delivery is on its
way to an address, and a claim hands out each delivery in its turn.
-/
theorem gateway_turns (reached : (gatewayQueue.restrict KeepsTurns).Reachable q)
    : OneInFlight q
      ∧ ∀ gateway owner now claimUntil limit,
        KeepsTurns q (.claimGatewayDeliveries gateway owner now claimUntil limit) →
        ∀ claimed ∈ q.claims (.claimGatewayDeliveries gateway owner now claimUntil limit),
          ∃ d ∈ q.deliveries, d.id = claimed.claim.id ∧ InTurn q gateway now d := by
  refine ⟨reachable_oneInFlight reached, ?_⟩
  intro gateway owner now claimUntil limit keeps claimed listed
  rcases q.after_cases (.claimGatewayDeliveries gateway owner now claimUntil limit) with
    ⟨-, none, -⟩ | ⟨answer, -, same, advances⟩
  · rw [none] at listed
    exact absurd listed List.not_mem_nil
  · rw [same] at listed
    have chosen : claimed.claim.id
        ∈ q.handsOut (.claimGatewayDeliveries gateway owner now claimUntil limit) := by
      rw [← advances.handedOut]
      exact List.mem_map_of_mem listed
    obtain ⟨settled, mem, eligible, sameId⟩ := GatewayQueue.mem_selected chosen
    obtain ⟨d, stored, sameD⟩ := GatewayQueue.mem_lapse mem
    refine ⟨d, stored, sameD.id.symm.trans sameId, ?_, ?_⟩
    · intro chunk chunkStored precedes
      refine GatewayQueue.delivered_of_lapse gateway now chunkStored ?_
      intro other otherMem sameChunk
      by_contra pending
      refine eligible.inOrder ⟨other, otherMem, ⟨?_, ?_, ?_⟩, pending⟩
      · rw [sameD.sourceOutboxId]
        exact precedes.1
      · rw [sameChunk.sourceOutboxId, sameD.sourceOutboxId]
        exact precedes.2.1
      · rw [sameChunk.ordinal, sameD.ordinal]
        exact precedes.2.2
    · intro other otherMem address before waiting
      by_contra notCut
      have address' : SameAddress other settled := by
        rw [SameAddress, sameD.route]
        exact address
      have ahead : other.place < settled.place := by
        refine Prod.Lex.lt_iff.mpr (Or.inl ?_)
        rw [← sameD.createdAt] at before
        exact before
      refine eligible.first ⟨other, otherMem, address', waiting, ahead, ?_, notCut⟩
      rcases keeps other otherMem settled mem ⟨waiting, notCut⟩ eligible.waiting address' ahead
        with ordered | ⟨named, named', atOnce⟩
      · exact isTrue_notALaterChunk.mpr (Or.inl ordered)
      · refine isTrue_notALaterChunk.mpr (Or.inr ⟨named, named', fun source => ?_⟩)
        rw [← sameD.createdAt, ← atOnce source] at before
        exact absurd before (lt_irrefl _)

namespace OvertakenChunk

open InterlockedChunks

/-- A response without a source, as gateways queue them for commands. -/
def response : NewGatewayDelivery where
  intentKey := .response "gateway-response:telegram:900:7"
  sourceOutboxId := none
  ordinal := 0
  route := chat
  payload := .text "linked"
  keyNamed := by rintro text ⟨⟩; decide

/-- A reply in two chunks, of which the first one is delivered. -/
def delivered : List QueueCall :=
  [.insertOutbox (entry 1 "ab"),
    .projectToGateway (entry 1 "ab") chat (fun ordinal => ⟨ordinal + 1⟩) 5,
    .claimGatewayDeliveries "telegram" "worker" 6 36 10,
    .completeGatewayDelivery ⟨⟨1⟩, "worker", 36⟩ (some "100")]

/-- A response is queued behind the second chunk, and both are claimed. -/
def overtaking : List QueueCall :=
  delivered ++ [.enqueueGatewayDelivery response ⟨9⟩ 7,
    .claimGatewayDeliveries "telegram" "worker" 8 38 10]

def overtaken : GatewayQueue :=
  GatewayQueue.empty.play overtaking

end OvertakenChunk

theorem gateway_turns_delivered
    : OneInFlight (GatewayQueue.empty.play OvertakenChunk.delivered)
      ∧ ∀ gateway owner now claimUntil limit,
        KeepsTurns (GatewayQueue.empty.play OvertakenChunk.delivered)
          (.claimGatewayDeliveries gateway owner now claimUntil limit) →
        ∀ claimed ∈ (GatewayQueue.empty.play OvertakenChunk.delivered).claims
            (.claimGatewayDeliveries gateway owner now claimUntil limit),
          ∃ d ∈ (GatewayQueue.empty.play OvertakenChunk.delivered).deliveries,
            d.id = claimed.claim.id
              ∧ InTurn (GatewayQueue.empty.play OvertakenChunk.delivered) gateway now d :=
  gateway_turns
    (reachable_queue (reachable_emptyQueue KeepsTurns) OvertakenChunk.delivered
      (by decide +kernel))

/-- A response without a source is not held back by a later chunk in front of it, so two
deliveries of the address are in flight.
-/
theorem response_overtakes_chunk
    : ¬∀ q : GatewayQueue, gatewayQueue.Reachable q → OneInFlight q
      ∧ ∀ gateway owner now claimUntil limit,
        ∀ claimed ∈ q.claims (.claimGatewayDeliveries gateway owner now claimUntil limit),
          ∃ d ∈ q.deliveries, d.id = claimed.claim.id ∧ InTurn q gateway now d := by
  intro turns
  have reached : gatewayQueue.Reachable OvertakenChunk.overtaken :=
    (reachable_queue (reachable_emptyQueue (fun _ _ => True)) OvertakenChunk.overtaking
      (by decide +kernel)).of_restrict
  have two : ¬OneInFlight OvertakenChunk.overtaken := by
    unfold OneInFlight
    decide +kernel
  exact two (turns _ reached).1

end Codrik.Runtime.Sqlite

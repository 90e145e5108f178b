import Codrik.Runtime.Sqlite.GatewayFencing

/-! Single attempts at a delivery: what the calls of its holder and of others make of one. -/

namespace Codrik.Runtime.Sqlite

open Codrik.Relational

variable {q : GatewayQueue}

-----------------------------------------------------------------------------------------
-- Any call
-----------------------------------------------------------------------------------------

/-- What any call keeps of a delivery: attempts are counted upwards, a delivery that was once
attempted is never pending again, and no attempt is on its way a second time.
-/
structure Progresses (before after : QueuedDelivery) : Prop where
  id : after.id = before.id
  attempts : before.attemptCount ≤ after.attemptCount
  begun : before.state ≠ .pending → after.state ≠ .pending
  once : after.state = .delivering → after.attemptCount = before.attemptCount
    → before.state = .delivering

theorem Progresses.refl (d : QueuedDelivery) : Progresses d d :=
  ⟨rfl, le_refl _, fun begun => begun, fun active _ => active⟩

/-- The end of an attempt is progress. -/
theorem Progresses.leave {d : QueuedDelivery} {state : GatewayDeliveryState}
    (notPending : state ≠ .pending) (notActive : state ≠ .delivering)
    (nextAttemptAt : Option Timestamp) (error : Option (String × String))
    (remoteMessageId : Option String)
    : Progresses d (d.leave state nextAttemptAt error remoteMessageId) :=
  ⟨rfl, le_refl _, fun _ => notPending, fun active _ => absurd active notActive⟩

/-- Settling a claim that has run out is progress. -/
theorem Progresses.lapse (d : QueuedDelivery) (now : Timestamp) : Progresses d (d.lapse now) := by
  refine ⟨rfl, le_refl _, fun _ => ?_, fun active => ?_⟩
  · simp only [QueuedDelivery.lapse]
    split <;> decide
  · simp only [QueuedDelivery.lapse] at active
    split at active <;> cases active

/-- A claim is progress. -/
theorem GatewayQueue.afterClaim_progresses (q : GatewayQueue) (gateway owner : String)
    (now claimUntil : Timestamp) (limit : Nat) (d : QueuedDelivery)
    : Progresses d (q.afterClaim gateway owner now claimUntil limit d) := by
  have settled : Progresses d (if d.Lapsed gateway now then d.lapse now else d) := by
    split
    · exact .lapse d now
    · exact .refl d
  by_cases chosen : d.id ∈ (q.lapse gateway now).selected gateway now limit
  · rw [GatewayQueue.afterClaim_chosen chosen]
    refine ⟨settled.id, Nat.le_succ_of_le settled.attempts, fun _ => ?_, fun _ same => ?_⟩
    · simp [QueuedDelivery.begin]
    · have counted := settled.attempts
      have more : (QueuedDelivery.begin owner claimUntil
          (if d.Lapsed gateway now then d.lapse now else d)).attemptCount
          = (if d.Lapsed gateway now then d.lapse now else d).attemptCount + 1 := rfl
      omega
  · rw [GatewayQueue.afterClaim_free chosen]
    exact settled

/-- A call is progress for every delivery, by cases on the call. -/
theorem GatewayQueue.after_progresses (q : GatewayQueue) (call : QueueCall) {d : QueuedDelivery}
    (stored : d ∈ q.deliveries)
    : ∃ d' ∈ (q.after call).deliveries, Progresses d d' := by
  rcases q.after_cases call with ⟨same, -⟩ | ⟨claimed, performed, -, advances⟩
  · rw [same]
    exact ⟨d, stored, .refl d⟩
  · refine ⟨_, advances.forward d stored, ?_⟩
    cases call with
    | claimGatewayDeliveries gateway owner now claimUntil limit =>
        exact q.afterClaim_progresses gateway owner now claimUntil limit d
    | renewGatewayDelivery claim claimUntil =>
        rw [GatewayQueue.revise]
        split
        · exact ⟨rfl, le_refl _, fun begun => begun, fun active _ => active⟩
        · exact .refl d
    | setGatewayDeliveryRetrySafe claim retrySafe =>
        rw [GatewayQueue.revise]
        split
        · exact ⟨rfl, le_refl _, fun begun => begun, fun active _ => active⟩
        · exact .refl d
    | completeGatewayDelivery claim remoteMessageId =>
        rw [GatewayQueue.revise]
        split
        · exact .leave (by decide) (by decide) none none remoteMessageId
        · exact .refl d
    | retryGatewayDelivery claim nextAttemptAt errorClass error =>
        rw [GatewayQueue.revise]
        split
        · exact .leave (by decide) (by decide) _ _ none
        · exact .refl d
    | failGatewayDelivery claim state errorClass error =>
        simp only [QueueCall.perform, failGatewayDelivery, bind_eq_ok, require_eq_ok] at performed
        obtain ⟨-, ⟨-, target, -⟩, -⟩ := performed
        rw [GatewayQueue.revise]
        split
        · refine .leave ?_ ?_ _ _ none
          · rintro rfl
            exact absurd target (by decide)
          · rintro rfl
            exact absurd target (by decide)
        · exact .refl d
    | insertOutbox entry => exact .refl d
    | projectToGateway entry route ids now => exact .refl d
    | enqueueGatewayDelivery delivery id now => exact .refl d

/-- The row of an id after a call. -/
theorem GatewayQueue.progresses_of_id {call : QueueCall} {d d' : QueuedDelivery}
    (stored : d ∈ q.deliveries) (stored' : d' ∈ (q.after call).deliveries) (same : d'.id = d.id)
    : Progresses d d' := by
  obtain ⟨after, mem, progresses⟩ := q.after_progresses call stored
  have one : after = d' := GatewayQueue.eq_of_id mem stored' (progresses.id.trans same.symm)
  exact one ▸ progresses

-----------------------------------------------------------------------------------------
-- Calls of others
-----------------------------------------------------------------------------------------

/-- The owner a call acts for. -/
def QueueCall.actingOwner : QueueCall → Option String
  | .claimGatewayDeliveries _ owner _ _ _ => some owner
  | .renewGatewayDelivery claim _ => some claim.owner
  | .completeGatewayDelivery claim _ => some claim.owner
  | .retryGatewayDelivery claim _ _ _ => some claim.owner
  | .setGatewayDeliveryRetrySafe claim _ => some claim.owner
  | .failGatewayDelivery claim _ _ _ => some claim.owner
  | _ => none

/-- A call finds the delivery's claim run out. -/
def QueueCall.Lapses : QueueCall → QueuedDelivery → Prop
  | .claimGatewayDeliveries gateway _ now _ _, delivery => delivery.Lapsed gateway now
  | _, _ => False

instance (call : QueueCall) : DecidablePred call.Lapses := fun _ => by
  cases call <;> unfold QueueCall.Lapses <;> infer_instance

/-- Claims of others are not the one presented. -/
theorem not_heldUnder_foreign {claim other : GatewayDeliveryClaim} {d : QueuedDelivery}
    (held : HeldUnder claim d) (foreign : some other.owner ≠ some claim.owner)
    : ¬HeldUnder other d :=
  fun held' => foreign (held'.2.2.1.symm.trans held.2.2.1)

/-- A call of others leaves a delivery under its claim unless it finds that run out, by cases
on the call.
-/
theorem GatewayQueue.revise_foreign {call : QueueCall} {claim : GatewayDeliveryClaim}
    {d : QueuedDelivery} (stored : d ∈ q.deliveries) (held : HeldUnder claim d)
    (foreign : call.actingOwner ≠ some claim.owner) (lasting : ¬call.Lapses d)
    : q.revise call d = d := by
  cases call with
  | claimGatewayDeliveries gateway owner now claimUntil limit =>
      have notLapsed : ¬d.Lapsed gateway now := lasting
      have free : d.id ∉ (q.lapse gateway now).selected gateway now limit := by
        intro chosen
        obtain ⟨other, otherStored, eligible, same⟩ := GatewayQueue.mem_selected chosen
        have kept : d ∈ (q.lapse gateway now).deliveries :=
          Table.updateWhere_mem_of_not stored notLapsed
        have one : other = d := GatewayQueue.eq_of_id otherStored kept same
        rcases (one ▸ eligible.waiting) with state | state <;>
          exact absurd (held.2.1.symm.trans state) (by decide)
      rw [GatewayQueue.revise, GatewayQueue.afterClaim_free free, if_neg notLapsed]
  | renewGatewayDelivery other claimUntil =>
      rw [GatewayQueue.revise, if_neg (not_heldUnder_foreign held foreign)]
  | completeGatewayDelivery other remoteMessageId =>
      rw [GatewayQueue.revise, if_neg (not_heldUnder_foreign held foreign)]
  | retryGatewayDelivery other nextAttemptAt errorClass error =>
      rw [GatewayQueue.revise, if_neg (not_heldUnder_foreign held foreign)]
  | setGatewayDeliveryRetrySafe other retrySafe =>
      rw [GatewayQueue.revise, if_neg (not_heldUnder_foreign held foreign)]
  | failGatewayDelivery other state errorClass error =>
      rw [GatewayQueue.revise, if_neg (not_heldUnder_foreign held foreign)]
  | insertOutbox entry => rfl
  | projectToGateway entry route ids now => rfl
  | enqueueGatewayDelivery delivery id now => rfl

/-- Whatever is under a claim after a call of others was so before, by cases on the call. -/
theorem GatewayQueue.held_of_foreign {call : QueueCall} {claim : GatewayDeliveryClaim}
    {d : QueuedDelivery} (foreign : call.actingOwner ≠ some claim.owner)
    (held : HeldUnder claim (q.revise call d))
    : HeldUnder claim d ∧ (q.revise call d).attemptCount = d.attemptCount := by
  have released {state : GatewayDeliveryState} {nextAttemptAt : Option Timestamp}
      {error : Option (String × String)} {remoteMessageId : Option String}
      (held : HeldUnder claim (d.leave state nextAttemptAt error remoteMessageId)) : False := by
    cases held.2.2.1
  cases call with
  | claimGatewayDeliveries gateway owner now claimUntil limit =>
      rw [GatewayQueue.revise] at held ⊢
      by_cases chosen : d.id ∈ (q.lapse gateway now).selected gateway now limit
      · rw [GatewayQueue.afterClaim_chosen chosen] at held
        exact absurd held.2.2.1 foreign
      · rw [GatewayQueue.afterClaim_free chosen] at held ⊢
        split at held
        · cases held.2.2.1
        · rename_i notLapsed
          rw [if_neg notLapsed]
          exact ⟨held, rfl⟩
  | renewGatewayDelivery other claimUntil =>
      rw [GatewayQueue.revise] at held ⊢
      split at held
      · rename_i theirs
        exact absurd (theirs.2.2.1.symm.trans held.2.2.1) foreign
      · rename_i notTheirs
        rw [if_neg notTheirs]
        exact ⟨held, rfl⟩
  | setGatewayDeliveryRetrySafe other retrySafe =>
      rw [GatewayQueue.revise] at held ⊢
      split at held
      · rename_i theirs
        exact absurd (theirs.2.2.1.symm.trans held.2.2.1) foreign
      · rename_i notTheirs
        rw [if_neg notTheirs]
        exact ⟨held, rfl⟩
  | completeGatewayDelivery other remoteMessageId =>
      rw [GatewayQueue.revise] at held ⊢
      split at held
      · exact (released held).elim
      · rename_i notTheirs
        rw [if_neg notTheirs]
        exact ⟨held, rfl⟩
  | retryGatewayDelivery other nextAttemptAt errorClass error =>
      rw [GatewayQueue.revise] at held ⊢
      split at held
      · exact (released held).elim
      · rename_i notTheirs
        rw [if_neg notTheirs]
        exact ⟨held, rfl⟩
  | failGatewayDelivery other state errorClass error =>
      rw [GatewayQueue.revise] at held ⊢
      split at held
      · exact (released held).elim
      · rename_i notTheirs
        rw [if_neg notTheirs]
        exact ⟨held, rfl⟩
  | insertOutbox entry => exact ⟨held, rfl⟩
  | projectToGateway entry route ids now => exact ⟨held, rfl⟩
  | enqueueGatewayDelivery delivery id now => exact ⟨held, rfl⟩

-----------------------------------------------------------------------------------------
-- One attempt
-----------------------------------------------------------------------------------------

/-- The attempt `n` at a delivery is on its way under a claim. -/
def GatewayQueue.OnItsWay (q : GatewayQueue) (claim : GatewayDeliveryClaim) (n : Nat) : Prop :=
  ∃ d ∈ q.deliveries, HeldUnder claim d ∧ d.attemptCount = n

/-- The attempt `n` at a delivery, or a later one, was begun. -/
def GatewayQueue.Begun (q : GatewayQueue) (id : GatewayDeliveryId) (n : Nat) : Prop :=
  ∃ d ∈ q.deliveries, d.id = id ∧ n ≤ d.attemptCount ∧ d.state ≠ .pending

/-- The attempt `n` at a delivery is not on its way. -/
def GatewayQueue.Over (q : GatewayQueue) (id : GatewayDeliveryId) (n : Nat) : Prop :=
  ∀ d ∈ q.deliveries, d.id = id → d.attemptCount = n → d.state ≠ .delivering

/-- If a delivery is under the claim, its attempt is `n`. -/
def GatewayQueue.AtMost (q : GatewayQueue) (claim : GatewayDeliveryClaim) (n : Nat) : Prop :=
  q.Begun claim.id n ∧ ∀ d ∈ q.deliveries, HeldUnder claim d → d.attemptCount = n

theorem GatewayQueue.OnItsWay.begun {claim : GatewayDeliveryClaim} {n : Nat}
    (active : q.OnItsWay claim n)
    : q.Begun claim.id n := by
  obtain ⟨d, stored, held, rfl⟩ := active
  refine ⟨d, stored, held.1, le_refl _, fun pending => ?_⟩
  exact absurd (held.2.1.symm.trans pending) (by decide)

/-- What was begun stays begun. -/
theorem GatewayQueue.Begun.after {id : GatewayDeliveryId} {n : Nat} (begun : q.Begun id n)
    (call : QueueCall)
    : (q.after call).Begun id n := by
  obtain ⟨d, stored, rfl, counted, notPending⟩ := begun
  obtain ⟨d', stored', progresses⟩ := q.after_progresses call stored
  exact ⟨d', stored', progresses.id, counted.trans progresses.attempts,
    progresses.begun notPending⟩

/-- An attempt that is over stays so. -/
theorem GatewayQueue.Over.after {id : GatewayDeliveryId} {n : Nat} (over' : q.Over id n)
    (begun : q.Begun id n) (call : QueueCall)
    : (q.after call).Over id n := by
  intro d' stored' same count active
  obtain ⟨d, stored, rfl, counted, -⟩ := begun
  have progresses := GatewayQueue.progresses_of_id stored stored' same
  have attempts := progresses.attempts
  have unchanged : d'.attemptCount = d.attemptCount := by omega
  exact over' d stored rfl (unchanged.symm.trans count) (progresses.once active unchanged)

/-- An attempt stays on its way whatever others call, unless they find its claim run out. -/
theorem GatewayQueue.OnItsWay.foreign {claim : GatewayDeliveryClaim} {n : Nat}
    (active : q.OnItsWay claim n) {call : QueueCall}
    (foreign : call.actingOwner ≠ some claim.owner)
    (lasting : ∀ d ∈ q.deliveries, HeldUnder claim d → ¬call.Lapses d)
    : (q.after call).OnItsWay claim n := by
  obtain ⟨d, stored, held, rfl⟩ := active
  rcases q.after_mem call stored with mem | mem
  · exact ⟨d, mem, held, rfl⟩
  · rw [GatewayQueue.revise_foreign stored held foreign (lasting d stored held)] at mem
    exact ⟨d, mem, held, rfl⟩

/-- Calls of others put nothing under a claim. -/
theorem GatewayQueue.AtMost.foreign {claim : GatewayDeliveryClaim} {n : Nat}
    (atMost : q.AtMost claim n) {call : QueueCall}
    (foreign : call.actingOwner ≠ some claim.owner)
    : (q.after call).AtMost claim n := by
  refine ⟨atMost.1.after call, fun d' stored' held => ?_⟩
  obtain ⟨d, stored, same, -⟩ := atMost.1
  rcases q.after_mem call stored with mem | mem
  · have one : d = d' := GatewayQueue.eq_of_id mem stored' (same.trans held.1.symm)
    exact atMost.2 d' (one ▸ stored) held
  · have one : q.revise call d = d' :=
      GatewayQueue.eq_of_id mem stored' ((q.revise_same call d).id.trans (same.trans held.1.symm))
    subst one
    obtain ⟨before, count⟩ := GatewayQueue.held_of_foreign foreign held
    exact count.trans (atMost.2 d stored before)

/-- Two claims of one attempt that is on its way are one. -/
theorem GatewayQueue.OnItsWay.held {claim : GatewayDeliveryClaim} {n : Nat}
    (active : q.OnItsWay claim n) {d : QueuedDelivery} (stored : d ∈ q.deliveries)
    (same : d.id = claim.id)
    : HeldUnder claim d ∧ d.attemptCount = n := by
  obtain ⟨d', stored', held, count⟩ := active
  have one : d' = d := GatewayQueue.eq_of_id stored' stored (held.1.trans same.symm)
  exact one ▸ ⟨held, count⟩

-----------------------------------------------------------------------------------------
-- Calls of the holder
-----------------------------------------------------------------------------------------

/-- The update of a delivery that is on its way reports a change. -/
theorem GatewayQueue.OnItsWay.updated {claim : GatewayDeliveryClaim} {n : Nat}
    (active : q.OnItsWay claim n) (f : QueuedDelivery → QueuedDelivery) (keeps : Table.KeepsKey f)
    : (q.updateHeld claim f keeps).1 = true
      ∧ ∃ d ∈ q.deliveries, HeldUnder claim d ∧ d.attemptCount = n
        ∧ f d ∈ (q.updateHeld claim f keeps).2.deliveries := by
  obtain ⟨d, stored, held, count⟩ := active
  refine ⟨decide_eq_true ((GatewayQueue.count_held stored held.1).mpr held), d, stored, held,
    count, ?_⟩
  exact Table.updateWhere_mem_of stored held

/-- An update that reports a change found the delivery under the claim. -/
theorem GatewayQueue.AtMost.onItsWay {claim : GatewayDeliveryClaim} {n : Nat}
    (atMost : q.AtMost claim n) {f : QueuedDelivery → QueuedDelivery} {keeps : Table.KeepsKey f}
    (changed : (q.updateHeld claim f keeps).1 = true)
    : q.OnItsWay claim n := by
  obtain ⟨d, stored, held⟩ := Table.exists_of_count (of_decide_eq_true changed)
  exact ⟨d, stored, held, atMost.2 d stored held⟩

/-- A renewal moves the claim of the attempt. -/
theorem GatewayQueue.OnItsWay.renew {claim : GatewayDeliveryClaim} {n : Nat}
    (active : q.OnItsWay claim n) (claimUntil : Timestamp)
    : (renewGatewayDelivery claim claimUntil q).1 = some { claim with expiresAt := claimUntil }
      ∧ (renewGatewayDelivery claim claimUntil q).2.OnItsWay
        { claim with expiresAt := claimUntil } n := by
  obtain ⟨changed, d, -, held, count, updated⟩ := active.updated
    (fun delivery => { delivery with claimExpiresAt := some claimUntil })
    ⟨fun _ _ clash => clash⟩
  refine ⟨if_pos changed, _, updated, ⟨held.1, held.2.1, held.2.2.1, rfl⟩, count⟩

/-- A mark leaves the attempt on its way. -/
theorem GatewayQueue.OnItsWay.mark {claim : GatewayDeliveryClaim} {n : Nat}
    (active : q.OnItsWay claim n) (retrySafe : Bool)
    : (setGatewayDeliveryRetrySafe claim retrySafe q).2.OnItsWay claim n := by
  obtain ⟨-, d, -, held, count, updated⟩ := active.updated
    (fun delivery => { delivery with transportRetrySafe := retrySafe })
    ⟨fun _ _ clash => clash⟩
  exact ⟨_, updated, held, count⟩

/-- A transition ends the attempt. -/
theorem GatewayQueue.OnItsWay.transition {claim : GatewayDeliveryClaim} {n : Nat}
    (active : q.OnItsWay claim n) {state : GatewayDeliveryState}
    (notActive : state ≠ .delivering) (nextAttemptAt : Option Timestamp)
    (error : Option (String × String)) (remoteMessageId : Option String)
    : (transitionClaim claim state nextAttemptAt error remoteMessageId q).1 = true
      ∧ (transitionClaim claim state nextAttemptAt error remoteMessageId q).2.Over claim.id n := by
  obtain ⟨changed, d, -, held, -, updated⟩ := active.updated
    (·.leave state nextAttemptAt error remoteMessageId) ⟨fun _ _ clash => clash⟩
  refine ⟨changed, fun d' stored' same _ => ?_⟩
  have one : d.leave state nextAttemptAt error remoteMessageId = d' :=
    GatewayQueue.eq_of_id updated stored' (held.1.trans same.symm)
  exact one ▸ notActive

/-- The deliveries that are handed out are on their way, by induction on the loop. -/
theorem claimEachDelivery_onItsWay {owner : String} {expiry : Timestamp}
    {ids : List GatewayDeliveryId} (distinct : ids.Nodup) {q' : GatewayQueue}
    {claimed : List ClaimedGatewayDelivery}
    (done : claimEachDelivery owner expiry ids q = .ok (claimed, q'))
    : ∀ delivery ∈ claimed, delivery.claim.owner = owner
      ∧ q'.OnItsWay delivery.claim delivery.attemptCount := by
  induction ids generalizing q claimed with
  | nil =>
      cases done
      exact fun delivery mem => absurd mem List.not_mem_nil
  | cons id ids ih =>
      simp only [claimEachDelivery, bind_eq_ok] at done
      obtain ⟨first, loaded, ⟨others, last⟩, rest, same⟩ := done
      cases same
      obtain ⟨new, distinct⟩ := List.nodup_cons.mp distinct
      intro delivery mem
      rcases List.mem_cons.mp mem with rfl | mem
      · unfold loadClaimed at loaded
        split at loaded
        · cases loaded
        · rename_i row found
          cases loaded
          obtain ⟨kept, sameId⟩ := Table.find?_some found
          obtain ⟨before, stored, begins⟩ := Table.mem_updateWhere.mp kept
          have begun : before.id = id := by
            by_contra other
            rw [if_neg other] at begins
            exact other (begins ▸ sameId)
          rw [if_pos begun] at begins
          refine ⟨rfl, row, ?_, ?_, rfl⟩
          · refine ((claimEachDelivery_ok distinct rest).2 row).mpr
              ⟨row, kept, if_neg (sameId ▸ new)⟩
          · rw [← begins]
            exact ⟨begun, rfl, rfl, rfl⟩
      · exact ih distinct rest delivery mem

/-- The deliveries a claim hands out are on their way. -/
theorem claimGatewayDeliveries_onItsWay {gateway owner : String} {now claimUntil : Timestamp}
    {limit : Nat} {q' : GatewayQueue} {claimed : List ClaimedGatewayDelivery}
    (done : claimGatewayDeliveries gateway owner now claimUntil limit q = .ok (claimed, q'))
    : ∀ delivery ∈ claimed, delivery.claim.owner = owner
      ∧ q'.OnItsWay delivery.claim delivery.attemptCount := by
  simp only [claimGatewayDeliveries, bind_eq_ok] at done
  obtain ⟨-, -, done⟩ := done
  exact claimEachDelivery_onItsWay GatewayQueue.nodup_selected done

end Codrik.Runtime.Sqlite

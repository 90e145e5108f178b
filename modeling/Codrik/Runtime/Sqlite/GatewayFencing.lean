import Codrik.Runtime.Sqlite.GatewayTurns

/-! The life of a gateway delivery: who may end an attempt, and what becomes of an attempt
whose claim runs out. A log of the attempts and of their marks stands beside the queue.
-/

namespace Codrik.Runtime.Sqlite

open Codrik.Relational
open Codrik.Transition

variable {q q' : GatewayQueue}

-----------------------------------------------------------------------------------------
-- Attempts
-----------------------------------------------------------------------------------------

/-- What the history of a delivery consists of: attempts that began, and marks their holders
set.
-/
inductive AttemptEvent
  | began (id : GatewayDeliveryId)
  | marked (id : GatewayDeliveryId) (retrySafe : Bool)
deriving DecidableEq

/-- The mark of the current attempt after one more event. -/
def AttemptEvent.update (id : GatewayDeliveryId) (mark : Bool) : AttemptEvent → Bool
  | .began other => if other = id then false else mark
  | .marked other retrySafe => if other = id then retrySafe else mark

/-- The current attempt of the delivery was marked retry-safe by its own holder. -/
def markedSafe (log : List AttemptEvent) (id : GatewayDeliveryId) : Bool :=
  log.foldl (AttemptEvent.update id) false

variable {log : List AttemptEvent}

/-- What a call adds to the log. -/
def attemptEvents (q : GatewayQueue) (call : QueueCall) (_ : GatewayQueue)
    : List AttemptEvent :=
  match call with
  | .setGatewayDeliveryRetrySafe claim retrySafe =>
      if (setGatewayDeliveryRetrySafe claim retrySafe q).1 then [.marked claim.id retrySafe]
      else []
  | call => (q.claims call).map (fun claimed => .began claimed.claim.id)

/-- No delivery is claimed that carries the mark of an earlier attempt. -/
def KeepsMarks (q : GatewayQueue) : QueueCall → Prop
  | .claimGatewayDeliveries gateway _ now _ _ =>
      ∀ d ∈ (q.lapse gateway now).deliveries, (q.lapse gateway now).Eligible gateway now d →
        d.transportRetrySafe = false
  | _ => True

instance (q : GatewayQueue) : DecidablePred (KeepsMarks q)
  | .claimGatewayDeliveries .. => inferInstanceAs (Decidable (∀ _ ∈ _, _))
  | .insertOutbox .. | .projectToGateway .. | .enqueueGatewayDelivery ..
  | .renewGatewayDelivery .. | .completeGatewayDelivery .. | .retryGatewayDelivery ..
  | .setGatewayDeliveryRetrySafe .. | .failGatewayDelivery .. => .isTrue trivial

/-- The claim a call presents. -/
def QueueCall.presented : QueueCall → Option GatewayDeliveryClaim
  | .renewGatewayDelivery claim _ => some claim
  | .completeGatewayDelivery claim _ => some claim
  | .retryGatewayDelivery claim _ _ _ => some claim
  | .setGatewayDeliveryRetrySafe claim _ => some claim
  | .failGatewayDelivery claim _ _ _ => some claim
  | _ => none

/-- Attempts that begin leave the mark of any other delivery alone, by induction on them. -/
theorem foldl_began_of_not_mem {ids : List GatewayDeliveryId} {id : GatewayDeliveryId}
    (absent : id ∉ ids) (mark : Bool)
    : (ids.map AttemptEvent.began).foldl (AttemptEvent.update id) mark = mark := by
  induction ids with
  | nil => rfl
  | cons other ids ih =>
      simp only [List.mem_cons, not_or] at absent
      obtain ⟨differs, absent⟩ := absent
      simp only [List.map_cons, List.foldl_cons, AttemptEvent.update, if_neg (Ne.symm differs)]
      exact ih absent

/-- An attempt that begins is not marked, by induction on those that begin with it. -/
theorem foldl_began_of_mem {ids : List GatewayDeliveryId} {id : GatewayDeliveryId}
    (present : id ∈ ids) (mark : Bool)
    : (ids.map AttemptEvent.began).foldl (AttemptEvent.update id) mark = false := by
  induction ids generalizing mark with
  | nil => exact absurd present List.not_mem_nil
  | cons other ids ih =>
      simp only [List.map_cons, List.foldl_cons, AttemptEvent.update]
      by_cases same : other = id
      · rw [if_pos same]
        by_cases later : id ∈ ids
        · exact ih later false
        · exact foldl_began_of_not_mem later false
      · rw [if_neg same]
        exact ih ((List.mem_cons.mp present).resolve_left (Ne.symm same)) mark

/-- The mark after one more call. -/
theorem markedSafe_append (log events : List AttemptEvent) (id : GatewayDeliveryId)
    : markedSafe (log ++ events) id
      = events.foldl (AttemptEvent.update id) (markedSafe log id) :=
  List.foldl_append

-----------------------------------------------------------------------------------------
-- The mark and the log
-----------------------------------------------------------------------------------------

/-- The stored mark of a delivery on its way is the one its holder set. -/
def MarksAgree (q : GatewayQueue) (log : List AttemptEvent) : Prop :=
  ∀ d ∈ q.deliveries, d.state = .delivering → d.transportRetrySafe = markedSafe log d.id

/-- A row under a claim is the only one of its id. -/
theorem GatewayQueue.count_held {claim : GatewayDeliveryClaim} {d : QueuedDelivery}
    (stored : d ∈ q.deliveries) (same : d.id = claim.id)
    : q.deliveries.count (HeldUnder claim) = 1 ↔ HeldUnder claim d := by
  constructor
  · intro one
    obtain ⟨other, otherStored, held⟩ := Table.exists_of_count one
    exact GatewayQueue.eq_of_id otherStored stored (held.1.trans same.symm) ▸ held
  · intro held
    exact Table.count_eq_one stored held
      (fun a b heldA heldB => Or.inl (heldA.1.trans heldB.1.symm))

/-- A claim leaves the marks in agreement when it takes none over. -/
theorem MarksAgree.claim (agree : MarksAgree q log) {gateway owner : String}
    {now claimUntil : Timestamp} {limit : Nat}
    (keeps : KeepsMarks q (.claimGatewayDeliveries gateway owner now claimUntil limit))
    {d : QueuedDelivery} (stored : d ∈ q.deliveries)
    (active : (q.afterClaim gateway owner now claimUntil limit d).state = .delivering)
    : (q.afterClaim gateway owner now claimUntil limit d).transportRetrySafe
      = (((q.lapse gateway now).selected gateway now limit).map AttemptEvent.began).foldl
          (AttemptEvent.update d.id) (markedSafe log d.id) := by
  by_cases chosen : d.id ∈ (q.lapse gateway now).selected gateway now limit
  · rw [foldl_began_of_mem chosen]
    obtain ⟨settled, mem, eligible, same⟩ := GatewayQueue.mem_selected chosen
    have image : (if d.Lapsed gateway now then d.lapse now else d) = settled := by
      refine GatewayQueue.eq_of_id (q := q.lapse gateway now) (Table.updateWhere_mem stored) mem ?_
      rw [same]
      split
      · rfl
      · rfl
    have unmarked := keeps settled mem eligible
    rw [← image] at unmarked
    rw [GatewayQueue.afterClaim_chosen chosen]
    exact unmarked
  · rw [foldl_began_of_not_mem chosen]
    rw [GatewayQueue.afterClaim_free chosen] at active ⊢
    by_cases lapsed : d.Lapsed gateway now
    · rw [if_pos lapsed] at active
      simp only [QueuedDelivery.lapse] at active
      split at active <;> cases active
    · rw [if_neg lapsed] at active ⊢
      exact agree d stored active

/-- A mark is set on the row under the claim, and then logged. -/
theorem MarksAgree.mark (agree : MarksAgree q log) {claim : GatewayDeliveryClaim}
    {retrySafe : Bool} {d : QueuedDelivery} (stored : d ∈ q.deliveries)
    (active : d.state = .delivering)
    : (if HeldUnder claim d then { d with transportRetrySafe := retrySafe } else d).transportRetrySafe
      = (attemptEvents q (.setGatewayDeliveryRetrySafe claim retrySafe)
          (q.after (.setGatewayDeliveryRetrySafe claim retrySafe))).foldl
          (AttemptEvent.update d.id) (markedSafe log d.id) := by
  have logged : attemptEvents q (.setGatewayDeliveryRetrySafe claim retrySafe)
      (q.after (.setGatewayDeliveryRetrySafe claim retrySafe))
      = if q.deliveries.count (HeldUnder claim) = 1 then [.marked claim.id retrySafe]
        else [] := by
    simp only [attemptEvents, setGatewayDeliveryRetrySafe, GatewayQueue.updateHeld,
      decide_eq_true_eq]
  rw [logged]
  by_cases same : d.id = claim.id
  · rw [if_congr (GatewayQueue.count_held stored same) rfl rfl]
    split
    · simp [AttemptEvent.update, same]
    · exact agree d stored active
  · rw [if_neg (fun held => same held.1)]
    split
    · simp only [List.foldl_cons, List.foldl_nil, AttemptEvent.update,
        if_neg (Ne.symm same)]
      exact agree d stored active
    · exact agree d stored active

/-- The calls that neither claim nor mark. -/
def QueueCall.Quiet : QueueCall → Prop
  | .claimGatewayDeliveries _ _ _ _ _ => False
  | .setGatewayDeliveryRetrySafe _ _ => False
  | _ => True

/-- A call that neither claims nor marks leaves the marks alone. -/
theorem GatewayQueue.revise_quiet {call : QueueCall} (quiet : call.Quiet) (d : QueuedDelivery)
    : (q.revise call d).transportRetrySafe = d.transportRetrySafe := by
  cases call with
  | claimGatewayDeliveries gateway owner now claimUntil limit => exact quiet.elim
  | setGatewayDeliveryRetrySafe claim retrySafe => exact quiet.elim
  | insertOutbox entry => rfl
  | projectToGateway entry route ids now => rfl
  | enqueueGatewayDelivery delivery id now => rfl
  | _ =>
      simp only [GatewayQueue.revise]
      split <;> rfl

/-- A call that neither claims nor marks adds nothing to the log. -/
theorem QueueCall.Quiet.silent {call : QueueCall} (quiet : call.Quiet)
    : attemptEvents q call (q.after call) = [] := by
  have none : q.claims call = [] := by
    rcases q.after_cases call with ⟨-, none, -⟩ | ⟨claimed, -, answered, advances⟩
    · exact none
    · have nothing : q.handsOut call = [] := by
        cases call with
        | claimGatewayDeliveries gateway owner now claimUntil limit => exact quiet.elim
        | _ => rfl
      rw [answered]
      exact List.map_eq_nil_iff.mp (advances.handedOut.trans nothing)
  cases call with
  | setGatewayDeliveryRetrySafe claim retrySafe => exact quiet.elim
  | _ => simp only [attemptEvents, none, List.map_nil]

/-- A call that neither claims nor marks keeps the marks in agreement. -/
theorem MarksAgree.quiet (agree : MarksAgree q log) {call : QueueCall} {d : QueuedDelivery}
    (stored : d ∈ q.deliveries) (active : (q.revise call d).state = .delivering)
    (quiet : call.Quiet)
    : (q.revise call d).transportRetrySafe
      = (attemptEvents q call (q.after call)).foldl (AttemptEvent.update d.id)
          (markedSafe log d.id) := by
  have nothing : q.handsOut call = [] := by
    cases call with
    | claimGatewayDeliveries gateway owner now claimUntil limit => exact quiet.elim
    | _ => rfl
  rw [quiet.silent, GatewayQueue.revise_quiet quiet]
  rcases GatewayQueue.delivering_of_revise active with ⟨before, -⟩ | chosen
  · exact agree d stored before
  · rw [nothing] at chosen
    exact absurd chosen List.not_mem_nil

/-- Each call keeps the marks in agreement with the log, by cases on the call. -/
theorem MarksAgree.step (agree : MarksAgree q log) {call : QueueCall}
    (keeps : KeepsMarks q call)
    : MarksAgree (q.after call) (log ++ attemptEvents q call (q.after call)) := by
  intro d' mem active
  rw [markedSafe_append]
  rcases q.after_cases call with ⟨same, none, error, failed⟩ | ⟨claimed, -, answered, advances⟩
  · rw [same] at mem
    cases call with
    | setGatewayDeliveryRetrySafe claim retrySafe => cases failed
    | _ =>
        simp only [attemptEvents, none, List.map_nil, List.foldl_nil]
        exact agree d' mem active
  · rcases advances.backward d' mem with ⟨d, stored, rfl⟩ | new
    · rw [(q.revise_same call d).id]
      cases call with
      | setGatewayDeliveryRetrySafe claim retrySafe =>
          have before : d.state = .delivering := by
            rcases GatewayQueue.delivering_of_revise active with ⟨before, -⟩ | chosen
            · exact before
            · exact absurd chosen List.not_mem_nil
          exact agree.mark stored before
      | claimGatewayDeliveries gateway owner now claimUntil limit =>
          have events : attemptEvents q (.claimGatewayDeliveries gateway owner now claimUntil limit)
              (q.after (.claimGatewayDeliveries gateway owner now claimUntil limit))
              = ((q.lapse gateway now).selected gateway now limit).map AttemptEvent.began := by
            simp only [attemptEvents, answered]
            rw [show (q.lapse gateway now).selected gateway now limit
              = claimed.map (·.claim.id) from advances.handedOut.symm, List.map_map]
            rfl
          rw [events]
          exact agree.claim keeps stored active
      | _ => exact agree.quiet stored active trivial
    · exact absurd (active.symm.trans (call.pending_of_arrivals new)) (by decide)

/-- Marks agree with the log as long as no claim takes one over, by induction. -/
theorem reachable_marksAgree
    (reached : ((gatewayQueue.restrict KeepsMarks).recording attemptEvents).Reachable (q, log))
    : MarksAgree q log := by
  refine System.Reachable.invariant (J := fun state => MarksAgree state.1 state.2) ?_ ?_ reached
  · rintro ⟨q, log⟩ ⟨rfl, -⟩ d mem
    exact absurd mem List.not_mem_nil
  · rintro ⟨q, log⟩ call ⟨q', log'⟩ - agree ⟨⟨keeps, rfl⟩, logged⟩
    change log' = log ++ attemptEvents q call (q.after call) at logged
    subst logged
    exact agree.step keeps

-----------------------------------------------------------------------------------------
-- The end of an attempt
-----------------------------------------------------------------------------------------

/-- How a delivery may be on its way no longer under the claim it was under. -/
inductive Ends (q : GatewayQueue) (log : List AttemptEvent) (call : QueueCall)
    (before after : QueuedDelivery)
    : Prop
  | kept (state : after.state = .delivering) (owner : after.claimOwner = before.claimOwner)
    (expiry : after.claimExpiresAt = before.claimExpiresAt)
  | presented {claim : GatewayDeliveryClaim} (presents : call.presented = some claim)
    (held : HeldUnder claim before)
  | lapsed {gateway owner : String} {now claimUntil : Timestamp} {limit : Nat}
    (is : call = .claimGatewayDeliveries gateway owner now claimUntil limit)
    (lapsed : before.Lapsed gateway now)
    (unknown : markedSafe log before.id = false → after.state = .outcomeUnknown)

/-- A delivery on its way stays so under its claim, is ended by its holder, or its claim has
run out, by cases on the call.
-/
theorem MarksAgree.ends (agree : MarksAgree q log) (call : QueueCall) {d : QueuedDelivery}
    (stored : d ∈ q.deliveries) (active : d.state = .delivering)
    : Ends q log call d (q.revise call d) := by
  have unheld {claim : GatewayDeliveryClaim} (presents : call.presented = some claim)
      (same : ¬HeldUnder claim d → q.revise call d = d) : Ends q log call d (q.revise call d) := by
    by_cases held : HeldUnder claim d
    · exact .presented presents held
    · rw [same held]
      exact .kept active rfl rfl
  cases call with
  | claimGatewayDeliveries gateway owner now claimUntil limit =>
      by_cases lapsed : d.Lapsed gateway now
      · refine .lapsed rfl lapsed (fun unmarked => ?_)
        have flag : d.transportRetrySafe = false := (agree d stored active).trans unmarked
        have unknown : (d.lapse now).state = .outcomeUnknown := by
          simp only [QueuedDelivery.lapse, flag]
          rfl
        have mem : d.lapse now ∈ (q.lapse gateway now).deliveries :=
          Table.updateWhere_mem_of stored lapsed
        have free : d.id ∉ (q.lapse gateway now).selected gateway now limit := by
          intro chosen
          obtain ⟨other, otherMem, eligible, same⟩ := GatewayQueue.mem_selected chosen
          have one : other = d.lapse now := GatewayQueue.eq_of_id otherMem mem same
          exact (one ▸ eligible.waiting.not_finished) (Or.inr (Or.inr unknown))
        rw [GatewayQueue.revise, GatewayQueue.afterClaim_free free, if_pos lapsed]
        exact unknown
      · have mem : d ∈ (q.lapse gateway now).deliveries :=
          Table.updateWhere_mem_of_not stored lapsed
        have free : d.id ∉ (q.lapse gateway now).selected gateway now limit := by
          intro chosen
          obtain ⟨other, otherMem, eligible, same⟩ := GatewayQueue.mem_selected chosen
          have one : other = d := GatewayQueue.eq_of_id otherMem mem same
          exact eligible.idle ⟨d, mem, one ▸ ⟨rfl, rfl⟩, active⟩
        rw [GatewayQueue.revise, GatewayQueue.afterClaim_free free, if_neg lapsed]
        exact .kept active rfl rfl
  | renewGatewayDelivery claim claimUntil => exact unheld rfl (fun free => if_neg free)
  | completeGatewayDelivery claim remoteMessageId => exact unheld rfl (fun free => if_neg free)
  | retryGatewayDelivery claim nextAttemptAt errorClass error =>
      exact unheld rfl (fun free => if_neg free)
  | setGatewayDeliveryRetrySafe claim retrySafe => exact unheld rfl (fun free => if_neg free)
  | failGatewayDelivery claim state errorClass error => exact unheld rfl (fun free => if_neg free)
  | insertOutbox entry => exact .kept active rfl rfl
  | projectToGateway entry route ids now => exact .kept active rfl rfl
  | enqueueGatewayDelivery delivery id now => exact .kept active rfl rfl

/-- A finished delivery is not handed out. -/
theorem QueuedDelivery.Finished.not_claimed {d : QueuedDelivery} (ended : d.Finished)
    (stored : d ∈ q.deliveries) (call : QueueCall)
    : d.id ∉ (q.claims call).map (·.claim.id) := by
  intro listed
  rcases q.after_cases call with ⟨-, none, -⟩ | ⟨claimed, -, answered, advances⟩
  · rw [none] at listed
    exact absurd listed List.not_mem_nil
  · rw [answered, advances.handedOut] at listed
    cases call with
    | claimGatewayDeliveries gateway owner now claimUntil limit =>
        obtain ⟨other, mem, eligible, same⟩ := GatewayQueue.mem_selected listed
        have notLapsed : ¬d.Lapsed gateway now := by
          intro lapsed
          rcases ended with state | state | state <;>
            exact absurd (lapsed.2.1.symm.trans state) (by decide)
        have kept : d ∈ (q.lapse gateway now).deliveries :=
          Table.updateWhere_mem_of_not stored notLapsed
        have one : other = d := GatewayQueue.eq_of_id mem kept same
        exact (one ▸ eligible.waiting.not_finished) ended
    | _ => exact absurd listed List.not_mem_nil

/-- The image of a delivery under a call that may have failed. -/
theorem GatewayQueue.after_mem (q : GatewayQueue) (call : QueueCall) {d : QueuedDelivery}
    (stored : d ∈ q.deliveries)
    : d ∈ (q.after call).deliveries ∨ q.revise call d ∈ (q.after call).deliveries := by
  rcases q.after_cases call with ⟨same, -⟩ | ⟨claimed, -, -, advances⟩
  · rw [same]
    exact Or.inl stored
  · exact Or.inr (advances.forward d stored)

/-- A finished delivery stays as it ended along every history, by induction on it. -/
theorem QueuedDelivery.Finished.run (run : gatewayQueue.Run q q') {d : QueuedDelivery}
    (ended : d.Finished) (stored : d ∈ q.deliveries)
    : ∃ d' ∈ q'.deliveries, d'.id = d.id ∧ d'.state = d.state := by
  induction run with
  | refl => exact ⟨d, stored, rfl, rfl⟩
  | step before taken ih =>
      rename_i middle call last
      obtain ⟨d', stored', sameId, sameState⟩ := ih
      cases taken
      have ended' : d'.Finished := by
        unfold QueuedDelivery.Finished at ended ⊢
        rwa [sameState]
      rcases middle.after_mem call stored' with mem | mem
      · exact ⟨d', mem, sameId, sameState⟩
      · exact ⟨_, mem, (middle.revise_same call d').id.trans sameId,
          (GatewayQueue.revise_finished stored' ended').trans sameState⟩

/-- **Gateway deliveries are fenced and made at most once while no claim takes over the mark
of an earlier attempt.** A delivery that is over stays as it ended and is handed out by no
later claim; an attempt ends by a call of its holder or when its claim has run out, and then
its outcome is unknown unless its holder marked it.
-/
theorem gateway_deliveries_at_most_once
    (reached : ((gatewayQueue.restrict KeepsMarks).recording attemptEvents).Reachable (q, log))
    : (∀ d ∈ q.deliveries, d.Finished → ∀ q', gatewayQueue.Run q q' →
        ∃ d' ∈ q'.deliveries, d'.id = d.id ∧ d'.state = d.state
          ∧ ∀ call, d.id ∉ (q'.claims call).map (·.claim.id))
      ∧ ∀ call, ∀ d ∈ q.deliveries, d.state = .delivering →
        ∃ d' ∈ (q.after call).deliveries, d'.id = d.id ∧ Ends q log call d d' := by
  constructor
  · intro d stored ended q' run
    obtain ⟨d', stored', sameId, sameState⟩ := ended.run run stored
    have ended' : d'.Finished := by
      unfold QueuedDelivery.Finished at ended ⊢
      rwa [sameState]
    refine ⟨d', stored', sameId, sameState, fun call => ?_⟩
    rw [← sameId]
    exact ended'.not_claimed stored' call
  · intro call d stored active
    rcases q.after_mem call stored with mem | mem
    · exact ⟨d, mem, rfl, .kept active rfl rfl⟩
    · exact ⟨_, mem, (q.revise_same call d).id,
        (reachable_marksAgree reached).ends call stored active⟩

namespace InheritedMark

open OvertakenChunk

/-- A response on its way. -/
def claimed : List QueueCall :=
  [.enqueueGatewayDelivery response ⟨1⟩ 5, .claimGatewayDeliveries "telegram" "first" 6 36 10]

def events : List AttemptEvent := GatewayQueue.empty.shown attemptEvents claimed

/-- Its holder marks the attempt and gives it back; a second worker claims it. -/
def reclaimed : List QueueCall :=
  claimed ++ [.setGatewayDeliveryRetrySafe ⟨⟨1⟩, "first", 36⟩ true,
    .retryGatewayDelivery ⟨⟨1⟩, "first", 36⟩ 10 "retry" "retry",
    .claimGatewayDeliveries "telegram" "second" 40 70 10]

def queue : GatewayQueue := GatewayQueue.empty.play reclaimed

/-- A third worker claims it when the claim of the second one has run out. -/
def third : QueueCall := .claimGatewayDeliveries "telegram" "third" 80 110 10

/-- The response under the claim of the second worker. -/
def second : QueuedDelivery :=
  { newDelivery ⟨1⟩ response 5 with
    state := .delivering
    attemptCount := 2
    nextAttemptAt := some 10
    claimOwner := some "second"
    claimExpiresAt := some 70
    errorClass := some "retry"
    lastError := some "retry"
    transportRetrySafe := true }

end InheritedMark

theorem gateway_deliveries_at_most_once_claimed
    : (∀ d ∈ (GatewayQueue.empty.play InheritedMark.claimed).deliveries, d.Finished →
        ∀ q', gatewayQueue.Run (GatewayQueue.empty.play InheritedMark.claimed) q' →
        ∃ d' ∈ q'.deliveries, d'.id = d.id ∧ d'.state = d.state
          ∧ ∀ call, d.id ∉ (q'.claims call).map (·.claim.id))
      ∧ ∀ call, ∀ d ∈ (GatewayQueue.empty.play InheritedMark.claimed).deliveries,
        d.state = .delivering →
        ∃ d' ∈ ((GatewayQueue.empty.play InheritedMark.claimed).after call).deliveries,
          d'.id = d.id
            ∧ Ends (GatewayQueue.empty.play InheritedMark.claimed) InheritedMark.events call d d' :=
  gateway_deliveries_at_most_once
    (recorded_queue (recorded_emptyQueue KeepsMarks attemptEvents) InheritedMark.claimed
      (by decide +kernel))

/-- The mark of an earlier attempt outlives it: the claim of the second worker runs out
unmarked, and yet the delivery is claimed once more.
-/
theorem inherited_mark_delivers_again
    : ¬∀ q log, (gatewayQueue.recording attemptEvents).Reachable (q, log) →
      (∀ d ∈ q.deliveries, d.Finished → ∀ q', gatewayQueue.Run q q' →
        ∃ d' ∈ q'.deliveries, d'.id = d.id ∧ d'.state = d.state
          ∧ ∀ call, d.id ∉ (q'.claims call).map (·.claim.id))
      ∧ ∀ call, ∀ d ∈ q.deliveries, d.state = .delivering →
        ∃ d' ∈ (q.after call).deliveries, d'.id = d.id ∧ Ends q log call d d' := by
  intro fenced
  have reached : (gatewayQueue.recording attemptEvents).Reachable
      (InheritedMark.queue, GatewayQueue.empty.shown attemptEvents InheritedMark.reclaimed) :=
    (recorded_queue (recorded_emptyQueue (fun _ _ => True) attemptEvents)
      InheritedMark.reclaimed (by decide +kernel)).recording_of_restrict
  obtain ⟨d', mem, -, ends⟩ := (fenced _ _ reached).2 InheritedMark.third InheritedMark.second
    (by decide +kernel) rfl
  have again : ∀ d' ∈ (InheritedMark.queue.after InheritedMark.third).deliveries,
      d'.state = .delivering ∧ d'.claimOwner = some "third" := by decide +kernel
  have unmarked : markedSafe (GatewayQueue.empty.shown attemptEvents InheritedMark.reclaimed)
      InheritedMark.second.id = false := by decide +kernel
  cases ends with
  | kept state owner expiry =>
      exact absurd ((again d' mem).2.symm.trans owner) (by decide +kernel)
  | presented presents held => cases presents
  | lapsed is lapsed unknown =>
      exact absurd ((again d' mem).1.symm.trans (unknown unmarked)) (by decide)

end Codrik.Runtime.Sqlite

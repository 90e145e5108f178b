import Codrik.Runtime.Sqlite.GatewayQueue

/-! What the operations on the delivery queue do to its rows, and the order deliveries leave
it in: when a queue can always go on, and when it keeps the turns of an address.
-/

namespace Codrik.Runtime.Sqlite

open Codrik.Relational
open Codrik.Transition

variable {q q' : GatewayQueue}

-----------------------------------------------------------------------------------------
-- Rows
-----------------------------------------------------------------------------------------

/-- The rows a call may add. -/
def QueueCall.arrivals : QueueCall → List QueuedDelivery
  | .projectToGateway entry route ids now =>
      chunkRows entry route ids now 0 (gatewayPayloads entry.payloadJson route)
  | .enqueueGatewayDelivery delivery id now => [newDelivery id delivery now]
  | _ => []

/-- A delivery after a claim was made. -/
def GatewayQueue.afterClaim (q : GatewayQueue) (gateway owner : String)
    (now claimUntil : Timestamp) (limit : Nat) (delivery : QueuedDelivery)
    : QueuedDelivery :=
  let settled := if delivery.Lapsed gateway now then delivery.lapse now else delivery
  if settled.id ∈ (q.lapse gateway now).selected gateway now limit then
    settled.begin owner claimUntil
  else
    settled

/-- A delivery that is not selected is settled at most. -/
theorem GatewayQueue.afterClaim_free {gateway owner : String} {now claimUntil : Timestamp}
    {limit : Nat} {d : QueuedDelivery}
    (free : d.id ∉ (q.lapse gateway now).selected gateway now limit)
    : q.afterClaim gateway owner now claimUntil limit d
      = if d.Lapsed gateway now then d.lapse now else d := by
  unfold GatewayQueue.afterClaim
  by_cases lapsed : d.Lapsed gateway now
  · simp only [if_pos lapsed]
    exact if_neg free
  · simp only [if_neg lapsed]
    exact if_neg free

/-- The attempt of a selected delivery begins. -/
theorem GatewayQueue.afterClaim_chosen {gateway owner : String} {now claimUntil : Timestamp}
    {limit : Nat} {d : QueuedDelivery}
    (chosen : d.id ∈ (q.lapse gateway now).selected gateway now limit)
    : q.afterClaim gateway owner now claimUntil limit d
      = (if d.Lapsed gateway now then d.lapse now else d).begin owner claimUntil := by
  unfold GatewayQueue.afterClaim
  by_cases lapsed : d.Lapsed gateway now
  · simp only [if_pos lapsed]
    exact if_pos chosen
  · simp only [if_neg lapsed]
    exact if_pos chosen

/-- What a call makes of a delivery. -/
def GatewayQueue.revise (q : GatewayQueue) : QueueCall → QueuedDelivery → QueuedDelivery
  | .claimGatewayDeliveries gateway owner now claimUntil limit, delivery =>
      q.afterClaim gateway owner now claimUntil limit delivery
  | .renewGatewayDelivery claim claimUntil, delivery =>
      if HeldUnder claim delivery then { delivery with claimExpiresAt := some claimUntil }
      else delivery
  | .completeGatewayDelivery claim remoteMessageId, delivery =>
      if HeldUnder claim delivery then delivery.leave .delivered none none remoteMessageId
      else delivery
  | .retryGatewayDelivery claim nextAttemptAt errorClass error, delivery =>
      if HeldUnder claim delivery then
        delivery.leave .failedRetryable (some nextAttemptAt) (some (errorClass, error)) none
      else delivery
  | .setGatewayDeliveryRetrySafe claim retrySafe, delivery =>
      if HeldUnder claim delivery then { delivery with transportRetrySafe := retrySafe }
      else delivery
  | .failGatewayDelivery claim state errorClass error, delivery =>
      if HeldUnder claim delivery then
        delivery.leave state none (some (errorClass, error)) none
      else delivery
  | _, delivery => delivery

/-- The deliveries a call hands out when it commits. -/
def GatewayQueue.handsOut (q : GatewayQueue) : QueueCall → List GatewayDeliveryId
  | .claimGatewayDeliveries gateway _ now _ limit =>
      (q.lapse gateway now).selected gateway now limit
  | _ => []

/-- What a committed call did to the queue. -/
structure QueueStep (call : QueueCall) (claimed : List ClaimedGatewayDelivery)
    (q q' : GatewayQueue)
    : Prop where
  backward : ∀ after ∈ q'.deliveries,
    (∃ before ∈ q.deliveries, after = q.revise call before) ∨ after ∈ call.arrivals
  forward : ∀ before ∈ q.deliveries, q.revise call before ∈ q'.deliveries
  handedOut : claimed.map (·.claim.id) = q.handsOut call

/-- Rows of one id are one row. -/
theorem GatewayQueue.eq_of_id {a b : QueuedDelivery} (stored : a ∈ q.deliveries)
    (stored' : b ∈ q.deliveries) (same : a.id = b.id)
    : a = b :=
  Table.eq_of_clash stored stored' (Or.inl same)

theorem insertDelivery_ok {row : QueuedDelivery} (inserted : q.insertDelivery row = .ok q')
    : (∀ d ∈ q'.deliveries, d ∈ q.deliveries ∨ d = row)
      ∧ ∀ d ∈ q.deliveries, d ∈ q'.deliveries := by
  unfold GatewayQueue.insertDelivery at inserted
  split at inserted
  · cases inserted
    exact ⟨fun d mem => Or.inl mem, fun d mem => mem⟩
  · simp only [bind_eq_ok, require_eq_ok, execute_eq_ok] at inserted
    obtain ⟨-, -, deliveries, appended, same⟩ := inserted
    cases same
    exact ⟨fun d mem => (Table.mem_insert? appended).mp mem,
      fun d mem => (Table.mem_insert? appended).mpr (Or.inl mem)⟩

/-- The insertions add their rows only, by induction on them. -/
theorem insertDelivery_each_ok {rows : List QueuedDelivery}
    (inserted : q.insertDeliveries rows = .ok q')
    : (∀ d ∈ q'.deliveries, d ∈ q.deliveries ∨ d ∈ rows)
      ∧ ∀ d ∈ q.deliveries, d ∈ q'.deliveries := by
  induction rows generalizing q with
  | nil =>
      cases inserted
      exact ⟨fun d mem => Or.inl mem, fun d mem => mem⟩
  | cons row rows ih =>
      simp only [GatewayQueue.insertDeliveries, bind_eq_ok] at inserted
      obtain ⟨middle, first, rest⟩ := inserted
      obtain ⟨back, forth⟩ := insertDelivery_ok first
      obtain ⟨back', forth'⟩ := ih rest
      constructor
      · intro d mem
        rcases back' d mem with old | new
        · rcases back d old with old | rfl
          · exact Or.inl old
          · exact Or.inr List.mem_cons_self
        · exact Or.inr (List.mem_cons_of_mem row new)
      · intro d mem
        exact forth' d (forth d mem)

/-- The claims of a list of deliveries, by induction on it. -/
theorem claimEachDelivery_ok {owner : String} {expiry : Timestamp}
    {ids : List GatewayDeliveryId} (distinct : ids.Nodup)
    {claimed : List ClaimedGatewayDelivery}
    (done : claimEachDelivery owner expiry ids q = .ok (claimed, q'))
    : claimed.map (·.claim.id) = ids
      ∧ ∀ after, after ∈ q'.deliveries ↔ ∃ before ∈ q.deliveries,
        (if before.id ∈ ids then before.begin owner expiry else before) = after := by
  induction ids generalizing q claimed with
  | nil =>
      cases done
      exact ⟨rfl, fun after => by simp⟩
  | cons id ids ih =>
      simp only [claimEachDelivery, bind_eq_ok] at done
      obtain ⟨first, loaded, ⟨others, last⟩, rest, same⟩ := done
      cases same
      obtain ⟨new, distinct⟩ := List.nodup_cons.mp distinct
      obtain ⟨sameIds, rows⟩ := ih distinct rest
      have firstId : first.claim.id = id := by
        unfold loadClaimed at loaded
        split at loaded <;> cases loaded
        rfl
      refine ⟨by rw [List.map_cons, firstId, sameIds], fun after => ?_⟩
      rw [rows]
      simp only [Table.mem_updateWhere, List.mem_cons]
      constructor
      · rintro ⟨middle, ⟨before, stored, rfl⟩, rfl⟩
        refine ⟨before, stored, ?_⟩
        by_cases head : before.id = id
        · simp [head, new, QueuedDelivery.begin]
        · simp [head]
      · rintro ⟨before, stored, rfl⟩
        refine ⟨_, ⟨before, stored, rfl⟩, ?_⟩
        by_cases head : before.id = id
        · simp [head, new, QueuedDelivery.begin]
        · simp [head]

/-- The loop finds every delivery that is stored, by induction on the list. -/
theorem claimEachDelivery_total (owner : String) (expiry : Timestamp)
    {ids : List GatewayDeliveryId}
    (stored : ∀ id ∈ ids, ∃ delivery ∈ q.deliveries, delivery.id = id)
    : ∃ claimed q', claimEachDelivery owner expiry ids q = .ok (claimed, q') := by
  induction ids generalizing q with
  | nil => exact ⟨[], q, rfl⟩
  | cons id ids ih =>
      let next : GatewayQueue := { q with
        deliveries := q.deliveries.updateWhere (·.id = id) (·.begin owner expiry) }
      have kept : ∀ other ∈ id :: ids, ∃ delivery ∈ next.deliveries, delivery.id = other := by
        intro other listed
        obtain ⟨delivery, mem, same⟩ := stored other listed
        refine ⟨_, Table.updateWhere_mem mem, ?_⟩
        split
        · exact same
        · exact same
      obtain ⟨claimed, q', rest⟩ := ih (q := next)
        (fun other listed => kept other (List.mem_cons_of_mem id listed))
      obtain ⟨delivery, mem, same⟩ := kept id List.mem_cons_self
      have found : next.deliveries.find? (·.id = id) = some delivery :=
        Table.find?_eq_some_of_unique mem same
          (fun a stored sameId => GatewayQueue.eq_of_id stored mem (sameId.trans same.symm))
      have loaded : ∃ first, loadClaimed id owner expiry next = .ok first := by
        unfold loadClaimed
        rw [found]
        exact ⟨_, rfl⟩
      obtain ⟨first, loaded⟩ := loaded
      refine ⟨first :: claimed, q', ?_⟩
      simp only [claimEachDelivery, bind_eq_ok]
      exact ⟨first, loaded, ⟨claimed, q'⟩, rest, rfl⟩

/-- No delivery is selected twice. -/
theorem GatewayQueue.nodup_selected {gateway : String} {now : Timestamp} {limit : Nat}
    : (q.selected gateway now limit).Nodup := by
  have distinct : ((q.deliveries.selectOrdered (q.Eligible gateway now) (·.place)).take
      limit).Pairwise (fun a b => ¬Constrained.Clash a b) :=
    Table.distinct_selectOrdered.sublist (List.take_sublist _ _)
  exact List.pairwise_map.mpr (distinct.imp (fun apart same => apart (Or.inl same)))

theorem GatewayQueue.mem_selected {gateway : String} {now : Timestamp} {limit : Nat}
    {id : GatewayDeliveryId} (chosen : id ∈ q.selected gateway now limit)
    : ∃ delivery ∈ q.deliveries, q.Eligible gateway now delivery ∧ delivery.id = id := by
  obtain ⟨delivery, taken, same⟩ := List.mem_map.mp chosen
  obtain ⟨stored, eligible⟩ := Table.mem_selectOrdered.mp (List.mem_of_mem_take taken)
  exact ⟨delivery, stored, eligible, same⟩

/-- An update of the row under a claim. -/
theorem GatewayQueue.updateHeld_rows {claim : GatewayDeliveryClaim}
    {f : QueuedDelivery → QueuedDelivery} {keeps : Table.KeepsKey f} {call : QueueCall}
    (revise : ∀ d, q.revise call d = if HeldUnder claim d then f d else d)
    (handsOut : q.handsOut call = [])
    : QueueStep call [] q (q.updateHeld claim f keeps).2 where
  backward after mem := by
    obtain ⟨before, stored, same⟩ := Table.mem_updateWhere.mp mem
    exact Or.inl ⟨before, stored, by rw [revise, same]⟩
  forward before stored := by
    rw [revise]
    exact Table.updateWhere_mem stored
  handedOut := handsOut.symm

/-- An insertion revises no row. -/
theorem QueueStep.of_insertion {call : QueueCall}
    (rows : (∀ d ∈ q'.deliveries, d ∈ q.deliveries ∨ d ∈ call.arrivals)
      ∧ ∀ d ∈ q.deliveries, d ∈ q'.deliveries)
    (revise : ∀ d, q.revise call d = d) (handsOut : q.handsOut call = [])
    : QueueStep call [] q q' where
  backward after mem := (rows.1 after mem).imp_left (fun stored => ⟨after, stored, (revise after).symm⟩)
  forward before stored := by
    rw [revise]
    exact rows.2 before stored
  handedOut := handsOut.symm

theorem claimGatewayDeliveries_queueStep {gateway owner : String} {now claimUntil : Timestamp}
    {limit : Nat} {claimed : List ClaimedGatewayDelivery}
    (done : claimGatewayDeliveries gateway owner now claimUntil limit q = .ok (claimed, q'))
    : QueueStep (.claimGatewayDeliveries gateway owner now claimUntil limit) claimed q q' := by
  simp only [claimGatewayDeliveries, bind_eq_ok, require_eq_ok] at done
  obtain ⟨-, -, done⟩ := done
  obtain ⟨ids, rows⟩ := claimEachDelivery_ok GatewayQueue.nodup_selected done
  constructor
  · intro after mem
    obtain ⟨settled, lapsed, rfl⟩ := (rows after).mp mem
    obtain ⟨before, stored, rfl⟩ := Table.mem_updateWhere.mp lapsed
    exact Or.inl ⟨before, stored, rfl⟩
  · intro before stored
    exact (rows _).mpr ⟨_, Table.updateWhere_mem stored, rfl⟩
  · exact ids

/-- What each call does to the queue, by cases on the call. -/
theorem perform_queueStep {call : QueueCall} {claimed : List ClaimedGatewayDelivery}
    (performed : call.perform q = .ok (claimed, q'))
    : QueueStep call claimed q q' := by
  cases call with
  | insertOutbox entry =>
      simp only [QueueCall.perform, bind_eq_ok] at performed
      obtain ⟨outbox, -, same⟩ := performed
      cases same
      exact .of_insertion ⟨fun d mem => Or.inl mem, fun d mem => mem⟩ (fun d => rfl) rfl
  | projectToGateway entry route ids now =>
      simp only [QueueCall.perform, bind_eq_ok] at performed
      obtain ⟨next, projected, same⟩ := performed
      cases same
      exact .of_insertion (insertDelivery_each_ok projected) (fun d => rfl) rfl
  | enqueueGatewayDelivery delivery id now =>
      simp only [QueueCall.perform, enqueueGatewayDelivery, bind_eq_ok] at performed
      obtain ⟨⟨stored, last⟩, ⟨next, inserted, answered⟩, same⟩ := performed
      cases same
      have rows := insertDelivery_ok inserted
      split at answered
      · cases answered
      · simp only [bind_eq_ok] at answered
        obtain ⟨-, -, same⟩ := answered
        cases same
        refine .of_insertion ⟨fun d mem => ?_, rows.2⟩ (fun d => rfl) rfl
        exact (rows.1 d mem).imp_right (fun new => List.mem_singleton.mpr new)
  | claimGatewayDeliveries gateway owner now claimUntil limit =>
      exact claimGatewayDeliveries_queueStep performed
  | renewGatewayDelivery claim claimUntil =>
      cases performed
      exact GatewayQueue.updateHeld_rows (fun d => rfl) rfl
  | completeGatewayDelivery claim remoteMessageId =>
      cases performed
      exact GatewayQueue.updateHeld_rows (fun d => rfl) rfl
  | retryGatewayDelivery claim nextAttemptAt errorClass error =>
      cases performed
      exact GatewayQueue.updateHeld_rows (fun d => rfl) rfl
  | setGatewayDeliveryRetrySafe claim retrySafe =>
      cases performed
      exact GatewayQueue.updateHeld_rows (fun d => rfl) rfl
  | failGatewayDelivery claim state errorClass error =>
      simp only [QueueCall.perform, failGatewayDelivery, bind_eq_ok] at performed
      obtain ⟨⟨changed, last⟩, ⟨-, -, same⟩, same'⟩ := performed
      cases same
      cases same'
      exact GatewayQueue.updateHeld_rows (fun d => rfl) rfl

/-- A call commits or changes nothing. -/
theorem GatewayQueue.after_cases (q : GatewayQueue) (call : QueueCall)
    : (q.after call = q ∧ q.claims call = [] ∧ ∃ error, call.perform q = .error error)
      ∨ (∃ claimed, call.perform q = .ok (claimed, q.after call) ∧ q.claims call = claimed
        ∧ QueueStep call claimed q (q.after call)) := by
  unfold GatewayQueue.after GatewayQueue.claims
  cases performed : call.perform q with
  | error error => exact Or.inl ⟨rfl, rfl, error, rfl⟩
  | ok done => exact Or.inr ⟨done.1, rfl, rfl, perform_queueStep performed⟩

/-- What identifies and places a delivery never changes. -/
structure SameDelivery (before after : QueuedDelivery) : Prop where
  id : after.id = before.id
  sourceOutboxId : after.sourceOutboxId = before.sourceOutboxId
  route : after.route = before.route
  ordinal : after.ordinal = before.ordinal
  createdAt : after.createdAt = before.createdAt

theorem SameDelivery.refl (d : QueuedDelivery) : SameDelivery d d := ⟨rfl, rfl, rfl, rfl, rfl⟩

/-- Settling the claims that have run out keeps each delivery itself. -/
theorem GatewayQueue.mem_lapse {gateway : String} {now : Timestamp} {settled : QueuedDelivery}
    (mem : settled ∈ (q.lapse gateway now).deliveries)
    : ∃ d ∈ q.deliveries, SameDelivery d settled := by
  obtain ⟨d, stored, rfl⟩ := Table.mem_updateWhere.mp mem
  refine ⟨d, stored, ?_⟩
  split
  · exact ⟨rfl, rfl, rfl, rfl, rfl⟩
  · exact .refl d

/-- A delivery stays itself, by cases on the call. -/
theorem GatewayQueue.revise_same (q : GatewayQueue) (call : QueueCall) (d : QueuedDelivery)
    : SameDelivery d (q.revise call d) := by
  cases call <;> simp only [GatewayQueue.revise, GatewayQueue.afterClaim] <;>
    (try split) <;> (try split) <;> exact ⟨rfl, rfl, rfl, rfl, rfl⟩

-----------------------------------------------------------------------------------------
-- Waiting in line
-----------------------------------------------------------------------------------------

/-- The delivery is over. -/
def QueuedDelivery.Finished (d : QueuedDelivery) : Prop :=
  d.state = .delivered ∨ d.state = .failedTerminal ∨ d.state = .outcomeUnknown

instance : DecidablePred QueuedDelivery.Finished :=
  fun _ => inferInstanceAs (Decidable (_ ∨ _))

theorem QueuedDelivery.finished_of (d : QueuedDelivery) (notWaiting : ¬d.Waiting)
    (notActive : d.state ≠ .delivering)
    : d.Finished := by
  unfold QueuedDelivery.Waiting at notWaiting
  unfold QueuedDelivery.Finished
  cases state : d.state <;> simp_all

theorem QueuedDelivery.Waiting.not_finished {d : QueuedDelivery} (waiting : d.Waiting)
    : ¬d.Finished := by
  rintro (ended | ended | ended) <;> rcases waiting with state | state <;>
    exact absurd (ended.symm.trans state) (by decide)

theorem PrecedingChunk.trans {a b c : QueuedDelivery} (first : PrecedingChunk a b)
    (second : PrecedingChunk b c)
    : PrecedingChunk a c :=
  ⟨second.1, first.2.1.trans second.2.1, first.2.2.trans second.2.2⟩

theorem SameAddress.symm {a b : QueuedDelivery} (same : SameAddress a b) : SameAddress b a :=
  ⟨same.1.symm, same.2.symm⟩

theorem SameAddress.trans {a b c : QueuedDelivery} (first : SameAddress a b)
    (second : SameAddress b c)
    : SameAddress a c :=
  ⟨first.1.trans second.1, first.2.trans second.2⟩

/-- `notALaterChunk` holds of deliveries in the order of their ordinals, and of two entries
that are known to differ.
-/
theorem isTrue_notALaterChunk {earlier candidate : QueuedDelivery}
    : (notALaterChunk earlier candidate).IsTrue ↔ earlier.ordinal ≤ candidate.ordinal
      ∨ (earlier.sourceOutboxId ≠ none ∧ candidate.sourceOutboxId ≠ none
        ∧ earlier.sourceOutboxId ≠ candidate.sourceOutboxId) := by
  rw [notALaterChunk, Ternary.isTrue_not_and, Ternary.eq_eq_false, or_comm]
  simp

/-- Two deliveries at one place of the queue are one. -/
theorem GatewayQueue.place_lt {a b : QueuedDelivery} (stored : a ∈ q.deliveries)
    (stored' : b ∈ q.deliveries) (le : a.place ≤ b.place) (apart : a ≠ b)
    : a.place < b.place := by
  refine lt_of_le_of_ne le (fun same => apart ?_)
  have ids : a.id = b.id := congrArg (fun place => (ofLex place).2) same
  exact GatewayQueue.eq_of_id stored stored' ids

/-- A delivery that waits its turn: no chunk before it is lost. -/
def GatewayQueue.InLine (q : GatewayQueue) (d : QueuedDelivery) : Prop :=
  d.Waiting ∧ ¬q.CutOff d

instance (q : GatewayQueue) : DecidablePred q.InLine :=
  fun _ => inferInstanceAs (Decidable (_ ∧ _))

-----------------------------------------------------------------------------------------
-- Progress
-----------------------------------------------------------------------------------------

/-- `other`, a chunk of another entry, is queued behind the chunk `later` and in front of
the chunk `first` of one entry, though `first` comes before `later`.
-/
structure Laced (first later other : QueuedDelivery) : Prop where
  chunks : PrecedingChunk first later
  known : other.sourceOutboxId ≠ none
  foreign : other.sourceOutboxId ≠ first.sourceOutboxId
  address : SameAddress other first
  behind : later.place < other.place
  ahead : other.place < first.place
  unfinished : ¬first.Finished ∧ ¬later.Finished ∧ ¬other.Finished

instance (first later other : QueuedDelivery) : Decidable (Laced first later other) :=
  decidable_of_iff
    (PrecedingChunk first later ∧ other.sourceOutboxId ≠ none
      ∧ other.sourceOutboxId ≠ first.sourceOutboxId ∧ SameAddress other first
      ∧ later.place < other.place ∧ other.place < first.place
      ∧ ¬first.Finished ∧ ¬later.Finished ∧ ¬other.Finished)
    ⟨fun ⟨a, b, c, d, e, f, g⟩ => ⟨a, b, c, d, e, f, g⟩,
      fun ⟨a, b, c, d, e, f, g⟩ => ⟨a, b, c, d, e, f, g⟩⟩

/-- The chunks of an entry share an address, and none are laced. -/
structure Orderly (rows : List QueuedDelivery) : Prop where
  oneAddress : ∀ a ∈ rows, ∀ b ∈ rows, PrecedingChunk a b → SameAddress a b
  unlaced : ∀ a ∈ rows, ∀ b ∈ rows, ∀ c ∈ rows, ¬Laced a b c

instance : DecidablePred Orderly := fun rows =>
  decidable_of_iff
    ((∀ a ∈ rows, ∀ b ∈ rows, PrecedingChunk a b → SameAddress a b)
      ∧ ∀ a ∈ rows, ∀ b ∈ rows, ∀ c ∈ rows, ¬Laced a b c)
    ⟨fun ⟨a, b⟩ => ⟨a, b⟩, fun ⟨a, b⟩ => ⟨a, b⟩⟩

/-- The first chunk of the entry of `d` that is not delivered waits in line, when `d` does
and nothing is on its way to the address.
-/
theorem GatewayQueue.InLine.head {d : QueuedDelivery} (orderly : Orderly q.deliveries.rows)
    (stored : d ∈ q.deliveries) (inLine : q.InLine d)
    (idle : ∀ a ∈ q.deliveries, SameAddress a d → a.state ≠ .delivering)
    (behind : ∃ chunk ∈ q.deliveries, PrecedingChunk chunk d ∧ chunk.state ≠ .delivered)
    : ∃ head ∈ q.deliveries, q.InLine head ∧ PrecedingChunk head d ∧ SameAddress head d
      ∧ ∀ chunk ∈ q.deliveries, PrecedingChunk chunk head → chunk.state = .delivered := by
  obtain ⟨chunk, chunkStored, precedes, undelivered⟩ := behind
  obtain ⟨head, found⟩ : ∃ head, q.deliveries.first?
      (fun chunk => PrecedingChunk chunk d ∧ chunk.state ≠ .delivered) (·.ordinal) = some head :=
    Table.first?_isSome chunkStored ⟨precedes, undelivered⟩
  obtain ⟨headStored, before, notDelivered⟩ := Table.mem_of_first? found
  have address : SameAddress head d := orderly.oneAddress head headStored d stored before
  have notCut : ¬q.CutOff head := by
    rintro ⟨lost, lostStored, lostBefore, failed⟩
    exact inLine.2 ⟨lost, lostStored, lostBefore.trans before, failed⟩
  have waiting : head.Waiting := by
    by_contra notWaiting
    rcases head.finished_of notWaiting (idle head headStored address) with ended | ended | ended
    · exact notDelivered ended
    · exact inLine.2 ⟨head, headStored, before, Or.inl ended⟩
    · exact inLine.2 ⟨head, headStored, before, Or.inr ended⟩
  refine ⟨head, headStored, ⟨waiting, notCut⟩, before, address, ?_⟩
  intro lost lostStored lostBefore
  by_contra pending
  have least : head.ordinal ≤ lost.ordinal :=
    Table.first?_le found lostStored ⟨lostBefore.trans before, pending⟩
  exact absurd lostBefore.2.2 (not_lt.mpr least)

/-- What may hold back the first chunk of an entry whose later chunk stands first in line
is a response of the gateway.
-/
theorem Orderly.response_of_heldBack {first head earlier : QueuedDelivery}
    (orderly : Orderly q.deliveries.rows) (firstStored : first ∈ q.deliveries)
    (firstInLine : q.InLine first) (headStored : head ∈ q.deliveries)
    (headInLine : q.InLine head) (before : PrecedingChunk head first)
    (address : SameAddress head first)
    (delivered : ∀ chunk ∈ q.deliveries, PrecedingChunk chunk head → chunk.state = .delivered)
    (least : ∀ d ∈ q.deliveries, q.InLine d → SameAddress d first → first.place ≤ d.place)
    (earlierStored : earlier ∈ q.deliveries) (holds : q.HeldBackBy head earlier)
    : earlier.sourceOutboxId = none ∧ earlier.ordinal ≤ head.ordinal := by
  obtain ⟨sameAddress, waiting, ahead, notLater, notCut⟩ := holds
  have known : head.sourceOutboxId ≠ none := before.2.1 ▸ before.1
  have foreign (named : earlier.sourceOutboxId ≠ none)
      : earlier.sourceOutboxId = head.sourceOutboxId := by
    by_contra differs
    have apart : first ≠ earlier := by
      rintro rfl
      exact differs before.2.1.symm
    have behind : first.place < earlier.place :=
      GatewayQueue.place_lt firstStored earlierStored
        (least earlier earlierStored ⟨waiting, notCut⟩ (sameAddress.trans address)) apart
    exact orderly.unlaced head headStored first firstStored earlier earlierStored
      { chunks := before, known := named, foreign := differs, address := sameAddress,
        behind := behind, ahead := ahead,
        unfinished := ⟨headInLine.1.not_finished, firstInLine.1.not_finished,
          waiting.not_finished⟩ }
  rcases isTrue_notALaterChunk.mp notLater with ordered | ⟨named, -, differs⟩
  · refine ⟨?_, ordered⟩
    by_contra named
    have source := foreign named
    rcases lt_or_eq_of_le ordered with precedes | same
    · have done := delivered earlier earlierStored ⟨known, source, precedes⟩
      exact waiting.not_finished (Or.inl done)
    · have one : earlier = head := Table.eq_of_clash earlierStored headStored
        (Or.inr (Or.inr ⟨named, source, sameAddress.1, sameAddress.2, same⟩))
      exact absurd ahead (one ▸ lt_irrefl _)
  · exact absurd (foreign named) differs

/-- Some delivery of an idle address may be claimed once all of its waiting times are over,
if any waits in line.
-/
theorem Orderly.exists_eligible {now : Timestamp} {d : QueuedDelivery}
    (orderly : Orderly q.deliveries.rows) (stored : d ∈ q.deliveries) (inLine : q.InLine d)
    (idle : ∀ a ∈ q.deliveries, SameAddress a d → a.state ≠ .delivering)
    (due : ∀ a ∈ q.deliveries, ∀ time ∈ a.nextAttemptAt, time ≤ now)
    : ∃ candidate ∈ q.deliveries, SameAddress candidate d
      ∧ q.Eligible d.route.gateway now candidate := by
  obtain ⟨first, found⟩ : ∃ first, q.deliveries.first?
      (fun a => q.InLine a ∧ SameAddress a d) (·.place) = some first :=
    Table.first?_isSome stored ⟨inLine, rfl, rfl⟩
  obtain ⟨firstStored, firstInLine, firstAddress⟩ := Table.mem_of_first? found
  have least : ∀ a ∈ q.deliveries, q.InLine a → SameAddress a first → first.place ≤ a.place :=
    fun a mem line same => Table.first?_le found mem ⟨line, same.trans firstAddress⟩
  have eligible (c : QueuedDelivery) (mem : c ∈ q.deliveries) (waiting : c.Waiting)
      (address : SameAddress c d)
      (front : ¬∃ earlier ∈ q.deliveries, q.HeldBackBy c earlier)
      (inOrder : ¬∃ chunk ∈ q.deliveries, PrecedingChunk chunk c ∧ chunk.state ≠ .delivered)
      : ∃ candidate ∈ q.deliveries, SameAddress candidate d
        ∧ q.Eligible d.route.gateway now candidate :=
    ⟨c, mem, address, address.1, waiting, due c mem, front, inOrder,
      fun ⟨active, activeStored, same, busy⟩ =>
        idle active activeStored (same.trans address) busy⟩
  by_cases behind : ∃ chunk ∈ q.deliveries, PrecedingChunk chunk first ∧ chunk.state ≠ .delivered
  · obtain ⟨head, headStored, headInLine, before, headAddress, delivered⟩ :=
      firstInLine.head orderly firstStored
        (fun a mem same => idle a mem (same.trans firstAddress)) behind
    by_cases held : ∃ earlier ∈ q.deliveries, q.HeldBackBy head earlier
    · -- The first response that holds back the head is held back by nothing itself.
      obtain ⟨earlier, earlierStored, holds⟩ := held
      obtain ⟨response, found'⟩ : ∃ response,
          q.deliveries.first? (q.HeldBackBy head) (·.place) = some response :=
        Table.first?_isSome earlierStored holds
      obtain ⟨responseStored, holds⟩ := Table.mem_of_first? found'
      obtain ⟨unnamed, ordinal⟩ := orderly.response_of_heldBack firstStored firstInLine
        headStored headInLine before headAddress delivered least responseStored holds
      refine eligible response responseStored holds.2.1
        (holds.1.trans (headAddress.trans firstAddress)) ?_ ?_
      · rintro ⟨other, otherStored, address, waiting, ahead, notLater, notCut⟩
        have ordered : other.ordinal ≤ response.ordinal := by
          rcases isTrue_notALaterChunk.mp notLater with ordered | ⟨-, named, -⟩
          · exact ordered
          · exact absurd unnamed named
        have holdsToo : q.HeldBackBy head other :=
          ⟨address.trans holds.1, waiting, ahead.trans holds.2.2.1,
            isTrue_notALaterChunk.mpr (Or.inl (ordered.trans ordinal)), notCut⟩
        exact absurd ahead (not_lt.mpr (Table.first?_le found' otherStored holdsToo))
      · rintro ⟨chunk, -, precedes, -⟩
        exact precedes.1 unnamed
    · exact eligible head headStored headInLine.1 (headAddress.trans firstAddress) held
        (fun ⟨chunk, mem, precedes, pending⟩ => pending (delivered chunk mem precedes))
  · refine eligible first firstStored firstInLine.1 firstAddress ?_ behind
    rintro ⟨earlier, earlierStored, address, waiting, ahead, -, notCut⟩
    exact absurd ahead (not_lt.mpr (least earlier earlierStored ⟨waiting, notCut⟩ address))

/-- What is inserted leaves the queue orderly. -/
def KeepsOrder (q : GatewayQueue) (call : QueueCall) : Prop :=
  Orderly (q.deliveries.rows ++ call.arrivals)

instance (q : GatewayQueue) : DecidablePred (KeepsOrder q) :=
  fun _ => inferInstanceAs (Decidable (Orderly _))

/-- A finished delivery stays finished. -/
theorem GatewayQueue.revise_finished {call : QueueCall} {d : QueuedDelivery}
    (stored : d ∈ q.deliveries) (ended : d.Finished)
    : (q.revise call d).state = d.state := by
  have free : d.state ≠ .delivering := by
    rcases ended with state | state | state <;> rw [state] <;> decide
  have notHeld (claim : GatewayDeliveryClaim) : ¬HeldUnder claim d := fun held => free held.2.1
  cases call with
  | claimGatewayDeliveries gateway owner now claimUntil limit =>
      have notLapsed : ¬d.Lapsed gateway now := fun lapsed => free lapsed.2.1
      simp only [GatewayQueue.revise, GatewayQueue.afterClaim, if_neg notLapsed]
      split
      · rename_i chosen
        obtain ⟨other, otherStored, eligible, same⟩ := GatewayQueue.mem_selected chosen
        have kept : d ∈ (q.lapse gateway now).deliveries :=
          Table.updateWhere_mem_of_not stored notLapsed
        have one : other = d := GatewayQueue.eq_of_id otherStored kept same
        exact absurd ended (one ▸ eligible.waiting.not_finished)
      · rfl
  | renewGatewayDelivery claim claimUntil =>
      simp only [GatewayQueue.revise, if_neg (notHeld claim)]
  | completeGatewayDelivery claim remoteMessageId =>
      simp only [GatewayQueue.revise, if_neg (notHeld claim)]
  | retryGatewayDelivery claim nextAttemptAt errorClass error =>
      simp only [GatewayQueue.revise, if_neg (notHeld claim)]
  | setGatewayDeliveryRetrySafe claim retrySafe =>
      simp only [GatewayQueue.revise, if_neg (notHeld claim)]
  | failGatewayDelivery claim state errorClass error =>
      simp only [GatewayQueue.revise, if_neg (notHeld claim)]
  | insertOutbox entry => rfl
  | projectToGateway entry route ids now => rfl
  | enqueueGatewayDelivery delivery id now => rfl

/-- The order of a list of rows carries over to rows that stand for some of them. -/
theorem Orderly.transfer {rows rows' : List QueuedDelivery} (orderly : Orderly rows)
    (stands : ∀ after ∈ rows', ∃ before ∈ rows, SameDelivery before after
      ∧ (before.Finished → after.Finished))
    : Orderly rows' := by
  have chunks {a b a' b' : QueuedDelivery} (same : SameDelivery a a')
      (same' : SameDelivery b b') (precedes : PrecedingChunk a' b') : PrecedingChunk a b := by
    obtain ⟨known, source, ordinal⟩ := precedes
    rw [same'.sourceOutboxId] at known source
    rw [same.sourceOutboxId] at source
    rw [same.ordinal, same'.ordinal] at ordinal
    exact ⟨known, source, ordinal⟩
  have place {a a' : QueuedDelivery} (same : SameDelivery a a') : a'.place = a.place := by
    rw [QueuedDelivery.place, QueuedDelivery.place, same.createdAt, same.id]
  constructor
  · intro a' mem b' mem' precedes
    obtain ⟨a, stored, same, -⟩ := stands a' mem
    obtain ⟨b, stored', same', -⟩ := stands b' mem'
    have address := orderly.oneAddress a stored b stored' (chunks same same' precedes)
    rw [SameAddress, same.route, same'.route]
    exact address
  · intro a' memA b' memB c' memC laced
    obtain ⟨a, storedA, sameA, overA⟩ := stands a' memA
    obtain ⟨b, storedB, sameB, overB⟩ := stands b' memB
    obtain ⟨c, storedC, sameC, overC⟩ := stands c' memC
    refine orderly.unlaced a storedA b storedB c storedC ?_
    have behind := laced.behind
    have ahead := laced.ahead
    have known := laced.known
    have foreign := laced.foreign
    have address := laced.address
    rw [place sameB, place sameC] at behind
    rw [place sameC, place sameA] at ahead
    rw [sameC.sourceOutboxId] at known foreign
    rw [sameA.sourceOutboxId] at foreign
    rw [SameAddress, sameC.route, sameA.route] at address
    exact { chunks := chunks sameA sameB laced.chunks, known := known, foreign := foreign,
            address := address, behind := behind, ahead := ahead,
            unfinished := ⟨fun ended => laced.unfinished.1 (overA ended),
              fun ended => laced.unfinished.2.1 (overB ended),
              fun ended => laced.unfinished.2.2 (overC ended)⟩ }

/-- A revised delivery stands for the one it was. -/
theorem GatewayQueue.revise_stands {call : QueueCall} {d : QueuedDelivery}
    (stored : d ∈ q.deliveries)
    : SameDelivery d (q.revise call d) ∧ (d.Finished → (q.revise call d).Finished) := by
  refine ⟨q.revise_same call d, fun ended => ?_⟩
  unfold QueuedDelivery.Finished
  rw [GatewayQueue.revise_finished stored ended]
  exact ended

/-- Every queue whose insertions keep the order is orderly, by induction on its history. -/
theorem reachable_orderly (reached : (gatewayQueue.restrict KeepsOrder).Reachable q)
    : Orderly q.deliveries.rows := by
  refine System.Reachable.invariant (J := fun q => Orderly q.deliveries.rows) ?_ ?_ reached
  · rintro q rfl
    exact ⟨fun a mem => absurd mem List.not_mem_nil, fun a mem => absurd mem List.not_mem_nil⟩
  · rintro q call q' - orderly ⟨keeps, rfl⟩
    rcases q.after_cases call with ⟨same, -⟩ | ⟨claimed, -, -, advances⟩
    · rw [same]
      exact orderly
    · refine keeps.transfer (fun after mem => ?_)
      rcases advances.backward after mem with ⟨before, stored, rfl⟩ | new
      · exact ⟨before, List.mem_append_left _ stored, GatewayQueue.revise_stands stored⟩
      · exact ⟨after, List.mem_append_right _ new, .refl after, fun ended => ended⟩

/-- The claims that run out on a gateway leave an idle address as it is. -/
theorem Orderly.lapse (gateway : String) (now : Timestamp) {d : QueuedDelivery}
    (orderly : Orderly q.deliveries.rows) (stored : d ∈ q.deliveries) (inLine : q.InLine d)
    (idle : ∀ a ∈ q.deliveries, SameAddress a d → a.state ≠ .delivering)
    : Orderly (q.lapse gateway now).deliveries.rows ∧ d ∈ (q.lapse gateway now).deliveries
      ∧ (q.lapse gateway now).InLine d
      ∧ ∀ a ∈ (q.lapse gateway now).deliveries, SameAddress a d →
        a.state ≠ .delivering ∧ a ∈ q.deliveries := by
  have kept {a : QueuedDelivery} (mem : a ∈ (q.lapse gateway now).deliveries)
      (address : SameAddress a d) : a.state ≠ .delivering ∧ a ∈ q.deliveries := by
    obtain ⟨before, stored, rfl⟩ := Table.mem_updateWhere.mp mem
    split at address
    · rename_i lapsed
      exact absurd lapsed.2.1 (idle before stored address)
    · rename_i notLapsed
      rw [if_neg notLapsed]
      exact ⟨idle before stored address, stored⟩
  have notLapsed : ¬d.Lapsed gateway now := fun lapsed => idle d stored ⟨rfl, rfl⟩ lapsed.2.1
  refine ⟨?_, Table.updateWhere_mem_of_not stored notLapsed, ⟨inLine.1, ?_⟩, fun a => kept⟩
  · refine orderly.transfer (fun after mem => ?_)
    obtain ⟨before, stored, rfl⟩ := Table.mem_updateWhere.mp mem
    refine ⟨before, stored, ?_, ?_⟩
    · split
      · exact ⟨rfl, rfl, rfl, rfl, rfl⟩
      · exact .refl before
    · intro ended
      split
      · rename_i lapsed
        rcases ended with state | state | state <;>
          exact absurd (lapsed.2.1.symm.trans state) (by decide)
      · exact ended
  · rintro ⟨chunk, mem, precedes, failed⟩
    obtain ⟨before, stored', sameDelivery⟩ := GatewayQueue.mem_lapse mem
    have address : SameAddress before d := by
      refine orderly.oneAddress before stored' d stored ⟨precedes.1, ?_, ?_⟩
      · rw [← sameDelivery.sourceOutboxId]
        exact precedes.2.1
      · rw [← sameDelivery.ordinal]
        exact precedes.2.2
    rw [SameAddress, ← sameDelivery.route] at address
    exact inLine.2 ⟨chunk, (kept mem address).2, precedes, failed⟩

/-- A claim hands out each delivery it selects. -/
theorem claims_of_eligible {gateway owner : String} {now claimUntil : Timestamp} {limit : Nat}
    {candidate : QueuedDelivery} (named : isBlank gateway = false) (owned : isBlank owner = false)
    (ahead : claimUntil > now) (enough : q.deliveries.rows.length ≤ limit)
    (stored : candidate ∈ (q.lapse gateway now).deliveries)
    (eligible : (q.lapse gateway now).Eligible gateway now candidate)
    : candidate.id ∈ (q.claims (.claimGatewayDeliveries gateway owner now claimUntil limit)).map
      (·.claim.id) := by
  have size : (q.lapse gateway now).deliveries.rows.length = q.deliveries.rows.length :=
    Table.length_updateWhere
  have room : limit ≠ 0 := by
    have positive : 0 < (q.lapse gateway now).deliveries.rows.length :=
      List.length_pos_of_mem stored
    omega
  have chosen : candidate.id ∈ (q.lapse gateway now).selected gateway now limit := by
    refine List.mem_map.mpr ⟨candidate, ?_, rfl⟩
    rw [List.take_of_length_le]
    · exact Table.mem_selectOrdered.mpr ⟨stored, eligible⟩
    · have fewer := (q.lapse gateway now).deliveries.length_selectOrdered_le
        ((q.lapse gateway now).Eligible gateway now) (·.place)
      omega
  have known : ∀ id ∈ (q.lapse gateway now).selected gateway now limit,
      ∃ delivery ∈ (q.lapse gateway now).deliveries, delivery.id = id := by
    intro id listed
    obtain ⟨delivery, mem, -, same⟩ := GatewayQueue.mem_selected listed
    exact ⟨delivery, mem, same⟩
  obtain ⟨claimed, q', done⟩ := claimEachDelivery_total owner claimUntil known
  have performed : QueueCall.perform (.claimGatewayDeliveries gateway owner now claimUntil limit) q
      = .ok (claimed, q') := by
    simp only [QueueCall.perform, claimGatewayDeliveries, bind_eq_ok, require_eq_ok]
    exact ⟨(), ⟨by simp [named], by simp [owned], ahead, room⟩, done⟩
  have answered : q.claims (.claimGatewayDeliveries gateway owner now claimUntil limit)
      = claimed := by
    rw [GatewayQueue.claims, performed]
  rw [answered, (perform_queueStep performed).handedOut]
  exact chosen

/-- **Queues never deadlock while insertions keep the order.** If nothing is on its way to
an address and some delivery of it waits with no chunk before it lost, then a claim that
reaches far enough, at a time when all waiting is over, hands out a delivery of the address.
-/
theorem gateway_queues_move (reached : (gatewayQueue.restrict KeepsOrder).Reachable q)
    {d : QueuedDelivery} (stored : d ∈ q.deliveries) (waiting : d.Waiting)
    (notCut : ¬q.CutOff d)
    (idle : ∀ a ∈ q.deliveries, SameAddress a d → a.state ≠ .delivering)
    {owner : String} {now claimUntil : Timestamp} {limit : Nat}
    (owned : isBlank owner = false) (ahead : claimUntil > now)
    (due : ∀ a ∈ q.deliveries, ∀ time ∈ a.nextAttemptAt, time ≤ now)
    (enough : q.deliveries.rows.length ≤ limit)
    : ∃ claimed ∈ q.claims (.claimGatewayDeliveries d.route.gateway owner now claimUntil limit),
      ∃ delivery ∈ q.deliveries, delivery.id = claimed.claim.id ∧ SameAddress delivery d := by
  obtain ⟨orderly, stored', inLine, kept⟩ :=
    (reachable_orderly reached).lapse d.route.gateway now stored ⟨waiting, notCut⟩ idle
  have due' : ∀ a ∈ (q.lapse d.route.gateway now).deliveries,
      ∀ time ∈ a.nextAttemptAt, time ≤ now := by
    intro a mem time known
    obtain ⟨before, stored, rfl⟩ := Table.mem_updateWhere.mp mem
    split at known
    · simp only [QueuedDelivery.lapse] at known
      split at known
      · cases known
        exact le_refl now
      · exact due before stored time known
    · exact due before stored time known
  obtain ⟨candidate, mem, address, eligible⟩ := orderly.exists_eligible stored' inLine
    (fun a mem same => (kept a mem same).1) due'
  have chosen := claims_of_eligible d.route.gatewayNamed owned ahead enough mem eligible
  obtain ⟨claimed, listed, same⟩ := List.mem_map.mp chosen
  exact ⟨claimed, listed, candidate, (kept candidate mem address).2, same.symm, address⟩

namespace InterlockedChunks

theorem telegram_named : isBlank "telegram" = false := by
  decide

/-- A chat that takes one character at a time. -/
def chat : DeliveryRoute :=
  ⟨"telegram", "7", none, 1, 2048, telegram_named, by decide, by decide, by decide⟩

/-- An entry of the outbox. -/
def entry (n : Nat) (text : String) : OutboxRow where
  id := ⟨n⟩
  intentKey := .final ⟨n⟩
  actorId := ⟨"local-owner"⟩
  workItemId := ⟨n⟩
  runId := ⟨n⟩
  intentClass := "interactive_reply"
  audience := .actorPrivate
  payloadJson := .text text

/-- Two entries of one finalization: the chunks of the first are numbered 3 and 1, the only
chunk of the second one is number 2.
-/
def calls : List QueueCall :=
  [.insertOutbox (entry 1 "ab"), .insertOutbox (entry 2 "c"),
    .projectToGateway (entry 1 "ab") chat (fun ordinal => if ordinal = 0 then ⟨3⟩ else ⟨1⟩) 5,
    .projectToGateway (entry 2 "c") chat (fun _ => ⟨2⟩) 5]

/-- The same entries with the chunks of the first one numbered as they are counted. -/
def orderlyCalls : List QueueCall :=
  [.insertOutbox (entry 1 "ab"), .insertOutbox (entry 2 "c"),
    .projectToGateway (entry 1 "ab") chat (fun ordinal => ⟨ordinal + 1⟩) 5,
    .projectToGateway (entry 2 "c") chat (fun _ => ⟨3⟩) 5]

/-- The first chunk of the first entry, in the orderly queue. -/
def head : QueuedDelivery :=
  newDelivery ⟨1⟩ (chunkDelivery (entry 1 "ab") chat 0 (.text "a")) 5

end InterlockedChunks

theorem gateway_queues_move_orderly
    : ∃ claimed ∈ (GatewayQueue.empty.play InterlockedChunks.orderlyCalls).claims
        (.claimGatewayDeliveries InterlockedChunks.head.route.gateway "worker" 6 36 10),
      ∃ delivery ∈ (GatewayQueue.empty.play InterlockedChunks.orderlyCalls).deliveries,
        delivery.id = claimed.claim.id ∧ SameAddress delivery InterlockedChunks.head :=
  gateway_queues_move
    (reachable_queue (reachable_emptyQueue KeepsOrder) InterlockedChunks.orderlyCalls
      (by decide +kernel))
    (d := InterlockedChunks.head) (by decide +kernel) (by decide +kernel) (by decide +kernel)
    (by decide +kernel) (by decide +kernel) (by decide +kernel) (by decide +kernel)
    (by decide +kernel)

/-- With interlocked numbers no delivery of the address can be claimed any more, though
nothing is on its way and nothing has failed.
-/
theorem laced_entries_deadlock
    : ¬∀ q : GatewayQueue, gatewayQueue.Reachable q → ∀ d ∈ q.deliveries, d.Waiting →
      ¬q.CutOff d → (∀ a ∈ q.deliveries, SameAddress a d → a.state ≠ .delivering) →
      ∀ owner now claimUntil limit, isBlank owner = false → claimUntil > now →
      (∀ a ∈ q.deliveries, ∀ time ∈ a.nextAttemptAt, time ≤ now) →
      q.deliveries.rows.length ≤ limit →
      ∃ claimed ∈ q.claims (.claimGatewayDeliveries d.route.gateway owner now claimUntil limit),
        ∃ delivery ∈ q.deliveries, delivery.id = claimed.claim.id ∧ SameAddress delivery d := by
  intro moves
  have reached : gatewayQueue.Reachable (GatewayQueue.empty.play InterlockedChunks.calls) :=
    (reachable_queue (reachable_emptyQueue (fun _ _ => True)) InterlockedChunks.calls
      (by decide +kernel)).of_restrict
  obtain ⟨claimed, listed, -⟩ := moves _ reached
    (newDelivery ⟨2⟩ (chunkDelivery (InterlockedChunks.entry 2 "c") InterlockedChunks.chat 0 (.text "c")) 5)
    (by decide +kernel) (by decide +kernel) (by decide +kernel) (by decide +kernel)
    "worker" 6 36 10 (by decide +kernel) (by decide +kernel) (by decide +kernel)
    (by decide +kernel)
  have none : (GatewayQueue.empty.play InterlockedChunks.calls).claims
      (.claimGatewayDeliveries "telegram" "worker" 6 36 10) = [] := by decide +kernel
  rw [show (newDelivery ⟨2⟩ (chunkDelivery (InterlockedChunks.entry 2 "c") InterlockedChunks.chat 0 (.text "c"))
    5).route.gateway = "telegram" from rfl, none] at listed
  exact List.not_mem_nil listed

end Codrik.Runtime.Sqlite

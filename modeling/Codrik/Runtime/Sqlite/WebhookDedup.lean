import Codrik.Runtime.Sqlite.Effects
import Codrik.Runtime.Sqlite.World

/-! Deduplication of webhooks: the receipts, however many of the expired ones have been
collected, answer like the list of all calls accepted so far.
-/

namespace Codrik.Runtime.Sqlite

open Codrik.Relational

-----------------------------------------------------------------------------------------
-- Sequences of calls
-----------------------------------------------------------------------------------------

/-- The arguments of one `ingest_webhook`. -/
structure WebhookCall where
  event : NewWebhookEvent
  now : Timestamp
  ids : FreshIds

/-- A call with its answer. -/
structure AnsweredWebhook where
  call : WebhookCall
  answer : Except StoreError WebhookIngressOutcome

/-- Which receipts are deleted at the start of a call. -/
abbrev ReceiptCollector := Store → Timestamp → List ReceiptRow

/-- Receipts are never deleted. -/
def keepReceipts : ReceiptCollector := fun _ _ => []

/-- The receipts a call looks at. -/
def WebhookCall.receipts (collect : ReceiptCollector) (call : WebhookCall) (s : Store)
    : Table ReceiptRow :=
  let expired := collect s call.now
  s.webhookReceipts.deleteWhere (· ∈ expired)

/-- `ingest_webhook` with its collection exchanged. -/
def WebhookCall.perform (collect : ReceiptCollector) (call : WebhookCall) (s : Store)
    : Except StoreError (WebhookIngressOutcome × Store) :=
  acceptWebhook (call.receipts collect s) call.event call.now call.ids s

/-- A store and the calls answered so far, newest first. -/
structure WebhookHistory where
  store : Store
  answered : List AnsweredWebhook

/-- One more call; a failed one is rolled back. -/
def WebhookHistory.next (collect : ReceiptCollector) (history : WebhookHistory)
    (call : WebhookCall)
    : WebhookHistory :=
  match call.perform collect history.store with
  | .ok (outcome, s) => ⟨s, ⟨call, .ok outcome⟩ :: history.answered⟩
  | .error error => ⟨history.store, ⟨call, .error error⟩ :: history.answered⟩

theorem WebhookHistory.next_ok {collect : ReceiptCollector} {history : WebhookHistory}
    {call : WebhookCall} {outcome : WebhookIngressOutcome} {s : Store}
    (done : call.perform collect history.store = .ok (outcome, s))
    : history.next collect call = ⟨s, ⟨call, .ok outcome⟩ :: history.answered⟩ := by
  simp only [WebhookHistory.next, done]

theorem WebhookHistory.next_error {collect : ReceiptCollector} {history : WebhookHistory}
    {call : WebhookCall} {error : StoreError}
    (failed : call.perform collect history.store = .error error)
    : history.next collect call
      = ⟨history.store, ⟨call, .error error⟩ :: history.answered⟩ := by
  simp only [WebhookHistory.next, failed]

/-- A sequence of calls, from a store that has answered none. -/
def webhookHistory (collect : ReceiptCollector) (s : Store) (calls : List WebhookCall)
    : WebhookHistory :=
  calls.foldl (WebhookHistory.next collect) ⟨s, []⟩

/-- The code's collection deletes expired receipts of automatic identities. -/
theorem perform_expiredReceipts (call : WebhookCall) (s : Store)
    : call.perform expiredReceipts s = ingestWebhook call.event call.now call.ids s :=
  rfl

-----------------------------------------------------------------------------------------
-- What the answers should be
-----------------------------------------------------------------------------------------

/-- The call was accepted as the event. -/
def AnsweredWebhook.AcceptedAs (answered : AnsweredWebhook) (eventId : EventId) : Prop :=
  ∃ workItemId sequence snapshotted,
    answered.answer = .ok (.accepted eventId workItemId sequence snapshotted)

/-- An accepted call stands for a later one with the same endpoint and identity: an explicit
one for ever, an automatic one for 24 hours.
-/
structure StandsFor (earlier call : WebhookCall) : Prop where
  endpoint : earlier.event.endpoint = call.event.endpoint
  kind : earlier.event.idempotency.kind = call.event.idempotency.kind
  hash : earlier.event.idempotency.hash = call.event.idempotency.hash
  window : call.event.idempotency.kind = .automatic →
    earlier.now ≥ call.now - automaticDedupWindowMillis

/-- The event of the most recent accepted call that stands for this one. -/
def DuplicateOf (answered : List AnsweredWebhook) (call : WebhookCall) (eventId : EventId)
    : Prop :=
  ∃ prior ∈ answered, prior.AcceptedAs eventId ∧ StandsFor prior.call call
    ∧ ∀ other ∈ answered, (∃ id, other.AcceptedAs id) → StandsFor other.call call →
      other.call.now ≤ prior.call.now

-----------------------------------------------------------------------------------------
-- What the receipts remember
-----------------------------------------------------------------------------------------

/-- The row is the receipt of the call. -/
structure ReceiptOf (call : WebhookCall) (eventId : EventId) (row : ReceiptRow) : Prop where
  endpoint : row.endpoint = call.event.endpoint
  kind : row.identityKind = call.event.idempotency.kind
  hash : row.identityHash = call.event.idempotency.hash
  eventId : row.eventId = eventId
  acceptedAt : row.acceptedAt = call.now

/-- Only receipts are deleted that no later call can need. -/
def OnlyExpired (collect : ReceiptCollector) : Prop :=
  ∀ s now, ∀ row ∈ collect s now, row.identityKind = .automatic
    ∧ row.acceptedAt < now - automaticDedupWindowMillis

theorem onlyExpired_expiredReceipts : OnlyExpired expiredReceipts := by
  intro s now row mem
  exact (Table.mem_selectOrdered.mp (List.mem_of_mem_take mem)).2

theorem onlyExpired_keepReceipts : OnlyExpired keepReceipts :=
  fun _ _ _ mem => absurd mem List.not_mem_nil

/-- The receipts stand for the accepted calls that a call at `clock` or later can ask for. -/
structure Remembers (clock : Timestamp) (answered : List AnsweredWebhook)
    (receipts : Table ReceiptRow) : Prop where
  received : ∀ row ∈ receipts, ∃ prior ∈ answered, prior.AcceptedAs row.eventId
    ∧ ReceiptOf prior.call row.eventId row
  kept : ∀ prior ∈ answered, ∀ eventId, prior.AcceptedAs eventId →
    (prior.call.event.idempotency.kind = .automatic →
      clock - automaticDedupWindowMillis ≤ prior.call.now) →
    ∃ row ∈ receipts, ReceiptOf prior.call eventId row

/-- Time passes and expired receipts may go. -/
theorem Remembers.collect {clock : Timestamp} {answered : List AnsweredWebhook} {s : Store}
    {call : WebhookCall} {collect : ReceiptCollector}
    (remembers : Remembers clock answered s.webhookReceipts) (expired : OnlyExpired collect)
    (later : clock ≤ call.now)
    : Remembers call.now answered (call.receipts collect s) where
  received row mem := remembers.received row (Table.mem_deleteWhere.mp mem).1
  kept prior mem eventId accepted window := by
    obtain ⟨row, stored, receipt⟩ := remembers.kept prior mem eventId accepted
      (fun automatic => le_trans (Int.sub_le_sub_right later _) (window automatic))
    refine ⟨row, Table.mem_deleteWhere.mpr ⟨stored, fun collected => ?_⟩, receipt⟩
    obtain ⟨automatic, old⟩ := expired s call.now row collected
    rw [receipt.acceptedAt] at old
    exact absurd (window (receipt.kind.symm.trans automatic)) (not_le_of_gt old)

/-- Of several receipts with the identity the newest is found. -/
theorem duplicateReceipt_newest {receipts : Table ReceiptRow} {endpoint : String}
    {idempotency : WebhookIdempotency} {now : Timestamp} {found row : ReceiptRow}
    (isFound : duplicateReceipt receipts endpoint idempotency now = some found)
    (stored : row ∈ receipts)
    (selected : row.endpoint = endpoint ∧ row.identityKind = idempotency.kind
      ∧ row.identityHash = idempotency.hash
      ∧ (idempotency.kind = .automatic →
        row.acceptedAt ≥ now - automaticDedupWindowMillis))
    : row.acceptedAt ≤ found.acceptedAt := by
  unfold duplicateReceipt at isFound
  have least := Table.first?_le isFound stored selected
  exact Int.neg_le_neg_iff.mp least

/-- A receipt is found for a call exactly when an accepted call stands for it, and it names
the event of the most recent one.
-/
theorem Remembers.duplicateReceipt_iff {answered : List AnsweredWebhook}
    {receipts : Table ReceiptRow} {call : WebhookCall}
    (remembers : Remembers call.now answered receipts) (eventId : EventId)
    : DuplicateOf answered call eventId ↔
      ∃ row, duplicateReceipt receipts call.event.endpoint call.event.idempotency call.now
        = some row ∧ row.eventId = eventId := by
  -- the receipt of an accepted call that stands for this one is a candidate
  have candidate : ∀ prior ∈ answered, ∀ id, prior.AcceptedAs id → StandsFor prior.call call →
      ∃ row ∈ receipts, ReceiptOf prior.call id row
        ∧ (row.endpoint = call.event.endpoint
          ∧ row.identityKind = call.event.idempotency.kind
          ∧ row.identityHash = call.event.idempotency.hash
          ∧ (call.event.idempotency.kind = .automatic →
            row.acceptedAt ≥ call.now - automaticDedupWindowMillis)) := by
    intro prior mem id accepted stands
    obtain ⟨row, stored, receipt⟩ := remembers.kept prior mem id accepted
      (fun automatic => stands.window (stands.kind.symm.trans automatic))
    refine ⟨row, stored, receipt, receipt.endpoint.trans stands.endpoint,
      receipt.kind.trans stands.kind, receipt.hash.trans stands.hash, fun automatic => ?_⟩
    rw [receipt.acceptedAt]
    exact stands.window automatic
  constructor
  · intro duplicate
    obtain ⟨prior, mem, accepted, stands, newest⟩ := duplicate
    obtain ⟨row, stored, receipt, selected⟩ := candidate prior mem eventId accepted stands
    have isSome : ∃ found, duplicateReceipt receipts call.event.endpoint
        call.event.idempotency call.now = some found :=
      Table.first?_isSome stored selected
    obtain ⟨found, isFound⟩ := isSome
    refine ⟨found, isFound, ?_⟩
    obtain ⟨foundStored, endpoint, kind, hash, window⟩ := Table.mem_of_first? isFound
    obtain ⟨other, otherMem, otherAccepted, otherReceipt⟩ :=
      remembers.received found foundStored
    have older : other.call.now ≤ prior.call.now := by
      apply newest other otherMem ⟨_, otherAccepted⟩
      exact ⟨otherReceipt.endpoint.symm.trans endpoint, otherReceipt.kind.symm.trans kind,
        otherReceipt.hash.symm.trans hash,
        fun automatic => otherReceipt.acceptedAt ▸ window automatic⟩
    have newer : row.acceptedAt ≤ found.acceptedAt :=
      duplicateReceipt_newest isFound stored selected
    have sameTime : found.acceptedAt = row.acceptedAt := by
      rw [otherReceipt.acceptedAt, receipt.acceptedAt] at *
      exact le_antisymm older newer
    have sameRow : found = row := Table.eq_of_clash foundStored stored
      ⟨endpoint.trans selected.1.symm, kind.trans selected.2.1.symm,
        hash.trans selected.2.2.1.symm, Or.inl sameTime⟩
    exact sameRow ▸ receipt.eventId
  · intro duplicate
    obtain ⟨row, found, rfl⟩ := duplicate
    obtain ⟨stored, endpoint, kind, hash, window⟩ := Table.mem_of_first? found
    obtain ⟨prior, mem, accepted, receipt⟩ := remembers.received row stored
    refine ⟨prior, mem, accepted, ?_, ?_⟩
    · exact ⟨receipt.endpoint.symm.trans endpoint, receipt.kind.symm.trans kind,
        receipt.hash.symm.trans hash, fun automatic => receipt.acceptedAt ▸ window automatic⟩
    · intro other otherMem otherAccepted stands
      obtain ⟨id, otherAccepted⟩ := otherAccepted
      obtain ⟨row', stored', receipt', selected⟩ :=
        candidate other otherMem id otherAccepted stands
      have newest : row'.acceptedAt ≤ row.acceptedAt :=
        duplicateReceipt_newest found stored' selected
      rw [receipt.acceptedAt, receipt'.acceptedAt] at newest
      exact newest

/-- The receipt of a call that is no duplicate violates no constraint. -/
theorem receipt_insertable {receipts : Table ReceiptRow} {call : WebhookCall}
    (fresh
      : duplicateReceipt receipts call.event.endpoint call.event.idempotency call.now = none)
    (eventId : EventId)
    : ∃ receipts', receipts.insert?
        { endpoint := call.event.endpoint, identityKind := call.event.idempotency.kind,
          identityHash := call.event.idempotency.hash, eventId := eventId,
          acceptedAt := call.now } = some receipts' := by
  apply Table.insert?_eq_some
  intro row stored clash
  obtain ⟨endpoint, kind, hash, time⟩ := clash
  refine Table.first?_eq_none.mp fresh row stored ⟨endpoint, kind, hash, fun automatic => ?_⟩
  rcases time with same | explicit
  · have : row.acceptedAt = call.now := same
    rw [this]
    exact Int.sub_le_self _ (by decide)
  · rw [show row.identityKind = .explicit from explicit, automatic] at kind
    cases kind

-----------------------------------------------------------------------------------------
-- One call
-----------------------------------------------------------------------------------------

/-- What a call answers and stores, by its duplicate receipt. -/
theorem perform_ok {collect : ReceiptCollector} {call : WebhookCall} {s s' : Store}
    {outcome : WebhookIngressOutcome} (enabled : actorIsEnabled s call.event.actorId)
    (done : call.perform collect s = .ok (outcome, s'))
    : (∃ row, duplicateReceipt (call.receipts collect s) call.event.endpoint
          call.event.idempotency call.now = some row
        ∧ outcome = .duplicate row.eventId ∧ s' = s)
      ∨ (duplicateReceipt (call.receipts collect s) call.event.endpoint
          call.event.idempotency call.now = none
        ∧ ∃ workItemId sequence snapshotted receipts,
          outcome = .accepted call.ids.event workItemId sequence snapshotted
          ∧ (call.receipts collect s).insert?
            { endpoint := call.event.endpoint, identityKind := call.event.idempotency.kind,
              identityHash := call.event.idempotency.hash, eventId := call.ids.event,
              acceptedAt := call.now } = some receipts
          ∧ s'.webhookReceipts = receipts) := by
  simp only [WebhookCall.perform, acceptWebhook, enabled, if_true] at done
  split at done
  · rename_i row found
    cases done
    exact Or.inl ⟨row, found, rfl, rfl⟩
  · rename_i fresh
    simp only [storeWebhook, bind_eq_ok, execute_eq_ok] at done
    obtain ⟨_, ⟨_, _, ⟨sequence, _⟩, _, _, _, stored⟩, receipts, inserted, result⟩ := done
    cases stored
    cases result
    exact Or.inr ⟨fresh, _, sequence, _, receipts, rfl, inserted, rfl⟩

/-- No call disables an actor. -/
theorem next_enabled {collect : ReceiptCollector} {history : WebhookHistory}
    {call : WebhookCall} {id : ActorId} (enabled : actorIsEnabled history.store id)
    : actorIsEnabled (history.next collect call).store id := by
  unfold WebhookHistory.next
  split
  · rename_i outcome s done
    simp only [WebhookCall.perform, acceptWebhook] at done
    split at done
    · split at done
      · cases done
        exact enabled
      · simp only [storeWebhook, bind_eq_ok, execute_eq_ok] at done
        obtain ⟨_, ⟨_, _, ⟨sequence, actors⟩, taken, _, _, stored⟩, _, _, result⟩ := done
        cases stored
        cases result
        exact nextSequence_enabled taken enabled
    · cases done
      exact enabled
  · exact enabled

/-- A call is remembered with its answer. -/
theorem Remembers.next {clock : Timestamp} {history : WebhookHistory} {call : WebhookCall}
    {collect : ReceiptCollector}
    (remembers : Remembers clock history.answered history.store.webhookReceipts)
    (expired : OnlyExpired collect) (later : clock ≤ call.now)
    (enabled : actorIsEnabled history.store call.event.actorId)
    : Remembers call.now (history.next collect call).answered
        (history.next collect call).store.webhookReceipts := by
  -- an answer that accepts nothing adds nothing to remember
  have silent : ∀ answer, (∀ id, ¬AnsweredWebhook.AcceptedAs ⟨call, answer⟩ id) →
      Remembers call.now (⟨call, answer⟩ :: history.answered) history.store.webhookReceipts := by
    intro answer silent
    constructor
    · intro row mem
      obtain ⟨prior, known, rest⟩ := remembers.received row mem
      exact ⟨prior, List.mem_cons_of_mem _ known, rest⟩
    · intro prior mem id accepted window
      rcases List.mem_cons.mp mem with rfl | known
      · exact absurd accepted (silent id)
      · exact remembers.kept prior known id accepted
          (fun automatic => le_trans (Int.sub_le_sub_right later _) (window automatic))
  unfold WebhookHistory.next
  split
  · rename_i outcome s done
    rcases perform_ok enabled done with ⟨row, -, rfl, rfl⟩ |
      ⟨-, workItemId, sequence, snapshotted, receipts, rfl, inserted, same⟩
    · exact silent _ (fun id accepted => by
        obtain ⟨_, _, _, impossible⟩ := accepted
        cases impossible)
    · have collected := remembers.collect expired later
      constructor
      · intro row mem
        rw [same] at mem
        rcases (Table.mem_insert? inserted).mp mem with stored | rfl
        · obtain ⟨prior, known, rest⟩ := collected.received row stored
          exact ⟨prior, List.mem_cons_of_mem _ known, rest⟩
        · exact ⟨_, List.mem_cons_self, ⟨_, _, _, rfl⟩, rfl, rfl, rfl, rfl, rfl⟩
      · intro prior mem id accepted window
        rw [same]
        rcases List.mem_cons.mp mem with rfl | known
        · obtain ⟨_, _, _, isAnswer⟩ := accepted
          cases isAnswer
          exact ⟨_, (Table.mem_insert? inserted).mpr (Or.inr rfl), rfl, rfl, rfl, rfl, rfl⟩
        · obtain ⟨row, stored, receipt⟩ := collected.kept prior known id accepted window
          exact ⟨row, (Table.mem_insert? inserted).mpr (Or.inl stored), receipt⟩
  · exact silent _ (fun id accepted => by
      obtain ⟨_, _, _, impossible⟩ := accepted
      cases impossible)

-----------------------------------------------------------------------------------------
-- Two collections
-----------------------------------------------------------------------------------------

/-- The histories answered alike and differ in their receipts only. -/
structure SameAnswers (a b : WebhookHistory) : Prop where
  answered : a.answered = b.answered
  store : b.store = { a.store with webhookReceipts := b.store.webhookReceipts }

/-- Storing a webhook does not look at the receipts. -/
theorem storeWebhook_receipts (event : NewWebhookEvent) (now : Timestamp) (ids : FreshIds)
    (s : Store) (receipts : Table ReceiptRow)
    : storeWebhook event now ids { s with webhookReceipts := receipts }
      = (storeWebhook event now ids s).map
          (fun stored => (stored.1, { stored.2 with webhookReceipts := receipts })) := by
  simp only [storeWebhook, nextSequence]
  cases s.workItems.insert? (newWorkItem ids.workItem event.actorId .external .actorPrivate now)
    with
  | none => rfl
  | some workItems =>
      cases s.actors.find? (·.id = event.actorId) with
      | none => rfl
      | some actor =>
          simp only [execute, Option.elim, bind, Except.bind]
          split
          · rfl
          · rfl

/-- Histories that remember the same calls answer the next one alike. -/
theorem SameAnswers.next {clock : Timestamp} {a b : WebhookHistory} {call : WebhookCall}
    {collectA collectB : ReceiptCollector} (same : SameAnswers a b)
    (remembersA : Remembers clock a.answered a.store.webhookReceipts)
    (remembersB : Remembers clock b.answered b.store.webhookReceipts)
    (expiredA : OnlyExpired collectA) (expiredB : OnlyExpired collectB)
    (later : clock ≤ call.now) (enabled : actorIsEnabled a.store call.event.actorId)
    : SameAnswers (a.next collectA call) (b.next collectB call) := by
  have seenA := (remembersA.collect expiredA later).duplicateReceipt_iff
  have seenB := (remembersB.collect expiredB later).duplicateReceipt_iff
  simp only [← same.answered] at seenB
  have enabledB : actorIsEnabled b.store call.event.actorId := by
    rw [same.store]
    exact enabled
  cases foundA : duplicateReceipt (call.receipts collectA a.store) call.event.endpoint
      call.event.idempotency call.now with
  | some row =>
      obtain ⟨row', foundB, sameEvent⟩ := (seenB _).mp ((seenA _).mpr ⟨row, foundA, rfl⟩)
      have doneA : call.perform collectA a.store = .ok (.duplicate row.eventId, a.store) := by
        simp only [WebhookCall.perform, acceptWebhook, enabled, if_true, foundA]
      have doneB : call.perform collectB b.store = .ok (.duplicate row.eventId, b.store) := by
        simp only [WebhookCall.perform, acceptWebhook, enabledB, if_true, foundB, sameEvent]
      rw [WebhookHistory.next_ok doneA, WebhookHistory.next_ok doneB]
      exact ⟨congrArg (List.cons _) same.answered, same.store⟩
  | none =>
      have foundB : duplicateReceipt (call.receipts collectB b.store) call.event.endpoint
          call.event.idempotency call.now = none := by
        cases foundB : duplicateReceipt (call.receipts collectB b.store) call.event.endpoint
            call.event.idempotency call.now with
        | none => rfl
        | some row =>
            obtain ⟨row', foundA', -⟩ := (seenA _).mp ((seenB _).mpr ⟨row, foundB, rfl⟩)
            rw [foundA] at foundA'
            cases foundA'
      obtain ⟨receiptsA, insertedA⟩ := receipt_insertable foundA call.ids.event
      obtain ⟨receiptsB, insertedB⟩ := receipt_insertable foundB call.ids.event
      have storedB := storeWebhook_receipts call.event call.now call.ids a.store
        b.store.webhookReceipts
      rw [← same.store] at storedB
      cases storedA : storeWebhook call.event call.now call.ids a.store with
      | error error =>
          rw [storedA] at storedB
          have doneA : call.perform collectA a.store = .error error := by
            simp only [WebhookCall.perform, acceptWebhook, enabled, if_true, foundA, storedA]
            rfl
          have doneB : call.perform collectB b.store = .error error := by
            simp only [WebhookCall.perform, acceptWebhook, enabledB, if_true, foundB, storedB]
            rfl
          rw [WebhookHistory.next_error doneA, WebhookHistory.next_error doneB]
          exact ⟨congrArg (List.cons _) same.answered, same.store⟩
      | ok stored =>
          obtain ⟨outcome, s⟩ := stored
          rw [storedA] at storedB
          have doneA : call.perform collectA a.store
              = .ok (outcome, { s with webhookReceipts := receiptsA }) := by
            simp only [WebhookCall.perform, acceptWebhook, enabled, if_true, foundA, storedA,
              insertedA]
            rfl
          have doneB : call.perform collectB b.store
              = .ok (outcome, { s with webhookReceipts := receiptsB }) := by
            simp only [WebhookCall.perform, acceptWebhook, enabledB, if_true, foundB, storedB,
              insertedB]
            rfl
          rw [WebhookHistory.next_ok doneA, WebhookHistory.next_ok doneB]
          exact ⟨congrArg (List.cons _) same.answered, rfl⟩

-----------------------------------------------------------------------------------------
-- All sequences of calls
-----------------------------------------------------------------------------------------

/-- What two collections have in common after the same calls, the last of them at `clock`. -/
structure Agree (clock : Timestamp) (a b : WebhookHistory) : Prop where
  same : SameAnswers a b
  first : Remembers clock a.answered a.store.webhookReceipts
  second : Remembers clock b.answered b.store.webhookReceipts

/-- Collections agree after every sequence of calls, by induction on the calls. -/
theorem Agree.foldl {collectA collectB : ReceiptCollector} (expiredA : OnlyExpired collectA)
    (expiredB : OnlyExpired collectB) {calls : List WebhookCall} {clock : Timestamp}
    {a b : WebhookHistory} (agree : Agree clock a b)
    (ordered : (calls.map (·.now)).Pairwise (· ≤ ·)) (later : ∀ call ∈ calls, clock ≤ call.now)
    (enabled : ∀ call ∈ calls, actorIsEnabled a.store call.event.actorId)
    : ∃ clock', Agree clock' (calls.foldl (WebhookHistory.next collectA) a)
        (calls.foldl (WebhookHistory.next collectB) b)
      ∧ ∀ call, (∀ earlier ∈ calls, earlier.now ≤ call) → clock ≤ call → clock' ≤ call := by
  induction calls generalizing clock a b with
  | nil => exact ⟨clock, agree, fun _ _ known => known⟩
  | cons call rest ih =>
      have enabledA := enabled call List.mem_cons_self
      have enabledB : actorIsEnabled b.store call.event.actorId := by
        rw [agree.same.store]
        exact enabledA
      have first := later call List.mem_cons_self
      rw [List.map_cons, List.pairwise_cons] at ordered
      have next : Agree call.now (a.next collectA call) (b.next collectB call) :=
        ⟨agree.same.next agree.first agree.second expiredA expiredB first enabledA,
          agree.first.next expiredA first enabledA, agree.second.next expiredB first enabledB⟩
      obtain ⟨clock', agree', bound⟩ := ih next ordered.2
        (fun other mem => ordered.1 _ (List.mem_map_of_mem mem))
        (fun other mem => next_enabled (enabled other (List.mem_cons_of_mem _ mem)))
      refine ⟨clock', agree', fun time earlier _ => bound time ?_ ?_⟩
      · exact fun other mem => earlier other (List.mem_cons_of_mem _ mem)
      · exact earlier call List.mem_cons_self

/-- A store without receipts has nothing to remember. -/
theorem Remembers.empty {s : Store} (unused : ∀ row, row ∉ s.webhookReceipts)
    (clock : Timestamp)
    : Remembers clock [] s.webhookReceipts where
  received row mem := absurd mem (unused row)
  kept _ mem := absurd mem List.not_mem_nil

/-- Actors stay enabled over a sequence of calls, by induction. -/
theorem webhookHistory_enabled {collect : ReceiptCollector} {calls : List WebhookCall}
    {history : WebhookHistory} {id : ActorId} (enabled : actorIsEnabled history.store id)
    : actorIsEnabled (calls.foldl (WebhookHistory.next collect) history).store id := by
  induction calls generalizing history with
  | nil => exact enabled
  | cons call rest ih => exact ih (next_enabled enabled)

/-- After any sequence of calls at non-decreasing times for enabled actors: a call answers a
duplicate exactly when an accepted call stands for it, with the event of the most recent one
and changing nothing; otherwise its receipt can be stored; and never deleting a receipt would
have given the same answers.
-/
theorem webhook_dedup {s : Store} (unused : ∀ row, row ∉ s.webhookReceipts)
    {calls : List WebhookCall} {call : WebhookCall}
    (ordered : ((calls ++ [call]).map (·.now)).Pairwise (· ≤ ·))
    (enabled : ∀ c ∈ calls ++ [call], actorIsEnabled s c.event.actorId)
    : let history := webhookHistory expiredReceipts s calls
      (∀ eventId t, ingestWebhook call.event call.now call.ids history.store
          = .ok (.duplicate eventId, t) ↔
        DuplicateOf history.answered call eventId ∧ t = history.store)
      ∧ ((∀ eventId, ¬DuplicateOf history.answered call eventId) →
        ∃ receipts, (call.receipts expiredReceipts history.store).insert?
          { endpoint := call.event.endpoint, identityKind := call.event.idempotency.kind,
            identityHash := call.event.idempotency.hash, eventId := call.ids.event,
            acceptedAt := call.now } = some receipts)
      ∧ (webhookHistory keepReceipts s (calls ++ [call])).answered
        = (webhookHistory expiredReceipts s (calls ++ [call])).answered := by
  intro history
  have ordered' := ordered
  rw [List.map_append, List.pairwise_append] at ordered'
  obtain ⟨orderedCalls, -, last⟩ := ordered'
  have last : ∀ earlier ∈ calls, earlier.now ≤ call.now := by
    intro earlier mem
    exact last _ (List.mem_map_of_mem mem) _ (by simp)
  -- any time before all calls will do for the start
  obtain ⟨start, before⟩ : ∃ start : Timestamp, ∀ c ∈ calls ++ [call], start ≤ c.now := by
    cases calls with
    | nil => exact ⟨call.now, by simp⟩
    | cons first rest =>
        refine ⟨first.now, fun c mem => ?_⟩
        rw [List.cons_append, List.map_cons, List.pairwise_cons] at ordered
        rcases List.mem_cons.mp mem with rfl | mem
        · exact le_rfl
        · exact ordered.1 _ (List.mem_map_of_mem mem)
  have agree : Agree start ⟨s, []⟩ ⟨s, []⟩ :=
    ⟨⟨rfl, rfl⟩, .empty unused start, .empty unused start⟩
  obtain ⟨clock, agreed, bound⟩ := agree.foldl onlyExpired_expiredReceipts
    onlyExpired_keepReceipts orderedCalls
    (fun c mem => before c (List.mem_append_left _ mem))
    (fun c mem => enabled c (List.mem_append_left _ mem))
  have later : clock ≤ call.now := bound _ last (before call (by simp))
  have callEnabled : actorIsEnabled history.store call.event.actorId :=
    webhookHistory_enabled (enabled call (by simp))
  have seen := (agreed.first.collect onlyExpired_expiredReceipts later).duplicateReceipt_iff
  refine ⟨fun eventId t => ?_, fun none => ?_, ?_⟩
  · rw [← perform_expiredReceipts]
    constructor
    · intro done
      rcases perform_ok callEnabled done with ⟨row, found, same, rfl⟩ | ⟨-, _, _, _, _, no, -⟩
      · cases same
        exact ⟨(seen _).mpr ⟨row, found, rfl⟩, rfl⟩
      · cases no
    · intro duplicate
      obtain ⟨duplicate, rfl⟩ := duplicate
      obtain ⟨row, found, rfl⟩ := (seen _).mp duplicate
      simp only [WebhookCall.perform, acceptWebhook, callEnabled, if_true]
      simp only [history, webhookHistory, found]
  · apply receipt_insertable
    cases found : duplicateReceipt (call.receipts expiredReceipts history.store)
        call.event.endpoint call.event.idempotency call.now with
    | none => rfl
    | some row => exact absurd ((seen _).mpr ⟨row, found, rfl⟩) (none row.eventId)
  · have next := agreed.same.next agreed.first agreed.second onlyExpired_expiredReceipts
      onlyExpired_keepReceipts later callEnabled
    simp only [webhookHistory, List.foldl_append, List.foldl_cons, List.foldl_nil]
    exact next.answered.symm

/-- A delivery of the same notification without a key of its own. -/
def repeatedHook (n : Nat) (now : Timestamp) : WebhookCall where
  event := { endpoint := "deploys", actorId := localActor, idempotency := ⟨.automatic, 7⟩,
             payloadJson := .decoded (.webhook (some "ci") (some "now") (some "deployed")) }
  now := now
  ids := .numbered n

/-- A delivery is a duplicate for a day and is then accepted again. -/
theorem webhook_dedup_repeated
    : (webhookHistory keepReceipts World.single.store
          ([repeatedHook 1 0, repeatedHook 2 86400000] ++ [repeatedHook 3 86400001])).answered
        = (webhookHistory expiredReceipts World.single.store
          ([repeatedHook 1 0, repeatedHook 2 86400000] ++ [repeatedHook 3 86400001])).answered
      ∧ ((webhookHistory expiredReceipts World.single.store
          ([repeatedHook 1 0, repeatedHook 2 86400000] ++ [repeatedHook 3 86400001])).answered.map
          (fun answered => answered.answer.toOption))
        = [some (.accepted ⟨3⟩ ⟨3⟩ 2 false), some (.duplicate ⟨1⟩),
          some (.accepted ⟨1⟩ ⟨1⟩ 1 false)] :=
  ⟨(webhook_dedup (by decide) (by decide) (by decide)).2.2, by decide +kernel⟩

end Codrik.Runtime.Sqlite

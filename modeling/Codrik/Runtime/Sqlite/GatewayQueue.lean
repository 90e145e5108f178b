import Codrik.Relational.Ternary
import Codrik.Runtime.Sqlite.GatewayProjection
import Codrik.Transition.System

/-! The delivery queue of the gateways: `gateway_deliveries` with all of its columns and the
operations on it (`GatewayDeliveryStore` of `sqlite/gateway.rs`).
-/

namespace Codrik.Runtime.Sqlite

open Codrik.Relational
open Codrik.Transition

-----------------------------------------------------------------------------------------
-- Rows
-----------------------------------------------------------------------------------------

/-- The intent keys `gateway:{intent_key}:{ordinal}` of the chunks of an outbox entry, and
the keys that gateways choose for their own responses.
-/
inductive GatewayIntentKey
  | chunk (intentKey : IntentKey) (ordinal : Nat)
  | response (text : String)
deriving DecidableEq

structure QueuedDelivery where
  id : GatewayDeliveryId
  intentKey : GatewayIntentKey
  sourceOutboxId : Option OutboxId
  route : DeliveryRoute
  ordinal : Nat
  payloadJson : OutboxPayload
  state : GatewayDeliveryState
  attemptCount : Nat
  nextAttemptAt : Option Timestamp
  claimOwner : Option String
  claimExpiresAt : Option Timestamp
  remoteMessageId : Option String
  errorClass : Option String
  lastError : Option String
  createdAt : Timestamp
  transportRetrySafe : Bool
deriving DecidableEq

/-- The deliveries without a source are apart under the last constraint. -/
instance : Constrained QueuedDelivery where
  Clash a b :=
    a.id = b.id
    ∨ a.intentKey = b.intentKey
    ∨ (a.sourceOutboxId ≠ none ∧ a.sourceOutboxId = b.sourceOutboxId
      ∧ a.route.gateway = b.route.gateway ∧ a.route.address = b.route.address
      ∧ a.ordinal = b.ordinal)
  symm clash := by
    rcases clash with same | key | ⟨known, source, gateway, address, ordinal⟩
    · exact Or.inl same.symm
    · exact Or.inr (Or.inl key.symm)
    · exact Or.inr (Or.inr ⟨source ▸ known, source.symm, gateway.symm, address.symm,
        ordinal.symm⟩)

/-- The queue, and the outbox its entries refer to. -/
structure GatewayQueue where
  outbox : Table OutboxRow
  deliveries : Table QueuedDelivery

/-- What a gateway may ask to be delivered: `NewGatewayDelivery::new` refuses blank keys. -/
structure NewGatewayDelivery where
  intentKey : GatewayIntentKey
  sourceOutboxId : Option OutboxId
  ordinal : Nat
  route : DeliveryRoute
  payload : OutboxPayload
  keyNamed : ∀ text, intentKey = .response text → isBlank text = false

structure GatewayDeliveryClaim where
  id : GatewayDeliveryId
  owner : String
  expiresAt : Timestamp
deriving DecidableEq

structure ClaimedGatewayDelivery where
  claim : GatewayDeliveryClaim
  intentKey : GatewayIntentKey
  sourceOutboxId : Option OutboxId
  workItemId : Option WorkItemId
  ordinal : Nat
  route : DeliveryRoute
  payload : OutboxPayload
  attemptCount : Nat
  remoteMessageId : Option String
deriving DecidableEq

-----------------------------------------------------------------------------------------
-- Insertion
-----------------------------------------------------------------------------------------

/-- The columns of a delivery at its insertion. -/
def newDelivery (id : GatewayDeliveryId) (delivery : NewGatewayDelivery) (now : Timestamp)
    : QueuedDelivery where
  id := id
  intentKey := delivery.intentKey
  sourceOutboxId := delivery.sourceOutboxId
  route := delivery.route
  ordinal := delivery.ordinal
  payloadJson := delivery.payload
  state := .pending
  attemptCount := 0
  nextAttemptAt := none
  claimOwner := none
  claimExpiresAt := none
  remoteMessageId := none
  errorClass := none
  lastError := none
  createdAt := now
  transportRetrySafe := false

/-- `INSERT ... ON CONFLICT(intent_key) DO NOTHING`; the source refers to an outbox entry. -/
def GatewayQueue.insertDelivery (q : GatewayQueue) (row : QueuedDelivery)
    : Except StoreError GatewayQueue :=
  if ∃ stored ∈ q.deliveries, stored.intentKey = row.intentKey then
    .ok q
  else do
    require (∀ outboxId ∈ row.sourceOutboxId, ∃ entry ∈ q.outbox, entry.id = outboxId)
      .constraint
    let deliveries ← execute (q.deliveries.insert? row)
    .ok { q with deliveries := deliveries }

/-- The delivery of one chunk of an outbox entry. -/
def chunkDelivery (entry : OutboxRow) (route : DeliveryRoute) (ordinal : Nat)
    (payload : OutboxPayload)
    : NewGatewayDelivery where
  intentKey := .chunk entry.intentKey ordinal
  sourceOutboxId := some entry.id
  ordinal := ordinal
  route := route
  payload := payload
  keyNamed := by intro text named; cases named

/-- The rows of `project_outbox_to_gateway`, from chunk `ordinal` on. -/
def chunkRows (entry : OutboxRow) (route : DeliveryRoute) (ids : Nat → GatewayDeliveryId)
    (now : Timestamp)
    : Nat → List OutboxPayload → List QueuedDelivery
  | _, [] => []
  | ordinal, payload :: payloads =>
      newDelivery (ids ordinal) (chunkDelivery entry route ordinal payload) now
        :: chunkRows entry route ids now (ordinal + 1) payloads

def GatewayQueue.insertDeliveries (q : GatewayQueue)
    : List QueuedDelivery → Except StoreError GatewayQueue
  | [] => .ok q
  | row :: rows => do
      let q ← q.insertDelivery row
      q.insertDeliveries rows

/-- `project_outbox_to_gateway` -/
def projectToGateway (entry : OutboxRow) (route : DeliveryRoute)
    (ids : Nat → GatewayDeliveryId) (now : Timestamp) (q : GatewayQueue)
    : Except StoreError GatewayQueue :=
  q.insertDeliveries
    (chunkRows entry route ids now 0 (gatewayPayloads entry.payloadJson route))

/-- The columns a second call with the same intent key has to agree with. -/
def QueuedDelivery.Repeats (delivery : NewGatewayDelivery) (stored : QueuedDelivery) : Prop :=
  stored.sourceOutboxId = delivery.sourceOutboxId ∧ stored.route = delivery.route
    ∧ stored.ordinal = delivery.ordinal ∧ stored.payloadJson = delivery.payload

instance (delivery : NewGatewayDelivery) : DecidablePred (QueuedDelivery.Repeats delivery) :=
  fun _ => inferInstanceAs (Decidable (_ ∧ _))

/-- `enqueue_gateway_delivery` -/
def enqueueGatewayDelivery (delivery : NewGatewayDelivery) (id : GatewayDeliveryId)
    (now : Timestamp) (q : GatewayQueue)
    : Except StoreError (GatewayDeliveryId × GatewayQueue) := do
  let q ← q.insertDelivery (newDelivery id delivery now)
  match q.deliveries.find? (·.intentKey = delivery.intentKey) with
  | none => .error .constraint
  | some stored => do
      require (stored.Repeats delivery)
        (.rejected "gateway delivery intent key was reused with different immutable data")
      .ok (stored.id, q)

-----------------------------------------------------------------------------------------
-- Claims
-----------------------------------------------------------------------------------------

/-- `state IN ('pending','failed_retryable')` -/
def QueuedDelivery.Waiting (delivery : QueuedDelivery) : Prop :=
  delivery.state = .pending ∨ delivery.state = .failedRetryable

instance : DecidablePred QueuedDelivery.Waiting :=
  fun _ => inferInstanceAs (Decidable (_ ∨ _))

/-- Both deliveries go to one address of one gateway. -/
def SameAddress (a b : QueuedDelivery) : Prop :=
  a.route.gateway = b.route.gateway ∧ a.route.address = b.route.address

instance (a b : QueuedDelivery) : Decidable (SameAddress a b) :=
  inferInstanceAs (Decidable (_ ∧ _))

/-- The order deliveries are queued in. -/
def QueuedDelivery.place (delivery : QueuedDelivery) : Timestamp ×ₗ GatewayDeliveryId :=
  toLex (delivery.createdAt, delivery.id)

/-- `a` is a chunk before `b` of the same outbox entry. -/
def PrecedingChunk (a b : QueuedDelivery) : Prop :=
  b.sourceOutboxId ≠ none ∧ a.sourceOutboxId = b.sourceOutboxId ∧ a.ordinal < b.ordinal

instance (a b : QueuedDelivery) : Decidable (PrecedingChunk a b) :=
  inferInstanceAs (Decidable (_ ∧ _))

/-- An earlier chunk failed for good, or its fate is unknown. -/
def GatewayQueue.CutOff (q : GatewayQueue) (delivery : QueuedDelivery) : Prop :=
  ∃ chunk ∈ q.deliveries, PrecedingChunk chunk delivery
    ∧ (chunk.state = .failedTerminal ∨ chunk.state = .outcomeUnknown)

instance (q : GatewayQueue) : DecidablePred q.CutOff :=
  fun _ => inferInstanceAs (Decidable (∃ chunk ∈ q.deliveries, _))

/-- `NOT (earlier.source_outbox_id = candidate.source_outbox_id
AND earlier.ordinal > candidate.ordinal)`
-/
def notALaterChunk (earlier candidate : QueuedDelivery) : Ternary :=
  .not (.and (.eq earlier.sourceOutboxId candidate.sourceOutboxId)
    (some (decide (earlier.ordinal > candidate.ordinal))))

/-- `earlier` holds back `candidate`. -/
def GatewayQueue.HeldBackBy (q : GatewayQueue) (candidate earlier : QueuedDelivery) : Prop :=
  SameAddress earlier candidate ∧ earlier.Waiting ∧ earlier.place < candidate.place
    ∧ (notALaterChunk earlier candidate).IsTrue ∧ ¬q.CutOff earlier

instance (q : GatewayQueue) (candidate : QueuedDelivery)
    : DecidablePred (q.HeldBackBy candidate) :=
  fun _ => inferInstanceAs (Decidable (_ ∧ _))

/-- The candidates of `claim_gateway_deliveries`. -/
structure GatewayQueue.Eligible (q : GatewayQueue) (gateway : String) (now : Timestamp)
    (candidate : QueuedDelivery)
    : Prop where
  gateway : candidate.route.gateway = gateway
  waiting : candidate.Waiting
  due : ∀ time ∈ candidate.nextAttemptAt, time ≤ now
  first : ¬∃ earlier ∈ q.deliveries, q.HeldBackBy candidate earlier
  inOrder : ¬∃ chunk ∈ q.deliveries, PrecedingChunk chunk candidate ∧ chunk.state ≠ .delivered
  idle : ¬∃ active ∈ q.deliveries, SameAddress active candidate ∧ active.state = .delivering

instance (q : GatewayQueue) (gateway : String) (now : Timestamp)
    : DecidablePred (q.Eligible gateway now) := fun candidate =>
  decidable_of_iff
    (candidate.route.gateway = gateway ∧ candidate.Waiting
      ∧ (∀ time ∈ candidate.nextAttemptAt, time ≤ now)
      ∧ (¬∃ earlier ∈ q.deliveries, q.HeldBackBy candidate earlier)
      ∧ (¬∃ chunk ∈ q.deliveries, PrecedingChunk chunk candidate ∧ chunk.state ≠ .delivered)
      ∧ ¬∃ active ∈ q.deliveries, SameAddress active candidate ∧ active.state = .delivering)
    ⟨fun ⟨a, b, c, d, e, f⟩ => ⟨a, b, c, d, e, f⟩, fun ⟨a, b, c, d, e, f⟩ => ⟨a, b, c, d, e, f⟩⟩

/-- A claim that has run out. -/
def QueuedDelivery.Lapsed (gateway : String) (now : Timestamp) (delivery : QueuedDelivery)
    : Prop :=
  delivery.route.gateway = gateway ∧ delivery.state = .delivering
    ∧ ∃ expiry ∈ delivery.claimExpiresAt, expiry ≤ now

instance (gateway : String) (now : Timestamp)
    : DecidablePred (QueuedDelivery.Lapsed gateway now) := fun delivery =>
  decidable_of_iff (delivery.route.gateway = gateway ∧ delivery.state = .delivering
      ∧ delivery.claimExpiresAt.any (· ≤ now))
    (by cases expiry : delivery.claimExpiresAt <;> simp [QueuedDelivery.Lapsed, expiry])

/-- What becomes of a delivery whose claim has run out. -/
def QueuedDelivery.lapse (now : Timestamp) (delivery : QueuedDelivery) : QueuedDelivery :=
  { delivery with
    state := if delivery.transportRetrySafe then .failedRetryable else .outcomeUnknown
    nextAttemptAt := if delivery.transportRetrySafe then some now else delivery.nextAttemptAt
    claimOwner := none
    claimExpiresAt := none
    errorClass := some "expired_claim"
    lastError := some "delivery claim expired with unknown transport outcome" }

/-- The start of an attempt. -/
def QueuedDelivery.begin (owner : String) (expiry : Timestamp) (delivery : QueuedDelivery)
    : QueuedDelivery :=
  { delivery with
    state := .delivering
    attemptCount := delivery.attemptCount + 1
    claimOwner := some owner
    claimExpiresAt := some expiry }

/-- `load_claimed` -/
def loadClaimed (id : GatewayDeliveryId) (owner : String) (expiry : Timestamp)
    (q : GatewayQueue)
    : Except StoreError ClaimedGatewayDelivery :=
  match q.deliveries.find? (·.id = id) with
  | none => .error .constraint
  | some delivery =>
      .ok {
        claim := ⟨id, owner, expiry⟩
        intentKey := delivery.intentKey
        sourceOutboxId := delivery.sourceOutboxId
        workItemId := delivery.sourceOutboxId.bind (fun outboxId =>
          (q.outbox.find? (·.id = outboxId)).map (·.workItemId))
        ordinal := delivery.ordinal
        route := delivery.route
        payload := delivery.payloadJson
        attemptCount := delivery.attemptCount
        remoteMessageId := delivery.remoteMessageId }

/-- The loop over the selected deliveries. -/
def claimEachDelivery (owner : String) (expiry : Timestamp)
    : List GatewayDeliveryId → GatewayQueue
      → Except StoreError (List ClaimedGatewayDelivery × GatewayQueue)
  | [], q => .ok ([], q)
  | id :: ids, q => do
      let q := { q with
        deliveries := q.deliveries.updateWhere (·.id = id) (·.begin owner expiry) }
      let claimed ← loadClaimed id owner expiry q
      let (others, q) ← claimEachDelivery owner expiry ids q
      .ok (claimed :: others, q)

/-- The queue after the claims that have run out are settled. -/
def GatewayQueue.lapse (q : GatewayQueue) (gateway : String) (now : Timestamp)
    : GatewayQueue :=
  { q with deliveries := q.deliveries.updateWhere (·.Lapsed gateway now) (·.lapse now) }

/-- The deliveries a claim selects. -/
def GatewayQueue.selected (q : GatewayQueue) (gateway : String) (now : Timestamp)
    (limit : Nat)
    : List GatewayDeliveryId :=
  ((q.deliveries.selectOrdered (q.Eligible gateway now) (·.place)).take limit).map (·.id)

/-- `claim_gateway_deliveries` -/
def claimGatewayDeliveries (gateway owner : String) (now claimUntil : Timestamp)
    (limit : Nat) (q : GatewayQueue)
    : Except StoreError (List ClaimedGatewayDelivery × GatewayQueue) := do
  require (¬isBlank gateway ∧ ¬isBlank owner ∧ claimUntil > now ∧ limit ≠ 0)
    (.rejected "invalid gateway delivery claim")
  let q := q.lapse gateway now
  claimEachDelivery owner claimUntil (q.selected gateway now limit) q

-----------------------------------------------------------------------------------------
-- Holders of a claim
-----------------------------------------------------------------------------------------

/-- The delivery is under the claim that is presented. -/
def HeldUnder (claim : GatewayDeliveryClaim) (delivery : QueuedDelivery) : Prop :=
  delivery.id = claim.id ∧ delivery.state = .delivering
    ∧ delivery.claimOwner = some claim.owner ∧ delivery.claimExpiresAt = some claim.expiresAt

instance (claim : GatewayDeliveryClaim) : DecidablePred (HeldUnder claim) :=
  fun _ => inferInstanceAs (Decidable (_ ∧ _))

/-- `UPDATE ... WHERE` the claim is the current one; whether a row was changed. -/
def GatewayQueue.updateHeld (q : GatewayQueue) (claim : GatewayDeliveryClaim)
    (f : QueuedDelivery → QueuedDelivery) (keeps : Table.KeepsKey f)
    : Bool × GatewayQueue :=
  (decide (q.deliveries.count (HeldUnder claim) = 1),
    { q with deliveries := q.deliveries.updateWhere (HeldUnder claim) f keeps })

/-- `renew_gateway_delivery` -/
def renewGatewayDelivery (claim : GatewayDeliveryClaim) (claimUntil : Timestamp)
    (q : GatewayQueue)
    : Option GatewayDeliveryClaim × GatewayQueue :=
  let (changed, q) := q.updateHeld claim
    (fun delivery => { delivery with claimExpiresAt := some claimUntil })
    ⟨fun _ _ clash => clash⟩
  (if changed then some { claim with expiresAt := claimUntil } else none, q)

/-- `set_gateway_delivery_retry_safe` -/
def setGatewayDeliveryRetrySafe (claim : GatewayDeliveryClaim) (retrySafe : Bool)
    (q : GatewayQueue)
    : Bool × GatewayQueue :=
  q.updateHeld claim (fun delivery => { delivery with transportRetrySafe := retrySafe })
    ⟨fun _ _ clash => clash⟩

/-- The end of an attempt. -/
def QueuedDelivery.leave (state : GatewayDeliveryState) (nextAttemptAt : Option Timestamp)
    (error : Option (String × String)) (remoteMessageId : Option String)
    (delivery : QueuedDelivery)
    : QueuedDelivery :=
  { delivery with
    state := state
    nextAttemptAt := nextAttemptAt
    claimOwner := none
    claimExpiresAt := none
    remoteMessageId := remoteMessageId.or delivery.remoteMessageId
    errorClass := error.map (·.1)
    lastError := error.map (·.2) }

/-- `transition_claim` -/
def transitionClaim (claim : GatewayDeliveryClaim) (state : GatewayDeliveryState)
    (nextAttemptAt : Option Timestamp) (error : Option (String × String))
    (remoteMessageId : Option String) (q : GatewayQueue)
    : Bool × GatewayQueue :=
  q.updateHeld claim (·.leave state nextAttemptAt error remoteMessageId)
    ⟨fun _ _ clash => clash⟩

/-- `complete_gateway_delivery` -/
def completeGatewayDelivery (claim : GatewayDeliveryClaim) (remoteMessageId : Option String)
    (q : GatewayQueue)
    : Bool × GatewayQueue :=
  transitionClaim claim .delivered none none remoteMessageId q

/-- `retry_gateway_delivery` -/
def retryGatewayDelivery (claim : GatewayDeliveryClaim) (nextAttemptAt : Timestamp)
    (errorClass error : String) (q : GatewayQueue)
    : Bool × GatewayQueue :=
  transitionClaim claim .failedRetryable (some nextAttemptAt) (some (errorClass, error)) none q

/-- `GatewayDeliveryState::is_failure_target` -/
def GatewayDeliveryState.isFailureTarget (state : GatewayDeliveryState) : Bool :=
  state = .failedTerminal || state = .outcomeUnknown

/-- `fail_gateway_delivery` -/
def failGatewayDelivery (claim : GatewayDeliveryClaim) (state : GatewayDeliveryState)
    (errorClass error : String) (q : GatewayQueue)
    : Except StoreError (Bool × GatewayQueue) := do
  require (state.isFailureTarget) (.rejected "invalid terminal gateway delivery state")
  .ok (transitionClaim claim state none (some (errorClass, error)) none q)

-----------------------------------------------------------------------------------------
-- The queue as a transition system
-----------------------------------------------------------------------------------------

inductive QueueCall
  | insertOutbox (entry : OutboxRow)
  | projectToGateway (entry : OutboxRow) (route : DeliveryRoute)
      (ids : Nat → GatewayDeliveryId) (now : Timestamp)
  | enqueueGatewayDelivery (delivery : NewGatewayDelivery) (id : GatewayDeliveryId)
      (now : Timestamp)
  | claimGatewayDeliveries (gateway owner : String) (now claimUntil : Timestamp)
      (limit : Nat)
  | renewGatewayDelivery (claim : GatewayDeliveryClaim) (claimUntil : Timestamp)
  | completeGatewayDelivery (claim : GatewayDeliveryClaim) (remoteMessageId : Option String)
  | retryGatewayDelivery (claim : GatewayDeliveryClaim) (nextAttemptAt : Timestamp)
      (errorClass error : String)
  | setGatewayDeliveryRetrySafe (claim : GatewayDeliveryClaim) (retrySafe : Bool)
  | failGatewayDelivery (claim : GatewayDeliveryClaim) (state : GatewayDeliveryState)
      (errorClass error : String)

/-- The transaction of a call, with the deliveries it hands out. -/
def QueueCall.perform
    : QueueCall → GatewayQueue
      → Except StoreError (List ClaimedGatewayDelivery × GatewayQueue)
  | .insertOutbox entry, q => do
      let outbox ← execute (q.outbox.insert? entry)
      .ok ([], { q with outbox := outbox })
  | .projectToGateway entry route ids now, q => do
      let q ← Sqlite.projectToGateway entry route ids now q
      .ok ([], q)
  | .enqueueGatewayDelivery delivery id now, q => do
      let (_, q) ← Sqlite.enqueueGatewayDelivery delivery id now q
      .ok ([], q)
  | .claimGatewayDeliveries gateway owner now claimUntil limit, q =>
      Sqlite.claimGatewayDeliveries gateway owner now claimUntil limit q
  | .renewGatewayDelivery claim claimUntil, q =>
      .ok ([], (Sqlite.renewGatewayDelivery claim claimUntil q).2)
  | .completeGatewayDelivery claim remoteMessageId, q =>
      .ok ([], (Sqlite.completeGatewayDelivery claim remoteMessageId q).2)
  | .retryGatewayDelivery claim nextAttemptAt errorClass error, q =>
      .ok ([], (Sqlite.retryGatewayDelivery claim nextAttemptAt errorClass error q).2)
  | .setGatewayDeliveryRetrySafe claim retrySafe, q =>
      .ok ([], (Sqlite.setGatewayDeliveryRetrySafe claim retrySafe q).2)
  | .failGatewayDelivery claim state errorClass error, q => do
      let (_, q) ← Sqlite.failGatewayDelivery claim state errorClass error q
      .ok ([], q)

/-- The queue after a call; a failed one leaves it as it is. -/
def GatewayQueue.after (q : GatewayQueue) (call : QueueCall) : GatewayQueue :=
  match call.perform q with
  | .ok (_, q') => q'
  | .error _ => q

/-- The deliveries a call hands out. -/
def GatewayQueue.claims (q : GatewayQueue) (call : QueueCall) : List ClaimedGatewayDelivery :=
  match call.perform q with
  | .ok (claimed, _) => claimed
  | .error _ => []

/-- All histories of calls, by any workers and in any order. -/
def gatewayQueue : System GatewayQueue QueueCall where
  Initial q := q = ⟨∅, ∅⟩
  Step q call q' := q' = q.after call

/-- The queue after a history of calls. -/
def GatewayQueue.play (q : GatewayQueue) (calls : List QueueCall) : GatewayQueue :=
  calls.foldl GatewayQueue.after q

/-- Every call of the history is allowed when it is made. -/
def GatewayQueue.Keeps (allowed : GatewayQueue → QueueCall → Prop) (q : GatewayQueue)
    : List QueueCall → Prop
  | [] => True
  | call :: rest => allowed q call ∧ (q.after call).Keeps allowed rest

instance GatewayQueue.decidableKeeps (allowed : GatewayQueue → QueueCall → Prop)
    [∀ q, DecidablePred (allowed q)]
    : (q : GatewayQueue) → (calls : List QueueCall) → Decidable (q.Keeps allowed calls)
  | _, [] => .isTrue trivial
  | q, call :: rest =>
      have := GatewayQueue.decidableKeeps allowed (q.after call) rest
      inferInstanceAs (Decidable (_ ∧ _))

/-- A history of allowed calls stays within the restricted system, by induction. -/
theorem reachable_queue {allowed : GatewayQueue → QueueCall → Prop} {q : GatewayQueue}
    (reached : (gatewayQueue.restrict allowed).Reachable q) (calls : List QueueCall)
    (keeps : q.Keeps allowed calls)
    : (gatewayQueue.restrict allowed).Reachable (q.play calls) := by
  induction calls generalizing q with
  | nil => exact reached
  | cons call rest ih => exact ih (.step reached ⟨keeps.1, rfl⟩) keeps.2

/-- What the calls of a history show. -/
def GatewayQueue.shown {α : Type} (shows : GatewayQueue → QueueCall → GatewayQueue → List α)
    (q : GatewayQueue)
    : List QueueCall → List α
  | [] => []
  | call :: rest => shows q call (q.after call) ++ (q.after call).shown shows rest

/-- A history of allowed calls is recorded, by induction on it. -/
theorem recorded_queue {α : Type} {shows : GatewayQueue → QueueCall → GatewayQueue → List α}
    {allowed : GatewayQueue → QueueCall → Prop} {q : GatewayQueue} {log : List α}
    (recorded : ((gatewayQueue.restrict allowed).recording shows).Reachable (q, log))
    (calls : List QueueCall) (keeps : q.Keeps allowed calls)
    : ((gatewayQueue.restrict allowed).recording shows).Reachable
      (q.play calls, log ++ q.shown shows calls) := by
  induction calls generalizing q log with
  | nil =>
      rw [GatewayQueue.shown, List.append_nil]
      exact recorded
  | cons call rest ih =>
      have taken : ((gatewayQueue.restrict allowed).recording shows).Step (q, log) call
          (q.after call, log ++ shows q call (q.after call)) :=
        ⟨⟨keeps.1, rfl⟩, rfl⟩
      have rest := ih (.step recorded taken) keeps.2
      rwa [List.append_assoc] at rest

/-- The queue before the first call. -/
def GatewayQueue.empty : GatewayQueue := ⟨∅, ∅⟩

theorem reachable_emptyQueue (allowed : GatewayQueue → QueueCall → Prop)
    : (gatewayQueue.restrict allowed).Reachable .empty :=
  .initial rfl

theorem recorded_emptyQueue {α : Type} (allowed : GatewayQueue → QueueCall → Prop)
    (shows : GatewayQueue → QueueCall → GatewayQueue → List α)
    : ((gatewayQueue.restrict allowed).recording shows).Reachable (.empty, []) :=
  .initial ⟨rfl, rfl⟩

end Codrik.Runtime.Sqlite

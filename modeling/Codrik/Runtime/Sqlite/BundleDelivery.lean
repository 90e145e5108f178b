import Codrik.Runtime.Sqlite.Recovery

/-! Claiming, loading and acknowledging result bundles (`BundleStore` of
`sqlite/bundles.rs`).
-/

namespace Codrik.Runtime.Sqlite

open Codrik.Relational

-----------------------------------------------------------------------------------------
-- Claims
-----------------------------------------------------------------------------------------

structure BundleClaim where
  bundleId : BundleId
  owner : String
  expiresAt : Timestamp
deriving DecidableEq

structure ClaimedBundleRef where
  claim : BundleClaim
  requestId : RequestId
  attemptCount : Nat
deriving DecidableEq

inductive ClaimedBundleLoad
  | loaded (bundle : ResultBundle)
  | failedTerminal
  | delivered
  | fenced
deriving DecidableEq

inductive ClaimRenewal
  | renewed (claim : BundleClaim)
  | fenced
deriving DecidableEq

inductive ClaimTransition
  | applied | fenced
deriving DecidableEq

structure BundleAck where
  actorId : ActorId
  requestId : RequestId
  bundleId : BundleId
  deliveryIds : List DeliveryId

inductive AckOutcome
  | delivered | alreadyDelivered
deriving DecidableEq

/-- A bundle that a deliverer may claim now. -/
def Claimable (now : Timestamp) (bundle : BundleRow) : Prop :=
  bundle.state = .pending
    ∨ (bundle.state = .failedRetryable ∧ ∀ time ∈ bundle.nextAttemptAt, time ≤ now)

instance (now : Timestamp) : DecidablePred (Claimable now) :=
  fun _ => inferInstanceAs (Decidable (_ ∨ _))

/-- A bundle under a live claim: its owner and expiry are those of the claim. -/
def ClaimedBy (claim : BundleClaim) (now : Timestamp) (bundle : BundleRow) : Prop :=
  bundle.id = claim.bundleId ∧ bundle.state = .delivering
    ∧ bundle.claimOwner = some claim.owner ∧ bundle.claimExpiresAt = some claim.expiresAt
    ∧ claim.expiresAt > now

instance (claim : BundleClaim) (now : Timestamp) : DecidablePred (ClaimedBy claim now) :=
  fun _ => inferInstanceAs (Decidable (_ ∧ _))

/-- The start of a delivery. -/
def BundleRow.claim (owner : String) (expiry : Timestamp) (bundle : BundleRow) : BundleRow :=
  { bundle with
    state := .delivering
    attemptCount := bundle.attemptCount + 1
    claimOwner := some owner
    claimExpiresAt := some expiry
    nextAttemptAt := none
    lastError := none }

/-- The end of a delivery: the claim is given up. -/
def BundleRow.close (state : BundleState) (nextAttempt : Option Timestamp)
    (error : Option String) (bundle : BundleRow)
    : BundleRow :=
  { bundle with
    state := state
    claimOwner := none
    claimExpiresAt := none
    nextAttemptAt := nextAttempt
    lastError := error }

/-- The loop over the candidates of a claim. -/
def claimEach (owner : String) (requested : List RequestId) (now expiry : Timestamp)
    : Nat → List BundleRow → Store → List ClaimedBundleRef × Store
  | _, [], s => ([], s)
  | limit, candidate :: rest, s =>
      if limit = 0 ∨ candidate.requestId ∉ requested
          ∨ s.resultBundles.count (fun row => row.id = candidate.id ∧ Claimable now row) ≠ 1
      then
        claimEach owner requested now expiry limit rest s
      else
        let claimed := candidate.claim owner expiry
        let others := claimEach owner requested now expiry (limit - 1) rest { s with
          resultBundles := s.resultBundles.updateWhere
            (fun row => row.id = candidate.id ∧ Claimable now row) (·.claim owner expiry) }
        (⟨⟨candidate.id, owner, expiry⟩, candidate.requestId, claimed.attemptCount⟩
          :: others.1, others.2)

/-- `claim_ready_bundle_refs` -/
def claimReadyBundleRefs (owner : String) (requestIds : List RequestId)
    (now expiry : Timestamp) (limit : Nat) (s : Store)
    : Except StoreError (List ClaimedBundleRef × Store) := do
  require (¬isBlank owner ∧ expiry > now)
    (.rejected "bundle claim requires an owner and a future expiry")
  let s := { s with
    resultBundles := s.resultBundles.updateWhere (ClaimExpired now)
      (·.interrupt now "bundle claim expired before acknowledgement") }
  let candidates := s.resultBundles.selectOrdered (Claimable now)
    (fun row => toLex (row.createdAt, row.id))
  .ok (claimEach owner requestIds now expiry (min limit 32) candidates s)

/-- `renew_bundle` -/
def renewBundle (claim : BundleClaim) (now expiry : Timestamp) (s : Store)
    : Except StoreError (ClaimRenewal × Store) := do
  require (expiry > now) (.rejected "renewed bundle expiry must be in the future")
  if s.resultBundles.count (ClaimedBy claim now) = 1 then
    .ok (.renewed { claim with expiresAt := expiry },
      { s with
        resultBundles := s.resultBundles.updateWhere (ClaimedBy claim now)
          (fun row => { row with claimExpiresAt := some expiry }) })
  else
    .ok (.fenced, s)

-----------------------------------------------------------------------------------------
-- Loading
-----------------------------------------------------------------------------------------

/-- The request of the bundle names it as its result. -/
def Reciprocal (s : Store) (bundle : BundleRow) : Prop :=
  ∃ request ∈ s.localRequests, request.requestId = bundle.requestId
    ∧ request.resultBundleId = some bundle.id

instance (s : Store) : DecidablePred (Reciprocal s) :=
  fun _ => inferInstanceAs (Decidable (∃ request ∈ s.localRequests, _))

/-- The text an error of `load_bundle_row` is stored with. -/
def StoreError.text : StoreError → String
  | .rejected message => message
  | .ackRejected message => message
  | _ => ""

/-- `load_claimed_bundle`: a bundle that cannot be delivered fails for good. -/
def loadClaimedBundle (claim : BundleClaim) (now : Timestamp) (s : Store)
    : Except StoreError (ClaimedBundleLoad × Store) :=
  match s.resultBundles.find? (·.id = claim.bundleId) with
  | none => .ok (.fenced, s)
  | some bundle =>
      if bundle.state = .delivered then
        .ok (.delivered, s)
      else if ¬ClaimedBy claim now bundle then
        .ok (.fenced, s)
      else if ¬Reciprocal s bundle then
        .ok (.failedTerminal,
          { s with
            resultBundles := s.resultBundles.updateWhere (·.id = claim.bundleId)
              (·.close .failedTerminal none
                (some "request does not reciprocally own claimed bundle")) })
      else
        match loadBundleRow s claim.bundleId with
        | .ok loaded => .ok (.loaded loaded, s)
        | .error error => do
            require (s.resultBundles.count (ClaimedBy claim now) = 1)
              (.rejected "bundle claim is stale")
            .ok (.failedTerminal,
              { s with
                resultBundles := s.resultBundles.updateWhere (ClaimedBy claim now)
                  (·.close .failedTerminal none (some error.text)) })

/-- `load_bundle` -/
def loadBundle (id : BundleId) (s : Store) : Except StoreError ResultBundle :=
  loadBundleRow s id

/-- `load_replay_bundle` -/
def loadReplayBundle (actorId : ActorId) (requestId : RequestId) (id : BundleId) (s : Store)
    : Except StoreError ResultBundle := do
  require (∃ bundle ∈ s.resultBundles, bundle.id = id ∧ bundle.requestId = requestId
      ∧ bundle.state = .delivered
      ∧ ∃ request ∈ s.localRequests, request.requestId = bundle.requestId
        ∧ request.actorId = actorId ∧ request.resultBundleId = some bundle.id)
    (.rejected "replay reference no longer has actor-scoped bundle authority")
  require (∀ row ∈ memberships s id, row.actorId = actorId)
    (.rejected "replay bundle contains delivery payloads owned by another actor")
  loadBundleRow s id

-----------------------------------------------------------------------------------------
-- The end of a delivery
-----------------------------------------------------------------------------------------

/-- What an acknowledgement is checked against. -/
def validateAck (ack : BundleAck) (bundle : BundleRow) (request : RequestRow) (s : Store)
    : Except StoreError Unit := do
  require (bundle.requestId = ack.requestId)
    (.ackRejected "bundle does not belong to request")
  require (request.actorId = ack.actorId) (.ackRejected "bundle does not belong to actor")
  require (request.resultBundleId = some ack.bundleId)
    (.ackRejected "request does not reciprocally own the acknowledged bundle")
  let canonical ← loadBundleRow s ack.bundleId
  let durable := memberships s ack.bundleId
  require (∀ row ∈ durable, row.address = ack.requestId ∧ row.actorId = ack.actorId)
    (.ackRejected "bundle route does not belong to request")
  let expected := (canonical.manifest.map (·.deliveryId)).dedup
  require (expected.length = durable.length ∧ ack.deliveryIds.Nodup
      ∧ ∀ id, id ∈ expected ++ ack.deliveryIds → id ∈ expected ∧ id ∈ ack.deliveryIds)
    (.ackRejected "ACK delivery IDs do not exactly match the bundle manifest")

/-- `acknowledge_bundle` -/
def acknowledgeBundle (ack : BundleAck) (s : Store)
    : Except StoreError (AckOutcome × Store) :=
  match s.resultBundles.find? (·.id = ack.bundleId) with
  | none => .error (.ackRejected "bundle was not found")
  | some bundle =>
      match s.localRequests.find? (·.requestId = bundle.requestId) with
      | none => .error (.ackRejected "bundle was not found")
      | some request => do
          validateAck ack bundle request s
          match bundle.state with
          | .delivered => .ok (.alreadyDelivered, s)
          | .pending => .error (.ackRejected "pending bundle cannot be acknowledged")
          | .failedTerminal =>
              .error (.ackRejected "terminally failed bundle cannot be acknowledged")
          | _ => .ok (.delivered,
              { s with
                resultBundles := s.resultBundles.updateWhere
                  (fun row => row.id = ack.bundleId
                    ∧ (row.state = .delivering ∨ row.state = .failedRetryable))
                  (·.close .delivered none none) })

/-- `fail_bundle_retryable` -/
def failBundleRetryable (claim : BundleClaim) (error : String) (nextAttempt now : Timestamp)
    (s : Store)
    : Except StoreError (ClaimTransition × Store) :=
  if s.resultBundles.count (ClaimedBy claim now) = 1 then
    .ok (.applied,
      { s with
        resultBundles := s.resultBundles.updateWhere (ClaimedBy claim now)
          (·.close .failedRetryable (some nextAttempt) (some error)) })
  else
    .ok (.fenced, s)

/-- `fail_bundle_terminal` -/
def failBundleTerminal (claim : BundleClaim) (error : String) (now : Timestamp) (s : Store)
    : Except StoreError (Unit × Store) := do
  require (s.resultBundles.count (ClaimedBy claim now) = 1) (.rejected "bundle claim is stale")
  .ok ((),
    { s with
      resultBundles := s.resultBundles.updateWhere (ClaimedBy claim now)
        (·.close .failedTerminal none (some error)) })

-----------------------------------------------------------------------------------------
-- All operations
-----------------------------------------------------------------------------------------

/-- The operations of a bundle's deliverers and recipients that may write. -/
inductive BundleStep
  | claimReadyBundleRefs (owner : String) (requestIds : List RequestId)
      (now expiry : Timestamp) (limit : Nat)
  | renewBundle (claim : BundleClaim) (now expiry : Timestamp)
  | loadClaimedBundle (claim : BundleClaim) (now : Timestamp)
  | acknowledgeBundle (ack : BundleAck)
  | failBundleRetryable (claim : BundleClaim) (error : String) (nextAttempt now : Timestamp)
  | failBundleTerminal (claim : BundleClaim) (error : String) (now : Timestamp)

inductive BundleAnswer
  | claimed (bundles : List ClaimedBundleRef)
  | renewal (renewal : ClaimRenewal)
  | load (load : ClaimedBundleLoad)
  | acknowledged (outcome : AckOutcome)
  | transition (transition : ClaimTransition)
  | failed
deriving DecidableEq

/-- The time an operation reads from the clock. -/
def BundleStep.time? : BundleStep → Option Timestamp
  | .claimReadyBundleRefs _ _ now _ _ => some now
  | .renewBundle _ now _ => some now
  | .loadClaimedBundle _ now => some now
  | .acknowledgeBundle _ => none
  | .failBundleRetryable _ _ _ now => some now
  | .failBundleTerminal _ _ now => some now

/-- The transaction of one operation. -/
def BundleStep.perform (s : Store) : BundleStep → Except StoreError (BundleAnswer × Store)
  | .claimReadyBundleRefs owner requestIds now expiry limit => do
      let (bundles, s) ← Sqlite.claimReadyBundleRefs owner requestIds now expiry limit s
      .ok (.claimed bundles, s)
  | .renewBundle claim now expiry => do
      let (renewal, s) ← Sqlite.renewBundle claim now expiry s
      .ok (.renewal renewal, s)
  | .loadClaimedBundle claim now => do
      let (load, s) ← Sqlite.loadClaimedBundle claim now s
      .ok (.load load, s)
  | .acknowledgeBundle ack => do
      let (outcome, s) ← Sqlite.acknowledgeBundle ack s
      .ok (.acknowledged outcome, s)
  | .failBundleRetryable claim error nextAttempt now => do
      let (transition, s) ← Sqlite.failBundleRetryable claim error nextAttempt now s
      .ok (.transition transition, s)
  | .failBundleTerminal claim error now => do
      let (_, s) ← Sqlite.failBundleTerminal claim error now s
      .ok (.failed, s)

end Codrik.Runtime.Sqlite

import Codrik.Runtime.Sqlite.Schema
import Codrik.Transition.System

/-! Codes that link an identity to an actor, and the limit on attempts to redeem one
(`sqlite/identity_link.rs`).
-/

namespace Codrik.Runtime.Sqlite.IdentityLink

open Codrik.Relational
open Codrik.Transition

-----------------------------------------------------------------------------------------
-- Tables
-----------------------------------------------------------------------------------------

/-- The SHA-256 digest of a code. -/
abbrev CodeHash := Vector UInt8 32

structure LinkIdentity where
  provider : String
  subject : String
  username : Option String
deriving DecidableEq

/-- A row of `identities` with its username. -/
structure LinkedIdentityRow where
  provider : String
  subject : String
  actorId : ActorId
  username : Option String
deriving DecidableEq

instance : Constrained LinkedIdentityRow where
  Clash a b := a.provider = b.provider ∧ a.subject = b.subject
  symm clash := ⟨clash.1.symm, clash.2.symm⟩

structure LinkCodeRow where
  actorId : ActorId
  codeHash : CodeHash
  createdAt : Timestamp
  expiresAt : Timestamp
deriving DecidableEq

instance : Constrained LinkCodeRow where
  Clash a b := a.actorId = b.actorId ∨ a.codeHash = b.codeHash
  symm clash := clash.imp Eq.symm Eq.symm

structure LinkAttemptRow where
  provider : String
  subject : String
  windowStartedAt : Timestamp
  failureCount : Nat
  blockedUntil : Option Timestamp
deriving DecidableEq

instance : Constrained LinkAttemptRow where
  Clash a b := a.provider = b.provider ∧ a.subject = b.subject
  symm clash := ⟨clash.1.symm, clash.2.symm⟩

structure GatewayCommandKey where
  gateway : String
  externalId : String
deriving DecidableEq

inductive StoreLinkRedemption
  | linked (actorId : ActorId)
  | alreadyLinked (actorId : ActorId)
  | invalidOrExpired
  | rateLimited (retryAt : Timestamp)
  | identityConflict (actorId : ActorId)
deriving DecidableEq

/-- `GatewayCommandOutcome`, which is also what a command answers. -/
inductive GatewayCommandOutcome
  | linked (actorId : ActorId)
  | alreadyLinked (actorId : ActorId)
  | invalidOrExpired
  | rateLimited (retryAt : Timestamp)
  | identityConflict
deriving DecidableEq

structure GatewayCommandRow where
  key : GatewayCommandKey
  kind : String
  outcomeJson : GatewayCommandOutcome
  createdAt : Timestamp
deriving DecidableEq

instance : Constrained GatewayCommandRow where
  Clash a b := a.key = b.key
  symm := Eq.symm

/-- The tables that identity linking reads and writes. -/
structure LinkStore where
  actors : Table ActorRow
  identities : Table LinkedIdentityRow
  codes : Table LinkCodeRow
  attempts : Table LinkAttemptRow
  commands : Table GatewayCommandRow

-----------------------------------------------------------------------------------------
-- Codes
-----------------------------------------------------------------------------------------

inductive StoreLinkCodeReplacement
  | stored
  | hashCollision
deriving DecidableEq

/-- `replace_link_code` -/
def replaceLinkCode (actor : ActorId) (codeHash : CodeHash) (createdAt expiresAt : Timestamp)
    (s : LinkStore)
    : Except StoreError (StoreLinkCodeReplacement × LinkStore) := do
  require (createdAt < expiresAt) (.rejected "identity link expiry must be after creation")
  match s.actors.find? (·.id = actor) with
  | none => .error (.rejected s!"runtime actor {actor.name} does not exist")
  | some row => do
      require (row.enabled = true) (.rejected s!"runtime actor {actor.name} is disabled")
      if ∃ code ∈ s.codes, code.codeHash = codeHash ∧ code.actorId ≠ actor then
        .ok (.hashCollision, s)
      else do
        let codes ← execute
          (s.codes.upsert? (·.actorId = actor) ⟨actor, codeHash, createdAt, expiresAt⟩)
        .ok (.stored, { s with codes := codes })

/-- The actor a code may be redeemed for. -/
def LinkStore.codeActor (s : LinkStore) (codeHash : Option CodeHash) (now : Timestamp)
    : Option ActorId :=
  codeHash.bind (fun hash =>
    (s.codes.find? (fun code => code.codeHash = hash ∧ code.expiresAt > now
      ∧ ∃ actor ∈ s.actors, actor.id = code.actorId ∧ actor.enabled = true)).map (·.actorId))

-----------------------------------------------------------------------------------------
-- Attempts
-----------------------------------------------------------------------------------------

def attemptWindowMillis : Int := 600000

/-- The row of an identity. -/
def LinkAttemptRow.Of (identity : LinkIdentity) (row : LinkAttemptRow) : Prop :=
  row.provider = identity.provider ∧ row.subject = identity.subject

instance (identity : LinkIdentity) : DecidablePred (LinkAttemptRow.Of identity) :=
  fun _ => inferInstanceAs (Decidable (_ ∧ _))

def LinkedIdentityRow.Of (identity : LinkIdentity) (row : LinkedIdentityRow) : Prop :=
  row.provider = identity.provider ∧ row.subject = identity.subject

instance (identity : LinkIdentity) : DecidablePred (LinkedIdentityRow.Of identity) :=
  fun _ => inferInstanceAs (Decidable (_ ∧ _))

/-- The attempts of an identity that a failure is counted with. -/
def LinkAttemptRow.Counts (now : Timestamp) (row : LinkAttemptRow) : Prop :=
  (∃ blockedUntil ∈ row.blockedUntil, now < blockedUntil)
    ∨ (row.blockedUntil = none ∧ now < row.windowStartedAt.plusMillis attemptWindowMillis)

instance (now : Timestamp) : DecidablePred (LinkAttemptRow.Counts now) := fun row =>
  decidable_of_iff (row.blockedUntil.any (now < ·)
      ∨ (row.blockedUntil = none ∧ now < row.windowStartedAt.plusMillis attemptWindowMillis))
    (by cases blocked : row.blockedUntil <;> simp [LinkAttemptRow.Counts, blocked])

/-- What a failure makes of the row of an identity. -/
def nextAttempt (identity : LinkIdentity) (attempt : Option LinkAttemptRow) (now : Timestamp)
    : LinkAttemptRow :=
  match attempt with
  | some row =>
      if row.Counts now then
        let count := min (row.failureCount + 1) 5
        ⟨identity.provider, identity.subject, row.windowStartedAt, count,
          if count = 5 then some (now.plusMillis attemptWindowMillis) else none⟩
      else
        ⟨identity.provider, identity.subject, now, 1, none⟩
  | none => ⟨identity.provider, identity.subject, now, 1, none⟩

/-- `record_failure` -/
def recordFailure (identity : LinkIdentity) (attempt : Option LinkAttemptRow) (now : Timestamp)
    (s : LinkStore)
    : Except StoreError LinkStore := do
  let row := nextAttempt identity attempt now
  require (1 ≤ row.failureCount ∧ row.failureCount ≤ 5) .constraint
  let attempts ← execute (s.attempts.upsert? (·.Of identity) row)
  .ok { s with attempts := attempts }

/-- `consume_code_and_attempts` -/
def consumeCodeAndAttempts (actor : ActorId) (identity : LinkIdentity) (s : LinkStore)
    : LinkStore :=
  { s with
    codes := s.codes.deleteWhere (·.actorId = actor)
    attempts := s.attempts.deleteWhere (·.Of identity) }

/-- The identities with the username of one of them brought up to date. -/
def LinkIdentity.renamed (identity : LinkIdentity) (identities : Table LinkedIdentityRow)
    : Table LinkedIdentityRow :=
  match identity.username with
  | some username =>
      identities.updateWhere (·.Of identity) (fun row => { row with username := some username })
  | none => identities

/-- `redeem_in_transaction` -/
def redeemInTransaction (identity : LinkIdentity) (codeHash : Option CodeHash) (now : Timestamp)
    (s : LinkStore)
    : Except StoreError (StoreLinkRedemption × LinkStore) :=
  let attempt := s.attempts.find? (·.Of identity)
  match (attempt.bind (·.blockedUntil)).filter (fun retryAt => decide (now < retryAt)) with
  | some retryAt => .ok (.rateLimited retryAt, s)
  | none =>
      match s.codeActor codeHash now with
      | none => do
          let s ← recordFailure identity attempt now s
          .ok (.invalidOrExpired, s)
      | some codeActor =>
          match s.identities.find? (·.Of identity) with
          | some existing =>
              if existing.actorId ≠ codeActor then
                .ok (.identityConflict existing.actorId, s)
              else
                let identities := identity.renamed s.identities
                .ok (.alreadyLinked codeActor,
                  consumeCodeAndAttempts codeActor identity { s with identities := identities })
          | none => do
              let identities ← execute (s.identities.insert?
                ⟨identity.provider, identity.subject, codeActor, identity.username⟩)
              .ok (.linked codeActor,
                consumeCodeAndAttempts codeActor identity { s with identities := identities })

-----------------------------------------------------------------------------------------
-- Redemptions
-----------------------------------------------------------------------------------------

/-- The identity names a provider and a subject. -/
def LinkIdentity.Named (identity : LinkIdentity) : Prop :=
  isBlank identity.provider = false ∧ isBlank identity.subject = false

instance : DecidablePred LinkIdentity.Named := fun _ => inferInstanceAs (Decidable (_ ∧ _))

def GatewayCommandKey.Named (key : GatewayCommandKey) : Prop :=
  isBlank key.gateway = false ∧ isBlank key.externalId = false

instance : DecidablePred GatewayCommandKey.Named := fun _ => inferInstanceAs (Decidable (_ ∧ _))

/-- `redeem_link_code` -/
def redeemLinkCode (identity : LinkIdentity) (codeHash : Option CodeHash) (now : Timestamp)
    (s : LinkStore)
    : Except StoreError (StoreLinkRedemption × LinkStore) := do
  require identity.Named (.rejected "identity provider and subject must not be blank")
  redeemInTransaction identity codeHash now s

/-- `gateway_outcome` -/
def gatewayOutcome : StoreLinkRedemption → GatewayCommandOutcome
  | .linked actorId => .linked actorId
  | .alreadyLinked actorId => .alreadyLinked actorId
  | .invalidOrExpired => .invalidOrExpired
  | .rateLimited retryAt => .rateLimited retryAt
  | .identityConflict _ => .identityConflict

/-- `redeem_link_code_once` -/
def redeemLinkCodeOnce (key : GatewayCommandKey) (identity : LinkIdentity)
    (codeHash : Option CodeHash) (now : Timestamp) (s : LinkStore)
    : Except StoreError (GatewayCommandOutcome × LinkStore) := do
  require key.Named (.rejected "gateway command key must not be blank")
  require identity.Named (.rejected "identity provider and subject must not be blank")
  match s.commands.find? (·.key = key) with
  | some stored => do
      require (stored.kind = "identity_link")
        (.rejected "gateway command key was reused for a different command kind")
      .ok (stored.outcomeJson, s)
  | none => do
      let (outcome, s) ← redeemInTransaction identity codeHash now s
      let commands ← execute
        (s.commands.insert? ⟨key, "identity_link", gatewayOutcome outcome, now⟩)
      .ok (gatewayOutcome outcome, { s with commands := commands })

-----------------------------------------------------------------------------------------
-- Garbage collection
-----------------------------------------------------------------------------------------

/-- The attempts that `collect_expired_link_state` finds over. -/
def LinkAttemptRow.Over (now : Timestamp) (row : LinkAttemptRow) : Prop :=
  (∃ blockedUntil ∈ row.blockedUntil, blockedUntil ≤ now)
    ∨ (row.blockedUntil = none ∧ row.windowStartedAt + attemptWindowMillis ≤ now)

instance (now : Timestamp) : DecidablePred (LinkAttemptRow.Over now) := fun row =>
  decidable_of_iff (row.blockedUntil.any (· ≤ now)
      ∨ (row.blockedUntil = none ∧ row.windowStartedAt + attemptWindowMillis ≤ now))
    (by cases blocked : row.blockedUntil <;> simp [LinkAttemptRow.Over, blocked])

/-- `collect_expired_link_state`: the number of rows it has removed. -/
def collectExpiredLinkState (now : Timestamp) (limit : Nat) (s : LinkStore) : Nat × LinkStore :=
  let codes := (s.codes.selectOrdered (·.expiresAt ≤ now) (·.expiresAt)).take limit
  let remaining := limit - codes.length
  let attempts := (s.attempts.selectOrdered (·.Over now) (·.windowStartedAt)).take remaining
  (codes.length + attempts.length,
    { s with
      codes := s.codes.deleteWhere (fun row => ∃ code ∈ codes, code.actorId = row.actorId)
      attempts := s.attempts.deleteWhere (fun row =>
        ∃ attempt ∈ attempts, attempt.provider = row.provider ∧ attempt.subject = row.subject) })

-----------------------------------------------------------------------------------------
-- Histories
-----------------------------------------------------------------------------------------

inductive LinkCall
  | createActor (actor : ActorId)
  | setActorEnabled (actor : ActorId) (enabled : Bool)
  | replaceLinkCode (actor : ActorId) (codeHash : CodeHash) (expiresAt : Timestamp)
  | redeemLinkCode (identity : LinkIdentity) (codeHash : Option CodeHash)
  | redeemLinkCodeOnce (key : GatewayCommandKey) (identity : LinkIdentity)
      (codeHash : Option CodeHash)
  | collectExpiredLinkState (limit : Nat)

/-- What a call answers. -/
inductive LinkAnswer
  | done
  | replaced (replacement : StoreLinkCodeReplacement)
  | redeemed (outcome : GatewayCommandOutcome)
  | failed (error : StoreError)
deriving DecidableEq

/-- The outcome of a transaction; a failed one leaves the store as it is. -/
def answered {α : Type} (s : LinkStore) (answer : α → LinkAnswer)
    : Except StoreError (α × LinkStore) → LinkAnswer × LinkStore
  | .ok (value, s') => (answer value, s')
  | .error error => (.failed error, s)

/-- A call at a time. -/
def LinkCall.perform (now : Timestamp) (s : LinkStore) : LinkCall → LinkAnswer × LinkStore
  | .createActor actor => (.done, { s with actors := s.actors.insertOrIgnore ⟨actor, true, 0⟩ })
  | .setActorEnabled actor enabled =>
      (.done, { s with
        actors := s.actors.updateWhere (·.id = actor) (fun row => { row with enabled := enabled }) })
  | .replaceLinkCode actor codeHash expiresAt =>
      answered s .replaced (IdentityLink.replaceLinkCode actor codeHash now expiresAt s)
  | .redeemLinkCode identity codeHash =>
      answered s (fun outcome => .redeemed (gatewayOutcome outcome))
        (IdentityLink.redeemLinkCode identity codeHash now s)
  | .redeemLinkCodeOnce key identity codeHash =>
      answered s .redeemed (IdentityLink.redeemLinkCodeOnce key identity codeHash now s)
  | .collectExpiredLinkState limit => (.done, (IdentityLink.collectExpiredLinkState now limit s).2)

/-- The times an `i64` can hold. -/
def Representable (now : Timestamp) : Prop :=
  -9223372036854775808 ≤ now ∧ now ≤ 9223372036854775807

instance : DecidablePred Representable := fun _ => inferInstanceAs (Decidable (_ ∧ _))

/-- The store, and the time of the last call. -/
structure LinkRun where
  store : LinkStore
  clock : Timestamp

/-- All histories of calls at times that never decrease, over any actors and identities. -/
def identityLinks : System LinkRun (Timestamp × LinkCall) where
  Initial s := s.store.codes = ∅ ∧ s.store.attempts = ∅ ∧ s.store.commands = ∅
  Step s label s' :=
    s.clock ≤ label.1 ∧ Representable label.1
      ∧ s' = ⟨(label.2.perform label.1 s.store).2, label.1⟩

end Codrik.Runtime.Sqlite.IdentityLink

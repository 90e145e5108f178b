import Codrik.Limiting.Limiter
import Codrik.Runtime.Sqlite.IdentityLink

/-! What a redemption answers and what it changes, each as a function of the store, and what the
other calls of identity linking do to the codes and the attempts.
-/

namespace Codrik.Runtime.Sqlite.IdentityLink

open Codrik.Limiting
open Codrik.Relational

variable {s : LinkStore} {identity : LinkIdentity} {codeHash : Option CodeHash} {now : Timestamp}

-----------------------------------------------------------------------------------------
-- The limit on attempts
-----------------------------------------------------------------------------------------

/-- The end of a window or a block. -/
def attemptExpiry (start : Timestamp) : Timestamp := start.plusMillis attemptWindowMillis

/-- What the row of an identity remembers. -/
def attemptLimiter : Option LinkAttemptRow → Limiter Timestamp
  | none => .idle
  | some row =>
      match row.blockedUntil with
      | some blockedUntil => .blocked blockedUntil
      | none => .counting row.windowStartedAt row.failureCount

/-- What the store remembers of an identity's attempts. -/
def LinkStore.limiter (s : LinkStore) (identity : LinkIdentity) : Limiter Timestamp :=
  attemptLimiter (s.attempts.find? (·.Of identity))

/-- What an answer counts as. -/
def verdict : GatewayCommandOutcome → Verdict
  | .linked _ => .success
  | .alreadyLinked _ => .success
  | .invalidOrExpired => .failure
  | .rateLimited _ => .neither
  | .identityConflict => .neither

/-- The counts of the rows are those that the limit allows. -/
def LinkStore.Counted (s : LinkStore) : Prop :=
  ∀ row ∈ s.attempts, 1 ≤ row.failureCount ∧ row.failureCount ≤ 5
    ∧ (row.blockedUntil = none → row.failureCount ≤ 4)

/-- The rows of an identity are one row. -/
theorem attempt_key (a b : LinkAttemptRow) (hit : a.Of identity) (hit' : b.Of identity)
    : Constrained.Clash a b :=
  ⟨hit.1.trans hit'.1.symm, hit.2.trans hit'.2.symm⟩

/-- The block that an attempt runs into. -/
theorem filter_blockedUntil (attempt : Option LinkAttemptRow) (now : Timestamp)
    : (attempt.bind (·.blockedUntil)).filter (fun retryAt => decide (now < retryAt))
      = (attemptLimiter attempt).blockedAt now := by
  cases attempt with
  | none => rfl
  | some row =>
      simp only [attemptLimiter, Option.bind_some]
      cases row.blockedUntil with
      | none => rfl
      | some blockedUntil => simp [Option.filter, Limiter.blockedAt]

/-- A failure that is let pass is counted. -/
theorem attemptLimiter_nextAttempt {attempt : Option LinkAttemptRow}
    (counted : ∀ row ∈ attempt, row.blockedUntil = none → row.failureCount ≤ 4)
    (free : (attemptLimiter attempt).blockedAt now = none)
    : attemptLimiter (some (nextAttempt identity attempt now))
      = (attemptLimiter attempt).after attemptExpiry 5 now .failure := by
  cases attempt with
  | none => rfl
  | some row =>
      cases blocked : row.blockedUntil with
      | some blockedUntil =>
          simp only [attemptLimiter, blocked, Limiter.blockedAt] at free
          have passed : ¬now < blockedUntil := by
            intro early
            rw [if_pos early] at free
            cases free
          have over' : ¬row.Counts now := by
            simp [LinkAttemptRow.Counts, blocked, passed]
          simp only [nextAttempt, if_neg over', attemptLimiter, blocked, Limiter.after]
      | none =>
          have few := counted row rfl blocked
          by_cases within : now < row.windowStartedAt.plusMillis attemptWindowMillis
          · have counts : row.Counts now := Or.inr ⟨blocked, within⟩
            have least : min (row.failureCount + 1) 5 = row.failureCount + 1 := by omega
            simp only [nextAttempt, if_pos counts, attemptLimiter, blocked, Limiter.after,
              attemptExpiry, least]
            by_cases last : row.failureCount + 1 = 5
            · have reached : ¬row.failureCount + 1 < 5 := by omega
              simp only [if_pos last, if_neg reached]
              exact (if_pos within).symm
            · have below : row.failureCount + 1 < 5 := by omega
              simp only [if_neg last, if_pos below]
              exact (if_pos within).symm
          · have over' : ¬row.Counts now := by
              simp [LinkAttemptRow.Counts, blocked, within]
            simp only [nextAttempt, if_neg over', attemptLimiter, blocked, Limiter.after,
              attemptExpiry]
            exact (if_neg within).symm

/-- The count after a failure is one that the limit allows. -/
theorem nextAttempt_counted (identity : LinkIdentity) (attempt : Option LinkAttemptRow)
    (now : Timestamp)
    : 1 ≤ (nextAttempt identity attempt now).failureCount
      ∧ (nextAttempt identity attempt now).failureCount ≤ 5
      ∧ ((nextAttempt identity attempt now).blockedUntil = none →
        (nextAttempt identity attempt now).failureCount ≤ 4) := by
  unfold nextAttempt
  split
  · split
    · refine ⟨by simp, by simp, fun free => ?_⟩
      simp only [ite_eq_right_iff, reduceCtorEq, imp_false] at free
      simp only
      omega
    · simp
  · simp

theorem nextAttempt_of (attempt : Option LinkAttemptRow)
    : (nextAttempt identity attempt now).Of identity := by
  unfold nextAttempt
  split
  · split <;> exact ⟨rfl, rfl⟩
  · exact ⟨rfl, rfl⟩

-----------------------------------------------------------------------------------------
-- Redemptions as functions
-----------------------------------------------------------------------------------------

/-- What a redemption answers. -/
def LinkStore.outcome (s : LinkStore) (identity : LinkIdentity) (codeHash : Option CodeHash)
    (now : Timestamp)
    : StoreLinkRedemption :=
  match (s.limiter identity).blockedAt now with
  | some retryAt => .rateLimited retryAt
  | none =>
      match s.codeActor codeHash now with
      | none => .invalidOrExpired
      | some codeActor =>
          match s.identities.find? (·.Of identity) with
          | some existing =>
              if existing.actorId ≠ codeActor then .identityConflict existing.actorId
              else .alreadyLinked codeActor
          | none => .linked codeActor

/-- The attempts after a failure. -/
def LinkStore.failed (s : LinkStore) (identity : LinkIdentity) (now : Timestamp)
    : Table LinkAttemptRow :=
  (s.attempts.upsert? (·.Of identity)
    (nextAttempt identity (s.attempts.find? (·.Of identity)) now)).getD s.attempts

/-- The identities after a redemption. -/
def LinkStore.linking (s : LinkStore) (identity : LinkIdentity)
    : StoreLinkRedemption → Table LinkedIdentityRow
  | .linked actorId =>
      s.identities.insertOrIgnore ⟨identity.provider, identity.subject, actorId, identity.username⟩
  | .alreadyLinked _ => identity.renamed s.identities
  | _ => s.identities

/-- What a redemption makes of the store. -/
def LinkStore.redeemed (s : LinkStore) (identity : LinkIdentity) (now : Timestamp)
    (outcome : StoreLinkRedemption)
    : LinkStore :=
  match outcome with
  | .linked actorId =>
      consumeCodeAndAttempts actorId identity { s with identities := s.linking identity outcome }
  | .alreadyLinked actorId =>
      consumeCodeAndAttempts actorId identity { s with identities := s.linking identity outcome }
  | .invalidOrExpired => { s with attempts := s.failed identity now }
  | .rateLimited _ => s
  | .identityConflict _ => s

/-- A failure is recorded. -/
theorem recordFailure_eq
    : recordFailure identity (s.attempts.find? (·.Of identity)) now s
      = .ok { s with attempts := s.failed identity now } := by
  have counted := nextAttempt_counted identity (s.attempts.find? (·.Of identity)) now
  obtain ⟨attempts, stored⟩ := Table.upsert?_total (t := s.attempts) (p := (·.Of identity))
    (r := nextAttempt identity (s.attempts.find? (·.Of identity)) now)
    (fun a b hit hit' => attempt_key a b hit hit')
    (fun a mem other clash => other
      ⟨clash.1.trans (nextAttempt_of _).1, clash.2.trans (nextAttempt_of _).2⟩)
  have recorded : s.failed identity now = attempts := by
    rw [LinkStore.failed, stored, Option.getD_some]
  simp only [recordFailure, bind_eq_ok, require_eq_ok, execute_eq_ok]
  exact ⟨(), ⟨counted.1, counted.2.1⟩, attempts, stored, by rw [recorded]⟩

/-- Every redemption succeeds. -/
theorem redeemInTransaction_eq
    : redeemInTransaction identity codeHash now s
      = .ok (s.outcome identity codeHash now,
        s.redeemed identity now (s.outcome identity codeHash now)) := by
  simp only [redeemInTransaction, filter_blockedUntil, LinkStore.outcome]
  rw [show attemptLimiter (s.attempts.find? (·.Of identity)) = s.limiter identity from rfl]
  cases (s.limiter identity).blockedAt now with
  | some retryAt => rfl
  | none =>
      cases s.codeActor codeHash now with
      | none =>
          simp only [recordFailure_eq]
          rfl
      | some codeActor =>
          cases found : s.identities.find? (·.Of identity) with
          | some existing =>
              by_cases other : existing.actorId ≠ codeActor
              · simp only [if_pos other]
                rfl
              · simp only [if_neg other]
                rfl
          | none =>
              have fresh := Table.find?_eq_none.mp found
              obtain ⟨identities, inserted⟩ := Table.insert?_eq_some (t := s.identities)
                (r := ⟨identity.provider, identity.subject, codeActor, identity.username⟩)
                (fun a mem clash => fresh a mem clash)
              have kept : s.linking identity (.linked codeActor) = identities := by
                rw [LinkStore.linking, Table.insertOrIgnore, inserted, Option.getD_some]
              simp only [bind_eq_ok, execute_eq_ok]
              exact ⟨identities, inserted, by rw [LinkStore.redeemed, kept]⟩

-----------------------------------------------------------------------------------------
-- What a redemption keeps
-----------------------------------------------------------------------------------------

@[simp] theorem redeemed_actors (outcome : StoreLinkRedemption)
    : (s.redeemed identity now outcome).actors = s.actors := by
  cases outcome <;> rfl

@[simp] theorem redeemed_commands (outcome : StoreLinkRedemption)
    : (s.redeemed identity now outcome).commands = s.commands := by
  cases outcome <;> rfl

/-- One identity, whatever its username is. -/
def SameIdentity (a b : LinkIdentity) : Prop := a.provider = b.provider ∧ a.subject = b.subject

instance (a : LinkIdentity) : DecidablePred (SameIdentity a) :=
  fun _ => inferInstanceAs (Decidable (_ ∧ _))

/-- Whatever answers with a limit was blocked. -/
theorem outcome_eq_rateLimited {retryAt : Timestamp}
    : s.outcome identity codeHash now = .rateLimited retryAt
      ↔ (s.limiter identity).blockedAt now = some retryAt := by
  unfold LinkStore.outcome
  cases (s.limiter identity).blockedAt now with
  | some until' => simp
  | none =>
      cases s.codeActor codeHash now with
      | none => simp
      | some codeActor =>
          cases s.identities.find? (·.Of identity) with
          | none => simp
          | some existing =>
              by_cases other : existing.actorId = codeActor <;> simp [other]

/-- Failures are let pass by the limit. -/
theorem free_of_invalidOrExpired (failed : s.outcome identity codeHash now = .invalidOrExpired)
    : (s.limiter identity).blockedAt now = none := by
  unfold LinkStore.outcome at failed
  cases blocked : (s.limiter identity).blockedAt now with
  | none => rfl
  | some retryAt => simp [blocked] at failed

/-- The attempts after a failure: the row of the identity, and those of others. -/
theorem mem_failed {row : LinkAttemptRow}
    : row ∈ s.failed identity now
      ↔ row = nextAttempt identity (s.attempts.find? (·.Of identity)) now
        ∨ (row ∈ s.attempts ∧ ¬row.Of identity) := by
  obtain ⟨attempts, stored⟩ := Table.upsert?_total (t := s.attempts) (p := (·.Of identity))
    (r := nextAttempt identity (s.attempts.find? (·.Of identity)) now)
    (fun a b hit hit' => attempt_key a b hit hit')
    (fun a mem other clash => other
      ⟨clash.1.trans (nextAttempt_of _).1, clash.2.trans (nextAttempt_of _).2⟩)
  rw [LinkStore.failed, stored, Option.getD_some]
  exact Table.mem_upsert? stored

/-- A redemption counts for its identity. -/
theorem redeemed_limiter (counted : s.Counted) {outcome : StoreLinkRedemption}
    (answered : outcome = s.outcome identity codeHash now)
    : (s.redeemed identity now outcome).limiter identity
      = (s.limiter identity).after attemptExpiry 5 now (verdict (gatewayOutcome outcome)) := by
  have consumed : (s.attempts.deleteWhere (·.Of identity)).find? (·.Of identity) = none := by
    refine Table.find?_eq_none.mpr (fun row mem hit => ?_)
    exact (Table.mem_deleteWhere.mp mem).2 hit
  cases outcome with
  | linked actorId => exact congrArg attemptLimiter consumed
  | alreadyLinked actorId => exact congrArg attemptLimiter consumed
  | rateLimited retryAt => rfl
  | identityConflict actorId => rfl
  | invalidOrExpired =>
      have found : (s.failed identity now).find? (·.Of identity)
          = some (nextAttempt identity (s.attempts.find? (·.Of identity)) now) :=
        Table.find?_eq_some_of_unique (mem_failed.mpr (Or.inl rfl)) (nextAttempt_of _)
          (fun row mem hit => (mem_failed.mp mem).resolve_right (fun other => other.2 hit))
      refine (congrArg attemptLimiter found).trans (attemptLimiter_nextAttempt ?_ ?_)
      · intro row known
        exact (counted row (Table.mem_of_find? known)).2.2
      · exact free_of_invalidOrExpired answered.symm

/-- A redemption does not count for others. -/
theorem redeemed_limiter_other {other : LinkIdentity} (apart : ¬SameIdentity identity other)
    (outcome : StoreLinkRedemption)
    : (s.redeemed identity now outcome).limiter other = s.limiter other := by
  have notOurs {row : LinkAttemptRow} (theirs : row.Of other) : ¬row.Of identity :=
    fun ours => apart ⟨ours.1.symm.trans theirs.1, ours.2.symm.trans theirs.2⟩
  have deleted : (s.attempts.deleteWhere (·.Of identity)).find? (·.Of other)
      = s.attempts.find? (·.Of other) := by
    refine Table.find?_congr (fun a b hit hit' => attempt_key a b hit hit') (fun row theirs => ?_)
    rw [Table.mem_deleteWhere]
    exact ⟨fun mem => mem.1, fun mem => ⟨mem, notOurs theirs⟩⟩
  cases outcome with
  | linked actorId => exact congrArg attemptLimiter deleted
  | alreadyLinked actorId => exact congrArg attemptLimiter deleted
  | rateLimited retryAt => rfl
  | identityConflict actorId => rfl
  | invalidOrExpired =>
      refine congrArg attemptLimiter (Table.find?_congr
        (fun a b hit hit' => attempt_key a b hit hit') (fun row theirs => ?_))
      refine mem_failed.trans ⟨fun mem => ?_, fun mem => Or.inr ⟨mem, notOurs theirs⟩⟩
      rcases mem with rfl | mem
      · exact absurd (nextAttempt_of _) (notOurs theirs)
      · exact mem.1

/-- Redemptions keep the counts within the limit. -/
theorem LinkStore.Counted.redeemed (counted : s.Counted) (identity : LinkIdentity)
    (now : Timestamp) (outcome : StoreLinkRedemption)
    : (s.redeemed identity now outcome).Counted := by
  cases outcome with
  | linked actorId => exact fun row mem => counted row (Table.mem_deleteWhere.mp mem).1
  | alreadyLinked actorId => exact fun row mem => counted row (Table.mem_deleteWhere.mp mem).1
  | rateLimited retryAt => exact counted
  | identityConflict actorId => exact counted
  | invalidOrExpired =>
      intro row mem
      rcases mem_failed.mp mem with rfl | ⟨stored, -⟩
      · exact nextAttempt_counted identity _ now
      · exact counted row stored

-----------------------------------------------------------------------------------------
-- Calls
-----------------------------------------------------------------------------------------

/-- The redemption a call makes: none when it is refused, or was answered before. -/
def LinkCall.redemption (s : LinkStore) : LinkCall → Option (LinkIdentity × Option CodeHash)
  | .redeemLinkCode identity codeHash =>
      if identity.Named then some (identity, codeHash) else none
  | .redeemLinkCodeOnce key identity codeHash =>
      if key.Named ∧ identity.Named ∧ s.commands.find? (·.key = key) = none then
        some (identity, codeHash)
      else none
  | _ => none

/-- What a call that redeems does: the answer is that of the redemption, and so is the store but
for the receipt.
-/
theorem perform_redemption (now : Timestamp) {call : LinkCall}
    (redeems : call.redemption s = some (identity, codeHash))
    : (call.perform now s).1 = .redeemed (gatewayOutcome (s.outcome identity codeHash now))
      ∧ ∃ commands, (∀ row ∈ s.commands, row ∈ commands)
        ∧ (call.perform now s).2
          = { s.redeemed identity now (s.outcome identity codeHash now) with
              commands := commands } := by
  cases call with
  | redeemLinkCode identity' codeHash' =>
      simp only [LinkCall.redemption, Option.ite_none_right_eq_some, Option.some.injEq,
        Prod.mk.injEq] at redeems
      obtain ⟨named, rfl, rfl⟩ := redeems
      simp only [LinkCall.perform, redeemLinkCode, require, if_pos named, redeemInTransaction_eq]
      refine ⟨rfl, s.commands, fun row mem => mem, ?_⟩
      rw [← redeemed_commands (s.outcome identity' codeHash' now)]
      rfl
  | redeemLinkCodeOnce key identity' codeHash' =>
      simp only [LinkCall.redemption, Option.ite_none_right_eq_some, Option.some.injEq,
        Prod.mk.injEq] at redeems
      obtain ⟨⟨keyNamed, named, fresh⟩, rfl, rfl⟩ := redeems
      have absent := Table.find?_eq_none.mp fresh
      obtain ⟨commands, inserted⟩ := Table.insert?_eq_some (t := s.commands)
        (r := ⟨key, "identity_link", gatewayOutcome (s.outcome identity' codeHash' now), now⟩)
        (fun a mem clash => absent a mem clash)
      have done : redeemLinkCodeOnce key identity' codeHash' now s
          = .ok (gatewayOutcome (s.outcome identity' codeHash' now),
            { s.redeemed identity' now (s.outcome identity' codeHash' now) with
              commands := commands }) := by
        simp only [redeemLinkCodeOnce, require, if_pos keyNamed, if_pos named, fresh,
          redeemInTransaction_eq, bind_eq_ok, execute_eq_ok]
        refine ⟨(), trivial, (), trivial, _, rfl, commands, ?_, rfl⟩
        rw [redeemed_commands]
        exact inserted
      simp only [LinkCall.perform, done]
      exact ⟨rfl, commands, fun row mem => (Table.mem_insert? inserted).mpr (Or.inl mem), rfl⟩
  | createActor actor => cases redeems
  | setActorEnabled actor enabled => cases redeems
  | replaceLinkCode actor codeHash' expiresAt => cases redeems
  | collectExpiredLinkState limit => cases redeems

/-- A code is replaced in the table of codes. -/
theorem replaceLinkCode_eq (actor : ActorId) (hash : CodeHash) (createdAt expiresAt : Timestamp)
    (s : LinkStore)
    : ∃ codes, (LinkCall.perform createdAt s (.replaceLinkCode actor hash expiresAt)).2
      = { s with codes := codes } := by
  simp only [LinkCall.perform]
  cases done : replaceLinkCode actor hash createdAt expiresAt s with
  | error failure => exact ⟨s.codes, rfl⟩
  | ok result =>
      simp only [replaceLinkCode, bind_eq_ok] at done
      obtain ⟨-, -, done⟩ := done
      split at done
      · cases done
      · simp only [bind_eq_ok] at done
        obtain ⟨-, -, done⟩ := done
        split at done
        · cases done
          exact ⟨s.codes, rfl⟩
        · simp only [bind_eq_ok] at done
          obtain ⟨codes, -, same⟩ := done
          cases same
          exact ⟨codes, rfl⟩

/-- The call redeems a code, or tries to. -/
def LinkCall.Redeems : LinkCall → Prop
  | .redeemLinkCode _ _ => True
  | .redeemLinkCodeOnce _ _ _ => True
  | _ => False

/-- A call that is refused or was answered before changes nothing. -/
theorem perform_unredeemed {call : LinkCall} (redeems : call.Redeems)
    (none' : call.redemption s = none)
    : (call.perform now s).2 = s := by
  cases call with
  | redeemLinkCode identity codeHash =>
      have refused : ¬identity.Named := by
        intro named
        simp [LinkCall.redemption, named] at none'
      simp only [LinkCall.perform, redeemLinkCode, require, if_neg refused]
      rfl
  | redeemLinkCodeOnce key identity codeHash =>
      simp only [LinkCall.perform, redeemLinkCodeOnce]
      by_cases keyNamed : key.Named
      · by_cases named : identity.Named
        · cases known : s.commands.find? (·.key = key) with
          | none => simp [LinkCall.redemption, keyNamed, named, known] at none'
          | some stored =>
              simp only [require, if_pos keyNamed, if_pos named]
              by_cases kind : stored.kind = "identity_link"
              · simp only [if_pos kind]
                rfl
              · simp only [if_neg kind]
                rfl
        · simp only [require, if_pos keyNamed, if_neg named]
          rfl
      · simp only [require, if_neg keyNamed]
        rfl
  | createActor actor => exact redeems.elim
  | setActorEnabled actor enabled => exact redeems.elim
  | replaceLinkCode actor codeHash expiresAt => exact redeems.elim
  | collectExpiredLinkState limit => exact redeems.elim

-----------------------------------------------------------------------------------------
-- Garbage collection
-----------------------------------------------------------------------------------------

/-- Collected codes have expired. -/
theorem mem_collected_codes {limit : Nat} {code : LinkCodeRow}
    : (code ∈ (collectExpiredLinkState now limit s).2.codes → code ∈ s.codes)
      ∧ (code ∈ s.codes → now < code.expiresAt →
        code ∈ (collectExpiredLinkState now limit s).2.codes) := by
  constructor
  · exact fun mem => (Table.mem_deleteWhere.mp mem).1
  · intro stored live
    refine Table.mem_deleteWhere.mpr ⟨stored, ?_⟩
    rintro ⟨collected, taken, same⟩
    obtain ⟨stored', expired⟩ := Table.mem_selectOrdered.mp (List.mem_of_mem_take taken)
    have one : collected = code := Table.eq_of_clash stored' stored (Or.inl same)
    rw [one] at expired
    exact absurd live (not_lt.mpr expired)

/-- What is over for the collector is over for the limit. -/
theorem LinkAttemptRow.Over.lapsed {row : LinkAttemptRow} (ended : row.Over now)
    (representable : Representable now)
    : (attemptLimiter (some row)).Lapsed attemptExpiry now := by
  rcases ended with ⟨blockedUntil, blocked, passed⟩ | ⟨blocked, passed⟩
  · simp only [attemptLimiter, Option.mem_def.mp blocked]
    exact passed
  · have expired : row.windowStartedAt.plusMillis attemptWindowMillis ≤ now :=
      max_le representable.1 (le_trans (min_le_right _ _) passed)
    simp only [attemptLimiter, blocked]
    exact expired

/-- Collection forgets only what is over. -/
theorem collected_limiter (representable : Representable now) (limit : Nat)
    (identity : LinkIdentity)
    : Limiter.Agree attemptExpiry now
      ((collectExpiredLinkState now limit s).2.limiter identity) (s.limiter identity) := by
  let attempts := (s.attempts.selectOrdered (·.Over now) (·.windowStartedAt)).take
    (limit - ((s.codes.selectOrdered (·.expiresAt ≤ now) (·.expiresAt)).take limit).length)
  by_cases removed : ∃ row ∈ s.attempts, row.Of identity
      ∧ ∃ attempt ∈ attempts, attempt.provider = row.provider ∧ attempt.subject = row.subject
  · obtain ⟨row, stored, hit, attempt, taken, same⟩ := removed
    have gone : (collectExpiredLinkState now limit s).2.limiter identity = .idle := by
      refine congrArg attemptLimiter (Table.find?_eq_none.mpr (fun other mem hit' => ?_))
      obtain ⟨stored', kept⟩ := Table.mem_deleteWhere.mp mem
      have one : other = row := Table.eq_of_clash stored' stored (attempt_key _ _ hit' hit)
      exact kept ⟨attempt, taken, one ▸ same⟩
    have found : s.attempts.find? (·.Of identity) = some row :=
      Table.find?_eq_some_of_unique stored hit
        (fun other stored' hit' => Table.eq_of_clash stored' stored (attempt_key _ _ hit' hit))
    obtain ⟨stored', ended⟩ := Table.mem_selectOrdered.mp (List.mem_of_mem_take taken)
    have one : attempt = row := Table.eq_of_clash stored' stored same
    right
    rw [gone, LinkStore.limiter, found]
    exact ⟨trivial, (one ▸ ended).lapsed representable⟩
  · left
    refine congrArg attemptLimiter (Table.find?_congr
      (fun a b hit hit' => attempt_key a b hit hit') (fun row hit => ?_))
    exact ⟨fun mem => (Table.mem_deleteWhere.mp mem).1,
      fun mem => Table.mem_deleteWhere.mpr ⟨mem, fun taken => removed ⟨row, mem, hit, taken⟩⟩⟩

end Codrik.Runtime.Sqlite.IdentityLink

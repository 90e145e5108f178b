import Codrik.Runtime.Sqlite.LinkRedemption

/-! The limit on attempts to redeem a code, over whole histories, and what garbage collection
leaves of them.
-/

namespace Codrik.Runtime.Sqlite.IdentityLink

open Codrik.Limiting
open Codrik.Relational
open Codrik.Transition

-----------------------------------------------------------------------------------------
-- The attempts of a history
-----------------------------------------------------------------------------------------

/-- An attempt that was answered. -/
structure LinkAttempt where
  identity : LinkIdentity
  time : Timestamp
  verdict : Verdict

/-- The attempt that a call makes, as it is answered. Repeated commands attempt nothing. -/
def linkAttempts (s : LinkRun) (label : Timestamp × LinkCall) (_ : LinkRun)
    : List LinkAttempt :=
  match label.2.redemption s.store, (label.2.perform label.1 s.store).1 with
  | some (identity, _), .redeemed outcome => [⟨identity, label.1, verdict outcome⟩]
  | _, _ => []

/-- What a history of attempts amounts to for an identity. -/
def remembered (identity : LinkIdentity) (log : List LinkAttempt) : Limiter Timestamp :=
  (log.filter (fun attempt => decide (SameIdentity attempt.identity identity))).foldl
    (fun limiter attempt => limiter.after attemptExpiry 5 attempt.time attempt.verdict) .idle

/-- The store remembers of every identity's attempts what makes a difference. -/
structure Remembers (s : LinkRun) (log : List LinkAttempt) : Prop where
  counted : s.store.Counted
  agree
    : ∀ identity, Limiter.Agree attemptExpiry s.clock (s.store.limiter identity)
        (remembered identity log)

variable {s s' : LinkRun} {log : List LinkAttempt}

/-- The limit of an identity is that of its provider and subject. -/
theorem limiter_congr {a b : LinkIdentity} (same : SameIdentity a b) (s : LinkStore)
    : s.limiter a = s.limiter b := by
  refine congrArg attemptLimiter (Table.find?_eq_of_iff (fun row => ?_))
  simp only [LinkAttemptRow.Of, same.1, same.2]

/-- Each call keeps the memory, by cases on what it redeems. -/
theorem Remembers.step (remembers : Remembers s log) {label : Timestamp × LinkCall}
    (taken : identityLinks.Step s label s')
    : Remembers s' (log ++ linkAttempts s label s') := by
  obtain ⟨now, call⟩ := label
  obtain ⟨later, representable, rfl⟩ := taken
  have agree (identity : LinkIdentity) := (remembers.agree identity).later later
  have quiet (nothing : call.redemption s.store = none)
      : linkAttempts s (now, call) ⟨(call.perform now s.store).2, now⟩ = [] := by
    simp only [linkAttempts, nothing]
  cases redeems : call.redemption s.store with
  | some redemption =>
      obtain ⟨identity, codeHash⟩ := redemption
      obtain ⟨answer, commands, -, store⟩ := perform_redemption now redeems
      have attempt : linkAttempts s (now, call) ⟨(call.perform now s.store).2, now⟩
          = [⟨identity, now, verdict (gatewayOutcome (s.store.outcome identity codeHash now))⟩] := by
        simp only [linkAttempts, redeems, answer]
      rw [attempt, store]
      refine ⟨remembers.counted.redeemed identity now _, fun other => ?_⟩
      change Limiter.Agree attemptExpiry now
        ((s.store.redeemed identity now (s.store.outcome identity codeHash now)).limiter other) _
      by_cases same : SameIdentity identity other
      · rw [← limiter_congr same, redeemed_limiter remembers.counted rfl]
        simp only [remembered, List.filter_append, List.foldl_append, List.filter_cons, same,
          decide_true, if_true, List.filter_nil, List.foldl_cons, List.foldl_nil]
        rw [limiter_congr same]
        exact (agree other).after _
      · rw [redeemed_limiter_other same]
        simp only [remembered, List.filter_append, List.filter_cons, same, decide_false,
          Bool.false_eq_true, if_false, List.filter_nil, List.append_nil]
        exact agree other
  | none =>
      rw [quiet redeems, List.append_nil]
      cases call with
      | createActor actor => exact ⟨remembers.counted, agree⟩
      | setActorEnabled actor enabled => exact ⟨remembers.counted, agree⟩
      | replaceLinkCode actor codeHash expiresAt =>
          obtain ⟨codes, store⟩ := replaceLinkCode_eq actor codeHash now expiresAt s.store
          rw [store]
          exact ⟨remembers.counted, agree⟩
      | redeemLinkCode identity codeHash =>
          have asks : (LinkCall.redeemLinkCode identity codeHash).Redeems := trivial
          rw [perform_unredeemed asks redeems]
          exact ⟨remembers.counted, agree⟩
      | redeemLinkCodeOnce key identity codeHash =>
          have asks : (LinkCall.redeemLinkCodeOnce key identity codeHash).Redeems := trivial
          rw [perform_unredeemed asks redeems]
          exact ⟨remembers.counted, agree⟩
      | collectExpiredLinkState limit =>
          refine ⟨fun row mem => remembers.counted row (Table.mem_deleteWhere.mp mem).1,
            fun identity => ?_⟩
          exact (collected_limiter representable limit identity).trans (agree identity)

/-- The store remembers every history, by induction on it. -/
theorem recorded_remembers (reached : (identityLinks.recording linkAttempts).Reachable (s, log))
    : Remembers s log := by
  refine System.Reachable.invariant (J := fun state => Remembers state.1 state.2) ?_ ?_ reached
  · rintro ⟨s, log⟩ ⟨⟨-, attempts, -⟩, nothing⟩
    simp only at attempts nothing
    subst nothing
    refine ⟨?_, fun identity => ?_⟩
    · intro row mem
      rw [attempts] at mem
      exact absurd mem (Table.not_mem_empty row)
    · rw [LinkStore.limiter, attempts]
      exact .refl _ _
  · rintro ⟨s, log⟩ label ⟨s', log'⟩ - remembers ⟨taken, shown⟩
    simp only at taken shown remembers ⊢
    rw [shown]
    exact remembers.step taken

-----------------------------------------------------------------------------------------
-- Histories with and without garbage collection
-----------------------------------------------------------------------------------------

/-- The call collects what has expired. -/
def LinkCall.collects : LinkCall → Bool
  | .collectExpiredLinkState _ => true
  | _ => false

/-- What the calls of a history answer, but for the collections. -/
def answers (s : LinkStore) : List (Timestamp × LinkCall) → List LinkAnswer
  | [] => []
  | (now, call) :: rest =>
      if call.collects then
        answers (call.perform now s).2 rest
      else
        (call.perform now s).1 :: answers (call.perform now s).2 rest

/-- The answer to a redemption. -/
def LinkAnswer.redemption : LinkAnswer → Option GatewayCommandOutcome
  | .redeemed outcome => some outcome
  | _ => none

/-- The calls of a history but for the collections. -/
def uncollected (history : List (Timestamp × LinkCall)) : List (Timestamp × LinkCall) :=
  history.filter (fun label => !label.2.collects)

/-- The times of a history do not decrease, from `start` on. -/
def Ordered (start : Timestamp) : List (Timestamp × LinkCall) → Prop
  | [] => True
  | (now, _) :: rest => start ≤ now ∧ Representable now ∧ Ordered now rest

instance decidableOrdered (start : Timestamp) : DecidablePred (Ordered start)
  | [] => .isTrue trivial
  | (now, _) :: rest =>
      have := decidableOrdered now rest
      inferInstanceAs (Decidable (_ ∧ _ ∧ _))

/-- No code is stored under the hash of another actor's code that has expired. -/
def Unreused (s : LinkStore) : List (Timestamp × LinkCall) → Prop
  | [] => True
  | (now, call) :: rest =>
      (match call with
        | .replaceLinkCode actor codeHash _ =>
            ∀ code ∈ s.codes, code.codeHash = codeHash → code.actorId = actor ∨ now < code.expiresAt
        | _ => True)
      ∧ Unreused (call.perform now s).2 rest

instance decidableUnreused (s : LinkStore) : DecidablePred (Unreused s)
  | [] => .isTrue trivial
  | (now, call) :: rest => by
      have := decidableUnreused (call.perform now s).2 rest
      unfold Unreused
      cases call <;> infer_instance

/-- `a` is `b` after some garbage collection: only what has expired is missing. -/
structure Collected (now : Timestamp) (a b : LinkStore) : Prop where
  actors : a.actors = b.actors
  identities : a.identities = b.identities
  commands : a.commands = b.commands
  counted : a.Counted ∧ b.Counted
  codes : ∀ code ∈ a.codes, code ∈ b.codes
  live : ∀ code ∈ b.codes, now < code.expiresAt → code ∈ a.codes
  attempts
    : ∀ identity, Limiter.Agree attemptExpiry now (a.limiter identity) (b.limiter identity)

variable {a b : LinkStore} {now time : Timestamp}

theorem Collected.later (collected : Collected now a b) (le : now ≤ time)
    : Collected time a b :=
  { collected with
    live := fun code mem fresh => collected.live code mem (lt_of_le_of_lt le fresh)
    attempts := fun identity => (collected.attempts identity).later le }

/-- A code is redeemed for the same actor. -/
theorem Collected.codeActor (collected : Collected now a b) (codeHash : Option CodeHash)
    : a.codeActor codeHash now = b.codeActor codeHash now := by
  unfold LinkStore.codeActor
  cases codeHash with
  | none => rfl
  | some hash =>
      simp only [Option.bind_some, collected.actors]
      refine congrArg (Option.map LinkCodeRow.actorId) (Table.find?_congr ?_ ?_)
      · exact fun x y hit hit' => Or.inr (hit.1.trans hit'.1.symm)
      · intro code hit
        exact ⟨collected.codes code, fun mem => collected.live code mem hit.2.1⟩

/-- A redemption answers the same. -/
theorem Collected.outcome (collected : Collected now a b) (identity : LinkIdentity)
    (codeHash : Option CodeHash)
    : a.outcome identity codeHash now = b.outcome identity codeHash now := by
  unfold LinkStore.outcome
  rw [(collected.attempts identity).blockedAt, collected.codeActor codeHash, collected.identities]

/-- A redemption that answers the same changes the same. -/
theorem Collected.redeemed (collected : Collected now a b) (identity : LinkIdentity)
    (codeHash : Option CodeHash) (commands : Table GatewayCommandRow)
    : Collected now
      { a.redeemed identity now (b.outcome identity codeHash now) with commands := commands }
      { b.redeemed identity now (b.outcome identity codeHash now) with commands := commands } := by
  have attempts : ∀ other, Limiter.Agree attemptExpiry now
      ((a.redeemed identity now (b.outcome identity codeHash now)).limiter other)
      ((b.redeemed identity now (b.outcome identity codeHash now)).limiter other) := by
    intro other
    by_cases same : SameIdentity identity other
    · rw [← limiter_congr same, ← limiter_congr same, redeemed_limiter collected.counted.2 rfl,
        redeemed_limiter collected.counted.1 (collected.outcome identity codeHash).symm]
      exact (collected.attempts identity).after _
    · rw [redeemed_limiter_other same, redeemed_limiter_other same]
      exact collected.attempts other
  have counted := And.intro
    (collected.counted.1.redeemed identity now (b.outcome identity codeHash now))
    (collected.counted.2.redeemed identity now (b.outcome identity codeHash now))
  have consumed (actor : ActorId)
      : (∀ code ∈ a.codes.deleteWhere (·.actorId = actor),
          code ∈ b.codes.deleteWhere (·.actorId = actor))
        ∧ ∀ code ∈ b.codes.deleteWhere (·.actorId = actor), now < code.expiresAt →
          code ∈ a.codes.deleteWhere (·.actorId = actor) := by
    constructor
    · intro code mem
      obtain ⟨stored, kept⟩ := Table.mem_deleteWhere.mp mem
      exact Table.mem_deleteWhere.mpr ⟨collected.codes code stored, kept⟩
    · intro code mem fresh
      obtain ⟨stored, kept⟩ := Table.mem_deleteWhere.mp mem
      exact Table.mem_deleteWhere.mpr ⟨collected.live code stored fresh, kept⟩
  have linking (outcome : StoreLinkRedemption)
      : a.linking identity outcome = b.linking identity outcome := by
    cases outcome <;> simp only [LinkStore.linking, collected.identities]
  cases outcome : b.outcome identity codeHash now with
  | linked actor =>
      rw [outcome] at attempts counted
      exact ⟨collected.actors, linking (.linked actor), rfl, counted, (consumed actor).1, (consumed actor).2,
        attempts⟩
  | alreadyLinked actor =>
      rw [outcome] at attempts counted
      exact ⟨collected.actors, linking (.alreadyLinked actor), rfl, counted, (consumed actor).1, (consumed actor).2,
        attempts⟩
  | invalidOrExpired =>
      rw [outcome] at attempts counted
      exact ⟨collected.actors, collected.identities, rfl, counted, collected.codes,
        collected.live, attempts⟩
  | rateLimited retryAt => exact { collected with commands := rfl }
  | identityConflict actor => exact { collected with commands := rfl }

/-- Collecting more leaves the store collected. -/
theorem Collected.collect (collected : Collected now a b) (representable : Representable now)
    (limit : Nat)
    : Collected now (collectExpiredLinkState now limit a).2 b where
  actors := collected.actors
  identities := collected.identities
  commands := collected.commands
  counted :=
    ⟨fun row mem => collected.counted.1 row (Table.mem_deleteWhere.mp mem).1, collected.counted.2⟩
  codes code mem := collected.codes code (mem_collected_codes.1 mem)
  live code mem fresh := mem_collected_codes.2 (collected.live code mem fresh) fresh
  attempts identity :=
    (collected_limiter representable limit identity).trans (collected.attempts identity)

/-- The rows of an actor are one row. -/
theorem code_key {actor : ActorId} (x y : LinkCodeRow) (hit : x.actorId = actor)
    (hit' : y.actorId = actor)
    : Constrained.Clash x y :=
  Or.inl (hit.trans hit'.symm)

/-- The codes with a new one for an actor. -/
theorem exists_upsert_code {s : LinkStore} {actor : ActorId} {hash : CodeHash}
    (now expiresAt : Timestamp)
    (alone : ¬∃ code ∈ s.codes, code.codeHash = hash ∧ code.actorId ≠ actor)
    : ∃ codes, s.codes.upsert? (·.actorId = actor) ⟨actor, hash, now, expiresAt⟩ = some codes :=
  Table.upsert?_total code_key (fun code mem other clash =>
    alone ⟨code, mem, clash.resolve_left other, other⟩)

/-- A replacement answers and changes the same when it reuses no hash. -/
theorem Collected.replace (collected : Collected now a b) {actor : ActorId} {hash : CodeHash}
    {expiresAt : Timestamp}
    (unreused
      : ∀ code ∈ b.codes, code.codeHash = hash → code.actorId = actor ∨ now < code.expiresAt)
    : (LinkCall.perform now a (.replaceLinkCode actor hash expiresAt)).1
        = (LinkCall.perform now b (.replaceLinkCode actor hash expiresAt)).1
      ∧ Collected now (LinkCall.perform now a (.replaceLinkCode actor hash expiresAt)).2
        (LinkCall.perform now b (.replaceLinkCode actor hash expiresAt)).2 := by
  have collision : (∃ code ∈ a.codes, code.codeHash = hash ∧ code.actorId ≠ actor)
      ↔ ∃ code ∈ b.codes, code.codeHash = hash ∧ code.actorId ≠ actor := by
    constructor
    · rintro ⟨code, mem, same, other⟩
      exact ⟨code, collected.codes code mem, same, other⟩
    · rintro ⟨code, mem, same, other⟩
      exact ⟨code, collected.live code mem ((unreused code mem same).resolve_left other), same,
        other⟩
  simp only [LinkCall.perform, replaceLinkCode, require, collected.actors]
  by_cases positive : now < expiresAt
  · simp only [if_pos positive]
    cases b.actors.find? (·.id = actor) with
    | none => exact ⟨rfl, collected⟩
    | some row =>
        by_cases enabled : row.enabled = true
        · by_cases collides : ∃ code ∈ b.codes, code.codeHash = hash ∧ code.actorId ≠ actor
          · simp only [if_pos enabled, if_pos collides, if_pos (collision.mpr collides)]
            exact ⟨rfl, collected⟩
          · have alone := fun collides' => collides (collision.mp collides')
            obtain ⟨codes, stored⟩ := exists_upsert_code now expiresAt alone
            obtain ⟨codes', stored'⟩ :=
              exists_upsert_code now expiresAt collides
            simp only [if_pos enabled, if_neg collides, if_neg alone, stored, stored', execute]
            refine ⟨rfl, rfl, collected.identities, collected.commands, collected.counted,
              fun code mem => ?_, fun code mem fresh => ?_, collected.attempts⟩
            · rcases (Table.mem_upsert? stored).mp mem with rfl | ⟨kept, other⟩
              · exact (Table.mem_upsert? stored').mpr (Or.inl rfl)
              · exact (Table.mem_upsert? stored').mpr (Or.inr ⟨collected.codes code kept, other⟩)
            · rcases (Table.mem_upsert? stored').mp mem with rfl | ⟨kept, other⟩
              · exact (Table.mem_upsert? stored).mpr (Or.inl rfl)
              · exact (Table.mem_upsert? stored).mpr
                  (Or.inr ⟨collected.live code kept fresh, other⟩)
        · simp only [if_neg enabled]
          exact ⟨rfl, collected⟩
  · simp only [if_neg positive]
    exact ⟨rfl, collected⟩

/-- A redemption answers and changes the same, and so does one that was answered before. -/
theorem Collected.redeem (collected : Collected now a b) {call : LinkCall}
    (asks : call.Redeems)
    : (call.perform now a).1 = (call.perform now b).1
      ∧ Collected now (call.perform now a).2 (call.perform now b).2 := by
  cases call with
  | redeemLinkCode identity codeHash =>
      simp only [LinkCall.perform, redeemLinkCode, require]
      by_cases named : identity.Named
      · simp only [if_pos named, redeemInTransaction_eq, collected.outcome]
        have next := collected.redeemed identity codeHash a.commands
        have commands : (a.redeemed identity now (b.outcome identity codeHash now)).commands
            = (b.redeemed identity now (b.outcome identity codeHash now)).commands := by
          rw [redeemed_commands, redeemed_commands, collected.commands]
        exact ⟨rfl, { next with commands := commands }⟩
      · simp only [if_neg named]
        exact ⟨rfl, collected⟩
  | redeemLinkCodeOnce key identity codeHash =>
      simp only [LinkCall.perform, redeemLinkCodeOnce, require, collected.commands]
      by_cases keyNamed : key.Named
      · by_cases named : identity.Named
        · simp only [if_pos keyNamed, if_pos named]
          cases b.commands.find? (·.key = key) with
          | some stored =>
              by_cases kind : stored.kind = "identity_link"
              · simp only [if_pos kind]
                exact ⟨rfl, collected⟩
              · simp only [if_neg kind]
                exact ⟨rfl, collected⟩
          | none =>
              simp only [redeemInTransaction_eq, collected.outcome]
              simp only [bind, Except.bind, redeemed_commands, collected.commands]
              cases b.commands.insert? ⟨key, "identity_link",
                  gatewayOutcome (b.outcome identity codeHash now), now⟩ with
              | none => exact ⟨rfl, collected⟩
              | some commands => exact ⟨rfl, collected.redeemed identity codeHash commands⟩
        · simp only [if_pos keyNamed, if_neg named]
          exact ⟨rfl, collected⟩
      · simp only [if_neg keyNamed]
        exact ⟨rfl, collected⟩
  | createActor actor => exact asks.elim
  | setActorEnabled actor enabled => exact asks.elim
  | replaceLinkCode actor codeHash expiresAt => exact asks.elim
  | collectExpiredLinkState limit => exact asks.elim

/-- Garbage collection is invisible from a store on, by induction on the history. -/
theorem Collected.answers (collected : Collected now a b)
    {history : List (Timestamp × LinkCall)} (ordered : Ordered now history)
    (unreused : Unreused b (uncollected history))
    : IdentityLink.answers a history = IdentityLink.answers b (uncollected history) := by
  induction history generalizing now a b with
  | nil => rfl
  | cons label rest ih =>
      obtain ⟨time, call⟩ := label
      obtain ⟨le, representable, ordered⟩ := ordered
      have collected := collected.later le
      by_cases collects : call.collects = true
      · have skipped : uncollected ((time, call) :: rest) = uncollected rest := by
          simp [uncollected, collects]
        rw [skipped] at unreused ⊢
        simp only [IdentityLink.answers, if_pos collects]
        cases call with
        | collectExpiredLinkState limit =>
            exact ih (collected.collect representable limit) ordered unreused
        | _ => cases collects
      · have kept : uncollected ((time, call) :: rest) = (time, call) :: uncollected rest := by
          simp [uncollected, collects]
        rw [kept] at unreused ⊢
        obtain ⟨fresh, unreused⟩ := unreused
        simp only [IdentityLink.answers, if_neg collects]
        have same : (call.perform time a).1 = (call.perform time b).1
            ∧ Collected time (call.perform time a).2 (call.perform time b).2 := by
          cases call with
          | createActor actor =>
              refine ⟨rfl, { collected with actors := ?_ }⟩
              simp only [LinkCall.perform, collected.actors]
          | setActorEnabled actor enabled =>
              refine ⟨rfl, { collected with actors := ?_ }⟩
              simp only [LinkCall.perform, collected.actors]
          | replaceLinkCode actor hash expiresAt => exact collected.replace fresh
          | redeemLinkCode identity codeHash => exact collected.redeem trivial
          | redeemLinkCodeOnce key identity codeHash => exact collected.redeem trivial
          | collectExpiredLinkState limit => exact absurd rfl collects
        rw [same.1, ih same.2 ordered unreused]

-----------------------------------------------------------------------------------------
-- The limit and the collector together
-----------------------------------------------------------------------------------------

/-- **Attempts are limited exactly, and garbage collection is invisible while no hash of an
expired code is reused.** An attempt is limited exactly when five failures within a window have
started a block that lasts, and then it changes nothing; the stored counts lie between one and
five.
-/
theorem link_attempts_are_limited
    : (∀ s log, (identityLinks.recording linkAttempts).Reachable (s, log) →
        (∀ row ∈ s.store.attempts, 1 ≤ row.failureCount ∧ row.failureCount ≤ 5)
        ∧ ∀ now, s.clock ≤ now → ∀ (call : LinkCall) identity codeHash,
          call.redemption s.store = some (identity, codeHash) → ∀ retryAt,
          ((call.perform now s.store).1 = .redeemed (.rateLimited retryAt)
            ↔ (remembered identity log).blockedAt now = some retryAt)
          ∧ ((remembered identity log).blockedAt now = some retryAt →
            ∃ commands, (call.perform now s.store).2 = { s.store with commands := commands }))
      ∧ ∀ s, identityLinks.Reachable s → ∀ history, Ordered s.clock history →
          Unreused s.store (uncollected history) →
          answers s.store history = answers s.store (uncollected history) := by
  constructor
  · intro s log reached
    have remembers := recorded_remembers reached
    refine ⟨fun row mem => ?_, fun now later call identity codeHash redeems retryAt => ?_⟩
    · have counted := remembers.counted row mem
      exact ⟨counted.1, counted.2.1⟩
    · obtain ⟨answer, commands, -, store⟩ := perform_redemption now redeems
      have limited : s.store.outcome identity codeHash now = .rateLimited retryAt
          ↔ (s.store.limiter identity).blockedAt now = some retryAt :=
        outcome_eq_rateLimited
      rw [← ((remembers.agree identity).later later).blockedAt, ← limited, answer, store]
      constructor
      · cases s.store.outcome identity codeHash now <;> simp [gatewayOutcome]
      · intro refused
        rw [refused]
        exact ⟨commands, rfl⟩
  · intro s reached history ordered unreused
    have counted : s.store.Counted := by
      obtain ⟨log, recorded⟩ := System.Reachable.recorded linkAttempts reached
      exact (recorded_remembers recorded).counted
    have same : Collected s.clock s.store s.store :=
      ⟨rfl, rfl, rfl, ⟨counted, counted⟩, fun code mem => mem, fun code mem _ => mem,
        fun identity => .refl _ _⟩
    exact same.answers ordered unreused

namespace Redrawn

def alice : ActorId := ⟨"alice"⟩

def bob : ActorId := ⟨"bob"⟩

/-- Two actors, without any identity. -/
def start : LinkRun where
  store := ⟨⟨[⟨alice, true, 0⟩, ⟨bob, true, 0⟩], by decide⟩, ∅, ∅, ∅, ∅⟩
  clock := 0

theorem start_initial : identityLinks.Initial start := ⟨rfl, rfl, rfl⟩

def hash : CodeHash := Vector.replicate 32 7

def peer : LinkIdentity := ⟨"telegram:1", "100", none⟩

/-- A code of one actor expires and is collected, and another actor draws the same code. -/
def reused : List (Timestamp × LinkCall) :=
  [(0, .replaceLinkCode alice hash 10), (20, .collectExpiredLinkState 8),
    (21, .replaceLinkCode bob hash 100), (22, .redeemLinkCode peer (some hash))]

/-- A code is redeemed after another one has expired and was collected. -/
def renewed : List (Timestamp × LinkCall) :=
  [(0, .replaceLinkCode alice hash 10), (20, .collectExpiredLinkState 8),
    (21, .replaceLinkCode alice hash 100), (22, .redeemLinkCode peer (some hash))]

end Redrawn

theorem link_attempts_are_limited_renewed
    : (∀ row ∈ Redrawn.start.store.attempts, 1 ≤ row.failureCount ∧ row.failureCount ≤ 5)
      ∧ ((remembered Redrawn.peer []).blockedAt (0 : Timestamp) = some 5 ↔
        ((LinkCall.redeemLinkCode Redrawn.peer none).perform 0 Redrawn.start.store).1
          = .redeemed (.rateLimited 5))
      ∧ answers Redrawn.start.store Redrawn.renewed
        = answers Redrawn.start.store (uncollected Redrawn.renewed) := by
  have start := Redrawn.start_initial
  have limited := link_attempts_are_limited.1 Redrawn.start [] (.initial ⟨start, rfl⟩)
  have answer := (limited.2 0 (by decide) (.redeemLinkCode Redrawn.peer none) Redrawn.peer
    none (by decide) 5).1
  exact ⟨limited.1, answer.symm,
    link_attempts_are_limited.2 Redrawn.start (.initial start) Redrawn.renewed
      (by decide +kernel) (by decide +kernel)⟩

/-- Without the collection the second code is refused, and the redemption fails. -/
theorem collected_code_is_reused
    : ¬∀ s, identityLinks.Reachable s → ∀ history, Ordered s.clock history →
      (answers s.store history).filterMap LinkAnswer.redemption
        = (answers s.store (uncollected history)).filterMap LinkAnswer.redemption := by
  intro invisible
  have same := invisible Redrawn.start (.initial Redrawn.start_initial) Redrawn.reused
    (by decide +kernel)
  have differ : (answers Redrawn.start.store Redrawn.reused).filterMap LinkAnswer.redemption
      ≠ (answers Redrawn.start.store (uncollected Redrawn.reused)).filterMap
        LinkAnswer.redemption := by
    decide +kernel
  exact differ same

end Codrik.Runtime.Sqlite.IdentityLink

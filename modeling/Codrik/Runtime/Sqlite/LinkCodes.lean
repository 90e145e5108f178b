import Codrik.Runtime.Sqlite.LinkRedemption

/-! Link codes over whole histories: each is redeemed at most once, links of others are kept, and a
repeated command is answered as it was the first time.
-/

namespace Codrik.Runtime.Sqlite.IdentityLink

open Codrik.Relational
open Codrik.Transition

-----------------------------------------------------------------------------------------
-- The codes of a history
-----------------------------------------------------------------------------------------

/-- What becomes of the code of an actor. -/
inductive CodeEvent
  | stored (actor : ActorId) (codeHash : CodeHash) (expiresAt : Timestamp)
  | redeemed (actor : ActorId) (codeHash : CodeHash)
deriving DecidableEq

def CodeEvent.actor : CodeEvent → ActorId
  | .stored actor _ _ => actor
  | .redeemed actor _ => actor

/-- The actor a redemption links to. -/
def GatewayCommandOutcome.linkedTo : GatewayCommandOutcome → Option ActorId
  | .linked actor => some actor
  | .alreadyLinked actor => some actor
  | _ => none

/-- The event of a redemption. -/
def redemptionEvents : Option CodeHash → Option ActorId → List CodeEvent
  | some codeHash, some actor => [.redeemed actor codeHash]
  | _, _ => []

/-- The event of a call, as it is answered. Repeated commands redeem nothing. -/
def codeEvents (s : LinkRun) (label : Timestamp × LinkCall) (_ : LinkRun) : List CodeEvent :=
  match label.2, (label.2.perform label.1 s.store).1 with
  | .replaceLinkCode actor codeHash expiresAt, .replaced .stored =>
      [.stored actor codeHash expiresAt]
  | call, .redeemed outcome =>
      match call.redemption s.store with
      | some (_, codeHash) => redemptionEvents codeHash outcome.linkedTo
      | none => []
  | _, _ => []

/-- The latest event of an actor's code. -/
def latest (actor : ActorId) (log : List CodeEvent) : Option CodeEvent :=
  (log.filter (fun event => event.actor = actor)).getLast?

variable {s s' : LinkRun} {log : List CodeEvent} {actor : ActorId}

/-- Events of other actors do not change the latest one. -/
theorem latest_append_other {events : List CodeEvent}
    (others : ∀ event ∈ events, event.actor ≠ actor)
    : latest actor (log ++ events) = latest actor log := by
  have nothing : events.filter (fun event => event.actor = actor) = [] := by
    refine List.filter_eq_nil_iff.mpr (fun event mem => ?_)
    simpa using others event mem
  rw [latest, List.filter_append, nothing, List.append_nil, latest]

theorem latest_append_self {event : CodeEvent} (ours : event.actor = actor)
    : latest actor (log ++ [event]) = some event := by
  rw [latest, List.filter_append]
  simp [ours]

/-- Every stored code is the latest event of its actor. -/
def Newest (s : LinkRun) (log : List CodeEvent) : Prop :=
  ∀ code ∈ s.store.codes,
    latest code.actorId log = some (.stored code.actorId code.codeHash code.expiresAt)

-----------------------------------------------------------------------------------------
-- Redemptions
-----------------------------------------------------------------------------------------

/-- Whoever a redemption links to had a code that was good for it. -/
theorem exists_code_of_linked {store : LinkStore} {identity : LinkIdentity}
    {codeHash : Option CodeHash} {now : Timestamp}
    (linked : (gatewayOutcome (store.outcome identity codeHash now)).linkedTo = some actor)
    : ∃ code ∈ store.codes, codeHash = some code.codeHash ∧ code.actorId = actor
      ∧ now < code.expiresAt ∧ ∃ row ∈ store.actors, row.id = actor ∧ row.enabled = true := by
  have chosen : store.codeActor codeHash now = some actor := by
    unfold LinkStore.outcome at linked
    split at linked
    · cases linked
    · split at linked
      · cases linked
      · rename_i codeActor found
        rw [found]
        split at linked
        · split at linked
          · cases linked
          · exact linked
        · exact linked
  unfold LinkStore.codeActor at chosen
  obtain ⟨hash, rfl, found⟩ := Option.bind_eq_some_iff.mp chosen
  obtain ⟨code, first, rfl⟩ := Option.map_eq_some_iff.mp found
  obtain ⟨stored, rfl, live, enabled⟩ := Table.find?_some first
  exact ⟨code, stored, rfl, rfl, live, enabled⟩

/-- A redemption that links takes the codes of the actor, any other one takes none. -/
theorem mem_redeemed_codes {store : LinkStore} {identity : LinkIdentity} {now : Timestamp}
    {outcome : StoreLinkRedemption} {code : LinkCodeRow}
    : code ∈ (store.redeemed identity now outcome).codes
      ↔ code ∈ store.codes ∧ (gatewayOutcome outcome).linkedTo ≠ some code.actorId := by
  cases outcome with
  | linked actor =>
      refine Table.mem_deleteWhere.trans (and_congr_right (fun _ => not_congr ?_))
      exact ⟨fun same => congrArg some same.symm, fun same => (Option.some.inj same).symm⟩
  | alreadyLinked actor =>
      refine Table.mem_deleteWhere.trans (and_congr_right (fun _ => not_congr ?_))
      exact ⟨fun same => congrArg some same.symm, fun same => (Option.some.inj same).symm⟩
  | invalidOrExpired => exact (and_iff_left (by intro same; cases same)).symm
  | rateLimited retryAt => exact (and_iff_left (by intro same; cases same)).symm
  | identityConflict actor => exact (and_iff_left (by intro same; cases same)).symm

/-- A redemption keeps the actor of every identity. -/
theorem redeemed_identities {store : LinkStore} {identity : LinkIdentity} {now : Timestamp}
    (outcome : StoreLinkRedemption) {row : LinkedIdentityRow} (stored : row ∈ store.identities)
    : ∃ row' ∈ (store.redeemed identity now outcome).identities,
      row'.provider = row.provider ∧ row'.subject = row.subject ∧ row'.actorId = row.actorId := by
  have same : ∃ row' ∈ store.identities,
      row'.provider = row.provider ∧ row'.subject = row.subject ∧ row'.actorId = row.actorId :=
    ⟨row, stored, rfl, rfl, rfl⟩
  cases outcome with
  | linked actor => exact ⟨row, Table.mem_insertOrIgnore_of_mem stored, rfl, rfl, rfl⟩
  | alreadyLinked actor =>
      simp only [LinkStore.redeemed, consumeCodeAndAttempts, LinkStore.linking,
        LinkIdentity.renamed]
      cases identity.username with
      | none => exact same
      | some username =>
          by_cases hit : row.Of identity
          · exact ⟨_, Table.updateWhere_mem_of stored hit, rfl, rfl, rfl⟩
          · exact ⟨row, Table.updateWhere_mem_of_not stored hit, rfl, rfl, rfl⟩
  | invalidOrExpired => exact same
  | rateLimited retryAt => exact same
  | identityConflict actor => exact same

/-- A redemption that links to nobody leaves the identities and the codes. -/
theorem redeemed_of_not_linked {store : LinkStore} {identity : LinkIdentity} {now : Timestamp}
    {outcome : StoreLinkRedemption} (unlinked : (gatewayOutcome outcome).linkedTo = none)
    : (store.redeemed identity now outcome).identities = store.identities
      ∧ (store.redeemed identity now outcome).codes = store.codes := by
  cases outcome with
  | linked actor => cases unlinked
  | alreadyLinked actor => cases unlinked
  | invalidOrExpired => exact ⟨rfl, rfl⟩
  | rateLimited retryAt => exact ⟨rfl, rfl⟩
  | identityConflict actor => exact ⟨rfl, rfl⟩

-----------------------------------------------------------------------------------------
-- Steps
-----------------------------------------------------------------------------------------

/-- What a call that redeems shows. -/
theorem codeEvents_redemption {now : Timestamp} {call : LinkCall} {identity : LinkIdentity}
    {codeHash : Option CodeHash} (redeems : call.redemption s.store = some (identity, codeHash))
    : codeEvents s (now, call) s'
      = redemptionEvents codeHash
          (gatewayOutcome (s.store.outcome identity codeHash now)).linkedTo := by
  obtain ⟨answer, -⟩ := perform_redemption now redeems
  cases call with
  | redeemLinkCode identity' codeHash' => simp only [codeEvents, answer, redeems]
  | redeemLinkCodeOnce key identity' codeHash' => simp only [codeEvents, answer, redeems]
  | createActor actor => cases redeems
  | setActorEnabled actor enabled => cases redeems
  | replaceLinkCode actor codeHash' expiresAt => cases redeems
  | collectExpiredLinkState limit => cases redeems

/-- A call that is refused or was answered before shows nothing. -/
theorem codeEvents_unredeemed {now : Timestamp} {call : LinkCall} (asks : call.Redeems)
    (nothing : call.redemption s.store = none)
    : codeEvents s (now, call) s' = [] := by
  cases answer : (call.perform now s.store).1 <;> cases call <;>
    first | exact asks.elim | simp only [codeEvents, answer, nothing]

/-- A replacement stores the code, or changes nothing. -/
theorem replaceLinkCode_cases (actor : ActorId) (hash : CodeHash) (now expiresAt : Timestamp)
    (s : LinkStore)
    : ((LinkCall.perform now s (.replaceLinkCode actor hash expiresAt)).1 = .replaced .stored
        ∧ ∃ codes, s.codes.upsert? (·.actorId = actor) ⟨actor, hash, now, expiresAt⟩ = some codes
          ∧ (LinkCall.perform now s (.replaceLinkCode actor hash expiresAt)).2
            = { s with codes := codes })
      ∨ ((LinkCall.perform now s (.replaceLinkCode actor hash expiresAt)).1 ≠ .replaced .stored
        ∧ (LinkCall.perform now s (.replaceLinkCode actor hash expiresAt)).2 = s) := by
  simp only [LinkCall.perform]
  cases done : replaceLinkCode actor hash now expiresAt s with
  | error failure => exact Or.inr ⟨(by intro same; cases same), rfl⟩
  | ok result =>
      simp only [replaceLinkCode, bind_eq_ok] at done
      obtain ⟨-, -, done⟩ := done
      split at done
      · cases done
      · simp only [bind_eq_ok] at done
        obtain ⟨-, -, done⟩ := done
        split at done
        · cases done
          exact Or.inr ⟨(by intro same; cases same), rfl⟩
        · simp only [bind_eq_ok, execute_eq_ok] at done
          obtain ⟨codes, stored, same⟩ := done
          cases same
          exact Or.inl ⟨rfl, codes, stored, rfl⟩

/-- Each call keeps the stored codes the newest ones, by cases on the call. -/
theorem Newest.step (newest : Newest s log) {label : Timestamp × LinkCall}
    (taken : identityLinks.Step s label s')
    : Newest s' (log ++ codeEvents s label s') := by
  obtain ⟨now, call⟩ := label
  obtain ⟨-, -, rfl⟩ := taken
  intro code mem
  cases redeems : call.redemption s.store with
  | some redemption =>
      obtain ⟨identity, codeHash⟩ := redemption
      obtain ⟨-, commands, -, store⟩ := perform_redemption now redeems
      simp only [store] at mem
      obtain ⟨stored, kept⟩ := mem_redeemed_codes.mp mem
      rw [codeEvents_redemption redeems, latest_append_other]
      · exact newest code stored
      · intro event listed
        unfold redemptionEvents at listed
        split at listed
        · rename_i linked
          rw [List.mem_singleton.mp listed]
          rintro rfl
          exact kept linked
        · exact absurd listed List.not_mem_nil
  | none =>
      cases call with
      | createActor actor =>
          rw [show codeEvents s (now, .createActor actor) _ = [] from rfl, List.append_nil]
          exact newest code mem
      | setActorEnabled actor enabled =>
          rw [show codeEvents s (now, .setActorEnabled actor enabled) _ = [] from rfl,
            List.append_nil]
          exact newest code mem
      | replaceLinkCode actor hash expiresAt =>
          rcases replaceLinkCode_cases actor hash now expiresAt s.store with
            ⟨answer, codes, stored, store⟩ | ⟨refused, store⟩
          · simp only [store] at mem
            simp only [codeEvents, answer]
            rcases (Table.mem_upsert? stored).mp mem with rfl | ⟨kept, other⟩
            · exact latest_append_self rfl
            · rw [latest_append_other]
              · exact newest code kept
              · intro event listed
                rw [List.mem_singleton.mp listed]
                exact fun same => other same.symm
          · have quiet : codeEvents s (now, .replaceLinkCode actor hash expiresAt)
                ⟨(LinkCall.perform now s.store (.replaceLinkCode actor hash expiresAt)).2, now⟩
                = [] := by
              cases answer
                : (LinkCall.perform now s.store (.replaceLinkCode actor hash expiresAt)).1 with
              | replaced replacement =>
                  cases replacement with
                  | stored => exact absurd answer refused
                  | hashCollision => simp only [codeEvents, answer]
              | done => simp only [codeEvents, answer]
              | failed failure => simp only [codeEvents, answer]
              | redeemed outcome => simp only [codeEvents, answer, redeems]
            rw [quiet, List.append_nil]
            simp only [store] at mem
            exact newest code mem
      | redeemLinkCode identity codeHash =>
          have asks : (LinkCall.redeemLinkCode identity codeHash).Redeems := trivial
          simp only [perform_unredeemed asks redeems] at mem
          rw [codeEvents_unredeemed asks redeems, List.append_nil]
          exact newest code mem
      | redeemLinkCodeOnce key identity codeHash =>
          have asks : (LinkCall.redeemLinkCodeOnce key identity codeHash).Redeems := trivial
          simp only [perform_unredeemed asks redeems] at mem
          rw [codeEvents_unredeemed asks redeems, List.append_nil]
          exact newest code mem
      | collectExpiredLinkState limit =>
          rw [show codeEvents s (now, .collectExpiredLinkState limit) _ = [] from rfl,
            List.append_nil]
          exact newest code (mem_collected_codes.1 mem)

-----------------------------------------------------------------------------------------
-- Runs
-----------------------------------------------------------------------------------------

/-- Every redemption takes the code its actor stored last, which none has taken since. -/
def RedeemsOnce (log : List CodeEvent) : Prop :=
  ∀ earlier actor codeHash later, log = earlier ++ .redeemed actor codeHash :: later →
    ∃ expiresAt, latest actor earlier = some (.stored actor codeHash expiresAt)

/-- What a call shows of a redemption is the code its actor stored last. -/
theorem Newest.redeems (newest : Newest s log) {label : Timestamp × LinkCall} {codeHash : CodeHash}
    (shown : .redeemed actor codeHash ∈ codeEvents s label s')
    : codeEvents s label s' = [.redeemed actor codeHash]
      ∧ ∃ expiresAt, latest actor log = some (.stored actor codeHash expiresAt) := by
  obtain ⟨now, call⟩ := label
  cases redeems : call.redemption s.store with
  | some redemption =>
      obtain ⟨identity, presented⟩ := redemption
      rw [codeEvents_redemption redeems] at shown ⊢
      unfold redemptionEvents at shown ⊢
      split at shown
      · rename_i linked
        cases List.mem_singleton.mp shown
        obtain ⟨code, stored, same, rfl, -⟩ := exists_code_of_linked linked
        cases same
        exact ⟨rfl, code.expiresAt, newest code stored⟩
      · exact absurd shown List.not_mem_nil
  | none =>
      cases call with
      | replaceLinkCode actor hash expiresAt =>
          simp only [codeEvents] at shown
          split at shown
          · cases List.mem_singleton.mp shown
          · simp only [redeems] at shown
            exact absurd shown List.not_mem_nil
          · exact absurd shown List.not_mem_nil
      | redeemLinkCode identity presented =>
          have asks : (LinkCall.redeemLinkCode identity presented).Redeems := trivial
          rw [codeEvents_unredeemed asks redeems] at shown
          exact absurd shown List.not_mem_nil
      | redeemLinkCodeOnce key identity presented =>
          have asks : (LinkCall.redeemLinkCodeOnce key identity presented).Redeems := trivial
          rw [codeEvents_unredeemed asks redeems] at shown
          exact absurd shown List.not_mem_nil
      | createActor actor => exact absurd shown List.not_mem_nil
      | setActorEnabled actor enabled => exact absurd shown List.not_mem_nil
      | collectExpiredLinkState limit => exact absurd shown List.not_mem_nil

/-- Stored codes are the newest, and each is redeemed once, by induction on the history. -/
theorem recorded_newest (reached : (identityLinks.recording codeEvents).Reachable (s, log))
    : Newest s log ∧ RedeemsOnce log := by
  refine System.Reachable.invariant (J := fun state => Newest state.1 state.2 ∧ RedeemsOnce state.2)
    ?_ ?_ reached
  · rintro ⟨s, log⟩ ⟨⟨codes, -⟩, nothing⟩
    simp only at codes nothing
    subst nothing
    refine ⟨fun code mem => ?_, fun earlier actor codeHash later split => ?_⟩
    · rw [codes] at mem
      exact absurd mem (Table.not_mem_empty code)
    · simp at split
  · rintro ⟨s, log⟩ label ⟨s', log'⟩ - ⟨newest, once⟩ ⟨taken, shown⟩
    simp only at taken shown newest once ⊢
    subst shown
    refine ⟨newest.step taken, fun earlier actor codeHash later split => ?_⟩
    rcases List.append_eq_append_iff.mp split with ⟨more, rfl, rest⟩ | ⟨more, rfl, rest⟩
    · -- the redemption is what this call shows
      have listed : .redeemed actor codeHash ∈ codeEvents s label s' := by
        rw [rest]
        exact List.mem_append_right more List.mem_cons_self
      obtain ⟨alone, expiresAt, found⟩ := newest.redeems listed
      rw [alone] at rest
      have first : more = [] := by
        cases more with
        | nil => rfl
        | cons event more => simp at rest
      rw [first, List.append_nil]
      exact ⟨expiresAt, found⟩
    · cases more with
      | nil =>
          rw [List.append_nil] at newest
          have listed : .redeemed actor codeHash ∈ codeEvents s label s' := by
            rw [List.nil_append] at rest
            rw [← rest]
            exact List.mem_cons_self
          exact (newest.redeems listed).2
      | cons event more =>
          injection rest with same rest
          subst same
          exact once earlier actor codeHash more rfl

-----------------------------------------------------------------------------------------
-- Receipts
-----------------------------------------------------------------------------------------

/-- The receipt of a command that was answered. -/
def Receipt (store : LinkStore) (key : GatewayCommandKey) (outcome : GatewayCommandOutcome)
    : Prop :=
  ∃ row ∈ store.commands, row.key = key ∧ row.kind = "identity_link" ∧ row.outcomeJson = outcome

/-- No call takes a receipt away, by cases on the call. -/
theorem perform_commands {store : LinkStore} (now : Timestamp) (call : LinkCall)
    {row : GatewayCommandRow} (stored : row ∈ store.commands)
    : row ∈ (call.perform now store).2.commands := by
  cases redeems : call.redemption store with
  | some redemption =>
      obtain ⟨-, commands, kept, after⟩ := perform_redemption now redeems
      rw [after]
      exact kept row stored
  | none =>
      cases call with
      | createActor actor => exact stored
      | setActorEnabled actor enabled => exact stored
      | replaceLinkCode actor hash expiresAt =>
          obtain ⟨codes, after⟩ := replaceLinkCode_eq actor hash now expiresAt store
          rw [after]
          exact stored
      | redeemLinkCode identity codeHash =>
          have asks : (LinkCall.redeemLinkCode identity codeHash).Redeems := trivial
          rw [perform_unredeemed asks redeems]
          exact stored
      | redeemLinkCodeOnce key identity codeHash =>
          have asks : (LinkCall.redeemLinkCodeOnce key identity codeHash).Redeems := trivial
          rw [perform_unredeemed asks redeems]
          exact stored
      | collectExpiredLinkState limit => exact stored

/-- A command that is answered leaves a receipt. -/
theorem receipt_of_answer {store : LinkStore} {key : GatewayCommandKey} {identity : LinkIdentity}
    {codeHash : Option CodeHash} {now : Timestamp} {outcome : GatewayCommandOutcome}
    (answer
      : ((LinkCall.redeemLinkCodeOnce key identity codeHash).perform now store).1
        = .redeemed outcome)
    : Receipt ((LinkCall.redeemLinkCodeOnce key identity codeHash).perform now store).2 key
      outcome := by
  simp only [LinkCall.perform] at answer ⊢
  cases done : redeemLinkCodeOnce key identity codeHash now store with
  | error failure =>
      rw [done] at answer
      cases answer
  | ok result =>
      rw [done] at answer
      cases answer
      simp only [redeemLinkCodeOnce, bind_eq_ok] at done
      obtain ⟨-, -, -, -, done⟩ := done
      split at done
      · rename_i row found
        simp only [bind_eq_ok, require_eq_ok] at done
        obtain ⟨-, kind, whole⟩ := done
        cases whole
        obtain ⟨stored, same⟩ := Table.find?_some found
        exact ⟨row, stored, same, kind, rfl⟩
      · simp only [bind_eq_ok, execute_eq_ok] at done
        obtain ⟨redeemed, -, commands, inserted, same⟩ := done
        cases same
        exact ⟨_, (Table.mem_insert? inserted).mpr (Or.inr rfl), rfl, rfl, rfl⟩

/-- A command with a receipt is answered from it. -/
theorem Receipt.answers {store : LinkStore} {key : GatewayCommandKey}
    {outcome : GatewayCommandOutcome} (receipt : Receipt store key outcome) (keyNamed : key.Named)
    {identity : LinkIdentity} (named : identity.Named) (codeHash : Option CodeHash)
    (now : Timestamp)
    : (LinkCall.redeemLinkCodeOnce key identity codeHash).perform now store
      = (.redeemed outcome, store) := by
  obtain ⟨row, stored, same, kind, rfl⟩ := receipt
  have found : store.commands.find? (·.key = key) = some row :=
    Table.find?_eq_some_of_unique stored same
      (fun other stored' same' => Table.eq_of_clash stored' stored (same'.trans same.symm))
  simp only [LinkCall.perform, redeemLinkCodeOnce, require, if_pos keyNamed, if_pos named, found,
    if_pos kind]
  rfl

/-- Receipts last, by induction on the run. -/
theorem Receipt.run {key : GatewayCommandKey} {outcome : GatewayCommandOutcome}
    (receipt : Receipt s.store key outcome) (run : identityLinks.Run s s')
    : Receipt s'.store key outcome := by
  refine System.Run.kept (J := fun s => Receipt s.store key outcome) ?_ run receipt
  rintro s ⟨now, call⟩ s' ⟨row, stored, same⟩ ⟨-, -, rfl⟩
  exact ⟨row, perform_commands now call stored, same⟩

-----------------------------------------------------------------------------------------
-- Linking
-----------------------------------------------------------------------------------------

/-- What a call that redeems does to the links. -/
structure Links (s : LinkStore) (now : Timestamp) (call : LinkCall) : Prop where
  kept
    : ∀ row ∈ s.identities, ∃ row' ∈ (call.perform now s).2.identities,
        row'.provider = row.provider ∧ row'.subject = row.subject ∧ row'.actorId = row.actorId
  unlinked
    : (∀ actor outcome, (call.perform now s).1 = .redeemed outcome →
        outcome.linkedTo ≠ some actor) →
      (call.perform now s).2.identities = s.identities ∧ (call.perform now s).2.codes = s.codes

/-- Every call that redeems keeps the links of others, and all of them when it fails. -/
theorem links_of_redeems {store : LinkStore} {now : Timestamp} {call : LinkCall}
    (asks : call.Redeems)
    : Links store now call := by
  cases redeems : call.redemption store with
  | none =>
      have same : (call.perform now store).2 = store := perform_unredeemed asks redeems
      constructor
      · intro row stored
        rw [same]
        exact ⟨row, stored, rfl, rfl, rfl⟩
      · rw [same]
        exact fun _ => ⟨rfl, rfl⟩
  | some redemption =>
      obtain ⟨identity, codeHash⟩ := redemption
      obtain ⟨answer, commands, -, after⟩ := perform_redemption now redeems
      constructor
      · intro row stored
        rw [after]
        exact redeemed_identities _ stored
      · intro unlinked
        rw [after]
        refine redeemed_of_not_linked ?_
        cases linked : (gatewayOutcome (store.outcome identity codeHash now)).linkedTo with
        | none => rfl
        | some actor => exact absurd linked (unlinked actor _ answer)

/-- **Link codes are redeemed at most once, and only the newest of an actor, in time and while
the actor is enabled.** No redemption changes the actor of an identity, a failed one leaves the
identities and the codes, and a repeated command is answered as it was the first time.
-/
theorem link_codes_are_redeemed_once
    (reached : (identityLinks.recording codeEvents).Reachable (s, log))
    : RedeemsOnce log
      ∧ (∀ now (call : LinkCall) identity codeHash,
          call.redemption s.store = some (identity, codeHash) → ∀ outcome actor,
          (call.perform now s.store).1 = .redeemed outcome → outcome.linkedTo = some actor →
          ∃ hash expiresAt, codeHash = some hash
            ∧ latest actor log = some (.stored actor hash expiresAt) ∧ now < expiresAt
            ∧ ∃ row ∈ s.store.actors, row.id = actor ∧ row.enabled = true)
      ∧ (∀ now (call : LinkCall), call.Redeems → Links s.store now call)
      ∧ ∀ now, s.clock ≤ now → Representable now → ∀ key identity codeHash outcome,
          ((LinkCall.redeemLinkCodeOnce key identity codeHash).perform now s.store).1
            = .redeemed outcome →
          ∀ s', identityLinks.Run
              ⟨((LinkCall.redeemLinkCodeOnce key identity codeHash).perform now s.store).2, now⟩
              s' →
          ∀ (identity' : LinkIdentity) codeHash' now', identity'.Named →
            (LinkCall.redeemLinkCodeOnce key identity' codeHash').perform now' s'.store
              = (.redeemed outcome, s'.store) := by
  obtain ⟨newest, once⟩ := recorded_newest reached
  refine ⟨once, ?_, fun now call asks => links_of_redeems asks, ?_⟩
  · intro now call identity codeHash redeems outcome actor answer linked
    obtain ⟨answer', -⟩ := perform_redemption now redeems
    rw [answer'] at answer
    cases answer
    obtain ⟨code, stored, rfl, rfl, live, enabled⟩ := exists_code_of_linked linked
    exact ⟨code.codeHash, code.expiresAt, rfl, newest code stored, live, enabled⟩
  · intro now _ _ key identity codeHash outcome answer s' run identity' codeHash' now' named
    have receipt := (receipt_of_answer answer).run run
    have keyNamed : key.Named := by
      by_contra blank
      simp only [LinkCall.perform, redeemLinkCodeOnce, require, if_neg blank] at answer
      cases answer
    exact receipt.answers keyNamed named codeHash' now'

namespace Linked

def owner : ActorId := ⟨"owner"⟩

def code : CodeHash := Vector.replicate 32 1

def peer : LinkIdentity := ⟨"telegram:1", "100", none⟩

def key : GatewayCommandKey := ⟨"telegram:1", "update-7"⟩

/-- An actor without any identity. -/
def start : LinkRun := ⟨⟨⟨[⟨owner, true, 0⟩], by decide⟩, ∅, ∅, ∅, ∅⟩, 0⟩

/-- The actor has a code. -/
def issued : LinkRun := ⟨(LinkCall.perform 0 start.store (.replaceLinkCode owner code 10)).2, 0⟩

def issues : List CodeEvent := codeEvents start (0, .replaceLinkCode owner code 10) issued

/-- The command that redeems it. -/
def redeem : LinkCall := .redeemLinkCodeOnce key peer (some code)

/-- The identity is linked. -/
def linked : LinkRun := ⟨(redeem.perform 5 issued.store).2, 5⟩

theorem recorded_issued : (identityLinks.recording codeEvents).Reachable (issued, issues) := by
  have initial : identityLinks.Initial start := ⟨rfl, rfl, rfl⟩
  have taken : identityLinks.Step start (0, .replaceLinkCode owner code 10) issued :=
    ⟨by decide, by decide, rfl⟩
  have next : (identityLinks.recording codeEvents).Step (start, [])
      (0, .replaceLinkCode owner code 10) (issued, issues) :=
    ⟨taken, rfl⟩
  exact .step (.initial ⟨initial, rfl⟩) next

end Linked

theorem link_codes_are_redeemed_once_linked
    : (∃ hash expiresAt, some Linked.code = some hash
        ∧ latest Linked.owner Linked.issues = some (.stored Linked.owner hash expiresAt)
        ∧ (5 : Timestamp) < expiresAt
        ∧ ∃ row ∈ Linked.issued.store.actors, row.id = Linked.owner ∧ row.enabled = true)
      ∧ Linked.redeem.perform 60 Linked.linked.store
        = (.redeemed (.linked Linked.owner), Linked.linked.store) := by
  have once := link_codes_are_redeemed_once Linked.recorded_issued
  have answer : (Linked.redeem.perform 5 Linked.issued.store).1
      = .redeemed (.linked Linked.owner) := by
    decide +kernel
  constructor
  · exact once.2.1 5 Linked.redeem Linked.peer (some Linked.code) (by decide +kernel)
      (.linked Linked.owner) Linked.owner answer rfl
  · exact once.2.2.2 5 (by decide) (by decide) Linked.key Linked.peer (some Linked.code)
      (.linked Linked.owner) answer Linked.linked .refl Linked.peer (some Linked.code) 60
      (by decide)

end Codrik.Runtime.Sqlite.IdentityLink

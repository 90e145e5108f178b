import Codrik.Runtime.Runner.Rules
import Mathlib.Data.Set.Insert

/-! A whole quantum, walked through once: what is to be shown of a fact about the run in hand
and its open attempts so that every quantum keeps a promise.
-/

namespace Codrik.Runtime.Runner

open Codrik.Interaction
open Codrik.Relational
open Codrik.Runtime.Sqlite

-----------------------------------------------------------------------------------------
-- Facts about the run in hand
-----------------------------------------------------------------------------------------

/-- A fact about a run, as a fact about the quantum that has it in hand. -/
def Run (F : AttachedRun → World → Prop) (q : Quantum) (w : World) : Prop := F q.run w

theorem Kept.and {actorId : ActorId} {K L : Quantum → World → Prop} (first : Kept actorId K)
    (second : Kept actorId L)
    : Kept actorId (fun q w => K q w ∧ L q w) where
  relies q w w' hand known relies :=
    ⟨first.relies q w w' hand known.1 relies, second.relies q w w' hand known.2 relies⟩
  moves q w call answer s hand moving performed known :=
    ⟨first.moves q w call answer s hand moving performed known.1,
      second.moves q w call answer s hand moving performed known.2⟩
  renew q w expiresAt known :=
    ⟨first.renew q w expiresAt known.1, second.renew q w expiresAt known.2⟩
  progress q w progress known :=
    ⟨first.progress q w progress known.1, second.progress q w progress known.2⟩
  heartbeat q w running known :=
    ⟨first.heartbeat q w running known.1, second.heartbeat q w running known.2⟩
  toolSteps q w steps known :=
    ⟨first.toolSteps q w steps known.1, second.toolSteps q w steps known.2⟩

/-- The run in hand and attempts that are stored for it. -/
structure Carries (runId : RunId) (policy : ExecutionPolicy) (attempts : List ToolAttempt)
    (q : Quantum) (w : World) : Prop where
  sameRun : q.run.runId = runId
  samePolicy : q.run.executionPolicy = policy
  stored : ∀ attempt ∈ attempts, Stored runId attempt w

theorem Carries.after {runId : RunId} {policy : ExecutionPolicy} {attempts : List ToolAttempt}
    {q : Quantum} {w : World} (carries : Carries runId policy attempts q w) (call : Call)
    : Carries runId policy attempts q (w.after call) :=
  ⟨carries.sameRun, carries.samePolicy, fun attempt mem => (carries.stored attempt mem).after call⟩

theorem Carries.commit {runId : RunId} {policy : ExecutionPolicy} {attempts : List ToolAttempt}
    {q : Quantum} {w : World} (carries : Carries runId policy attempts q w) {call : Call}
    {answer : Sqlite.Answer} {s : Store} (performed : call.perform w.store = .ok (answer, s))
    : Carries runId policy attempts q (w.commit call answer s) :=
  after_eq_commit performed ▸ carries.after call

/-- Stored attempts stay stored, whoever calls. -/
theorem Kept.carries (actorId : ActorId) (runId : RunId) (policy : ExecutionPolicy)
    (attempts : List ToolAttempt)
    : Kept actorId (Carries runId policy attempts) where
  relies q w w' _ carries relies := by
    obtain rfl | ⟨call, -, -, rfl⟩ := relies
    · exact carries
    · exact carries.after call
  moves q w call answer s _ _ performed carries := carries.commit performed
  renew q w expiresAt carries := ⟨carries.sameRun, carries.samePolicy, carries.stored⟩
  progress q w progress carries := ⟨carries.sameRun, carries.samePolicy, carries.stored⟩
  heartbeat q w running carries := ⟨carries.sameRun, carries.samePolicy, carries.stored⟩
  toolSteps q w steps carries := ⟨carries.sameRun, carries.samePolicy, carries.stored⟩

-----------------------------------------------------------------------------------------
-- Upkeep
-----------------------------------------------------------------------------------------

/-- What is to be shown of two facts about the run in hand: `Fresh` holds once it is attached
and `Open` once its input is in the transcript, each with the attempts of the run that may be
unresolved.
-/
structure Upkeep (actorId : ActorId) (permitted extra : World → Op → Prop)
    (Fresh Open : Set AttemptId → AttachedRun → World → Prop) : Prop where
  keepsFresh : ∀ ids, Kept actorId (Run (Fresh ids))
  keepsOpen : ∀ ids, Kept actorId (Run (Open ids))
  grows : ∀ ids more run w, ids ⊆ more → Open ids run w → Open more run w
  plain : ∀ w op, Plain op → extra w op
  attaches : ∀ w lease maxEvents now ids run s, runtime.Reachable w → lease.actorId = actorId →
    attachNextRun lease maxEvents now ids w.store = .ok (some run, s) →
    Fresh Set.univ run (w.commit (.attachNextRun lease maxEvents now ids) (.attached run) s)
  reattaches : ∀ q w maxEvents now ids run s, Hand actorId (Run (Open ∅)) q w →
    permitted w (.call (some q.run) (.attachNextRun q.run.lease maxEvents now ids)) →
    attachNextRun q.run.lease maxEvents now ids w.store = .ok (some run, s) →
    Fresh ∅ run (w.commit (.attachNextRun q.run.lease maxEvents now ids) (.attached run) s)
  incorporates : ∀ ids q w now, Hand actorId (Run (Fresh ids)) q w →
    extra w (.call (some q.run)
      (.checkpointRun ⟨q.run, q.run.sourceEventIds, [], q.run.messages⟩ now))
  incorporated : ∀ ids q w now s, Hand actorId (Run (Fresh ids)) q w →
    checkpointRun ⟨q.run, q.run.sourceEventIds, [], q.run.messages⟩ now w.store = .ok ((), s) →
    Open ids q.run
      (w.commit (.checkpointRun ⟨q.run, q.run.sourceEventIds, [], q.run.messages⟩ now) .done s)
  examines : ∀ q w attempts, Hand actorId (Run (Open Set.univ)) q w →
    unresolvedAttempts q.run w.store = .ok attempts →
    Open {id | ∃ attempt ∈ attempts, attempt.id = id} q.run w
  prepares : ∀ ids q w new now attempt s, Hand actorId (Run (Open ids)) q w →
    prepareAttempt q.run new now w.store = .ok (attempt, s) →
    Open (insert attempt.id ids) q.run
      (w.commit (.prepareAttempt q.run new now) (.prepared attempt) s)
  starts : ∀ ids q w attempt now, Hand actorId (Run (Open ids)) q w →
    Stored q.run.runId attempt w → q.run.executionPolicy.allows attempt.toolName = true →
    extra w (.call (some q.run) (.markAttemptRunning q.run attempt.id now))
  checkpoints : ∀ ids q w attemptIds messages now, Hand actorId (Run (Open ids)) q w →
    (∀ message ∈ messages, message.role ≠ .user) →
    extra w (.call (some q.run) (.checkpointRun ⟨q.run, [], attemptIds, messages⟩ now))
  checkpointed : ∀ ids q w attemptIds messages now s, Hand actorId (Run (Open ids)) q w →
    checkpointRun ⟨q.run, [], attemptIds, messages⟩ now w.store = .ok ((), s) →
    Open (ids \ {id | id ∈ attemptIds}) q.run
      (w.commit (.checkpointRun ⟨q.run, [], attemptIds, messages⟩ now) .done s)
  streams : ∀ q w request, Hand actorId (Run (Open ∅)) q w → extra w (.stream request)
  finalizes : ∀ q w command now ids, Hand actorId (Run (Open ∅)) q w → command.run = q.run →
    (∀ message ∈ command.finalMessages, message.role ≠ .user) →
    extra w (.call (some q.run) (.finalizeRun command now ids))

section Walk

variable {actorId : ActorId} {permitted extra : World → Op → Prop}
    {Fresh Open : Set AttemptId → AttachedRun → World → Prop} {q : Quantum} {w : World}
    {runner : ActorRunner} {runId : RunId} {policy : ExecutionPolicy}

/-- The run in hand with the attempts that may be unresolved and those the quantum carries. -/
abbrev Working (Open : Set AttemptId → AttachedRun → World → Prop) (ids : Set AttemptId)
    (runId : RunId) (policy : ExecutionPolicy) (attempts : List ToolAttempt) (q : Quantum)
    (w : World) : Prop :=
  Run (Open ids) q w ∧ Carries runId policy attempts q w

theorem Upkeep.keepsWorking (upkeep : Upkeep actorId permitted extra Fresh Open)
    (ids : Set AttemptId) (runId : RunId) (policy : ExecutionPolicy)
    (attempts : List ToolAttempt)
    : Kept actorId (Working Open ids runId policy attempts) :=
  (upkeep.keepsOpen ids).and (Kept.carries actorId runId policy attempts)

-----------------------------------------------------------------------------------------
-- Checkpoints
-----------------------------------------------------------------------------------------

/-- A checkpoint turns one fact into another. -/
theorem checkpoint_ensures {K L : Quantum → World → Prop} {eventIds : List EventId}
    {attemptIds : List AttemptId} {messages : List Message} (kept : Kept actorId K)
    (plain : ∀ w op, Plain op → extra w op)
    (promised
      : ∀ w now, Hand actorId K q w →
        extra w (.call (some q.run) (.checkpointRun ⟨q.run, eventIds, attemptIds, messages⟩ now)))
    (turns
      : ∀ w now s, Hand actorId K q w →
        checkpointRun ⟨q.run, eventIds, attemptIds, messages⟩ now w.store = .ok ((), s) →
        L q (w.commit (.checkpointRun ⟨q.run, eventIds, attemptIds, messages⟩ now) .done s))
    (hand : Hand actorId K q w)
    : Ensures (promise actorId permitted extra) (fun _ q' w' => q' = q ∧ Hand actorId L q w')
        (Out actorId) (checkpoint eventIds attemptIds messages) q w := by
  unfold checkpoint
  rw [ensures_quantum_bind]
  refine Ensures.bind (plain_ensures kept plain hand trivial (fun _ _ => nofun))
    (fun now q' w known => ?_)
  obtain ⟨rfl, hand⟩ := known
  have called : Ensures (promise actorId permitted extra)
      (fun _ q'' w' => q'' = q' ∧ Hand actorId L q' w') (Out actorId)
      (callStore (.checkpointRun ⟨q'.run, eventIds, attemptIds, messages⟩ now)) q' w := by
    refine callStore_ensures (kept.stable q') hand
      (fun w hand => ⟨⟨hand.1.holds, forActor_of_run hand.1 rfl⟩, promised w now hand⟩)
      (fun w answer s hand _ performed => ⟨rfl, ?_⟩) (fun w error hand => hand.1)
    have after := hand.1.after (.checkpointRun ⟨q'.run, eventIds, attemptIds, messages⟩ now)
      hand.1.holds
    rw [after_eq_commit performed] at after
    simp only [Call.perform, answering_eq_ok] at performed
    obtain ⟨_, done, rfl⟩ := performed
    exact ⟨after, turns w now s hand done⟩
  exact Ensures.bind called (fun _ _ _ known => known)

/-- The context is loaded and the run's new messages are checkpointed. -/
theorem incorporate_ensures (upkeep : Upkeep actorId permitted extra Fresh Open)
    {ids : Set AttemptId} (hand : Hand actorId (Run (Fresh ids)) q w)
    : Ensures (promise actorId permitted extra) (fun _ => Hand actorId (Run (Open ids)))
        (Out actorId) (incorporate runner) q w := by
  unfold incorporate
  rw [ensures_quantum_bind]
  refine Ensures.bind (plain_ensures (upkeep.keepsFresh ids) upkeep.plain hand trivial
    (fun _ _ => nofun)) (fun context q' w known => ?_)
  obtain ⟨rfl, hand⟩ := known
  split
  · exact hand.1
  · rw [ensures_update_bind]
    rename_i context
    have extended : Hand actorId (Run (Fresh ids))
        { q' with messages := context ++ q'.run.messages } w :=
      ⟨⟨hand.1.reached, hand.1.holds, hand.1.actor⟩, hand.2⟩
    refine Ensures.mono (checkpoint_ensures (L := Run (Open ids)) (upkeep.keepsFresh ids)
      upkeep.plain (fun w now hand => upkeep.incorporates ids _ w now hand)
      (fun w now s hand done => upkeep.incorporated ids _ w now s hand done) extended) ?_
    exact fun _ _ _ known => known.1 ▸ known.2

-----------------------------------------------------------------------------------------
-- Recovery
-----------------------------------------------------------------------------------------

/-- Waiting for a decision ends the quantum. -/
theorem awaitDecision_ensures {K : Quantum → World → Prop} {attempt : ToolAttempt}
    {α : Type} {post : α → Quantum → World → Prop} (kept : Kept actorId K)
    (plain : ∀ w op, Plain op → extra w op) (hand : Hand actorId K q w)
    : Ensures (promise actorId permitted extra) post (Out actorId)
        (awaitDecision runner attempt : Work α) q w := by
  have leaves : ∀ q w, Hand actorId K q w → Ensures (promise actorId permitted extra) post
      (Out actorId) (do
        executionBoundary runner
        exit (.returns .waitingForDecision) : Work α) q w :=
    fun q w hand => Ensures.bind (executionBoundary_ensures kept plain hand)
      (fun _ _ _ hand => hand.1)
  unfold awaitDecision
  split
  · rw [ensures_quantum_bind]
    refine Ensures.bind (plain_ensures kept plain hand trivial (fun _ _ => nofun))
      (fun now q' w known => ?_)
    obtain ⟨rfl, hand⟩ := known
    refine Ensures.bind (movingCall_ensures kept hand rfl
      (fun w hand => ⟨⟨hand.1.holds, forActor_of_run hand.1 rfl⟩, plain w _ trivial⟩))
      (fun _ q'' w known => ?_)
    obtain ⟨rfl, hand⟩ := known
    exact leaves _ w hand
  · exact leaves q w hand

theorem rejectAttempt_ensures {K : Quantum → World → Prop} {attempt : ToolAttempt}
    (kept : Kept actorId K) (plain : ∀ w op, Plain op → extra w op) (hand : Hand actorId K q w)
    : Ensures (promise actorId permitted extra) (fun _ => Hand actorId K) (Out actorId)
        (rejectAttempt attempt) q w := by
  unfold rejectAttempt
  rw [ensures_quantum_bind]
  refine Ensures.bind (plain_ensures kept plain hand trivial (fun _ _ => nofun))
    (fun now q' w known => ?_)
  obtain ⟨rfl, hand⟩ := known
  refine Ensures.bind (movingCall_ensures kept hand rfl
    (fun w hand => ⟨⟨hand.1.holds, forActor_of_run hand.1 rfl⟩, plain w _ trivial⟩))
    (fun _ q'' w known => ?_)
  obtain ⟨rfl, hand⟩ := known
  exact hand

/-- An attempt that the policy allows may be executed. -/
theorem allowedAttempt_ensures (upkeep : Upkeep actorId permitted extra Fresh Open)
    {ids : Set AttemptId} {attempts : List ToolAttempt} {attempt : ToolAttempt}
    {name arguments : String} {authorizedTools : List String} (mem : attempt ∈ attempts)
    (allowed : policy.allows attempt.toolName = true)
    (hand : Hand actorId (Working Open ids runId policy attempts) q w)
    : Ensures (promise actorId permitted extra)
        (fun _ => Hand actorId (Working Open ids runId policy attempts)) (Out actorId)
        (executeAttempt runner attempt.id name arguments authorizedTools) q w := by
  refine executeAttempt_ensures (upkeep.keepsWorking ids runId policy attempts) upkeep.plain
    (fun q w hand => hand.2.2.sameRun ▸ hand.2.2.stored attempt mem)
    (fun q w now hand => upkeep.starts ids q w attempt now ⟨hand.1, hand.2.1⟩
      (hand.2.2.sameRun ▸ hand.2.2.stored attempt mem) ?_) hand
  rw [hand.2.2.samePolicy]
  exact allowed

theorem invokeAttempt_ensures (upkeep : Upkeep actorId permitted extra Fresh Open)
    {ids : Set AttemptId} {attempts : List ToolAttempt} {attempt : ToolAttempt}
    (mem : attempt ∈ attempts) (allowed : policy.allows attempt.toolName = true)
    (hand : Hand actorId (Working Open ids runId policy attempts) q w)
    : Ensures (promise actorId permitted extra)
        (fun _ => Hand actorId (Working Open ids runId policy attempts)) (Out actorId)
        (invokeAttempt runner attempt) q w := by
  have kept := upkeep.keepsWorking ids runId policy attempts
  unfold invokeAttempt
  rw [ensures_quantum_bind]
  split
  · exact Ensures.bind (executionBoundary_ensures kept upkeep.plain hand)
      (fun _ _ _ hand => hand.1)
  · rw [ensures_update_bind]
    exact allowedAttempt_ensures upkeep mem allowed
      ⟨⟨hand.1.reached, hand.1.holds, hand.1.actor⟩, kept.toolSteps q w _ hand.2⟩

/-- An unresolved attempt is executed only if the policy still allows it. -/
theorem recoveredOutcome_ensures (upkeep : Upkeep actorId permitted extra Fresh Open)
    {ids : Set AttemptId} {attempts : List ToolAttempt} {attempt : ToolAttempt}
    {recovery : AttemptRecovery} (mem : attempt ∈ attempts)
    (hand : Hand actorId (Working Open ids runId policy attempts) q w)
    : Ensures (promise actorId permitted extra)
        (fun _ => Hand actorId (Working Open ids runId policy attempts)) (Out actorId)
        (recoveredOutcome runner attempt recovery) q w := by
  have kept := upkeep.keepsWorking ids runId policy attempts
  cases recovery with
  | terminal outcome => exact hand
  | outcomeUnknown => exact awaitDecision_ensures kept upkeep.plain hand
  | mayInvoke =>
      simp only [recoveredOutcome]
      rw [ensures_quantum_bind]
      split
      · rename_i allowed
        rw [hand.2.2.samePolicy] at allowed
        exact invokeAttempt_ensures upkeep mem allowed hand
      · exact rejectAttempt_ensures kept upkeep.plain hand

/-- The messages of the runner itself are not the user's. -/
theorem recoveredMessages_role {messages : List Message} {attempt : ToolAttempt}
    {outcome : AttemptOutcome} {message : Message}
    (mem : message ∈ recoveredMessages messages attempt outcome)
    : message.role ≠ .user := by
  unfold recoveredMessages at mem
  split at mem
  · rw [List.mem_singleton.mp mem]
    exact Role.noConfusion
  · rcases List.mem_cons.mp mem with rfl | mem
    · exact Role.noConfusion
    · rw [List.mem_singleton.mp mem]
      exact Role.noConfusion

/-- A checkpoint of the runner's own messages resolves the attempts it lists. -/
theorem ownCheckpoint_ensures (upkeep : Upkeep actorId permitted extra Fresh Open)
    {ids : Set AttemptId} {attempts : List ToolAttempt} (attemptIds : List AttemptId)
    {messages : List Message} (own : ∀ message ∈ messages, message.role ≠ .user)
    (hand : Hand actorId (Working Open ids runId policy attempts) q w)
    : Ensures (promise actorId permitted extra)
        (fun _ q' w' => q' = q
          ∧ Hand actorId (Working Open (ids \ {id | id ∈ attemptIds}) runId policy attempts) q w')
        (Out actorId) (checkpoint [] attemptIds messages) q w := by
  refine checkpoint_ensures (upkeep.keepsWorking ids runId policy attempts) upkeep.plain
    (fun w now hand => upkeep.checkpoints ids q w attemptIds messages now ⟨hand.1, hand.2.1⟩ own)
    (fun w now s hand done => ?_) hand
  refine ⟨upkeep.checkpointed ids q w attemptIds messages now s ⟨hand.1, hand.2.1⟩ done, ?_⟩
  refine hand.2.2.commit ?_
  rw [Call.perform, answering_eq_ok]
  exact ⟨(), done, rfl⟩

theorem advanceProgress_ensures {K : Quantum → World → Prop} {committed : QuantumProgress}
    {contract : Contract Ops World} {exits : Exit → Quantum → World → Prop}
    (kept : Kept actorId K) (hand : Hand actorId K q w)
    : Ensures contract (fun _ => Hand actorId K) exits (advanceProgress committed) q w := by
  unfold advanceProgress
  rw [ensures_update]
  split
  · exact ⟨⟨hand.1.reached, hand.1.holds, hand.1.actor⟩, kept.progress q w committed hand.2⟩
  · exact hand

theorem extendMessages_ensures {ids : Set AttemptId} {attempts : List ToolAttempt}
    {messages : List Message} {contract : Contract Ops World}
    {exits : Exit → Quantum → World → Prop}
    (hand : Hand actorId (Working Open ids runId policy attempts) q w)
    : Ensures contract (fun _ => Hand actorId (Working Open ids runId policy attempts)) exits
        (extendMessages messages) q w :=
  ⟨⟨hand.1.reached, hand.1.holds, hand.1.actor⟩, hand.2.1, hand.2.2.sameRun,
    hand.2.2.samePolicy, hand.2.2.stored⟩

/-- One round of the recovery loop resolves its attempt. -/
theorem recoverOne_ensures (upkeep : Upkeep actorId permitted extra Fresh Open)
    {ids : Set AttemptId} {attempts : List ToolAttempt} {attempt : ToolAttempt}
    (mem : attempt ∈ attempts)
    (hand : Hand actorId (Working Open ids runId policy attempts) q w)
    : Ensures (promise actorId permitted extra)
        (fun _ => Hand actorId (Working Open (ids \ {attempt.id}) runId policy attempts))
        (Out actorId) (recoverOne runner attempt) q w := by
  have kept := upkeep.keepsWorking ids runId policy attempts
  unfold recoverOne
  refine Ensures.bind (executionBoundary_ensures kept upkeep.plain hand) (fun _ q w hand => ?_)
  have recovers : Ensures (promise actorId permitted extra)
      (fun answer q' w' => q' = q ∧ Hand actorId (Working Open ids runId policy attempts) q w'
        ∧ ∃ (before : World) (s : Store),
          (Call.recoverAttempt attempt.id).perform before.store = .ok (answer, s))
      (Out actorId) (callStore (.recoverAttempt attempt.id)) q w :=
    plainCall_ensures kept upkeep.plain hand trivial
      (fun w hand => ⟨trivial, forActor_recoverAttempt hand.1
        (hand.2.2.sameRun ▸ hand.2.2.stored attempt mem)⟩)
      (fun w answer s hand performed => kept.moves q w _ answer s hand.1 trivial performed hand.2)
  refine Ensures.bind recovers (fun answer q' w known => ?_)
  obtain ⟨rfl, hand, before, s, performed⟩ := known
  simp only [Call.perform, answering_eq_ok] at performed
  obtain ⟨recovery, -, rfl⟩ := performed
  refine Ensures.bind (recoveredOutcome_ensures upkeep mem hand) (fun outcome q w hand => ?_)
  rw [ensures_quantum_bind]
  refine Ensures.bind (ownCheckpoint_ensures upkeep [attempt.id]
    (fun message mem => recoveredMessages_role mem) hand) (fun _ q' w known => ?_)
  obtain ⟨rfl, hand⟩ := known
  refine Ensures.bind (advanceProgress_ensures (upkeep.keepsWorking _ runId policy attempts) hand)
    (fun _ q w hand => ?_)
  have single : {id | id ∈ [attempt.id]} = ({attempt.id} : Set AttemptId) := by
    ext id
    exact List.mem_singleton
  rw [single] at hand
  exact extendMessages_ensures hand

/-- The recovery loop resolves every attempt that is open, by induction on the attempts. -/
theorem recoverAll_ensures (upkeep : Upkeep actorId permitted extra Fresh Open)
    {ids : Set AttemptId} {attempts : List ToolAttempt}
    (all : ∀ id ∈ ids, ∃ attempt ∈ attempts, attempt.id = id)
    (hand : Hand actorId (Working Open ids runId policy attempts) q w)
    : Ensures (promise actorId permitted extra) (fun _ => Hand actorId (Run (Open ∅)))
        (Out actorId) (recoverAll runner attempts) q w := by
  induction attempts generalizing ids q w with
  | nil =>
      refine ⟨hand.1, upkeep.grows ids ∅ _ _ (fun id mem => ?_) hand.2.1⟩
      obtain ⟨_, none, -⟩ := all id mem
      exact absurd none List.not_mem_nil
  | cons attempt rest ih =>
      refine Ensures.bind (recoverOne_ensures upkeep List.mem_cons_self hand)
        (fun _ q w hand => ?_)
      have left : ∀ id ∈ ids \ {attempt.id}, ∃ other ∈ rest, other.id = id := by
        intro id mem
        obtain ⟨other, known, rfl⟩ := all id mem.1
        rcases List.mem_cons.mp known with rfl | known
        · exact absurd rfl mem.2
        · exact ⟨other, known, rfl⟩
      exact ih left ⟨hand.1, hand.2.1, hand.2.2.sameRun, hand.2.2.samePolicy,
        fun other known => hand.2.2.stored other (List.mem_cons_of_mem _ known)⟩

end Walk

end Codrik.Runtime.Runner

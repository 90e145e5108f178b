import Codrik.Runtime.Sqlite.Artifacts
import Codrik.Runtime.Sqlite.Attempts
import Codrik.Runtime.Sqlite.BundleDelivery
import Codrik.Runtime.Sqlite.Failures
import Codrik.Runtime.Sqlite.Recovery
import Codrik.Runtime.Sqlite.Webhook
import Codrik.Transition.System

/-! The runtime store as a transition system: any party may call any operation at any time,
each call is one transaction, and a failed call changes nothing.
-/

namespace Codrik.Runtime.Sqlite

open Codrik.Relational
open Codrik.Transition

-----------------------------------------------------------------------------------------
-- Calls
-----------------------------------------------------------------------------------------

inductive Call
  | ingest (event : NewInboundEvent) (now : Timestamp) (ids : FreshIds)
  | submitForActor (actorId : ActorId) (command : LocalSubmission) (now : Timestamp)
      (ids : FreshIds)
  | cancelForActor (actorId : ActorId) (command : LocalCancel) (now : Timestamp)
      (ids : FreshIds)
  | ingestWebhook (event : NewWebhookEvent) (now : Timestamp) (ids : FreshIds)
  | acquireReadyActor (owner : String) (now leaseUntil : Timestamp)
  | acquireReadyActorFor (actorId : ActorId) (owner : String) (now leaseUntil : Timestamp)
  | renewLease (lease : ActorLease) (now leaseUntil : Timestamp)
  | releaseLease (lease : ActorLease)
  | attachNextRun (lease : ActorLease) (maxEvents : Nat) (now : Timestamp) (ids : FreshIds)
  | newerControlEvent (lease : ActorLease) (observedSequence : Nat) (now : Timestamp)
  | checkpointRun (command : CheckpointRun) (now : Timestamp)
  | finalizeRun (command : FinalizeRun) (now : Timestamp) (ids : FreshIds)
  | cancelRun (run : AttachedRun) (control : ControlEvent) (now : Timestamp) (ids : FreshIds)
  | prepareAttempt (run : AttachedRun) (attempt : NewToolAttempt) (now : Timestamp)
  | markAttemptRunning (run : AttachedRun) (id : AttemptId) (now : Timestamp)
  | rejectPreparedAttempt (run : AttachedRun) (id : AttemptId) (outcome : AttemptOutcome)
      (now : Timestamp)
  | finishAttempt (run : AttachedRun) (id : AttemptId) (outcome : AttemptOutcome)
      (now : Timestamp)
  | recoverAttempt (id : AttemptId)
  | blockUnknownAttempt (run : AttachedRun) (id : AttemptId) (now : Timestamp)
  | unresolvedAttempts (run : AttachedRun)
  | beginStaging (command : BeginArtifact)
  | commitStagedExecution (files : String → Except String FileMetadata) (run : AttachedRun)
      (attempt : AttemptId) (execution : DurableToolExecution) (leases : List ArtifactLease)
      (now : Timestamp)
  | recordFailure (fence : FailureFence) (error : String) (progress : QuantumProgress)
      (now : Timestamp) (ids : FreshIds)
  | recordProgress (fence : FailureFence) (now : Timestamp)
  | deliverBundle (step : BundleStep)
  | recoverStartup (now : Timestamp)
  | recoverShutdown (actorOwner bundleOwner : String) (now : Timestamp)

/-- The answers of the operations that hand something out. -/
inductive Answer
  | ingested (outcome : IngressOutcome)
  | submitted (outcome : LocalSubmitOutcome)
  | cancelled (outcome : CancelOutcome)
  | webhook (outcome : WebhookIngressOutcome)
  | acquired (lease : Option ActorLease)
  | renewed (lease : ActorLease)
  | attached (run : Option AttachedRun)
  | control (event : Option ControlEvent)
  | finalized (outcome : FinalizeOutcome)
  | prepared (attempt : ToolAttempt)
  | recovered (recovery : AttemptRecovery)
  | unresolved (attempts : List ToolAttempt)
  | staged (lease : ArtifactLease)
  | failed (disposition : FailureDisposition)
  | bundle (answer : BundleAnswer)
  | report (report : StartupRecoveryReport)
  | done

/-- Wraps the answer of an operation. -/
def answering {α : Type} (answer : α → Answer) (result : Except StoreError (α × Store))
    : Except StoreError (Answer × Store) :=
  result.map (fun committed => (answer committed.1, committed.2))

/-- Wraps the answer of an operation that only reads. -/
def reading {α : Type} (answer : α → Answer) (s : Store) (result : Except StoreError α)
    : Except StoreError (Answer × Store) :=
  result.map (fun value => (answer value, s))

/-- The transaction a call performs. -/
def Call.perform : Call → Store → Except StoreError (Answer × Store)
  | .ingest event now ids, s => answering .ingested (Sqlite.ingest event now ids s)
  | .submitForActor actorId command now ids, s =>
      answering .submitted (Sqlite.submitForActor actorId command now ids s)
  | .cancelForActor actorId command now ids, s =>
      answering .cancelled (Sqlite.cancelForActor actorId command now ids s)
  | .ingestWebhook event now ids, s =>
      answering .webhook (Sqlite.ingestWebhook event now ids s)
  | .acquireReadyActor owner now leaseUntil, s =>
      answering .acquired (Sqlite.acquireReadyActor owner now leaseUntil s)
  | .acquireReadyActorFor actorId owner now leaseUntil, s =>
      answering .acquired (Sqlite.acquireReadyActorFor actorId owner now leaseUntil s)
  | .renewLease lease now leaseUntil, s =>
      answering .renewed (Sqlite.renewLease lease now leaseUntil s)
  | .releaseLease lease, s => answering (fun _ => .done) (Sqlite.releaseLease lease s)
  | .attachNextRun lease maxEvents now ids, s =>
      answering .attached (Sqlite.attachNextRun lease maxEvents now ids s)
  | .newerControlEvent lease observedSequence now, s =>
      reading .control s (Sqlite.newerControlEvent lease observedSequence now s)
  | .checkpointRun command now, s =>
      answering (fun _ => .done) (Sqlite.checkpointRun command now s)
  | .finalizeRun command now ids, s =>
      answering .finalized (Sqlite.finalizeRun command now ids s)
  | .cancelRun run control now ids, s =>
      answering (fun _ => .done) (Sqlite.cancelRun run control now ids s)
  | .prepareAttempt run attempt now, s =>
      answering .prepared (Sqlite.prepareAttempt run attempt now s)
  | .markAttemptRunning run id now, s =>
      answering (fun _ => .done) (Sqlite.markAttemptRunning run id now s)
  | .rejectPreparedAttempt run id outcome now, s =>
      answering (fun _ => .done) (Sqlite.rejectPreparedAttempt run id outcome now s)
  | .finishAttempt run id outcome now, s =>
      answering (fun _ => .done) (Sqlite.finishAttempt run id outcome now s)
  | .recoverAttempt id, s => answering .recovered (Sqlite.recoverAttempt id s)
  | .blockUnknownAttempt run id now, s =>
      answering (fun _ => .done) (Sqlite.blockUnknownAttempt run id now s)
  | .unresolvedAttempts run, s => reading .unresolved s (Sqlite.unresolvedAttempts run s)
  | .beginStaging command, s => answering .staged (Sqlite.beginStaging command s)
  | .commitStagedExecution files run attempt execution leases now, s =>
      answering (fun _ => .done)
        (Sqlite.commitStagedExecution files run attempt execution leases now s)
  | .recordFailure fence error progress now ids, s =>
      answering .failed (Sqlite.recordFailure fence error progress now ids s)
  | .recordProgress fence now, s =>
      answering (fun _ => .done) (Sqlite.recordProgress fence now s)
  | .deliverBundle step, s => answering .bundle (step.perform s)
  | .recoverStartup now, s => answering .report (Sqlite.recoverStartup now s)
  | .recoverShutdown actorOwner bundleOwner now, s =>
      answering (fun _ => .done) (Sqlite.recoverShutdown actorOwner bundleOwner now s)

-----------------------------------------------------------------------------------------
-- The world
-----------------------------------------------------------------------------------------

/-- An attempt at the moment it entered `running`: the lease it was started under and how
often the owner of that lease had acquired the actor by then.
-/
structure StartedAttempt where
  id : AttemptId
  lease : ActorLease
  acquisition : Nat
deriving DecidableEq

/-- The database together with what its callers have been handed so far: the attached runs,
the leases granted anew (newest first), the acquisitions by actor and owner, and the attempts
that entered `running`.
-/
structure World where
  store : Store
  issued : List AttachedRun
  granted : List ActorLease
  acquisitions : List (ActorId × String)
  started : List StartedAttempt

/-- How often an owner has acquired an actor. -/
def World.acquisitionsOf (w : World) (actorId : ActorId) (owner : String) : Nat :=
  w.acquisitions.count (actorId, owner)

/-- The owner of the lease already held it, unexpired, when it was acquired. -/
def Extends (s : Store) (lease : ActorLease) (now : Timestamp) : Prop :=
  ∃ row ∈ s.actorLeases, row.actorId = lease.actorId ∧ row.ownerId = lease.ownerId
    ∧ row.expiresAt > now

instance (s : Store) (lease : ActorLease) (now : Timestamp) : Decidable (Extends s lease now) :=
  inferInstanceAs (Decidable (∃ row ∈ s.actorLeases, _))

/-- An acquisition hands out a lease. -/
def World.acquire (w : World) (lease : ActorLease) (now : Timestamp) (s : Store) : World :=
  { w with
    store := s
    granted := if Extends w.store lease now then w.granted else lease :: w.granted
    acquisitions := (lease.actorId, lease.ownerId) :: w.acquisitions }

/-- The world after a committed call. -/
def World.commit (w : World) (call : Call) (answer : Answer) (s : Store) : World :=
  match call, answer with
  | .acquireReadyActor _ now _, .acquired (some lease) => w.acquire lease now s
  | .acquireReadyActorFor _ _ now _, .acquired (some lease) => w.acquire lease now s
  | .attachNextRun _ _ _ _, .attached (some run) =>
      { w with store := s, issued := run :: w.issued }
  | .markAttemptRunning run id _, _ =>
      { w with
        store := s
        started := ⟨id, run.lease, w.acquisitionsOf run.lease.actorId run.lease.ownerId⟩
          :: w.started }
  | _, _ => { w with store := s }

/-- The world after a call; a failed one leaves it as it is. -/
def World.after (w : World) (call : Call) : World :=
  match call.perform w.store with
  | .ok (answer, s) => w.commit call answer s
  | .error _ => w

/-- The run was handed out by `attach_next_run`; its holder may have renewed the lease. -/
def World.Holds (w : World) (run : AttachedRun) : Prop :=
  ∃ issued ∈ w.issued,
    run = { issued with lease := { issued.lease with expiresAt := run.lease.expiresAt } }

instance (w : World) : DecidablePred w.Holds :=
  fun _ => inferInstanceAs (Decidable (∃ issued ∈ w.issued, _))

/-- The fence of a run that was handed out. -/
def World.HoldsFence (w : World) (fence : FailureFence) : Prop :=
  ∃ issued ∈ w.issued,
    fence = ⟨{ issued.lease with expiresAt := fence.lease.expiresAt }, issued.workItemId,
      issued.runId⟩

instance (w : World) : DecidablePred w.HoldsFence :=
  fun _ => inferInstanceAs (Decidable (∃ issued ∈ w.issued, _))

/-- A new UUID is not the id of a stored work item. -/
def FreshWorkItem (s : Store) (ids : FreshIds) : Prop :=
  ∀ work ∈ s.workItems, work.id ≠ ids.workItem

instance (s : Store) (ids : FreshIds) : Decidable (FreshWorkItem s ids) :=
  inferInstanceAs (Decidable (∀ work ∈ s.workItems, _))

/-- What every caller keeps to: gateways ingest user messages, drawn work item ids are new,
and a run or fence that is presented was handed out.
-/
def World.Admissible (w : World) : Call → Prop
  | .ingest event _ ids => event.kind = .userMessage ∧ FreshWorkItem w.store ids
  | .submitForActor _ _ _ ids => FreshWorkItem w.store ids
  | .checkpointRun command _ => w.Holds command.run
  | .finalizeRun command _ _ => w.Holds command.run
  | .cancelRun run _ _ _ => w.Holds run
  | .prepareAttempt run _ _ => w.Holds run
  | .markAttemptRunning run _ _ => w.Holds run
  | .rejectPreparedAttempt run _ _ _ => w.Holds run
  | .finishAttempt run _ _ _ => w.Holds run
  | .blockUnknownAttempt run _ _ => w.Holds run
  | .unresolvedAttempts run => w.Holds run
  | .commitStagedExecution _ run _ _ _ _ => w.Holds run
  | .recordFailure fence _ _ _ _ => w.HoldsFence fence
  | .recordProgress fence _ => w.HoldsFence fence
  | _ => True

instance (w : World) : DecidablePred w.Admissible := fun call => by
  cases call <;> unfold World.Admissible <;> infer_instance

/-- The world before the first call. -/
def World.initial (actors : Table ActorRow) (identities : Table IdentityRow) : World where
  store := Store.initial actors identities
  issued := []
  granted := []
  acquisitions := []
  started := []

/-- All histories of calls, in any order and by any parties. -/
def runtime : System World Call where
  Initial w := ∃ actors identities, w = World.initial actors identities
  Step w call w' := w.Admissible call ∧ w' = w.after call

/-- The world after a history of calls. -/
def World.play (w : World) (calls : List Call) : World :=
  calls.foldl World.after w

/-- Every call of the history is admissible when it is made. -/
def World.Lawful (w : World) : List Call → Prop
  | [] => True
  | call :: rest => w.Admissible call ∧ (w.after call).Lawful rest

instance World.decidableLawful : (w : World) → (calls : List Call) → Decidable (w.Lawful calls)
  | _, [] => .isTrue trivial
  | w, call :: rest =>
      have := World.decidableLawful (w.after call) rest
      inferInstanceAs (Decidable (_ ∧ _))

/-- A lawful history leads from a reachable world to a reachable one, by induction. -/
theorem reachable_play {w : World} (reached : runtime.Reachable w) {calls : List Call}
    (lawful : w.Lawful calls)
    : runtime.Reachable (w.play calls) := by
  induction calls generalizing w with
  | nil => exact reached
  | cons call rest ih => exact ih (.step reached ⟨lawful.1, rfl⟩) lawful.2

/-- Every call of the history is allowed when it is made. -/
def World.Keeps (allowed : World → Call → Prop) (w : World) : List Call → Prop
  | [] => True
  | call :: rest => allowed w call ∧ (w.after call).Keeps allowed rest

instance World.decidableKeeps (allowed : World → Call → Prop) [∀ w, DecidablePred (allowed w)]
    : (w : World) → (calls : List Call) → Decidable (w.Keeps allowed calls)
  | _, [] => .isTrue trivial
  | w, call :: rest =>
      have := World.decidableKeeps allowed (w.after call) rest
      inferInstanceAs (Decidable (_ ∧ _))

/-- A lawful history of allowed calls stays within the restricted system, by induction. -/
theorem restricted_play {allowed : World → Call → Prop} {w : World}
    (reached : (runtime.restrict allowed).Reachable w) {calls : List Call}
    (lawful : w.Lawful calls) (keeps : w.Keeps allowed calls)
    : (runtime.restrict allowed).Reachable (w.play calls) := by
  induction calls generalizing w with
  | nil => exact reached
  | cons call rest ih =>
      exact ih (.step reached ⟨keeps.1, lawful.1, rfl⟩) lawful.2 keeps.2

/-- What the calls of a history show. -/
def World.shown {α : Type} (shows : World → Call → World → List α) (w : World)
    : List Call → List α
  | [] => []
  | call :: rest => shows w call (w.after call) ++ (w.after call).shown shows rest

/-- A lawful history of allowed calls is recorded, from whatever worlds the system starts, by
induction on it.
-/
theorem recorded_history {α : Type} {shows : World → Call → World → List α}
    {allowed : World → Call → Prop} {sys : System World Call} (steps : sys.Step = runtime.Step)
    {w : World} {log : List α}
    (recorded : ((sys.restrict allowed).recording shows).Reachable (w, log))
    {calls : List Call} (lawful : w.Lawful calls) (keeps : w.Keeps allowed calls)
    : ((sys.restrict allowed).recording shows).Reachable
      (w.play calls, log ++ w.shown shows calls) := by
  induction calls generalizing w log with
  | nil =>
      rw [World.shown, List.append_nil]
      exact recorded
  | cons call rest ih =>
      have step : sys.Step w call (w.after call) := by
        rw [steps]
        exact ⟨lawful.1, rfl⟩
      have taken : ((sys.restrict allowed).recording shows).Step (w, log) call
          (w.after call, log ++ shows w call (w.after call)) :=
        ⟨⟨keeps.1, step⟩, rfl⟩
      have rest := ih (.step recorded taken) lawful.2 keeps.2
      rwa [List.append_assoc] at rest

/-- A lawful history of allowed calls is recorded. -/
theorem recorded_play {α : Type} {shows : World → Call → World → List α}
    {allowed : World → Call → Prop} {w : World} {log : List α}
    (recorded : ((runtime.restrict allowed).recording shows).Reachable (w, log))
    {calls : List Call} (lawful : w.Lawful calls) (keeps : w.Keeps allowed calls)
    : ((runtime.restrict allowed).recording shows).Reachable
      (w.play calls, log ++ w.shown shows calls) :=
  recorded_history rfl recorded lawful keeps

/-- Identifiers numbered by the position of a call in its history. -/
def FreshIds.numbered (n : Nat) : FreshIds where
  workItem := ⟨n⟩
  event := ⟨n⟩
  run := ⟨n⟩
  outbox k := ⟨100 * n + k⟩
  bundle k := ⟨100 * n + k⟩
  delivery bundle intent := ⟨10000 * n + 100 * bundle + intent⟩
  gatewayDelivery intent chunk := ⟨10000 * n + 100 * intent + chunk⟩

def localActor : ActorId := ⟨"local-owner"⟩

/-- The world of one enabled actor before its first event. -/
def World.single : World :=
  World.initial ⟨[⟨localActor, true, 0⟩], List.pairwise_singleton _ _⟩ ∅

theorem reachable_single : runtime.Reachable World.single :=
  .initial ⟨_, _, rfl⟩

-----------------------------------------------------------------------------------------
-- Steps
-----------------------------------------------------------------------------------------

@[simp] theorem answering_eq_ok {α : Type} {answer : α → Answer}
    {result : Except StoreError (α × Store)} {a : Answer} {s : Store}
    : answering answer result = .ok (a, s) ↔ ∃ value, result = .ok (value, s) ∧ answer value = a := by
  cases result with
  | error error => simp [answering, Except.map]
  | ok committed => simp [answering, Except.map, Prod.ext_iff, and_comm]

@[simp] theorem reading_eq_ok {α : Type} {answer : α → Answer} {result : Except StoreError α}
    {a : Answer} {s t : Store}
    : reading answer s result = .ok (a, t) ↔ s = t ∧ ∃ value, result = .ok value ∧ answer value = a := by
  cases result with
  | error error => simp [reading, Except.map]
  | ok value => simp [reading, Except.map, and_comm]

/-- A call commits or changes nothing. -/
theorem World.after_cases (w : World) (call : Call)
    : w.after call = w
      ∨ ∃ answer s, call.perform w.store = .ok (answer, s)
        ∧ w.after call = w.commit call answer s := by
  unfold World.after
  split
  · exact Or.inr ⟨_, _, ‹_›, rfl⟩
  · exact Or.inl rfl

@[simp] theorem World.commit_store (w : World) (call : Call) (answer : Answer) (s : Store)
    : (w.commit call answer s).store = s := by
  unfold World.commit
  split <;> rfl

/-- The run an answer hands out. -/
def Answer.issues : Answer → List AttachedRun
  | .attached run => run.toList
  | _ => []

/-- A committed call issues the run it answers with. -/
theorem World.commit_issued (w : World) {call : Call} {answer : Answer} {s : Store}
    (performed : call.perform w.store = .ok (answer, s))
    : (w.commit call answer s).issued = answer.issues ++ w.issued := by
  cases call <;> simp only [Call.perform, answering_eq_ok, reading_eq_ok] at performed
  case attachNextRun =>
    obtain ⟨run, -, rfl⟩ := performed
    cases run <;> rfl
  case acquireReadyActor =>
    obtain ⟨lease, -, rfl⟩ := performed
    cases lease <;> rfl
  case acquireReadyActorFor =>
    obtain ⟨lease, -, rfl⟩ := performed
    cases lease <;> rfl
  case newerControlEvent =>
    obtain ⟨-, value, -, rfl⟩ := performed
    rfl
  case unresolvedAttempts =>
    obtain ⟨-, value, -, rfl⟩ := performed
    rfl
  all_goals
    obtain ⟨value, -, rfl⟩ := performed
    rfl

end Codrik.Runtime.Sqlite

import Codrik.Runtime.Sqlite.Checkpoint

/-! Staging of artifacts and the commit of a tool execution (`sqlite/artifacts.rs`). -/

namespace Codrik.Runtime.Sqlite

open Codrik.Relational

def maxActorBytes : Nat := 2 * 1024 * 1024 * 1024

/-- `begin_staging` -/
def beginStaging (command : BeginArtifact) (s : Store)
    : Except StoreError (ArtifactLease × Store) := do
  require (command.size ≤ 256 * 1024 * 1024)
    (.rejected "artifact exceeds the 256 MiB per-file limit")
  -- the foreign keys of `actor_id` and `attempt_id`
  require ((∃ actor ∈ s.actors, actor.id = command.actorId)
    ∧ ∃ attempt ∈ s.toolAttempts, attempt.id = command.attemptId) .constraint
  let artifacts ← execute (s.artifacts.insert?
    { id := command.id, actorId := command.actorId, attemptId := some command.attemptId,
      state := .staging, managedPath := command.managedPath, sizeBytes := command.size,
      sha256 := none, stagingOwner := some command.owner,
      stagingExpiresAt := some command.leaseUntil })
  .ok (⟨command.id, command.actorId, command.attemptId, command.owner, command.leaseUntil⟩,
    { s with artifacts := artifacts })

/-- What `symlink_metadata` says about a path. -/
structure FileMetadata where
  isFile : Bool
  length : Nat

/-- The checks made on the file system before the transaction. -/
def requireDurable (files : String → Except String FileMetadata)
    : List ManagedArtifact → Except StoreError Unit
  | [] => .ok ()
  | artifact :: rest =>
      match files artifact.managedPath with
      | .error error => .error (.rejected ("managed artifact is not durable: " ++ error))
      | .ok metadata => do
          require (metadata.isFile = true ∧ metadata.length = artifact.size)
            (.rejected "managed artifact is not a durable regular file")
          requireDurable files rest

/-- The run is active under the presented lease; unlike `CurrentLease` this accepts a lease
at the very instant of its expiry.
-/
def CommitAllowed (s : Store) (run : AttachedRun) (now : Timestamp) : Prop :=
  ∃ row ∈ s.actorLeases, Owns run.lease row ∧ row.expiresAt ≥ now
    ∧ ∃ stored ∈ s.runs, stored.id = run.runId ∧ stored.actorId = row.actorId
      ∧ stored.workItemId = run.workItemId ∧ stored.state = .active
      ∧ stored.leaseGeneration = run.lease.generation

instance (s : Store) (run : AttachedRun) (now : Timestamp)
    : Decidable (CommitAllowed s run now) :=
  inferInstanceAs (Decidable (∃ row ∈ s.actorLeases, _))

/-- The staging row a lease stands for. -/
def StagedUnder (lease : ArtifactLease) (attempt : AttemptId) (row : ArtifactRow) : Prop :=
  row.id = lease.id ∧ row.actorId = lease.actorId ∧ row.attemptId = some attempt
    ∧ row.state = .staging ∧ row.stagingOwner = some lease.owner
    ∧ row.stagingExpiresAt = some lease.expiresAt

instance (lease : ArtifactLease) (attempt : AttemptId)
    : DecidablePred (StagedUnder lease attempt) :=
  fun _ => inferInstanceAs (Decidable (_ ∧ _))

/-- The row of the same content that the actor already references. -/
def referencedCopy (s : Store) (actorId : ActorId) (artifact : ManagedArtifact)
    : Option ArtifactRow :=
  s.artifacts.find? (fun row => row.actorId = actorId ∧ row.state = .referenced
    ∧ row.sha256 = some artifact.sha256 ∧ row.sizeBytes = artifact.size)

/-- One artifact of the commit: it becomes referenced, or the copy already referenced stands
in for it.
-/
def commitArtifact (run : AttachedRun) (attempt : AttemptId) (now : Timestamp)
    (artifact : ManagedArtifact) (lease : ArtifactLease) (s : Store)
    : Except StoreError (ManagedArtifact × Store) := do
  require (artifact.id = lease.id ∧ lease.actorId = run.lease.actorId
      ∧ lease.attemptId = attempt ∧ now ≤ lease.expiresAt)
    (.rejected "invalid artifact staging lease")
  require (∃ row ∈ s.artifacts, StagedUnder lease attempt row)
    (.rejected "stale artifact staging lease")
  match referencedCopy s lease.actorId artifact with
  | some existing => do
      require (existing.managedPath = artifact.managedPath)
        (.rejected "referenced artifact has a non-canonical managed path")
      .ok ({ artifact with id := existing.id, managedPath := existing.managedPath },
        { s with
          artifacts := s.artifacts.deleteWhere
            (fun row => row.id = lease.id ∧ row.state = .staging) })
  | none => do
      let retained := ((s.artifacts.select (fun row => row.actorId = lease.actorId
        ∧ row.state = .referenced)).map (·.sizeBytes)).sum
      require (retained + artifact.size ≤ maxActorBytes)
        (.rejected "actor retained artifact quota exceeds 2 GiB")
      let artifacts ← execute (s.artifacts.updateUnique?
        (fun row => row.id = lease.id ∧ row.state = .staging)
        (fun row =>
          { row with
            state := .referenced
            attemptId := none
            managedPath := artifact.managedPath
            sizeBytes := artifact.size
            sha256 := some artifact.sha256
            stagingOwner := none
            stagingExpiresAt := none }))
      .ok (artifact, { s with artifacts := artifacts })

/-- The loop over `artifacts.iter_mut().zip(leases)`. -/
def commitArtifacts (run : AttachedRun) (attempt : AttemptId) (now : Timestamp)
    : List ManagedArtifact → List ArtifactLease → Store
      → Except StoreError (List ManagedArtifact × Store)
  | artifact :: artifacts, lease :: leases, s => do
      let (artifact, s) ← commitArtifact run attempt now artifact lease s
      let (artifacts, s) ← commitArtifacts run attempt now artifacts leases s
      .ok (artifact :: artifacts, s)
  | artifacts, _, s => .ok (artifacts, s)

/-- The running attempt of the run. -/
def RunningAttempt (run : AttachedRun) (attempt : AttemptId) (row : AttemptRow) : Prop :=
  row.id = attempt ∧ row.runId = run.runId ∧ row.state = .running

instance (run : AttachedRun) (attempt : AttemptId)
    : DecidablePred (RunningAttempt run attempt) :=
  fun _ => inferInstanceAs (Decidable (_ ∧ _))

/-- `commit_staged_execution`; `files` is the file system it looks at. -/
def commitStagedExecution (files : String → Except String FileMetadata) (run : AttachedRun)
    (attempt : AttemptId) (execution : DurableToolExecution) (leases : List ArtifactLease)
    (now : Timestamp) (s : Store)
    : Except StoreError (Unit × Store) := do
  requireDurable files execution.artifacts
  require (CommitAllowed s run now) (.rejected "stale actor lease")
  let (artifacts, s) ← commitArtifacts run attempt now execution.artifacts leases s
  require (artifacts.length = leases.length)
    (.rejected "artifact lease count does not match execution")
  require (s.toolAttempts.count (RunningAttempt run attempt) = 1)
    (.rejected "attempt is not running")
  .ok ((),
    { s with
      toolAttempts := s.toolAttempts.updateWhere (RunningAttempt run attempt)
        (fun row =>
          { row with
            state := .succeeded
            outcomeJson := some (.succeeded { execution with artifacts := artifacts }) }) })

end Codrik.Runtime.Sqlite

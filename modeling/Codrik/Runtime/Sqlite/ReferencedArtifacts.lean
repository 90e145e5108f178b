import Codrik.Runtime.Sqlite.Staging

/-! The artifacts that a store references: staging and collection never touch them, and a commit
adds what it does not share.
-/

namespace Codrik.Runtime.Sqlite

open Codrik.Relational

variable {s s' : Store} {actor : ActorId} {run : AttachedRun} {attempt : AttemptId}
  {now : Timestamp} {artifact artifact' : ManagedArtifact} {lease : ArtifactLease}

-----------------------------------------------------------------------------------------
-- Referenced rows
-----------------------------------------------------------------------------------------

/-- The rows of committed artifacts. -/
def referencedRows (s : Store) : List ArtifactRow := s.artifacts.select (·.state = .referenced)

theorem mem_referencedRows {row : ArtifactRow}
    : row ∈ referencedRows s ↔ row ∈ s.artifacts ∧ row.state = .referenced :=
  Table.mem_select

/-- The bytes of an actor's committed artifacts. -/
def retainedBytes (s : Store) (actor : ActorId) : Nat :=
  (((referencedRows s).filter (·.actorId = actor)).map (·.sizeBytes)).sum

/-- The sum that a commit compares with the quota. -/
theorem retainedBytes_eq (s : Store) (actor : ActorId)
    : retainedBytes s actor
      = ((s.artifacts.select (fun row => row.actorId = actor ∧ row.state = .referenced)).map
          (·.sizeBytes)).sum := by
  simp only [retainedBytes, referencedRows, Table.select, List.filter_filter, Bool.decide_and]

-----------------------------------------------------------------------------------------
-- Staging and collection
-----------------------------------------------------------------------------------------

theorem referenced_beginStaging {command : BeginArtifact}
    (begun : beginStaging command s = .ok (lease, s'))
    : referencedRows s' = referencedRows s := by
  simp only [beginStaging, bind_eq_ok, execute_eq_ok] at begun
  obtain ⟨-, -, -, -, artifacts, inserted, result⟩ := begun
  cases result
  exact Table.select_insert? inserted (by simp)

theorem referenced_renewStaging {lease' : ArtifactLease} {extended : Timestamp}
    (renewed : renewStaging lease extended s = .ok (lease', s'))
    : referencedRows s' = referencedRows s := by
  obtain ⟨-, rfl⟩ := renewStaging_ok renewed
  refine Table.select_updateWhere_of_outside (fun row selected => ?_)
  simp [selected.2.1]

/-- The loop of a claim changes staging rows only, by induction on the selection. -/
theorem select_claimRows {owner : String} (rows : List ArtifactRow)
    (artifacts : Table ArtifactRow)
    : (claimRows owner now rows artifacts).2.select (·.state = .referenced)
      = artifacts.select (·.state = .referenced) := by
  induction rows generalizing artifacts with
  | nil => rfl
  | cons row rest ih =>
      simp only [claimRows, ih]
      refine Table.select_updateWhere_of_outside (fun stored selected => ?_)
      simp [claimedRow, selected.2.1]

theorem referenced_claimExpiredStaging (owner : String) (now : Timestamp) (limit : Nat) (s : Store)
    : referencedRows (claimExpiredStaging owner now limit s).2 = referencedRows s :=
  select_claimRows _ _

theorem referenced_renewGcClaim (expired : ExpiredArtifact) (now extended : Timestamp) (s : Store)
    : referencedRows (renewGcClaim expired now extended s).2 = referencedRows s := by
  refine Table.select_updateWhere_of_outside (fun row selected => ?_)
  simp [selected.1.2.1]

theorem referenced_completeClaimedStaging (expired : ExpiredArtifact) (s : Store)
    : referencedRows (completeClaimedStaging expired s).2 = referencedRows s := by
  refine Table.select_deleteWhere_of_outside (fun row selected => ?_)
  simp [selected.2.1]

-----------------------------------------------------------------------------------------
-- Commits
-----------------------------------------------------------------------------------------

/-- The row is what the committed artifact names. -/
def Records (actor : ActorId) (artifact : ManagedArtifact) (row : ArtifactRow) : Prop :=
  row.id = artifact.id ∧ row.managedPath = artifact.managedPath ∧ Holds actor artifact row

/-- What the commit of one artifact does to the referenced rows: it shares the row of the same
content, or adds one within the quota.
-/
inductive Referenced (s s' : Store) (actor : ActorId) (artifact artifact' : ManagedArtifact) : Prop
  | shared (same : referencedRows s' = referencedRows s)
      (row : ∃ row ∈ referencedRows s, Records actor artifact' row)
  | added (row : ArtifactRow) (rows : (referencedRows s').Perm (row :: referencedRows s))
      (records : Records actor artifact' row)
      (missing : ∀ old ∈ referencedRows s, ¬Holds actor artifact old)
      (within : retainedBytes s actor + artifact.size ≤ maxActorBytes)

/-- A committed artifact differs from the staged one in its id only, and is referenced. -/
theorem ArtifactCommitted.referenced
    (committed : ArtifactCommitted s now artifact lease artifact' s')
    (own : artifact.id = lease.id) (staged : ∃ row ∈ s.artifacts, StagedUnder lease attempt row)
    : artifact' = { artifact with id := artifact'.id }
      ∧ Referenced s s' lease.actorId artifact artifact' := by
  cases committed with
  | @shared existing found canonical =>
      obtain ⟨mem, holds⟩ := Table.find?_some found
      refine ⟨by rw [canonical], .shared ?_ ⟨existing, ?_, rfl, rfl, holds⟩⟩
      · refine Table.select_deleteWhere_of_outside (fun row selected => ?_)
        simp [selected.2]
      · exact mem_referencedRows.mpr ⟨mem, holds.2.1⟩
  | retained missing within updated =>
      obtain ⟨row, mem, under⟩ := staged
      obtain ⟨id, ofActor, -, state, -⟩ := under
      refine ⟨rfl, .added _ (Table.select_updateUnique?_perm updated mem ⟨id, state⟩ ?_ ?_ rfl) ?_
        ?_ ?_⟩
      · exact fun _ _ first second => Or.inl (first.1.trans second.1.symm)
      · simp [state]
      · exact ⟨id.trans own.symm, rfl, ofActor, rfl, rfl, rfl⟩
      · exact fun old stored holds =>
          Table.find?_eq_none.mp missing old (mem_referencedRows.mp stored).1 holds
      · rw [retainedBytes_eq]
        exact within

/-- A referenced row stays referenced through the commit of an artifact. -/
theorem Referenced.kept (referenced : Referenced s s' actor artifact artifact')
    {row : ArtifactRow} (stored : row ∈ referencedRows s)
    : row ∈ referencedRows s' := by
  cases referenced with
  | shared same row =>
      rw [same]
      exact stored
  | added new rows records missing within =>
      exact rows.mem_iff.mpr (List.mem_cons_of_mem _ stored)

theorem Referenced.row (referenced : Referenced s s' actor artifact artifact')
    : ∃ row ∈ referencedRows s', Records actor artifact' row := by
  cases referenced with
  | shared same row =>
      rw [same]
      exact row
  | added new rows records missing within =>
      exact ⟨new, rows.mem_iff.mpr List.mem_cons_self, records⟩

/-- No actor's committed artifacts exceed the quota. -/
def WithinQuota (s : Store) : Prop := ∀ actor, retainedBytes s actor ≤ maxActorBytes

/-- An actor's content is referenced once. -/
def ContentUnique (s : Store) : Prop :=
  ∀ a ∈ referencedRows s, ∀ b ∈ referencedRows s,
    a.actorId = b.actorId → a.sha256 = b.sha256 → a.sizeBytes = b.sizeBytes → a = b

theorem Referenced.withinQuota (referenced : Referenced s s' actor artifact artifact')
    (sameSize : artifact'.size = artifact.size) (quota : WithinQuota s)
    : WithinQuota s' := by
  intro other
  cases referenced with
  | shared same row =>
      rw [retainedBytes, same]
      exact quota other
  | added new rows records missing within =>
      have bytes := ((rows.filter (fun row => decide (row.actorId = other))).map
        (·.sizeBytes)).sum_eq
      rw [retainedBytes, bytes]
      by_cases mine : new.actorId = other
      · obtain ⟨-, -, ofActor, -, -, size⟩ := records
        rw [List.filter_cons_of_pos (by simpa using mine), List.map_cons, List.sum_cons, size,
          sameSize, Nat.add_comm, ← mine, ofActor]
        exact within
      · rw [List.filter_cons_of_neg (by simpa using mine)]
        exact quota other

theorem Referenced.contentUnique (referenced : Referenced s s' actor artifact artifact')
    (sameContent : artifact'.sha256 = artifact.sha256 ∧ artifact'.size = artifact.size)
    (unique : ContentUnique s)
    : ContentUnique s' := by
  cases referenced with
  | shared same row =>
      intro a aMem b bMem
      rw [same] at aMem bMem
      exact unique a aMem b bMem
  | added new rows records missing within =>
      obtain ⟨-, -, ofActor, -, sha, size⟩ := records
      rw [sameContent.1] at sha
      rw [sameContent.2] at size
      have other : ∀ old ∈ referencedRows s, old.actorId = new.actorId →
          old.sha256 = new.sha256 → old.sizeBytes ≠ new.sizeBytes := by
        intro old stored sameActor sameSha sameSize
        exact missing old stored ⟨sameActor.trans ofActor, (mem_referencedRows.mp stored).2,
          sameSha.trans sha, sameSize.trans size⟩
      intro a aMem b bMem sameActor sameSha sameSize
      rcases List.mem_cons.mp (rows.mem_iff.mp aMem) with rfl | aOld
      · rcases List.mem_cons.mp (rows.mem_iff.mp bMem) with rfl | bOld
        · rfl
        · exact absurd sameSize.symm (other b bOld sameActor.symm sameSha.symm)
      · rcases List.mem_cons.mp (rows.mem_iff.mp bMem) with rfl | bOld
        · exact absurd sameSize (other a aOld sameActor sameSha)
        · exact unique a aOld b bOld sameActor sameSha sameSize

/-- What the commit of an execution's artifacts does to the referenced rows. -/
structure CommitsAll (s s' : Store) (actor : ActorId) (artifacts named : List ManagedArtifact)
    : Prop where
  kept : ∀ row ∈ referencedRows s, row ∈ referencedRows s'
  placed
    : ∀ row ∈ referencedRows s', row ∈ referencedRows s
        ∨ ∃ artifact ∈ artifacts, row.managedPath = artifact.managedPath
  quota : WithinQuota s → WithinQuota s'
  unique : ContentUnique s → ContentUnique s'
  named
    : List.Forall₂ (fun artifact (named : ManagedArtifact) =>
        named = { artifact with id := named.id }
        ∧ ∃ row ∈ referencedRows s', Records actor named row) artifacts named

/-- The artifacts of an execution are all referenced, by induction on them. -/
theorem commitArtifacts_all {artifacts named : List ManagedArtifact} {leases : List ArtifactLease}
    (committed : commitArtifacts run attempt now artifacts leases s = .ok (named, s'))
    (counted : artifacts.length = leases.length)
    : CommitsAll s s' run.lease.actorId artifacts named := by
  induction artifacts generalizing leases s named with
  | nil =>
      cases committed
      exact ⟨fun _ stored => stored, fun _ stored => Or.inl stored, id, id, .nil⟩
  | cons artifact rest ih =>
      cases leases with
      | nil => cases counted
      | cons lease leases =>
          simp only [commitArtifacts, bind_eq_ok, Prod.exists] at committed
          obtain ⟨artifact', middle, first, _, _, later, result⟩ := committed
          cases result
          obtain ⟨own, ofActor, staged, committed⟩ := commitArtifact_ok first
          obtain ⟨same, referenced⟩ := committed.referenced own staged
          rw [ofActor] at referenced
          have sameContent
            : artifact'.sha256 = artifact.sha256 ∧ artifact'.size = artifact.size
              ∧ artifact'.managedPath = artifact.managedPath := by
            rw [same]
            exact ⟨rfl, rfl, rfl⟩
          have all := ih later (Nat.succ.inj counted)
          constructor
          · exact fun row stored => all.kept row (referenced.kept stored)
          · intro row stored
            rcases all.placed row stored with old | ⟨other, mem, path⟩
            · cases referenced with
              | shared same row => exact Or.inl (same ▸ old)
              | added new rows records missing within =>
                  rcases List.mem_cons.mp (rows.mem_iff.mp old) with rfl | older
                  · exact Or.inr ⟨artifact, List.mem_cons_self,
                      records.2.1.trans sameContent.2.2⟩
                  · exact Or.inl older
            · exact Or.inr ⟨other, List.mem_cons_of_mem _ mem, path⟩
          · exact fun quota => all.quota (referenced.withinQuota sameContent.2.1 quota)
          · exact fun unique =>
              all.unique (referenced.contentUnique ⟨sameContent.1, sameContent.2.1⟩ unique)
          · obtain ⟨row, stored, records⟩ := referenced.row
            exact .cons ⟨same, row, all.kept row stored, records⟩ all.named

/-- A committed execution has all its artifacts referenced, and its attempt has succeeded with an
outcome that names them.
-/
structure CommitsWhole (s s' : Store) (run : AttachedRun) (attempt : AttemptId)
    (execution : DurableToolExecution) : Prop where
  outcome
    : ∃ named, CommitsAll s s' run.lease.actorId execution.artifacts named
        ∧ ∃ row ∈ s'.toolAttempts, row.id = attempt ∧ row.runId = run.runId
          ∧ row.state = .succeeded
          ∧ row.outcomeJson = some (.succeeded { execution with artifacts := named })

theorem commitStagedExecution_whole {files : String → Except String FileMetadata}
    {execution : DurableToolExecution} {leases : List ArtifactLease} {u : Unit}
    (committed : commitStagedExecution files run attempt execution leases now s = .ok (u, s'))
    : requireDurable files execution.artifacts = .ok ()
      ∧ CommitsWhole s s' run attempt execution := by
  obtain ⟨durable, named, middle, whole, counted, running, rfl⟩ :=
    commitStagedExecution_parts committed
  have length := commitArtifacts_length whole
  have all := commitArtifacts_all whole (length.symm.trans counted)
  obtain ⟨row, stored, own, ofRun, state⟩ := Table.exists_of_count running
  exact ⟨durable, ⟨named, ⟨all.kept, all.placed, all.quota, all.unique, all.named⟩, _,
    Table.updateWhere_mem_of stored ⟨own, ofRun, state⟩, own, ofRun, rfl, rfl⟩⟩

end Codrik.Runtime.Sqlite

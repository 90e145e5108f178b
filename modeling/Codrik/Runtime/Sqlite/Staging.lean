import Codrik.Runtime.Ipc.Protocol
import Codrik.Runtime.Sqlite.Artifacts

/-! The leases of staged artifacts, the claims of the collector on expired ones, and what each
operation does to the rows of the others (`sqlite/artifacts.rs`).
-/

namespace Codrik.Runtime.Sqlite

open Codrik.Relational

variable {s s' : Store}

-----------------------------------------------------------------------------------------
-- Operations
-----------------------------------------------------------------------------------------

/-- How long a lease or a claim lasts. -/
def stagingMillis : Int := 30000

/-- The staging row that a lease renews. -/
def RenewedBy (lease : ArtifactLease) (row : ArtifactRow) : Prop :=
  row.id = lease.id ∧ row.state = .staging ∧ row.stagingOwner = some lease.owner
    ∧ row.stagingExpiresAt = some lease.expiresAt

instance (lease : ArtifactLease) : DecidablePred (RenewedBy lease) :=
  fun _ => inferInstanceAs (Decidable (_ ∧ _))

/-- `renew_staging` -/
def renewStaging (lease : ArtifactLease) (extended : Timestamp) (s : Store)
    : Except StoreError (ArtifactLease × Store) := do
  require (s.artifacts.count (RenewedBy lease) = 1) (.rejected "stale artifact staging lease")
  .ok ({ lease with expiresAt := extended },
    { s with
      artifacts := s.artifacts.updateWhere (RenewedBy lease)
        (fun row => { row with stagingExpiresAt := some extended }) })

structure ExpiredArtifact where
  id : ArtifactId
  managedPath : String
  owner : String
deriving DecidableEq

/-- A staging row whose lease or claim has run out. -/
def Lapsed (now : Timestamp) (row : ArtifactRow) : Prop :=
  row.state = .staging ∧ ∃ expiresAt ∈ row.stagingExpiresAt, expiresAt < now

instance (now : Timestamp) : DecidablePred (Lapsed now) :=
  fun _ => inferInstanceAs (Decidable (_ ∧ _))

/-- The row under a claim made at the time. -/
def claimedRow (owner : String) (now : Timestamp) (row : ArtifactRow) : ArtifactRow :=
  { row with
    stagingOwner := some owner
    stagingExpiresAt := some (now.plusMillis stagingMillis) }

/-- The loop over the selected rows. -/
def claimRows (owner : String) (now : Timestamp)
    : List ArtifactRow → Table ArtifactRow → List ExpiredArtifact × Table ArtifactRow
  | [], artifacts => ([], artifacts)
  | row :: rest, artifacts =>
      let changed := artifacts.count (fun stored => stored.id = row.id ∧ Lapsed now stored)
      let claimed := artifacts.updateWhere (fun stored => stored.id = row.id ∧ Lapsed now stored)
        (claimedRow owner now)
      let (expired, claimed) := claimRows owner now rest claimed
      (if changed = 1 then ⟨row.id, row.managedPath, owner⟩ :: expired else expired, claimed)

/-- `claim_expired_staging`, under the owner that it draws. -/
def claimExpiredStaging (owner : String) (now : Timestamp) (limit : Nat) (s : Store)
    : List ExpiredArtifact × Store :=
  let rows := (s.artifacts.selectOrdered (Lapsed now)
    (fun row => toLex (row.stagingExpiresAt.getD 0, row.id))).take limit
  let (expired, artifacts) := claimRows owner now rows s.artifacts
  (expired, { s with artifacts := artifacts })

/-- The row that a collector has claimed. -/
def GcClaimed (artifact : ExpiredArtifact) (row : ArtifactRow) : Prop :=
  row.id = artifact.id ∧ row.state = .staging ∧ row.stagingOwner = some artifact.owner

instance (artifact : ExpiredArtifact) : DecidablePred (GcClaimed artifact) :=
  fun _ => inferInstanceAs (Decidable (_ ∧ _))

/-- `complete_claimed_staging` -/
def completeClaimedStaging (artifact : ExpiredArtifact) (s : Store) : Bool × Store :=
  (s.artifacts.count (GcClaimed artifact) = 1,
    { s with artifacts := s.artifacts.deleteWhere (GcClaimed artifact) })

/-- The claimed row while the claim has not run out. -/
def GcHeld (artifact : ExpiredArtifact) (now : Timestamp) (row : ArtifactRow) : Prop :=
  GcClaimed artifact row ∧ ∃ expiresAt ∈ row.stagingExpiresAt, now ≤ expiresAt

instance (artifact : ExpiredArtifact) (now : Timestamp)
    : DecidablePred (GcHeld artifact now) :=
  fun _ => inferInstanceAs (Decidable (_ ∧ _))

/-- `renew_gc_claim` -/
def renewGcClaim (artifact : ExpiredArtifact) (now extended : Timestamp) (s : Store)
    : Bool × Store :=
  (s.artifacts.count (GcHeld artifact now) = 1,
    { s with
      artifacts := s.artifacts.updateWhere (GcHeld artifact now)
        (fun row => { row with stagingExpiresAt := some extended }) })

/-- The owner of a collector's claims. -/
def gcOwner (drawn : Nat) : String := "gc:" ++ Ipc.uuidText drawn

/-- The owner of a stager's lease is no collector. -/
theorem gcOwner_ne (collector drawn : Nat) : gcOwner collector ≠ Ipc.uuidText drawn := by
  intro same
  have lengths := congrArg (·.toList.length) same
  simp [gcOwner, Ipc.length_uuidText] at lengths

-----------------------------------------------------------------------------------------
-- What the collector changes
-----------------------------------------------------------------------------------------

/-- How a claim may change a row. -/
def MayClaim (owner : String) (now : Timestamp) (row row' : ArtifactRow) : Prop :=
  row' = row ∨ (Lapsed now row ∧ row' = claimedRow owner now row)

/-- A claim keeps the id and the path of a row. -/
theorem MayClaim.named {owner : String} {now : Timestamp} {row row' : ArtifactRow}
    (changed : MayClaim owner now row row')
    : row'.id = row.id ∧ row'.managedPath = row.managedPath := by
  rcases changed with rfl | ⟨-, rfl⟩ <;> exact ⟨rfl, rfl⟩

/-- The loop claims expired rows and leaves the others, by induction on the selection. -/
theorem claimRows_rewrites {owner : String} {now : Timestamp} (rows : List ArtifactRow)
    (artifacts : Table ArtifactRow)
    : Table.Rewrites (MayClaim owner now) artifacts (claimRows owner now rows artifacts).2 := by
  induction rows generalizing artifacts with
  | nil =>
      have same : ∀ row, MayClaim owner now row row := fun _ => Or.inl rfl
      exact Table.Rewrites.refl same artifacts
  | cons row rest ih =>
      simp only [claimRows]
      have first : Table.Rewrites (MayClaim owner now) artifacts
          (artifacts.updateWhere (fun stored => stored.id = row.id ∧ Lapsed now stored)
            (claimedRow owner now)) :=
        Table.Rewrites.update (fun _ => Or.inl rfl)
          (fun stored _ selected => Or.inr ⟨selected.2, rfl⟩)
      refine first.trans (ih _) ?_
      rintro a b c (rfl | ⟨lapsed, rfl⟩) (rfl | ⟨again, rfl⟩)
      · exact Or.inl rfl
      · exact Or.inr ⟨again, rfl⟩
      · exact Or.inr ⟨lapsed, rfl⟩
      · exact Or.inr ⟨lapsed, rfl⟩

theorem claimExpiredStaging_rewrites (owner : String) (now : Timestamp) (limit : Nat) (s : Store)
    : Table.Rewrites (MayClaim owner now) s.artifacts
        (claimExpiredStaging owner now limit s).2.artifacts :=
  claimRows_rewrites _ _

/-- What a claim returns are rows of the selection, by induction on it. -/
theorem claimRows_expired {owner : String} {now : Timestamp} {rows : List ArtifactRow}
    {artifacts : Table ArtifactRow} {expired : ExpiredArtifact}
    (claimed : expired ∈ (claimRows owner now rows artifacts).1)
    : expired.owner = owner
      ∧ ∃ row ∈ rows, row.id = expired.id ∧ row.managedPath = expired.managedPath := by
  induction rows generalizing artifacts with
  | nil => exact absurd claimed List.not_mem_nil
  | cons row rest ih =>
      simp only [claimRows] at claimed
      split at claimed
      · rcases List.mem_cons.mp claimed with rfl | later
        · exact ⟨rfl, row, List.mem_cons_self, rfl, rfl⟩
        · obtain ⟨owned, other, mem, named⟩ := ih later
          exact ⟨owned, other, List.mem_cons_of_mem _ mem, named⟩
      · obtain ⟨owned, other, mem, named⟩ := ih claimed
        exact ⟨owned, other, List.mem_cons_of_mem _ mem, named⟩

theorem claimExpiredStaging_expired {owner : String} {now : Timestamp} {limit : Nat}
    {expired : ExpiredArtifact} (claimed : expired ∈ (claimExpiredStaging owner now limit s).1)
    : expired.owner = owner
      ∧ ∃ row ∈ s.artifacts, row.id = expired.id ∧ row.managedPath = expired.managedPath := by
  obtain ⟨owned, row, mem, named⟩ := claimRows_expired claimed
  exact ⟨owned, row, (Table.mem_selectOrdered.mp (List.mem_of_mem_take mem)).1, named⟩

/-- A row whose lease has not run out is not claimed. -/
theorem mem_claimExpiredStaging {owner : String} {now : Timestamp} {limit : Nat}
    {row : ArtifactRow} (stored : row ∈ s.artifacts) (live : ¬Lapsed now row)
    : row ∈ (claimExpiredStaging owner now limit s).2.artifacts := by
  obtain ⟨row', stored', same | ⟨lapsed, -⟩⟩ :=
    (claimExpiredStaging_rewrites owner now limit s).forward row stored
  · rwa [← same]
  · exact absurd lapsed live

/-- A row of another owner is not completed. -/
theorem mem_completeClaimedStaging {artifact : ExpiredArtifact} {row : ArtifactRow}
    (stored : row ∈ s.artifacts) (other : ¬GcClaimed artifact row)
    : row ∈ (completeClaimedStaging artifact s).2.artifacts :=
  Table.mem_deleteWhere.mpr ⟨stored, other⟩

/-- The renewal of a claim leaves the rows of other owners. -/
theorem mem_renewGcClaim {artifact : ExpiredArtifact} {now extended : Timestamp}
    {row : ArtifactRow} (stored : row ∈ s.artifacts) (other : ¬GcClaimed artifact row)
    : row ∈ (renewGcClaim artifact now extended s).2.artifacts :=
  Table.updateWhere_mem_of_not stored (fun unexpired => other unexpired.1)

-----------------------------------------------------------------------------------------
-- What the stagers change
-----------------------------------------------------------------------------------------

/-- Staging adds a row of its own. -/
theorem beginStaging_ok {command : BeginArtifact} {lease : ArtifactLease}
    (begun : beginStaging command s = .ok (lease, s'))
    : lease = ⟨command.id, command.actorId, command.attemptId, command.owner, command.leaseUntil⟩
      ∧ (∀ row ∈ s.artifacts, row.id ≠ command.id)
      ∧ ∃ row, StagedUnder lease command.attemptId row
        ∧ ∀ row', row' ∈ s'.artifacts ↔ row' ∈ s.artifacts ∨ row' = row := by
  simp only [beginStaging, bind_eq_ok, execute_eq_ok] at begun
  obtain ⟨-, -, -, -, artifacts, inserted, result⟩ := begun
  cases result
  refine ⟨rfl, fun row stored same => ?_, _, ⟨rfl, rfl, rfl, rfl, rfl, rfl⟩,
    fun row' => Table.mem_insert? inserted⟩
  exact Table.fresh_of_insert? inserted row stored (Or.inl same)

/-- A renewal moves the expiry of the lease and of its row. -/
theorem renewStaging_ok {lease lease' : ArtifactLease} {extended : Timestamp}
    (renewed : renewStaging lease extended s = .ok (lease', s'))
    : lease' = { lease with expiresAt := extended }
      ∧ s' = { s with
          artifacts := s.artifacts.updateWhere (RenewedBy lease)
            (fun row => { row with stagingExpiresAt := some extended }) } := by
  simp only [renewStaging, bind_eq_ok, require_eq_ok] at renewed
  obtain ⟨-, -, result⟩ := renewed
  cases result
  exact ⟨rfl, rfl⟩

theorem StagedUnder.renewedBy {lease : ArtifactLease} {attempt : AttemptId} {row : ArtifactRow}
    (staged : StagedUnder lease attempt row)
    : RenewedBy lease row :=
  ⟨staged.1, staged.2.2.2.1, staged.2.2.2.2.1, staged.2.2.2.2.2⟩

/-- A lease with its row is renewed. -/
theorem renewStaging_staged {lease : ArtifactLease} {attempt : AttemptId} {row : ArtifactRow}
    (stored : row ∈ s.artifacts) (staged : StagedUnder lease attempt row) (extended : Timestamp)
    : ∃ lease' s', renewStaging lease extended s = .ok (lease', s') := by
  have one : s.artifacts.count (RenewedBy lease) = 1 :=
    Table.count_eq_one stored staged.renewedBy
      (fun _ _ first second => Or.inl (first.1.trans second.1.symm))
  exact ⟨_, _, bind_eq_ok.mpr ⟨(), require_eq_ok.mpr one, rfl⟩⟩

/-- The row holds the content of the artifact for the actor. -/
def Holds (actor : ActorId) (artifact : ManagedArtifact) (row : ArtifactRow) : Prop :=
  row.actorId = actor ∧ row.state = .referenced ∧ row.sha256 = some artifact.sha256
    ∧ row.sizeBytes = artifact.size

/-- The two ways an artifact is committed. -/
inductive ArtifactCommitted (s : Store) (now : Timestamp) (artifact : ManagedArtifact)
    (lease : ArtifactLease) : ManagedArtifact → Store → Prop
  | shared {existing : ArtifactRow} (found : referencedCopy s lease.actorId artifact = some existing)
      (canonical : existing.managedPath = artifact.managedPath)
    : ArtifactCommitted s now artifact lease
        { artifact with id := existing.id, managedPath := existing.managedPath }
        { s with
          artifacts := s.artifacts.deleteWhere
            (fun row => row.id = lease.id ∧ row.state = .staging) }
  | retained {artifacts : Table ArtifactRow}
      (missing : referencedCopy s lease.actorId artifact = none)
      (within
        : ((s.artifacts.select (fun row => row.actorId = lease.actorId
            ∧ row.state = .referenced)).map (·.sizeBytes)).sum + artifact.size ≤ maxActorBytes)
      (updated
        : s.artifacts.updateUnique? (fun row => row.id = lease.id ∧ row.state = .staging)
            (fun row =>
              { row with
                state := .referenced
                attemptId := none
                managedPath := artifact.managedPath
                sizeBytes := artifact.size
                sha256 := some artifact.sha256
                stagingOwner := none
                stagingExpiresAt := none }) = some artifacts)
    : ArtifactCommitted s now artifact lease artifact { s with artifacts := artifacts }

/-- An artifact is committed under a lease of its own that has not run out. -/
theorem commitArtifact_ok {run : AttachedRun} {attempt : AttemptId} {now : Timestamp}
    {artifact artifact' : ManagedArtifact} {lease : ArtifactLease}
    (committed : commitArtifact run attempt now artifact lease s = .ok (artifact', s'))
    : artifact.id = lease.id ∧ lease.actorId = run.lease.actorId
      ∧ (∃ row ∈ s.artifacts, StagedUnder lease attempt row)
      ∧ ArtifactCommitted s now artifact lease artifact' s' := by
  simp only [commitArtifact, bind_eq_ok, require_eq_ok] at committed
  obtain ⟨-, ⟨own, actor, -, -⟩, -, staged, rest⟩ := committed
  refine ⟨own, actor, staged, ?_⟩
  split at rest
  · rename_i existing found
    simp only [bind_eq_ok, require_eq_ok] at rest
    obtain ⟨-, canonical, result⟩ := rest
    cases result
    exact .shared found canonical
  · rename_i missing
    simp only [bind_eq_ok, require_eq_ok, execute_eq_ok] at rest
    obtain ⟨-, within, artifacts, updated, result⟩ := rest
    cases result
    exact .retained missing within updated

/-- A commit leaves the rows of other artifacts. -/
theorem ArtifactCommitted.frame {now : Timestamp} {artifact artifact' : ManagedArtifact}
    {lease : ArtifactLease} (committed : ArtifactCommitted s now artifact lease artifact' s')
    {row : ArtifactRow} (other : row.id ≠ lease.id)
    : row ∈ s'.artifacts ↔ row ∈ s.artifacts := by
  cases committed with
  | shared found canonical =>
      rw [Table.mem_deleteWhere]
      exact and_iff_left (fun selected => other selected.1)
  | retained missing within updated =>
      rw [Table.mem_updateUnique? updated]
      constructor
      · rintro ⟨stored, mem, rfl⟩
        by_cases selected : stored.id = lease.id ∧ stored.state = .staging
        · rw [if_pos selected] at other
          exact absurd selected.1 other
        · rwa [if_neg selected]
      · intro mem
        exact ⟨row, mem, if_neg (fun selected => other selected.1)⟩

/-- A commit makes no staging row. -/
theorem ArtifactCommitted.staging {now : Timestamp} {artifact artifact' : ManagedArtifact}
    {lease : ArtifactLease} (committed : ArtifactCommitted s now artifact lease artifact' s')
    {row : ArtifactRow} (stored : row ∈ s'.artifacts) (state : row.state = .staging)
    : row ∈ s.artifacts := by
  cases committed with
  | shared found canonical => exact (Table.mem_deleteWhere.mp stored).1
  | retained missing within updated =>
      obtain ⟨before, mem, rfl⟩ := (Table.mem_updateUnique? updated).mp stored
      by_cases selected : before.id = lease.id ∧ before.state = .staging
      · rw [if_pos selected] at state
        cases state
      · rwa [if_neg selected]

/-- Committing artifacts makes no staging row, and every lease had one of its owner, by induction
on the artifacts.
-/
theorem commitArtifacts_staging {run : AttachedRun} {attempt : AttemptId} {now : Timestamp}
    {artifacts artifacts' : List ManagedArtifact} {leases : List ArtifactLease}
    (committed : commitArtifacts run attempt now artifacts leases s = .ok (artifacts', s'))
    : (∀ row ∈ s'.artifacts, row.state = .staging → row ∈ s.artifacts)
      ∧ (artifacts.length = leases.length →
          ∀ lease ∈ leases, ∃ row ∈ s.artifacts,
            row.id = lease.id ∧ row.stagingOwner = some lease.owner) := by
  induction artifacts generalizing leases s artifacts' with
  | nil =>
      cases committed
      refine ⟨fun _ stored _ => stored, fun counted lease mem => ?_⟩
      rw [List.length_eq_zero_iff.mp counted.symm] at mem
      exact absurd mem List.not_mem_nil
  | cons artifact rest ih =>
      cases leases with
      | nil =>
          cases committed
          exact ⟨fun _ stored _ => stored, fun _ lease mem => absurd mem List.not_mem_nil⟩
      | cons lease leases =>
          simp only [commitArtifacts, bind_eq_ok, Prod.exists] at committed
          obtain ⟨_, middle, first, _, _, later, result⟩ := committed
          cases result
          obtain ⟨-, -, ⟨row, stored, staged⟩, committed⟩ := commitArtifact_ok first
          obtain ⟨kept, leased⟩ := ih later
          constructor
          · exact fun row stored state => committed.staging (kept row stored state) state
          · intro counted other mem
            rcases List.mem_cons.mp mem with rfl | mem
            · exact ⟨row, stored, staged.1, staged.2.2.2.2.1⟩
            · obtain ⟨row', stored', own, owner⟩ := leased (Nat.succ.inj counted) other mem
              refine ⟨row', ?_, own, owner⟩
              -- a row with an owner was not written by the commit
              cases committed with
              | shared found canonical => exact (Table.mem_deleteWhere.mp stored').1
              | retained missing within updated =>
                  obtain ⟨before, mem, rfl⟩ := (Table.mem_updateUnique? updated).mp stored'
                  by_cases selected : before.id = lease.id ∧ before.state = .staging
                  · rw [if_pos selected] at owner
                    cases owner
                  · rwa [if_neg selected]

/-- Committing artifacts leaves the rows of all others, by induction on the artifacts. -/
theorem commitArtifacts_frame {run : AttachedRun} {attempt : AttemptId} {now : Timestamp}
    {artifacts artifacts' : List ManagedArtifact} {leases : List ArtifactLease}
    (committed : commitArtifacts run attempt now artifacts leases s = .ok (artifacts', s'))
    {row : ArtifactRow} (other : ∀ lease ∈ leases, row.id ≠ lease.id)
    : row ∈ s'.artifacts ↔ row ∈ s.artifacts := by
  induction artifacts generalizing leases s artifacts' with
  | nil =>
      cases committed
      exact Iff.rfl
  | cons artifact rest ih =>
      cases leases with
      | nil =>
          cases committed
          exact Iff.rfl
      | cons lease leases =>
          simp only [commitArtifacts, bind_eq_ok, Prod.exists] at committed
          obtain ⟨_, middle, first, _, _, later, result⟩ := committed
          cases result
          rw [ih later (fun lease mem => other lease (List.mem_cons_of_mem _ mem))]
          exact (commitArtifact_ok first).2.2.2.frame (other lease List.mem_cons_self)

/-- The artifacts of an execution are committed one by one, by induction on them. -/
theorem commitArtifacts_length {run : AttachedRun} {attempt : AttemptId} {now : Timestamp}
    {artifacts : List ManagedArtifact} {leases : List ArtifactLease} {committed : List ManagedArtifact}
    (done : commitArtifacts run attempt now artifacts leases s = .ok (committed, s'))
    : committed.length = artifacts.length := by
  induction artifacts generalizing leases s committed with
  | nil =>
      cases done
      rfl
  | cons artifact rest ih =>
      cases leases with
      | nil =>
          cases done
          rfl
      | cons lease leases =>
          simp only [commitArtifacts, bind_eq_ok, Prod.exists] at done
          obtain ⟨_, _, -, _, _, later, result⟩ := done
          cases result
          rw [List.length_cons, ih later, List.length_cons]

/-- What a successful commit of an execution went through. -/
theorem commitStagedExecution_parts {files : String → Except String FileMetadata}
    {run : AttachedRun} {attempt : AttemptId} {execution : DurableToolExecution}
    {leases : List ArtifactLease} {now : Timestamp} {u : Unit}
    (committed : commitStagedExecution files run attempt execution leases now s = .ok (u, s'))
    : requireDurable files execution.artifacts = .ok ()
      ∧ ∃ artifacts middle,
          commitArtifacts run attempt now execution.artifacts leases s = .ok (artifacts, middle)
          ∧ artifacts.length = leases.length
          ∧ middle.toolAttempts.count (RunningAttempt run attempt) = 1
          ∧ s' = { middle with
              toolAttempts := middle.toolAttempts.updateWhere (RunningAttempt run attempt)
                (fun row =>
                  { row with
                    state := .succeeded
                    outcomeJson :=
                      some (.succeeded { execution with artifacts := artifacts }) }) } := by
  simp only [commitStagedExecution, bind_eq_ok, require_eq_ok, Prod.exists] at committed
  obtain ⟨_, durable, -, -, artifacts, middle, whole, -, counted, -, running, result⟩ := committed
  cases result
  exact ⟨durable, artifacts, middle, whole, counted, running, rfl⟩

/-- A commit of an execution leaves the rows of all other artifacts. -/
theorem commitStagedExecution_frame {files : String → Except String FileMetadata}
    {run : AttachedRun} {attempt : AttemptId} {execution : DurableToolExecution}
    {leases : List ArtifactLease} {now : Timestamp} {u : Unit}
    (committed : commitStagedExecution files run attempt execution leases now s = .ok (u, s'))
    {row : ArtifactRow} (other : ∀ lease ∈ leases, row.id ≠ lease.id)
    : row ∈ s'.artifacts ↔ row ∈ s.artifacts := by
  obtain ⟨-, artifacts, middle, whole, -, -, rfl⟩ := commitStagedExecution_parts committed
  exact commitArtifacts_frame whole other

end Codrik.Runtime.Sqlite

import Codrik.Runtime.Sqlite.ReferencedArtifacts
import Codrik.Transition.System

/-! Stagers and collectors on one artifact store (`runtime/artifacts.rs`): the rows, the files they
manage, and the path guards that every change of a managed path is made under.
-/

namespace Codrik.Runtime.Sqlite

open Codrik.Relational
open Codrik.Transition

-----------------------------------------------------------------------------------------
-- The artifact store
-----------------------------------------------------------------------------------------

/-- An artifact that its collector is about to remove: it holds the path guard and has renewed
its claim.
-/
structure Cleared where
  artifact : ExpiredArtifact
  renewedUntil : Timestamp
deriving DecidableEq

/-- The tasks that take path guards: a `stage_execution`, a collector on one of its claims, and a
collector on one of the orphaned files.
-/
inductive GuardHolder
  | stager (number : Nat)
  | collector (owner : String)
  | sweeper (number : Nat)
deriving DecidableEq

/-- The path guard of the collector. -/
def Cleared.guard (cleared : Cleared) : GuardHolder × String :=
  (.collector cleared.artifact.owner, cleared.artifact.managedPath)

structure ArtifactRun where
  store : Store
  clock : Timestamp
  files : String → Except String FileMetadata
  /-- The guards of `lock_path`: their holders and paths. -/
  guards : List (GuardHolder × String)
  /-- The owners that collectors have drawn. -/
  owners : List String
  /-- What `claim_expired_staging` returned and no collector has come to yet. -/
  claims : List ExpiredArtifact
  cleared : List Cleared
  /-- Orphaned files that a collector has looked up under their path guards. -/
  orphans : List (GuardHolder × String)

inductive ArtifactCall
  | elapse (millis : Nat)
  | create (path : String) (metadata : FileMetadata)
  | lockPath (holder : GuardHolder) (path : String)
  | dropGuard (holder : GuardHolder) (path : String)
  | beginStaging (command : BeginArtifact) (owner : Nat)
  | renewStaging (lease : ArtifactLease) (owner : Nat) (extended : Timestamp)
  | commit (stager : Nat) (run : AttachedRun) (attempt : AttemptId)
      (execution : DurableToolExecution) (leases : List (ArtifactLease × Nat))
  | claimExpired (drawn : Nat) (now : Timestamp) (limit : Nat)
  | renewClaim (artifact : ExpiredArtifact)
  | unlink (artifact : ExpiredArtifact)
  | completeClaimed (artifact : ExpiredArtifact)
  | lookUpOrphan (sweeper : Nat) (path : String)
  | unlinkOrphan (sweeper : Nat) (path : String)
  | elsewhere (tables : Store)

def notFound : String := "No such file or directory (os error 2)"

/-- A file system without the file. -/
def removeFile (path : String) (files : String → Except String FileMetadata)
    : String → Except String FileMetadata :=
  fun other => if other = path then .error notFound else files other

namespace ArtifactRun

/-- The store after a call that may fail and then changes nothing. -/
def after {α : Type} (x : ArtifactRun) (result : Except StoreError (α × Store)) : ArtifactRun :=
  match result with
  | .ok (_, s) => { x with store := s }
  | .error _ => x

/-- One call; `none` where it cannot be made. A stager's owner is the text of a UUID, and a
collector draws a new one for each claim.
-/
def perform (x : ArtifactRun) : ArtifactCall → Option ArtifactRun
  | .elapse millis => some { x with clock := x.clock + millis }
  | .create path metadata =>
      match x.files path with
      | .ok _ => none
      | .error _ =>
          some { x with
            files := fun other => if other = path then .ok metadata else x.files other }
  | .lockPath holder path =>
      if ∃ guard ∈ x.guards, guard.2 = path then none
      else some { x with guards := (holder, path) :: x.guards }
  | .dropGuard holder path =>
      -- what was to be done under the guard is not done any more
      some { x with
        guards := x.guards.filter (· ≠ (holder, path))
        cleared := x.cleared.filter (·.guard ≠ (holder, path))
        orphans := x.orphans.filter (· ≠ (holder, path)) }
  | .beginStaging command owner =>
      some (x.after (Sqlite.beginStaging { command with owner := Ipc.uuidText owner } x.store))
  | .renewStaging lease owner extended =>
      some (x.after
        (Sqlite.renewStaging { lease with owner := Ipc.uuidText owner } extended x.store))
  | .commit stager run attempt execution leases =>
      if ∀ artifact ∈ execution.artifacts, (.stager stager, artifact.managedPath) ∈ x.guards then
        some (x.after (commitStagedExecution x.files run attempt execution
          (leases.map (fun lease => { lease.1 with owner := Ipc.uuidText lease.2 })) x.clock
          x.store))
      else none
  | .claimExpired drawn now limit =>
      if now ≤ x.clock ∧ gcOwner drawn ∉ x.owners then
        let (expired, s) := claimExpiredStaging (gcOwner drawn) now limit x.store
        some { x with
          store := s, owners := gcOwner drawn :: x.owners, claims := expired ++ x.claims }
      else none
  | .renewClaim artifact =>
      if artifact ∈ x.claims ∧ (.collector artifact.owner, artifact.managedPath) ∈ x.guards then
        let extended := x.clock.plusMillis stagingMillis
        let (renewed, s) := renewGcClaim artifact x.clock extended x.store
        some { x with
          store := s
          claims := x.claims.filter (· ≠ artifact)
          cleared := if renewed then ⟨artifact, extended⟩ :: x.cleared else x.cleared }
      else none
  | .unlink artifact =>
      if ∃ cleared ∈ x.cleared, cleared.artifact = artifact then
        some { x with files := removeFile artifact.managedPath x.files }
      else none
  | .completeClaimed artifact =>
      if ∃ cleared ∈ x.cleared, cleared.artifact = artifact then
        some { x with
          store := (completeClaimedStaging artifact x.store).2
          cleared := x.cleared.filter (·.artifact ≠ artifact) }
      else none
  | .lookUpOrphan sweeper path =>
      if (.sweeper sweeper, path) ∈ x.guards
          ∧ ¬∃ row ∈ x.store.artifacts, row.managedPath = path then
        some { x with orphans := (.sweeper sweeper, path) :: x.orphans }
      else none
  | .unlinkOrphan sweeper path =>
      if (.sweeper sweeper, path) ∈ x.orphans then
        some { x with files := removeFile path x.files }
      else none
  | .elsewhere tables => some { x with store := { tables with artifacts := x.store.artifacts } }

end ArtifactRun

/-- The calls of any number of stagers and collectors in any order, from an empty table. -/
def artifactStore : System ArtifactRun ArtifactCall where
  Initial x := x.store.artifacts = ∅ ∧ x.guards = [] ∧ x.owners = [] ∧ x.claims = []
    ∧ x.cleared = [] ∧ x.orphans = []
  Step x call y := x.perform call = some y

-----------------------------------------------------------------------------------------
-- The invariant
-----------------------------------------------------------------------------------------

variable {x y : ArtifactRun} {call : ArtifactCall} {s : Store}

/-- A claim that a collector has made under an owner it has drawn, on the path of the row. -/
structure Claimed (owners : List String) (s : Store) (artifact : ExpiredArtifact) : Prop where
  drawn : artifact.owner ∈ owners
  path : ∀ row ∈ s.artifacts, GcClaimed artifact row → row.managedPath = artifact.managedPath

/-- The row of an artifact about to be removed: it is staging under the collector's own claim, or
under a later one of another collector once that has run out.
-/
structure Removable (clock : Timestamp) (cleared : Cleared) (row : ArtifactRow) : Prop where
  id : row.id = cleared.artifact.id
  path : row.managedPath = cleared.artifact.managedPath
  state : row.state = .staging
  collector : ∃ drawn, row.stagingOwner = some (gcOwner drawn)
  claim
    : (row.stagingOwner = some cleared.artifact.owner
        ∧ row.stagingExpiresAt = some cleared.renewedUntil)
      ∨ (row.stagingOwner ≠ some cleared.artifact.owner ∧ cleared.renewedUntil < clock)

/-- What holds of the rows and of the claims on them. -/
structure ArtifactRun.Sound (x : ArtifactRun) : Prop where
  quota : WithinQuota x.store
  unique : ContentUnique x.store
  files : ∀ row ∈ referencedRows x.store, ∃ metadata, x.files row.managedPath = .ok metadata
  guards : ∀ a ∈ x.guards, ∀ b ∈ x.guards, a.2 = b.2 → a = b
  collectors : ∀ owner ∈ x.owners, ∃ drawn, owner = gcOwner drawn
  claims : ∀ artifact ∈ x.claims, Claimed x.owners x.store artifact
  known : ∀ cleared ∈ x.cleared, Claimed x.owners x.store cleared.artifact
  once : ∀ cleared ∈ x.cleared, cleared.artifact ∉ x.claims
  held : ∀ cleared ∈ x.cleared, cleared.guard ∈ x.guards
  removable : ∀ cleared ∈ x.cleared, ∃ row ∈ x.store.artifacts, Removable x.clock cleared row
  heldOrphans
    : ∀ orphan ∈ x.orphans, orphan ∈ x.guards ∧ ∃ sweeper, orphan.1 = .sweeper sweeper
  orphaned : ∀ orphan ∈ x.orphans, ∀ row ∈ referencedRows x.store, row.managedPath ≠ orphan.2

namespace ArtifactRun

/-- Two artifacts about to be removed at one path are the same claim. -/
theorem Sound.eq_of_path (sound : x.Sound) {cleared : Cleared} {artifact : ExpiredArtifact}
    (mem : cleared ∈ x.cleared)
    (guarded : (.collector artifact.owner, artifact.managedPath) ∈ x.guards)
    {row : ArtifactRow} (removable : Removable x.clock cleared row) (claimed : GcClaimed artifact row)
    (path : row.managedPath = artifact.managedPath)
    : cleared.artifact = artifact := by
  have same := sound.guards _ (sound.held cleared mem) _ guarded (removable.path.symm.trans path)
  obtain ⟨owner, samePath⟩ := Prod.mk.inj same
  injection owner with owner
  have id : cleared.artifact.id = artifact.id := removable.id.symm.trans claimed.1
  cases artifact
  cases cleared with
  | mk found renewedUntil =>
      cases found
      simp only at owner samePath id ⊢
      rw [owner, samePath, id]

/-- A change of the staging rows that respects the claims on them keeps the invariant. -/
theorem Sound.store (sound : x.Sound) (same : referencedRows s = referencedRows x.store)
    (claims : ∀ artifact, Claimed x.owners x.store artifact → Claimed x.owners s artifact)
    (removable
      : ∀ cleared ∈ x.cleared, ∀ row ∈ x.store.artifacts, Removable x.clock cleared row →
          ∃ row' ∈ s.artifacts, Removable x.clock cleared row')
    : Sound { x with store := s } := by
  constructor
  · intro actor
    simp only [retainedBytes, same]
    exact sound.quota actor
  · intro a aMem b bMem
    rw [same] at aMem bMem
    exact sound.unique a aMem b bMem
  · simp only [same]
    exact sound.files
  · exact sound.guards
  · exact sound.collectors
  · exact fun artifact mem => claims artifact (sound.claims artifact mem)
  · exact fun cleared mem => claims cleared.artifact (sound.known cleared mem)
  · exact sound.once
  · exact sound.held
  · intro cleared mem
    obtain ⟨row, stored, found⟩ := sound.removable cleared mem
    exact removable cleared mem row stored found
  · exact sound.heldOrphans
  · simp only [same]
    exact sound.orphaned

/-- The owner of a stager's lease has drawn no claim. -/
theorem Sound.owner_ne (sound : x.Sound) {owner : String} (drawn : owner ∈ x.owners)
    (number : Nat)
    : owner ≠ Ipc.uuidText number := by
  obtain ⟨collector, rfl⟩ := sound.collectors owner drawn
  exact gcOwner_ne collector number

-----------------------------------------------------------------------------------------
-- Stagers
-----------------------------------------------------------------------------------------

theorem Sound.beginStaging (sound : x.Sound) {command : BeginArtifact} {number : Nat}
    {lease : ArtifactLease}
    (begun
      : Sqlite.beginStaging { command with owner := Ipc.uuidText number } x.store
        = .ok (lease, s))
    : Sound { x with store := s } := by
  obtain ⟨rfl, -, row, staged, rows⟩ := beginStaging_ok begun
  refine sound.store (referenced_beginStaging begun) (fun artifact claimed => ?_) ?_
  · refine ⟨claimed.drawn, fun row' stored found => ?_⟩
    rcases (rows row').mp stored with old | rfl
    · exact claimed.path row' old found
    · have owner := Option.some.inj (found.2.2.symm.trans staged.2.2.2.2.1)
      exact absurd owner (sound.owner_ne claimed.drawn number)
  · exact fun _ _ row' stored removable => ⟨row', (rows row').mpr (Or.inl stored), removable⟩

theorem Sound.renewStaging (sound : x.Sound) {lease lease' : ArtifactLease} {number : Nat}
    {extended : Timestamp}
    (renewed
      : Sqlite.renewStaging { lease with owner := Ipc.uuidText number } extended x.store
        = .ok (lease', s))
    : Sound { x with store := s } := by
  have same := referenced_renewStaging renewed
  obtain ⟨-, rfl⟩ := renewStaging_ok renewed
  refine sound.store same (fun artifact claimed => ?_) ?_
  · refine ⟨claimed.drawn, fun row' stored found => ?_⟩
    obtain ⟨row, mem, rfl⟩ := Table.mem_updateWhere.mp stored
    split at found
    · rename_i selected
      have owner := Option.some.inj (found.2.2.symm.trans selected.2.2.1)
      exact absurd owner (sound.owner_ne claimed.drawn number)
    · rename_i selected
      rw [if_neg selected]
      exact claimed.path row mem found
  · intro cleared mem row stored removable
    refine ⟨row, Table.updateWhere_mem_of_not stored (fun selected => ?_), removable⟩
    obtain ⟨collector, owner⟩ := removable.collector
    exact gcOwner_ne collector number (Option.some.inj (owner.symm.trans selected.2.2.1))

/-- Durable artifacts have their files, by induction on them. -/
theorem requireDurable_file {files : String → Except String FileMetadata}
    {artifacts : List ManagedArtifact} (durable : requireDurable files artifacts = .ok ())
    {artifact : ManagedArtifact} (mem : artifact ∈ artifacts)
    : ∃ metadata, files artifact.managedPath = .ok metadata := by
  induction artifacts with
  | nil => exact absurd mem List.not_mem_nil
  | cons first rest ih =>
      rw [requireDurable] at durable
      split at durable
      · cases durable
      · rename_i metadata found
        simp only [bind_eq_ok, require_eq_ok] at durable
        obtain ⟨-, -, later⟩ := durable
        rcases List.mem_cons.mp mem with rfl | mem
        · exact ⟨metadata, found⟩
        · exact ih later mem

theorem Sound.commit (sound : x.Sound) {stager : Nat} {run : AttachedRun} {attempt : AttemptId}
    {execution : DurableToolExecution} {leases : List (ArtifactLease × Nat)} {u : Unit}
    (guarded
      : ∀ artifact ∈ execution.artifacts, (.stager stager, artifact.managedPath) ∈ x.guards)
    (committed
      : commitStagedExecution x.files run attempt execution
          (leases.map (fun lease => { lease.1 with owner := Ipc.uuidText lease.2 })) x.clock
          x.store = .ok (u, s))
    : Sound { x with store := s } := by
  obtain ⟨durable, whole⟩ := commitStagedExecution_whole committed
  obtain ⟨named, all, -⟩ := whole.outcome
  obtain ⟨-, artifacts, middle, each, counted, -, written⟩ :=
    commitStagedExecution_parts committed
  have same : s.artifacts = middle.artifacts := by rw [written]
  obtain ⟨staging, leased⟩ := commitArtifacts_staging each
  have leased := leased ((commitArtifacts_length each).symm.trans counted)
  have claims : ∀ artifact, Claimed x.owners x.store artifact →
      Claimed x.owners s artifact := fun artifact claimed =>
    ⟨claimed.drawn, fun row stored found =>
      claimed.path row (staging row (same ▸ stored) found.2.1) found⟩
  constructor
  · exact all.quota sound.quota
  · exact all.unique sound.unique
  · intro row stored
    rcases all.placed row stored with old | ⟨artifact, mem, path⟩
    · exact sound.files row old
    · rw [path]
      exact requireDurable_file durable mem
  · exact sound.guards
  · exact sound.collectors
  · exact fun artifact mem => claims artifact (sound.claims artifact mem)
  · exact fun cleared mem => claims cleared.artifact (sound.known cleared mem)
  · exact sound.once
  · exact sound.held
  · intro cleared mem
    obtain ⟨row, stored, removable⟩ := sound.removable cleared mem
    refine ⟨row, same ▸ (commitArtifacts_frame each (fun lease presented same => ?_)).mpr stored,
      removable⟩
    -- the row of a lease belongs to a stager
    obtain ⟨own, ownMem, sameId, owner⟩ := leased lease presented
    obtain ⟨given, -, rfl⟩ := List.mem_map.mp presented
    cases Table.eq_of_clash stored ownMem (Or.inl (same.trans sameId.symm))
    obtain ⟨collector, claimed⟩ := removable.collector
    exact gcOwner_ne collector given.2 (Option.some.inj (claimed.symm.trans owner))
  · exact sound.heldOrphans
  · intro orphan mem row stored same
    rcases all.placed row stored with old | ⟨artifact, listed, path⟩
    · exact sound.orphaned orphan mem row old same
    · obtain ⟨held, sweeper, swept⟩ := sound.heldOrphans orphan mem
      have alike := sound.guards _ (guarded artifact listed) _ held (path.symm.trans same)
      rw [← alike] at swept
      cases swept

-----------------------------------------------------------------------------------------
-- Collectors
-----------------------------------------------------------------------------------------

theorem Sound.claimExpired (sound : x.Sound) {drawn limit : Nat} {now : Timestamp}
    (past : now ≤ x.clock) (fresh : gcOwner drawn ∉ x.owners)
    : Sound { x with
        store := (claimExpiredStaging (gcOwner drawn) now limit x.store).2
        owners := gcOwner drawn :: x.owners
        claims := (claimExpiredStaging (gcOwner drawn) now limit x.store).1 ++ x.claims } := by
  have same := referenced_claimExpiredStaging (gcOwner drawn) now limit x.store
  have rewrites := claimExpiredStaging_rewrites (gcOwner drawn) now limit x.store
  have other : ∀ owner ∈ x.owners, owner ≠ gcOwner drawn := fun owner mem equal =>
    fresh (equal ▸ mem)
  have old : ∀ artifact, Claimed x.owners x.store artifact →
      Claimed (gcOwner drawn :: x.owners)
        (claimExpiredStaging (gcOwner drawn) now limit x.store).2 artifact := by
    refine fun artifact claimed =>
      ⟨List.mem_cons_of_mem _ claimed.drawn, fun row' stored found => ?_⟩
    obtain ⟨row, mem, rfl | ⟨-, rfl⟩⟩ := rewrites.backward row' stored
    · exact claimed.path _ mem found
    · exact absurd (Option.some.inj found.2.2).symm (other _ claimed.drawn)
  have new : ∀ artifact ∈ (claimExpiredStaging (gcOwner drawn) now limit x.store).1,
      artifact.owner = gcOwner drawn
        ∧ Claimed (gcOwner drawn :: x.owners)
            (claimExpiredStaging (gcOwner drawn) now limit x.store).2 artifact := by
    intro artifact mem
    obtain ⟨owned, row, stored, id, path⟩ := claimExpiredStaging_expired mem
    refine ⟨owned, owned ▸ List.mem_cons_self, fun row' stored' found => ?_⟩
    obtain ⟨before, beforeMem, changed⟩ := rewrites.backward row' stored'
    obtain ⟨sameId, samePath⟩ := MayClaim.named changed
    have alike := Table.eq_of_clash beforeMem stored
      (Or.inl (sameId.symm.trans (found.1.trans id.symm)))
    rw [samePath, alike, path]
  constructor
  · intro actor
    simp only [retainedBytes, same]
    exact sound.quota actor
  · intro a aMem b bMem
    rw [same] at aMem bMem
    exact sound.unique a aMem b bMem
  · simp only [same]
    exact sound.files
  · exact sound.guards
  · intro owner mem
    rcases List.mem_cons.mp mem with rfl | known
    · exact ⟨drawn, rfl⟩
    · exact sound.collectors owner known
  · intro artifact mem
    rcases List.mem_append.mp mem with claimed | known
    · exact (new artifact claimed).2
    · exact old artifact (sound.claims artifact known)
  · exact fun cleared mem => old cleared.artifact (sound.known cleared mem)
  · intro cleared mem listed
    rcases List.mem_append.mp listed with claimed | known
    · exact other _ (sound.known cleared mem).drawn (new cleared.artifact claimed).1
    · exact sound.once cleared mem known
  · exact sound.held
  · intro cleared mem
    obtain ⟨row, stored, removable⟩ := sound.removable cleared mem
    obtain ⟨row', stored', rfl | ⟨⟨-, expiresAt, expires, lapsed⟩, rfl⟩⟩ :=
      rewrites.forward row stored
    · exact ⟨row', stored', removable⟩
    · refine ⟨_, stored', removable.id, removable.path, removable.state, ⟨drawn, rfl⟩,
        Or.inr ⟨fun mine => ?_, ?_⟩⟩
      · exact other _ (sound.known cleared mem).drawn (Option.some.inj mine).symm
      · rcases removable.claim with ⟨-, until'⟩ | ⟨-, elapsed⟩
        · cases Option.some.inj (until'.symm.trans expires)
          exact lapsed.trans_le past
        · exact elapsed
  · exact sound.heldOrphans
  · simp only [same]
    exact sound.orphaned

theorem Sound.renewClaim (sound : x.Sound) {artifact : ExpiredArtifact}
    (claimed : artifact ∈ x.claims)
    (guarded : (.collector artifact.owner, artifact.managedPath) ∈ x.guards)
    : Sound { x with
        store := (renewGcClaim artifact x.clock (x.clock.plusMillis stagingMillis) x.store).2
        claims := x.claims.filter (· ≠ artifact)
        cleared :=
          if (renewGcClaim artifact x.clock (x.clock.plusMillis stagingMillis) x.store).1 then
            ⟨artifact, x.clock.plusMillis stagingMillis⟩ :: x.cleared
          else x.cleared } := by
  have same := referenced_renewGcClaim artifact x.clock (x.clock.plusMillis stagingMillis) x.store
  have mine := sound.claims artifact claimed
  have claims : ∀ other, Claimed x.owners x.store other → Claimed x.owners
      (renewGcClaim artifact x.clock (x.clock.plusMillis stagingMillis) x.store).2 other := by
    refine fun other claimed => ⟨claimed.drawn, fun row' stored found => ?_⟩
    obtain ⟨row, mem, rfl⟩ := Table.mem_updateWhere.mp stored
    split at found
    · rename_i selected
      rw [if_pos selected]
      exact claimed.path row mem found
    · rename_i selected
      rw [if_neg selected]
      exact claimed.path row mem found
  have kept : ∀ cleared ∈ x.cleared, ∃ row ∈ (renewGcClaim artifact x.clock
      (x.clock.plusMillis stagingMillis) x.store).2.artifacts, Removable x.clock cleared row := by
    intro cleared mem
    obtain ⟨row, stored, removable⟩ := sound.removable cleared mem
    refine ⟨row, mem_renewGcClaim stored (fun found => ?_), removable⟩
    have alike := sound.eq_of_path mem guarded removable found (mine.path row stored found)
    exact sound.once cleared mem (alike ▸ claimed)
  -- what the renewal adds to the cleared artifacts
  have added : ∀ cleared ∈ (if (renewGcClaim artifact x.clock
        (x.clock.plusMillis stagingMillis) x.store).1 then
        ⟨artifact, x.clock.plusMillis stagingMillis⟩ :: x.cleared else x.cleared),
      cleared ∈ x.cleared
        ∨ (cleared = ⟨artifact, x.clock.plusMillis stagingMillis⟩
          ∧ x.store.artifacts.count (GcHeld artifact x.clock) = 1) := by
    intro cleared mem
    split at mem
    · rename_i renewed
      rcases List.mem_cons.mp mem with rfl | old
      · exact Or.inr ⟨rfl, of_decide_eq_true renewed⟩
      · exact Or.inl old
    · exact Or.inl mem
  constructor
  · intro actor
    simp only [retainedBytes, same]
    exact sound.quota actor
  · intro a aMem b bMem
    rw [same] at aMem bMem
    exact sound.unique a aMem b bMem
  · simp only [same]
    exact sound.files
  · exact sound.guards
  · exact sound.collectors
  · exact fun other mem => claims other (sound.claims other (List.mem_of_mem_filter mem))
  · intro cleared mem
    rcases added cleared mem with old | ⟨rfl, -⟩
    · exact claims _ (sound.known cleared old)
    · exact claims artifact mine
  · intro cleared mem listed
    obtain ⟨listed, other⟩ := List.mem_filter.mp listed
    rcases added cleared mem with old | ⟨rfl, -⟩
    · exact sound.once cleared old listed
    · exact of_decide_eq_true other rfl
  · intro cleared mem
    rcases added cleared mem with old | ⟨rfl, -⟩
    · exact sound.held cleared old
    · exact guarded
  · intro cleared mem
    rcases added cleared mem with old | ⟨rfl, one⟩
    · exact kept cleared old
    · obtain ⟨row, stored, found⟩ := Table.exists_of_count one
      obtain ⟨collector, owner⟩ := sound.collectors _ mine.drawn
      refine ⟨_, Table.updateWhere_mem_of stored found, found.1.1,
        mine.path row stored found.1, found.1.2.1, ⟨collector, ?_⟩,
        Or.inl ⟨found.1.2.2, rfl⟩⟩
      exact found.1.2.2.trans (congrArg some owner)
  · exact sound.heldOrphans
  · simp only [same]
    exact sound.orphaned

theorem Sound.completeClaimed (sound : x.Sound) {done : Cleared} (mem : done ∈ x.cleared)
    : Sound { x with
        store := (completeClaimedStaging done.artifact x.store).2
        cleared := x.cleared.filter (·.artifact ≠ done.artifact) } := by
  have same := referenced_completeClaimedStaging done.artifact x.store
  have mine := sound.known done mem
  have claims : ∀ other, Claimed x.owners x.store other → Claimed x.owners
      (completeClaimedStaging done.artifact x.store).2 other := fun other claimed =>
    ⟨claimed.drawn, fun row stored found =>
      claimed.path row (Table.mem_deleteWhere.mp stored).1 found⟩
  constructor
  · intro actor
    simp only [retainedBytes, same]
    exact sound.quota actor
  · intro a aMem b bMem
    rw [same] at aMem bMem
    exact sound.unique a aMem b bMem
  · simp only [same]
    exact sound.files
  · exact sound.guards
  · exact sound.collectors
  · exact fun other mem => claims other (sound.claims other mem)
  · exact fun cleared kept => claims _ (sound.known cleared (List.mem_of_mem_filter kept))
  · exact fun cleared kept => sound.once cleared (List.mem_of_mem_filter kept)
  · exact fun cleared kept => sound.held cleared (List.mem_of_mem_filter kept)
  · intro cleared kept
    obtain ⟨kept, other⟩ := List.mem_filter.mp kept
    obtain ⟨row, stored, removable⟩ := sound.removable cleared kept
    refine ⟨row, mem_completeClaimedStaging stored (fun found => ?_), removable⟩
    exact of_decide_eq_true other
      (sound.eq_of_path kept (sound.held done mem) removable found (mine.path row stored found))
  · exact sound.heldOrphans
  · simp only [same]
    exact sound.orphaned

/-- A file that is removed is no file of a referenced row. -/
theorem Sound.removeFile (sound : x.Sound) {path : String}
    (free : ∀ row ∈ referencedRows x.store, row.managedPath ≠ path)
    : Sound { x with files := Sqlite.removeFile path x.files } := by
  refine { sound with files := fun row stored => ?_ }
  simp only [Sqlite.removeFile, if_neg (free row stored)]
  exact sound.files row stored

/-- The path of an artifact about to be removed belongs to no referenced row. -/
theorem Sound.path_free (sound : x.Sound) {cleared : Cleared} (mem : cleared ∈ x.cleared)
    : ∀ row ∈ referencedRows x.store, row.managedPath ≠ cleared.artifact.managedPath := by
  intro row stored path
  obtain ⟨own, ownMem, removable⟩ := sound.removable cleared mem
  obtain ⟨stored, state⟩ := mem_referencedRows.mp stored
  have same := Table.eq_of_clash stored ownMem (Or.inr (path.trans removable.path.symm))
  rw [same, removable.state] at state
  cases state

-----------------------------------------------------------------------------------------
-- Guards and time
-----------------------------------------------------------------------------------------

theorem Sound.elapse (sound : x.Sound) (millis : Nat)
    : Sound { x with clock := x.clock + millis } := by
  refine { sound with removable := fun cleared mem => ?_ }
  obtain ⟨row, stored, removable⟩ := sound.removable cleared mem
  refine ⟨row, stored, removable.id, removable.path, removable.state, removable.collector, ?_⟩
  refine removable.claim.imp_right (fun elapsed => ⟨elapsed.1, elapsed.2.trans_le ?_⟩)
  exact Int.le_add_of_nonneg_right (Int.natCast_nonneg millis)

theorem Sound.create (sound : x.Sound) {path : String} {metadata : FileMetadata}
    : Sound { x with
        files := fun other => if other = path then .ok metadata else x.files other } := by
  refine { sound with files := fun row stored => ?_ }
  by_cases same : row.managedPath = path
  · exact ⟨metadata, if_pos same⟩
  · simp only [if_neg same]
    exact sound.files row stored

theorem Sound.lockPath (sound : x.Sound) {holder : GuardHolder} {path : String}
    (free : ¬∃ guard ∈ x.guards, guard.2 = path)
    : Sound { x with guards := (holder, path) :: x.guards } := by
  refine { sound with guards := ?_, held := ?_, heldOrphans := ?_ }
  · intro a aMem b bMem same
    rcases List.mem_cons.mp aMem with rfl | aOld
    · rcases List.mem_cons.mp bMem with rfl | bOld
      · rfl
      · exact absurd ⟨b, bOld, same.symm⟩ free
    · rcases List.mem_cons.mp bMem with rfl | bOld
      · exact absurd ⟨a, aOld, same⟩ free
      · exact sound.guards a aOld b bOld same
  · exact fun cleared mem => List.mem_cons_of_mem _ (sound.held cleared mem)
  · exact fun orphan mem =>
      ⟨List.mem_cons_of_mem _ (sound.heldOrphans orphan mem).1, (sound.heldOrphans orphan mem).2⟩

theorem Sound.dropGuard (sound : x.Sound) (guard : GuardHolder × String)
    : Sound { x with
        guards := x.guards.filter (· ≠ guard)
        cleared := x.cleared.filter (·.guard ≠ guard)
        orphans := x.orphans.filter (· ≠ guard) } := by
  constructor
  · exact sound.quota
  · exact sound.unique
  · exact sound.files
  · exact fun a aMem b bMem =>
      sound.guards a (List.mem_of_mem_filter aMem) b (List.mem_of_mem_filter bMem)
  · exact sound.collectors
  · exact sound.claims
  · exact fun cleared mem => sound.known cleared (List.mem_of_mem_filter mem)
  · exact fun cleared mem => sound.once cleared (List.mem_of_mem_filter mem)
  · intro cleared mem
    obtain ⟨mem, other⟩ := List.mem_filter.mp mem
    exact List.mem_filter.mpr ⟨sound.held cleared mem, other⟩
  · exact fun cleared mem => sound.removable cleared (List.mem_of_mem_filter mem)
  · intro orphan mem
    obtain ⟨mem, other⟩ := List.mem_filter.mp mem
    obtain ⟨held, sweeper⟩ := sound.heldOrphans orphan mem
    exact ⟨List.mem_filter.mpr ⟨held, other⟩, sweeper⟩
  · exact fun orphan mem => sound.orphaned orphan (List.mem_of_mem_filter mem)

theorem Sound.lookUpOrphan (sound : x.Sound) {sweeper : Nat} {path : String}
    (guarded : (.sweeper sweeper, path) ∈ x.guards)
    (unknown : ¬∃ row ∈ x.store.artifacts, row.managedPath = path)
    : Sound { x with orphans := (.sweeper sweeper, path) :: x.orphans } := by
  refine { sound with heldOrphans := ?_, orphaned := ?_ }
  · intro orphan mem
    rcases List.mem_cons.mp mem with rfl | old
    · exact ⟨guarded, sweeper, rfl⟩
    · exact sound.heldOrphans orphan old
  · intro orphan mem row stored same
    rcases List.mem_cons.mp mem with rfl | old
    · exact unknown ⟨row, (mem_referencedRows.mp stored).1, same⟩
    · exact sound.orphaned orphan old row stored same

-----------------------------------------------------------------------------------------
-- Runs
-----------------------------------------------------------------------------------------

theorem after_ok {α : Type} {result : Except StoreError (α × Store)} {a : α}
    (done : result = .ok (a, s))
    : x.after result = { x with store := s } := by
  subst done
  rfl

theorem after_error {α : Type} {result : Except StoreError (α × Store)} {error : StoreError}
    (failed : result = .error error)
    : x.after result = x := by
  subst failed
  rfl

/-- A call that may fail keeps the invariant if it does when it succeeds. -/
theorem Sound.after {α : Type} (sound : x.Sound) {result : Except StoreError (α × Store)}
    (kept : ∀ a s, result = .ok (a, s) → Sound { x with store := s })
    : (x.after result).Sound := by
  rcases answered : result with error | ⟨a, s⟩
  · exact sound
  · exact kept a s answered

/-- Every call keeps the invariant, by cases on the call. -/
theorem Sound.step (sound : x.Sound) (taken : x.perform call = some y) : y.Sound := by
  cases call with
  | elapse millis =>
      cases taken
      exact sound.elapse millis
  | create path metadata =>
      simp only [perform] at taken
      split at taken
      · cases taken
      · cases taken
        exact sound.create
  | lockPath holder path =>
      simp only [perform] at taken
      split at taken
      · cases taken
      · rename_i free
        cases taken
        exact sound.lockPath free
  | dropGuard holder path =>
      cases taken
      exact sound.dropGuard (holder, path)
  | beginStaging command owner =>
      cases taken
      exact sound.after (fun lease s begun => sound.beginStaging begun)
  | renewStaging lease owner extended =>
      cases taken
      exact sound.after (fun lease' s renewed => sound.renewStaging renewed)
  | commit stager run attempt execution leases =>
      simp only [perform] at taken
      split at taken
      · rename_i guarded
        cases taken
        exact sound.after (fun u s committed => sound.commit guarded committed)
      · cases taken
  | claimExpired drawn now limit =>
      simp only [perform] at taken
      split at taken
      · rename_i may
        cases taken
        exact sound.claimExpired may.1 may.2
      · cases taken
  | renewClaim artifact =>
      simp only [perform] at taken
      split at taken
      · rename_i may
        cases taken
        exact sound.renewClaim may.1 may.2
      · cases taken
  | unlink artifact =>
      simp only [perform] at taken
      split at taken
      · rename_i found
        obtain ⟨cleared, mem, rfl⟩ := found
        cases taken
        exact sound.removeFile (sound.path_free mem)
      · cases taken
  | completeClaimed artifact =>
      simp only [perform] at taken
      split at taken
      · rename_i found
        obtain ⟨cleared, mem, rfl⟩ := found
        cases taken
        exact sound.completeClaimed mem
      · cases taken
  | lookUpOrphan sweeper path =>
      simp only [perform] at taken
      split at taken
      · rename_i may
        cases taken
        exact sound.lookUpOrphan may.1 may.2
      · cases taken
  | unlinkOrphan sweeper path =>
      simp only [perform] at taken
      split at taken
      · rename_i found
        cases taken
        exact sound.removeFile (sound.orphaned _ found)
      · cases taken
  | elsewhere tables =>
      cases taken
      exact sound.store rfl (fun _ claimed => ⟨claimed.drawn, claimed.path⟩)
        (fun _ _ row stored removable => ⟨row, stored, removable⟩)

end ArtifactRun

/-- The invariant holds in every reachable state, by induction on the run. -/
theorem artifactStore_sound (reached : artifactStore.Reachable x) : x.Sound := by
  refine System.Reachable.invariant (fun x start => ?_)
    (fun x call y _ (sound : x.Sound) taken => sound.step taken) reached
  obtain ⟨artifacts, guards, owners, claims, cleared, orphans⟩ := start
  have none : referencedRows x.store = [] := by
    rw [referencedRows, artifacts]
    rfl
  constructor
  · intro actor
    rw [retainedBytes, none]
    exact Nat.zero_le _
  · rw [ContentUnique, none]
    exact fun a mem => absurd mem List.not_mem_nil
  · rw [none]
    exact fun row mem => absurd mem List.not_mem_nil
  · rw [guards]
    exact fun a mem => absurd mem List.not_mem_nil
  · rw [owners]
    exact fun owner mem => absurd mem List.not_mem_nil
  · rw [claims]
    exact fun artifact mem => absurd mem List.not_mem_nil
  · rw [cleared]
    exact fun cleared mem => absurd mem List.not_mem_nil
  · rw [cleared]
    exact fun cleared mem => absurd mem List.not_mem_nil
  · rw [cleared]
    exact fun cleared mem => absurd mem List.not_mem_nil
  · rw [cleared]
    exact fun cleared mem => absurd mem List.not_mem_nil
  · rw [orphans]
    exact fun orphan mem => absurd mem List.not_mem_nil
  · rw [orphans]
    exact fun orphan mem => absurd mem List.not_mem_nil

-----------------------------------------------------------------------------------------
-- Artifact safety
-----------------------------------------------------------------------------------------

/-- The calls of the collectors. -/
def ArtifactCall.Collects : ArtifactCall → Prop
  | .claimExpired _ _ _ | .renewClaim _ | .unlink _ | .completeClaimed _ | .lookUpOrphan _ _
  | .unlinkOrphan _ _ => True
  | _ => False

/-- Collectors leave the referenced rows as they are, by cases on the call. -/
theorem ArtifactCall.Collects.referenced (collects : call.Collects)
    (taken : x.perform call = some y)
    : referencedRows y.store = referencedRows x.store := by
  cases call with
  | claimExpired drawn now limit =>
      simp only [ArtifactRun.perform] at taken
      split at taken
      · cases taken
        exact referenced_claimExpiredStaging _ _ _ _
      · cases taken
  | renewClaim artifact =>
      simp only [ArtifactRun.perform] at taken
      split at taken
      · cases taken
        exact referenced_renewGcClaim _ _ _ _
      · cases taken
  | completeClaimed artifact =>
      simp only [ArtifactRun.perform] at taken
      split at taken
      · cases taken
        exact referenced_completeClaimedStaging _ _
      · cases taken
  | unlink artifact | lookUpOrphan sweeper path | unlinkOrphan sweeper path =>
      simp only [ArtifactRun.perform] at taken
      split at taken <;> cases taken
      rfl
  | elapse millis | create path metadata | lockPath holder path | dropGuard holder path
  | beginStaging command owner | renewStaging lease owner extended
  | commit stager run attempt execution leases | elsewhere tables => exact collects.elim

/-- The row of the artifact is staging under the collector's own claim, which has not run out. -/
def OwnClaim (x : ArtifactRun) (artifact : ExpiredArtifact) : Prop :=
  ∃ row ∈ x.store.artifacts, row.managedPath = artifact.managedPath ∧ GcHeld artifact x.clock row

instance (x : ArtifactRun) (artifact : ExpiredArtifact) : Decidable (OwnClaim x artifact) :=
  inferInstanceAs (Decidable (∃ row ∈ x.store.artifacts, _))

/-- The row of the artifact is staging under the claim of a collector. -/
def SomeClaim (x : ArtifactRun) (artifact : ExpiredArtifact) : Prop :=
  ∃ row ∈ x.store.artifacts, row.id = artifact.id ∧ row.managedPath = artifact.managedPath
    ∧ row.state = .staging ∧ ∃ drawn, row.stagingOwner = some (gcOwner drawn)

/-- An artifact about to be removed is under its collector's own claim until the renewed claim
runs out.
-/
theorem ArtifactRun.Sound.ownClaim_iff (sound : x.Sound) {cleared : Cleared}
    (mem : cleared ∈ x.cleared)
    : OwnClaim x cleared.artifact ↔ x.clock ≤ cleared.renewedUntil := by
  obtain ⟨row, stored, removable⟩ := sound.removable cleared mem
  constructor
  · rintro ⟨own, ownMem, -, found, expiresAt, expires, live⟩
    cases Table.eq_of_clash ownMem stored (Or.inl (found.1.trans removable.id.symm))
    rcases removable.claim with ⟨-, renewed⟩ | ⟨other, -⟩
    · cases Option.some.inj (renewed.symm.trans expires)
      exact live
    · exact absurd found.2.2 other
  · intro live
    rcases removable.claim with ⟨owner, renewed⟩ | ⟨-, elapsed⟩
    · exact ⟨row, stored, removable.path, ⟨removable.id, removable.state, owner⟩,
        cleared.renewedUntil, renewed, live⟩
    · exact absurd live (not_le.mpr elapsed)

/-- **The artifact store is safe under any interleaving of stagers and collectors.** No actor
exceeds the quota, no content is referenced twice, and every referenced row has its file; a commit
happens as a whole or changes nothing, and collectors leave referenced rows as they are. A
collector unlinks a staged file under the claim of a collector, which is its own and unexpired
exactly if the renewal before has not run out.
-/
theorem artifacts_are_safe (reached : artifactStore.Reachable x)
    : WithinQuota x.store ∧ ContentUnique x.store
      ∧ (∀ row ∈ x.store.artifacts, row.state = .referenced →
          ∃ metadata, x.files row.managedPath = .ok metadata)
      ∧ ∀ call y, artifactStore.Step x call y →
        (call.Collects → referencedRows y.store = referencedRows x.store)
        ∧ (∀ stager run attempt execution leases,
            call = .commit stager run attempt execution leases →
            y = x ∨ CommitsWhole x.store y.store run attempt execution)
        ∧ ∀ artifact, call = .unlink artifact →
            SomeClaim x artifact
              ∧ ∀ cleared ∈ x.cleared, cleared.artifact = artifact →
                (OwnClaim x artifact ↔ x.clock ≤ cleared.renewedUntil) := by
  have sound := artifactStore_sound reached
  refine ⟨sound.quota, sound.unique, fun row stored state =>
    sound.files row (mem_referencedRows.mpr ⟨stored, state⟩), fun call y taken => ?_⟩
  refine ⟨fun collects => collects.referenced taken, ?_, ?_⟩
  · rintro stager run attempt execution leases rfl
    simp only [artifactStore, ArtifactRun.perform] at taken
    split at taken
    · cases taken
      rcases committed : commitStagedExecution x.files run attempt execution
          (leases.map (fun lease => { lease.1 with owner := Ipc.uuidText lease.2 })) x.clock
          x.store with error | ⟨u, s⟩
      · exact Or.inl (ArtifactRun.after_error committed)
      · rw [ArtifactRun.after_ok committed]
        exact Or.inr (commitStagedExecution_whole committed).2
    · cases taken
  · rintro artifact rfl
    simp only [artifactStore, ArtifactRun.perform] at taken
    split at taken
    · rename_i found
      obtain ⟨cleared, mem, rfl⟩ := found
      constructor
      · obtain ⟨row, stored, removable⟩ := sound.removable cleared mem
        exact ⟨row, stored, removable.id, removable.path, removable.state, removable.collector⟩
      · intro other otherMem same
        rw [← same]
        exact sound.ownClaim_iff otherMem
    · cases taken

namespace Abandoned

def owner : ActorId := ⟨"owner"⟩

def running : AttemptId := ⟨1⟩

def tables : Store :=
  { Store.initial ⟨[⟨owner, true, 0⟩], List.pairwise_singleton _ _⟩ ∅ with
    toolAttempts :=
      ⟨[⟨running, ⟨1⟩, "call-1", "file", "null", ⟨false, false, false, false, false, false⟩,
          .running, none, false, 0⟩],
        List.pairwise_singleton _ _⟩ }

def start : ArtifactRun := ⟨tables, 0, fun _ => .error notFound, [], [], [], [], []⟩

def begun : BeginArtifact := ⟨⟨10⟩, owner, running, "a.partial", 1, "", 30000⟩

def abandoned : ExpiredArtifact := ⟨⟨10⟩, "a.partial", gcOwner 1⟩

/-- The lease of an abandoned copy runs out, and a collector renews its claim on it. -/
def collecting : List ArtifactCall :=
  [.beginStaging begun 1, .create "a.partial" ⟨true, 1⟩, .elapse 30001, .claimExpired 1 30001 256,
    .lockPath (.collector (gcOwner 1)) "a.partial", .renewClaim abandoned]

/-- Before it comes to the file, another collector claims the row in its turn. -/
def overtaken : List ArtifactCall := collecting ++ [.elapse 30001, .claimExpired 2 60002 256]

theorem initial : artifactStore.Initial start := ⟨rfl, rfl, rfl, rfl, rfl, rfl⟩

theorem reachable {calls : List ArtifactCall} {x : ArtifactRun}
    (made : calls.foldlM ArtifactRun.perform start = some x)
    : artifactStore.Reachable x :=
  System.Reachable.foldlM (fun _ _ _ taken => taken) (.initial initial) made

end Abandoned

theorem artifacts_are_safe_collecting
    : ∃ x, Abandoned.collecting.foldlM ArtifactRun.perform Abandoned.start = some x
      ∧ WithinQuota x.store := by
  have made : (Abandoned.collecting.foldlM ArtifactRun.perform Abandoned.start).isSome := by
    decide +kernel
  obtain ⟨x, made⟩ := Option.isSome_iff_exists.mp made
  exact ⟨x, made, (artifacts_are_safe (Abandoned.reachable made)).1⟩

/-- A collector whose renewal has run out unlinks the file under the claim of another. -/
theorem unlink_is_overtaken
    : ∃ x y, artifactStore.Reachable x
      ∧ artifactStore.Step x (.unlink Abandoned.abandoned) y
      ∧ ¬OwnClaim x Abandoned.abandoned := by
  have made : (Abandoned.overtaken.foldlM ArtifactRun.perform Abandoned.start).any (fun x =>
      (x.perform (.unlink Abandoned.abandoned)).isSome
        && decide (¬OwnClaim x Abandoned.abandoned)) = true := by
    decide +kernel
  obtain ⟨x, made, unlinks⟩ := (Option.any_eq_true _ _).mp made
  obtain ⟨unlinks, lost⟩ := Bool.and_eq_true_iff.mp unlinks
  obtain ⟨y, taken⟩ := Option.isSome_iff_exists.mp unlinks
  exact ⟨x, y, Abandoned.reachable made, taken, of_decide_eq_true lost⟩

end Codrik.Runtime.Sqlite

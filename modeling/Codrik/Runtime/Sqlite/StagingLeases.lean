import Codrik.Runtime.Sqlite.Staging
import Codrik.Transition.System

/-! The leases of one `stage_execution` (`runtime/artifacts.rs`). A heartbeat renews the lease of
an artifact only while that artifact is copied, so the lease ages through all later copies.
-/

namespace Codrik.Runtime.Sqlite

open Codrik.Relational
open Codrik.Transition

-----------------------------------------------------------------------------------------
-- Staging an execution
-----------------------------------------------------------------------------------------

/-- The period of the heartbeat. -/
def heartbeatMillis : Nat := 10000

/-- An artifact of the execution: its lease, how long its copy took, and how often the heartbeat
renewed the lease meanwhile.
-/
structure Copied where
  lease : ArtifactLease
  elapsed : Nat
  beats : Nat

/-- A `stage_execution` under way, with the copies it has made and the one it is making. -/
structure StageRun where
  store : Store
  clock : Timestamp
  prepared : List Copied
  copying : Option Copied
  failure : Option StoreError

/-- What the execution does, and what collectors and other executions do meanwhile. -/
inductive StageCall
  | beginCopy (id : ArtifactId) (path : String) (size : Nat) (owner : Nat)
  | elapse (millis : Nat)
  | beat
  | finishCopy
  | claimExpired (collector : Nat) (now : Timestamp) (limit : Nat)
  | renewClaim (collector : Nat) (id : ArtifactId) (now extended : Timestamp)
  | completeClaimed (collector : Nat) (id : ArtifactId)
  | beginOther (command : BeginArtifact)
  | renewOther (lease : ArtifactLease) (extended : Timestamp)
  | commitOther (files : String → Except String FileMetadata) (run : AttachedRun)
      (attempt : AttemptId) (execution : DurableToolExecution) (leases : List ArtifactLease)
      (now : Timestamp)
  | elsewhere (tables : Store)

namespace StageRun

/-- The copies of the execution, the one under way last. -/
def copies (x : StageRun) : List Copied := x.prepared ++ x.copying.toList

/-- The execution presents the lease. -/
def Presents (x : StageRun) (lease : ArtifactLease) : Prop :=
  ∃ copy ∈ x.copies, copy.lease.id = lease.id

instance (x : StageRun) : DecidablePred x.Presents :=
  fun _ => inferInstanceAs (Decidable (∃ copy ∈ x.copies, _))

/-- The store after a call that may fail and then changes nothing. -/
def after {α : Type} (x : StageRun) (result : Except StoreError (α × Store)) : StageRun :=
  match result with
  | .ok (_, s) => { x with store := s }
  | .error _ => x

/-- One call; `none` where it cannot be made. The clock advances during copies alone, and no
copy goes on past a heartbeat that is due.
-/
def perform (actor : ActorId) (attempt : AttemptId) (x : StageRun) : StageCall → Option StageRun
  | .beginCopy id path size owner =>
      if x.copying.isSome ∨ x.failure.isSome then none
      else
        match beginStaging ⟨id, actor, attempt, path, size, Ipc.uuidText owner,
            x.clock.plusMillis stagingMillis⟩ x.store with
        | .ok (lease, s) => some { x with store := s, copying := some ⟨lease, 0, 0⟩ }
        | .error _ => none
  | .elapse millis =>
      match x.copying with
      | some copy =>
          if copy.elapsed + millis ≤ heartbeatMillis * (copy.beats + 1)
              ∧ x.clock + millis ≤ 9223372036854775807 then
            some { x with
              clock := x.clock + millis
              copying := some { copy with elapsed := copy.elapsed + millis } }
          else none
      | none => none
  | .beat =>
      match x.copying with
      | some copy =>
          if copy.elapsed = heartbeatMillis * (copy.beats + 1) then
            match renewStaging copy.lease (x.clock.plusMillis stagingMillis) x.store with
            | .ok (lease, s) =>
                some { x with
                  store := s
                  copying := some { copy with lease := lease, beats := copy.beats + 1 } }
            | .error error => some { x with copying := none, failure := some error }
          else none
      | none => none
  | .finishCopy =>
      match x.copying with
      | some copy => some { x with prepared := x.prepared ++ [copy], copying := none }
      | none => none
  | .claimExpired collector now limit =>
      if now ≤ x.clock then
        some { x with store := (claimExpiredStaging (gcOwner collector) now limit x.store).2 }
      else none
  | .renewClaim collector id now extended =>
      some { x with store := (renewGcClaim ⟨id, "", gcOwner collector⟩ now extended x.store).2 }
  | .completeClaimed collector id =>
      some { x with store := (completeClaimedStaging ⟨id, "", gcOwner collector⟩ x.store).2 }
  | .beginOther command => some (x.after (beginStaging command x.store))
  | .renewOther lease extended =>
      if x.Presents lease then none else some (x.after (renewStaging lease extended x.store))
  | .commitOther files run attempt execution leases now =>
      if ∃ lease ∈ leases, x.Presents lease then none
      else some (x.after (commitStagedExecution files run attempt execution leases now x.store))
  | .elsewhere tables => some { x with store := { tables with artifacts := x.store.artifacts } }

end StageRun

/-- The execution of an attempt, from any store and any time. -/
def staging (actor : ActorId) (attempt : AttemptId) : System StageRun StageCall where
  Initial x := x.prepared = [] ∧ x.copying = none ∧ x.failure = none
    ∧ -9223372036854775808 ≤ x.clock ∧ x.clock ≤ 9223372036854775807
  Step x call y := x.perform actor attempt call = some y

-----------------------------------------------------------------------------------------
-- The age of a lease
-----------------------------------------------------------------------------------------

/-- No lease is older than it lasts: the rest of its own copy after the last heartbeat and all
later copies take no longer.
-/
def Timely : List Copied → Prop
  | [] => True
  | copy :: later =>
      (copy.elapsed : Int) + (later.map (·.elapsed)).sum
          ≤ stagingMillis + heartbeatMillis * copy.beats
        ∧ Timely later

instance : (copies : List Copied) → Decidable (Timely copies)
  | [] => inferInstanceAs (Decidable True)
  | _ :: later =>
      have := instDecidableTimely later
      inferInstanceAs (Decidable (_ ∧ _))

/-- The copies follow one another from a time to another, each lease renewed by its own
heartbeats alone.
-/
def Consecutive (start : Int) : List Copied → Int → Prop
  | [], finish => start = finish
  | copy :: later, finish =>
      copy.lease.expiresAt
          = Timestamp.plusMillis (start + heartbeatMillis * copy.beats) stagingMillis
        ∧ Consecutive (start + copy.elapsed) later finish

/-- Copies that follow others, by induction on the others. -/
theorem consecutive_append {start finish : Int} {copies more : List Copied}
    : Consecutive start (copies ++ more) finish ↔
      ∃ middle, Consecutive start copies middle ∧ Consecutive middle more finish := by
  induction copies generalizing start with
  | nil =>
      constructor
      · exact fun more => ⟨start, rfl, more⟩
      · rintro ⟨middle, rfl, more⟩
        exact more
  | cons copy later ih =>
      simp only [List.cons_append, Consecutive, ih]
      constructor
      · rintro ⟨expires, middle, before, after⟩
        exact ⟨middle, ⟨expires, before⟩, after⟩
      · rintro ⟨middle, ⟨expires, before⟩, after⟩
        exact ⟨expires, middle, before, after⟩

/-- Consecutive copies take the time between their ends, by induction on them. -/
theorem Consecutive.finish {start finish : Int} {copies : List Copied}
    (consecutive : Consecutive start copies finish)
    : finish = start + (copies.map (·.elapsed)).sum := by
  induction copies generalizing start with
  | nil =>
      rw [List.map_nil, List.sum_nil, Nat.cast_zero, add_zero]
      exact consecutive.symm
  | cons copy later ih =>
      rw [ih consecutive.2, List.map_cons, List.sum_cons]
      omega

/-- A time within the period after another, as a clock shows it. -/
theorem le_plusMillis {now renewed millis : Int} (within : now ≤ renewed + millis)
    (high : now ≤ 9223372036854775807)
    : now ≤ Timestamp.plusMillis renewed millis := by
  rw [Timestamp.plusMillis]
  omega

/-- No lease has run out exactly if the copies were timely, by induction on them. -/
theorem Consecutive.live_iff {start finish : Int} {copies : List Copied}
    (consecutive : Consecutive start copies finish) (low : -9223372036854775808 ≤ start)
    (high : finish ≤ 9223372036854775807)
    : (∀ copy ∈ copies, finish ≤ copy.lease.expiresAt) ↔ Timely copies := by
  induction copies generalizing start with
  | nil => simp [Timely]
  | cons copy later ih =>
      have ends := consecutive.2.finish
      have here : finish ≤ copy.lease.expiresAt ↔
          (copy.elapsed : Int) + (later.map (·.elapsed)).sum
            ≤ stagingMillis + heartbeatMillis * copy.beats := by
        rw [consecutive.1, Timestamp.plusMillis]
        simp only [stagingMillis, heartbeatMillis]
        omega
      rw [List.forall_mem_cons, here, ih consecutive.2 (by omega)]
      exact Iff.rfl

-----------------------------------------------------------------------------------------
-- What holds during the execution
-----------------------------------------------------------------------------------------

variable {actor : ActorId} {attempt : AttemptId} {x y : StageRun} {call : StageCall}

/-- The row of a lease is stored. -/
def StagedLease (s : Store) (attempt : AttemptId) (lease : ArtifactLease) : Prop :=
  ∃ row ∈ s.artifacts, StagedUnder lease attempt row

/-- A lease that the execution drew for its attempt. -/
structure Drawn (actor : ActorId) (attempt : AttemptId) (lease : ArtifactLease) : Prop where
  actor : lease.actorId = actor
  attempt : lease.attemptId = attempt
  owner : ∃ drawn, lease.owner = Ipc.uuidText drawn

/-- Every lease that has not run out has its row, and no id of such a lease is drawn again. -/
structure Leased (actor : ActorId) (attempt : AttemptId) (s : Store) (clock : Timestamp)
    (copies : List Copied) : Prop where
  consecutive : ∃ start, -9223372036854775808 ≤ start ∧ Consecutive start copies clock
  representable : clock ≤ 9223372036854775807
  drawn : ∀ copy ∈ copies, Drawn actor attempt copy.lease
  backed : ∀ copy ∈ copies, clock ≤ copy.lease.expiresAt → StagedLease s attempt copy.lease
  apart
    : copies.Pairwise
        (fun earlier later => earlier.lease.id = later.lease.id → earlier.lease.expiresAt < clock)

variable {s s' : Store} {clock : Timestamp} {copies : List Copied}

/-- A row under a lease of the execution is claimed by no collector. -/
theorem Drawn.unclaimed {lease : ArtifactLease} (drawn : Drawn actor attempt lease)
    {row : ArtifactRow} (staged : StagedUnder lease attempt row) {id : ArtifactId} {path : String}
    {collector : Nat}
    : ¬GcClaimed ⟨id, path, gcOwner collector⟩ row := by
  obtain ⟨number, owner⟩ := drawn.owner
  rintro ⟨-, -, claimed⟩
  have same := claimed.symm.trans staged.2.2.2.2.1
  rw [owner] at same
  exact gcOwner_ne collector number (Option.some.inj same)

/-- The lease of the last copy has not run out before the heartbeat after next is due. -/
theorem Leased.last {copy : Copied} (leased : Leased actor attempt s clock (copies ++ [copy]))
    (due : copy.elapsed ≤ heartbeatMillis * (copy.beats + 1))
    : clock ≤ copy.lease.expiresAt := by
  obtain ⟨start, -, consecutive⟩ := leased.consecutive
  obtain ⟨middle, -, expires, last⟩ := consecutive_append.mp consecutive
  have now : middle + copy.elapsed = clock := last
  rw [expires]
  refine le_plusMillis ?_ leased.representable
  rw [← now]
  simp only [stagingMillis, heartbeatMillis] at due ⊢
  omega

/-- A change of the store that leaves the rows of live leases. -/
theorem Leased.kept (leased : Leased actor attempt s clock copies)
    (kept
      : ∀ copy ∈ copies, clock ≤ copy.lease.expiresAt → ∀ row ∈ s.artifacts,
          StagedUnder copy.lease attempt row → row ∈ s'.artifacts)
    : Leased actor attempt s' clock copies := by
  refine { leased with backed := fun copy mem live => ?_ }
  obtain ⟨row, stored, staged⟩ := leased.backed copy mem live
  exact ⟨row, kept copy mem live row stored staged, staged⟩

/-- A copy begins under a lease of its own. -/
theorem Leased.beginCopy (leased : Leased actor attempt s clock copies) {id : ArtifactId}
    {path : String} {size owner : Nat} {lease : ArtifactLease}
    (begun
      : beginStaging ⟨id, actor, attempt, path, size, Ipc.uuidText owner,
          clock.plusMillis stagingMillis⟩ s = .ok (lease, s'))
    : Leased actor attempt s' clock (copies ++ [⟨lease, 0, 0⟩]) := by
  obtain ⟨rfl, fresh, added, staged, rows⟩ := beginStaging_ok begun
  obtain ⟨start, low, consecutive⟩ := leased.consecutive
  constructor
  · refine ⟨start, low, consecutive_append.mpr ⟨clock, consecutive, ?_, ?_⟩⟩
    · simp
    · simp [Consecutive]
  · exact leased.representable
  · intro copy mem
    rcases List.mem_append.mp mem with earlier | new
    · exact leased.drawn copy earlier
    · cases List.mem_singleton.mp new
      exact ⟨rfl, rfl, owner, rfl⟩
  · intro copy mem live
    rcases List.mem_append.mp mem with earlier | new
    · obtain ⟨row, stored, under⟩ := leased.backed copy earlier live
      exact ⟨row, (rows row).mpr (Or.inl stored), under⟩
    · cases List.mem_singleton.mp new
      exact ⟨added, (rows added).mpr (Or.inr rfl), staged⟩
  · refine List.pairwise_append.mpr ⟨leased.apart, List.pairwise_singleton _ _, ?_⟩
    intro copy earlier later new same
    cases List.mem_singleton.mp new
    by_contra live
    obtain ⟨row, stored, under⟩ := leased.backed copy earlier (not_lt.mp live)
    exact fresh row stored (under.1.trans same)

/-- Time passes during the last copy. -/
theorem Leased.elapse {copy : Copied} (leased : Leased actor attempt s clock (copies ++ [copy]))
    (millis : Nat) (high : clock + millis ≤ 9223372036854775807)
    : Leased actor attempt s (clock + millis)
        (copies ++ [{ copy with elapsed := copy.elapsed + millis }]) := by
  have later : clock ≤ clock + millis := Int.le_add_of_nonneg_right (Int.natCast_nonneg millis)
  obtain ⟨start, low, consecutive⟩ := leased.consecutive
  obtain ⟨middle, before, expires, last⟩ := consecutive_append.mp consecutive
  have now : middle + copy.elapsed = clock := last
  obtain ⟨apart, -, lastApart⟩ := List.pairwise_append.mp leased.apart
  constructor
  · refine ⟨start, low, consecutive_append.mpr ⟨middle, before, expires, ?_⟩⟩
    change middle + ((copy.elapsed + millis : Nat) : Int) = clock + millis
    rw [← now, Nat.cast_add, add_assoc]
  · exact high
  · intro other mem
    rcases List.mem_append.mp mem with earlier | current
    · exact leased.drawn other (List.mem_append_left _ earlier)
    · cases List.mem_singleton.mp current
      exact leased.drawn copy (List.mem_append_right _ List.mem_cons_self)
  · intro other mem live
    rcases List.mem_append.mp mem with earlier | current
    · exact leased.backed other (List.mem_append_left _ earlier) (later.trans live)
    · cases List.mem_singleton.mp current
      exact leased.backed copy (List.mem_append_right _ List.mem_cons_self) (later.trans live)
  · refine List.pairwise_append.mpr ⟨?_, List.pairwise_singleton _ _, ?_⟩
    · exact apart.imp (fun old same => (old same).trans_le later)
    · intro earlier mem current new same
      cases List.mem_singleton.mp new
      exact (lastApart earlier mem copy List.mem_cons_self same).trans_le later

/-- A heartbeat that is due renews the lease of the last copy. -/
theorem Leased.beat {copy : Copied} (leased : Leased actor attempt s clock (copies ++ [copy]))
    (due : copy.elapsed = heartbeatMillis * (copy.beats + 1))
    : ∃ lease s',
        renewStaging copy.lease (clock.plusMillis stagingMillis) s = .ok (lease, s')
        ∧ Leased actor attempt s' clock
            (copies ++ [{ copy with lease := lease, beats := copy.beats + 1 }]) := by
  have here : copy ∈ copies ++ [copy] := List.mem_append_right _ List.mem_cons_self
  obtain ⟨row, stored, staged⟩ := leased.backed copy here (leased.last due.le)
  obtain ⟨lease, s', renewed⟩ :=
    renewStaging_staged stored staged (clock.plusMillis stagingMillis)
  obtain ⟨rfl, rfl⟩ := renewStaging_ok renewed
  obtain ⟨start, low, consecutive⟩ := leased.consecutive
  obtain ⟨middle, before, expires, last⟩ := consecutive_append.mp consecutive
  have now : middle + copy.elapsed = clock := last
  obtain ⟨apart, -, lastApart⟩ := List.pairwise_append.mp leased.apart
  refine ⟨_, _, renewed, ?_⟩
  constructor
  · refine ⟨start, low, consecutive_append.mpr ⟨middle, before, ?_, now⟩⟩
    rw [← now, due]
    norm_cast
  · exact leased.representable
  · intro other mem
    rcases List.mem_append.mp mem with earlier | current
    · exact leased.drawn other (List.mem_append_left _ earlier)
    · cases List.mem_singleton.mp current
      obtain ⟨ofActor, ofAttempt, owner⟩ := leased.drawn copy here
      exact ⟨ofActor, ofAttempt, owner⟩
  · intro other mem live
    rcases List.mem_append.mp mem with earlier | current
    · obtain ⟨kept, stored', under⟩ :=
        leased.backed other (List.mem_append_left _ earlier) live
      refine ⟨kept, Table.updateWhere_mem_of_not stored' (fun selected => ?_), under⟩
      have expired := lastApart other earlier copy List.mem_cons_self
        (under.1.symm.trans selected.1)
      exact absurd live (not_le.mpr expired)
    · cases List.mem_singleton.mp current
      refine ⟨_, Table.updateWhere_mem_of stored staged.renewedBy, ?_⟩
      obtain ⟨id, ofActor, ofAttempt, state, owner, -⟩ := staged
      exact ⟨id, ofActor, ofAttempt, state, owner, rfl⟩
  · refine List.pairwise_append.mpr ⟨apart, List.pairwise_singleton _ _, ?_⟩
    intro earlier mem current new same
    cases List.mem_singleton.mp new
    exact lastApart earlier mem copy List.mem_cons_self same

-----------------------------------------------------------------------------------------
-- Runs
-----------------------------------------------------------------------------------------

/-- No heartbeat has failed, and the leases are as they should be. -/
structure StageRun.Sound (actor : ActorId) (attempt : AttemptId) (x : StageRun) : Prop where
  alive : x.failure = none
  due : ∀ copy ∈ x.copying, copy.elapsed ≤ heartbeatMillis * (copy.beats + 1)
  leased : Leased actor attempt x.store x.clock x.copies

theorem StageRun.copies_of_none (idle : x.copying = none) : x.copies = x.prepared := by
  rw [copies, idle, Option.toList_none, List.append_nil]

theorem StageRun.copies_of_some {copy : Copied} (copying : x.copying = some copy)
    : x.copies = x.prepared ++ [copy] := by
  rw [copies, copying, Option.toList_some]

/-- A change of the store that leaves the rows of live leases keeps the invariant. -/
theorem StageRun.Sound.store (sound : x.Sound actor attempt)
    (kept
      : ∀ copy ∈ x.copies, x.clock ≤ copy.lease.expiresAt → ∀ row ∈ x.store.artifacts,
          StagedUnder copy.lease attempt row → row ∈ s.artifacts)
    : StageRun.Sound actor attempt { x with store := s } :=
  ⟨sound.alive, sound.due, sound.leased.kept kept⟩

/-- A call of another execution that leaves the rows of live leases keeps the invariant. -/
theorem StageRun.Sound.after {α : Type} (sound : x.Sound actor attempt)
    {result : Except StoreError (α × Store)}
    (kept
      : ∀ a s, result = .ok (a, s) → ∀ copy ∈ x.copies, x.clock ≤ copy.lease.expiresAt →
          ∀ row ∈ x.store.artifacts, StagedUnder copy.lease attempt row → row ∈ s.artifacts)
    : (x.after result).Sound actor attempt := by
  rcases answered : result with error | ⟨a, s⟩
  · exact sound
  · exact sound.store (kept a s answered)

/-- Every call keeps the invariant, by cases on the call. -/
theorem StageRun.Sound.step (sound : x.Sound actor attempt)
    (taken : x.perform actor attempt call = some y)
    : y.Sound actor attempt := by
  cases call with
  | beginCopy id path size owner =>
      simp only [perform] at taken
      split at taken
      · cases taken
      · rename_i free
        have idle : x.copying = none := by
          simpa using fun busy => free (Or.inl busy)
        split at taken
        · rename_i lease s begun
          cases taken
          have leased := sound.leased
          rw [copies_of_none idle] at leased
          refine ⟨sound.alive, fun copy copying => ?_, leased.beginCopy begun⟩
          cases copying
          exact Nat.zero_le _
        · cases taken
  | elapse millis =>
      simp only [perform] at taken
      split at taken
      · rename_i copy copying
        split at taken
        · rename_i within
          cases taken
          have leased := sound.leased
          rw [copies_of_some copying] at leased
          refine ⟨sound.alive, fun copy copying => ?_, leased.elapse millis within.2⟩
          cases copying
          exact within.1
        · cases taken
      · cases taken
  | beat =>
      simp only [perform] at taken
      split at taken
      · rename_i copy copying
        split at taken
        · rename_i due
          have leased := sound.leased
          rw [copies_of_some copying] at leased
          obtain ⟨lease, s, renewed, next⟩ := leased.beat due
          rw [renewed] at taken
          cases taken
          refine ⟨sound.alive, fun copy copying => ?_, next⟩
          cases copying
          simp only [due]
          exact Nat.mul_le_mul_left _ (Nat.le_succ _)
        · cases taken
      · cases taken
  | finishCopy =>
      simp only [perform] at taken
      split at taken
      · rename_i copy copying
        cases taken
        have leased := sound.leased
        rw [copies_of_some copying] at leased
        refine ⟨sound.alive, fun copy copying => ?_, ?_⟩
        · cases copying
        · rwa [← List.append_nil (x.prepared ++ [copy])] at leased
      · cases taken
  | claimExpired collector now limit =>
      simp only [perform] at taken
      split at taken
      · rename_i past
        cases taken
        refine sound.store (fun copy _ live row stored staged => ?_)
        refine mem_claimExpiredStaging stored ?_
        rintro ⟨-, expiresAt, expires, lapsed⟩
        cases Option.some.inj (staged.2.2.2.2.2.symm.trans expires)
        exact absurd (lapsed.trans_le past) (not_lt.mpr live)
      · cases taken
  | renewClaim collector id now extended =>
      cases taken
      exact sound.store (fun copy mem _ row stored staged =>
        mem_renewGcClaim stored ((sound.leased.drawn copy mem).unclaimed staged))
  | completeClaimed collector id =>
      cases taken
      exact sound.store (fun copy mem _ row stored staged =>
        mem_completeClaimedStaging stored ((sound.leased.drawn copy mem).unclaimed staged))
  | beginOther command =>
      cases taken
      refine sound.after (fun lease s begun copy _ _ row stored _ => ?_)
      obtain ⟨-, -, _, -, rows⟩ := beginStaging_ok begun
      exact (rows row).mpr (Or.inl stored)
  | renewOther lease extended =>
      simp only [perform] at taken
      split at taken
      · cases taken
      · rename_i other
        cases taken
        refine sound.after (fun lease' s renewed copy mem _ row stored staged => ?_)
        obtain ⟨-, rfl⟩ := renewStaging_ok renewed
        refine Table.updateWhere_mem_of_not stored (fun selected => ?_)
        exact other ⟨copy, mem, staged.1.symm.trans selected.1⟩
  | commitOther files run ofAttempt execution leases now =>
      simp only [perform] at taken
      split at taken
      · cases taken
      · rename_i others
        cases taken
        refine sound.after (fun u s committed copy mem _ row stored staged => ?_)
        refine (commitStagedExecution_frame committed (fun lease held same => ?_)).mpr stored
        exact others ⟨lease, held, copy, mem, staged.1.symm.trans same⟩
  | elsewhere tables =>
      cases taken
      exact sound.store (fun _ _ _ _ stored _ => stored)

/-- The invariant holds in every reachable state, by induction on the run. -/
theorem staging_sound (reached : (staging actor attempt).Reachable x)
    : x.Sound actor attempt := by
  refine System.Reachable.invariant (fun x start => ?_)
    (fun x call y _ (sound : x.Sound actor attempt) taken => sound.step taken) reached
  obtain ⟨prepared, copying, failure, low, high⟩ := start
  have none : x.copies = [] := by rw [StageRun.copies_of_none copying, prepared]
  refine ⟨failure, fun copy busy => ?_, ⟨x.clock, low, ?_⟩, high, ?_, ?_, ?_⟩
  · rw [copying] at busy
    cases busy
  · rw [none]
    exact rfl
  all_goals rw [none]
  · exact fun copy mem => absurd mem List.not_mem_nil
  · exact fun copy mem => absurd mem List.not_mem_nil
  · exact .nil

-----------------------------------------------------------------------------------------
-- The commit
-----------------------------------------------------------------------------------------

/-- The artifacts lie at paths that their contents name: a row at the path of one of them holds
its content, and the other way round.
-/
structure Canonical (s : Store) (actor : ActorId) (artifacts : List ManagedArtifact) : Prop where
  stored
    : ∀ artifact ∈ artifacts, ∀ row ∈ s.artifacts,
        row.managedPath = artifact.managedPath ↔ Holds actor artifact row
  named
    : ∀ a ∈ artifacts, ∀ b ∈ artifacts,
        a.managedPath = b.managedPath ↔ a.sha256 = b.sha256 ∧ a.size = b.size

/-- A lease under which an artifact is committed. -/
structure Presentable (s : Store) (run : AttachedRun) (attempt : AttemptId) (now : Timestamp)
    (artifact : ManagedArtifact) (lease : ArtifactLease) : Prop where
  own : artifact.id = lease.id
  ofActor : lease.actorId = run.lease.actorId
  ofAttempt : lease.attemptId = attempt
  live : now ≤ lease.expiresAt
  staged : StagedLease s attempt lease

def quotaExceeded : StoreError := .rejected "actor retained artifact quota exceeds 2 GiB"

variable {run : AttachedRun} {now : Timestamp} {artifact : ManagedArtifact}
  {artifacts rest : List ManagedArtifact} {lease : ArtifactLease}

/-- Under such a lease only the quota refuses an artifact. -/
theorem commitArtifact_refused {error : StoreError}
    (canonical : Canonical s run.lease.actorId (artifact :: rest))
    (presentable : Presentable s run attempt now artifact lease)
    (refused : commitArtifact run attempt now artifact lease s = .error error)
    : error = quotaExceeded := by
  obtain ⟨own, ofActor, ofAttempt, live, staged⟩ := presentable
  have stored := canonical.stored artifact List.mem_cons_self
  simp only [commitArtifact, bind_eq_error, require_eq_error, require_eq_ok] at refused
  rcases refused with ⟨invalid, -⟩ | ⟨-, -, ⟨stale, -⟩ | ⟨-, -, refused⟩⟩
  · exact absurd ⟨own, ofActor, ofAttempt, live⟩ invalid
  · exact absurd staged stale
  · split at refused
    · rename_i existing found
      obtain ⟨mem, holds⟩ := Table.find?_some found
      rw [ofActor] at holds
      simp only [bind_eq_error, require_eq_error, require_eq_ok] at refused
      rcases refused with ⟨elsewhere, -⟩ | ⟨-, -, whole⟩
      · exact absurd ((stored existing mem).mpr holds) elsewhere
      · cases whole
    · rename_i missing
      simp only [bind_eq_error, require_eq_error, require_eq_ok, execute_eq_error] at refused
      rcases refused with ⟨-, quota⟩ | ⟨-, -, ⟨unwritten, -⟩ | ⟨_, -, whole⟩⟩
      · exact quota
      · -- the path is free, since no row holds the content
        have free : ∀ row ∈ s.artifacts, row.managedPath ≠ artifact.managedPath := by
          intro row mem same
          have holds := (stored row mem).mp same
          rw [← ofActor] at holds
          exact Table.find?_eq_none.mp missing row mem holds
        obtain ⟨written, updated⟩ := Table.updateUnique?_total (t := s.artifacts)
          (p := fun row => row.id = lease.id ∧ row.state = .staging)
          (f := fun row =>
            { row with
              state := .referenced
              attemptId := none
              managedPath := artifact.managedPath
              sizeBytes := artifact.size
              sha256 := some artifact.sha256
              stagingOwner := none
              stagingExpiresAt := none })
          (fun _ _ first second => Or.inl (first.1.trans second.1.symm)) (by
            rintro row mem selected other otherMem unselected (same | same)
            · have alike := Table.eq_of_clash mem otherMem (Or.inl same)
              rw [alike] at selected
              exact unselected selected
            · exact free other otherMem same.symm)
        rw [updated] at unwritten
        cases unwritten
      · cases whole

/-- The paths of the other artifacts stay canonical. -/
theorem ArtifactCommitted.canonical {artifact' : ManagedArtifact}
    (committed : ArtifactCommitted s now artifact lease artifact' s')
    (canonical : Canonical s lease.actorId (artifact :: rest))
    (staged : StagedLease s attempt lease)
    : Canonical s' lease.actorId rest := by
  have named := fun b (mem : b ∈ rest) =>
    canonical.named artifact List.mem_cons_self b (List.mem_cons_of_mem _ mem)
  have stored := fun b (mem : b ∈ rest) => canonical.stored b (List.mem_cons_of_mem _ mem)
  refine ⟨fun b mem row kept => ?_, fun a memA b memB =>
    canonical.named a (List.mem_cons_of_mem _ memA) b (List.mem_cons_of_mem _ memB)⟩
  cases committed with
  | shared found path => exact stored b mem row (Table.mem_deleteWhere.mp kept).1
  | retained missing within updated =>
      obtain ⟨before, beforeMem, rfl⟩ := (Table.mem_updateUnique? updated).mp kept
      by_cases selected : before.id = lease.id ∧ before.state = .staging
      · rw [if_pos selected]
        obtain ⟨own, ownMem, under⟩ := staged
        have same := Table.eq_of_clash beforeMem ownMem
          (Or.inl (selected.1.trans under.1.symm))
        simp only [Holds, Option.some.injEq, true_and, same, under.2.1]
        exact named b mem
      · rw [if_neg selected]
        exact stored b mem before beforeMem

/-- Leases of different artifacts stay presentable while one of them is committed. -/
theorem ArtifactCommitted.presentable {artifact' other : ManagedArtifact} {otherLease : ArtifactLease}
    (committed : ArtifactCommitted s now artifact lease artifact' s')
    (apart : otherLease.id ≠ lease.id)
    (presentable : Presentable s run attempt now other otherLease)
    : Presentable s' run attempt now other otherLease := by
  obtain ⟨row, stored, staged⟩ := presentable.staged
  have kept : row ∈ s'.artifacts :=
    (committed.frame (fun same => apart (staged.1.symm.trans same))).mpr stored
  exact { presentable with staged := ⟨row, kept, staged⟩ }

/-- Under such leases only the quota refuses an execution's artifacts, by induction on them. -/
theorem commitArtifacts_refused {leases : List ArtifactLease} {error : StoreError}
    (canonical : Canonical s run.lease.actorId artifacts)
    (presentable : List.Forall₂ (Presentable s run attempt now) artifacts leases)
    (apart : leases.Pairwise (fun a b => a.id ≠ b.id))
    (refused : commitArtifacts run attempt now artifacts leases s = .error error)
    : error = quotaExceeded := by
  induction artifacts generalizing leases s with
  | nil => cases refused
  | cons artifact rest ih =>
      cases presentable with
      | @cons _ lease _ leases first later =>
          obtain ⟨others, apart⟩ := List.pairwise_cons.mp apart
          simp only [commitArtifacts, bind_eq_error, Prod.exists] at refused
          rcases refused with failed | ⟨artifact', middle, done, failed | ⟨_, _, -, whole⟩⟩
          · exact commitArtifact_refused canonical first failed
          · obtain ⟨-, ofActor, staged, committed⟩ := commitArtifact_ok done
            rw [← ofActor] at canonical
            have next := committed.canonical canonical staged
            rw [ofActor] at next
            refine ih next ?_ apart failed
            refine List.forall₂_iff_get.mpr ⟨later.length_eq, fun i here there => ?_⟩
            exact committed.presentable
              (fun same => others _ (List.get_mem leases ⟨i, there⟩) same.symm)
              (later.get here there)
          · cases whole

/-- Under such leases a commit is refused for the lease of the actor, the quota, or the state of
the attempt.
-/
theorem commitStagedExecution_refused {files : String → Except String FileMetadata}
    {observation : String} {leases : List ArtifactLease} {error : StoreError}
    (durable : requireDurable files artifacts = .ok ())
    (canonical : Canonical s run.lease.actorId artifacts)
    (presentable : List.Forall₂ (Presentable s run attempt now) artifacts leases)
    (apart : leases.Pairwise (fun a b => a.id ≠ b.id))
    (refused
      : commitStagedExecution files run attempt ⟨observation, artifacts⟩ leases now s
        = .error error)
    : error = .rejected "stale actor lease" ∨ error = quotaExceeded
      ∨ error = .rejected "attempt is not running" := by
  simp only [commitStagedExecution, bind_eq_error, require_eq_error, require_eq_ok, durable,
    Prod.exists] at refused
  rcases refused with failed | ⟨-, -, ⟨-, stale⟩ | ⟨-, -, failed | ⟨committed, middle, done, rest⟩⟩⟩
  · cases failed
  · exact Or.inl stale
  · exact Or.inr (Or.inl (commitArtifacts_refused canonical presentable apart failed))
  · rcases rest with ⟨counted, -⟩ | ⟨-, -, ⟨-, running⟩ | ⟨-, -, whole⟩⟩
    · exact absurd ((commitArtifacts_length done).trans presentable.length_eq) counted
    · exact Or.inr (Or.inr running)
    · cases whole

-----------------------------------------------------------------------------------------
-- The leases at the commit
-----------------------------------------------------------------------------------------

/-- Every lease of the execution can be presented: it has not run out and its row is stored. -/
def StageRun.Intact (attempt : AttemptId) (x : StageRun) : Prop :=
  ∀ copy ∈ x.prepared,
    x.clock ≤ copy.lease.expiresAt ∧ StagedLease x.store attempt copy.lease

/-- The leases of the copies are presentable, by induction on the copies. -/
theorem presentable_leases {copies : List Copied}
    (drawn : ∀ copy ∈ copies, Drawn run.lease.actorId attempt copy.lease)
    (intact
      : ∀ copy ∈ copies, now ≤ copy.lease.expiresAt ∧ StagedLease s attempt copy.lease)
    (named : artifacts.map (·.id) = copies.map (·.lease.id))
    : List.Forall₂ (Presentable s run attempt now) artifacts (copies.map (·.lease)) := by
  induction copies generalizing artifacts with
  | nil =>
      rw [List.map_eq_nil_iff.mp named]
      exact .nil
  | cons copy later ih =>
      cases artifacts with
      | nil => cases named
      | cons artifact rest =>
          obtain ⟨own, named⟩ := List.cons_eq_cons.mp named
          obtain ⟨live, staged⟩ := intact copy List.mem_cons_self
          have ofLease := drawn copy List.mem_cons_self
          exact .cons ⟨own, ofLease.actor, ofLease.attempt, live, staged⟩
            (ih (fun copy mem => drawn copy (List.mem_cons_of_mem _ mem))
              (fun copy mem => intact copy (List.mem_cons_of_mem _ mem)) named)

/-- **Leases outlive the staging exactly if each artifact is copied, from its last heartbeat, and
all later ones after it within 30 s.** No heartbeat fails. If the leases outlive the staging, a
commit of durable artifacts is refused for the lease of the actor, the quota, or the state of the
attempt alone.
-/
theorem leases_outlive_timely_staging (reached : (staging actor attempt).Reachable x)
    (copied : x.copying = none)
    : x.failure = none
      ∧ (x.Intact attempt ↔ Timely x.prepared)
      ∧ (Timely x.prepared →
          ∀ files run observation (artifacts : List ManagedArtifact) error,
            run.lease.actorId = actor →
            artifacts.map (·.id) = x.prepared.map (·.lease.id) →
            requireDurable files artifacts = .ok () →
            Canonical x.store actor artifacts →
            commitStagedExecution files run attempt ⟨observation, artifacts⟩
              (x.prepared.map (·.lease)) x.clock x.store = .error error →
            error = .rejected "stale actor lease" ∨ error = quotaExceeded
              ∨ error = .rejected "attempt is not running") := by
  have sound := staging_sound reached
  have leased := sound.leased
  rw [StageRun.copies_of_none copied] at leased
  obtain ⟨start, low, consecutive⟩ := leased.consecutive
  have live := consecutive.live_iff low leased.representable
  have intact : x.Intact attempt ↔ Timely x.prepared := by
    rw [← live]
    exact ⟨fun all copy mem => (all copy mem).1,
      fun all copy mem => ⟨all copy mem, leased.backed copy mem (all copy mem)⟩⟩
  refine ⟨sound.alive, intact, fun timely => ?_⟩
  intro files run observation artifacts error ofActor named durable canonical refused
  subst ofActor
  have whole := intact.mpr timely
  have presentable : List.Forall₂ (Presentable x.store run attempt x.clock) artifacts
      (x.prepared.map (·.lease)) :=
    presentable_leases leased.drawn whole named
  have apart : (x.prepared.map (·.lease)).Pairwise (fun a b => a.id ≠ b.id) := by
    refine List.pairwise_map.mpr (leased.apart.imp_of_mem (fun {a b} mem _ expires same => ?_))
    exact absurd (whole a mem).1 (not_le.mpr (expires same))
  exact commitStagedExecution_refused durable canonical presentable apart refused

namespace TwoCopies

def owner : ActorId := ⟨"owner"⟩

def running : AttemptId := ⟨1⟩

def attached : AttachedRun :=
  ⟨⟨owner, "daemon", 1, 100000⟩, ⟨1⟩, ⟨1⟩, 1, [⟨1⟩], [], .actorPrivate, none, .actorTools, none, []⟩

/-- An attempt that runs under a live lease of the actor. -/
def tables : Store :=
  { Store.initial ⟨[⟨owner, true, 0⟩], List.pairwise_singleton _ _⟩ ∅ with
    actorLeases := ⟨[⟨owner, 1, "daemon", 100000⟩], List.pairwise_singleton _ _⟩
    runs :=
      ⟨[⟨⟨1⟩, owner, ⟨1⟩, .active, 1, 1, .actorTools, none, none, 0⟩],
        List.pairwise_singleton _ _⟩
    toolAttempts :=
      ⟨[⟨running, ⟨1⟩, "call-1", "file", "null", ⟨false, false, false, false, false, false⟩,
          .running, none, false, 0⟩],
        List.pairwise_singleton _ _⟩ }

def start : StageRun := ⟨tables, 0, [], none, none⟩

/-- Two small artifacts. -/
def prompt : List StageCall :=
  [.beginCopy ⟨10⟩ "a.partial" 1 1, .elapse 5, .finishCopy,
    .beginCopy ⟨11⟩ "b.partial" 1 2, .elapse 7, .finishCopy]

/-- A small artifact and one that takes a little over half a minute. -/
def slow : List StageCall :=
  [.beginCopy ⟨10⟩ "a.partial" 1 1, .finishCopy, .beginCopy ⟨11⟩ "b.partial" 1 2,
    .elapse 10000, .beat, .elapse 10000, .beat, .elapse 10000, .beat, .elapse 1, .finishCopy]

def first : ManagedArtifact := ⟨⟨10⟩, "a", "a", "text/plain", 1, "aa", none⟩

def second : ManagedArtifact := ⟨⟨11⟩, "b", "b", "text/plain", 1, "bb", none⟩

def commit (x : StageRun) : Except StoreError (Unit × Store) :=
  commitStagedExecution (fun _ => .ok ⟨true, 1⟩) attached running ⟨"done", [first, second]⟩
    (x.prepared.map (·.lease)) x.clock x.store

def play (calls : List StageCall) : Option StageRun :=
  calls.foldlM (StageRun.perform owner running) start

theorem reachable_play {calls : List StageCall} {x : StageRun} (played : play calls = some x)
    : (staging owner running).Reachable x :=
  System.Reachable.foldlM (fun _ _ _ taken => taken)
    (.initial ⟨rfl, rfl, rfl, by decide, by decide⟩) played

end TwoCopies

theorem leases_outlive_timely_staging_prompt
    : ∃ x, TwoCopies.play TwoCopies.prompt = some x ∧ x.Intact TwoCopies.running := by
  have plays : (TwoCopies.play TwoCopies.prompt).any
      (fun x => x.copying.isNone && decide (Timely x.prepared)) = true := by
    decide +kernel
  obtain ⟨x, played, ended⟩ := (Option.any_eq_true _ _).mp plays
  obtain ⟨copied, timely⟩ := Bool.and_eq_true_iff.mp ended
  exact ⟨x, played, (leases_outlive_timely_staging (TwoCopies.reachable_play played)
    (Option.isNone_iff_eq_none.mp copied)).2.1.mpr (of_decide_eq_true timely)⟩

/-- The lease of an artifact runs out while a later one is copied, however regularly the heartbeat
beats, and the commit is refused.
-/
theorem leases_do_not_outlive_slow_staging
    : ∃ x, (staging TwoCopies.owner TwoCopies.running).Reachable x ∧ x.copying = none
      ∧ ¬x.Intact TwoCopies.running
      ∧ ∃ error, TwoCopies.commit x = .error error
        ∧ error = .rejected "invalid artifact staging lease" := by
  have plays : (TwoCopies.play TwoCopies.slow).any
      (fun x => x.copying.isNone
        && x.prepared.any (fun copy => decide (copy.lease.expiresAt < x.clock))
        && match TwoCopies.commit x with
          | .error error => decide (error = .rejected "invalid artifact staging lease")
          | .ok _ => false) = true := by
    decide +kernel
  obtain ⟨x, played, ended⟩ := (Option.any_eq_true _ _).mp plays
  simp only [Bool.and_eq_true, List.any_eq_true, decide_eq_true_eq] at ended
  obtain ⟨⟨copied, copy, mem, expired⟩, refused⟩ := ended
  refine ⟨x, TwoCopies.reachable_play played, Option.isNone_iff_eq_none.mp copied, ?_, ?_⟩
  · exact fun intact => absurd (intact copy mem).1 (not_le.mpr expired)
  · split at refused
    · rename_i error failed
      exact ⟨error, failed, of_decide_eq_true refused⟩
    · cases refused

end Codrik.Runtime.Sqlite

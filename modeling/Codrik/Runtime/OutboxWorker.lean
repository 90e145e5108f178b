import Codrik.Collections.Places
import Codrik.Runtime.Ipc.Protocol
import Codrik.Runtime.Sqlite.BundleProtocol

/-! The worker that delivers result bundles to their subscribers (`runtime/outbox_worker.rs`): it
claims bundles in batches and transmits those of a batch at the same time, while others call the
store, subscribers come and go, and the clock shows what it likes.
-/

namespace Codrik.Runtime.OutboxWorker

open Codrik.Relational
open Codrik.Runtime.Ipc
open Codrik.Runtime.Sqlite
open Codrik.Transition

-----------------------------------------------------------------------------------------
-- Transmissions
-----------------------------------------------------------------------------------------

def claimMillis : Int := 30000

def claimBatch : Nat := 32

def transmissionConcurrency : Nat := 4

def globalCanonicalMemoryBytes : Nat := 64 * 1024 * 1024

def maxTransmissionReservationBytes : Nat := 2 * maxBundleBytes

/-- `retry_delay_seconds` -/
def retryDelaySeconds : Nat → Int
  | 0 | 1 => 1
  | 2 => 2
  | 3 => 4
  | 4 => 8
  | _ => 30

/-- The display of the error. -/
def limitText : BundleLimitError → String
  | .deliveryCount actual maximum => s!"bundle has {actual} deliveries; maximum is {maximum}"
  | .textBytes actual maximum => s!"text has {actual} UTF-8 bytes; maximum is {maximum}"
  | .decodedBundleBytes actual maximum =>
      s!"bundle has {actual} decoded canonical bytes; maximum is {maximum}"
  | .manifestBytes actual maximum => s!"manifest has {actual} bytes; maximum is {maximum}"
  | .encodedFrameBytes actual maximum => s!"encoded frame has {actual} bytes; maximum is {maximum}"

/-- How far the transmission of a claimed bundle is: waiting for a slot, then for memory, about to
renew its claim, about to load the bundle, with the bundle, sending to the recipients, about to
look at the bundle after the claim was lost, waiting for an acknowledgement, about to look again,
about to put the delivery off, about to look once more, or at its end.
-/
inductive Phase
  | queued
  | reserving
  | renewing
  | loading
  | preparing (bundle : ResultBundle)
  | sending
  | checking
  | awaiting
  | checkingAck
  | retrying (error : String)
  | settling
  | returned
  | failed

/-- Where a transmission goes when it renews its claim. -/
def Phase.renewed? : Phase → Option Phase
  | .queued => some .queued
  | .reserving => some .reserving
  | .renewing => some .loading
  | .sending => some .sending
  | .awaiting => some .awaiting
  | _ => none

/-- Where a transmission goes when it finds its claim lost as it renews it. -/
def Phase.fenced? : Phase → Option Phase
  | .queued | .reserving | .renewing => some .returned
  | .sending => some .checking
  | .awaiting => some .checkingAck
  | _ => none

/-- Permits of the two semaphores: of the transmissions, and of the bytes in memory. -/
structure Permits where
  slots : Nat
  memory : Nat

def Permits.all : Permits := ⟨transmissionConcurrency, globalCanonicalMemoryBytes⟩

/-- Permits are taken from the free ones and given back to them. -/
structure Permits.Exchange (free held free' held' : Permits) : Prop where
  slots : free'.slots + held'.slots = free.slots + held.slots
  memory : free'.memory + held'.memory = free.memory + held.memory

/-- The permits a transmission holds. -/
def Phase.permits : Phase → Permits
  | .queued | .returned | .failed => ⟨0, 0⟩
  | .reserving => ⟨1, 0⟩
  | _ => ⟨1, maxTransmissionReservationBytes⟩

/-- How far the replay of a delivered bundle is: waiting for a slot, then for memory, sending to
the one that asked for it, or at its end.
-/
inductive Replay
  | queued
  | reserving
  | sending
  | ended

def Replay.permits : Replay → Permits
  | .queued | .ended => ⟨0, 0⟩
  | .reserving => ⟨1, 0⟩
  | .sending => ⟨1, maxTransmissionReservationBytes⟩

/-- `replay`, with an error or the caller's disappearance at any point -/
inductive Replay.Advances : Replay → Replay → Prop
  | reserves : Advances .queued .reserving
  | sends : Advances .reserving .sending
  | ends (replay : Replay) : Advances replay .ended

structure Transmission where
  claimed : ClaimedBundleRef
  phase : Phase

def Transmission.goes (t : Transmission) (phase : Phase) : Transmission :=
  { t with phase := phase }

def Transmission.renewed (t : Transmission) (claim : BundleClaim) : Transmission :=
  { t with claimed := { t.claimed with claim := claim } }

/-- `load_bundle_state` -/
def loadBundleState (id : BundleId) (s : Store) : Option BundleState :=
  (s.resultBundles.find? (·.id = id)).map (·.state)

section Worker

variable (sha256 : List UInt8 → String) (owner : String)

/-- What a transmission does next, when the clock shows the given time. -/
inductive Advances (s : Store) (now : Timestamp) (t : Transmission)
    : Store → Transmission → Prop
  | renews {claim next s'} (here : t.phase.renewed? = some next)
      (answered : renewBundle t.claimed.claim now (now.plusMillis claimMillis) s
        = .ok (.renewed claim, s'))
    : Advances s now t s' ((t.renewed claim).goes next)
  | fenced {lost s'} (here : t.phase.fenced? = some lost)
      (answered : renewBundle t.claimed.claim now (now.plusMillis claimMillis) s
        = .ok (.fenced, s'))
    : Advances s now t s' (t.goes lost)
  -- `await_transmission_slot`
  | takesSlot (here : t.phase = .queued) : Advances s now t s (t.goes .reserving)
  | takesMemory (here : t.phase = .reserving) : Advances s now t s (t.goes .renewing)
  | loads {bundle s'} (here : t.phase = .loading)
      (answered : loadClaimedBundle t.claimed.claim now s = .ok (.loaded bundle, s'))
    : Advances s now t s' (t.goes (.preparing bundle))
  | skips {load s'} (here : t.phase = .loading) (missing : ∀ bundle, load ≠ .loaded bundle)
      (answered : loadClaimedBundle t.claimed.claim now s = .ok (load, s'))
    : Advances s now t s' (t.goes .returned)
  -- `prepare_and_transmit`
  | rejects {bundle error s'} (here : t.phase = .preparing bundle)
      (unfit : prepareBundle sha256 bundle false = .error error)
      (answered : failBundleTerminal t.claimed.claim (limitText error) now s = .ok ((), s'))
    : Advances s now t s' (t.goes .returned)
  -- `transmit`
  | misses {bundle prepared} (here : t.phase = .preparing bundle)
      (fit : prepareBundle sha256 bundle false = .ok prepared)
    : Advances s now t s (t.goes (.retrying "all bundle subscribers disconnected"))
  | sends {bundle prepared} (here : t.phase = .preparing bundle)
      (fit : prepareBundle sha256 bundle false = .ok prepared)
    : Advances s now t s (t.goes .sending)
  | checks {state} (here : t.phase = .checking)
      (read : loadBundleState t.claimed.claim.bundleId s = some state)
    : Advances s now t s (t.goes (if state = .delivered then .sending else .returned))
  | breaks (here : t.phase = .sending)
    : Advances s now t s (t.goes (.retrying "every bundle subscriber failed"))
  | sent (here : t.phase = .sending)
    : Advances s now t s (t.goes .awaiting)
  -- `wait_for_ack`: the time is over, or no recipient is subscribed any more
  | lapses (here : t.phase = .awaiting)
    : Advances s now t s (t.goes (.retrying "bundle acknowledgement deadline elapsed"))
  | delivered (here : t.phase = .awaiting)
      (read : loadBundleState t.claimed.claim.bundleId s = some .delivered)
    : Advances s now t s (t.goes .returned)
  | checksAck {state} (here : t.phase = .checkingAck)
      (read : loadBundleState t.claimed.claim.bundleId s = some state)
    : Advances s now t s (t.goes .returned)
  -- `retry`
  | retries {error s'} (here : t.phase = .retrying error)
      (answered : failBundleRetryable t.claimed.claim error
        (now.plusMillis (retryDelaySeconds t.claimed.attemptCount * 1000)) now s
          = .ok (.applied, s'))
    : Advances s now t s' (t.goes .returned)
  | loses {error s'} (here : t.phase = .retrying error)
      (answered : failBundleRetryable t.claimed.claim error
        (now.plusMillis (retryDelaySeconds t.claimed.attemptCount * 1000)) now s
          = .ok (.fenced, s'))
    : Advances s now t s' (t.goes .settling)
  | settles {state} (here : t.phase = .settling)
      (read : loadBundleState t.claimed.claim.bundleId s = some state)
    : Advances s now t s (t.goes .returned)
  -- an error of the store
  | fails (running : t.phase ≠ .returned)
    : Advances s now t s (t.goes .failed)

-----------------------------------------------------------------------------------------
-- The worker
-----------------------------------------------------------------------------------------

/-- The store, the latest time the worker has read, the transmissions of its batch, the replays
that were asked for, and the free permits.
-/
structure World where
  store : Store
  latest : Timestamp
  batch : List Transmission
  replays : List Replay
  free : Permits

inductive Act
  | call | claim | transmit | join | ask | replay

inductive Step (w : World) : Act → World → Prop
  -- others call the store, under names of their own
  | calls {call : Call} {answer : Answer} {s'} (performed : call.perform w.store = .ok (answer, s'))
      (others : ∀ claim ∈ answer.handsOut, claim.owner ≠ owner)
    : Step w .call { w with store := s' }
  -- `run_once`, which ends in an error when a transmission does
  | claims {requests now refs s'} (idle : w.batch = []) (subscribed : requests ≠ [])
      (answered : claimReadyBundleRefs owner requests now (now.plusMillis claimMillis) claimBatch
        w.store = .ok (refs, s'))
    : Step w .claim
        { w with store := s', latest := max w.latest now, batch := refs.map (⟨·, .queued⟩) }
  | transmits {i t now s' t' free} (here : w.batch[i]? = some t)
      (advances : Advances sha256 w.store now t s' t')
      (permits : w.free.Exchange t.phase.permits free t'.phase.permits)
    : Step w .transmit
        { w with
          store := s', latest := max w.latest now, batch := w.batch.set i t', free := free }
  | joins (done : ∀ t ∈ w.batch, t.phase = .returned)
    : Step w .join { w with batch := [] }
  -- `resolve_replay_bundle` finds a bundle
  | asks : Step w .ask { w with replays := w.replays ++ [.queued] }
  | replays {i replay replay' free} (here : w.replays[i]? = some replay)
      (advances : replay.Advances replay')
      (permits : w.free.Exchange replay.permits free replay'.permits)
    : Step w .replay { w with replays := w.replays.set i replay', free := free }

/-- The worker starts under a name that no claim was made under. -/
def worker : System World Act where
  Initial w := w.batch = [] ∧ w.replays = [] ∧ w.free = .all
    ∧ ∀ bundle ∈ w.store.resultBundles, bundle.claimOwner ≠ some owner
  Step := Step sha256 owner

end Worker

-----------------------------------------------------------------------------------------
-- What the worker's calls do to its claims
-----------------------------------------------------------------------------------------

section Claims

variable {s s' : Store} {claim other : BundleClaim} {now later : Timestamp}

theorem live_before (live : claim.Live s later) (le : now ≤ later) : claim.Live s now := by
  obtain ⟨bundle, stored, id, state, owner, expiry, current⟩ := live
  exact ⟨bundle, stored, id, state, owner, expiry, lt_of_le_of_lt le current⟩

theorem count_of_live (live : claim.Live s now)
    : s.resultBundles.count (ClaimedBy claim now) = 1 := by
  obtain ⟨bundle, stored, claimed⟩ := live
  exact Table.count_eq_one stored claimed (fun a b here there => Or.inl (here.1.trans there.1.symm))

/-- An update that ends the delivery of the claimed bundle ends the claim. -/
theorem not_live_updateWhere {p : BundleRow → Prop} [DecidablePred p] {f : BundleRow → BundleRow}
    {k : Table.KeepsKey f} (touched : ∀ row, ClaimedBy claim now row → p row)
    (closed : ∀ row, (f row).state ≠ .delivering)
    : ¬claim.Live { s with resultBundles := s.resultBundles.updateWhere p f k } now := by
  rintro ⟨row, stored, claimed⟩
  obtain ⟨old, -, same⟩ := Table.mem_updateWhere.mp stored
  by_cases hit : p old
  · rw [if_pos hit] at same
    exact closed old (same ▸ claimed.2.1)
  · rw [if_neg hit] at same
    exact hit (touched old (same ▸ claimed))

theorem perform_renewBundle {expiry : Timestamp} {renewal : ClaimRenewal}
    (answered : renewBundle claim now expiry s = .ok (renewal, s'))
    : (BundleStep.renewBundle claim now expiry).perform s = .ok (.renewal renewal, s') := by
  simp only [BundleStep.perform, answered, bind, Except.bind]

theorem perform_loadClaimedBundle {load : ClaimedBundleLoad}
    (answered : loadClaimedBundle claim now s = .ok (load, s'))
    : (BundleStep.loadClaimedBundle claim now).perform s = .ok (.load load, s') := by
  simp only [BundleStep.perform, answered, bind, Except.bind]

theorem perform_failBundleRetryable {transition : ClaimTransition} {error : String}
    {next : Timestamp}
    (answered : failBundleRetryable claim error next now s = .ok (transition, s'))
    : (BundleStep.failBundleRetryable claim error next now).perform s
      = .ok (.transition transition, s') := by
  simp only [BundleStep.perform, answered, bind, Except.bind]

theorem perform_failBundleTerminal {error : String}
    (answered : failBundleTerminal claim error now s = .ok ((), s'))
    : (BundleStep.failBundleTerminal claim error now).perform s = .ok (.failed, s') := by
  simp only [BundleStep.perform, answered, bind, Except.bind]

theorem renewBundle_renewed {expiry : Timestamp}
    (answered : renewBundle claim now expiry s = .ok (.renewed other, s'))
    : other = { claim with expiresAt := expiry } ∧ other.Live s' now := by
  simp only [renewBundle, bind_eq_ok, require_eq_ok] at answered
  obtain ⟨-, future, answered⟩ := answered
  split at answered
  case isTrue one =>
    cases answered
    obtain ⟨row, stored, claimed⟩ : claim.Live s now := by
      by_contra dead
      exact count_claimedBy_of_not_live dead one
    refine ⟨rfl, { row with claimExpiresAt := some expiry }, ?_, claimed.1, claimed.2.1,
      claimed.2.2.1, rfl, future⟩
    exact Table.mem_updateWhere.mpr ⟨row, stored, if_pos claimed⟩
  case isFalse => cases answered

theorem renewBundle_fenced {expiry : Timestamp}
    (answered : renewBundle claim now expiry s = .ok (.fenced, s'))
    : ¬claim.Live s' now := by
  simp only [renewBundle, bind_eq_ok, require_eq_ok] at answered
  obtain ⟨-, -, answered⟩ := answered
  split at answered
  case isTrue => cases answered
  case isFalse lost =>
    cases answered
    exact fun live => lost (count_of_live live)

theorem loadBundleState_live {state : BundleState}
    (read : loadBundleState claim.bundleId s = some state) (live : claim.Live s now)
    : state = .delivering := by
  obtain ⟨row, stored, claimed⟩ := live
  have found : s.resultBundles.find? (·.id = claim.bundleId) = some row :=
    Table.find?_eq_some_of_unique stored claimed.1
      (fun other known same => Table.eq_of_clash known stored (Or.inl (same.trans claimed.1.symm)))
  rw [loadBundleState, found] at read
  cases read
  exact claimed.2.1

theorem loadClaimedBundle_skipped {load : ClaimedBundleLoad}
    (answered : loadClaimedBundle claim now s = .ok (load, s'))
    (missing : ∀ bundle, load ≠ .loaded bundle)
    : ¬claim.Live s' now := by
  unfold loadClaimedBundle at answered
  split at answered
  case h_1 found =>
    cases answered
    rintro ⟨row, stored, claimed⟩
    exact Table.find?_eq_none.mp found row stored claimed.1
  case h_2 bundle found =>
    obtain ⟨known, id⟩ := Table.find?_some found
    have unique : ∀ row ∈ s.resultBundles, ClaimedBy claim now row → row = bundle :=
      fun row stored claimed => Table.eq_of_clash stored known (Or.inl (claimed.1.trans id.symm))
    split at answered
    case isTrue delivered =>
      cases answered
      rintro ⟨row, stored, claimed⟩
      have state := claimed.2.1
      rw [unique row stored claimed, delivered] at state
      cases state
    case isFalse =>
      split at answered
      case isTrue lost =>
        cases answered
        rintro ⟨row, stored, claimed⟩
        exact lost (unique row stored claimed ▸ claimed)
      case isFalse =>
        split at answered
        case isTrue =>
          cases answered
          exact not_live_updateWhere (fun _ claimed => claimed.1)
            (fun _ => by simp [BundleRow.close])
        case isFalse =>
          split at answered
          case h_1 loaded _ =>
            cases answered
            exact absurd rfl (missing loaded)
          case h_2 error _ =>
            simp only [bind_eq_ok] at answered
            obtain ⟨-, -, answered⟩ := answered
            cases answered
            exact not_live_updateWhere (fun _ claimed => claimed)
              (fun _ => by simp [BundleRow.close])

theorem failBundleRetryable_drops {transition : ClaimTransition} {error : String}
    {next : Timestamp}
    (answered : failBundleRetryable claim error next now s = .ok (transition, s'))
    : ¬claim.Live s' now := by
  unfold failBundleRetryable at answered
  split at answered
  case isTrue =>
    cases answered
    exact not_live_updateWhere (fun _ claimed => claimed) (fun _ => by simp [BundleRow.close])
  case isFalse lost =>
    cases answered
    exact fun live => lost (count_of_live live)

theorem failBundleTerminal_drops {error : String}
    (answered : failBundleTerminal claim error now s = .ok ((), s'))
    : ¬claim.Live s' now := by
  simp only [failBundleTerminal, bind_eq_ok] at answered
  obtain ⟨-, -, answered⟩ := answered
  cases answered
  exact not_live_updateWhere (fun _ claimed => claimed) (fun _ => by simp [BundleRow.close])

/-- The claims of a batch have one owner and end at the same time, by induction on the
candidates.
-/
theorem claimEach_claims {owner : String} {requested : List RequestId} {expiry : Timestamp}
    {limit : Nat} {candidates : List BundleRow}
    : ∀ ref ∈ (claimEach owner requested now expiry limit candidates s).1,
        ref.claim.owner = owner ∧ ref.claim.expiresAt = expiry := by
  induction candidates generalizing s limit with
  | nil => exact fun _ mem => absurd mem List.not_mem_nil
  | cons candidate rest ih =>
      simp only [claimEach]
      split
      · exact ih
      · intro ref mem
        rcases List.mem_cons.mp mem with rfl | mem
        · exact ⟨rfl, rfl⟩
        · exact ih ref mem

/-- A batch claims some of the candidates in their order, by induction on them. -/
theorem claimEach_sublist {owner : String} {requested : List RequestId} {expiry : Timestamp}
    {limit : Nat} {candidates : List BundleRow}
    : ((claimEach owner requested now expiry limit candidates s).1.map
        (·.claim.bundleId)).Sublist (candidates.map (·.id)) := by
  induction candidates generalizing s limit with
  | nil => exact .slnil
  | cons candidate rest ih =>
      simp only [claimEach]
      split
      · exact .cons _ ih
      · exact .cons_cons _ ih

/-- What a batch of claims is made of. -/
structure Batch (owner : String) (expiry : Timestamp) (refs : List ClaimedBundleRef) : Prop where
  claims : ∀ ref ∈ refs, ref.claim.owner = owner ∧ ref.claim.expiresAt = expiry
  once : (refs.map (·.claim.bundleId)).Nodup

theorem claimReadyBundleRefs_batch {owner : String} {requests : List RequestId}
    {expiry : Timestamp} {limit : Nat} {refs : List ClaimedBundleRef}
    (answered : claimReadyBundleRefs owner requests now expiry limit s = .ok (refs, s'))
    : Batch owner expiry refs := by
  simp only [claimReadyBundleRefs, bind_eq_ok] at answered
  obtain ⟨-, -, result⟩ := answered
  injection result with result
  have same : refs = _ := congrArg Prod.fst result.symm
  refine ⟨same ▸ claimEach_claims, ?_⟩
  rw [same]
  refine claimEach_sublist.nodup (List.pairwise_map.mpr ?_)
  exact Table.distinct_selectOrdered.imp (fun apart id => apart (Or.inl id))

end Claims

-----------------------------------------------------------------------------------------
-- Claims are held and short
-----------------------------------------------------------------------------------------

section Safety

variable {sha256 : List UInt8 → String} {owner : String} {s s' : Store} {w w' : World}
  {t t' : Transmission} {claim : BundleClaim} {now later : Timestamp} {act : Act}

/-- The transmission answers for its claim. -/
def Phase.Holding : Phase → Prop
  | .checking | .checkingAck | .settling | .returned => False
  | _ => True

def Transmission.Holds (t : Transmission) (claim : BundleClaim) : Prop :=
  t.claimed.claim = claim ∧ t.phase.Holding

theorem Transmission.Holds.holding {phase : Phase} (holds : t.Holds claim)
    (here : t.phase = phase)
    : phase.Holding :=
  here ▸ holds.2

theorem Phase.holding_of_renewed? {phase next : Phase} (here : phase.renewed? = some next)
    : next.Holding := by
  cases phase <;> cases here <;> trivial

theorem plusMillis_mono {millis : Int} (le : now ≤ later)
    : now.plusMillis millis ≤ later.plusMillis millis :=
  max_le_max_left _ (min_le_min_left _ (Int.add_le_add_right le millis))

/-- A call that hands out no claims makes none live. -/
theorem live_of_silent {step : BundleStep} {answer : BundleAnswer}
    (performed : step.perform s = .ok (answer, s'))
    (silent : (Answer.bundle answer).handsOut = []) (live : claim.Live s' now)
    : claim.Live s now := by
  rcases (step.perform_moves performed).live live with old | handed
  · exact old
  · rw [silent] at handed
    exact absurd handed List.not_mem_nil

/-- A claim that is live after a step of a transmission was live before and still has its
holder, or the step has just made it.
-/
inductive Keeps (s : Store) (now later : Timestamp) (t t' : Transmission) (claim : BundleClaim)
    : Prop
  | old (live : claim.Live s later) (kept : t.Holds claim → t'.Holds claim)
  | made (holds : t'.Holds claim) (short : claim.expiresAt = now.plusMillis claimMillis)

theorem Keeps.dropped (live : claim.Live s later) (live' : claim.Live s' later) (le : now ≤ later)
    (dropped : ¬t.claimed.claim.Live s' now)
    : Keeps s now later t t' claim :=
  .old live (fun holds => absurd (live_before (holds.1 ▸ live') le) dropped)

theorem Keeps.renewed {expiry : Timestamp} (expires : expiry = now.plusMillis claimMillis)
    {next : BundleClaim} (le : now ≤ later)
    (answered : renewBundle t.claimed.claim now expiry s = .ok (.renewed next, s'))
    (holds : t'.Holds next) (live : claim.Live s' later)
    : Keeps s now later t t' claim := by
  obtain ⟨same, current⟩ := renewBundle_renewed answered
  have short : next.expiresAt = now.plusMillis claimMillis := by rw [same, expires]
  rcases (BundleStep.perform_moves (perform_renewBundle answered)).live live with old | handed
  · refine .old old (fun holder => ?_)
    have bundle : claim.bundleId = next.bundleId := by rw [← holder.1, same]
    exact oneClaim (live_before live le) current bundle ▸ holds
  · obtain rfl : claim = next := List.mem_singleton.mp handed
    exact .made holds short

/-- Every step of a transmission keeps the claims, by cases on the step. -/
theorem Advances.keeps (advances : Advances sha256 s now t s' t') (le : now ≤ later)
    (live : claim.Live s' later)
    : Keeps s now later t t' claim := by
  cases advances with
  | renews here answered =>
      exact .renewed rfl le answered ⟨rfl, Phase.holding_of_renewed? here⟩ live
  | fenced here answered =>
      exact .dropped (live_of_silent (perform_renewBundle answered) rfl live) live le
        (renewBundle_fenced answered)
  | takesSlot here => exact .old live (fun holds => ⟨holds.1, trivial⟩)
  | takesMemory here => exact .old live (fun holds => ⟨holds.1, trivial⟩)
  | loads here answered =>
      exact .old (live_of_silent (perform_loadClaimedBundle answered) rfl live)
        (fun holds => ⟨holds.1, trivial⟩)
  | skips here missing answered =>
      exact .dropped (live_of_silent (perform_loadClaimedBundle answered) rfl live) live le
        (loadClaimedBundle_skipped answered missing)
  | rejects here unfit answered =>
      exact .dropped (live_of_silent (perform_failBundleTerminal answered) rfl live) live le
        (failBundleTerminal_drops answered)
  | misses here fit => exact .old live (fun holds => ⟨holds.1, trivial⟩)
  | sends here fit => exact .old live (fun holds => ⟨holds.1, trivial⟩)
  | checks here read => exact .old live (fun holds => False.elim (holds.holding here))
  | breaks here => exact .old live (fun holds => ⟨holds.1, trivial⟩)
  | sent here => exact .old live (fun holds => ⟨holds.1, trivial⟩)
  | lapses here => exact .old live (fun holds => ⟨holds.1, trivial⟩)
  | delivered here read =>
      refine .dropped live live le (fun current => ?_)
      cases loadBundleState_live read current
  | checksAck here read => exact .old live (fun holds => False.elim (holds.holding here))
  | retries here answered =>
      exact .dropped (live_of_silent (perform_failBundleRetryable answered) rfl live) live le
        (failBundleRetryable_drops answered)
  | loses here answered =>
      exact .dropped (live_of_silent (perform_failBundleRetryable answered) rfl live) live le
        (failBundleRetryable_drops answered)
  | settles here read => exact .old live (fun holds => False.elim (holds.holding here))
  | fails running => exact .old live (fun holds => ⟨holds.1, trivial⟩)

/-- Each live claim of the worker has its transmission, and ends within a claim's time. -/
structure Sound (owner : String) (w : World) : Prop where
  held : ∀ claim : BundleClaim, claim.owner = owner → claim.Live w.store w.latest →
    ∃ t ∈ w.batch, t.Holds claim
  short : ∀ claim : BundleClaim, claim.owner = owner → claim.Live w.store w.latest →
    claim.expiresAt ≤ w.latest.plusMillis claimMillis

theorem Sound.calls {call : Call} {answer : Answer} (sound : Sound owner w)
    (performed : call.perform w.store = .ok (answer, s'))
    (others : ∀ claim ∈ answer.handsOut, claim.owner ≠ owner)
    : Sound owner { w with store := s' } := by
  have old : ∀ claim : BundleClaim, claim.owner = owner → claim.Live s' w.latest →
      claim.Live w.store w.latest := by
    intro claim own live
    rcases (perform_bundlesMove performed).live live with old | handed
    · exact old
    · exact absurd own (others claim handed)
  exact ⟨fun claim own live => sound.held claim own (old claim own live),
    fun claim own live => sound.short claim own (old claim own live)⟩

theorem Sound.claims {requests : List RequestId} {refs : List ClaimedBundleRef}
    (sound : Sound owner w) (idle : w.batch = [])
    (answered
      : claimReadyBundleRefs owner requests now (now.plusMillis claimMillis) claimBatch w.store
        = .ok (refs, s'))
    : Sound owner { w with
        store := s', latest := max w.latest now, batch := refs.map (⟨·, .queued⟩) } := by
  have performed : (BundleStep.claimReadyBundleRefs owner requests now
      (now.plusMillis claimMillis) claimBatch).perform w.store = .ok (.claimed refs, s') := by
    simp only [BundleStep.perform, answered, bind, Except.bind]
  have made : ∀ claim : BundleClaim, claim.owner = owner → claim.Live s' (max w.latest now) →
      ∃ ref ∈ refs, ref.claim = claim := by
    intro claim own live
    rcases (BundleStep.perform_moves performed).live live with old | handed
    · obtain ⟨t, mem, -⟩ := sound.held claim own (live_before old (le_max_left _ _))
      rw [idle] at mem
      exact absurd mem List.not_mem_nil
    · exact List.mem_map.mp handed
  constructor
  · intro claim own live
    obtain ⟨ref, mem, same⟩ := made claim own live
    exact ⟨⟨ref, .queued⟩, List.mem_map_of_mem mem, same, trivial⟩
  · intro claim own live
    obtain ⟨ref, mem, rfl⟩ := made claim own live
    rw [((claimReadyBundleRefs_batch answered).claims ref mem).2]
    exact plusMillis_mono (le_max_right _ _)

theorem Sound.transmits {i : Nat} {free : Permits} (sound : Sound owner w)
    (here : w.batch[i]? = some t) (advances : Advances sha256 w.store now t s' t')
    : Sound owner { w with
        store := s', latest := max w.latest now, batch := w.batch.set i t', free := free } := by
  have inside : i < w.batch.length := (List.getElem?_eq_some_iff.mp here).1
  have replaced : t' ∈ w.batch.set i t' := List.mem_set inside t'
  have keeps : ∀ {claim : BundleClaim}, claim.Live s' (max w.latest now) →
      Keeps w.store now (max w.latest now) t t' claim :=
    fun live => advances.keeps (le_max_right _ _) live
  constructor
  · intro claim own live
    cases keeps live with
    | old live kept =>
        obtain ⟨u, mem, holds⟩ := sound.held claim own (live_before live (le_max_left _ _))
        obtain ⟨j, there⟩ := List.mem_iff_getElem?.mp mem
        by_cases same : i = j
        · subst same
          cases here.symm.trans there
          exact ⟨t', replaced, kept holds⟩
        · refine ⟨u, List.mem_iff_getElem?.mpr ⟨j, ?_⟩, holds⟩
          rwa [List.getElem?_set_ne same]
    | made holds short => exact ⟨t', replaced, holds⟩
  · intro claim own live
    cases keeps live with
    | old live kept =>
        have bound := sound.short claim own (live_before live (le_max_left _ _))
        exact le_trans bound (plusMillis_mono (le_max_left _ _))
    | made holds short =>
        rw [short]
        exact plusMillis_mono (le_max_right _ _)

theorem Sound.joins (sound : Sound owner w) (done : ∀ t ∈ w.batch, t.phase = .returned)
    : Sound owner { w with batch := [] } := by
  refine ⟨fun claim own live => ?_, sound.short⟩
  obtain ⟨t, mem, holds⟩ := sound.held claim own live
  exact False.elim (holds.holding (done t mem))

/-- Every step keeps the claims held and short, by cases on the step. -/
theorem Sound.step (sound : Sound owner w) (step : Step sha256 owner w act w')
    : Sound owner w' := by
  cases step with
  | calls performed others => exact sound.calls performed others
  | claims idle _ answered => exact sound.claims idle answered
  | transmits here advances _ => exact sound.transmits here advances
  | joins done => exact sound.joins done
  | asks => exact ⟨sound.held, sound.short⟩
  | replays _ _ _ => exact ⟨sound.held, sound.short⟩

theorem reachable_sound (reached : (worker sha256 owner).Reachable w) : Sound owner w := by
  refine reached.invariant (fun w start => ?_) (fun _ _ _ _ sound step => sound.step step)
  have dead : ∀ claim : BundleClaim, claim.owner = owner → ¬claim.Live w.store w.latest := by
    rintro claim rfl ⟨row, stored, claimed⟩
    exact start.2.2.2 row stored claimed.2.2.1
  exact ⟨fun claim own live => absurd live (dead claim own),
    fun claim own live => absurd live (dead claim own)⟩

/-- At every point of every run, a claim of the worker that has not expired belongs to a
transmission that has not returned, and will expire within a claim's time.
-/
theorem claims_held (reached : (worker sha256 owner).Reachable w) (own : claim.owner = owner)
    (live : claim.Live w.store w.latest)
    : (∃ t ∈ w.batch, t.claimed.claim = claim ∧ t.phase ≠ .returned)
      ∧ claim.expiresAt ≤ w.latest.plusMillis claimMillis := by
  have sound := reachable_sound reached
  obtain ⟨t, mem, same, holding⟩ := sound.held claim own live
  refine ⟨⟨t, mem, same, fun returned => ?_⟩, sound.short claim own live⟩
  rw [returned] at holding
  exact holding

-----------------------------------------------------------------------------------------
-- One transmission for each bundle
-----------------------------------------------------------------------------------------

/-- The transmissions are of different bundles, with claims under the worker's name. -/
structure Exclusive (owner : String) (w : World) : Prop where
  own : ∀ t ∈ w.batch, t.claimed.claim.owner = owner
  once : (w.batch.map (·.claimed.claim.bundleId)).Nodup

/-- A transmission stays with its bundle and its owner, by cases on the step. -/
theorem Advances.same (advances : Advances sha256 s now t s' t')
    : t'.claimed.claim.owner = t.claimed.claim.owner
      ∧ t'.claimed.claim.bundleId = t.claimed.claim.bundleId := by
  cases advances with
  | renews here answered =>
      obtain ⟨rfl, -⟩ := renewBundle_renewed answered
      exact ⟨rfl, rfl⟩
  | _ => exact ⟨rfl, rfl⟩

/-- Every step keeps the bundles apart, by cases on the step. -/
theorem Exclusive.step (exclusive : Exclusive owner w) (step : Step sha256 owner w act w')
    : Exclusive owner w' := by
  cases step with
  | calls performed others => exact ⟨exclusive.own, exclusive.once⟩
  | claims idle _ answered =>
      have batch := claimReadyBundleRefs_batch answered
      constructor
      · intro t mem
        obtain ⟨ref, known, rfl⟩ := List.mem_map.mp mem
        exact (batch.claims ref known).1
      · rw [List.map_map]
        exact batch.once
  | transmits here advances _ =>
      obtain ⟨owner, bundle⟩ := advances.same
      obtain ⟨before, after, parts, changed⟩ := Collections.exists_set here
      constructor
      · intro u mem
        rcases List.mem_or_eq_of_mem_set mem with old | rfl
        · exact exclusive.own u old
        · exact owner.trans (exclusive.own _ (List.mem_of_getElem? here))
      · have once := exclusive.once
        rw [changed]
        rw [parts] at once
        simpa only [List.map_append, List.map_cons, bundle] using once
  | joins done => exact ⟨fun _ mem => absurd mem List.not_mem_nil, .nil⟩
  | asks => exact ⟨exclusive.own, exclusive.once⟩
  | replays _ _ _ => exact ⟨exclusive.own, exclusive.once⟩

/-- At every point of every run, no bundle is transmitted by two transmissions, and each of them
works with a claim under the worker's name.
-/
theorem transmissions_exclusive (reached : (worker sha256 owner).Reachable w)
    : (∀ t ∈ w.batch, t.claimed.claim.owner = owner)
      ∧ (w.batch.map (·.claimed.claim.bundleId)).Nodup := by
  have exclusive : Exclusive owner w := by
    refine reached.invariant (J := Exclusive owner) (fun w start => ?_)
      (fun _ _ _ _ exclusive step => exclusive.step step)
    have idle := start.1
    constructor <;> simp [idle]
  exact ⟨exclusive.own, exclusive.once⟩

-----------------------------------------------------------------------------------------
-- Permits are given back
-----------------------------------------------------------------------------------------

/-- The transmission has the bundle in memory, or is about to load it. -/
def Phase.inMemory : Phase → Bool
  | .queued | .reserving | .renewing | .returned | .failed => false
  | _ => true

def Replay.inMemory : Replay → Bool
  | .sending => true
  | _ => false

/-- What transmissions and replays hold of the permits of one semaphore. -/
def World.held (w : World) (amount : Permits → Nat) : Nat :=
  (w.batch.map (fun t => amount t.phase.permits)).sum
    + (w.replays.map (fun replay => amount replay.permits)).sum

/-- Every permit is free or held. -/
structure Balanced (w : World) : Prop where
  slots : w.free.slots + w.held (·.slots) = transmissionConcurrency
  memory : w.free.memory + w.held (·.memory) = globalCanonicalMemoryBytes

theorem sum_permits_eq_zero {amount : Permits → Nat} (none : amount ⟨0, 0⟩ = 0)
    {batch : List Transmission} (idle : ∀ t ∈ batch, t.phase.permits = ⟨0, 0⟩)
    : (batch.map (fun t => amount t.phase.permits)).sum = 0 := by
  induction batch with
  | nil => rfl
  | cons t rest ih =>
      have first := idle t List.mem_cons_self
      have others := ih (fun other mem => idle other (List.mem_cons_of_mem _ mem))
      rw [List.map_cons, List.sum_cons, first, none, others]

/-- What one holder takes or gives back is the difference in what is held. -/
theorem Balanced.exchange {held held' : Permits} (balanced : Balanced w)
    (permits : w.free.Exchange held w'.free held')
    (changed : ∀ amount : Permits → Nat,
      w'.held amount + amount held = w.held amount + amount held')
    : Balanced w' where
  slots := by
    have before := balanced.slots
    have exchanged := permits.slots
    have after := changed (·.slots)
    omega
  memory := by
    have before := balanced.memory
    have exchanged := permits.memory
    have after := changed (·.memory)
    omega

/-- The permits stay as they are when as much is held. -/
theorem Balanced.keep (balanced : Balanced w) (free : w'.free = w.free)
    (same : ∀ amount : Permits → Nat, amount ⟨0, 0⟩ = 0 → w'.held amount = w.held amount)
    : Balanced w' where
  slots := by
    rw [free, same _ rfl]
    exact balanced.slots
  memory := by
    rw [free, same _ rfl]
    exact balanced.memory

/-- A batch that holds no permits may be replaced by another. -/
theorem World.held_of_idle {amount : Permits → Nat} (none : amount ⟨0, 0⟩ = 0)
    (replays : w'.replays = w.replays) (idle : ∀ t ∈ w.batch, t.phase.permits = ⟨0, 0⟩)
    (idle' : ∀ t ∈ w'.batch, t.phase.permits = ⟨0, 0⟩)
    : w'.held amount = w.held amount := by
  unfold World.held
  rw [sum_permits_eq_zero none idle, sum_permits_eq_zero none idle', replays]

/-- Every step keeps the permits, by cases on the step. -/
theorem Balanced.step (balanced : Balanced w) (step : Step sha256 owner w act w')
    : Balanced w' := by
  cases step with
  | calls performed others => exact balanced.keep rfl (fun _ _ => rfl)
  | claims idle _ answered =>
      refine balanced.keep rfl (fun _ none =>
        World.held_of_idle none rfl (fun t mem => ?_) (fun t mem => ?_))
      · rw [idle] at mem
        exact absurd mem List.not_mem_nil
      · obtain ⟨ref, -, rfl⟩ := List.mem_map.mp mem
        rfl
  | @transmits i t _ _ t' _ here _ permits =>
      refine balanced.exchange permits (fun amount => ?_)
      have sums := Collections.sum_map_set (f := (amount ·.phase.permits)) (b := t') here
      simp only [World.held]
      omega
  | joins done =>
      refine balanced.keep rfl (fun _ none =>
        World.held_of_idle none rfl (fun t mem => ?_) (fun t mem => ?_))
      · rw [done t mem]
        rfl
      · exact absurd mem List.not_mem_nil
  | asks =>
      refine balanced.keep rfl (fun amount none => ?_)
      simp [World.held, Replay.permits, none]
  | @replays i replay replay' _ here _ permits =>
      refine balanced.exchange permits (fun amount => ?_)
      have sums := Collections.sum_map_set (f := (amount ·.permits)) (b := replay') here
      simp only [World.held]
      omega

theorem reachable_balanced (reached : (worker sha256 owner).Reachable w) : Balanced w := by
  refine reached.invariant (fun w start => ?_) (fun _ _ _ _ balanced step => balanced.step step)
  obtain ⟨batch, replays, free, -⟩ := start
  constructor <;> simp [World.held, batch, replays, free, Permits.all]

theorem Phase.memory_of_inMemory {phase : Phase} (loaded : phase.inMemory = true)
    : maxTransmissionReservationBytes ≤ phase.permits.memory := by
  cases phase <;> first | exact le_refl _ | cases loaded

theorem Replay.memory_of_inMemory {replay : Replay} (loaded : replay.inMemory = true)
    : maxTransmissionReservationBytes ≤ replay.permits.memory := by
  cases replay <;> first | exact le_refl _ | cases loaded

end Safety

/-! A worker claims the bundle of an answered request. -/

namespace Promised

def claim : BundleClaim := ⟨⟨500⟩, "outbox", 30060⟩

def ref : ClaimedBundleRef := ⟨claim, ⟨1⟩, 1⟩

def started : World := ⟨Answered.world.store, 60, [], [], .all⟩

def answer : Except StoreError (List ClaimedBundleRef × Store) :=
  claimReadyBundleRefs "outbox" [⟨1⟩] 60 (Timestamp.plusMillis 60 claimMillis) claimBatch
    started.store

def store : Store := (answer.toOption.map (·.2)).getD started.store

def world : World := ⟨store, 60, [⟨ref, .queued⟩], [], .all⟩

theorem answer_eq : answer = .ok ([ref], store) := by
  have refs : answer.toOption.map (·.1) = some [ref] := by decide +kernel
  unfold store
  cases given : answer with
  | ok done =>
      rw [given] at refs
      cases done
      cases refs
      rfl
  | error error =>
      rw [given] at refs
      cases refs

theorem live : claim.Live world.store world.latest := by
  unfold BundleClaim.Live
  decide +kernel

theorem reachable : (worker (fun _ => "") "outbox").Reachable world := by
  have start : (worker (fun _ => "") "outbox").Reachable started :=
    .initial ⟨rfl, rfl, rfl, by decide +kernel⟩
  have claims : Step (fun _ => "") "outbox" started .claim world :=
    .claims rfl (List.cons_ne_nil _ _) answer_eq
  exact .step start claims

theorem transmissions_exclusive_world
    : (∀ t ∈ world.batch, t.claimed.claim.owner = "outbox")
      ∧ (world.batch.map (·.claimed.claim.bundleId)).Nodup :=
  transmissions_exclusive reachable

theorem claims_held_world
    : (∃ t ∈ world.batch, t.claimed.claim = claim ∧ t.phase ≠ .returned)
      ∧ claim.expiresAt ≤ world.latest.plusMillis claimMillis :=
  claims_held reachable rfl live

end Promised

end Codrik.Runtime.OutboxWorker

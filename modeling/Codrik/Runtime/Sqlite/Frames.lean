import Codrik.Runtime.Sqlite.Attachment
import Codrik.Runtime.Sqlite.World

/-! What operations leave alone: ingress touches neither leases nor runs nor attempts, and
only the lease operations and recovery touch leases.
-/

namespace Codrik.Runtime.Sqlite

open Codrik.Relational

variable {s s' : Store}

-----------------------------------------------------------------------------------------
-- Ingress
-----------------------------------------------------------------------------------------

/-- The tables of running work are the same before and after. -/
structure SameExecution (s s' : Store) : Prop where
  actorLeases : s'.actorLeases = s.actorLeases
  runs : s'.runs = s.runs
  runEvents : s'.runEvents = s.runEvents
  toolAttempts : s'.toolAttempts = s.toolAttempts
  recentMessages : s'.recentMessages = s.recentMessages

theorem SameExecution.refl (s : Store) : SameExecution s s := ⟨rfl, rfl, rfl, rfl, rfl⟩

theorem ingest_sameExecution {event : NewInboundEvent} {now : Timestamp} {ids : FreshIds}
    {outcome : IngressOutcome} (ingested : ingest event now ids s = .ok (outcome, s'))
    : SameExecution s s' := by
  simp only [ingest, bind_eq_ok] at ingested
  obtain ⟨_, _, ingested⟩ := ingested
  split at ingested
  · cases ingested
    exact .refl _
  · split at ingested
    · cases ingested
      exact .refl _
    · simp only [bind_eq_ok] at ingested
      obtain ⟨_, _, _, _, _, _, _, recorded, result⟩ := ingested
      cases result
      obtain ⟨_, _, _, rfl⟩ := recordRoute_ok recorded
      exact ⟨rfl, rfl, rfl, rfl, rfl⟩

theorem submitForActor_sameExecution {actorId : ActorId} {command : LocalSubmission}
    {now : Timestamp} {ids : FreshIds} {outcome : LocalSubmitOutcome}
    (submitted : submitForActor actorId command now ids s = .ok (outcome, s'))
    : SameExecution s s' := by
  unfold submitForActor at submitted
  split at submitted
  · split at submitted
    · split at submitted
      · split at submitted
        · cases submitted
          exact .refl _
        · cases submitted
      · cases submitted
        exact .refl _
    · simp only [bind_eq_ok] at submitted
      obtain ⟨_, _, _, _, _, _, _, _, result⟩ := submitted
      cases result
      exact ⟨rfl, rfl, rfl, rfl, rfl⟩
  · cases submitted
    exact .refl _

theorem reattachRequest_sameExecution {request : RequestRow} {actorId : ActorId}
    {now : Timestamp} {fresh workItemId : WorkItemId}
    (reattached : reattachRequest request actorId now fresh s = .ok (workItemId, s'))
    : SameExecution s s' := by
  unfold reattachRequest at reattached
  split at reattached
  · cases reattached
    exact .refl _
  · simp only [bind_eq_ok] at reattached
    obtain ⟨_, _, _, _, result⟩ := reattached
    cases result
    exact ⟨rfl, rfl, rfl, rfl, rfl⟩

theorem acceptCancel_sameExecution {actorId : ActorId} {command : LocalCancel}
    {request : RequestRow} {now : Timestamp} {ids : FreshIds} {outcome : CancelOutcome}
    (accepted : acceptCancel actorId command request now ids s = .ok (outcome, s'))
    : SameExecution s s' := by
  simp only [acceptCancel, bind_eq_ok] at accepted
  obtain ⟨⟨_, m⟩, reattached, _, _, _, _, _, _, result⟩ := accepted
  cases result
  have same := reattachRequest_sameExecution reattached
  exact ⟨same.actorLeases, same.runs, same.runEvents, same.toolAttempts, same.recentMessages⟩

theorem cancelForActor_sameExecution {actorId : ActorId} {command : LocalCancel}
    {now : Timestamp} {ids : FreshIds} {outcome : CancelOutcome}
    (cancelled : cancelForActor actorId command now ids s = .ok (outcome, s'))
    : SameExecution s s' := by
  simp only [cancelForActor, bind_eq_ok] at cancelled
  obtain ⟨_, _, cancelled⟩ := cancelled
  split at cancelled
  · simp only [bind_eq_ok] at cancelled
    obtain ⟨_, _, _, _, _, _, result⟩ := cancelled
    cases result
    exact .refl _
  · split at cancelled
    · cases cancelled
    · split at cancelled
      · exact acceptCancel_sameExecution cancelled
      · cases cancelled
        exact .refl _

theorem ingestWebhook_sameExecution {event : NewWebhookEvent} {now : Timestamp}
    {ids : FreshIds} {outcome : WebhookIngressOutcome}
    (ingested : ingestWebhook event now ids s = .ok (outcome, s'))
    : SameExecution s s' := by
  simp only [ingestWebhook, acceptWebhook] at ingested
  split at ingested
  · split at ingested
    · cases ingested
      exact .refl _
    · simp only [storeWebhook, bind_eq_ok] at ingested
      obtain ⟨_, ⟨_, _, _, _, _, _, stored⟩, _, _, result⟩ := ingested
      cases stored
      cases result
      exact ⟨rfl, rfl, rfl, rfl, rfl⟩
  · cases ingested
    exact .refl _

-----------------------------------------------------------------------------------------
-- Dispatch
-----------------------------------------------------------------------------------------

/-- Leases and attempts are the same before and after. -/
structure SameLeases (s s' : Store) : Prop where
  actorLeases : s'.actorLeases = s.actorLeases
  toolAttempts : s'.toolAttempts = s.toolAttempts

theorem SameLeases.refl (s : Store) : SameLeases s s := ⟨rfl, rfl⟩

theorem assignUnassigned_sameExecution {actorId : ActorId} {now : Timestamp}
    {fresh : WorkItemId} (assigned : assignUnassigned actorId now fresh s = .ok s')
    : SameExecution s s' := by
  unfold assignUnassigned at assigned
  split at assigned
  · cases assigned
    exact .refl _
  · simp only [bind_eq_ok] at assigned
    obtain ⟨_, _, result⟩ := assigned
    cases result
    exact ⟨rfl, rfl, rfl, rfl, rfl⟩

theorem resumeRun_sameLeases {lease : ActorLease} {maxEvents : Nat} {row : RunRow}
    {work : WorkItemRow} {now : Timestamp} {answer : Option AttachedRun}
    (resumed : resumeRun lease maxEvents row work now s = .ok (answer, s'))
    : SameLeases s s' := by
  simp only [resumeRun, bind_eq_ok] at resumed
  obtain ⟨t, attached, _, _, rest⟩ := resumed
  obtain ⟨_, _, rfl, -⟩ := attachEvents_ok attached
  split at rest
  · cases rest
    exact ⟨rfl, rfl⟩
  · split at rest <;> cases rest <;> exact ⟨rfl, rfl⟩

theorem attachNextRun_sameLeases {lease : ActorLease} {maxEvents : Nat} {now : Timestamp}
    {ids : FreshIds} {answer : Option AttachedRun}
    (attached : attachNextRun lease maxEvents now ids s = .ok (answer, s'))
    : SameLeases s s' := by
  obtain ⟨-, -, ⟨row, work, -, -, -, resumed⟩ | ⟨-, -, -, rfl⟩ |
    ⟨row, work, m, -, opened, resumed⟩⟩ := attachNextRun_ok attached
  · exact resumeRun_sameLeases resumed
  · exact .refl _
  · obtain ⟨m', assigned, ⟨-, none⟩ | ⟨event, work', runs, opens, some'⟩⟩ := openRun_ok opened
    · cases none
    · cases some'
      have same := assignUnassigned_sameExecution assigned
      have same' := resumeRun_sameLeases resumed
      exact ⟨same'.actorLeases.trans same.actorLeases, same'.toolAttempts.trans same.toolAttempts⟩

theorem SameButResults.sameLeases (same : SameButResults s s') : SameLeases s s' := by
  obtain ⟨_, _, _, _, _, rfl⟩ := same
  exact ⟨rfl, rfl⟩

theorem finalizeRun_sameLeases {command : FinalizeRun} {now : Timestamp} {ids : FreshIds}
    {outcome : FinalizeOutcome}
    (finalized : finalizeRun command now ids s = .ok (outcome, s'))
    : SameLeases s s' := by
  obtain ⟨-, ⟨_, _, _, rfl⟩ | ⟨_, _, terminal, completes⟩⟩ := finalizeRun_ok finalized
  · exact .refl _
  · obtain ⟨-, -, _, _, t, -, same, rfl⟩ := completes
    exact ⟨same.sameLeases.actorLeases, same.sameLeases.toolAttempts⟩

/-- Incorporating events writes links only, by induction on the events. -/
theorem incorporateEach_store {runId : RunId} {eventIds : List EventId}
    (marked : incorporateEach runId eventIds s = .ok s')
    : ∃ links, s' = { s with runEvents := links } := by
  induction eventIds generalizing s with
  | nil =>
      cases marked
      exact ⟨_, rfl⟩
  | cons eventId rest ih =>
      simp only [incorporateEach, bind_eq_ok] at marked
      obtain ⟨_, _, others⟩ := marked
      obtain ⟨links, rfl⟩ := ih others
      exact ⟨links, rfl⟩

theorem incorporateEach_sameLeases {runId : RunId} {eventIds : List EventId}
    (marked : incorporateEach runId eventIds s = .ok s')
    : SameLeases s s' := by
  obtain ⟨links, rfl⟩ := incorporateEach_store marked
  exact ⟨rfl, rfl⟩

/-- What the recovery of one candidate keeps, the recovery of all keeps, by induction on the
candidates.
-/
theorem recoverCandidates_invariant {J : Store → Prop} {now : Timestamp}
    (preserved : ∀ t candidate, J t → J (recoverCandidate now candidate t))
    (candidates : List RecoveredUnknownOutcome) (start : J s)
    : J (recoverCandidates now candidates s).2 := by
  induction candidates generalizing s with
  | nil => exact start
  | cons candidate rest ih =>
      rw [recoverCandidates]
      split
      · exact ih (preserved s candidate start)
      · exact ih start

/-- Recovery writes attempts and work items only. -/
theorem recoverCandidates_store (now : Timestamp) (candidates : List RecoveredUnknownOutcome)
    : ∃ attempts workItems, (recoverCandidates now candidates s).2
      = { s with toolAttempts := attempts, workItems := workItems } := by
  refine recoverCandidates_invariant (J := fun t => ∃ attempts workItems,
    t = { s with toolAttempts := attempts, workItems := workItems }) ?_ candidates ⟨_, _, rfl⟩
  rintro _ candidate ⟨attempts, workItems, rfl⟩
  exact ⟨_, _, rfl⟩

-----------------------------------------------------------------------------------------
-- Bundle deliveries
-----------------------------------------------------------------------------------------

/-- The columns of a bundle that its delivery never writes. -/
structure SameContent (before after : BundleRow) : Prop where
  id : after.id = before.id
  requestId : after.requestId = before.requestId
  deliveryCount : after.deliveryCount = before.deliveryCount
  manifestSha256 : after.manifestSha256 = before.manifestSha256

theorem SameContent.refl (row : BundleRow) : SameContent row row := ⟨rfl, rfl, rfl, rfl⟩

theorem SameContent.trans {a b c : BundleRow} (first : SameContent a b)
    (second : SameContent b c)
    : SameContent a c :=
  ⟨second.id.trans first.id, second.requestId.trans first.requestId,
    second.deliveryCount.trans first.deliveryCount,
    second.manifestSha256.trans first.manifestSha256⟩

/-- The bundles are the same but for the progress of their delivery. -/
structure Redelivers (before after : Table BundleRow) : Prop where
  kept : ∀ row ∈ before, ∃ row' ∈ after, SameContent row row'
  origin : ∀ row' ∈ after, ∃ row ∈ before, SameContent row row'

theorem Redelivers.refl (bundles : Table BundleRow) : Redelivers bundles bundles where
  kept row mem := ⟨row, mem, .refl row⟩
  origin row mem := ⟨row, mem, .refl row⟩

theorem Redelivers.trans {a b c : Table BundleRow} (first : Redelivers a b)
    (second : Redelivers b c)
    : Redelivers a c where
  kept row mem := by
    obtain ⟨row', mem', same⟩ := first.kept row mem
    obtain ⟨row'', mem'', same'⟩ := second.kept row' mem'
    exact ⟨row'', mem'', same.trans same'⟩
  origin row mem := by
    obtain ⟨row', mem', same⟩ := second.origin row mem
    obtain ⟨row'', mem'', same'⟩ := first.origin row' mem'
    exact ⟨row'', mem'', same'.trans same⟩

/-- An update of delivery columns is progress only. -/
theorem Redelivers.update {bundles : Table BundleRow} {p : BundleRow → Prop} [DecidablePred p]
    {f : BundleRow → BundleRow} {k : Table.KeepsKey f} (same : ∀ row, SameContent row (f row))
    : Redelivers bundles (bundles.updateWhere p f k) := by
  have image : ∀ row, SameContent row (if p row then f row else row) := by
    intro row
    split
    · exact same row
    · exact .refl row
  constructor
  · intro row mem
    exact ⟨_, Table.updateWhere_mem mem, image row⟩
  · intro row' mem
    obtain ⟨row, stored, rfl⟩ := Table.mem_updateWhere.mp mem
    exact ⟨row, stored, image row⟩

/-- The claims of a batch are progress only, by induction on the candidates. -/
theorem claimEach_redelivers {owner : String} {requested : List RequestId}
    {now expiry : Timestamp} {limit : Nat} {candidates : List BundleRow}
    : ∃ bundles, (claimEach owner requested now expiry limit candidates s).2
        = { s with resultBundles := bundles } ∧ Redelivers s.resultBundles bundles := by
  induction candidates generalizing s limit with
  | nil => exact ⟨_, rfl, .refl _⟩
  | cons candidate rest ih =>
      simp only [claimEach]
      split
      · exact ih
      · have others := @ih { s with
          resultBundles := s.resultBundles.updateWhere
            (fun row => row.id = candidate.id ∧ Claimable now row) (·.claim owner expiry) }
          (limit - 1)
        obtain ⟨bundles, same, redelivers⟩ := others
        refine ⟨bundles, same, .trans (.update ?_) redelivers⟩
        exact fun _ => ⟨rfl, rfl, rfl, rfl⟩

/-- Deliverers and recipients of bundles change nothing but the progress of deliveries. -/
theorem BundleStep.perform_ok {step : BundleStep} {answer : BundleAnswer}
    (performed : step.perform s = .ok (answer, s'))
    : ∃ bundles, s' = { s with resultBundles := bundles }
      ∧ Redelivers s.resultBundles bundles := by
  have progress : ∀ {p : BundleRow → Prop} [DecidablePred p] {f : BundleRow → BundleRow}
      {k : Table.KeepsKey f}, (∀ row, SameContent row (f row)) →
      ∃ bundles, { s with resultBundles := s.resultBundles.updateWhere p f k }
        = { s with resultBundles := bundles } ∧ Redelivers s.resultBundles bundles :=
    fun same => ⟨_, rfl, .update same⟩
  have nothing : ∃ bundles, s = { s with resultBundles := bundles }
      ∧ Redelivers s.resultBundles bundles := ⟨_, rfl, .refl _⟩
  cases step <;> simp only [BundleStep.perform, bind_eq_ok] at performed <;>
    obtain ⟨⟨value, t⟩, done, result⟩ := performed <;> cases result
  case claimReadyBundleRefs owner requestIds now expiry limit =>
    simp only [Sqlite.claimReadyBundleRefs, bind_eq_ok] at done
    obtain ⟨-, -, result⟩ := done
    injection result with result
    have reached : t = _ := congrArg Prod.snd result.symm
    obtain ⟨bundles, same, redelivers⟩ := claimEach_redelivers
    refine ⟨bundles, reached.trans same, .trans (.update ?_) redelivers⟩
    exact fun _ => ⟨rfl, rfl, rfl, rfl⟩
  case renewBundle claim now expiry =>
    simp only [Sqlite.renewBundle, bind_eq_ok] at done
    obtain ⟨-, -, done⟩ := done
    split at done
    · cases done
      exact progress (fun _ => ⟨rfl, rfl, rfl, rfl⟩)
    · cases done
      exact nothing
  case loadClaimedBundle claim now =>
    unfold Sqlite.loadClaimedBundle at done
    split at done
    · cases done
      exact nothing
    · split at done
      · cases done
        exact nothing
      · split at done
        · cases done
          exact nothing
        · split at done
          · cases done
            exact progress (fun _ => ⟨rfl, rfl, rfl, rfl⟩)
          · split at done
            · cases done
              exact nothing
            · simp only [bind_eq_ok] at done
              obtain ⟨-, -, result⟩ := done
              cases result
              exact progress (fun _ => ⟨rfl, rfl, rfl, rfl⟩)
  case acknowledgeBundle ack =>
    unfold Sqlite.acknowledgeBundle at done
    split at done
    · cases done
    · split at done
      · cases done
      · simp only [bind_eq_ok] at done
        obtain ⟨-, -, done⟩ := done
        split at done
        · cases done
          exact nothing
        · cases done
        · cases done
        · cases done
          exact progress (fun _ => ⟨rfl, rfl, rfl, rfl⟩)
  case failBundleRetryable claim error nextAttempt now =>
    unfold Sqlite.failBundleRetryable at done
    split at done
    · cases done
      exact progress (fun _ => ⟨rfl, rfl, rfl, rfl⟩)
    · cases done
      exact nothing
  case failBundleTerminal claim error now =>
    simp only [Sqlite.failBundleTerminal, bind_eq_ok] at done
    obtain ⟨-, -, result⟩ := done
    cases result
    exact progress (fun _ => ⟨rfl, rfl, rfl, rfl⟩)

end Codrik.Runtime.Sqlite

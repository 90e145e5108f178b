import Codrik.Runtime.Sqlite.Evolution
import Codrik.Runtime.Sqlite.ResultBundles
import Mathlib.Data.List.Dedup

/-! The delivery of result bundles: how claims, renewals, failures, acknowledgements and
recovery move a bundle, whose contents never change.
-/

namespace Codrik.Runtime.Sqlite

open Codrik.Relational
open Codrik.Transition

variable {s s' : Store}

-----------------------------------------------------------------------------------------
-- Contents
-----------------------------------------------------------------------------------------

/-- Stored bundles keep their contents and deliveries, whatever else is stored. -/
structure KeepsDeliveries (s s' : Store) : Prop where
  contents : ∀ bundle ∈ s.resultBundles, ∃ bundle' ∈ s'.resultBundles, SameContent bundle bundle'
  rows : ∀ bundle ∈ s.resultBundles, ∀ row : OutboxDeliveryRow, row.bundleId = bundle.id →
    (row ∈ s'.outboxDeliveries ↔ row ∈ s.outboxDeliveries)
  outbox : ∀ row ∈ s.outbox, row ∈ s'.outbox
  origin : ∀ bundle' ∈ s'.resultBundles,
    (∃ bundle ∈ s.resultBundles, SameContent bundle bundle')
      ∨ ∃ deliveries, Delivers s' bundle' deliveries

theorem KeepsDeliveries.refl (s : Store) : KeepsDeliveries s s where
  contents bundle mem := ⟨bundle, mem, .refl bundle⟩
  rows _ _ _ _ := Iff.rfl
  outbox _ mem := mem
  origin bundle mem := Or.inl ⟨bundle, mem, .refl bundle⟩

/-- The image of a stored bundle delivers what the bundle did. -/
theorem KeepsDeliveries.delivers (keeps : KeepsDeliveries s s') {bundle bundle' : BundleRow}
    (stored : bundle ∈ s.resultBundles) (same : SameContent bundle bundle')
    {deliveries : List (DeliveryId × FinalPayload)} (delivers : Delivers s bundle deliveries)
    : Delivers s' bundle' deliveries :=
  delivers.keep same keeps.outbox (keeps.rows bundle stored)

theorem KeepsDeliveries.trans {t : Store} (first : KeepsDeliveries s t)
    (second : KeepsDeliveries t s')
    : KeepsDeliveries s s' where
  contents bundle mem := by
    obtain ⟨middle, mem', same⟩ := first.contents bundle mem
    obtain ⟨bundle', mem'', same'⟩ := second.contents middle mem'
    exact ⟨bundle', mem'', same.trans same'⟩
  rows bundle mem row here := by
    obtain ⟨middle, mem', same⟩ := first.contents bundle mem
    exact (second.rows middle mem' row (here.trans same.id.symm)).trans
      (first.rows bundle mem row here)
  outbox row mem := second.outbox row (first.outbox row mem)
  origin bundle' mem := by
    rcases second.origin bundle' mem with ⟨middle, mem', same⟩ | delivers
    · rcases first.origin middle mem' with ⟨bundle, mem'', same'⟩ | ⟨deliveries, delivers⟩
      · exact Or.inl ⟨bundle, mem'', same'.trans same⟩
      · exact Or.inr ⟨deliveries, second.delivers mem' same delivers⟩
    · exact Or.inr delivers

/-- Deliveries stay while bundles are redelivered and the outbox grows. -/
theorem KeepsDeliveries.redeliver (bundles : Redelivers s.resultBundles s'.resultBundles)
    (outbox : ∀ row ∈ s.outbox, row ∈ s'.outbox)
    (outboxDeliveries : s'.outboxDeliveries = s.outboxDeliveries)
    : KeepsDeliveries s s' where
  contents := bundles.kept
  rows _ _ _ _ := by rw [outboxDeliveries]
  outbox := outbox
  origin bundle' mem := Or.inl (bundles.origin bundle' mem)

/-- A new bundle takes no delivery from another. -/
theorem insertBundle_keepsDeliveries {terminal : TerminalState} {now : Timestamp}
    {outboxIds : List OutboxId} {plan : BundlePlan}
    (owned : ∀ row ∈ s.outboxDeliveries, ∃ bundle ∈ s.resultBundles, bundle.id = row.bundleId)
    (manifest : manifestFor plan.deliveries = .ok plan.manifest)
    (carries : Carries s plan outboxIds)
    (inserted : insertBundle terminal now outboxIds plan s = .ok s')
    : KeepsDeliveries s s' := by
  simp only [insertBundle, bind_eq_ok, execute_eq_ok, require_eq_ok] at inserted
  obtain ⟨bundles, bundleInserted, middle, delivered, _, one, result⟩ := inserted
  cases result
  obtain ⟨rows, rfl, memRows⟩ := insertDeliveries_ok delivered
  have bundleFresh := Table.fresh_of_insert? bundleInserted
  constructor
  · intro bundle stored
    exact ⟨bundle, (Table.mem_insert? bundleInserted).mpr (Or.inl stored), .refl bundle⟩
  · intro bundle stored row here
    refine (memRows row).trans (or_iff_left ?_)
    rintro ⟨_, _, same, _⟩
    exact bundleFresh bundle stored (Or.inl (here.symm.trans same))
  · exact fun _ mem => mem
  · intro bundle' mem
    rcases (Table.mem_insert? bundleInserted).mp mem with old | rfl
    · exact Or.inl ⟨bundle', old, .refl bundle'⟩
    · have fresh : ∀ row ∈ s.outboxDeliveries, row.bundleId ≠ plan.id := by
        intro row mem same
        obtain ⟨bundle, stored, sameId⟩ := owned row mem
        exact bundleFresh bundle stored (Or.inl (sameId.trans same))
      exact Or.inr ⟨plan.deliveries,
        delivers_of_insertion manifest carries rfl rfl rfl rfl fresh memRows rfl rfl⟩

/-- New bundles take no delivery from stored ones, by induction on the plans. -/
theorem insertBundles_keepsDeliveries {terminal : TerminalState} {now : Timestamp}
    {outboxIds : List OutboxId} {plans : List BundlePlan} (settled : Settled s)
    (manifests : ∀ plan ∈ plans, manifestFor plan.deliveries = .ok plan.manifest)
    (carries : ∀ plan ∈ plans, Carries s plan outboxIds)
    (inserted : insertBundles terminal now outboxIds plans s = .ok s')
    : KeepsDeliveries s s' := by
  induction plans generalizing s with
  | nil =>
      cases inserted
      exact .refl _
  | cons plan rest ih =>
      simp only [insertBundles, bind_eq_ok] at inserted
      obtain ⟨middle, first, others⟩ := inserted
      have manifest := manifests plan List.mem_cons_self
      have carried := carries plan List.mem_cons_self
      obtain ⟨settled', same⟩ := settled.insertBundle manifest carried first
      have kept := insertBundle_keepsDeliveries settled.owned manifest carried first
      refine kept.trans (ih settled' (fun other mem => manifests other (List.mem_cons_of_mem _ mem))
        (fun other mem => ?_) others)
      have := carries other (List.mem_cons_of_mem _ mem)
      unfold Carries StoredAs at *
      rwa [same]

/-- Terminal bundles take no delivery from stored ones. -/
theorem createTerminalBundles_keepsDeliveries {context : TerminalBundleContext}
    {requestIds : List RequestId} {intents : List NewOutboxIntent}
    {requested terminal : TerminalState} {now : Timestamp} {ids : FreshIds}
    (settled : Settled s)
    (created
      : createTerminalBundles context requestIds intents requested now ids s
        = .ok (terminal, s'))
    : KeepsDeliveries s s' := by
  simp only [createTerminalBundles, bind_eq_ok] at created
  obtain ⟨unique, uniqueOk, ⟨effective, chosen⟩, effectiveOk, plans, built,
    ⟨outboxIds, m⟩, outboxOk, routed, routedOk, final, bundles, result⟩ := created
  cases result
  obtain ⟨⟨outbox, same, grows⟩, stored⟩ := insertOutboxes_ok outboxOk
  obtain ⟨_, _, sameRouted⟩ := routeIntents_ok routedOk
  obtain ⟨-, planned⟩ := buildPlans_ok built
  have settledRouted : Settled routed := by
    subst same
    subst sameRouted
    exact settled.keep (.refl _) grows rfl (.refl _)
  have kept : KeepsDeliveries s routed := by
    subst same
    subst sameRouted
    exact .redeliver (.refl _) grows rfl
  have carries : ∀ plan ∈ plans, Carries routed plan outboxIds := by
    intro plan mem
    obtain ⟨_, deliveries⟩ := (planned plan mem).2
    subst sameRouted
    exact Carries.of_intents stored deliveries
  exact kept.trans (insertBundles_keepsDeliveries settledRouted
    (fun plan mem => (planned plan mem).1) carries bundles)

/-- Every call keeps deliveries, by cases on what it does to results. -/
theorem ResultStep.keepsDeliveries {call : Call} (settled : Settled s)
    (step : ResultStep call s s')
    : KeepsDeliveries s s' := by
  have leave : ∀ {t u : Store}, LeavesResults t u → KeepsDeliveries t u := fun leaves =>
    .redeliver leaves.resultBundles (fun _ mem => leaves.outbox ▸ mem) leaves.outboxDeliveries
  cases step with
  | leaves leaves => exact leave leaves
  | recordsRoute _ _ before recorded =>
      obtain ⟨_, _, _, rfl⟩ := recordRoute_ok recorded
      exact (leave before).trans (.redeliver (.refl _) (fun _ mem => mem) rfl)
  | ends before created after _ =>
      exact ((leave before).trans
        (createTerminalBundles_keepsDeliveries (settled.leave before) created)).trans (leave after)

theorem after_keepsDeliveries {w : World} (reached : runtime.Reachable w) (call : Call)
    : KeepsDeliveries w.store (w.after call).store := by
  rcases w.after_cases call with same | ⟨answer, s, performed, same⟩
  · exact same.symm ▸ .refl _
  · rw [same, World.commit_store]
    exact (perform_resultStep performed).keepsDeliveries (reachable_settled reached)

/-- Every stored bundle has its deliveries, by induction on the history. -/
theorem reachable_delivers {w : World} (reached : runtime.Reachable w)
    : ∀ bundle ∈ w.store.resultBundles, ∃ deliveries, Delivers w.store bundle deliveries := by
  refine reached.invariant (J := fun w => ∀ bundle ∈ w.store.resultBundles,
    ∃ deliveries, Delivers w.store bundle deliveries) ?_ ?_
  · rintro w ⟨actors, identities, rfl⟩ bundle mem
    exact absurd mem (Table.not_mem_empty _)
  · rintro w call _ known delivered ⟨-, rfl⟩ bundle' mem
    have kept := after_keepsDeliveries known call
    rcases kept.origin bundle' mem with ⟨bundle, stored, same⟩ | delivers
    · obtain ⟨deliveries, delivers⟩ := delivered bundle stored
      exact ⟨deliveries, kept.delivers stored same delivers⟩
    · exact delivers

/-- Bundles keep their deliveries along every run, by induction on it. -/
theorem run_keepsDeliveries {w w' : World} (reached : runtime.Reachable w)
    (run : runtime.Run w w')
    : KeepsDeliveries w.store w'.store := by
  refine (run.invariant (J := fun w' => KeepsDeliveries w.store w'.store) ?_ reached
    (.refl _)).2
  rintro u call _ known keeps ⟨-, rfl⟩
  exact keeps.trans (after_keepsDeliveries known call)

/-- The memberships of a bundle stay the rows they are. -/
theorem KeepsDeliveries.memberships_eq (keeps : KeepsDeliveries s s') {bundle : BundleRow}
    (stored : bundle ∈ s.resultBundles) {deliveries : List (DeliveryId × FinalPayload)}
    (delivers : Delivers s bundle deliveries)
    : memberships s' bundle.id = memberships s bundle.id := by
  have rows : deliveryRows s' bundle.id = deliveryRows s bundle.id :=
    Table.selectOrdered_congr
      (fun a b ha hb same => Or.inr (Or.inr ⟨ha.trans hb.symm, same⟩))
      (keeps.rows bundle stored)
  unfold deliveryRows at rows
  unfold memberships
  rw [rows]
  refine List.filterMap_congr (fun row mem => ?_)
  obtain ⟨known, here⟩ := Table.mem_selectOrdered.mp mem
  obtain ⟨-, outbox, stored', same, -⟩ := delivers.member row known here
  have found : ∀ t : Store, outbox ∈ t.outbox → t.outbox.find? (·.id = row.outboxId) = some outbox :=
    fun t mem => Table.find?_eq_some_of_unique mem same
      (fun other known same' => Table.eq_of_clash known mem (Or.inl (same'.trans same.symm)))
  rw [found s stored', found s' (keeps.outbox outbox stored')]

-----------------------------------------------------------------------------------------
-- Moves
-----------------------------------------------------------------------------------------

/-- The bundle is delivered or will never be. -/
def BundleRow.Ended (bundle : BundleRow) : Prop :=
  bundle.state = .delivered ∨ bundle.state = .failedTerminal

/-- The bundle is on its way under the claim. -/
def BundleRow.Under (bundle : BundleRow) (claim : BundleClaim) : Prop :=
  bundle.id = claim.bundleId ∧ bundle.state = .delivering
    ∧ bundle.claimOwner = some claim.owner ∧ bundle.claimExpiresAt = some claim.expiresAt

/-- The claims an answer hands out. -/
def Answer.handsOut : Answer → List BundleClaim
  | .bundle (.claimed bundles) => bundles.map (·.claim)
  | .bundle (.renewal (.renewed claim)) => [claim]
  | _ => []

/-- The acknowledgement comes from the actor of the bundle's own request and lists exactly
the deliveries of its manifest, each of them once.
-/
structure Acknowledges (s : Store) (ack : BundleAck) (bundle : BundleRow) : Prop where
  bundleId : bundle.id = ack.bundleId
  requestId : bundle.requestId = ack.requestId
  request : ∃ request ∈ s.localRequests, request.requestId = ack.requestId
    ∧ request.actorId = ack.actorId ∧ request.resultBundleId = some ack.bundleId
  deliveryIds : ∃ loaded, loadBundle ack.bundleId s = .ok loaded ∧ ack.deliveryIds.Nodup
    ∧ ∀ id, id ∈ ack.deliveryIds ↔ id ∈ loaded.manifest.map (·.deliveryId)

/-- What a call that answers so may do to a bundle. -/
inductive BundleMove (call : Call) (answer : Answer) (s : Store) (row row' : BundleRow) : Prop
  | stays (same : row' = row)
  | fails (unfinished : ¬row.Ended)
      (state : row'.state = .failedRetryable ∨ row'.state = .failedTerminal)
  | claims (unfinished : ¬row.Ended) (claim : BundleClaim) (handed : claim ∈ answer.handsOut)
      (under : row'.Under claim)
  | acknowledges (unfinished : ¬row.Ended) (ack : BundleAck)
      (isCall : call = .deliverBundle (.acknowledgeBundle ack)) (valid : Acknowledges s ack row)
      (state : row'.state = .delivered)

/-- Rows of bundles that a call moves, or stores as pending. -/
structure BundlesMove (call : Call) (answer : Answer) (s : Store) (after : Table BundleRow)
    : Prop where
  forward : ∀ row ∈ s.resultBundles, ∃ row' ∈ after, row'.id = row.id
    ∧ BundleMove call answer s row row'
  backward : ∀ row' ∈ after, (∃ row ∈ s.resultBundles, row'.id = row.id
      ∧ BundleMove call answer s row row')
    ∨ row'.state = .pending ∧ ∀ row ∈ s.resultBundles, row.id ≠ row'.id

theorem BundleRow.not_ended_of_delivering {row : BundleRow} (state : row.state = .delivering)
    : ¬row.Ended := by
  unfold BundleRow.Ended
  simp [state]

theorem Claimable.not_ended {now : Timestamp} {row : BundleRow} (claimable : Claimable now row)
    : ¬row.Ended := by
  unfold BundleRow.Ended
  rcases claimable with state | ⟨state, -⟩ <;> simp [state]

/-- The bundles of a store whose bundles are moved and not added. -/
theorem BundlesMove.of_rewrites {call : Call} {answer : Answer} {after : Table BundleRow}
    (rewrites : Table.Rewrites (fun row row' => row'.id = row.id
      ∧ BundleMove call answer s row row') s.resultBundles after)
    : BundlesMove call answer s after :=
  ⟨rewrites.forward, fun row' mem => Or.inl (rewrites.backward row' mem)⟩

theorem BundlesMove.same {call : Call} {answer : Answer} (same : s'.resultBundles = s.resultBundles)
    : BundlesMove call answer s s'.resultBundles :=
  same ▸ .of_rewrites (.refl (fun _ => ⟨rfl, .stays rfl⟩) _)

/-- An update moves the bundles when it moves each one it changes. -/
theorem BundlesMove.update {call : Call} {answer : Answer} {p : BundleRow → Prop}
    [DecidablePred p] {f : BundleRow → BundleRow} {k : Table.KeepsKey f}
    (step : ∀ row ∈ s.resultBundles, p row → (f row).id = row.id
      ∧ BundleMove call answer s row (f row))
    : BundlesMove call answer s (s.resultBundles.updateWhere p f k) :=
  .of_rewrites (.update (fun _ => ⟨rfl, .stays rfl⟩) step)

-----------------------------------------------------------------------------------------
-- Claims
-----------------------------------------------------------------------------------------

/-- What a batch of claims may do to a bundle. -/
inductive ClaimMove (handed : List BundleClaim) (row row' : BundleRow) : Prop
  | stays (same : row' = row)
  | expires (unfinished : ¬row.Ended) (state : row'.state = .failedRetryable)
  | claims (unfinished : ¬row.Ended) (claim : BundleClaim) (mem : claim ∈ handed)
      (under : row'.Under claim)

theorem ClaimMove.trans {handed : List BundleClaim} {a b c : BundleRow}
    (first : ClaimMove handed a b) (second : ClaimMove handed b c)
    : ClaimMove handed a c := by
  have unfinished (moved : ¬b.Ended) : ¬a.Ended := by
    cases first with
    | stays same => exact same ▸ moved
    | expires unfinished _ => exact unfinished
    | claims unfinished _ _ _ => exact unfinished
  cases second with
  | stays same => exact same ▸ first
  | expires moved state => exact .expires (unfinished moved) state
  | claims moved claim mem under => exact .claims (unfinished moved) claim mem under

theorem ClaimMove.mono {handed more : List BundleClaim} {row row' : BundleRow}
    (move : ClaimMove handed row row') (grows : ∀ claim ∈ handed, claim ∈ more)
    : ClaimMove more row row' := by
  cases move with
  | stays same => exact .stays same
  | expires unfinished state => exact .expires unfinished state
  | claims unfinished claim mem under => exact .claims unfinished claim (grows claim mem) under

/-- The bundles before and after a batch of claims. -/
abbrev ClaimsMove (handed : List BundleClaim) (before after : Table BundleRow) : Prop :=
  Table.Rewrites (fun row row' => row'.id = row.id ∧ ClaimMove handed row row') before after

theorem ClaimsMove.join {handed : List BundleClaim} {a b c : Table BundleRow}
    (first : ClaimsMove handed a b) (second : ClaimsMove handed b c)
    : ClaimsMove handed a c :=
  first.trans second (fun step step' => ⟨step'.1.trans step.1, step.2.trans step'.2⟩)

/-- A batch claims the bundles it answers with, by induction on the candidates. -/
theorem claimEach_moves {owner : String} {requested : List RequestId}
    {now expiry : Timestamp} {limit : Nat} {candidates : List BundleRow}
    : ClaimsMove ((claimEach owner requested now expiry limit candidates s).1.map (·.claim))
        s.resultBundles (claimEach owner requested now expiry limit candidates s).2.resultBundles := by
  induction candidates generalizing s limit with
  | nil => exact .refl (fun _ => ⟨rfl, .stays rfl⟩) _
  | cons candidate rest ih =>
      simp only [claimEach]
      split
      · exact ih
      · have others := @ih { s with
          resultBundles := s.resultBundles.updateWhere
            (fun row => row.id = candidate.id ∧ Claimable now row) (·.claim owner expiry) }
          (limit - 1)
        refine ClaimsMove.join ?_ (others.mono (fun _ _ step =>
          ⟨step.1, step.2.mono (fun claim mem => List.mem_cons_of_mem _ mem)⟩))
        refine .update (fun _ => ⟨rfl, .stays rfl⟩) (fun row _ chosen => ⟨rfl, ?_⟩)
        obtain ⟨same, claimable⟩ := chosen
        exact .claims claimable.not_ended ⟨candidate.id, owner, expiry⟩ List.mem_cons_self
          ⟨same, rfl, rfl, rfl⟩

theorem claimReadyBundleRefs_moves {call : Call} {owner : String} {requestIds : List RequestId}
    {now expiry : Timestamp} {limit : Nat} {bundles : List ClaimedBundleRef}
    (claimed
      : claimReadyBundleRefs owner requestIds now expiry limit s = .ok (bundles, s'))
    : BundlesMove call (.bundle (.claimed bundles)) s s'.resultBundles := by
  simp only [claimReadyBundleRefs, bind_eq_ok] at claimed
  obtain ⟨-, -, result⟩ := claimed
  injection result with result
  have refs : bundles = _ := congrArg Prod.fst result.symm
  have reached : s' = _ := congrArg Prod.snd result.symm
  have interrupts : ClaimsMove (bundles.map (·.claim)) s.resultBundles
      (s.resultBundles.updateWhere (ClaimExpired now)
        (·.interrupt now "bundle claim expired before acknowledgement")) :=
    .update (fun _ => ⟨rfl, .stays rfl⟩) (fun row _ expired =>
      ⟨rfl, .expires (BundleRow.not_ended_of_delivering expired.1) rfl⟩)
  rw [refs] at interrupts
  have moves := interrupts.join claimEach_moves
  rw [← reached, ← refs] at moves
  refine .of_rewrites (moves.mono (fun row row' step => ⟨step.1, ?_⟩))
  cases step.2 with
  | stays same => exact .stays same
  | expires unfinished state => exact .fails unfinished (Or.inl state)
  | claims unfinished claim mem under => exact .claims unfinished claim mem under

-----------------------------------------------------------------------------------------
-- Deliveries
-----------------------------------------------------------------------------------------

/-- A validated acknowledgement comes from the actor and lists the manifest. -/
theorem validateAck_ok {ack : BundleAck} {bundle : BundleRow} {request : RequestRow} {u : Unit}
    (stored : request ∈ s.localRequests) (own : request.requestId = bundle.requestId)
    (bundleId : bundle.id = ack.bundleId)
    (valid : validateAck ack bundle request s = .ok u)
    : Acknowledges s ack bundle := by
  simp only [validateAck, bind_eq_ok, require_eq_ok] at valid
  obtain ⟨_, requestId, _, actorId, _, result, canonical, loaded, _, -, -, nodup, exact'⟩ := valid
  refine ⟨bundleId, requestId, ⟨request, stored, own.trans requestId, actorId, result⟩, canonical,
    loaded, nodup, fun id => ?_⟩
  constructor
  · intro mem
    exact List.mem_dedup.mp (exact' id (List.mem_append_right _ mem)).1
  · intro mem
    exact (exact' id (List.mem_append_left _ (List.mem_dedup.mpr mem))).2

/-- The operations of deliverers and recipients move bundles, by cases on the operation. -/
theorem BundleStep.perform_moves {step : BundleStep} {answer : BundleAnswer}
    (performed : step.perform s = .ok (answer, s'))
    : BundlesMove (.deliverBundle step) (.bundle answer) s s'.resultBundles := by
  cases step <;> simp only [BundleStep.perform, bind_eq_ok] at performed <;>
    obtain ⟨⟨value, t⟩, done, result⟩ := performed <;> cases result
  case claimReadyBundleRefs owner requestIds now expiry limit =>
    exact claimReadyBundleRefs_moves done
  case renewBundle claim now expiry =>
    simp only [Sqlite.renewBundle, bind_eq_ok] at done
    obtain ⟨-, -, done⟩ := done
    split at done
    · cases done
      refine .update (fun row _ live => ⟨rfl, ?_⟩)
      obtain ⟨id, state, owner, -, -⟩ := live
      exact .claims (BundleRow.not_ended_of_delivering state) { claim with expiresAt := expiry }
        List.mem_cons_self ⟨id, state, owner, rfl⟩
    · cases done
      exact .same rfl
  case loadClaimedBundle claim now =>
    unfold Sqlite.loadClaimedBundle at done
    split at done
    · cases done
      exact .same rfl
    · rename_i bundle found
      obtain ⟨bundleStored, bundleId⟩ := Table.find?_some found
      split at done
      · cases done
        exact .same rfl
      · split at done
        · cases done
          exact .same rfl
        · rename_i claimed
          have current : ClaimedBy claim now bundle := not_not.mp claimed
          split at done
          · cases done
            refine .update (fun row stored same => ⟨rfl, .fails ?_ (Or.inr rfl)⟩)
            have : row = bundle :=
              Table.eq_of_clash stored bundleStored (Or.inl (same.trans bundleId.symm))
            exact this ▸ BundleRow.not_ended_of_delivering current.2.1
          · split at done
            · cases done
              exact .same rfl
            · simp only [bind_eq_ok] at done
              obtain ⟨-, -, result⟩ := done
              cases result
              exact .update (fun row _ current => ⟨rfl,
                .fails (BundleRow.not_ended_of_delivering current.2.1) (Or.inr rfl)⟩)
  case acknowledgeBundle ack =>
    unfold Sqlite.acknowledgeBundle at done
    split at done
    · cases done
    · rename_i bundle found
      obtain ⟨bundleStored, bundleId⟩ := Table.find?_some found
      split at done
      · cases done
      · rename_i request foundRequest
        obtain ⟨requestStored, own⟩ := Table.find?_some foundRequest
        simp only [bind_eq_ok] at done
        obtain ⟨_, valid, done⟩ := done
        have acknowledges := validateAck_ok requestStored own bundleId valid
        split at done
        · cases done
          exact .same rfl
        · cases done
        · cases done
        · cases done
          refine .update (fun row stored acknowledged => ⟨rfl, ?_⟩)
          obtain ⟨same, state⟩ := acknowledged
          have : row = bundle :=
            Table.eq_of_clash stored bundleStored (Or.inl (same.trans bundleId.symm))
          refine .acknowledges ?_ ack rfl (this ▸ acknowledges) rfl
          unfold BundleRow.Ended
          rcases state with state | state <;> simp [state]
  case failBundleRetryable claim error nextAttempt now =>
    unfold Sqlite.failBundleRetryable at done
    split at done
    · cases done
      exact .update (fun row _ current => ⟨rfl,
        .fails (BundleRow.not_ended_of_delivering current.2.1) (Or.inl rfl)⟩)
    · cases done
      exact .same rfl
  case failBundleTerminal claim error now =>
    simp only [Sqlite.failBundleTerminal, bind_eq_ok] at done
    obtain ⟨-, -, result⟩ := done
    cases result
    exact .update (fun row _ current => ⟨rfl,
      .fails (BundleRow.not_ended_of_delivering current.2.1) (Or.inr rfl)⟩)

-----------------------------------------------------------------------------------------
-- All calls
-----------------------------------------------------------------------------------------

/-- Bundles are stored as pending ones beside those that are there. -/
structure BundlesGrow (before after : Table BundleRow) : Prop where
  forward : ∀ row ∈ before, row ∈ after
  backward : ∀ row ∈ after, row ∈ before
    ∨ row.state = .pending ∧ ∀ old ∈ before, old.id ≠ row.id

theorem BundlesGrow.refl (bundles : Table BundleRow) : BundlesGrow bundles bundles :=
  ⟨fun _ mem => mem, fun _ mem => Or.inl mem⟩

theorem BundlesGrow.trans {a b c : Table BundleRow} (first : BundlesGrow a b)
    (second : BundlesGrow b c)
    : BundlesGrow a c where
  forward row mem := second.forward row (first.forward row mem)
  backward row mem := by
    rcases second.backward row mem with old | ⟨pending, fresh⟩
    · exact first.backward row old
    · exact Or.inr ⟨pending, fun old stored => fresh old (first.forward old stored)⟩

theorem BundlesGrow.moves {call : Call} {answer : Answer} {after : Table BundleRow}
    (grow : BundlesGrow s.resultBundles after)
    : BundlesMove call answer s after where
  forward row mem := ⟨row, grow.forward row mem, rfl, .stays rfl⟩
  backward row mem := (grow.backward row mem).imp (fun old => ⟨row, old, rfl, .stays rfl⟩) id

theorem insertBundles_grow {terminal : TerminalState} {now : Timestamp}
    {outboxIds : List OutboxId} {plans : List BundlePlan}
    (inserted : insertBundles terminal now outboxIds plans s = .ok s')
    : BundlesGrow s.resultBundles s'.resultBundles := by
  induction plans generalizing s with
  | nil =>
      cases inserted
      exact .refl _
  | cons plan rest ih =>
      simp only [insertBundles, insertBundle, bind_eq_ok, execute_eq_ok] at inserted
      obtain ⟨_, ⟨bundles, stored, middle, delivered, _, _, result⟩, others⟩ := inserted
      cases result
      obtain ⟨_, rfl, -⟩ := insertDeliveries_ok delivered
      refine BundlesGrow.trans ⟨fun row mem => (Table.mem_insert? stored).mpr (Or.inl mem),
        fun row mem => ?_⟩ (ih others)
      rcases (Table.mem_insert? stored).mp mem with old | rfl
      · exact Or.inl old
      · exact Or.inr ⟨rfl, fun old known same =>
          Table.fresh_of_insert? stored old known (Or.inl same)⟩

theorem createTerminalBundles_grow {context : TerminalBundleContext}
    {requestIds : List RequestId} {intents : List NewOutboxIntent}
    {requested terminal : TerminalState} {now : Timestamp} {ids : FreshIds}
    (created
      : createTerminalBundles context requestIds intents requested now ids s
        = .ok (terminal, s'))
    : BundlesGrow s.resultBundles s'.resultBundles := by
  simp only [createTerminalBundles, bind_eq_ok] at created
  obtain ⟨_, _, _, _, _, _, ⟨_, _⟩, outboxOk, _, routedOk, _, bundles, result⟩ := created
  cases result
  obtain ⟨⟨_, rfl, -⟩, -⟩ := insertOutboxes_ok outboxOk
  obtain ⟨_, _, rfl⟩ := routeIntents_ok routedOk
  have grow := insertBundles_grow bundles
  exact grow

theorem finalizeRun_grow {command : FinalizeRun} {now : Timestamp} {ids : FreshIds}
    {outcome : FinalizeOutcome} (finalized : finalizeRun command now ids s = .ok (outcome, s'))
    : BundlesGrow s.resultBundles s'.resultBundles := by
  simp only [finalizeRun, bind_eq_ok] at finalized
  obtain ⟨_, -, rest⟩ := finalized
  split at rest
  · cases rest
    exact .refl _
  · simp only [insertMessages, bind_eq_ok] at rest
    obtain ⟨_, -, _, ⟨_, _, stored⟩, _, -, ⟨_, _⟩, created, result⟩ := rest
    cases stored
    cases result
    have grow := createTerminalBundles_grow created
    exact grow

theorem cancelRun_grow {run : AttachedRun} {control : ControlEvent} {now : Timestamp}
    {ids : FreshIds} {u : Unit} (cancelled : cancelRun run control now ids s = .ok (u, s'))
    : BundlesGrow s.resultBundles s'.resultBundles := by
  simp only [cancelRun, bind_eq_ok] at cancelled
  obtain ⟨_, -, _, -, t, created, result⟩ := cancelled
  cases result
  unfold createCancellationBundles at created
  split at created
  · cases created
    exact .refl _
  · simp only [bind_eq_ok] at created
    obtain ⟨⟨_, _⟩, bundles, stored⟩ := created
    cases stored
    have grow := createTerminalBundles_grow bundles
    exact grow

theorem recordFailure_grow {fence : FailureFence} {error : String} {progress : QuantumProgress}
    {now : Timestamp} {ids : FreshIds} {disposition : FailureDisposition}
    (recorded : recordFailure fence error progress now ids s = .ok (disposition, s'))
    : BundlesGrow s.resultBundles s'.resultBundles := by
  simp only [recordFailure, bind_eq_ok] at recorded
  obtain ⟨_, -, rest⟩ := recorded
  split at rest
  · cases rest
  · split at rest
    · cases rest
      exact .refl _
    · simp only [terminalizeWork, bind_eq_ok] at rest
      obtain ⟨_, ended, result⟩ := rest
      cases result
      split at ended
      · simp only [bind_eq_ok] at ended
        obtain ⟨⟨_, _⟩, created, _, failed, stored⟩ := ended
        cases failed
        cases stored
        have grow := createTerminalBundles_grow created
        exact grow
      · cases ended
        exact .refl _

/-- Ingress leaves the bundles alone and the stored requests as they are, by cases on the call.
-/
theorem ingress_results {call : Call} {answer : Answer} (ingress : call.IsIngress)
    (performed : call.perform s = .ok (answer, s'))
    : s'.resultBundles = s.resultBundles ∧ RequestsStay s.localRequests s'.localRequests := by
  cases call with
  | ingest event now ids =>
      obtain ⟨_, done, -⟩ := answering_eq_ok.mp performed
      simp only [ingest, bind_eq_ok] at done
      obtain ⟨_, _, done⟩ := done
      split at done
      · cases done
        exact ⟨rfl, .refl _⟩
      · split at done
        · cases done
          exact ⟨rfl, .refl _⟩
        · simp only [bind_eq_ok] at done
          obtain ⟨_, _, _, _, _, _, _, recorded, result⟩ := done
          cases result
          obtain ⟨_, _, _, rfl⟩ := recordRoute_ok recorded
          exact ⟨rfl, .refl _⟩
  | submitForActor actorId command now ids =>
      obtain ⟨_, done, -⟩ := answering_eq_ok.mp performed
      unfold submitForActor at done
      split at done
      · split at done
        · split at done
          · split at done <;> cases done
            exact ⟨rfl, .refl _⟩
          · cases done
            exact ⟨rfl, .refl _⟩
        · simp only [bind_eq_ok, execute_eq_ok] at done
          obtain ⟨_, _, _, _, _, _, _, stored, result⟩ := done
          cases result
          exact ⟨rfl, fun request mem =>
            ⟨request, (Table.mem_insert? stored).mpr (Or.inl mem), .refl request⟩⟩
      · cases done
        exact ⟨rfl, .refl _⟩
  | cancelForActor actorId command now ids =>
      obtain ⟨_, done, -⟩ := answering_eq_ok.mp performed
      simp only [cancelForActor, bind_eq_ok] at done
      obtain ⟨_, _, done⟩ := done
      split at done
      · simp only [bind_eq_ok] at done
        obtain ⟨_, _, _, _, _, _, result⟩ := done
        cases result
        exact ⟨rfl, .refl _⟩
      · split at done
        · cases done
        · split at done
          · simp only [acceptCancel, bind_eq_ok] at done
            obtain ⟨⟨_, m⟩, reattached, _, _, _, _, _, _, result⟩ := done
            cases result
            have stay := (reattachRequest_mailboxes reattached).localRequests
            unfold reattachRequest at reattached
            split at reattached
            · cases reattached
              exact ⟨rfl, stay⟩
            · simp only [bind_eq_ok] at reattached
              obtain ⟨_, _, _, _, result⟩ := reattached
              cases result
              exact ⟨rfl, stay⟩
          · cases done
            exact ⟨rfl, .refl _⟩
  | ingestWebhook event now ids =>
      obtain ⟨_, done, -⟩ := answering_eq_ok.mp performed
      simp only [ingestWebhook, acceptWebhook] at done
      split at done
      · split at done
        · cases done
          exact ⟨rfl, .refl _⟩
        · simp only [storeWebhook, bind_eq_ok] at done
          obtain ⟨_, ⟨_, _, _, _, _, _, stored⟩, _, _, result⟩ := done
          cases stored
          cases result
          exact ⟨rfl, .refl _⟩
      · cases done
        exact ⟨rfl, .refl _⟩
  | _ => exact ingress.elim

/-- Stored requests stay in every call. -/
theorem perform_requestsStay {call : Call} {answer : Answer}
    (performed : call.perform s = .ok (answer, s'))
    : RequestsStay s.localRequests s'.localRequests := by
  by_cases ingress : call.IsIngress
  · exact (ingress_results ingress performed).2
  · exact (perform_mailboxesStay ingress performed).localRequests

theorem attachNextRun_resultBundles {lease : ActorLease} {maxEvents : Nat} {now : Timestamp}
    {ids : FreshIds} {answer : Option AttachedRun}
    (attached : attachNextRun lease maxEvents now ids s = .ok (answer, s'))
    : s'.resultBundles = s.resultBundles := by
  have resume : ∀ {t : Store} {row work}, resumeRun lease maxEvents row work now t
      = .ok (answer, s') → s'.resultBundles = t.resultBundles := by
    intro t row work resumed
    simp only [resumeRun, bind_eq_ok] at resumed
    obtain ⟨m, taken, _, _, rest⟩ := resumed
    obtain ⟨_, _, rfl, -⟩ := attachEvents_ok taken
    split at rest
    · cases rest
      rfl
    · split at rest <;> cases rest <;> rfl
  obtain ⟨-, -, ⟨row, work, -, -, -, resumed⟩ | ⟨-, -, -, rfl⟩ |
    ⟨row, work, m, -, opened, resumed⟩⟩ := attachNextRun_ok attached
  · exact resume resumed
  · rfl
  · obtain ⟨m', assigned, ⟨-, none⟩ | ⟨event, work', runs, opens, some'⟩⟩ := openRun_ok opened
    · cases none
    · cases some'
      refine (resume resumed).trans ?_
      unfold assignUnassigned at assigned
      split at assigned
      · cases assigned
        rfl
      · simp only [bind_eq_ok] at assigned
        obtain ⟨_, _, result⟩ := assigned
        cases result
        rfl

theorem incorporateEach_resultBundles {runId : RunId} {eventIds : List EventId}
    (marked : incorporateEach runId eventIds s = .ok s')
    : s'.resultBundles = s.resultBundles := by
  obtain ⟨_, rfl⟩ := incorporateEach_store marked
  rfl

theorem recoverCandidates_resultBundles (now : Timestamp)
    (candidates : List RecoveredUnknownOutcome)
    : (recoverCandidates now candidates s).2.resultBundles = s.resultBundles := by
  obtain ⟨_, _, same⟩ := recoverCandidates_store (s := s) now candidates
  rw [same]

/-- Every call moves the bundles as it may, by cases on the call. -/
theorem perform_bundlesMove {call : Call} {answer : Answer}
    (performed : call.perform s = .ok (answer, s'))
    : BundlesMove call answer s s'.resultBundles := by
  by_cases ingress : call.IsIngress
  · exact .same (ingress_results ingress performed).1
  cases call <;> simp only [Call.perform, answering_eq_ok, reading_eq_ok] at performed
  case ingest => exact absurd trivial ingress
  case submitForActor => exact absurd trivial ingress
  case cancelForActor => exact absurd trivial ingress
  case ingestWebhook => exact absurd trivial ingress
  case acquireReadyActor =>
    obtain ⟨_, done, -⟩ := performed
    obtain ⟨_, rfl⟩ := acquire_ok done
    exact .same rfl
  case acquireReadyActorFor =>
    obtain ⟨_, done, -⟩ := performed
    obtain ⟨_, rfl⟩ := acquire_ok done
    exact .same rfl
  case renewLease =>
    obtain ⟨_, done, -⟩ := performed
    obtain ⟨-, rfl⟩ := renewLease_ok done
    exact .same rfl
  case releaseLease =>
    obtain ⟨_, done, -⟩ := performed
    cases done
    exact .same rfl
  case attachNextRun =>
    obtain ⟨_, done, -⟩ := performed
    exact .same (attachNextRun_resultBundles done)
  case newerControlEvent => exact .same (congrArg Store.resultBundles performed.1.symm)
  case checkpointRun =>
    obtain ⟨_, done, -⟩ := performed
    simp only [checkpointRun, incorporateEvents, insertMessages, bind_eq_ok] at done
    obtain ⟨_, _, m, ⟨_, _, marked⟩, _, attempts, _, ⟨_, _, stored⟩, result⟩ := done
    cases stored
    cases result
    obtain ⟨_, rfl⟩ := checkpointAttempts_ok attempts
    have same := incorporateEach_resultBundles marked
    exact .same same
  case finalizeRun =>
    obtain ⟨_, done, -⟩ := performed
    exact (finalizeRun_grow done).moves
  case cancelRun =>
    obtain ⟨_, done, -⟩ := performed
    exact (cancelRun_grow done).moves
  case prepareAttempt =>
    obtain ⟨_, done, -⟩ := performed
    simp only [prepareAttempt, bind_eq_ok] at done
    obtain ⟨_, _, _, _, _, _, _, _, result⟩ := done
    cases result
    exact .same rfl
  case markAttemptRunning =>
    obtain ⟨_, done, -⟩ := performed
    obtain ⟨-, -, rfl⟩ := transitionAttempt_ok done
    exact .same rfl
  case rejectPreparedAttempt =>
    obtain ⟨_, done, -⟩ := performed
    unfold rejectPreparedAttempt at done
    split at done
    · cases done
    · obtain ⟨-, -, rfl⟩ := transitionAttempt_ok done
      exact .same rfl
  case finishAttempt =>
    obtain ⟨_, done, -⟩ := performed
    obtain ⟨-, -, rfl⟩ := transitionAttempt_ok done
    exact .same rfl
  case recoverAttempt =>
    obtain ⟨_, done, -⟩ := performed
    obtain ⟨_, rfl⟩ := recoverAttempt_ok done
    exact .same rfl
  case blockUnknownAttempt =>
    obtain ⟨_, done, -⟩ := performed
    simp only [blockUnknownAttempt, bind_eq_ok] at done
    obtain ⟨_, _, _, _, result⟩ := done
    cases result
    exact .same rfl
  case unresolvedAttempts => exact .same (congrArg Store.resultBundles performed.1.symm)
  case beginStaging =>
    obtain ⟨_, done, -⟩ := performed
    simp only [beginStaging, bind_eq_ok] at done
    obtain ⟨_, _, _, _, _, _, result⟩ := done
    cases result
    exact .same rfl
  case commitStagedExecution =>
    obtain ⟨_, done, -⟩ := performed
    obtain ⟨-, -, _, _, rfl⟩ := commitStagedExecution_ok done
    exact .same rfl
  case recordFailure =>
    obtain ⟨_, done, -⟩ := performed
    exact (recordFailure_grow done).moves
  case recordProgress =>
    obtain ⟨_, done, -⟩ := performed
    simp only [recordProgress, bind_eq_ok] at done
    obtain ⟨_, _, result⟩ := done
    cases result
    exact .same rfl
  case deliverBundle step =>
    obtain ⟨value, done, rfl⟩ := performed
    exact step.perform_moves done
  case recoverStartup now =>
    obtain ⟨_, done, -⟩ := performed
    cases done
    simp only [recoverCandidates_resultBundles]
    exact .update (fun row _ expired => ⟨rfl,
      .fails (BundleRow.not_ended_of_delivering expired.1) (Or.inl rfl)⟩)
  case recoverShutdown actorOwner bundleOwner now =>
    obtain ⟨_, done, -⟩ := performed
    cases done
    exact .update (fun row _ interrupted => ⟨rfl,
      .fails (BundleRow.not_ended_of_delivering interrupted.1) (Or.inl rfl)⟩)

-----------------------------------------------------------------------------------------
-- Repeated acknowledgements
-----------------------------------------------------------------------------------------

/-- An acknowledgement that is valid stays valid while deliveries and requests stay. -/
theorem validateAck_keep {ack : BundleAck} {bundle bundle' : BundleRow}
    {request request' : RequestRow} {u : Unit} {deliveries : List (DeliveryId × FinalPayload)}
    (delivers : Delivers s bundle deliveries) (keeps : KeepsDeliveries s s')
    (stored : bundle ∈ s.resultBundles) (stored' : bundle' ∈ s'.resultBundles)
    (content : SameContent bundle bundle') (bundleId : bundle.id = ack.bundleId)
    (same : SameRequest request request') (ended : request.resultBundleId ≠ none →
      request.state ≠ .active)
    (valid : validateAck ack bundle request s = .ok u)
    : validateAck ack bundle' request' s' = .ok () := by
  simp only [validateAck, bind_eq_ok, require_eq_ok] at valid ⊢
  obtain ⟨_, requestId, _, actorId, _, result, canonical, loaded, _, route, exact'⟩ := valid
  obtain ⟨manifest, accepted, here⟩ := delivers.load stored
  obtain ⟨manifest', accepted', there⟩ :=
    (keeps.delivers stored content delivers).load stored'
  have manifests : manifest' = manifest := Except.ok.inj (accepted'.symm.trans accepted)
  have memberships := keeps.memberships_eq stored delivers
  rw [content.id] at there
  rw [bundleId] at here there memberships
  cases here.symm.trans loaded
  have kept := (same.ended (ended (by simp [result]))).2
  have actor : request'.actorId = request.actorId := by rw [same.row]
  refine ⟨(), content.requestId.trans requestId, (), actor.trans actorId, (),
    kept.trans result, _, there, (), ?_, ?_⟩
  · rw [memberships]
    exact route
  · rw [memberships, manifests]
    exact exact'

/-- An acknowledgement that was answered is answered again once its bundle is delivered. -/
theorem acknowledgeBundle_again {ack : BundleAck} {outcome : AckOutcome} {t : Store}
    (settled : Settled s)
    (delivers : ∀ bundle ∈ s.resultBundles, ∃ deliveries, Delivers s bundle deliveries)
    (keeps : KeepsDeliveries s s') (requests : RequestsStay s.localRequests s'.localRequests)
    (acknowledged : acknowledgeBundle ack s = .ok (outcome, t))
    (delivered
      : ∀ bundle ∈ s'.resultBundles, bundle.id = ack.bundleId → bundle.state = .delivered)
    : acknowledgeBundle ack s' = .ok (.alreadyDelivered, s') := by
  unfold acknowledgeBundle at acknowledged
  split at acknowledged
  · cases acknowledged
  · rename_i bundle found
    obtain ⟨stored, bundleId⟩ := Table.find?_some found
    split at acknowledged
    · cases acknowledged
    · rename_i request foundRequest
      obtain ⟨requestStored, own⟩ := Table.find?_some foundRequest
      simp only [bind_eq_ok] at acknowledged
      obtain ⟨_, valid, -⟩ := acknowledged
      obtain ⟨deliveries, delivers⟩ := delivers bundle stored
      obtain ⟨bundle', stored', content⟩ := keeps.contents bundle stored
      obtain ⟨request', requestStored', same⟩ := requests request requestStored
      have ended : request.resultBundleId ≠ none → request.state ≠ .active :=
        fun some active => some ((settled.ended request requestStored).mp active)
      have valid' := validateAck_keep delivers keeps stored stored' content bundleId same ended
        valid
      have found' : s'.resultBundles.find? (·.id = ack.bundleId) = some bundle' :=
        Table.find?_eq_some_of_unique stored' (content.id.trans bundleId) (fun other known here =>
          Table.eq_of_clash known stored' (Or.inl (here.trans (content.id.trans bundleId).symm)))
      have requestId : request'.requestId = bundle'.requestId := by
        rw [same.row, content.requestId]
        exact own
      have foundRequest' : s'.localRequests.find? (·.requestId = bundle'.requestId) = some request' :=
        Table.find?_eq_some_of_unique requestStored' requestId (fun other known here =>
          Table.eq_of_clash known requestStored' (Or.inl (here.trans requestId.symm)))
      have state := delivered bundle' stored' (content.id.trans bundleId)
      simp only [acknowledgeBundle, found', foundRequest', valid', state, bind, Except.bind]

-----------------------------------------------------------------------------------------
-- The protocol
-----------------------------------------------------------------------------------------

/-- Some bundle is on its way under the claim, which has not expired. -/
def BundleClaim.Live (s : Store) (claim : BundleClaim) (now : Timestamp) : Prop :=
  ∃ bundle ∈ s.resultBundles, ClaimedBy claim now bundle

/-- The claim an operation is called with, and when. -/
def BundleStep.presents : BundleStep → Option (BundleClaim × Timestamp)
  | .renewBundle claim now _ => some (claim, now)
  | .loadClaimedBundle claim now => some (claim, now)
  | .failBundleRetryable claim _ _ now => some (claim, now)
  | .failBundleTerminal claim _ now => some (claim, now)
  | _ => none

/-- The claims a call hands out. -/
def Call.handsOut (call : Call) (s : Store) : List BundleClaim :=
  match call.perform s with
  | .ok (answer, _) => answer.handsOut
  | .error _ => []

/-- The bundle is the same one in both stores, and so is what it loads as. -/
structure Unchanged (s s' : Store) (bundle bundle' : BundleRow) : Prop where
  content : SameContent bundle bundle'
  memberships : memberships s' bundle.id = memberships s bundle.id
  loads : ∃ manifest deliveries,
    loadBundle bundle.id s
        = .ok ⟨bundle.id, bundle.requestId, bundle.state, manifest, deliveries⟩
      ∧ loadBundle bundle.id s'
        = .ok ⟨bundle.id, bundle.requestId, bundle'.state, manifest, deliveries⟩
  replays : ∀ actorId requestId loaded,
    loadReplayBundle actorId requestId bundle.id s' = .ok loaded →
      loadBundle bundle.id s' = .ok loaded
  delivers : ∀ claim now loaded t, claim.bundleId = bundle.id →
    loadClaimedBundle claim now s' = .ok (.loaded loaded, t) →
      loadBundle bundle.id s' = .ok loaded

/-- What holds of the bundles of a world whatever is called next. -/
structure FollowsProtocol (w : World) : Prop where
  absorbing : ∀ w', runtime.Run w w' → ∀ bundle ∈ w.store.resultBundles, bundle.Ended →
    bundle ∈ w'.store.resultBundles
  acknowledged : ∀ call, ∀ bundle ∈ (w.after call).store.resultBundles,
    bundle.state = .delivered → bundle ∈ w.store.resultBundles
      ∨ ∃ ack, call = .deliverBundle (.acknowledgeBundle ack)
        ∧ ∃ old ∈ w.store.resultBundles, old.id = bundle.id ∧ Acknowledges w.store ack old
  oneClaim : ∀ (now : Timestamp) (claim other : BundleClaim),
    claim.Live w.store now → other.Live w.store now →
      claim.bundleId = other.bundleId → claim = other
  handedOut : ∀ (call : Call) (now : Timestamp) (claim : BundleClaim),
    claim.Live (w.after call).store now →
      claim.Live w.store now ∨ claim ∈ call.handsOut w.store
  fenced : ∀ (step : BundleStep) (claim : BundleClaim) (now : Timestamp),
    step.presents = some (claim, now) → ¬claim.Live w.store now →
      w.after (.deliverBundle step) = w
  repeated : ∀ ack outcome s, acknowledgeBundle ack w.store = .ok (outcome, s) →
    ∀ w', runtime.Run (w.after (.deliverBundle (.acknowledgeBundle ack))) w' →
      acknowledgeBundle ack w'.store = .ok (.alreadyDelivered, w'.store)
  unchanged : ∀ w', runtime.Run w w' → ∀ bundle ∈ w.store.resultBundles,
    ∃ bundle' ∈ w'.store.resultBundles, Unchanged w.store w'.store bundle bundle'

/-- Every call moves the bundles as it may, whether it commits or fails. -/
theorem World.after_bundlesMove (w : World) (call : Call)
    : ∃ answer, BundlesMove call answer w.store (w.after call).store.resultBundles
      ∧ ∀ claim ∈ answer.handsOut, claim ∈ call.handsOut w.store := by
  unfold World.after Call.handsOut
  cases performed : call.perform w.store with
  | ok done =>
      refine ⟨done.1, ?_, fun _ mem => mem⟩
      simp only [World.commit_store]
      exact perform_bundlesMove performed
  | error error => exact ⟨.done, .same rfl, fun _ mem => absurd mem List.not_mem_nil⟩

theorem World.after_requestsStay (w : World) (call : Call)
    : RequestsStay w.store.localRequests (w.after call).store.localRequests := by
  rcases w.after_cases call with same | ⟨answer, s, performed, same⟩
  · exact same.symm ▸ .refl _
  · rw [same, World.commit_store]
    exact perform_requestsStay performed

/-- A bundle that has ended stays as it is. -/
theorem World.after_ended (w : World) (call : Call) {bundle : BundleRow}
    (stored : bundle ∈ w.store.resultBundles) (ended : bundle.Ended)
    : bundle ∈ (w.after call).store.resultBundles := by
  obtain ⟨answer, moves, -⟩ := w.after_bundlesMove call
  obtain ⟨bundle', stored', -, move⟩ := moves.forward bundle stored
  cases move with
  | stays same => exact same ▸ stored'
  | fails unfinished _ => exact absurd ended unfinished
  | claims unfinished _ _ _ => exact absurd ended unfinished
  | acknowledges unfinished _ _ _ _ => exact absurd ended unfinished

/-- A bundle that has ended stays as it is in every run, by induction on it. -/
theorem run_ended {w w' : World} (run : runtime.Run w w') {bundle : BundleRow}
    (stored : bundle ∈ w.store.resultBundles) (ended : bundle.Ended)
    : bundle ∈ w'.store.resultBundles := by
  refine run.kept (J := fun w' => bundle ∈ w'.store.resultBundles) ?_ stored
  rintro u call _ known ⟨-, rfl⟩
  exact u.after_ended call known ended

/-- Stored requests stay in every run, by induction on it. -/
theorem run_requestsStay {w w' : World} (run : runtime.Run w w')
    : RequestsStay w.store.localRequests w'.store.localRequests := by
  refine run.kept (J := fun w' => RequestsStay w.store.localRequests w'.store.localRequests) ?_
    (.refl _)
  rintro u call _ stay ⟨-, rfl⟩
  exact stay.trans (u.after_requestsStay call)

/-- Only an acknowledgement delivers a bundle. -/
theorem World.after_delivered (w : World) (call : Call) {bundle : BundleRow}
    (stored : bundle ∈ (w.after call).store.resultBundles) (delivered : bundle.state = .delivered)
    : bundle ∈ w.store.resultBundles
      ∨ ∃ ack, call = .deliverBundle (.acknowledgeBundle ack)
        ∧ ∃ old ∈ w.store.resultBundles, old.id = bundle.id ∧ Acknowledges w.store ack old := by
  obtain ⟨answer, moves, -⟩ := w.after_bundlesMove call
  rcases moves.backward bundle stored with ⟨old, known, same, move⟩ | ⟨pending, -⟩
  · cases move with
    | stays kept => exact Or.inl (kept ▸ known)
    | fails _ state => simp [delivered] at state
    | claims _ _ _ under =>
        have state := under.2.1
        simp [delivered] at state
    | acknowledges _ ack isCall valid _ => exact Or.inr ⟨ack, isCall, old, known, same.symm, valid⟩
  · simp [delivered] at pending

/-- A claim becomes current by being handed out. -/
theorem BundlesMove.live {call : Call} {answer : Answer} {claim : BundleClaim} {now : Timestamp}
    (moves : BundlesMove call answer s s'.resultBundles) (live : claim.Live s' now)
    : claim.Live s now ∨ claim ∈ answer.handsOut := by
  obtain ⟨bundle, stored, id, state, owner, expiry, current⟩ := live
  rcases moves.backward bundle stored with ⟨old, known, same, move⟩ | ⟨pending, -⟩
  · cases move with
    | stays kept => exact Or.inl ⟨bundle, kept ▸ known, id, state, owner, expiry, current⟩
    | fails _ failed => simp [state] at failed
    | claims _ other mem under =>
        obtain ⟨id', -, owner', expiry'⟩ := under
        have same : other = claim := by
          obtain ⟨_, _, _⟩ := claim
          obtain ⟨_, _, _⟩ := other
          simp_all
        exact Or.inr (same ▸ mem)
    | acknowledges _ ack isCall valid delivered => simp [state] at delivered
  · simp [state] at pending

theorem World.after_live (w : World) (call : Call) {claim : BundleClaim} {now : Timestamp}
    (live : claim.Live (w.after call).store now)
    : claim.Live w.store now ∨ claim ∈ call.handsOut w.store := by
  obtain ⟨answer, moves, handed⟩ := w.after_bundlesMove call
  exact (moves.live live).imp_right (handed claim)

theorem oneClaim {now : Timestamp} {claim other : BundleClaim} (live : claim.Live s now)
    (live' : other.Live s now) (same : claim.bundleId = other.bundleId)
    : claim = other := by
  obtain ⟨bundle, stored, id, -, owner, expiry, -⟩ := live
  obtain ⟨bundle', stored', id', -, owner', expiry', -⟩ := live'
  have : bundle = bundle' :=
    Table.eq_of_clash stored stored' (Or.inl (id.trans (same.trans id'.symm)))
  subst this
  obtain ⟨_, _, _⟩ := claim
  obtain ⟨_, _, _⟩ := other
  simp_all

theorem count_claimedBy_of_not_live {claim : BundleClaim} {now : Timestamp}
    (dead : ¬claim.Live s now)
    : s.resultBundles.count (ClaimedBy claim now) ≠ 1 := by
  intro one
  obtain ⟨bundle, mem⟩ : ∃ bundle, bundle ∈ s.resultBundles.select (ClaimedBy claim now) :=
    List.exists_mem_of_length_pos (by unfold Table.count at one; omega)
  exact dead ⟨bundle, Table.mem_select.mp mem⟩

/-- An operation called with a claim that is not current changes nothing, by cases on it. -/
theorem World.after_fenced (w : World) {step : BundleStep} {claim : BundleClaim}
    {now : Timestamp} (presents : step.presents = some (claim, now))
    (dead : ¬claim.Live w.store now)
    : w.after (.deliverBundle step) = w := by
  have none := count_claimedBy_of_not_live dead
  have stays : ∀ result, step.perform w.store = result →
      (∀ answer s, result = .ok (answer, s) → s = w.store) → w.after (.deliverBundle step) = w := by
    intro result performed same
    unfold World.after
    simp only [Call.perform, performed]
    cases result with
    | error error => rfl
    | ok done =>
        have := same done.1 done.2 rfl
        simp only [answering, Except.map, World.commit, this]
  refine stays _ rfl (fun answer s performed => ?_)
  cases step <;> cases presents <;> simp only [BundleStep.perform, bind_eq_ok] at performed <;>
    obtain ⟨⟨value, t⟩, done, result⟩ := performed <;> cases result
  case renewBundle =>
    simp only [Sqlite.renewBundle, bind_eq_ok, if_neg none] at done
    obtain ⟨-, -, done⟩ := done
    cases done
    rfl
  case loadClaimedBundle =>
    unfold Sqlite.loadClaimedBundle at done
    split at done
    · cases done
      rfl
    · rename_i bundle found
      have unclaimed : ¬ClaimedBy claim now bundle :=
        fun claimed => dead ⟨bundle, (Table.find?_some found).1, claimed⟩
      rw [if_pos unclaimed] at done
      split at done <;> cases done <;> rfl
  case failBundleRetryable =>
    simp only [Sqlite.failBundleRetryable, if_neg none] at done
    cases done
    rfl
  case failBundleTerminal =>
    simp only [Sqlite.failBundleTerminal, bind_eq_ok, require_eq_ok] at done
    obtain ⟨_, one, -⟩ := done
    exact absurd one none

/-- The world an acknowledgement leads to has its bundle delivered. -/
theorem acknowledgeBundle_delivers {ack : BundleAck} {outcome : AckOutcome}
    (acknowledged : acknowledgeBundle ack s = .ok (outcome, s'))
    : ∃ bundle ∈ s'.resultBundles, bundle.id = ack.bundleId ∧ bundle.state = .delivered := by
  unfold acknowledgeBundle at acknowledged
  split at acknowledged
  · cases acknowledged
  · rename_i bundle found
    obtain ⟨stored, bundleId⟩ := Table.find?_some found
    split at acknowledged
    · cases acknowledged
    · simp only [bind_eq_ok] at acknowledged
      obtain ⟨_, -, ended⟩ := acknowledged
      split at ended
      · rename_i state
        cases ended
        exact ⟨bundle, stored, bundleId, state⟩
      · cases ended
      · cases ended
      · rename_i pending failed
        cases ended
        have open' : bundle.state = .delivering ∨ bundle.state = .failedRetryable := by
          cases state : bundle.state <;> simp_all
        exact ⟨_, Table.updateWhere_mem_of stored ⟨bundleId, open'⟩, bundleId, rfl⟩

/-- Once answered, an acknowledgement is answered the same way in every later world. -/
theorem acknowledgeBundle_repeated {w w' : World} (reached : runtime.Reachable w)
    {ack : BundleAck} {outcome : AckOutcome}
    (acknowledged : acknowledgeBundle ack w.store = .ok (outcome, s))
    (run : runtime.Run (w.after (.deliverBundle (.acknowledgeBundle ack))) w')
    : acknowledgeBundle ack w'.store = .ok (.alreadyDelivered, w'.store) := by
  have step : runtime.Step w (.deliverBundle (.acknowledgeBundle ack))
      (w.after (.deliverBundle (.acknowledgeBundle ack))) := ⟨trivial, rfl⟩
  have first := System.Run.refl.step step
  have store : (w.after (.deliverBundle (.acknowledgeBundle ack))).store = s := by
    simp only [World.after, Call.perform, BundleStep.perform, acknowledged, bind, Except.bind,
      answering, Except.map, World.commit_store]
  obtain ⟨bundle, stored, bundleId, delivered⟩ := acknowledgeBundle_delivers acknowledged
  have remains := run_ended run (store ▸ stored) (Or.inl delivered)
  have whole := first.trans run
  refine acknowledgeBundle_again (reachable_settled reached) (reachable_delivers reached)
    (run_keepsDeliveries reached whole) (run_requestsStay whole) acknowledged
    (fun bundle' stored' here => ?_)
  have : bundle' = bundle :=
    Table.eq_of_clash stored' remains (Or.inl (here.trans bundleId.symm))
  exact this ▸ delivered

/-- A bundle stays the same one along every run. -/
theorem run_unchanged {w w' : World} (reached : runtime.Reachable w) (run : runtime.Run w w')
    {bundle : BundleRow} (stored : bundle ∈ w.store.resultBundles)
    : ∃ bundle' ∈ w'.store.resultBundles, Unchanged w.store w'.store bundle bundle' := by
  have keeps := run_keepsDeliveries reached run
  obtain ⟨bundle', stored', content⟩ := keeps.contents bundle stored
  obtain ⟨deliveries, delivers⟩ := reachable_delivers reached bundle stored
  obtain ⟨manifest, accepted, loaded⟩ := delivers.load stored
  obtain ⟨manifest', accepted', loaded'⟩ := (keeps.delivers stored content delivers).load stored'
  have manifests : manifest' = manifest := Except.ok.inj (accepted'.symm.trans accepted)
  rw [content.id, content.requestId, manifests] at loaded'
  refine ⟨bundle', stored', content, keeps.memberships_eq stored delivers,
    ⟨manifest, deliveries, loaded, loaded'⟩, ?_, ?_⟩
  · intro actorId requestId replayed done
    simp only [loadReplayBundle, bind_eq_ok] at done
    obtain ⟨_, -, _, -, done⟩ := done
    exact done
  · intro claim now delivered t same done
    unfold loadClaimedBundle at done
    split at done
    · cases done
    · split at done
      · cases done
      · split at done
        · cases done
        · split at done
          · cases done
          · split at done
            · rename_i read
              cases done
              rw [← same]
              exact read
            · simp only [bind_eq_ok] at done
              obtain ⟨_, -, result⟩ := done
              cases result

namespace Received

def claim : BundleClaim := ⟨⟨500⟩, "worker", 100⟩

def ack : BundleAck := ⟨localActor, ⟨1⟩, ⟨500⟩, [⟨50000⟩]⟩

/-- The answer is claimed, then received after the claim has expired. -/
def world : World := Answered.world.play
  [.deliverBundle (.claimReadyBundleRefs "worker" [⟨1⟩] 60 100 8),
    .deliverBundle (.claimReadyBundleRefs "other" [] 120 200 8),
    .deliverBundle (.acknowledgeBundle ack)]

theorem reachable : runtime.Reachable world :=
  reachable_play Answered.reachable (by decide +kernel)

end Received

end Codrik.Runtime.Sqlite

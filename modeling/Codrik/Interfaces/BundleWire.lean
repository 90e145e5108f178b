import Codrik.Interfaces.FinalBundles

/-! The wire format of final bundles: no event stops the verifier, and the bundles of the store
come through.
-/

namespace Codrik.Interfaces

open Codrik.Encoding
open Codrik.Runtime
open Codrik.Runtime.Ipc
open Codrik.Runtime.Sqlite

-----------------------------------------------------------------------------------------
-- Indices and differences
-----------------------------------------------------------------------------------------

/-- No index is out of range, and no difference negative. -/
def Safe {α : Type} (x : Except Failure α) : Prop := x ≠ .error .panics

section Rules

variable {α β : Type}

theorem Safe.ok (a : α) : Safe (.ok a) := nofun

theorem Safe.bail (message : String) : Safe (bail message : Except Failure α) := nofun

theorem Safe.ensure (p : Prop) [Decidable p] (message : String) : Safe (ensure p message) := by
  unfold Interfaces.ensure
  split
  · exact Safe.ok ()
  · exact Safe.bail message

theorem Safe.context (message : String) (option : Option α) : Safe (context message option) := by
  cases option with
  | none => exact Safe.bail message
  | some value => exact Safe.ok value

theorem Safe.bind {x : Except Failure α} {f : α → Except Failure β} (first : Safe x)
    (next : ∀ a, x = .ok a → Safe (f a))
    : Safe (x >>= f) := by
  cases x with
  | error failure =>
      intro panics
      injection panics with same
      exact first (same ▸ rfl)
  | ok a => exact next a rfl

theorem Safe.ite {p : Prop} [Decidable p] {x y : Except Failure α} (holds : p → Safe x)
    (fails : ¬p → Safe y)
    : Safe (if p then x else y) := by
  split
  · exact holds ‹p›
  · exact fails ‹¬p›

theorem Safe.map {x : Except Failure α} (f : α → β) (safe : Safe x) : Safe (x.map f) := by
  cases x with
  | error failure =>
      intro panics
      injection panics with same
      exact safe (same ▸ rfl)
  | ok a => exact Safe.ok (f a)

theorem Safe.of_error {x : Except Failure α} {failure : Failure} (safe : Safe x)
    (failed : x = .error failure)
    : Safe (.error failure : Except Failure β) := by
  intro panics
  injection panics with same
  exact safe (same ▸ failed)

end Rules

theorem safe_hexValue (digit : UInt8) : Safe (hexValue digit) :=
  .ite (fun _ => .ok _) (fun _ => .ite (fun _ => .ok _) (fun _ =>
    .ite (fun _ => .ok _) (fun _ => .bail _)))

theorem safe_parseHexEscape (a b c d : UInt8) : Safe (parseHexEscape a b c d) :=
  (safe_hexValue a).bind (fun _ _ => (safe_hexValue b).bind (fun _ _ =>
    (safe_hexValue c).bind (fun _ _ => (safe_hexValue d).bind (fun _ _ => .ok _))))

theorem safe_encodeScalar (scalar : Nat) : Safe (encodeScalar scalar) :=
  .ite (fun _ => .ok _) (fun _ => .bail _)

section Visiting

variable {σ : Type} {decoded : σ → List UInt8 → Except Failure σ}

/-- A visitor that is safe is safe on every string, by induction on the number of its bytes. -/
theorem safe_visitBytes (safe : ∀ state bytes, Safe (decoded state bytes)) (state : σ)
    (plain bytes : List UInt8)
    : Safe (visitBytes decoded state plain bytes) := by
  induction length : bytes.length using Nat.strong_induction_on generalizing state plain bytes with
  | _ n ih =>
  subst length
  have shorter : ∀ state plain (rest : List UInt8), rest.length < bytes.length →
      Safe (visitBytes decoded state plain rest) :=
    fun state plain rest less => ih _ less state plain rest rfl
  clear ih
  unfold visitBytes
  split
  · exact safe state plain
  · rename_i byte rest
    refine .ite (fun _ => .bail _) (fun _ => .ite (fun _ => shorter _ _ _ ?_) (fun _ => ?_))
    · exact Nat.lt_succ_self _
    refine (safe state plain).bind (fun state _ => ?_)
    split
    · exact .bail _
    · rename_i escape rest
      split
      · exact (safe state _).bind (fun state _ => shorter _ _ _ (by simp only [List.length_cons]; omega))
      · refine .ite (fun _ => .bail _) (fun _ => ?_)
        split
        · rename_i a b c d rest
          refine (safe_parseHexEscape a b c d).bind (fun scalar _ => .ite (fun _ => ?_) (fun _ => ?_))
          · split
            · rename_i a b c d rest
              refine (safe_parseHexEscape a b c d).bind (fun low _ => ?_)
              refine (Safe.ensure _ _).bind (fun _ _ => (safe_encodeScalar _).bind (fun bytes _ => ?_))
              refine (safe state bytes).bind (fun state _ => shorter _ _ _ ?_)
              simp only [List.length_cons]
              omega
            · exact .bail _
            · exact .bail _
          · refine (safe_encodeScalar _).bind (fun bytes _ => (safe state bytes).bind (fun state _ => ?_))
            refine shorter _ _ _ ?_
            simp only [List.length_cons]
            omega
        · exact .bail _

theorem safe_visitJsonString (safe : ∀ state bytes, Safe (decoded state bytes)) (start : σ)
    (value : Raw)
    : Safe (visitJsonString decoded start value) :=
  (Safe.ensure _ _).bind (fun _ _ => safe_visitBytes safe start [] _)

end Visiting

theorem safe_validateJsonString (value : Raw) : Safe (validateJsonString value) :=
  safe_visitJsonString (fun _ _ => .ok _) () value

theorem safe_requireNonemptyJsonString (value : Raw) (field : String)
    : Safe (requireNonemptyJsonString value field) :=
  (safe_visitJsonString (fun _ _ => .ok _) 0 value).bind (fun _ _ => .ensure _ _)

theorem safe_collectSmallJsonString (value : Raw) (limit : Nat)
    : Safe (collectSmallJsonString value limit) :=
  safe_visitJsonString (fun _ _ => (Safe.ensure _ _).bind (fun _ _ => .ok _)) [] value

theorem ManagedArtifactView.safe_validate (libs : Libraries) (artifact : ManagedArtifactView)
    : Safe (artifact.validate libs) := by
  unfold ManagedArtifactView.validate
  refine (safe_collectSmallJsonString _ _).bind (fun id _ => ?_)
  refine (Safe.context _ _).bind (fun id _ => (Safe.ensure _ _).bind (fun _ _ => ?_))
  refine (safe_visitJsonString (fun _ _ => (Safe.ensure _ _).bind (fun _ _ => .ok _)) _ _).bind
    (fun pathFirst _ => (Safe.ensure _ _).bind (fun _ _ => ?_))
  refine (safe_requireNonemptyJsonString _ _).bind (fun _ _ => ?_)
  refine (safe_requireNonemptyJsonString _ _).bind (fun _ _ => ?_)
  refine (safe_collectSmallJsonString _ _).bind (fun sha256 _ => ?_)
  refine (Safe.ensure _ _).bind (fun _ _ => .ite (fun _ => ?_) (fun _ => .ok _))
  exact safe_validateJsonString _

theorem FinalPayloadView.safe_validate (libs : Libraries) (view : FinalPayloadView)
    : Safe (view.validate libs) := by
  cases view with
  | text content => exact safe_validateJsonString content
  | file artifact => exact artifact.safe_validate libs
  | terminalError code message =>
      exact (safe_validateJsonString code).bind (fun _ _ => safe_validateJsonString message)

theorem safe_parsePayload (libs : Libraries) (bytes : List UInt8)
    : Safe (parsePayload libs bytes) := by
  unfold parsePayload
  refine (Safe.context _ _).bind (fun payload _ => .ite (fun _ => ?_) (fun _ => .ite (fun _ => ?_)
    (fun _ => .ite (fun _ => ?_) (fun _ => .bail _))))
  · exact (Safe.context _ _).bind (fun _ _ => .ok _)
  · exact (Safe.context _ _).bind (fun _ _ => .ok _)
  · exact (Safe.context _ _).bind (fun _ _ => (Safe.context _ _).bind (fun _ _ => .ok _))

theorem PendingBundle.safe_verifyDelivery (libs : Libraries) (entry : FinalManifestEntry)
    (delivery : BufferedDelivery)
    : Safe (PendingBundle.verifyDelivery libs entry delivery) := by
  unfold PendingBundle.verifyDelivery
  refine (Safe.ensure _ _).bind (fun _ _ => (Safe.ensure _ _).bind (fun _ _ => ?_))
  refine (safe_parsePayload libs _).bind (fun view _ => (view.safe_validate libs).bind (fun _ _ => ?_))
  exact (Safe.ensure _ _).bind (fun _ _ => (Safe.context _ _).bind (fun _ _ => .ok _))

/-- The check of the deliveries is safe, by induction on them. -/
theorem PendingBundle.safe_verifyDeliveries (libs : Libraries)
    (deliveries : List (FinalManifestEntry × BufferedDelivery))
    : Safe (PendingBundle.verifyDeliveries libs deliveries) := by
  induction deliveries with
  | nil => exact .ok _
  | cons delivery rest ih =>
      exact (safe_verifyDelivery libs _ _).bind (fun _ _ => ih.bind (fun _ _ => .ok _))

theorem PendingBundle.safe_finish (libs : Libraries) (bundle : PendingBundle)
    (requestId : RequestId) (bundleId : BundleId) (manifestSha256 : String)
    : Safe (bundle.finish libs requestId bundleId manifestSha256) := by
  unfold PendingBundle.finish
  refine (Safe.ensure _ _).bind (fun _ _ => (Safe.ensure _ _).bind (fun _ _ => ?_))
  refine (Safe.ensure _ _).bind (fun _ _ => (Safe.ensure _ _).bind (fun _ _ => ?_))
  exact (safe_verifyDeliveries libs _).bind (fun _ _ => .ok _)

theorem FinalBundleVerifier.safe_requireRequest (v : FinalBundleVerifier) (requestId : RequestId)
    : Safe (v.requireRequest requestId) := by
  unfold FinalBundleVerifier.requireRequest
  split
  · exact .ensure _ _
  · exact .ok _

/-- The check of the manifest is safe, by induction on it. -/
theorem FinalBundleVerifier.safe_checkManifest (seen : List DeliveryId) (total : Nat)
    (manifest : List FinalManifestEntry)
    : Safe (FinalBundleVerifier.checkManifest seen total manifest) := by
  induction manifest generalizing seen total with
  | nil => exact .ok _
  | cons entry rest ih =>
      unfold FinalBundleVerifier.checkManifest
      refine (Safe.ensure _ _).bind (fun _ _ => (Safe.ensure _ _).bind (fun _ _ => ?_))
      refine (Safe.ensure _ _).bind (fun _ _ => (Safe.context _ _).bind (fun next _ => ?_))
      exact (Safe.ensure _ _).bind (fun _ _ => ih _ next)

theorem FinalBundleVerifier.safe_begin (v : FinalBundleVerifier) (requestId : RequestId)
    (bundleId : BundleId) (replay : Bool) (manifest : List FinalManifestEntry)
    : Safe (v.begin requestId bundleId replay manifest) := by
  unfold FinalBundleVerifier.begin
  refine (v.safe_requireRequest requestId).bind (fun _ _ => (Safe.ensure _ _).bind (fun _ _ => ?_))
  refine (Safe.ensure _ _).bind (fun _ _ => (Safe.ensure _ _).bind (fun _ _ => ?_))
  exact (safe_checkManifest _ _ _).bind (fun _ _ => .ok _)

-----------------------------------------------------------------------------------------
-- The bundle of a verifier
-----------------------------------------------------------------------------------------

/-- The pending bundle is in progress, and begun from an accepted manifest. -/
def WellFormed (v : FinalBundleVerifier) : Prop :=
  ∀ bundle ∈ v.bundle, (∃ full part rest, Progress bundle full part rest)
    ∧ ∀ entry ∈ bundle.manifest, Sized entry

/-- A bundle in progress receives a chunk safely: the chunks received of the delivery do not
exceed it, and every entry has its buffer.
-/
theorem Progress.safe_receive {bundle : PendingBundle}
    {full : List (FinalManifestEntry × List UInt8)} {part : List UInt8}
    {rest : List FinalManifestEntry} (progress : Progress bundle full part rest)
    (requestId : RequestId) (bundleId : BundleId) (deliveryId : DeliveryId) (chunkIndex : Nat)
    (text : String)
    : Safe (bundle.receive requestId bundleId deliveryId chunkIndex text) := by
  unfold PendingBundle.receive
  refine (Safe.ensure _ _).bind (fun _ _ => (Safe.context _ _).bind (fun found present => ?_))
  refine (Safe.ensure _ _).bind (fun _ _ => (Safe.ensure _ _).bind (fun _ next => ?_))
  refine (Safe.context _ _).bind (fun offset multiplied => ?_)
  rw [context_eq_ok] at present multiplied
  rw [ensure_eq_ok] at next
  cases rest with
  | nil =>
      rw [progress.manifest, progress.current, List.append_nil,
        List.getElem?_eq_none (by simp)] at present
      cases present
  | cons entry later =>
      obtain rfl := Option.some.inj (present.symm.trans progress.entryAt)
      have reached : offset = part.length := by
        unfold checkedMul at multiplied
        split at multiplied <;> cases multiplied
        rw [next, progress.chunked]
      have within : offset ≤ found.decodedBytes :=
        reached ▸ le_of_lt (progress.unfinished found rfl)
      refine Safe.bind ?_ (fun remaining _ => (Safe.ensure _ _).bind (fun _ _ => ?_))
      · rw [subtract, if_pos within]
        exact .ok _
      refine Safe.bind ?_ (fun delivery _ => (Safe.context _ _).bind (fun decoded _ => ?_))
      · rw [index, progress.bufferAt]
        exact .ok _
      exact (Safe.ensure _ _).bind (fun _ _ => (Safe.context _ _).bind (fun _ _ => .ok _))

/-- What is received never exceeds the limit. -/
theorem Progress.receive_within {bundle : PendingBundle}
    {full : List (FinalManifestEntry × List UInt8)} {part : List UInt8}
    {rest : List FinalManifestEntry} (progress : Progress bundle full part rest)
    {requestId : RequestId} {bundleId : BundleId} {deliveryId : DeliveryId} {chunkIndex : Nat}
    {text : String} {entry : FinalManifestEntry} {delivery : BufferedDelivery}
    {decoded : List UInt8} {bufferedBytes : Nat}
    (checked : bundle.receive requestId bundleId deliveryId chunkIndex text
      = .ok (entry, delivery, decoded, bufferedBytes))
    : bufferedBytes ≤ maxBundleBytes
      ∧ ∃ full' part' rest', Progress (bundle.push entry delivery decoded bufferedBytes)
        full' part' rest' := by
  cases rest with
  | nil =>
      simp only [PendingBundle.receive, bind_eq_ok, context_eq_ok] at checked
      obtain ⟨_, -, entry', found, -⟩ := checked
      rw [progress.manifest, progress.current, List.append_nil,
        List.getElem?_eq_none (by simp)] at found
      cases found
  | cons first later =>
      obtain ⟨rfl, rfl, rfl, rfl, decoded', rfl, length, same⟩ :=
        progress.receive_iff.mp checked
      cases same
      have within := progress.within
      have open' := progress.unfinished entry rfl
      have buffered := progress.buffered
      obtain ⟨full', part', rest', next, -⟩ := progress.push length
      exact ⟨by omega, full', part', rest', next⟩

theorem WellFormed.of_none {v : FinalBundleVerifier} (none : v.bundle = none) : WellFormed v := by
  intro bundle mem
  rw [none] at mem
  cases mem

theorem chunk_wellFormed {v : FinalBundleVerifier} (wellFormed : WellFormed v)
    (requestId : RequestId) (bundleId : BundleId) (deliveryId : DeliveryId) (chunkIndex : Nat)
    (text : String)
    : WellFormed (v.chunk requestId bundleId deliveryId chunkIndex text).1
      ∧ Safe (v.chunk requestId bundleId deliveryId chunkIndex text).2 := by
  unfold FinalBundleVerifier.chunk
  split
  · rename_i failed
    exact ⟨wellFormed, (v.safe_requireRequest requestId).of_error failed⟩
  · exact ⟨wellFormed, .bail _⟩
  · rename_i bundle _ pending
    obtain ⟨⟨full, part, rest, progress⟩, sized⟩ := wellFormed bundle pending
    split
    · rename_i failed
      exact ⟨wellFormed, (progress.safe_receive _ _ _ _ _).of_error failed⟩
    · rename_i checked
      obtain ⟨within, next⟩ := progress.receive_within checked
      rw [if_neg (not_lt.mpr within)]
      refine ⟨?_, .ok ()⟩
      rintro bundle' ⟨⟩
      exact ⟨next, sized⟩

theorem finish_wellFormed (libs : Libraries) {v : FinalBundleVerifier} (wellFormed : WellFormed v)
    (requestId : RequestId) (bundleId : BundleId) (manifestSha256 : String)
    : WellFormed (v.finish libs requestId bundleId manifestSha256).1
      ∧ Safe (v.finish libs requestId bundleId manifestSha256).2 := by
  unfold FinalBundleVerifier.finish
  split
  · rename_i failed
    exact ⟨wellFormed, (v.safe_requireRequest requestId).of_error failed⟩
  · exact ⟨wellFormed, .bail _⟩
  · rename_i bundle _ pending
    split
    · rename_i failed
      exact ⟨.of_none rfl, (bundle.safe_finish libs _ _ _).of_error failed⟩
    · exact ⟨.of_none rfl, .ok _⟩

/-- An event is answered safely, and leaves the bundle in progress, by cases on the event. -/
theorem handle_wellFormed (libs : Libraries) {v : FinalBundleVerifier} (wellFormed : WellFormed v)
    (event : ServerEvent)
    : WellFormed (v.handle libs event).1 ∧ Safe (v.handle libs event).2 := by
  unfold FinalBundleVerifier.handle
  split
  · exact ⟨wellFormed, .bail _⟩
  split
  · rename_i requestId bundleId replay manifest
    split
    · rename_i failed
      exact ⟨wellFormed, (v.safe_begin requestId bundleId replay manifest).of_error failed⟩
    · rename_i next begun
      obtain ⟨-, -, -, transmittable, rfl⟩ := begin_ok_iff.mp begun
      refine ⟨?_, .ok _⟩
      rintro bundle ⟨⟩
      exact ⟨⟨_, _, _, progress_opened transmittable⟩,
        fun entry mem => (transmittable.entries entry mem).2⟩
  · rename_i requestId bundleId deliveryId chunkIndex text
    obtain ⟨next, safe⟩ := chunk_wellFormed wellFormed requestId bundleId deliveryId chunkIndex text
    exact ⟨next, safe.map _⟩
  · rename_i requestId bundleId manifestSha256
    obtain ⟨next, safe⟩ := finish_wellFormed libs wellFormed requestId bundleId manifestSha256
    exact ⟨next, safe.map _⟩
  · exact ⟨wellFormed, .bail _⟩

/-- Whatever events a verifier has been fed, its bundle is in progress, by induction on them. -/
theorem after_wellFormed (libs : Libraries) {v : FinalBundleVerifier} (wellFormed : WellFormed v)
    (events : List ServerEvent)
    : WellFormed (v.after libs events) := by
  induction events generalizing v with
  | nil => exact wellFormed
  | cons event rest ih => exact ih (handle_wellFormed libs wellFormed event).1

-----------------------------------------------------------------------------------------
-- A transmission is accepted
-----------------------------------------------------------------------------------------

/-- The verifier waits for the rest of the bundle. -/
structure Receiving (v : FinalBundleVerifier) (bundle : PendingBundle) : Prop where
  unseen : v.finalSeen = false
  own : v.requireRequest bundle.requestId = .ok ()
  pending : v.bundle = some bundle

/-- The bundle is still the one that was begun. -/
structure SameBegin (before after : PendingBundle) : Prop where
  requestId : after.requestId = before.requestId
  bundleId : after.bundleId = before.bundleId
  replay : after.replay = before.replay
  manifest : after.manifest = before.manifest

theorem SameBegin.trans {first second third : PendingBundle} (one : SameBegin first second)
    (two : SameBegin second third)
    : SameBegin first third :=
  ⟨two.requestId.trans one.requestId, two.bundleId.trans one.bundleId,
    two.replay.trans one.replay, two.manifest.trans one.manifest⟩

theorem feed_cons {libs : Libraries} {v next : FinalBundleVerifier} {event : ServerEvent}
    (handled : v.handle libs event = (next, .ok none)) (rest : List ServerEvent)
    : v.feed libs (event :: rest) = next.feed libs rest := by
  simp only [FinalBundleVerifier.feed, handled]
  cases next.feed libs rest <;> rfl

section Forward

variable {v : FinalBundleVerifier} {bundle : PendingBundle}
  {full : List (FinalManifestEntry × List UInt8)} {part : List UInt8}
  {entry : FinalManifestEntry} {later : List FinalManifestEntry}

/-- The next chunk is accepted. -/
theorem Receiving.push (receiving : Receiving v bundle)
    (progress : Progress bundle full part (entry :: later)) {decoded : List UInt8}
    (length : decoded.length = min (entry.decodedBytes - part.length) maxFinalChunkBytes)
    (libs : Libraries) (more : List ServerEvent)
    : let pushed := bundle.push entry ⟨part, part⟩ decoded (bundle.bufferedBytes + decoded.length)
      Receiving { v with bundle := some pushed } pushed
      ∧ v.feed libs (.finalChunk bundle.requestId bundle.bundleId entry.deliveryId bundle.nextChunk
            (String.ofList (Base64.encode decoded)) :: more)
        = { v with bundle := some pushed }.feed libs more := by
  have checked := progress.receive_iff.mpr ⟨rfl, rfl, rfl, rfl, decoded, rfl, length, rfl⟩
  have within := (progress.receive_within checked).1
  refine ⟨⟨receiving.unseen, receiving.own, rfl⟩, feed_cons (handle_ok_iff.mpr ?_) more⟩
  exact ⟨receiving.unseen, .receives receiving.own receiving.pending checked within⟩

/-- What is missing of a delivery is accepted chunk by chunk, by induction on its bytes. -/
theorem Receiving.delivery (libs : Libraries) {bytes : List UInt8} (receiving : Receiving v bundle)
    (progress : Progress bundle full part (entry :: later)) {missing : List UInt8}
    (split : bytes = part ++ missing) (size : entry.decodedBytes = bytes.length)
    : ∃ events bundle', chunkEvents bundle.requestId bundle.bundleId entry.deliveryId bytes
        = chunkEvents bundle.requestId bundle.bundleId entry.deliveryId part ++ events
      ∧ Progress bundle' (full ++ [(entry, bytes)]) [] later ∧ SameBegin bundle bundle'
      ∧ Receiving { v with bundle := some bundle' } bundle'
      ∧ ∀ more, v.feed libs (events ++ more) = { v with bundle := some bundle' }.feed libs more := by
  induction length : missing.length using Nat.strong_induction_on
    generalizing v bundle part missing with
  | _ n ih =>
  subst length
  have open' := progress.unfinished entry rfl
  have total : bytes.length = part.length + missing.length := by rw [split, List.length_append]
  have some : 0 < missing.length := by omega
  have piece : (missing.take maxFinalChunkBytes).length
      = min (entry.decodedBytes - part.length) maxFinalChunkBytes := by
    rw [List.length_take, Nat.min_comm]
    congr 1
    omega
  have pos : 0 < maxFinalChunkBytes := by decide
  have nonempty : 0 < (missing.take maxFinalChunkBytes).length := by omega
  have event := chunkEvents_append bundle.requestId bundle.bundleId entry.deliveryId
    progress.chunked nonempty (by omega)
  by_cases ends : part.length + (missing.take maxFinalChunkBytes).length = entry.decodedBytes
  · have whole : missing.take maxFinalChunkBytes = missing :=
      List.take_of_length_le (by omega)
    rw [whole] at event ends piece
    subst split
    exact ⟨_, _, event, progress.push_last piece ends, ⟨rfl, rfl, rfl, rfl⟩,
      (receiving.push progress piece libs []).1,
      fun more => (receiving.push progress piece libs more).2⟩
  · have less : (missing.drop maxFinalChunkBytes).length < missing.length := by
      rw [List.length_drop]
      omega
    have rest : bytes = part ++ missing.take maxFinalChunkBytes
        ++ missing.drop maxFinalChunkBytes := by
      rw [List.append_assoc, List.take_append_drop]
      exact split
    obtain ⟨events, bundle', chunked, progress', same, receiving', fed⟩ :=
      ih _ less (receiving.push progress piece libs []).1
        (progress.push_more piece ends) rest rfl
    have joined := (chunked.trans (congrArg (· ++ events) event)).trans (List.append_assoc _ _ _)
    exact ⟨_, bundle', joined, progress', ⟨same.1, same.2, same.3, same.4⟩, receiving',
      fun more => ((receiving.push progress piece libs (events ++ more)).2).trans (fed more)⟩

/-- Whole deliveries are accepted one after the other, by induction on them. -/
theorem Receiving.deliveries (libs : Libraries) {contents : List (FinalManifestEntry × List UInt8)}
    (receiving : Receiving v bundle) (progress : Progress bundle full [] (contents.map (·.1)))
    (sizes : ∀ content ∈ contents, content.1.decodedBytes = content.2.length)
    : ∃ bundle', Progress bundle' (full ++ contents) [] [] ∧ SameBegin bundle bundle'
      ∧ Receiving { v with bundle := some bundle' } bundle'
      ∧ ∀ more, v.feed libs (contents.flatMap (fun content =>
            chunkEvents bundle.requestId bundle.bundleId content.1.deliveryId content.2) ++ more)
          = { v with bundle := some bundle' }.feed libs more := by
  induction contents generalizing v bundle full with
  | nil =>
      refine ⟨bundle, by simpa using progress, ⟨rfl, rfl, rfl, rfl⟩, ?_, fun more => ?_⟩
      · exact ⟨receiving.unseen, receiving.own, rfl⟩
      · rw [← receiving.pending]
        rfl
  | cons content rest ih =>
      obtain ⟨entry, bytes⟩ := content
      obtain ⟨events, next, chunked, progress', same, receiving', fed⟩ :=
        receiving.delivery libs progress (List.nil_append bytes).symm
          (sizes (entry, bytes) List.mem_cons_self)
      obtain ⟨last, progress'', same', receiving'', fed'⟩ := ih receiving' progress'
        (fun other mem => sizes other (List.mem_cons_of_mem _ mem))
      rw [List.append_assoc] at progress''
      refine ⟨last, progress'', same.trans same', receiving'', fun more => ?_⟩
      rw [chunkEvents_nil, List.nil_append] at chunked
      rw [List.flatMap_cons, List.append_assoc, chunked, fed, ← fed' more, same.requestId,
        same.bundleId]

end Forward

/-- A delivery that its entry describes passes. -/
theorem Describes.verifyDelivery {libs : Libraries} {entry : FinalManifestEntry}
    {bytes : List UInt8} {delivery : VerifiedDelivery}
    (describes : Describes libs (entry, bytes) delivery)
    : PendingBundle.verifyDelivery libs entry ⟨bytes, bytes⟩ = .ok delivery := by
  obtain ⟨view, parsed, valid, kind⟩ := describes.shape
  simp only [PendingBundle.verifyDelivery, bind_eq_ok, ensure_eq_ok, context_eq_ok]
  refine ⟨(), describes.decodedBytes.symm, (), describes.sha256.symm, view, parsed, (), valid, (),
    kind, _, describes.payload, ?_⟩
  rw [describes.deliveryId]

/-- Described deliveries pass, by induction on them. -/
theorem verifyDeliveries_of_describes {libs : Libraries}
    {contents : List (FinalManifestEntry × List UInt8)} {deliveries : List VerifiedDelivery}
    (described : List.Forall₂ (Describes libs) contents deliveries)
    : PendingBundle.verifyDeliveries libs
          (contents.map (fun content => (content.1, ⟨content.2, content.2⟩)))
        = .ok deliveries := by
  induction described with
  | nil => rfl
  | cons first others ih =>
      simp only [List.map_cons, PendingBundle.verifyDeliveries, bind_eq_ok]
      exact ⟨_, first.verifyDelivery, _, ih, rfl⟩

/-- A complete bundle is handed out at its end. -/
theorem Progress.finish_of_describes {libs : Libraries} {bundle : PendingBundle}
    {contents : List (FinalManifestEntry × List UInt8)} {deliveries : List VerifiedDelivery}
    (progress : Progress bundle contents [] [])
    (described : List.Forall₂ (Describes libs) contents deliveries)
    : bundle.finish libs bundle.requestId bundle.bundleId
        (libs.sha256 (manifestJson bundle.manifest).toBytes)
      = .ok ⟨bundle.requestId, bundle.bundleId, bundle.replay,
        libs.sha256 (manifestJson bundle.manifest).toBytes, deliveries⟩ := by
  have manifest : bundle.manifest = contents.map (·.1) := by simpa using progress.manifest
  have zipped : bundle.manifest.zip bundle.deliveries
      = contents.map (fun content => (content.1, ⟨content.2, content.2⟩)) := by
    rw [manifest, progress.deliveries, openBuffers, List.append_nil, List.zip_map']
  have all : bundle.currentDelivery = bundle.manifest.length := by
    rw [progress.current, manifest, List.length_map]
  have buffered : bundle.bufferedBytes = (bundle.manifest.map (·.decodedBytes)).sum := by
    rw [progress.buffered, manifest, sum_complete progress.complete, List.length_nil, Nat.add_zero]
  simp only [PendingBundle.finish, bind_eq_ok, ensure_eq_ok]
  refine ⟨(), ⟨trivial, trivial⟩, (), trivial, (), ⟨all, progress.finished rfl⟩, (), buffered, deliveries,
    ?_, rfl⟩
  rw [zipped]
  exact verifyDeliveries_of_describes described

/-- A transmission of described contents is accepted, and its deliveries are handed out. -/
theorem feed_transmission {libs : Libraries} {v : FinalBundleVerifier} {requestId : RequestId}
    {contents : List (FinalManifestEntry × List UInt8)} {deliveries : List VerifiedDelivery}
    (fresh : v.bundle = none) (unseen : v.finalSeen = false)
    (own : v.requireRequest requestId = .ok ())
    (transmittable : Transmittable (contents.map (·.1)))
    (described : List.Forall₂ (Describes libs) contents deliveries) (bundleId : BundleId)
    (replay : Bool)
    : v.feed libs (transmission libs requestId bundleId replay contents)
      = .ok [⟨requestId, bundleId, replay,
        libs.sha256 (manifestJson (contents.map (·.1))).toBytes, deliveries⟩] := by
  have begun : v.begin requestId bundleId replay (contents.map (·.1)) = .ok _ :=
    begin_ok_iff.mpr ⟨own, fresh, unseen, transmittable, rfl⟩
  have receiving : Receiving
      { v with bundle := some (opened requestId bundleId replay (contents.map (·.1))) }
      (opened requestId bundleId replay (contents.map (·.1))) := ⟨unseen, own, rfl⟩
  have sizes : ∀ content ∈ contents, content.1.decodedBytes = content.2.length :=
    ((List.forall₂_and_left _ _).mp
      (described.imp (fun _ _ describes => ⟨describes.decodedBytes, describes⟩))).1
  obtain ⟨bundle, progress, same, receiving', fed⟩ :=
    receiving.deliveries libs (progress_opened transmittable) sizes
  have finished := progress.finish_of_describes described
  have ended := handle_ok_iff.mpr
    ⟨receiving'.unseen, .finishes receiving'.own receiving'.pending finished⟩
  rw [transmission, List.cons_append, feed_cons (handle_ok_iff.mpr ⟨unseen, .begins begun⟩)]
  refine (fed _).trans ?_
  rw [same.requestId, same.bundleId, same.replay, same.manifest] at ended
  simp only [opened] at ended
  simp only [FinalBundleVerifier.feed, ended]
  rfl

-----------------------------------------------------------------------------------------
-- Bundles of the store
-----------------------------------------------------------------------------------------

/-- The entries of deliveries with the bytes they are transmitted as. -/
def contentsOf (sha256 : List UInt8 → String) (deliveries : List (DeliveryId × FinalPayload))
    : List (FinalManifestEntry × List UInt8) :=
  deliveries.map (fun delivery =>
    ((encodeDelivery sha256 delivery.1 delivery.2).entry, (payloadJson delivery.2).toBytes))

/-- What the verifier makes of deliveries. -/
def verifiedOf (deliveries : List (DeliveryId × FinalPayload)) : List VerifiedDelivery :=
  deliveries.map (fun delivery => ⟨delivery.1, delivery.2⟩)

theorem contentsOf_entries (sha256 : List UInt8 → String)
    (deliveries : List (DeliveryId × FinalPayload))
    : (contentsOf sha256 deliveries).map (·.1)
      = deliveries.map (fun delivery => (encodeDelivery sha256 delivery.1 delivery.2).entry) := by
  rw [contentsOf, List.map_map]
  rfl

/-- A prepared bundle is transmitted. -/
theorem events_prepared (libs : Libraries) (bundle : ResultBundle) (replay : Bool)
    : (prepared libs.sha256 bundle replay).events
      = transmission libs bundle.requestId bundle.id replay
        (contentsOf libs.sha256 bundle.deliveries) := by
  simp only [PreparedBundle.events, transmission, prepared, assemble,
    List.map_map, List.flatMap_map, contentsOf]
  rfl

theorem jsonBytes_ne_zero (payload : FinalPayload) : (payloadJson payload).toBytes.length ≠ 0 := by
  have size : (payloadJson payload).toBytes.length = payload.jsonBytes := size_payload payload
  rw [size]
  cases payload <;> simp only [FinalPayload.jsonBytes, jsonObjectBytes] <;> omega

theorem knownKind_kind (payload : FinalPayload) : KnownKind payload.kind := by
  cases payload with
  | text text => exact .inl rfl
  | file artifact => exact .inr (.inl rfl)
  | terminalError code message => exact .inr (.inr rfl)

/-- The manifest of deliveries that the store accepts is accepted by the verifier. -/
theorem transmittable_contentsOf {sha256 : List UInt8 → String} (hexadecimal : Hexadecimal sha256)
    {deliveries : List (DeliveryId × FinalPayload)} {manifest : List BundleManifestEntry}
    (accepted : manifestFor deliveries = .ok manifest) (distinct : (deliveries.map (·.1)).Nodup)
    : Transmittable ((contentsOf sha256 deliveries).map (·.1)) := by
  obtain ⟨nonempty, count, total, bounded⟩ := limits_of_manifestFor hexadecimal accepted
  rw [contentsOf_entries]
  constructor
  · rw [ne_eq, List.map_eq_nil_iff]
    exact nonempty
  · rwa [List.length_map]
  · exact bounded
  · rw [List.map_map]
    exact distinct
  · intro entry mem
    obtain ⟨delivery, -, rfl⟩ := List.mem_map.mp mem
    exact ⟨knownKind_kind _, jsonBytes_ne_zero _, rfl⟩
  · rw [List.map_map]
    have sizes : deliveries.map ((·.decodedBytes) ∘ fun delivery =>
        (encodeDelivery sha256 delivery.1 delivery.2).entry) = deliveries.map (·.2.jsonBytes) :=
      List.map_congr_left (fun delivery _ => size_payload delivery.2)
    rwa [sizes]

/-- The entries of deliveries describe them, by induction on them. -/
theorem describes_contentsOf {libs : Libraries}
    (uuids : ∀ number, libs.isUuid (uuidText number) = true)
    {deliveries : List (DeliveryId × FinalPayload)}
    (reads : ∀ delivery ∈ deliveries, libs.Reads delivery.2)
    (valid : ∀ delivery ∈ deliveries, ValidPayload delivery.2)
    : List.Forall₂ (Describes libs) (contentsOf libs.sha256 deliveries) (verifiedOf deliveries) := by
  induction deliveries with
  | nil => exact .nil
  | cons delivery rest ih =>
      have first := reads delivery List.mem_cons_self
      refine .cons ⟨rfl, rfl, rfl, rfl, ?_, first.payload⟩
        (ih (fun other mem => reads other (List.mem_cons_of_mem _ mem))
          (fun other mem => valid other (List.mem_cons_of_mem _ mem)))
      exact parsePayload_toBytes first uuids (valid delivery List.mem_cons_self)

/-- Contents whose bytes are those that are printed are those of the deliveries, by induction
on them.
-/
theorem contents_canonical {libs : Libraries} {contents : List (FinalManifestEntry × List UInt8)}
    {deliveries : List (DeliveryId × FinalPayload)}
    (described : List.Forall₂ (Describes libs) contents (verifiedOf deliveries))
    (reads : ∀ delivery ∈ deliveries, libs.Reads delivery.2)
    (printed : contents.map (·.2)
      = deliveries.map (fun delivery => (payloadJson delivery.2).toBytes))
    : contents = contentsOf libs.sha256 deliveries := by
  induction deliveries generalizing contents with
  | nil =>
      cases described
      rfl
  | cons delivery rest ih =>
      cases described with
      | @cons content _ others _ first more =>
          injection printed with bytes printed
          have tail := ih more (fun other mem => reads other (List.mem_cons_of_mem _ mem)) printed
          obtain ⟨⟨deliveryId, payloadKind, decodedBytes, sha256, chunkCount⟩, content⟩ := content
          obtain rfl : content = (payloadJson delivery.2).toBytes := bytes
          obtain ⟨view, parsed, -, kind⟩ := first.shape
          obtain rfl : payloadKind = delivery.2.kind :=
            kind.symm.trans (parsePayload_kind (reads delivery List.mem_cons_self) parsed)
          obtain rfl : deliveryId = delivery.1 := first.deliveryId
          obtain rfl : decodedBytes = (payloadJson delivery.2).toBytes.length := first.decodedBytes
          obtain rfl : sha256 = libs.sha256 (payloadJson delivery.2).toBytes := first.sha256
          obtain rfl : chunkCount
            = divCeil (payloadJson delivery.2).toBytes.length maxFinalChunkBytes := first.chunkCount
          rw [tail]
          rfl

-----------------------------------------------------------------------------------------
-- The wire format
-----------------------------------------------------------------------------------------

/-- The events transmit the contents of a bundle, which are read as the deliveries. -/
structure Transmits (libs : Libraries) (events : List ServerEvent) (bundle : VerifiedFinalBundle)
    (contents : List (FinalManifestEntry × List UInt8)) : Prop where
  events : events = transmission libs bundle.requestId bundle.bundleId bundle.replay contents
  manifestSha256 : bundle.manifestSha256 = libs.sha256 (manifestJson (contents.map (·.1))).toBytes
  accepted : Transmittable (contents.map (·.1))
  described : List.Forall₂ (Describes libs) contents bundle.deliveries

/-- A fresh verifier hands out the bundles that are transmitted to it, and nothing else. -/
theorem feed_ok_iff {libs : Libraries} {v : FinalBundleVerifier} (fresh : v.bundle = none)
    (unseen : v.finalSeen = false) {events : List ServerEvent} {bundle : VerifiedFinalBundle}
    {others : List VerifiedFinalBundle}
    : v.feed libs events = .ok (bundle :: others)
      ↔ others = [] ∧ v.requireRequest bundle.requestId = .ok ()
        ∧ ∃ contents, Transmits libs events bundle contents := by
  constructor
  · intro fed
    obtain ⟨requestId, bundleId, replay, contents, deliveries, own, rfl, transmittable, described,
      output⟩ := feed_sound fresh fed (List.cons_ne_nil _ _)
    cases output
    exact ⟨rfl, own, contents, rfl, rfl, transmittable, described⟩
  · rintro ⟨rfl, own, contents, rfl, manifestSha256, transmittable, described⟩
    rw [feed_transmission fresh unseen own transmittable described, ← manifestSha256]

/-- Two transmissions that begin alike are the same, unless their contents share a digest. -/
theorem Transmits.unique {libs : Libraries} {events events' : List ServerEvent}
    {bundle bundle' : VerifiedFinalBundle}
    {contents contents' : List (FinalManifestEntry × List UInt8)}
    (transmits : Transmits libs events bundle contents)
    (transmits' : Transmits libs events' bundle' contents')
    (injective : ∀ content ∈ contents, ∀ content' ∈ contents',
      libs.sha256 content.2 = libs.sha256 content'.2 → content.2 = content'.2)
    (begins : events.head? = events'.head?)
    : events = events' := by
  rw [transmits.events, transmits'.events] at begins ⊢
  injection Option.some.inj begins with requestId bundleId replay manifest
  rw [requestId, bundleId, replay,
    contents_unique injective transmits.described transmits'.described manifest]

/-- What is handed out is the bundle that is encoded, where its payloads are transmitted as they
are printed.
-/
theorem Transmits.encodeBundle {libs : Libraries} (hexadecimal : Hexadecimal libs.sha256)
    {events : List ServerEvent} {verified : VerifiedFinalBundle}
    {contents : List (FinalManifestEntry × List UInt8)}
    (transmits : Transmits libs events verified contents) {bundle : ResultBundle}
    (requestId : bundle.requestId = verified.requestId) (id : bundle.id = verified.bundleId)
    (deliveries : verifiedOf bundle.deliveries = verified.deliveries)
    (reads : ∀ delivery ∈ bundle.deliveries, libs.Reads delivery.2)
    (printed : contents.map (·.2)
      = bundle.deliveries.map (fun delivery => (payloadJson delivery.2).toBytes))
    : encodeBundle libs.sha256 bundle verified.replay = .ok events := by
  have same := contents_canonical (deliveries ▸ transmits.described) reads printed
  subst same
  have accepted := transmits.accepted
  have manifest := prepared_manifest libs.sha256 bundle verified.replay
  rw [contentsOf_entries] at accepted
  have sizes : bundle.deliveries.map ((·.decodedBytes) ∘ fun delivery =>
      (encodeDelivery libs.sha256 delivery.1 delivery.2).entry)
        = bundle.deliveries.map (·.2.jsonBytes) :=
    List.map_congr_left (fun delivery _ => size_payload delivery.2)
  have total := accepted.total
  rw [List.map_map, sizes] at total
  have count := accepted.count
  rw [List.length_map] at count
  rw [encodeBundle_of_limits hexadecimal verified.replay
    (fun none => accepted.nonempty (List.map_eq_nil_iff.mpr none)) count total
    (manifest ▸ accepted.size), events_prepared, requestId, id, transmits.events]

/-- Without an output, no end has been accepted, by induction on the events. -/
theorem feed_nil {libs : Libraries} {v : FinalBundleVerifier} {events : List ServerEvent}
    (fed : v.feed libs events = .ok [])
    : ∀ requestId bundleId manifestSha256,
      ServerEvent.finalEnd requestId bundleId manifestSha256 ∉ events := by
  intro requestId bundleId manifestSha256
  induction events generalizing v with
  | nil => exact List.not_mem_nil
  | cons event rest ih =>
      simp only [FinalBundleVerifier.feed] at fed
      split at fed
      · cases fed
      rename_i next output handled
      simp only [bind_eq_ok] at fed
      obtain ⟨others, continued, result⟩ := fed
      injection result with none
      obtain ⟨noOutput, rfl⟩ := List.append_eq_nil_iff.mp none
      rintro (_ | ⟨_, later⟩)
      · cases (handle_ok_iff.mp handled).2
        cases noOutput
      · exact ih continued later

/-- The wire format of final bundles: what is encoded is handed out as it was, what is handed
out was transmitted, in one way for each begin, any other events end in an error as soon as they
claim to be complete, and no index or difference is out of range.
-/
structure WireFormat (libs : Libraries) : Prop where
  roundTrip : ∀ bundle manifest, manifestFor bundle.deliveries = .ok manifest →
    (bundle.deliveries.map (·.1)).Nodup →
    (∀ delivery ∈ bundle.deliveries, ValidPayload delivery.2 ∧ libs.Reads delivery.2) →
    ∀ v ∈ [FinalBundleVerifier.new, .forRequest bundle.requestId], ∀ replay,
      ∃ events manifestSha256, encodeBundle libs.sha256 bundle replay = .ok events
        ∧ v.feed libs events = .ok [⟨bundle.requestId, bundle.id, replay, manifestSha256,
          verifiedOf bundle.deliveries⟩]
  accepts : ∀ v : FinalBundleVerifier, v.bundle = none → v.finalSeen = false →
    ∀ events verified others, v.feed libs events = .ok (verified :: others)
      ↔ others = [] ∧ v.requireRequest verified.requestId = .ok ()
        ∧ ∃ contents, Transmits libs events verified contents
  canonical : ∀ events verified contents, Transmits libs events verified contents →
    ∀ bundle : ResultBundle, bundle.requestId = verified.requestId →
      bundle.id = verified.bundleId → verifiedOf bundle.deliveries = verified.deliveries →
      (∀ delivery ∈ bundle.deliveries, libs.Reads delivery.2) →
      contents.map (·.2) = bundle.deliveries.map (fun delivery => (payloadJson delivery.2).toBytes) →
      encodeBundle libs.sha256 bundle verified.replay = .ok events
  unique : ∀ events events' verified verified' contents contents',
    Transmits libs events verified contents → Transmits libs events' verified' contents' →
    (∀ content ∈ contents, ∀ content' ∈ contents',
      libs.sha256 content.2 = libs.sha256 content'.2 → content.2 = content'.2) →
    events.head? = events'.head? → events = events'
  refuses : ∀ (v : FinalBundleVerifier) events, v.feed libs events = .ok [] →
    ∀ requestId bundleId manifestSha256, .finalEnd requestId bundleId manifestSha256 ∉ events
  safe : ∀ v : FinalBundleVerifier, v.bundle = none → ∀ events event,
    Safe ((v.after libs events).handle libs event).2

/-- The wire format round-trips and the verifier is sound, with a digest that is written in
hexadecimal and the canonical texts of UUIDs.
-/
theorem final_bundle_wire_format {libs : Libraries} (hexadecimal : Hexadecimal libs.sha256)
    (uuids : ∀ number, libs.isUuid (uuidText number) = true)
    : WireFormat libs where
  roundTrip bundle manifest accepted distinct usable v fresh replay := by
    have own : v.bundle = none ∧ v.finalSeen = false ∧ v.requireRequest bundle.requestId = .ok () := by
      simp only [List.mem_cons, List.not_mem_nil, or_false] at fresh
      rcases fresh with rfl | rfl
      · exact ⟨rfl, rfl, rfl⟩
      · exact ⟨rfl, rfl, ensure_eq_ok.mpr rfl⟩
    refine ⟨_, libs.sha256 (manifestJson ((contentsOf libs.sha256 bundle.deliveries).map
      (·.1))).toBytes, encodeBundle_ok hexadecimal replay accepted, ?_⟩
    rw [events_prepared]
    exact feed_transmission own.1 own.2.1 own.2.2
      (transmittable_contentsOf hexadecimal accepted distinct)
      (describes_contentsOf uuids (fun delivery mem => (usable delivery mem).2)
        (fun delivery mem => (usable delivery mem).1)) bundle.id replay
  accepts _ fresh unseen _ _ _ := feed_ok_iff fresh unseen
  canonical _ _ _ transmits _ requestId id deliveries reads printed :=
    transmits.encodeBundle hexadecimal requestId id deliveries reads printed
  unique _ _ _ _ _ _ transmits transmits' injective begins :=
    transmits.unique transmits' injective begins
  refuses _ _ fed := feed_nil fed
  safe _ fresh events event := (handle_wellFormed libs
    (after_wellFormed libs (.of_none fresh) events) event).2

namespace Spaced

/-- A payload as it is printed. -/
def printed : List UInt8 := (payloadJson (.text "hi")).toBytes

/-- The same payload after a space. -/
def spaced : List UInt8 := 32 :: printed

def printedEntry : FinalManifestEntry :=
  ⟨⟨3⟩, "text", 27, "2f92c6cb7d479ea408e7d0dddfcaf8e9f03ae6573ad1324883e1038124888492", 1⟩

def spacedEntry : FinalManifestEntry :=
  ⟨⟨3⟩, "text", 28, "9d45773c815fdca36cdaec153c5c1601d2f586d56dd7c9ef38c9305e716b4716", 1⟩

/-- The digests of the payloads and of their manifests. -/
def sha256 (bytes : List UInt8) : String :=
  if bytes = printed then printedEntry.sha256
  else if bytes = spaced then spacedEntry.sha256
  else if bytes = (manifestJson [printedEntry]).toBytes then
    "60a5ca9241a2d1257c56d98ee9789ef4d4172d30a5123d0b0d5e79d83a40ef27"
  else
    "1185eb0ed7c96ff9c80cd5982fd652c3b09647a0c1e1afee6a691e530eb8eccb"

/-- White space around a value does not change what is read. -/
def libs : Libraries where
  sha256 := sha256
  isUuid text := text.toList.length = 36 ∧ text.toList.all (· ∈ "0123456789abcdef-".toList)
  payloadObject bytes :=
    if bytes = printed ∨ bytes = spaced then some (objectView (.text "hi")) else none
  payload bytes := if bytes = printed ∨ bytes = spaced then some (.text "hi") else none

def verified : VerifiedFinalBundle :=
  ⟨⟨1⟩, ⟨2⟩, false, sha256 (manifestJson [spacedEntry]).toBytes, [⟨⟨3⟩, .text "hi"⟩]⟩

def events : List ServerEvent := transmission libs ⟨1⟩ ⟨2⟩ false [(spacedEntry, spaced)]

def bundle : ResultBundle where
  id := ⟨2⟩
  requestId := ⟨1⟩
  state := .pending
  manifest := [manifestEntry (⟨3⟩, .text "hi")]
  deliveries := [(⟨3⟩, .text "hi")]

theorem hexadecimal : Hexadecimal sha256 := by
  intro bytes
  unfold sha256
  split
  · exact ⟨by decide, forall_of_all (by decide)⟩
  split
  · exact ⟨by decide, forall_of_all (by decide)⟩
  split
  · exact ⟨by decide, forall_of_all (by decide)⟩
  · exact ⟨by decide, forall_of_all (by decide)⟩

theorem uuids (number : Nat) : libs.isUuid (uuidText number) = true := by
  have digits : ∀ c ∈ "0123456789abcdef".toList, c ∈ "0123456789abcdef-".toList :=
    forall_of_all (by decide)
  have dash : '-' ∈ "0123456789abcdef-".toList := by decide
  have chars : ∀ c ∈ (uuidText number).toList, c ∈ "0123456789abcdef-".toList := by
    intro c mem
    simp only [uuidText, String.toList_ofList, List.mem_append, List.mem_cons, or_assoc] at mem
    rcases mem with mem | rfl | mem | rfl | mem | rfl | mem | rfl | mem
    · exact digits c (hexText_mem mem)
    · exact dash
    · exact digits c (hexText_mem mem)
    · exact dash
    · exact digits c (hexText_mem mem)
    · exact dash
    · exact digits c (hexText_mem mem)
    · exact dash
    · exact digits c (hexText_mem mem)
  simp only [libs, length_uuidText, List.all_eq_true, decide_eq_true_eq, true_and]
  exact chars

theorem reads : libs.Reads (.text "hi") where
  object := by simp [libs, printed]
  payload := by simp [libs, printed]

end Spaced

/-- The wire format carries a text. -/
theorem final_bundle_wire_format_text
    : ∃ events manifestSha256, encodeBundle Spaced.libs.sha256 Spaced.bundle true = .ok events
      ∧ FinalBundleVerifier.new.feed Spaced.libs events
        = .ok [⟨⟨1⟩, ⟨2⟩, true, manifestSha256, [⟨⟨3⟩, .text "hi"⟩]⟩] := by
  have accepted : manifestFor Spaced.bundle.deliveries = .ok Spaced.bundle.manifest := by
    decide +kernel
  have format : WireFormat Spaced.libs :=
    final_bundle_wire_format Spaced.hexadecimal Spaced.uuids
  refine format.roundTrip Spaced.bundle _ accepted (by decide) ?_ _ List.mem_cons_self true
  intro delivery mem
  obtain rfl := List.mem_singleton.mp mem
  exact ⟨trivial, Spaced.reads⟩

/-- A payload after a space is accepted, though no bundle is encoded so, and the events without
their end are no error.
-/
theorem spaced_bundle_accepted
    : Spaced.libs.Reads (.text "hi")
      ∧ FinalBundleVerifier.new.feed Spaced.libs Spaced.events = .ok [Spaced.verified]
      ∧ (∀ bundle : ResultBundle, bundle.requestId = Spaced.verified.requestId →
        bundle.id = Spaced.verified.bundleId →
        verifiedOf bundle.deliveries = Spaced.verified.deliveries →
        ∀ replay, encodeBundle Spaced.libs.sha256 bundle replay ≠ .ok Spaced.events)
      ∧ FinalBundleVerifier.new.feed Spaced.libs Spaced.events.dropLast = .ok [] := by
  refine ⟨Spaced.reads, by decide +kernel, ?_, by decide +kernel⟩
  intro bundle requestId id deliveries replay encoded
  have one : bundle.deliveries = Spaced.bundle.deliveries := by
    refine List.map_injective_iff.mpr ?_ deliveries
    intro first second same
    injection same with deliveryId payload
    exact Prod.ext deliveryId payload
  have bounded : (manifestJson (prepared Spaced.sha256 bundle replay).manifest).size
      ≤ maxManifestBytes := by
    rw [prepared_manifest, one]
    decide +kernel
  rw [Spaced.libs, encodeBundle_of_limits Spaced.hexadecimal replay (by rw [one]; decide)
    (by rw [one]; decide) (by rw [one]; decide +kernel) bounded] at encoded
  injection encoded with same
  have begins : some (ServerEvent.finalBegin bundle.requestId bundle.id replay
      (prepared Spaced.sha256 bundle replay).manifest) = Spaced.events.head? :=
    congrArg List.head? same
  rw [prepared_manifest, one] at begins
  injection Option.some.inj begins with _ _ _ manifest
  exact absurd manifest (by decide +kernel)

end Codrik.Interfaces

import Codrik.Interfaces.JsonStrings
import Codrik.Runtime.Ipc.Sizes

/-! Final bundles on the wire: what the server sends is verified, and only the transmission of
what is handed out is.
-/

namespace Codrik.Interfaces

open Codrik.Encoding
open Codrik.Runtime
open Codrik.Runtime.Ipc
open Codrik.Runtime.Sqlite

-----------------------------------------------------------------------------------------
-- Chunks
-----------------------------------------------------------------------------------------

theorem divCeil_mul {size : Nat} (pos : 0 < size) (k : Nat) : divCeil (k * size) size = k := by
  unfold divCeil
  rw [Nat.add_sub_assoc pos, Nat.add_comm, Nat.add_mul_div_right _ _ pos,
    Nat.div_eq_of_lt (Nat.sub_lt pos Nat.one_pos), Nat.zero_add]

theorem divCeil_mul_add {size : Nat} (pos : 0 < size) (k : Nat) {n : Nat} (some : 0 < n)
    (fits : n ≤ size)
    : divCeil (k * size + n) size = k + 1 := by
  unfold divCeil
  have : k * size + n + size - 1 = (n - 1) + (k + 1) * size := by
    rw [Nat.add_mul]
    omega
  rw [this, Nat.add_mul_div_right _ _ pos, Nat.div_eq_of_lt (by omega), Nat.zero_add]

/-- Bytes after full chunks are one more chunk. -/
theorem chunks_append {size k : Nat} (pos : 0 < size) {bytes next : List UInt8}
    (full : bytes.length = k * size) (some : 0 < next.length) (fits : next.length ≤ size)
    : chunks size (bytes ++ next) = chunks size bytes ++ [next] := by
  unfold chunks
  rw [List.length_append, full, divCeil_mul_add pos k some fits, divCeil_mul pos,
    List.range_succ, List.map_append, List.map_singleton]
  congr 1
  · refine List.map_congr_left (fun j mem => ?_)
    have before : j + 1 ≤ k := List.mem_range.mp mem
    have inside : j * size + size ≤ bytes.length := by
      have := Nat.mul_le_mul_right size before
      rw [Nat.add_mul, Nat.one_mul] at this
      omega
    rw [List.drop_append_of_le_length (by omega), List.take_append_of_le_length]
    rw [List.length_drop]
    omega
  · rw [← full, List.drop_left, List.take_of_length_le fits]

theorem length_chunks (size : Nat) (bytes : List UInt8)
    : (chunks size bytes).length = divCeil bytes.length size := by
  simp [chunks]

/-- The event of the next chunk is the last one of the longer delivery. -/
theorem chunkEvents_append (requestId : RequestId) (bundleId : BundleId) (deliveryId : DeliveryId)
    {k : Nat} {bytes next : List UInt8} (full : bytes.length = k * maxFinalChunkBytes)
    (some : 0 < next.length) (fits : next.length ≤ maxFinalChunkBytes)
    : chunkEvents requestId bundleId deliveryId (bytes ++ next)
      = chunkEvents requestId bundleId deliveryId bytes
        ++ [.finalChunk requestId bundleId deliveryId k (String.ofList (Base64.encode next))] := by
  have pos : 0 < maxFinalChunkBytes := by decide
  unfold chunkEvents
  rw [chunks_append pos full some fits, List.mapIdx_concat, length_chunks, full, divCeil_mul pos]

theorem chunkEvents_nil (requestId : RequestId) (bundleId : BundleId) (deliveryId : DeliveryId)
    : chunkEvents requestId bundleId deliveryId [] = [] := by
  have none : divCeil 0 maxFinalChunkBytes = 0 := by decide
  unfold chunkEvents chunks
  rw [List.length_nil, none]
  rfl

theorem utf8ByteSize_encode (bytes : List UInt8)
    : (String.ofList (Base64.encode bytes)).utf8ByteSize = divCeil bytes.length 3 * 4 := by
  have ascii : Ascii (Base64.encode bytes) := fun c mem =>
    (by decide : Ascii ('=' :: Base64.alphabet)) c (Base64.encode_mem mem)
  rw [← length_utf8, String.toList_ofList, length_utf8_ascii ascii, Base64.length_encode]
  rfl

-----------------------------------------------------------------------------------------
-- A bundle in progress
-----------------------------------------------------------------------------------------

/-- An entry that `begin` accepts. -/
def Sized (entry : FinalManifestEntry) : Prop :=
  entry.decodedBytes ≠ 0 ∧ entry.chunkCount = divCeil entry.decodedBytes maxFinalChunkBytes

/-- The buffers of the deliveries that are not complete. -/
def openBuffers (part : List UInt8) : List FinalManifestEntry → List BufferedDelivery
  | [] => []
  | _ :: later => ⟨part, part⟩ :: later.map (fun _ => ⟨[], []⟩)

/-- The bundle has received the deliveries `full`, a part of the first of `rest` in full
chunks, and nothing of the others.
-/
structure Progress (bundle : PendingBundle) (full : List (FinalManifestEntry × List UInt8))
    (part : List UInt8) (rest : List FinalManifestEntry) : Prop where
  manifest : bundle.manifest = full.map (·.1) ++ rest
  deliveries : bundle.deliveries
    = full.map (fun delivery => ⟨delivery.2, delivery.2⟩) ++ openBuffers part rest
  complete : ∀ delivery ∈ full, delivery.2.length = delivery.1.decodedBytes
  current : bundle.currentDelivery = full.length
  chunked : part.length = bundle.nextChunk * maxFinalChunkBytes
  unfinished : ∀ entry ∈ rest.head?, part.length < entry.decodedBytes
  finished : rest = [] → bundle.nextChunk = 0
  sized : ∀ entry ∈ rest, Sized entry
  total : (bundle.manifest.map (·.decodedBytes)).sum ≤ maxBundleBytes
  buffered : bundle.bufferedBytes = (full.map (·.2.length)).sum + part.length

/-- The chunks received so far. -/
def received (bundle : PendingBundle) (full : List (FinalManifestEntry × List UInt8))
    (part : List UInt8) (rest : List FinalManifestEntry) : List ServerEvent :=
  full.flatMap (fun delivery =>
      chunkEvents bundle.requestId bundle.bundleId delivery.1.deliveryId delivery.2)
    ++ rest.head?.toList.flatMap (fun entry =>
      chunkEvents bundle.requestId bundle.bundleId entry.deliveryId part)

section Chunk

variable {bundle : PendingBundle} {full : List (FinalManifestEntry × List UInt8)}
  {part : List UInt8} {entry : FinalManifestEntry} {later : List FinalManifestEntry}

theorem sum_complete (complete : ∀ delivery ∈ full, delivery.2.length = delivery.1.decodedBytes)
    : (full.map (·.2.length)).sum = ((full.map (·.1)).map (·.decodedBytes)).sum := by
  rw [List.map_map]
  exact congrArg List.sum (List.map_congr_left complete)

/-- What is buffered and open together stays within the limit. -/
theorem Progress.within (progress : Progress bundle full part (entry :: later))
    : (full.map (·.2.length)).sum + entry.decodedBytes ≤ maxBundleBytes := by
  have total := progress.total
  rw [progress.manifest, List.map_append, List.sum_append, List.map_cons, List.sum_cons,
    ← sum_complete progress.complete] at total
  omega

theorem Progress.entryAt (progress : Progress bundle full part (entry :: later))
    : bundle.manifest[bundle.currentDelivery]? = some entry := by
  rw [progress.manifest, progress.current, ← List.length_map (f := (·.1)),
    List.getElem?_append_right (Nat.le_refl _), Nat.sub_self]
  rfl

theorem Progress.bufferAt (progress : Progress bundle full part (entry :: later))
    : bundle.deliveries[bundle.currentDelivery]? = some ⟨part, part⟩ := by
  have length : full.length
      = (full.map (fun delivery => (⟨delivery.2, delivery.2⟩ : BufferedDelivery))).length := by
    rw [List.length_map]
  rw [progress.deliveries, progress.current, length,
    List.getElem?_append_right (Nat.le_refl _), Nat.sub_self]
  rfl

/-- A chunk is accepted exactly when it is the next one of the transmission. -/
theorem Progress.receive_iff (progress : Progress bundle full part (entry :: later))
    {requestId : RequestId} {bundleId : BundleId} {deliveryId : DeliveryId} {chunkIndex : Nat}
    {text : String} {result : FinalManifestEntry × BufferedDelivery × List UInt8 × Nat}
    : bundle.receive requestId bundleId deliveryId chunkIndex text = .ok result
      ↔ requestId = bundle.requestId ∧ bundleId = bundle.bundleId
        ∧ deliveryId = entry.deliveryId ∧ chunkIndex = bundle.nextChunk
        ∧ ∃ decoded, text = String.ofList (Base64.encode decoded)
          ∧ decoded.length = min (entry.decodedBytes - part.length) maxFinalChunkBytes
          ∧ result = (entry, ⟨part, part⟩, decoded, bundle.bufferedBytes + decoded.length) := by
  have open' := progress.unfinished entry rfl
  have within := progress.within
  have offset : checkedMul bundle.nextChunk maxFinalChunkBytes = some part.length := by
    have small : bundle.nextChunk * maxFinalChunkBytes < 2 ^ 64 := by
      rw [← progress.chunked]
      unfold maxBundleBytes at within
      omega
    rw [checkedMul, if_pos small, progress.chunked]
  simp only [PendingBundle.receive, bind_eq_ok, ensure_eq_ok, context_eq_ok, subtract_eq_ok,
    index_eq_ok, progress.entryAt, progress.bufferAt, Option.some.injEq]
  constructor
  · rintro ⟨_, ⟨rfl, rfl⟩, _, rfl, _, rfl, _, rfl, _, mul, _, ⟨-, rfl⟩, _, -, _, rfl, decoded, known, _,
      length, _, add, done⟩
    rw [offset, Option.some.injEq] at mul
    subst mul
    unfold checkedAdd at add
    split at add <;> cases add
    cases done
    refine ⟨rfl, rfl, rfl, rfl, decoded, ?_, length, rfl⟩
    rw [Base64.encode_of_decode known, String.ofList_toList]
  · rintro ⟨rfl, rfl, rfl, rfl, decoded, rfl, length, rfl⟩
    have add : checkedAdd bundle.bufferedBytes decoded.length
        = some (bundle.bufferedBytes + decoded.length) := by
      have := progress.buffered
      unfold maxBundleBytes at within
      rw [checkedAdd, if_pos (by omega)]
    refine ⟨(), ⟨rfl, rfl⟩, entry, rfl, (), rfl, (), rfl, _, offset, _, ⟨le_of_lt open', rfl⟩, (),
      ?_, _, rfl, decoded, ?_, (), length, _, add, rfl⟩
    · rw [utf8ByteSize_encode, length]
    · rw [String.toList_ofList, Base64.decode_encode]

/-- The buffers after the next chunk. -/
theorem Progress.set (progress : Progress bundle full part (entry :: later))
    (delivery : BufferedDelivery)
    : bundle.deliveries.set bundle.currentDelivery delivery
      = full.map (fun delivery => ⟨delivery.2, delivery.2⟩)
        ++ delivery :: later.map (fun _ => ⟨[], []⟩) := by
  have length : full.length
      = (full.map (fun delivery => (⟨delivery.2, delivery.2⟩ : BufferedDelivery))).length := by
    rw [List.length_map]
  rw [progress.deliveries, progress.current, length, List.set_append_right _ _ (Nat.le_refl _),
    Nat.sub_self]
  rfl

/-- The next chunk is the last one of its delivery exactly when it completes the bytes. -/
theorem Progress.last_iff (progress : Progress bundle full part (entry :: later))
    {decoded : List UInt8}
    (length : decoded.length = min (entry.decodedBytes - part.length) maxFinalChunkBytes)
    : bundle.nextChunk + 1 = entry.chunkCount
      ↔ part.length + decoded.length = entry.decodedBytes := by
  have pos : 0 < maxFinalChunkBytes := by decide
  have open' := progress.unfinished entry rfl
  have chunked := progress.chunked
  obtain ⟨-, count⟩ := progress.sized entry List.mem_cons_self
  rw [count]
  constructor
  · intro last
    by_contra unended
    have more : bundle.nextChunk * maxFinalChunkBytes + maxFinalChunkBytes + 1
        ≤ entry.decodedBytes := by omega
    have grows : divCeil (bundle.nextChunk * maxFinalChunkBytes + maxFinalChunkBytes + 1)
        maxFinalChunkBytes ≤ divCeil entry.decodedBytes maxFinalChunkBytes := by
      unfold divCeil
      exact Nat.div_le_div_right (by omega)
    have next : divCeil ((bundle.nextChunk + 1) * maxFinalChunkBytes + 1) maxFinalChunkBytes
        = bundle.nextChunk + 1 + 1 := divCeil_mul_add pos _ Nat.one_pos pos
    rw [Nat.add_mul, Nat.one_mul] at next
    omega
  · intro ends
    have reached : entry.decodedBytes
        = bundle.nextChunk * maxFinalChunkBytes + decoded.length := by omega
    rw [reached, divCeil_mul_add pos _ (by omega) (by omega)]

/-- The chunk that completes a delivery. -/
theorem Progress.push_last (progress : Progress bundle full part (entry :: later))
    {decoded : List UInt8}
    (length : decoded.length = min (entry.decodedBytes - part.length) maxFinalChunkBytes)
    (ends : part.length + decoded.length = entry.decodedBytes)
    : Progress (bundle.push entry ⟨part, part⟩ decoded (bundle.bufferedBytes + decoded.length))
        (full ++ [(entry, part ++ decoded)]) [] later := by
  have last := (progress.last_iff length).mpr ends
  simp only [PendingBundle.push, if_pos last, progress.set]
  constructor
  · rw [progress.manifest]
    simp
  · cases later with
    | nil => simp [openBuffers]
    | cons next others => simp [openBuffers]
  · intro delivery mem
    rcases List.mem_append.mp mem with old | new
    · exact progress.complete delivery old
    · rw [List.mem_singleton.mp new, List.length_append]
      exact ends
  · rw [progress.current, List.length_append]
    rfl
  · simp
  · intro next mem
    have := progress.sized next (List.mem_cons_of_mem _ (List.mem_of_mem_head? mem))
    exact Nat.pos_of_ne_zero this.1
  · exact fun _ => rfl
  · exact fun next mem => progress.sized next (List.mem_cons_of_mem _ mem)
  · exact progress.total
  · simp only [progress.buffered, List.map_append, List.sum_append, List.map_singleton,
      List.sum_singleton, List.length_append, List.length_nil]
    omega

/-- A chunk that others of its delivery follow. -/
theorem Progress.push_more (progress : Progress bundle full part (entry :: later))
    {decoded : List UInt8}
    (length : decoded.length = min (entry.decodedBytes - part.length) maxFinalChunkBytes)
    (more : part.length + decoded.length ≠ entry.decodedBytes)
    : Progress (bundle.push entry ⟨part, part⟩ decoded (bundle.bufferedBytes + decoded.length))
        full (part ++ decoded) (entry :: later) := by
  have notLast : ¬bundle.nextChunk + 1 = entry.chunkCount :=
    fun last => more ((progress.last_iff length).mp last)
  have open' := progress.unfinished entry rfl
  have whole : decoded.length = maxFinalChunkBytes := by omega
  simp only [PendingBundle.push, if_neg notLast, progress.set]
  constructor
  · exact progress.manifest
  · rfl
  · exact progress.complete
  · exact progress.current
  · rw [List.length_append, Nat.add_mul, Nat.one_mul, progress.chunked, whole]
  · intro next mem
    obtain rfl : entry = next := Option.some.inj mem
    rw [List.length_append]
    omega
  · exact fun none => absurd none (List.cons_ne_nil _ _)
  · exact progress.sized
  · exact progress.total
  · rw [progress.buffered, List.length_append, Nat.add_assoc]

/-- The bundle after the next chunk has received its event as well. -/
theorem Progress.push (progress : Progress bundle full part (entry :: later))
    {decoded : List UInt8}
    (length : decoded.length = min (entry.decodedBytes - part.length) maxFinalChunkBytes)
    : ∃ full' part' rest',
      Progress (bundle.push entry ⟨part, part⟩ decoded (bundle.bufferedBytes + decoded.length))
        full' part' rest'
      ∧ received bundle full' part' rest'
        = received bundle full part (entry :: later)
          ++ [.finalChunk bundle.requestId bundle.bundleId entry.deliveryId bundle.nextChunk
            (String.ofList (Base64.encode decoded))] := by
  have pos : 0 < maxFinalChunkBytes := by decide
  have open' := progress.unfinished entry rfl
  have some : 0 < decoded.length := by omega
  have fits : decoded.length ≤ maxFinalChunkBytes := by omega
  have events := chunkEvents_append bundle.requestId bundle.bundleId entry.deliveryId
    progress.chunked some fits
  by_cases ends : part.length + decoded.length = entry.decodedBytes
  · refine ⟨_, _, _, progress.push_last length ends, ?_⟩
    cases later <;> simp [received, events, chunkEvents_nil]
  · exact ⟨_, _, _, progress.push_more length ends, by simp [received, events]⟩

end Chunk

-----------------------------------------------------------------------------------------
-- Accepted events
-----------------------------------------------------------------------------------------

/-- What an accepted event is, and what it does. -/
inductive Accepted (libs : Libraries) (v : FinalBundleVerifier)
    : ServerEvent → FinalBundleVerifier → Option VerifiedFinalBundle → Prop
  | begins {requestId bundleId replay manifest next}
      (begun : v.begin requestId bundleId replay manifest = .ok next)
      : Accepted libs v (.finalBegin requestId bundleId replay manifest) next none
  | receives {requestId bundleId deliveryId chunkIndex text bundle entry delivery decoded}
      {bufferedBytes : Nat} (own : v.requireRequest requestId = .ok ())
      (pending : v.bundle = some bundle)
      (checked : bundle.receive requestId bundleId deliveryId chunkIndex text
        = .ok (entry, delivery, decoded, bufferedBytes))
      (within : bufferedBytes ≤ maxBundleBytes)
      : Accepted libs v (.finalChunk requestId bundleId deliveryId chunkIndex text)
          { v with bundle := some (bundle.push entry delivery decoded bufferedBytes) } none
  | finishes {requestId bundleId manifestSha256 bundle verified}
      (own : v.requireRequest requestId = .ok ()) (pending : v.bundle = some bundle)
      (finished : bundle.finish libs requestId bundleId manifestSha256 = .ok verified)
      : Accepted libs v (.finalEnd requestId bundleId manifestSha256)
          { v with bundle := none, finalSeen := true } (some verified)

/-- The accepted events are those `handle` answers without an error, by cases on the event. -/
theorem handle_ok_iff {libs : Libraries} {v next : FinalBundleVerifier} {event : ServerEvent}
    {output : Option VerifiedFinalBundle}
    : v.handle libs event = (next, .ok output)
      ↔ v.finalSeen = false ∧ Accepted libs v event next output := by
  unfold FinalBundleVerifier.handle
  by_cases seen : v.finalSeen = true
  · rw [if_pos seen]
    simp [seen, bail]
  rw [if_neg seen]
  simp only [Bool.not_eq_true] at seen
  constructor
  · intro handled
    refine ⟨seen, ?_⟩
    cases event with
    | finalBegin requestId bundleId replay manifest =>
        simp only at handled
        split at handled
        · cases handled
        · rename_i begun
          cases handled
          exact .begins begun
    | finalChunk requestId bundleId deliveryId chunkIndex text =>
        simp only [FinalBundleVerifier.chunk] at handled
        split at handled
        · cases handled
        · cases handled
        · rename_i own pending
          split at handled
          · cases handled
          · rename_i entry delivery decoded bufferedBytes checked
            split at handled
            · cases handled
            · rename_i within
              cases handled
              exact .receives own pending checked (not_lt.mp within)
    | finalEnd requestId bundleId manifestSha256 =>
        simp only [FinalBundleVerifier.finish] at handled
        split at handled
        · cases handled
        · cases handled
        · rename_i own pending
          split at handled
          · cases handled
          · rename_i finished
            cases handled
            exact .finishes own pending finished
    | _ => cases handled
  · rintro ⟨-, accepted⟩
    cases accepted with
    | begins begun => simp only [begun]
    | receives own pending checked within =>
        simp only [FinalBundleVerifier.chunk, own, pending, checked, if_neg (not_lt.mpr within)]
        rfl
    | finishes own pending finished =>
        simp only [FinalBundleVerifier.finish, own, pending, finished]
        rfl

/-- Nothing is accepted after the end of a bundle. -/
theorem feed_seen {libs : Libraries} {v : FinalBundleVerifier} {events : List ServerEvent}
    {outputs : List VerifiedFinalBundle} (seen : v.finalSeen = true)
    (fed : v.feed libs events = .ok outputs)
    : events = [] ∧ outputs = [] := by
  cases events with
  | nil =>
      cases fed
      exact ⟨rfl, rfl⟩
  | cons event rest =>
      simp only [FinalBundleVerifier.feed] at fed
      split at fed
      · cases fed
      · rename_i handled
        have := (handle_ok_iff.mp handled).1
        rw [seen] at this
        cases this

-----------------------------------------------------------------------------------------
-- Transmissions
-----------------------------------------------------------------------------------------

/-- The events that transmit byte strings with their entries, in canonical chunks. -/
def transmission (libs : Libraries) (requestId : RequestId) (bundleId : BundleId) (replay : Bool)
    (contents : List (FinalManifestEntry × List UInt8)) : List ServerEvent :=
  .finalBegin requestId bundleId replay (contents.map (·.1))
    :: contents.flatMap (fun content =>
      chunkEvents requestId bundleId content.1.deliveryId content.2)
    ++ [.finalEnd requestId bundleId
      (libs.sha256 (manifestJson (contents.map (·.1))).toBytes)]

/-- The entry describes the bytes, which are read as the payload. -/
structure Describes (libs : Libraries) (content : FinalManifestEntry × List UInt8)
    (delivery : VerifiedDelivery) : Prop where
  deliveryId : content.1.deliveryId = delivery.deliveryId
  decodedBytes : content.1.decodedBytes = content.2.length
  chunkCount : content.1.chunkCount = divCeil content.2.length maxFinalChunkBytes
  sha256 : content.1.sha256 = libs.sha256 content.2
  shape : ∃ view, parsePayload libs content.2 = .ok view ∧ view.validate libs = .ok ()
    ∧ view.kind = content.1.payloadKind
  payload : libs.payload content.2 = some delivery.payload

theorem verifyDelivery_ok {libs : Libraries} {entry : FinalManifestEntry} {bytes : List UInt8}
    {verified : VerifiedDelivery} (sized : Sized entry)
    (passed : PendingBundle.verifyDelivery libs entry ⟨bytes, bytes⟩ = .ok verified)
    : Describes libs (entry, bytes) verified := by
  simp only [PendingBundle.verifyDelivery, bind_eq_ok, ensure_eq_ok, context_eq_ok] at passed
  obtain ⟨_, length, _, sha256, view, parsed, _, valid, _, kind, payload, read, result⟩ := passed
  cases result
  exact ⟨rfl, length.symm, by rw [sized.2, ← length], sha256.symm, ⟨view, parsed, valid, kind⟩, read⟩

/-- Verified deliveries are described by their entries, by induction on them. -/
theorem verifyDeliveries_ok {libs : Libraries}
    {contents : List (FinalManifestEntry × List UInt8)} {verified : List VerifiedDelivery}
    (sized : ∀ content ∈ contents, Sized content.1)
    (passed
      : PendingBundle.verifyDeliveries libs
          (contents.map (fun content => (content.1, ⟨content.2, content.2⟩)))
        = .ok verified)
    : List.Forall₂ (Describes libs) contents verified := by
  induction contents generalizing verified with
  | nil =>
      cases passed
      exact .nil
  | cons content rest ih =>
      simp only [List.map_cons, PendingBundle.verifyDeliveries, bind_eq_ok] at passed
      obtain ⟨first, one, others, more, result⟩ := passed
      cases result
      exact .cons (verifyDelivery_ok (sized content List.mem_cons_self) one)
        (ih (fun other mem => sized other (List.mem_cons_of_mem _ mem)) more)

/-- An accepted end finds every delivery complete. -/
theorem Progress.finish_ok {libs : Libraries} {bundle : PendingBundle}
    {full : List (FinalManifestEntry × List UInt8)} {part : List UInt8}
    {rest : List FinalManifestEntry} (progress : Progress bundle full part rest)
    (sized : ∀ entry ∈ bundle.manifest, Sized entry)
    {requestId : RequestId} {bundleId : BundleId} {manifestSha256 : String}
    {verified : VerifiedFinalBundle}
    (finished : bundle.finish libs requestId bundleId manifestSha256 = .ok verified)
    : rest = [] ∧ full.map (·.1) = bundle.manifest ∧ requestId = bundle.requestId
      ∧ bundleId = bundle.bundleId
      ∧ manifestSha256 = libs.sha256 (manifestJson bundle.manifest).toBytes
      ∧ ∃ deliveries, List.Forall₂ (Describes libs) full deliveries
        ∧ verified = ⟨bundle.requestId, bundle.bundleId, bundle.replay,
          libs.sha256 (manifestJson bundle.manifest).toBytes, deliveries⟩ := by
  simp only [PendingBundle.finish, bind_eq_ok, ensure_eq_ok] at finished
  obtain ⟨_, ⟨rfl, rfl⟩, _, rfl, _, ⟨all, -⟩, _, -, deliveries, passed, result⟩ := finished
  have manifest := progress.manifest
  have ended : rest = [] := by
    rw [manifest, progress.current, List.length_append, List.length_map] at all
    exact List.eq_nil_of_length_eq_zero (by omega)
  subst ended
  rw [List.append_nil] at manifest
  have zipped : bundle.manifest.zip bundle.deliveries
      = full.map (fun content => (content.1, ⟨content.2, content.2⟩)) := by
    rw [manifest, progress.deliveries, openBuffers, List.append_nil, List.zip_map']
  rw [zipped] at passed
  have described := verifyDeliveries_ok (fun content mem => sized content.1 (by
    rw [manifest]
    exact List.mem_map_of_mem mem)) passed
  exact ⟨rfl, manifest.symm, rfl, rfl, rfl, deliveries, described, by cases result; rfl⟩

/-- Events accepted by a bundle in progress complete its transmission, by induction on them.
-/
theorem feed_progress {libs : Libraries} {v : FinalBundleVerifier} {bundle : PendingBundle}
    {full : List (FinalManifestEntry × List UInt8)} {part : List UInt8}
    {rest : List FinalManifestEntry} {events : List ServerEvent}
    {outputs : List VerifiedFinalBundle} (pending : v.bundle = some bundle)
    (progress : Progress bundle full part rest)
    (sized : ∀ entry ∈ bundle.manifest, Sized entry)
    (fed : v.feed libs events = .ok outputs) (some : outputs ≠ [])
    : ∃ contents deliveries, contents.map (·.1) = bundle.manifest
      ∧ received bundle full part rest ++ events
        = contents.flatMap (fun content =>
            chunkEvents bundle.requestId bundle.bundleId content.1.deliveryId content.2)
          ++ [.finalEnd bundle.requestId bundle.bundleId
            (libs.sha256 (manifestJson bundle.manifest).toBytes)]
      ∧ List.Forall₂ (Describes libs) contents deliveries
      ∧ outputs = [⟨bundle.requestId, bundle.bundleId, bundle.replay,
        libs.sha256 (manifestJson bundle.manifest).toBytes, deliveries⟩] := by
  induction events generalizing v bundle full part rest with
  | nil =>
      cases fed
      exact absurd rfl some
  | cons event more ih =>
      simp only [FinalBundleVerifier.feed] at fed
      split at fed
      · cases fed
      rename_i next output handled
      simp only [bind_eq_ok] at fed
      obtain ⟨others, continued, result⟩ := fed
      obtain ⟨seen, accepted⟩ := handle_ok_iff.mp handled
      cases accepted with
      | begins begun =>
          simp only [FinalBundleVerifier.begin, bind_eq_ok, ensure_eq_ok, pending] at begun
          obtain ⟨_, -, _, ⟨none, -⟩, -⟩ := begun
          cases none
      | @receives requestId bundleId deliveryId chunkIndex text current entry delivery decoded
          bufferedBytes own pending' checked within =>
          obtain rfl := Option.some.inj (pending'.symm.trans pending)
          cases rest with
          | nil =>
              simp only [PendingBundle.receive, bind_eq_ok, context_eq_ok] at checked
              obtain ⟨_, -, entry', found, -⟩ := checked
              rw [progress.manifest, progress.current, List.append_nil,
                List.getElem?_eq_none (by simp)] at found
              cases found
          | cons first later =>
              obtain ⟨rfl, rfl, rfl, rfl, decoded', rfl, length, same⟩ :=
                progress.receive_iff.mp checked
              cases same
              obtain ⟨full', part', rest', progress', events⟩ := progress.push length
              cases result
              obtain ⟨contents, deliveries, manifest, whole, described, output⟩ :=
                ih rfl progress' sized continued
              refine ⟨contents, deliveries, manifest, ?_, described, output⟩
              rw [List.append_cons]
              exact events ▸ whole
      | @finishes requestId bundleId manifestSha256 pending' verified own same finished =>
          obtain rfl := Option.some.inj (same.symm.trans pending)
          obtain ⟨rfl, manifest, rfl, rfl, rfl, deliveries, described, rfl⟩ :=
            progress.finish_ok sized finished
          obtain ⟨rfl, rfl⟩ := feed_seen rfl continued
          cases result
          refine ⟨full, deliveries, manifest, ?_, described, rfl⟩
          simp [received]

-----------------------------------------------------------------------------------------
-- The start of a bundle
-----------------------------------------------------------------------------------------

def KnownKind (kind : String) : Prop := kind = "text" ∨ kind = "file" ∨ kind = "terminal_error"

/-- What the loop of `begin` checks, by induction on the manifest. -/
theorem checkManifest_ok_iff {seen : List DeliveryId} {total : Nat}
    {manifest : List FinalManifestEntry} (small : total ≤ maxBundleBytes)
    : FinalBundleVerifier.checkManifest seen total manifest = .ok ()
      ↔ (∀ entry ∈ manifest, entry.deliveryId ∉ seen) ∧ (manifest.map (·.deliveryId)).Nodup
        ∧ (∀ entry ∈ manifest, KnownKind entry.payloadKind ∧ Sized entry)
        ∧ total + (manifest.map (·.decodedBytes)).sum ≤ maxBundleBytes := by
  induction manifest generalizing seen total with
  | nil => simpa [FinalBundleVerifier.checkManifest] using small
  | cons entry rest ih =>
      simp only [FinalBundleVerifier.checkManifest, bind_eq_ok, ensure_eq_ok, context_eq_ok,
        List.forall_mem_cons, List.map_cons, List.nodup_cons, List.sum_cons]
      constructor
      · rintro ⟨_, fresh, _, kind, _, sized, next, add, _, within, others⟩
        unfold checkedAdd at add
        split at add <;> cases add
        obtain ⟨unseen, nodup, known, sum⟩ := (ih within).mp others
        refine ⟨⟨fresh, fun other mem here => unseen other mem (List.mem_cons_of_mem _ here)⟩,
          ⟨?_, nodup⟩, ⟨⟨kind, sized⟩, known⟩, by omega⟩
        intro mem
        obtain ⟨other, here, same⟩ := List.mem_map.mp mem
        exact unseen other here (same ▸ List.mem_cons_self)
      · rintro ⟨⟨fresh, unseen⟩, ⟨apart, nodup⟩, ⟨⟨kind, sized⟩, known⟩, sum⟩
        have add : checkedAdd total entry.decodedBytes = some (total + entry.decodedBytes) := by
          unfold maxBundleBytes at sum
          rw [checkedAdd, if_pos (by omega)]
        refine ⟨(), fresh, (), kind, (), sized, _, add, (), by omega, (ih (by omega)).mpr
          ⟨?_, nodup, known, by omega⟩⟩
        intro other mem here
        rcases List.mem_cons.mp here with same | here
        · exact apart (List.mem_map.mpr ⟨other, mem, same⟩)
        · exact unseen other mem here

/-- The bundle a begin opens. -/
def opened (requestId : RequestId) (bundleId : BundleId) (replay : Bool)
    (manifest : List FinalManifestEntry) : PendingBundle where
  requestId := requestId
  bundleId := bundleId
  replay := replay
  manifest := manifest
  deliveries := manifest.map (fun _ => ⟨[], []⟩)
  currentDelivery := 0
  nextChunk := 0
  bufferedBytes := 0

/-- A manifest that `begin` accepts. -/
structure Transmittable (manifest : List FinalManifestEntry) : Prop where
  nonempty : manifest ≠ []
  count : manifest.length ≤ maxBundleDeliveries
  size : (manifestJson manifest).size ≤ maxManifestBytes
  distinct : (manifest.map (·.deliveryId)).Nodup
  entries : ∀ entry ∈ manifest, KnownKind entry.payloadKind ∧ Sized entry
  total : (manifest.map (·.decodedBytes)).sum ≤ maxBundleBytes

theorem begin_ok_iff {v next : FinalBundleVerifier} {requestId : RequestId} {bundleId : BundleId}
    {replay : Bool} {manifest : List FinalManifestEntry}
    : v.begin requestId bundleId replay manifest = .ok next
      ↔ v.requireRequest requestId = .ok () ∧ v.bundle = none ∧ v.finalSeen = false
        ∧ Transmittable manifest
        ∧ next = { v with bundle := some (opened requestId bundleId replay manifest) } := by
  simp only [FinalBundleVerifier.begin, bind_eq_ok, ensure_eq_ok]
  constructor
  · rintro ⟨_, own, _, ⟨none, unseen⟩, _, ⟨nonempty, count⟩, _, size, _, checked, result⟩
    cases result
    obtain ⟨-, distinct, entries, total⟩ := (checkManifest_ok_iff (Nat.zero_le _)).mp checked
    rw [Nat.zero_add] at total
    exact ⟨own, none, unseen, ⟨nonempty, count, size, distinct, entries, total⟩, rfl⟩
  · rintro ⟨own, none, unseen, ⟨nonempty, count, size, distinct, entries, total⟩, rfl⟩
    refine ⟨(), own, (), ⟨none, unseen⟩, (), ⟨nonempty, count⟩, (), size, (), ?_, rfl⟩
    refine (checkManifest_ok_iff (Nat.zero_le _)).mpr ⟨fun _ _ => List.not_mem_nil, distinct,
      entries, ?_⟩
    rwa [Nat.zero_add]

/-- A bundle that has begun has received nothing. -/
theorem progress_opened {requestId : RequestId} {bundleId : BundleId} {replay : Bool}
    {manifest : List FinalManifestEntry} (transmittable : Transmittable manifest)
    : Progress (opened requestId bundleId replay manifest) [] [] manifest where
  manifest := rfl
  deliveries := by cases manifest <;> rfl
  complete _ mem := absurd mem List.not_mem_nil
  current := rfl
  chunked := (Nat.zero_mul _).symm
  unfinished entry mem := Nat.pos_of_ne_zero
    (transmittable.entries entry (List.mem_of_mem_head? mem)).2.1
  finished _ := rfl
  sized entry mem := (transmittable.entries entry mem).2
  total := transmittable.total
  buffered := rfl

/-- Whatever a fresh verifier hands out was transmitted, and nothing else. -/
theorem feed_sound {libs : Libraries} {v : FinalBundleVerifier} {events : List ServerEvent}
    {outputs : List VerifiedFinalBundle} (fresh : v.bundle = none)
    (fed : v.feed libs events = .ok outputs) (some : outputs ≠ [])
    : ∃ requestId bundleId replay contents deliveries,
      v.requireRequest requestId = .ok ()
      ∧ events = transmission libs requestId bundleId replay contents
      ∧ Transmittable (contents.map (·.1))
      ∧ List.Forall₂ (Describes libs) contents deliveries
      ∧ outputs = [⟨requestId, bundleId, replay,
        libs.sha256 (manifestJson (contents.map (·.1))).toBytes, deliveries⟩] := by
  cases events with
  | nil =>
      cases fed
      exact absurd rfl some
  | cons event rest =>
      simp only [FinalBundleVerifier.feed] at fed
      split at fed
      · cases fed
      rename_i next output handled
      simp only [bind_eq_ok] at fed
      obtain ⟨others, continued, result⟩ := fed
      cases result
      obtain ⟨-, accepted⟩ := handle_ok_iff.mp handled
      cases accepted with
      | @begins requestId bundleId replay manifest _ begun =>
          obtain ⟨own, -, -, transmittable, rfl⟩ := begin_ok_iff.mp begun
          obtain ⟨contents, deliveries, same, whole, described, output⟩ :=
            feed_progress rfl (progress_opened transmittable)
              (fun entry mem => (transmittable.entries entry mem).2) continued some
          have nothing : received (opened requestId bundleId replay manifest) [] [] manifest = [] := by
            cases manifest <;> simp [received, chunkEvents_nil]
          rw [nothing, List.nil_append] at whole
          refine ⟨requestId, bundleId, replay, contents, deliveries, own, ?_, ?_, described, ?_⟩
          · rw [transmission, same, whole]
            rfl
          · rw [same]
            exact transmittable
          · rw [same]
            exact output
      | receives own pending checked within =>
          rw [fresh] at pending
          cases pending
      | finishes own pending finished =>
          rw [fresh] at pending
          cases pending

/-- Contents that share no digest but that of equal bytes are determined by their entries, by
induction on them.
-/
theorem contents_unique {libs : Libraries}
    {contents contents' : List (FinalManifestEntry × List UInt8)}
    {deliveries deliveries' : List VerifiedDelivery}
    (injective : ∀ content ∈ contents, ∀ content' ∈ contents',
      libs.sha256 content.2 = libs.sha256 content'.2 → content.2 = content'.2)
    (described : List.Forall₂ (Describes libs) contents deliveries)
    (described' : List.Forall₂ (Describes libs) contents' deliveries')
    (manifest : contents.map (·.1) = contents'.map (·.1))
    : contents = contents' := by
  induction described generalizing contents' deliveries' with
  | nil =>
      cases described' with
      | nil => rfl
      | cons first others => cases manifest
  | cons first others ih =>
      cases described' with
      | nil => cases manifest
      | cons first' others' =>
          injection manifest with entry entries
          have digests := (congrArg FinalManifestEntry.sha256 entry).trans first'.sha256
          have bytes := injective _ List.mem_cons_self _ List.mem_cons_self
            (first.sha256.symm.trans digests)
          have rest := ih (fun content mem content' mem' => injective content
            (List.mem_cons_of_mem _ mem) content' (List.mem_cons_of_mem _ mem')) others' entries
          rw [rest, Prod.ext entry bytes]

end Codrik.Interfaces

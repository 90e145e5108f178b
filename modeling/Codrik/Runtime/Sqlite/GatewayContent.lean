import Codrik.Runtime.Sqlite.GatewayTurns

/-! The projection of an outbox entry to its gateway carries the content of the entry, and
happens once.
-/

namespace Codrik.Runtime.Sqlite

open Codrik.Relational

-----------------------------------------------------------------------------------------
-- Content
-----------------------------------------------------------------------------------------

/-- Chunks of at most `limit` characters that make up a text. -/
structure Chunks (limit : Nat) (text : String) (chunks : List String) : Prop where
  whole : String.join chunks = text
  bounds : ∀ chunk ∈ chunks, 1 ≤ chunk.length ∧ chunk.length ≤ limit

/-- Payloads that carry the content of an outbox payload in the limits of a route. -/
inductive CarriesContent (route : DeliveryRoute) : OutboxPayload → List OutboxPayload → Prop
  | text {text : String} {chunks : List String} (content : Chunks route.maxTextChars text chunks)
    : CarriesContent route (.text text) (chunks.map .text)
  | terminalError {code message : String} {chunks : List String}
      (content : Chunks route.maxTextChars message chunks)
    : CarriesContent route (.terminalError code message) (chunks.map .text)
  | file {artifact : ManagedArtifact}
      (short : ∀ caption, artifact.caption = some caption →
        caption.length ≤ route.maxCaptionChars)
    : CarriesContent route (.file artifact) [.file artifact]
  | captioned {artifact : ManagedArtifact} {caption : String} {chunks : List String}
      (long : artifact.caption = some caption ∧ route.maxCaptionChars < caption.length)
      (content : Chunks route.maxTextChars caption chunks)
    : CarriesContent route (.file artifact)
        (chunks.map .text ++ [.file { artifact with caption := none }])

theorem chunks_splitUnicode (text : String) (route : DeliveryRoute)
    : Chunks route.maxTextChars text (splitUnicode text route.maxTextChars) :=
  ⟨(splitUnicode_chunks text route.textLimit).1, (splitUnicode_chunks text route.textLimit).2⟩

/-- The payloads of an entry carry its content, by cases on the payload. -/
theorem carries_gatewayPayloads (payload : OutboxPayload) (route : DeliveryRoute)
    : CarriesContent route payload (gatewayPayloads payload route) := by
  cases payload with
  | text text => exact .text (chunks_splitUnicode text route)
  | terminalError code message => exact .terminalError (chunks_splitUnicode message route)
  | file artifact =>
      rw [gatewayPayloads]
      cases known : artifact.caption with
      | none =>
          refine .file (fun caption some => ?_)
          rw [known] at some
          cases some
      | some caption =>
          dsimp only
          split
          · exact .captioned ⟨known, ‹_›⟩ (chunks_splitUnicode caption route)
          · refine .file (fun caption' some => ?_)
            rw [known] at some
            cases some
            exact Nat.le_of_not_lt ‹_›

-----------------------------------------------------------------------------------------
-- Rows
-----------------------------------------------------------------------------------------

variable {entry : OutboxRow} {route : DeliveryRoute} {ids : Nat → GatewayDeliveryId}
  {now : Timestamp} {q : GatewayQueue}

theorem chunkRows_payloads (ordinal : Nat) (payloads : List OutboxPayload)
    : (chunkRows entry route ids now ordinal payloads).map (·.payloadJson) = payloads := by
  induction payloads generalizing ordinal with
  | nil => rfl
  | cons payload payloads ih =>
      rw [chunkRows, List.map_cons, ih]
      rfl

/-- The ordinals of the chunks count up, by induction on the payloads. -/
theorem chunkRows_ordinals (ordinal : Nat) (payloads : List OutboxPayload)
    : (chunkRows entry route ids now ordinal payloads).map (·.ordinal)
      = List.range' ordinal payloads.length := by
  induction payloads generalizing ordinal with
  | nil => rfl
  | cons payload payloads ih =>
      rw [chunkRows, List.map_cons, ih, List.length_cons, List.range'_succ]
      rfl

/-- No delivery stands for a chunk from `ordinal` on, and the ids drawn for them are new. -/
structure Unprojected (entry : OutboxRow) (ids : Nat → GatewayDeliveryId) (q : GatewayQueue)
    (ordinal : Nat) : Prop where
  keys : ∀ d ∈ q.deliveries, ∀ n, ordinal ≤ n → d.intentKey ≠ .chunk entry.intentKey n
  sources : ∀ d ∈ q.deliveries, d.sourceOutboxId = some entry.id → d.ordinal < ordinal
  fresh : ∀ d ∈ q.deliveries, ∀ n, ordinal ≤ n → d.id ≠ ids n

/-- The insertion of chunks that do not exist adds a delivery for each, by induction on the
payloads.
-/
theorem insertDeliveries_chunks (stored : entry ∈ q.outbox)
    (distinct : ∀ m n, ids m = ids n → m = n) {ordinal : Nat} (payloads : List OutboxPayload)
    (new : Unprojected entry ids q ordinal)
    : ∃ q', q.insertDeliveries (chunkRows entry route ids now ordinal payloads) = .ok q'
      ∧ q'.outbox = q.outbox
      ∧ ∀ d, d ∈ q'.deliveries ↔
        d ∈ q.deliveries ∨ d ∈ chunkRows entry route ids now ordinal payloads := by
  induction payloads generalizing q ordinal with
  | nil => exact ⟨q, rfl, rfl, fun d => ⟨Or.inl, fun mem => mem.resolve_right List.not_mem_nil⟩⟩
  | cons payload payloads ih =>
      let row := newDelivery (ids ordinal) (chunkDelivery entry route ordinal payload) now
      obtain ⟨deliveries, appended⟩ := Table.insert?_eq_some (t := q.deliveries) (r := row) (by
        rintro d mem (same | same | ⟨-, source, -, -, place⟩)
        · exact new.fresh d mem ordinal (Nat.le_refl _) same
        · exact new.keys d mem ordinal (Nat.le_refl _) same
        · exact absurd place (Nat.ne_of_lt (new.sources d mem source)))
      have inserted : q.insertDelivery row = .ok { q with deliveries := deliveries } := by
        rw [GatewayQueue.insertDelivery, if_neg (fun ⟨d, mem, same⟩ =>
          new.keys d mem ordinal (Nat.le_refl _) same)]
        refine bind_eq_ok.mpr ⟨(), require_eq_ok.mpr ?_, bind_eq_ok.mpr
          ⟨deliveries, execute_eq_ok.mpr appended, rfl⟩⟩
        intro outboxId source
        exact ⟨entry, stored, Option.some.inj source⟩
      have next : Unprojected entry ids { q with deliveries := deliveries } (ordinal + 1) := by
        refine ⟨fun d mem n later => ?_, fun d mem source => ?_, fun d mem n later => ?_⟩
        · rcases (Table.mem_insert? appended).mp mem with old | rfl
          · exact new.keys d old n (Nat.le_of_succ_le later)
          · intro same
            cases same
            exact absurd later (Nat.not_succ_le_self ordinal)
        · rcases (Table.mem_insert? appended).mp mem with old | rfl
          · exact Nat.lt_succ_of_lt (new.sources d old source)
          · exact Nat.lt_succ_self ordinal
        · rcases (Table.mem_insert? appended).mp mem with old | rfl
          · exact new.fresh d old n (Nat.le_of_succ_le later)
          · exact fun same => absurd later (distinct _ _ same ▸ Nat.not_succ_le_self ordinal)
      obtain ⟨q', rest, outbox, rows⟩ := ih (q := { q with deliveries := deliveries }) stored next
      refine ⟨q', bind_eq_ok.mpr ⟨_, inserted, rest⟩, outbox, fun d => ?_⟩
      rw [rows, Table.mem_insert? appended, chunkRows, List.mem_cons, or_assoc]

/-- Chunks that all exist are not inserted again, by induction on the payloads. -/
theorem insertDeliveries_again {rows : List QueuedDelivery}
    (known : ∀ row ∈ rows, ∃ d ∈ q.deliveries, d.intentKey = row.intentKey)
    : q.insertDeliveries rows = .ok q := by
  induction rows with
  | nil => rfl
  | cons row rows ih =>
      have kept : q.insertDelivery row = .ok q := by
        rw [GatewayQueue.insertDelivery, if_pos (known row List.mem_cons_self)]
      exact bind_eq_ok.mpr ⟨q, kept, ih (fun other mem => known other (List.mem_cons_of_mem _ mem))⟩

/-- The key of a chunk is that of its entry and ordinal. -/
theorem mem_chunkRows_fields {ordinal : Nat} {payloads : List OutboxPayload} {d : QueuedDelivery}
    (mem : d ∈ chunkRows entry route ids now ordinal payloads)
    : d.intentKey = .chunk entry.intentKey d.ordinal ∧ d.sourceOutboxId = some entry.id
      ∧ d.route = route ∧ d.state = .pending ∧ d.attemptCount = 0 := by
  obtain ⟨k, payload, rfl⟩ := mem_chunkRows mem
  exact ⟨rfl, rfl, rfl, rfl, rfl⟩

/-- The keys of the chunks depend on the entry and the number of payloads only. -/
theorem chunkRows_keys (ordinal : Nat) (payloads : List OutboxPayload)
    : (chunkRows entry route ids now ordinal payloads).map (·.intentKey)
      = (List.range' ordinal payloads.length).map (.chunk entry.intentKey) := by
  rw [← @chunkRows_ordinals entry route ids now, List.map_map]
  refine List.map_congr_left (fun d mem => ?_)
  exact (mem_chunkRows_fields mem).1

-----------------------------------------------------------------------------------------
-- The projection
-----------------------------------------------------------------------------------------

/-- The first projection of an outbox entry creates deliveries whose ordinals count up from 0
and whose payloads carry the content of the entry; as long as these deliveries are stored, no
other projection of the entry to the route changes the queue.
-/
theorem gateway_projection_preserves_content (stored : entry ∈ q.outbox)
    (distinct : ∀ m n, ids m = ids n → m = n) (new : Unprojected entry ids q 0)
    : ∃ (q' : GatewayQueue) (rows : List QueuedDelivery),
      projectToGateway entry route ids now q = .ok q' ∧ q'.outbox = q.outbox
      ∧ (∀ d, d ∈ q'.deliveries ↔ d ∈ q.deliveries ∨ d ∈ rows)
      ∧ rows.map (·.ordinal) = List.range rows.length
      ∧ (∀ d ∈ rows, d.intentKey = .chunk entry.intentKey d.ordinal
        ∧ d.sourceOutboxId = some entry.id ∧ d.route = route ∧ d.state = .pending
        ∧ d.attemptCount = 0)
      ∧ CarriesContent route entry.payloadJson (rows.map (·.payloadJson))
      ∧ ∀ (later : GatewayQueue) (ids' : Nat → GatewayDeliveryId) (now' : Timestamp),
        (∀ row ∈ rows, ∃ d ∈ later.deliveries, d.intentKey = row.intentKey) →
        projectToGateway entry route ids' now' later = .ok later := by
  obtain ⟨q', inserted, outbox, members⟩ := @insertDeliveries_chunks entry route ids now q
    stored distinct 0 (gatewayPayloads entry.payloadJson route) new
  refine ⟨q', _, inserted, outbox, members, ?_, fun d mem => mem_chunkRows_fields mem, ?_,
    fun later ids' now' known => insertDeliveries_again (fun row mem => ?_)⟩
  · have same := @chunkRows_ordinals entry route ids now 0
      (gatewayPayloads entry.payloadJson route)
    have counted := congrArg List.length same
    rw [List.length_map, List.length_range'] at counted
    rw [same, List.range_eq_range', counted]
  · rw [chunkRows_payloads]
    exact carries_gatewayPayloads _ _
  · have key : row.intentKey ∈ (chunkRows entry route ids now 0
        (gatewayPayloads entry.payloadJson route)).map (·.intentKey) := by
      rw [chunkRows_keys, ← @chunkRows_keys entry route ids' now']
      exact List.mem_map.mpr ⟨row, mem, rfl⟩
    obtain ⟨first, firstMem, same⟩ := List.mem_map.mp key
    obtain ⟨d, storedLater, keyLater⟩ := known first firstMem
    exact ⟨d, storedLater, keyLater.trans same⟩

/-! A report of five characters for a chat whose messages hold four. -/

namespace Halved

theorem gateway_named : isBlank "telegram" = false := by
  decide

theorem address_named : isBlank "42" = false := by
  decide

theorem limited : 0 < 4 := Nat.zero_lt_succ _

def chat : DeliveryRoute :=
  ⟨"telegram", "42", none, 4, 4, gateway_named, address_named, limited, limited⟩

def report : OutboxRow where
  id := ⟨1⟩
  intentKey := .final ⟨1⟩
  actorId := ⟨"local-owner"⟩
  workItemId := ⟨1⟩
  runId := ⟨1⟩
  intentClass := "interactive_reply"
  audience := .actorPrivate
  payloadJson := .text "hello"

def stocked : GatewayQueue where
  outbox := ⟨[report], List.pairwise_singleton _ _⟩
  deliveries := ∅

theorem gateway_projection_preserves_content_halved
    : ∃ (q' : GatewayQueue) (rows : List QueuedDelivery),
      projectToGateway report chat (⟨·⟩) 5 stocked = .ok q' ∧ q'.outbox = stocked.outbox
      ∧ (∀ d, d ∈ q'.deliveries ↔ d ∈ stocked.deliveries ∨ d ∈ rows)
      ∧ rows.map (·.ordinal) = List.range rows.length
      ∧ (∀ d ∈ rows, d.intentKey = .chunk report.intentKey d.ordinal
        ∧ d.sourceOutboxId = some report.id ∧ d.route = chat ∧ d.state = .pending
        ∧ d.attemptCount = 0)
      ∧ CarriesContent chat report.payloadJson (rows.map (·.payloadJson))
      ∧ ∀ (later : GatewayQueue) (ids' : Nat → GatewayDeliveryId) (now' : Timestamp),
        (∀ row ∈ rows, ∃ d ∈ later.deliveries, d.intentKey = row.intentKey) →
        projectToGateway report chat ids' now' later = .ok later :=
  gateway_projection_preserves_content (List.mem_singleton.mpr rfl)
    (fun m n same => by cases same; rfl)
    ⟨fun d mem => absurd mem List.not_mem_nil, fun d mem => absurd mem List.not_mem_nil,
      fun d mem => absurd mem List.not_mem_nil⟩

end Halved

end Codrik.Runtime.Sqlite

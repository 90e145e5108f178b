import Codrik.Encoding.JsonReading
import Codrik.Runtime.Ipc.Requests
import Codrik.Runtime.Ipc.Sizes

/-! The frames of requests: which requests fit into one, that they are read back however their
bytes are cut, and what a reader takes of any bytes.
-/

namespace Codrik.Runtime.Ipc

open Codrik.Encoding
open Codrik.Runtime.Sqlite
open Codrik.Streaming

-----------------------------------------------------------------------------------------
-- Lengths
-----------------------------------------------------------------------------------------

/-- The length of a frame is read back. -/
theorem fromBeBytes_toBeBytes {n : Nat} (small : n < 2 ^ 32) : fromBeBytes (toBeBytes n) = n := by
  simp only [fromBeBytes, toBeBytes, List.foldl_cons, List.foldl_nil, UInt8.toNat_ofNat']
  omega

/-- Four bytes are the length they spell. -/
theorem toBeBytes_fromBeBytes {header : List UInt8} (four : header.length = 4)
    : toBeBytes (fromBeBytes header) = header := by
  match header, four with
  | [a, b, c, d], _ =>
      have := a.toNat_lt
      have := b.toNat_lt
      have := c.toNat_lt
      have := d.toNat_lt
      simp only [fromBeBytes, toBeBytes, List.foldl_cons, List.foldl_nil, List.cons.injEq, and_true,
        ← UInt8.toNat_inj, UInt8.toNat_ofNat']
      omega

/-- The payload with its length in front. -/
def frame (payload : List UInt8) : List UInt8 := toBeBytes payload.length ++ payload

variable {arrivals : List Arrival}

/-- A frame is read however its bytes are cut, and what follows it is left. -/
theorem readPayload_frame {payload tail : List UInt8} (some' : payload ≠ [])
    (fits : payload.length ≤ maxFrameBytes) (arrive : arrived arrivals = frame payload ++ tail)
    : ∃ rest, readPayload arrivals = ⟨.ok payload, payload.length, rest⟩ ∧ arrived rest = tail := by
  have header : (toBeBytes payload.length).length = 4 := rfl
  have positive : 0 < payload.length := List.length_pos_iff.mpr some'
  have small : payload.length < 2 ^ 32 := Nat.lt_of_le_of_lt fits (by decide)
  rw [frame, List.append_assoc] at arrive
  have enough : 4 ≤ (arrived arrivals).length := by
    rw [arrive, List.length_append, header]
    exact Nat.le_add_right _ _
  obtain ⟨middle, read, after⟩ := readExact_of_le enough
  rw [arrive, List.take_left' header] at read
  rw [arrive, List.drop_left' header] at after
  have enough : payload.length ≤ (arrived middle).length := by
    rw [after, List.length_append]
    exact Nat.le_add_right _ _
  obtain ⟨rest, read', after'⟩ := readExact_of_le enough
  rw [after, List.take_left] at read'
  rw [after, List.drop_left] at after'
  refine ⟨rest, ?_, after'⟩
  have length : validateFrameLength (toBeBytes payload.length) = .ok payload.length := by
    unfold validateFrameLength
    rw [fromBeBytes_toBeBytes small, if_neg (Nat.ne_of_gt positive), if_neg (Nat.not_lt.mpr fits)]
  simp only [readPayload, read, length, read']

/-- Whatever arrives, a reader allocates and takes no more than a frame, and a payload that it hands
out stood in one.
-/
theorem readPayload_bounded (arrivals : List Arrival)
    : (readPayload arrivals).allocated ≤ maxFrameBytes
      ∧ volume arrivals ≤ volume (readPayload arrivals).rest + (4 + maxFrameBytes)
      ∧ ∀ payload, (readPayload arrivals).result = .ok payload →
        payload ≠ [] ∧ payload.length = (readPayload arrivals).allocated
          ∧ arrived arrivals = frame payload ++ arrived (readPayload arrivals).rest := by
  have taken := (volume_readExact 4 arrivals).2
  unfold readPayload
  rcases first : readExact 4 arrivals with ⟨⟨error | _⟩ | header, middle⟩
  · simp only [first] at taken ⊢
    exact ⟨Nat.zero_le _, by omega, by simp [fail]⟩
  · simp only [first] at taken ⊢
    exact ⟨Nat.zero_le _, by omega, by simp [fail]⟩
  · simp only [first] at taken ⊢
    obtain ⟨four, stood⟩ := readExact_eq_ok first
    by_cases empty : fromBeBytes header = 0
    · simp only [validateFrameLength, if_pos empty, fail]
      exact ⟨Nat.zero_le _, by omega, by simp⟩
    · by_cases large : fromBeBytes header > maxFrameBytes
      · simp only [validateFrameLength, if_neg empty, if_pos large, fail]
        exact ⟨Nat.zero_le _, by omega, by simp⟩
      · simp only [validateFrameLength, if_neg empty, if_neg large]
        have within : fromBeBytes header ≤ maxFrameBytes := Nat.le_of_not_lt large
        have taken' := (volume_readExact (fromBeBytes header) middle).2
        rcases second : readExact (fromBeBytes header) middle with ⟨⟨error | _⟩ | payload, rest⟩
        · simp only [second] at taken' ⊢
          exact ⟨within, by omega, by simp [fail]⟩
        · simp only [second] at taken' ⊢
          exact ⟨within, by omega, by simp [fail]⟩
        · simp only [second] at taken' ⊢
          obtain ⟨length, stood'⟩ := readExact_eq_ok second
          refine ⟨within, by omega, ?_⟩
          intro payload' same
          cases same
          refine ⟨?_, length, ?_⟩
          · exact List.ne_nil_of_length_pos (by omega)
          · rw [stood, stood', frame, length, toBeBytes_fromBeBytes four, List.append_assoc]

-----------------------------------------------------------------------------------------
-- UUIDs
-----------------------------------------------------------------------------------------

theorem idxOf_hexDigit {n : Nat} (digit : n < 16)
    : "0123456789abcdef".toList.idxOf (hexDigit n) = n := by
  have all : ∀ k < 16, "0123456789abcdef".toList.idxOf (hexDigit k) = k := by decide
  exact all n digit

/-- Digits are read back, by induction on their number. -/
theorem foldl_hexText (digits n start : Nat)
    : (hexText digits n).foldl (fun n c => n * 16 + "0123456789abcdef".toList.idxOf c) start
      = start * 16 ^ digits + n % 16 ^ digits := by
  induction digits generalizing n with
  | zero => simp [hexText, Nat.mod_one]
  | succ digits ih =>
      have last : hexText (digits + 1) n = hexText digits (n / 16) ++ [hexDigit (n % 16)] := by
        unfold hexText
        rw [List.range_succ, List.map_append, List.map_singleton]
        congr 1
        · refine List.map_congr_left (fun position mem => ?_)
          have before : position < digits := List.mem_range.mp mem
          rw [Nat.div_div_eq_div_mul, ← Nat.pow_succ']
          congr 4
          omega
        · simp
      rw [last, List.foldl_append, ih, List.foldl_cons, List.foldl_nil,
        idxOf_hexDigit (Nat.mod_lt _ (by decide)), Nat.pow_succ', Nat.mod_mul, Nat.mul_left_comm]
      omega

theorem hyphen_notMem_hexText (digits n : Nat) : ∀ c ∈ hexText digits n, c ≠ '-' := by
  intro c mem
  exact (forall_of_all (by decide) : ∀ c ∈ "0123456789abcdef".toList, c ≠ '-') c (hexText_mem mem)

/-- A UUID is read back from its text. -/
theorem readUuid_uuidText {number : Nat} (uuid : number < 2 ^ 128)
    : readUuid (uuidText number) = some number := by
  have plain : ∀ digits n, (hexText digits n).filter (fun c => !decide (c = '-'))
      = hexText digits n := by
    intro digits n
    rw [List.filter_eq_self]
    intro c mem
    rw [decide_eq_false (hyphen_notMem_hexText digits n c mem), Bool.not_false]
  have digits : ((uuidText number).toList.filter (· ≠ '-')).foldl
      (fun n c => n * 16 + "0123456789abcdef".toList.idxOf c) 0 = number := by
    simp only [uuidText, String.toList_ofList, List.filter_append, List.filter_cons, plain,
      decide_not, decide_true, Bool.not_true, Bool.false_eq_true, if_false, List.foldl_append,
      foldl_hexText]
    omega
  rw [readUuid, digits, if_pos rfl]

-----------------------------------------------------------------------------------------
-- Decoding
-----------------------------------------------------------------------------------------

/-- The UUIDs of a request. -/
def ClientRequestBody.uuids : ClientRequestBody → List Nat
  | .submit requestId _ | .resume requestId | .issueLinkCode requestId _
  | .actorAdmin requestId _ => [requestId.number]
  | .ackFinal requestId bundleId deliveryIds =>
      requestId.number :: bundleId.number :: deliveryIds.map (·.number)
  | .cancel requestId cancelId => [requestId.number, cancelId.number]

/-- Its UUIDs are numbers of 128 bits. -/
def ClientRequestBody.Identified (body : ClientRequestBody) : Prop :=
  ∀ number ∈ body.uuids, number < 2 ^ 128

instance (body : ClientRequestBody) : Decidable body.Identified :=
  inferInstanceAs (Decidable (∀ number ∈ body.uuids, number < 2 ^ 128))

theorem asId_idJson {kind : IdKind} {id : Id kind} (uuid : id.number < 2 ^ 128)
    : asId kind (idJson id) = some id := by
  simp only [asId, idJson, asText, Option.bind_eq_bind, Option.bind_some, readUuid_uuidText uuid]

/-- A list of ids is read back, by induction on the list. -/
theorem mapM_asId {kind : IdKind} {ids : List (Id kind)} (uuids : ∀ id ∈ ids, id.number < 2 ^ 128)
    : (ids.map idJson).mapM (asId kind) = some ids := by
  induction ids with
  | nil => rfl
  | cons id rest ih =>
      rw [List.map_cons, List.mapM_cons, asId_idJson (uuids id List.mem_cons_self),
        ih (fun other mem => uuids other (List.mem_cons_of_mem _ mem))]
      rfl

theorem ActorAdminCommand.ofJson_toJson (command : ActorAdminCommand)
    : ActorAdminCommand.ofJson command.toJson = some command := by
  cases command <;> rfl

/-- A body is read back from its members. -/
theorem ClientRequestBody.ofJson_toJson {body : ClientRequestBody} (identified : body.Identified)
    : ClientRequestBody.ofJson body.toJson = some body := by
  have own : ∀ {requestId : RequestId}, requestId.number ∈ body.uuids →
      asId .request (idJson requestId) = some requestId :=
    fun mem => asId_idJson (identified _ mem)
  cases body with
  | submit requestId text =>
      simp [ofJson, toJson, read, Json.member, asText, onlyMembers, own List.mem_cons_self]
  | resume requestId =>
      simp [ofJson, toJson, read, Json.member, asText, onlyMembers, own List.mem_cons_self]
  | ackFinal requestId bundleId deliveryIds =>
      have bundle : asId .bundle (idJson bundleId) = some bundleId :=
        asId_idJson (identified _ (by simp [uuids]))
      have deliveries : (deliveryIds.map idJson).mapM (asId .delivery) = some deliveryIds :=
        mapM_asId (fun id mem => identified _ (List.mem_cons_of_mem _
          (List.mem_cons_of_mem _ (List.mem_map_of_mem mem))))
      simp [ofJson, toJson, read, Json.member, asText, asItems, onlyMembers,
        own List.mem_cons_self, bundle, deliveries]
  | cancel requestId cancelId =>
      have cancel : asId .cancel (idJson cancelId) = some cancelId :=
        asId_idJson (identified _ (by simp [uuids]))
      simp [ofJson, toJson, read, Json.member, asText, onlyMembers, own List.mem_cons_self, cancel]
  | issueLinkCode requestId actorId =>
      cases actorId <;>
        simp [ofJson, toJson, read, Json.member, asText, onlyMembers, own List.mem_cons_self]
  | actorAdmin requestId command =>
      simp [ofJson, toJson, read, Json.member, asText, onlyMembers, own List.mem_cons_self,
        command.ofJson_toJson]

theorem ClientRequest.ofJson_toJson {body : ClientRequestBody} (identified : body.Identified)
    : ClientRequest.ofJson (ClientRequest.new body).toJson = some (ClientRequest.new body) := by
  have inner := ClientRequestBody.ofJson_toJson identified
  simp [ofJson, toJson, ClientRequest.new, protocolVersion, onlyMembers, Json.member, read, inner]

section Decoding

variable {serde : Serde} {body : ClientRequestBody}

theorem parseWireUuids_ids (faithful : serde.Faithful) {kind : IdKind} (field : String)
    {ids : List (Id kind)} (uuids : ∀ id ∈ ids, id.number < 2 ^ 128)
    : parseWireUuids serde field (ids.map idJson) = .ok () := by
  induction ids with
  | nil => rfl
  | cons id rest ih =>
      have first := faithful.parseUuid id.number (uuids id List.mem_cons_self)
      have others := ih (fun other mem => uuids other (List.mem_cons_of_mem _ mem))
      simp only [List.map_cons, idJson, parseWireUuids, parseWireUuid, first] at others ⊢
      exact others

theorem validateItems_ids {kind : IdKind} (ids : List (Id kind))
    : validateItems serde (ids.map idJson) = .ok () := by
  induction ids with
  | nil => rfl
  | cons id rest ih =>
      simp only [List.map_cons, idJson, validateItems, validateWireUuids] at ih ⊢
      exact ih

/-- The UUIDs of a request are valid. -/
theorem validateWireUuids_toJson (faithful : serde.Faithful) (identified : body.Identified)
    : validateWireUuids serde (ClientRequest.new body).toJson = .ok () := by
  have uuid : ∀ name, ∀ number ∈ body.uuids,
      parseWireUuid serde name (uuidText number) = .ok () := by
    intro name number mem
    rw [parseWireUuid, faithful.parseUuid number (identified number mem)]
  have passed : ∀ next : Unit → Except ProtocolFailure Unit, (.ok () >>= next) = next () :=
    fun _ => rfl
  cases body with
  | submit requestId text =>
      have own := uuid "request_id" _ List.mem_cons_self
      simp [ClientRequest.toJson, ClientRequestBody.toJson, ClientRequest.new, validateWireUuids,
        validateMembers, validateMember, own, passed, idJson, uuidFields]
  | resume requestId =>
      have own := uuid "request_id" _ List.mem_cons_self
      simp [ClientRequest.toJson, ClientRequestBody.toJson, ClientRequest.new, validateWireUuids,
        validateMembers, validateMember, own, passed, idJson, uuidFields]
  | ackFinal requestId bundleId deliveryIds =>
      have own := uuid "request_id" _ List.mem_cons_self
      have bundle := uuid "bundle_id" _ (List.mem_cons_of_mem _ List.mem_cons_self)
      have all : parseWireUuids serde "delivery_ids" (deliveryIds.map idJson) = .ok () :=
        parseWireUuids_ids faithful _ (fun id mem => identified _ (List.mem_cons_of_mem _
          (List.mem_cons_of_mem _ (List.mem_map_of_mem mem))))
      have within : validateItems serde (deliveryIds.map idJson) = .ok () :=
        validateItems_ids deliveryIds
      simp [ClientRequest.toJson, ClientRequestBody.toJson, ClientRequest.new, validateWireUuids,
        validateMembers, validateMember, own, bundle, passed, all, within, idJson, uuidFields]
  | cancel requestId cancelId =>
      have own := uuid "request_id" _ List.mem_cons_self
      have cancel := uuid "cancel_id" _ (List.mem_cons_of_mem _ List.mem_cons_self)
      simp [ClientRequest.toJson, ClientRequestBody.toJson, ClientRequest.new, validateWireUuids,
        validateMembers, validateMember, own, cancel, passed, idJson, uuidFields]
  | issueLinkCode requestId actorId =>
      have own := uuid "request_id" _ List.mem_cons_self
      cases actorId <;>
        simp [ClientRequest.toJson, ClientRequestBody.toJson, ClientRequest.new, validateWireUuids,
          validateMembers, validateMember, own, passed, idJson, uuidFields]
  | actorAdmin requestId command =>
      have own := uuid "request_id" _ List.mem_cons_self
      cases command <;>
        simp [ClientRequest.toJson, ClientRequestBody.toJson, ClientRequest.new, validateWireUuids,
          validateMembers, validateMember, own, passed, idJson, uuidFields,
          ActorAdminCommand.toJson]

/-- A printed request is decoded to itself. -/
theorem decodeEnvelope_toBytes (faithful : serde.Faithful) (identified : body.Identified)
    (valid : validateClientBody body = .ok ())
    : decodeEnvelope serde (ClientRequest.new body).toJson.toBytes
      = .ok (ClientRequest.new body) := by
  have text := fromUtf8_utf8 (String.ofList (ClientRequest.new body).toJson.render)
  rw [String.toList_ofList] at text
  have version : ((ClientRequest.new body).toJson.member "version").bind asU64
      = some protocolVersion := rfl
  have envelope := faithful.envelope _ _ (ClientRequest.ofJson_toJson identified)
  have deserialize : ClientRequest.deserialize serde (ClientRequest.new body).toJson
      = .ok (ClientRequest.new body) := by
    rw [ClientRequest.deserialize, envelope]
    change (validateClientBody body >>= fun _ => _) = _
    rw [valid]
    rfl
  simp only [decodeEnvelope, Json.toBytes, text, faithful.fromStr, version, ne_eq, not_true,
    if_false, validateWireUuids_toJson faithful identified, deserialize]
  rfl

end Decoding

-----------------------------------------------------------------------------------------
-- Frames
-----------------------------------------------------------------------------------------

/-- What is written is the frame of a valid request. -/
theorem writeClientRequest_eq_ok {request : ClientRequest} {bytes : List UInt8}
    : writeClientRequest request = .ok bytes
      ↔ request.version = protocolVersion ∧ validateClientBody request.body = .ok ()
        ∧ request.toJson.size ≤ maxFrameBytes ∧ bytes = frame request.toJson.toBytes := by
  have some' : request.toJson.toBytes ≠ [] := by
    simp [Json.toBytes, ClientRequest.toJson, Json.render]
  unfold writeClientRequest ClientRequest.serialize requireV1
  by_cases current : request.version = protocolVersion
  · cases valid : validateClientBody request.body with
    | error _ => simp [current, writeJson, bind, Except.bind, fail]
    | ok _ =>
        simp only [current, writeJson, bind, Except.bind, fail, if_true, if_neg some', Json.size]
        split
        · simp
          omega
        · simp [frame, eq_comm]
          omega
  · simp [current, writeJson, bind, Except.bind, fail]

/-- The texts that a request carries. -/
def ClientRequestBody.texts : ClientRequestBody → List String
  | .submit _ text => [text]
  | .issueLinkCode _ (some actorId) => [actorId.name]
  | .actorAdmin _ (.toolsGrant actorId tool) | .actorAdmin _ (.toolsRevoke actorId tool) =>
      [actorId.name, tool]
  | .actorAdmin _ command => (command.actor.map (·.name)).toList
  | _ => []

/-- The bytes of a payload beside those of its texts. -/
def ClientRequestBody.overhead : ClientRequestBody → Nat
  | .submit _ _ => 98
  | .resume _ => 90
  | .ackFinal _ _ deliveryIds => 162 + 38 * deliveryIds.length + (deliveryIds.length - 1)
  | .cancel _ _ => 141
  | .issueLinkCode _ none => 99
  | .issueLinkCode _ (some _) => 111
  | .actorAdmin _ .list => 123
  | .actorAdmin _ (.showActor _) => 135
  | .actorAdmin _ (.create _) => 137
  | .actorAdmin _ (.enable _) => 137
  | .actorAdmin _ (.disable _) => 138
  | .actorAdmin _ (.delete _ true) => 150
  | .actorAdmin _ (.delete _ false) => 151
  | .actorAdmin _ (.toolsList _) => 141
  | .actorAdmin _ (.toolsGrant _ _) => 150
  | .actorAdmin _ (.toolsRevoke _ _) => 151

/-- The names in the frames of requests. -/
theorem size_requestNames
    : jsonStringBytes "text" = 6 ∧ jsonStringBytes "delivery_ids" = 14
      ∧ jsonStringBytes "cancel_id" = 11 ∧ jsonStringBytes "actor_id" = 10
      ∧ jsonStringBytes "command" = 9 ∧ jsonStringBytes "action" = 8
      ∧ jsonStringBytes "force" = 7 ∧ jsonStringBytes "tool" = 6
      ∧ (Json.bool true).size = 4 ∧ (Json.bool false).size = 5 := by
  decide

theorem size_requestTypes
    : jsonStringBytes "submit" = 8 ∧ jsonStringBytes "resume" = 8
      ∧ jsonStringBytes "ack_final" = 11 ∧ jsonStringBytes "cancel" = 8
      ∧ jsonStringBytes "issue_link_code" = 17 ∧ jsonStringBytes "actor_admin" = 13
      ∧ jsonStringBytes "list" = 6 ∧ jsonStringBytes "show" = 6 ∧ jsonStringBytes "create" = 8
      ∧ jsonStringBytes "enable" = 8 ∧ jsonStringBytes "disable" = 9
      ∧ jsonStringBytes "delete" = 8 ∧ jsonStringBytes "tools_list" = 12
      ∧ jsonStringBytes "tools_grant" = 13 ∧ jsonStringBytes "tools_revoke" = 14 := by
  decide

theorem size_ids {kind : IdKind} (ids : List (Id kind))
    : (Json.arr (ids.map idJson)).size = 2 + 38 * ids.length + (ids.length - 1) := by
  have sum : ((ids.map idJson).map Json.size).sum = 38 * ids.length := by
    induction ids with
    | nil => rfl
    | cons id rest ih =>
        rw [List.map_cons, List.map_cons, List.sum_cons, ih, size_id, jsonUuidBytes,
          List.length_cons]
        omega
  rw [size_arr, jsonArrayBytes, sum, List.length_map, List.length_map]

/-- The bytes of a payload. -/
theorem size_new (body : ClientRequestBody)
    : (ClientRequest.new body).toJson.size
      = body.overhead + (body.texts.map jsonStringBytes).sum := by
  have envelope : (ClientRequest.new body).toJson.size = 21 + body.toJson.size := by
    have version : (Json.num (protocolVersion : Nat)).size = 1 := by decide
    simp only [ClientRequest.toJson, ClientRequest.new, size_obj, jsonObjectBytes, List.map,
      List.sum_cons, List.sum_nil, List.length_cons, List.length_nil, size_names, version]
    omega
  rw [envelope]
  cases body with
  | submit requestId text =>
      simp [ClientRequestBody.toJson, size_obj, jsonObjectBytes, size_str, size_id, size_names,
        size_requestNames, size_requestTypes, jsonUuidBytes, ClientRequestBody.overhead,
        ClientRequestBody.texts]
      omega
  | resume requestId =>
      simp [ClientRequestBody.toJson, size_obj, jsonObjectBytes, size_str, size_id, size_names,
        size_requestTypes, jsonUuidBytes, ClientRequestBody.overhead, ClientRequestBody.texts]
  | ackFinal requestId bundleId deliveryIds =>
      simp [ClientRequestBody.toJson, size_obj, jsonObjectBytes, size_str, size_id, size_ids,
        size_names, size_requestNames, size_requestTypes, jsonUuidBytes,
        ClientRequestBody.overhead, ClientRequestBody.texts]
      omega
  | cancel requestId cancelId =>
      simp [ClientRequestBody.toJson, size_obj, jsonObjectBytes, size_str, size_id, size_names,
        size_requestNames, size_requestTypes, jsonUuidBytes, ClientRequestBody.overhead,
        ClientRequestBody.texts]
  | issueLinkCode requestId actorId =>
      cases actorId <;>
        simp [ClientRequestBody.toJson, size_obj, jsonObjectBytes, size_str, size_id, size_names,
          size_requestNames, size_requestTypes, jsonUuidBytes, ClientRequestBody.overhead,
          ClientRequestBody.texts]
      omega
  | actorAdmin requestId command =>
      have administers : (ClientRequestBody.actorAdmin requestId command).toJson.size
          = 85 + command.toJson.size := by
        simp [ClientRequestBody.toJson, size_obj, jsonObjectBytes, size_str, size_id, size_names,
          size_requestNames, size_requestTypes, jsonUuidBytes]
        omega
      rw [administers]
      cases command with
      | delete actorId force =>
          cases force <;>
            simp [ActorAdminCommand.toJson, size_obj, jsonObjectBytes, size_str,
              size_requestNames, size_requestTypes, ClientRequestBody.overhead,
              ClientRequestBody.texts, ActorAdminCommand.actor] <;>
            omega
      | _ =>
          simp [ActorAdminCommand.toJson, size_obj, jsonObjectBytes, size_str, size_requestNames,
            size_requestTypes, ClientRequestBody.overhead, ClientRequestBody.texts,
            ActorAdminCommand.actor]
          try omega

-----------------------------------------------------------------------------------------
-- Requests over a connection
-----------------------------------------------------------------------------------------

/-- A valid request fits into a frame exactly when its texts, spelled as JSON, leave room for the
rest of it.
-/
theorem request_fits (body : ClientRequestBody)
    : (∃ bytes, writeClientRequest (ClientRequest.new body) = .ok bytes)
      ↔ validateClientBody body = .ok ()
        ∧ body.overhead + (body.texts.map jsonStringBytes).sum ≤ maxFrameBytes := by
  simp only [writeClientRequest_eq_ok, size_new]
  constructor
  · rintro ⟨_, -, valid, fits, -⟩
    exact ⟨valid, fits⟩
  · rintro ⟨valid, fits⟩
    exact ⟨_, rfl, valid, fits, rfl⟩

/-- A frame that was written is read as the request it was written for. -/
theorem readClientRequest_frame {serde : Serde} (faithful : serde.Faithful)
    {request : ClientRequest} (identified : request.body.Identified) {bytes tail : List UInt8}
    (written : writeClientRequest request = .ok bytes) (arrive : arrived arrivals = bytes ++ tail)
    : ∃ rest, readClientRequest serde arrivals = ⟨.ok request, request.toJson.size, rest⟩
      ∧ arrived rest = tail := by
  obtain ⟨current, valid, fits, rfl⟩ := writeClientRequest_eq_ok.mp written
  have some' : request.toJson.toBytes ≠ [] := by
    simp [Json.toBytes, ClientRequest.toJson, Json.render]
  obtain ⟨rest, read, after⟩ := readPayload_frame some' fits arrive
  refine ⟨rest, ?_, after⟩
  have whole : ClientRequest.new request.body = request := by rw [ClientRequest.new, ← current]
  have decoded := decodeEnvelope_toBytes faithful identified valid
  rw [whole] at decoded
  simp only [readClientRequest, read, bind, Except.bind, decoded, Json.size]

/-- Requests that are written one after the other are read as they were written, however their
bytes are cut on the way, and what follows them is left.
-/
theorem readClientRequests_frames {serde : Serde} (faithful : serde.Faithful)
    {requests : List ClientRequest} (identified : ∀ request ∈ requests, request.body.Identified)
    {frames : List (List UInt8)} (written : requests.mapM writeClientRequest = .ok frames)
    {tail : List UInt8} (arrive : arrived arrivals = frames.flatten ++ tail)
    : ∃ rest, readClientRequests serde requests.length arrivals = (requests.map .ok, rest)
      ∧ arrived rest = tail := by
  induction requests generalizing arrivals frames with
  | nil =>
      cases written
      exact ⟨arrivals, rfl, arrive⟩
  | cons request requests ih =>
      rw [List.mapM_cons] at written
      cases first : writeClientRequest request with
      | error failure => simp [first, bind, Except.bind] at written
      | ok bytes =>
          cases others : requests.mapM writeClientRequest with
          | error failure => simp [first, others, bind, Except.bind] at written
          | ok more =>
              obtain rfl : bytes :: more = frames := by
                simpa [first, others, bind, Except.bind, pure, Except.pure] using written
              rw [List.flatten_cons, List.append_assoc] at arrive
              obtain ⟨middle, read, after⟩ := readClientRequest_frame faithful
                (identified request List.mem_cons_self) first arrive
              obtain ⟨rest, reads, left⟩ := ih
                (fun other mem => identified other (List.mem_cons_of_mem _ mem)) others after
              exact ⟨rest, by simp [readClientRequests, read, reads], left⟩

/-- Whatever is decoded is valid. -/
theorem decodeEnvelope_valid {serde : Serde} {payload : List UInt8} {request : ClientRequest}
    (decoded : decodeEnvelope serde payload = .ok request)
    : request.version = protocolVersion ∧ validateClientBody request.body = .ok () := by
  unfold decodeEnvelope at decoded
  cases text : fromUtf8 payload with
  | none => simp [text, fail] at decoded
  | some text' =>
      cases parsed : serde.fromStr text' with
      | error _ => simp [text, parsed, fail] at decoded
      | ok value =>
          simp only [text, parsed] at decoded
          split at decoded
          · simp [fail] at decoded
          · obtain ⟨-, -, decoded⟩ := bind_eq_ok.mp decoded
            cases result : ClientRequest.deserialize serde value with
            | error _ => simp [result, fail] at decoded
            | ok _ =>
                simp only [result, Except.ok.injEq] at decoded
                subst decoded
                simp only [ClientRequest.deserialize, bind_eq_ok] at result
                obtain ⟨envelope, -, ⟨⟩, current, ⟨⟩, valid, same⟩ := result
                cases same
                refine ⟨?_, valid⟩
                by_contra other
                simp [requireV1, other] at current

/-- Whatever arrives, a reader allocates no more than a frame may hold and takes no more than a
frame, and what it hands out is a valid request that stood in one.
-/
theorem readClientRequest_bounded (serde : Serde) (arrivals : List Arrival)
    : let reading := readClientRequest serde arrivals
      reading.allocated ≤ maxFrameBytes
        ∧ volume arrivals ≤ volume reading.rest + (4 + maxFrameBytes)
        ∧ ∀ request, reading.result = .ok request →
          request.version = protocolVersion ∧ validateClientBody request.body = .ok ()
            ∧ ∃ payload, payload ≠ [] ∧ payload.length = reading.allocated
              ∧ arrived arrivals = frame payload ++ arrived reading.rest := by
  obtain ⟨allocated, taken, stood⟩ := readPayload_bounded arrivals
  refine ⟨allocated, taken, ?_⟩
  intro request read
  cases first : (readPayload arrivals).result with
  | error failure => simp [readClientRequest, first, bind, Except.bind] at read
  | ok payload =>
      have decoded : decodeEnvelope serde payload = .ok request := by
        simpa [readClientRequest, first, bind, Except.bind] using read
      obtain ⟨current, valid⟩ := decodeEnvelope_valid decoded
      exact ⟨current, valid, payload, stood payload first⟩

-----------------------------------------------------------------------------------------
-- Requests byte by byte
-----------------------------------------------------------------------------------------

/-! A submission and its cancellation arrive byte by byte. -/

namespace Trickled

/-- The crates, as far as they are used. -/
def crates : Serde where
  utf8Error _ := "invalid utf-8 sequence"
  fromStr text :=
    match Json.read text.toList with
    | some value => .ok value
    | none => .error "expected value"
  parseUuid text := if (readUuid text).isSome then .ok () else .error "invalid length"
  envelope value :=
    match ClientRequest.ofJson value with
    | some request => .ok request
    | none => .error "unknown field"

theorem numeric_ids {kind : IdKind} (ids : List (Id kind))
    : Json.NumericItems (ids.map idJson) := by
  induction ids with
  | nil => trivial
  | cons id rest ih => exact ⟨trivial, ih⟩

theorem numeric_new (body : ClientRequestBody) : (ClientRequest.new body).toJson.Numeric := by
  cases body with
  | ackFinal requestId bundleId deliveryIds =>
      exact ⟨trivial, ⟨trivial, trivial, trivial, numeric_ids deliveryIds, trivial⟩, trivial⟩
  | issueLinkCode requestId actorId =>
      cases actorId <;>
        simp [ClientRequest.new, ClientRequest.toJson, ClientRequestBody.toJson, Json.Numeric,
          Json.NumericMembers, idJson]
  | actorAdmin requestId command =>
      cases command <;>
        simp [ClientRequest.new, ClientRequest.toJson, ClientRequestBody.toJson, Json.Numeric,
          Json.NumericMembers, idJson, ActorAdminCommand.toJson]
  | _ =>
      simp [ClientRequest.new, ClientRequest.toJson, ClientRequestBody.toJson, Json.Numeric,
        Json.NumericMembers, idJson]

theorem crates_faithful : crates.Faithful where
  fromStr body := by
    simp only [crates, String.toList_ofList, Json.read_render (numeric_new body)]
  parseUuid number uuid := by
    simp only [crates, readUuid_uuidText uuid, Option.isSome_some, if_true]
  envelope value request read := by simp only [crates, read]

def submission : ClientRequest := .new (.submit ⟨7⟩ "Hello")

def cancellation : ClientRequest := .new (.cancel ⟨7⟩ ⟨8⟩)

/-- Bytes that arrive one by one. -/
def singly (bytes : List UInt8) : List Arrival := bytes.map (fun byte => .bytes [byte])

theorem arrived_singly (bytes : List UInt8) : arrived (singly bytes) = bytes := by
  induction bytes with
  | nil => rfl
  | cons byte rest ih =>
      change [byte] ++ arrived (singly rest) = byte :: rest
      rw [ih]
      rfl

theorem readClientRequests_singly
    : ∃ rest, readClientRequests crates 2
        (singly (frame submission.toJson.toBytes ++ frame cancellation.toJson.toBytes))
        = ([.ok submission, .ok cancellation], rest) ∧ arrived rest = [] := by
  have fits : ∀ body, body = submission.body ∨ body = cancellation.body →
      writeClientRequest (.new body) = .ok (frame (ClientRequest.new body).toJson.toBytes) := by
    intro body either
    refine writeClientRequest_eq_ok.mpr ⟨rfl, ?_, ?_, rfl⟩
    · rcases either with rfl | rfl <;> rfl
    · rw [size_new]
      rcases either with rfl | rfl <;> decide
  have written : [submission, cancellation].mapM writeClientRequest
      = .ok [frame submission.toJson.toBytes, frame cancellation.toJson.toBytes] := by
    have first : writeClientRequest submission = _ := fits _ (Or.inl rfl)
    have second : writeClientRequest cancellation = _ := fits _ (Or.inr rfl)
    rw [List.mapM_cons, first, List.mapM_cons, second]
    rfl
  refine readClientRequests_frames crates_faithful ?_ written ?_
  · decide
  · rw [arrived_singly, List.append_nil]
    simp

end Trickled

end Codrik.Runtime.Ipc

import Codrik.Runtime.Sqlite.Schema

/-! Projection of an outbox entry to gateway deliveries (`sqlite/gateway_projection.rs`). -/

namespace Codrik.Runtime.Sqlite

open Codrik.Relational

/-- The payloads an outbox payload is delivered as, in order: long texts are split and a
caption above the route's limit travels as text in front of its file.
-/
def gatewayPayloads (payload : OutboxPayload) (route : DeliveryRoute) : List OutboxPayload :=
  match payload with
  | .text text => (splitUnicode text route.maxTextChars).map .text
  | .terminalError _ message => (splitUnicode message route.maxTextChars).map .text
  | .file artifact =>
      match artifact.caption with
      | some caption =>
          if caption.length > route.maxCaptionChars then
            (splitUnicode caption route.maxTextChars).map .text
              ++ [.file { artifact with caption := none }]
          else
            [payload]
      | none => [payload]

/-- The insertions of `project_outbox_to_gateway`, from chunk `ordinal` on. -/
def insertGatewayDeliveries (intentKey : IntentKey) (outboxId : OutboxId)
    (route : DeliveryRoute) (ids : Nat → GatewayDeliveryId)
    : Nat → List OutboxPayload → Table GatewayDeliveryRow
      → Except StoreError (Table GatewayDeliveryRow)
  | _, [], deliveries => .ok deliveries
  | ordinal, payload :: payloads, deliveries => do
      let inserted ← execute (deliveries.insertUnless
        (fun row => row.intentKey = intentKey ∧ row.ordinal = ordinal)
        { id := ids ordinal, intentKey := intentKey, sourceOutboxId := outboxId,
          route := route, ordinal := ordinal, payloadJson := payload, state := .pending })
      insertGatewayDeliveries intentKey outboxId route ids (ordinal + 1) payloads inserted

/-- `project_outbox_to_gateway` -/
def projectOutboxToGateway (intentKey : IntentKey) (outboxId : OutboxId)
    (payload : OutboxPayload) (route : DeliveryRoute) (ids : Nat → GatewayDeliveryId)
    (s : Store)
    : Except StoreError Store := do
  let deliveries ← insertGatewayDeliveries intentKey outboxId route ids 0
    (gatewayPayloads payload route) s.gatewayDeliveries
  .ok { s with gatewayDeliveries := deliveries }

end Codrik.Runtime.Sqlite

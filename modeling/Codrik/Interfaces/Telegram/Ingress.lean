import Codrik.Interfaces.Telegram.Types

/-! What the daemon does with an update of Telegram (`interfaces/telegram/ingress.rs`). -/

namespace Codrik.Interfaces.Telegram

open Codrik.Interaction
open Codrik.Runtime
open Codrik.Runtime.Sqlite
open Codrik.Runtime.Sqlite.IdentityLink (LinkIdentity)

/-- `TELEGRAM_MAX_DOWNLOAD_BYTES` -/
def telegramMaxDownloadBytes : Nat := 20000000

/-- A size that is known to be beyond the limit. -/
def tooLarge (fileSize : Option Nat) : Bool := fileSize.any (· > telegramMaxDownloadBytes)

def cannotReceive : String :=
  "Could not receive this file. Telegram files must be 20 MB or smaller."

def becameUnauthorized : String := "Telegram identity became unauthorized during ingress"

/-- Blank names are refused. Attachments are received where an API and a store for them are given.
-/
structure TelegramIngressService where
  botId : String
  botUsername : String
  attachmentIngress : Bool
  named : isBlank botId = false ∧ isBlank botUsername = false

/-- The update a handler is at work on. -/
def TelegramIngressService.incoming (service : TelegramIngressService) (update : TelegramUpdate)
    (route : DeliveryRoute)
    : Incoming :=
  ⟨s!"telegram:{service.botId}", toString update.updateId, route⟩

/-- The path to download a file from. -/
def RemoteFile.path (remote : RemoteFile) : Option String :=
  if tooLarge remote.fileSize then none
  else remote.filePath.filter (fun path => !isBlank path)

/-- The file that is stored becomes the message. -/
def takeInFile (incoming : Incoming) (identity : LinkIdentity) (caption : Option String)
    (actor : ActorId) (stored : Attachment)
    : Handling :=
  match attachmentWithRoute incoming.gateway incoming.externalId identity incoming.route caption
    stored with
  | .error error => .done (.error (.refused error))
  | .ok event => takeIn (withLatestTelegramRouteTracking event) actor becameUnauthorized

/-- A file is downloaded from where it is, if that is known. -/
def downloadFile (incoming : Incoming) (identity : LinkIdentity) (caption : Option String)
    (displayName : String) (actor : ActorId)
    : Option String → Handling
  | none => incoming.respond cannotReceive
  | some path =>
      .perform (.download actor displayName path) (fun
        | .error _ => incoming.respond cannotReceive
        | .ok stored => takeInFile incoming identity caption actor stored)

/-- The file of an update is fetched before the update is taken in. -/
def receiveFile (incoming : Incoming) (identity : LinkIdentity) (caption : Option String)
    (attachment : TelegramInboundAttachment) (actor : ActorId)
    : Handling :=
  if tooLarge attachment.fileSize then
    incoming.respond cannotReceive
  else
    .perform (.getFile attachment.fileId) (fun
      | .error _ => incoming.respond cannotReceive
      | .ok remote =>
          downloadFile incoming identity caption attachment.displayName actor
            (RemoteFile.path remote))

/-- The handling of an update by what it asks for. -/
def handleInbound (service : TelegramIngressService) (update : TelegramUpdate)
    : TelegramInbound → Handling
  | .unsupported => .done (.ok .unsupported)
  | .attachment caption attachment identity route =>
      (service.incoming update route).welcome identity (fun actor =>
        if service.attachmentIngress then
          receiveFile (service.incoming update route) identity caption attachment actor
        else
          .done (.ok .unsupported))
  | .link code identity route => (service.incoming update route).answerLink identity code
  | .text text identity route =>
      (service.incoming update route).welcome identity (fun actor =>
        takeIn (withLatestTelegramRouteTracking (textWithRoute s!"telegram:{service.botId}"
          (toString update.updateId) identity route text)) actor becameUnauthorized)

/-- `handle` -/
def handle (service : TelegramIngressService) (update : TelegramUpdate) : Handling :=
  match update.classify service.botId service.botUsername with
  | .error error => .done (.error (.refused error))
  | .ok inbound => handleInbound service update inbound

end Codrik.Interfaces.Telegram

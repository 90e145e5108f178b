import Codrik.Interfaces.GatewayIngress

/-! Updates of Telegram, and what they ask for (`interfaces/telegram/types.rs`). -/

namespace Codrik.Interfaces.Telegram

open Codrik.Runtime
open Codrik.Runtime.Sqlite.IdentityLink (LinkIdentity)

-----------------------------------------------------------------------------------------
-- Updates
-----------------------------------------------------------------------------------------

structure TelegramPhotoSize where
  fileId : String
  width : Nat
  height : Nat
  fileSize : Option Nat

structure TelegramFileDescriptor where
  fileId : String
  fileName : Option String
  fileSize : Option Nat

structure TelegramUser where
  id : Int
  isBot : Bool
  username : Option String

structure TelegramChat where
  id : Int
  kind : String

structure TelegramMessage where
  sender : Option TelegramUser
  chat : TelegramChat
  text : Option String
  caption : Option String
  photo : List TelegramPhotoSize
  document : Option TelegramFileDescriptor
  video : Option TelegramFileDescriptor
  animation : Option TelegramFileDescriptor
  audio : Option TelegramFileDescriptor
  voice : Option TelegramFileDescriptor
  videoNote : Option TelegramFileDescriptor
  sticker : Option TelegramFileDescriptor

structure TelegramUpdate where
  updateId : Int
  message : Option TelegramMessage

structure TelegramInboundAttachment where
  fileId : String
  fileSize : Option Nat
  displayName : String

inductive TelegramInbound
  | link (code : Option String) (identity : LinkIdentity) (route : DeliveryRoute)
  | text (text : String) (identity : LinkIdentity) (route : DeliveryRoute)
  | attachment (caption : Option String) (attachment : TelegramInboundAttachment)
      (identity : LinkIdentity) (route : DeliveryRoute)
  | unsupported

-----------------------------------------------------------------------------------------
-- Attachments
-----------------------------------------------------------------------------------------

/-- The size a photo is chosen by; the product of width and height stays within 64 bits. -/
def TelegramPhotoSize.extent (photo : TelegramPhotoSize) : Nat ×ₗ Nat :=
  toLex (photo.fileSize.getD 0, min (photo.width * photo.height) (2 ^ 64 - 1))

/-- `max_by_key`: the last of the largest photos. -/
def largestPhoto (photos : List TelegramPhotoSize) : Option TelegramPhotoSize :=
  photos.foldl (fun best photo =>
    match best with
    | none => some photo
    | some best => if best.extent ≤ photo.extent then some photo else some best) none

/-- The attachment of a file, under its own name or the fallback. -/
def fileAttachment (fallback : String) (file : TelegramFileDescriptor)
    : TelegramInboundAttachment where
  fileId := file.fileId
  fileSize := file.fileSize
  displayName := (file.fileName.filter (fun name => !isBlank name)).getD fallback

def photoAttachment (photo : TelegramPhotoSize) : TelegramInboundAttachment where
  fileId := photo.fileId
  fileSize := photo.fileSize
  displayName := "photo.jpg"

/-- The attachments of a message. -/
def TelegramMessage.attachments (message : TelegramMessage) : List TelegramInboundAttachment :=
  ((largestPhoto message.photo).map photoAttachment).toList
    ++ [(message.document, "document.bin"), (message.video, "video.mp4"),
        (message.animation, "animation.mp4"), (message.audio, "audio.mp3"),
        (message.voice, "voice.ogg"), (message.videoNote, "video-note.mp4"),
        (message.sticker, "sticker.webp")].filterMap
      (fun (file, fallback) => file.map (fileAttachment fallback))

-----------------------------------------------------------------------------------------
-- Classification
-----------------------------------------------------------------------------------------

/-- What a private message of a person asks for. -/
def TelegramMessage.classify (message : TelegramMessage) (botUsername : String)
    (identity : LinkIdentity) (route : DeliveryRoute)
    : TelegramInbound :=
  match message.text.bind trimmed with
  | some text =>
      let command := splitCommand text
      if command.1 = "/link" ∨ command.1 = s!"/link@{botUsername}" then
        .link command.2 identity route
      else if "/link@".toList.isPrefixOf command.1.toList then
        .unsupported
      else
        .text text identity route
  | none =>
      match message.attachments with
      | [attachment] =>
          if isBlank attachment.fileId then .unsupported
          else .attachment (message.caption.bind trimmed) attachment identity route
      | _ => .unsupported

/-- `classify` -/
def TelegramUpdate.classify (update : TelegramUpdate) (botId botUsername : String)
    : Except String TelegramInbound := do
  if isBlank botId ∨ isBlank botUsername then
    .error "Telegram bot identity must not be blank"
  else
    match update.message with
    | none => .ok .unsupported
    | some message =>
        match message.sender with
        | none => .ok .unsupported
        | some sender =>
            if message.chat.kind ≠ "private" ∨ sender.isBot then
              .ok .unsupported
            else do
              let gateway := s!"telegram:{botId}"
              let route ← DeliveryRoute.new gateway (toString message.chat.id) none 4096 1024
              .ok (message.classify botUsername ⟨gateway, toString sender.id, sender.username⟩
                route)

-----------------------------------------------------------------------------------------
-- Who updates come from
-----------------------------------------------------------------------------------------

/-- Digits are no spaces. -/
theorem isWhitespace_digit {c : Char} (digit : c.isDigit = true) : isWhitespace c = false := by
  have range : 48 ≤ c.toNat ∧ c.toNat ≤ 57 := by
    simpa [Char.isDigit, UInt32.le_iff_toNat_le] using digit
  rw [isWhitespace, decide_eq_false_iff_not]
  simp only [List.mem_cons, List.not_mem_nil, or_false]
  omega

theorem isBlank_repr (n : Nat) : ∃ c ∈ n.repr.toList, isWhitespace c = false := by
  rw [Nat.toList_repr]
  obtain ⟨c, rest, digits⟩ := List.exists_cons_of_ne_nil (Nat.toDigits_ne_nil (n := n) (b := 10))
  have mem : c ∈ Nat.toDigits 10 n := digits ▸ List.mem_cons_self
  have digit := Nat.isDigit_of_mem_toDigits (by decide) (by decide) mem
  exact ⟨c, mem, isWhitespace_digit digit⟩

theorem isBlank_toString (n : Int) : isBlank (toString n) = false := by
  rw [Int.toString_eq_repr, Int.repr_eq_if]
  split
  · obtain ⟨c, mem, visible⟩ := isBlank_repr n.toNat
    exact isBlank_eq_false mem visible
  · obtain ⟨c, mem, visible⟩ := isBlank_repr (-n).toNat
    have within : c ∈ ("-" ++ (-n).toNat.repr).toList := by
      rw [String.toList_append]
      exact List.mem_append_right _ mem
    exact isBlank_eq_false within visible

/-- Who an inbound update comes from. -/
def TelegramInbound.identity : TelegramInbound → Option LinkIdentity
  | .link _ identity _ => some identity
  | .text _ identity _ => some identity
  | .attachment _ _ identity _ => some identity
  | .unsupported => none

theorem TelegramMessage.classify_identity {message : TelegramMessage} {botUsername : String}
    {identity : LinkIdentity} {route : DeliveryRoute}
    : ∀ other ∈ (message.classify botUsername identity route).identity, other = identity := by
  intro other mem
  unfold TelegramMessage.classify at mem
  split at mem
  · simp only at mem
    split at mem
    · exact (Option.some.inj mem).symm
    · split at mem
      · cases mem
      · exact (Option.some.inj mem).symm
  · split at mem
    · split at mem
      · cases mem
      · exact (Option.some.inj mem).symm
    · cases mem

theorem telegram_named (botId : String) : isBlank s!"telegram:{botId}" = false := by
  have start : 't' ∈ "telegram:".toList := by decide
  exact isBlank_append start (by decide)

/-- Every update is classified, and whoever it comes from has a name. -/
theorem TelegramUpdate.classify_total (update : TelegramUpdate) {botId botUsername : String}
    (named : isBlank botId = false ∧ isBlank botUsername = false)
    : ∃ inbound, update.classify botId botUsername = .ok inbound
      ∧ ∀ identity ∈ inbound.identity, identity.Named := by
  have unnamed : ¬(isBlank botId = true ∨ isBlank botUsername = true) := by
    rw [named.1, named.2]
    decide
  rw [TelegramUpdate.classify, if_neg unnamed]
  split
  · exact ⟨.unsupported, rfl, fun _ mem => by cases mem⟩
  · rename_i message _
    split
    · exact ⟨.unsupported, rfl, fun _ mem => by cases mem⟩
    · rename_i sender _
      split
      · exact ⟨.unsupported, rfl, fun _ mem => by cases mem⟩
      · have routed := DeliveryRoute.new_self ⟨s!"telegram:{botId}", toString message.chat.id,
          none, 4096, 1024, telegram_named botId, isBlank_toString _, by decide, by decide⟩
        simp only at routed
        simp only [routed]
        refine ⟨_, rfl, fun identity mem => ?_⟩
        rw [TelegramMessage.classify_identity identity mem]
        exact ⟨telegram_named botId, isBlank_toString _⟩

end Codrik.Interfaces.Telegram

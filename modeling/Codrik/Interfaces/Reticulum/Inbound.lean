import Codrik.Interfaces.Reticulum.Framing

/-! What the bridge script makes of a message that a peer sends, and what the daemon reads of it
(`interfaces/reticulum/bridge.py`, `interfaces/reticulum/protocol.rs`).
-/

namespace Codrik.Interfaces.Reticulum

open Codrik.Encoding
open Codrik.Runtime

-----------------------------------------------------------------------------------------
-- Values of the script
-----------------------------------------------------------------------------------------

/-- What a peer can encode as a timestamp. `json.dumps` raises on bytes, on extension values and
on dictionaries with keys of such types; all of these are `unserializable`. Other keys it turns
into strings.
-/
inductive PyValue
  | none
  | bool (value : Bool)
  | int (value : Int)
  | float (value : Float64)
  | str (text : String)
  | list (items : List PyValue)
  | dict (members : List (String × PyValue))
  | unserializable

/-- An LXMF message. Content that is no UTF-8 reads as `none`, and a title that is none raises. -/
structure LxmfMessage where
  signatureValidated : Bool
  content : Option String
  title : Option String
  fieldsAreDict : Bool
  hash : List UInt8
  sourceHash : List UInt8
  timestamp : PyValue

section Script

-- `float.__repr__` of a finite number
variable (floatRepr : Rat → String)

/-- A float as `json.dumps` prints it. -/
def floatText : Float64 → String
  | .nan => "NaN"
  | .infinite false => "Infinity"
  | .infinite true => "-Infinity"
  | .finite value => floatRepr value

mutual

/-- What `json.dumps` prints of a value, if it does not raise. -/
def PyValue.toJson : PyValue → Option Json
  | .none => some .null
  | .bool value => some (.bool value)
  | .int value => some (.num value)
  | .float value => some (.decimal (floatText floatRepr value))
  | .str text => some (.str text)
  | .list items => (itemsToJson items).map .arr
  | .dict members => (membersToJson members).map .obj
  | .unserializable => none

def itemsToJson : List PyValue → Option (List Json)
  | [] => some []
  | item :: rest => do
      let item ← item.toJson
      let rest ← itemsToJson rest
      pure (item :: rest)

def membersToJson : List (String × PyValue) → Option (List (String × Json))
  | [] => some []
  | (name, value) :: rest => do
      let value ← value.toJson
      let rest ← membersToJson rest
      pure ((name, value) :: rest)

end

/-- `str.strip` also takes the separators U+001C to U+001F. -/
def isPyWhitespace (c : Char) : Bool := isWhitespace c || c.toNat ∈ [0x1C, 0x1D, 0x1E, 0x1F]

/-- `inbound_rejection_reason` -/
def inboundRejectionReason (message : LxmfMessage) (title : String) : Option String :=
  if message.signatureValidated = false then
    some "signature_unverified"
  else
    match message.content with
    | none => some "empty_text"
    | some text =>
        if text.toList.all isPyWhitespace then some "empty_text"
        else if text.utf8ByteSize > maxTextBytes then some "text_too_large"
        else if title ≠ "" then some "title_not_supported"
        else if message.fieldsAreDict = false then some "invalid_fields"
        else if message.hash.length ≠ 32 ∨ message.sourceHash.length ≠ 16 then some "invalid_hash"
        else none

/-- `bytes.hex` -/
def hex (bytes : List UInt8) : String :=
  String.ofList (bytes.flatMap (fun byte =>
    [hexDigit (byte.toNat / 16), hexDigit (byte.toNat % 16)]))

/-- The event for a message. -/
def inboundEvent (message : LxmfMessage) (text : String) (timestamp : Json) : Json :=
  .obj [("type", .str "inbound"), ("message_hash", .str (hex message.hash)),
    ("source", .str (hex message.sourceHash)), ("timestamp", timestamp), ("text", .str text)]

/-- `inbound`: the line that is emitted for a message, without its end. The router drops a message
on which the callback raises.
-/
def inbound (message : LxmfMessage) : Option (List UInt8) := do
  let title ← message.title
  match inboundRejectionReason message title with
  | some _ => none
  | none => do
      let text ← message.content
      let timestamp ← message.timestamp.toJson floatRepr
      let event := inboundEvent message text timestamp
      if event.size + 1 > maxProtocolLineBytes then none else some event.toBytes

end Script

-----------------------------------------------------------------------------------------
-- Lines
-----------------------------------------------------------------------------------------

/-- A text on one line. -/
def OneLine (text : List Char) : Prop := '\n' ∉ text

instance : DecidablePred OneLine := fun text => inferInstanceAs (Decidable ('\n' ∉ text))

theorem OneLine.append {first second : List Char} (a : OneLine first) (b : OneLine second)
    : OneLine (first ++ second) := by
  intro mem
  rcases List.mem_append.mp mem with mem | mem
  · exact a mem
  · exact b mem

theorem OneLine.cons {c : Char} {rest : List Char} (first : c ≠ '\n') (later : OneLine rest)
    : OneLine (c :: rest) := by
  intro mem
  rcases List.mem_cons.mp mem with same | mem
  · exact first same.symm
  · exact later mem

/-- Parts on one line are joined to one line, by induction on the parts. -/
theorem oneLine_intercalate {parts : List (List Char)} (each : ∀ part ∈ parts, OneLine part)
    : OneLine ([','].intercalate parts) := by
  induction parts with
  | nil => exact List.not_mem_nil
  | cons part rest ih =>
      have here := each part List.mem_cons_self
      have later := ih (fun other mem => each other (List.mem_cons_of_mem _ mem))
      cases rest with
      | nil => simpa [List.intercalate] using here
      | cons next more =>
          have split : [','].intercalate (part :: next :: more)
              = part ++ (',' :: [','].intercalate (next :: more)) := by
            simp [List.intercalate, List.intersperse]
          rw [split]
          exact here.append (later.cons (by decide))

theorem hexDigit_ne_newline (n : Nat) : hexDigit n ≠ '\n' := by
  have digits : ∀ c ∈ "0123456789abcdef".toList, c ≠ '\n' := forall_of_all (by decide)
  exact digits _ (hexDigit_mem n)

/-- Escapes leave no line end, by cases on the escape. -/
theorem oneLine_escape (c : Char) : OneLine (Json.escape c) := by
  unfold Json.escape
  split
  · decide
  split
  · decide
  split
  · decide
  split
  · decide
  split
  · decide
  split
  · decide
  split
  · decide
  split
  · have mark : OneLine ['\\', 'u', '0', '0'] := by decide
    refine mark.append ?_
    exact .cons (hexDigit_ne_newline _) (.cons (hexDigit_ne_newline _) List.not_mem_nil)
  · rename_i notLineFeed _ _ _
    refine .cons (fun same => notLineFeed ?_) List.not_mem_nil
    rw [same]
    decide

theorem oneLine_quote (text : String) : OneLine (Json.quote text) := by
  refine .cons (by decide) (OneLine.append ?_ (by decide))
  intro mem
  obtain ⟨c, -, inside⟩ := List.mem_flatMap.mp mem
  exact oneLine_escape c inside

theorem oneLine_numeral (n : Int) : OneLine (Json.numeral n) := by
  have digits : ∀ n, OneLine (Nat.toDigits 10 n) := by
    intro n mem
    have digit := Nat.isDigit_of_mem_toDigits (by decide) (by decide) mem
    revert digit
    decide
  cases n with
  | ofNat n => exact digits n
  | negSucc n => exact .cons (by decide) (digits (n + 1))

/-- An object of values on one line is on one line. -/
theorem oneLine_object {members : List (String × Json)}
    (each : ∀ member ∈ members, OneLine member.2.render)
    : OneLine (Json.obj members).render := by
  refine .cons (by decide) ((oneLine_intercalate ?_).append (by decide))
  intro part mem
  rw [Json.renderMembers_eq] at mem
  obtain ⟨member, here, rfl⟩ := List.mem_map.mp mem
  exact (oneLine_quote member.1).append (.cons (by decide) (each member here))

/-- Numbers are printed on one line. -/
def Plain (floatRepr : Rat → String) : Prop := ∀ value, OneLine (floatRepr value).toList

section Values

variable {floatRepr : Rat → String}

mutual

/-- What is printed of a value is on one line, by recursion on the value. -/
theorem oneLine_toJson (plain : Plain floatRepr) : (value : PyValue) → {json : Json} →
    value.toJson floatRepr = some json → OneLine json.render
  | .none, _, rfl => by decide
  | .bool true, _, rfl => by decide
  | .bool false, _, rfl => by decide
  | .int n, _, rfl => oneLine_numeral n
  | .float value, _, rfl => by
      rw [Json.render]
      unfold floatText
      split
      · decide
      · decide
      · decide
      · exact plain _
  | .str text, _, rfl => oneLine_quote text
  | .list items, json, printed => by
      obtain ⟨values, each, rfl⟩ := Option.map_eq_some_iff.mp printed
      exact .cons (by decide) ((oneLine_intercalate (oneLine_itemsToJson plain items each)).append
        (by decide))
  | .dict members, json, printed => by
      obtain ⟨values, each, rfl⟩ := Option.map_eq_some_iff.mp printed
      exact .cons (by decide) ((oneLine_intercalate (oneLine_membersToJson plain members each)).append
        (by decide))

theorem oneLine_itemsToJson (plain : Plain floatRepr) : (items : List PyValue) → {values : List Json} →
    itemsToJson floatRepr items = some values → ∀ part ∈ Json.renderItems values, OneLine part
  | [], _, rfl => fun _ mem => (List.not_mem_nil mem).elim
  | item :: rest, values, printed => by
      simp only [itemsToJson, Option.bind_eq_bind, Option.bind_eq_some_iff] at printed
      obtain ⟨value, first, others, later, same⟩ := printed
      cases same
      intro part mem
      rw [Json.renderItems] at mem
      rcases List.mem_cons.mp mem with rfl | mem
      · exact oneLine_toJson plain item first
      · exact oneLine_itemsToJson plain rest later part mem

theorem oneLine_membersToJson (plain : Plain floatRepr) :
    (members : List (String × PyValue)) →
    {values : List (String × Json)} → membersToJson floatRepr members = some values →
    ∀ part ∈ Json.renderMembers values, OneLine part
  | [], _, rfl => fun _ mem => (List.not_mem_nil mem).elim
  | (name, value) :: rest, values, printed => by
      simp only [membersToJson, Option.bind_eq_bind, Option.bind_eq_some_iff] at printed
      obtain ⟨json, first, others, later, same⟩ := printed
      cases same
      intro part mem
      rw [Json.renderMembers] at mem
      rcases List.mem_cons.mp mem with rfl | mem
      · exact (oneLine_quote name).append (.cons (by decide) (oneLine_toJson plain value first))
      · exact oneLine_membersToJson plain rest later part mem

end

end Values

-----------------------------------------------------------------------------------------
-- What is emitted
-----------------------------------------------------------------------------------------

section Emission

variable {floatRepr : Rat → String} {message : LxmfMessage} {line : List UInt8}

/-- What a line tells of the message it was emitted for. -/
structure Emitted (message : LxmfMessage) (text : String) (line : List UInt8) : Prop where
  content : message.content = some text
  hash : message.hash.length = 32
  source : message.sourceHash.length = 16
  printed : isBlank text = false
  short : text.utf8ByteSize ≤ maxTextBytes
  oneLine : 10 ∉ line
  within : line.length + 1 ≤ maxProtocolLineBytes

/-- Text that the script does not find empty is not blank. -/
theorem isBlank_of_isPyWhitespace {text : String}
    (printed : text.toList.all isPyWhitespace = false)
    : isBlank text = false := by
  rw [List.all_eq_false] at printed
  obtain ⟨c, mem, visible⟩ := printed
  rw [isBlank, List.all_eq_false]
  refine ⟨c, mem, fun blank => visible ?_⟩
  rw [isPyWhitespace, blank, Bool.true_or]

theorem inbound_emitted (plain : Plain floatRepr)
    (emitted : inbound floatRepr message = some line)
    : ∃ text, Emitted message text line := by
  simp only [inbound, Option.bind_eq_bind, Option.bind_eq_some_iff] at emitted
  obtain ⟨title, -, emitted⟩ := emitted
  split at emitted
  · cases emitted
  · rename_i accepted
    simp only [Option.bind_eq_some_iff] at emitted
    obtain ⟨text, content, timestamp, printed, emitted⟩ := emitted
    split at emitted
    · cases emitted
    · rename_i fits
      cases emitted
      simp only [inboundRejectionReason, content] at accepted
      split at accepted
      · cases accepted
      split at accepted
      · cases accepted
      split at accepted
      · cases accepted
      split at accepted
      · cases accepted
      split at accepted
      · cases accepted
      split at accepted
      · cases accepted
      rename_i visible short _ _ hashes
      refine ⟨text, content, ?_, ?_, ?_, not_lt.mp short, ?_, not_lt.mp fits⟩
      · exact Classical.byContradiction (fun other => hashes (Or.inl other))
      · exact Classical.byContradiction (fun other => hashes (Or.inr other))
      · exact isBlank_of_isPyWhitespace (Bool.eq_false_iff.mpr visible)
      · intro mem
        have ended : '\n' ∈ (inboundEvent message text timestamp).render :=
          ascii_mem_utf8 (n := 10) (by decide) mem
        refine oneLine_object ?_ ended
        intro member here
        simp only [List.mem_cons, List.not_mem_nil, or_false] at here
        rcases here with rfl | rfl | rfl | rfl | rfl
        · exact oneLine_quote _
        · exact oneLine_quote _
        · exact oneLine_quote _
        · exact oneLine_toJson plain _ printed
        · exact oneLine_quote _

/-- The hexadecimal text of bytes is a hash. -/
theorem validateHash_hex {bytes : List UInt8} {n : Nat} (length : bytes.length = n)
    : validateHash (hex bytes) (2 * n) = .ok () := by
  have digits : ∀ c ∈ (hex bytes).toList, c ∈ "0123456789abcdef".toList := by
    intro c mem
    rw [hex, String.toList_ofList] at mem
    obtain ⟨byte, -, here⟩ := List.mem_flatMap.mp mem
    rcases List.mem_cons.mp here with rfl | here
    · exact hexDigit_mem _
    · rw [List.mem_singleton.mp here]
      exact hexDigit_mem _
  have size : (hex bytes).utf8ByteSize = 2 * n := by
    rw [← length_utf8, length_utf8_ascii (fun c mem => ascii_hexDigits c (digits c mem)), hex,
      String.toList_ofList, ← length]
    clear digits length
    induction bytes with
    | nil => rfl
    | cons byte rest ih =>
        rw [List.flatMap_cons, List.length_append, ih, List.length_cons, List.length_cons,
          List.length_cons, List.length_nil]
        omega
  have allDigits : (hex bytes).toList.all isHashDigit = true := by
    rw [List.all_eq_true]
    intro c mem
    rw [isHashDigit, decide_eq_true_eq]
    exact digits c mem
  rw [validateHash, ensure, if_pos ⟨size, allDigits⟩]

-----------------------------------------------------------------------------------------
-- What is read
-----------------------------------------------------------------------------------------

variable {parse : List UInt8 → Except String BridgeEvent}

/-- The timestamps that the daemon takes: finite numbers that are not negative. -/
def PyValue.Plausible : PyValue → Prop
  | .int value => 0 ≤ value
  | .float (.finite value) => 0 ≤ value
  | _ => False

/-- A number in a line is read as a finite double of the same sign. -/
def ReadsNumber (parse : List UInt8 → Except String BridgeEvent) (message : LxmfMessage)
    (text : String) (line : List UInt8) (negative : Prop)
    : Prop :=
  ∃ value : Rat, (value < 0 ↔ negative)
    ∧ parse line = .ok (.inbound (hex message.hash) (hex message.sourceHash) (.finite value) text)

/-- What `serde_json` reads from the line of a message: nothing but a finite number is a double.
-/
def ReadsLine (parse : List UInt8 → Except String BridgeEvent) (message : LxmfMessage)
    (text : String) (line : List UInt8)
    : Prop :=
  match message.timestamp with
  | .int value => ReadsNumber parse message text line (value < 0)
  | .float (.finite value) => ReadsNumber parse message text line (value < 0)
  | _ => ∃ error, parse line = .error error

/-- The event of a message whose number is read passes the checks unless it is negative. -/
theorem decodeEvent_number {text : String} {negative : Prop} (emitted : Emitted message text line)
    (reads : ReadsNumber parse message text line negative)
    : (negative ∧ ∃ error, decodeEvent parse line = .error error)
      ∨ (¬negative ∧ ∃ value : Rat, 0 ≤ value
        ∧ decodeEvent parse line
          = .ok (.inbound (hex message.hash) (hex message.sourceHash) (.finite value) text)) := by
  obtain ⟨value, sign, read⟩ := reads
  have within : line.length ≤ maxProtocolLineBytes := by
    have := emitted.within
    omega
  have hash : validateHash (hex message.hash) lxmfHashHexChars = .ok () :=
    validateHash_hex emitted.hash
  have source : validateHash (hex message.sourceHash) destinationHashHexChars = .ok () :=
    validateHash_hex emitted.source
  have checked : validateText text = .ok () := by
    rw [validateText, ensure, if_pos ⟨emitted.printed, emitted.short⟩]
  have decoded : decodeEvent parse line
      = (BridgeEvent.inbound (hex message.hash) (hex message.sourceHash) (.finite value)
          text).validate >>= fun _ => .ok (.inbound (hex message.hash) (hex message.sourceHash)
            (.finite value) text) := by
    rw [decodeEvent, ensure, if_pos within, read]
    rfl
  rw [decoded, BridgeEvent.validate, hash, source, checked]
  by_cases below : value < 0
  · refine Or.inl ⟨sign.mp below, "Reticulum bridge timestamp is invalid", ?_⟩
    have refused : ¬((Float64.finite value).isFinite = true
        ∧ (Float64.finite value).isNegative = false) := by
      rintro ⟨-, negative⟩
      exact of_decide_eq_false negative below
    rw [ensure, if_neg refused]
    rfl
  · refine Or.inr ⟨fun negative => below (sign.mpr negative), value, Rat.not_lt.mp below, ?_⟩
    have taken : (Float64.finite value).isFinite = true
        ∧ (Float64.finite value).isNegative = false := ⟨rfl, decide_eq_false below⟩
    rw [ensure, if_pos taken]
    rfl

/-- The daemon decodes the line of a message just when its timestamp is plausible. -/
theorem decodeEvent_emitted {text : String} (emitted : Emitted message text line)
    (reads : ReadsLine parse message text line)
    : (¬message.timestamp.Plausible ∧ ∃ error, decodeEvent parse line = .error error)
      ∨ (message.timestamp.Plausible ∧ ∃ value : Rat, 0 ≤ value
        ∧ decodeEvent parse line
          = .ok (.inbound (hex message.hash) (hex message.sourceHash) (.finite value) text)) := by
  have fails : (∃ error, parse line = .error error) →
      ∃ error, decodeEvent parse line = .error error := by
    rintro ⟨error, read⟩
    rw [decodeEvent]
    cases ensure (line.length ≤ maxProtocolLineBytes)
      "Reticulum bridge protocol line is too large" with
    | error early => exact ⟨early, rfl⟩
    | ok _ =>
        rw [read]
        exact ⟨error, rfl⟩
  unfold ReadsLine at reads
  split at reads
  · rename_i value same
    rw [same]
    exact (decodeEvent_number emitted reads).imp (fun ⟨negative, failed⟩ =>
      ⟨not_le.mpr negative, failed⟩) (fun ⟨taken, decoded⟩ => ⟨not_lt.mp taken, decoded⟩)
  · rename_i value same
    rw [same]
    exact (decodeEvent_number emitted reads).imp (fun ⟨negative, failed⟩ =>
      ⟨Rat.not_le.mpr negative, failed⟩)
      (fun ⟨taken, decoded⟩ => ⟨Rat.not_lt.mp taken, decoded⟩)
  · rename_i notInt notFinite
    refine Or.inl ⟨fun likely => ?_, fails reads⟩
    unfold PyValue.Plausible at likely
    split at likely
    · rename_i value same
      exact notInt value same
    · rename_i value same
      exact notFinite value same
    · exact likely

/-- A line is read whole. -/
theorem nextEvent_emitted {text : String} (emitted : Emitted message text line) (patience : Nat)
    (reads : List (List UInt8))
    : nextEvent parse patience ⟨line ++ [10], reads⟩
      = (.completed (decodeEvent parse line), ⟨[], reads⟩) := by
  have whole : takeLine [] (line ++ [10]) = .complete line [] :=
    takeLine_complete emitted.oneLine (by simpa using emitted.within)
  have some : line ++ [10] ≠ [] := by simp
  simp only [nextEvent, readProtocolLine, if_neg some, whole]
  rfl

end Emission

end Codrik.Interfaces.Reticulum

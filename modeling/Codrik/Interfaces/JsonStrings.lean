import Codrik.Interfaces.LocalRenderer

/-! Strings as `serde_json` prints them are visited piece by piece, and the pieces make up the
string.
-/

namespace Codrik.Interfaces

open Codrik.Encoding
open Codrik.Runtime
open Codrik.Runtime.Ipc
open Codrik.Runtime.Sqlite

-----------------------------------------------------------------------------------------
-- Except
-----------------------------------------------------------------------------------------

@[simp] theorem bind_eq_ok {α β : Type} {x : Except Failure α} {f : α → Except Failure β} {b : β}
    : (x >>= f) = .ok b ↔ ∃ a, x = .ok a ∧ f a = .ok b := by
  cases x <;> simp [bind, Except.bind]

theorem ok_bind {α β : Type} (a : α) (f : α → Except Failure β) : (Except.ok a >>= f) = f a := rfl

@[simp] theorem ensure_eq_ok {p : Prop} [Decidable p] {message : String} {u : Unit}
    : ensure p message = .ok u ↔ p := by
  unfold ensure bail
  split <;> simp_all

@[simp] theorem context_eq_ok {α : Type} {message : String} {option : Option α} {value : α}
    : context message option = .ok value ↔ option = some value := by
  cases option <;> simp [context, bail]

@[simp] theorem subtract_eq_ok {a b c : Nat} : subtract a b = .ok c ↔ b ≤ a ∧ a - b = c := by
  unfold subtract
  split <;> simp_all

@[simp] theorem index_eq_ok {α : Type} {items : List α} {position : Nat} {item : α}
    : index items position = .ok item ↔ items[position]? = some item := by
  unfold index
  split <;> simp_all

-----------------------------------------------------------------------------------------
-- Visiting a string
-----------------------------------------------------------------------------------------

section Visiting

variable {σ : Type} {decoded : σ → List UInt8 → Except Failure σ}

/-- The visitor does the same with two pieces as with both at once. -/
def Composes (decoded : σ → List UInt8 → Except Failure σ) : Prop :=
  ∀ state first second, decoded state (first ++ second)
    = decoded state first >>= fun state => decoded state second

/-- The byte is part of no escape and no control character. -/
def PlainByte (byte : UInt8) : Prop := ¬(byte < 0x20 ∨ byte = 34) ∧ byte ≠ 92

theorem visitBytes_plain {bytes : List UInt8} (allPlain : ∀ byte ∈ bytes, PlainByte byte)
    (state : σ) (plain rest : List UInt8)
    : visitBytes decoded state plain (bytes ++ rest)
      = visitBytes decoded state (plain ++ bytes) rest := by
  induction bytes generalizing plain with
  | nil => rw [List.nil_append, List.append_nil]
  | cons byte more ih =>
      obtain ⟨printable, notEscape⟩ := allPlain byte List.mem_cons_self
      rw [List.cons_append, visitBytes, if_neg printable, if_pos notEscape,
        ih (fun other mem => allPlain other (List.mem_cons_of_mem _ mem)), List.append_assoc]
      rfl

theorem visitBytes_simple {escape byte : UInt8} (known : simpleEscape escape = some byte)
    (state : σ) (plain rest : List UInt8)
    : visitBytes decoded state plain (92 :: escape :: rest)
      = decoded state plain >>= fun state => decoded state [byte] >>= fun state =>
        visitBytes decoded state [] rest := by
  rw [visitBytes]
  simp only [known]
  rfl

theorem parseHexEscape_control
    : ∀ n < 0x20, parseHexEscape 48 48 (.ofNat (hexDigit (n / 16)).toNat)
        (.ofNat (hexDigit (n % 16)).toNat) = .ok n := by
  decide

theorem encodeScalar_control : ∀ n < 0x20, encodeScalar n = .ok [UInt8.ofNat n] := by
  decide

theorem visitBytes_control {n : Nat} (control : n < 0x20) (state : σ) (plain rest : List UInt8)
    : visitBytes decoded state plain (92 :: 117 :: 48 :: 48
        :: .ofNat (hexDigit (n / 16)).toNat :: .ofNat (hexDigit (n % 16)).toNat :: rest)
      = decoded state plain >>= fun state => decoded state [UInt8.ofNat n] >>= fun state =>
        visitBytes decoded state [] rest := by
  have notSurrogate : ¬(0xd800 ≤ n ∧ n ≤ 0xdbff) := by omega
  rw [visitBytes]
  simp only [show simpleEscape 117 = none from by decide]
  simp only [parseHexEscape_control n control, ok_bind, notSurrogate, if_false,
    encodeScalar_control n control]
  rfl

/-- A character that is not escaped is made of plain bytes. -/
theorem utf8EncodeChar_plain {c : Char} (printable : 0x20 ≤ c.toNat) (notQuote : c ≠ '"')
    (notEscape : c ≠ '\\')
    : ∀ byte ∈ String.utf8EncodeChar c, PlainByte byte := by
  intro byte mem
  have apart : 0x20 ≤ byte.toNat ∧ byte.toNat ≠ 34 ∧ byte.toNat ≠ 92 := by
    by_cases ascii : c.toNat < 128
    · rw [utf8EncodeChar_ascii ascii, List.mem_singleton] at mem
      have number : byte.toNat = c.toNat := by
        rw [mem, UInt8.toNat_ofNat']
        omega
      have other : ∀ d : Char, c ≠ d → c.toNat ≠ d.toNat :=
        fun d differs same => differs (Char.toNat_inj.mp same)
      rw [number]
      exact ⟨printable, other '"' notQuote, other '\\' notEscape⟩
    · have := utf8EncodeChar_high (not_lt.mp ascii) byte mem
      omega
  obtain ⟨low, quote, escape⟩ := apart
  refine ⟨?_, fun same => escape (same ▸ rfl)⟩
  rintro (small | same)
  · have : byte.toNat < 0x20 := UInt8.lt_iff_toNat_lt.mp small
    omega
  · exact quote (same ▸ rfl)

/-- An escaped character is decoded to its bytes, by cases on how it is escaped. -/
theorem visitBytes_escape (composes : Composes decoded) (c : Char) (state : σ)
    (plain rest : List UInt8) (next : List UInt8)
    (visited : ∀ state plain, visitBytes decoded state plain rest = decoded state (plain ++ next))
    : visitBytes decoded state plain (utf8 (Json.escape c) ++ rest)
      = decoded state (plain ++ (String.utf8EncodeChar c ++ next)) := by
  have pieces : ∀ bytes : List UInt8, (decoded state plain >>= fun state =>
      decoded state bytes >>= fun state => visitBytes decoded state [] rest)
        = decoded state (plain ++ (bytes ++ next)) := by
    intro bytes
    simp only [visited, List.nil_append]
    rw [composes state plain]
    congr
    funext state
    rw [composes state bytes]
  have number : ∀ d : Char, c.toNat = d.toNat → c = d := fun d same => Char.toNat_inj.mp same
  have simple : ∀ (d e : Char) (escape byte : UInt8), c = d →
      utf8 ['\\', e] = [92, escape] → simpleEscape escape = some byte →
      String.utf8EncodeChar d = [byte] →
      visitBytes decoded state plain (utf8 ['\\', e] ++ rest)
        = decoded state (plain ++ (String.utf8EncodeChar c ++ next)) := by
    rintro d e escape byte rfl bytes known encoded
    rw [bytes, encoded, ← pieces]
    exact visitBytes_simple known state plain rest
  unfold Json.escape
  split
  · exact simple '"' '"' 34 34 ‹_› (by decide) (by decide) (by decide)
  split
  · exact simple '\\' '\\' 92 92 ‹_› (by decide) (by decide) (by decide)
  split
  · exact simple (Char.ofNat 8) 'b' 98 8 (number _ ‹_›) (by decide) (by decide) (by decide)
  split
  · exact simple '\t' 't' 116 9 (number _ ‹_›) (by decide) (by decide) (by decide)
  split
  · exact simple '\n' 'n' 110 10 (number _ ‹_›) (by decide) (by decide) (by decide)
  split
  · exact simple (Char.ofNat 12) 'f' 102 12 (number _ ‹_›) (by decide) (by decide) (by decide)
  split
  · exact simple '\r' 'r' 114 13 (number _ ‹_›) (by decide) (by decide) (by decide)
  split
  · rename_i control
    have ascii : ∀ n, (hexDigit n).toNat < 128 := fun n =>
      ascii_hexDigits _ (hexDigit_mem n)
    have bytes : utf8 ['\\', 'u', '0', '0', hexDigit (c.toNat / 16), hexDigit (c.toNat % 16)]
        = [92, 117, 48, 48, .ofNat (hexDigit (c.toNat / 16)).toNat,
          .ofNat (hexDigit (c.toNat % 16)).toNat] := by
      simp only [utf8_cons, utf8_nil, utf8EncodeChar_ascii (ascii _)]
      rfl
    rw [bytes, utf8EncodeChar_ascii (by omega), ← pieces]
    exact visitBytes_control control state plain rest
  · rename_i notQuote notEscape _ _ _ _ _ printable
    rw [utf8_cons, utf8_nil, List.append_nil,
      visitBytes_plain (utf8EncodeChar_plain (not_lt.mp printable) notQuote notEscape), visited,
      List.append_assoc]

/-- An escaped text is decoded to its bytes, by induction on the text. -/
theorem visitBytes_escaped (composes : Composes decoded) (text : List Char) (state : σ)
    (plain : List UInt8)
    : visitBytes decoded state plain (utf8 (text.flatMap Json.escape))
      = decoded state (plain ++ utf8 text) := by
  induction text generalizing state plain with
  | nil =>
      rw [List.flatMap_nil, utf8_nil, List.append_nil]
      rfl
  | cons c rest ih =>
      rw [List.flatMap_cons, utf8_append, utf8_cons]
      exact visitBytes_escape composes c state plain _ _ ih

/-- A quoted string is visited as its bytes. -/
theorem visitJsonString_quoted (composes : Composes decoded) (start : σ) (text : String)
    : visitJsonString decoded start (quoted text) = decoded start (utf8 text.toList) := by
  have shape : quoted text = 34 :: (utf8 (text.toList.flatMap Json.escape) ++ [34]) := by
    have quote : String.utf8EncodeChar '"' = [34] := by decide
    simp only [quoted, Json.quote, utf8_cons, utf8_append, utf8_nil, quote]
    rfl
  have delimited : 2 ≤ (quoted text).length ∧ (quoted text).head? = some 34
      ∧ (quoted text).getLast? = some 34 := by
    rw [shape]
    refine ⟨by simp, rfl, ?_⟩
    rw [← List.cons_append, List.getLast?_concat]
  have inner : (quoted text).tail.dropLast = utf8 (text.toList.flatMap Json.escape) := by
    rw [shape, List.tail_cons, List.dropLast_concat]
  have checked : ensure (2 ≤ (quoted text).length ∧ (quoted text).head? = some 34
      ∧ (quoted text).getLast? = some 34) "final payload field must be a JSON string" = .ok () :=
    ensure_eq_ok.mpr delimited
  rw [visitJsonString, checked, inner]
  exact visitBytes_escaped composes text.toList start []

end Visiting

-----------------------------------------------------------------------------------------
-- Payloads
-----------------------------------------------------------------------------------------

def captionView : Option String → Raw
  | none => utf8 "null".toList
  | some caption => quoted caption

/-- A printed artifact as its raw members. -/
def artifactView (artifact : ManagedArtifact) : ManagedArtifactView where
  id := quoted (uuidText artifact.id.number)
  managedPath := quoted artifact.managedPath
  displayName := quoted artifact.displayName
  mediaType := quoted artifact.mediaType
  size := artifact.size
  sha256 := quoted artifact.sha256
  caption := captionView artifact.caption

/-- A printed payload as its raw members. -/
def objectView : FinalPayload → FinalPayloadObject
  | .text text => ⟨quoted "text", some (quoted text), none, none, none⟩
  | .file artifact => ⟨quoted "file", none, some (artifactView artifact), none, none⟩
  | .terminalError code message =>
      ⟨quoted "terminal_error", none, none, some (quoted code), some (quoted message)⟩

/-- `serde_json` reads back the payload it has printed. -/
structure Libraries.Reads (libs : Libraries) (payload : FinalPayload) : Prop where
  object : libs.payloadObject (payloadJson payload).toBytes = some (objectView payload)
  payload : libs.payload (payloadJson payload).toBytes = some payload

/-- The texts of an artifact that its store accepts. -/
structure ValidArtifact (artifact : ManagedArtifact) : Prop where
  absolute : artifact.managedPath.toList.head? = some '/'
  noNul : Char.ofNat 0 ∉ artifact.managedPath.toList
  displayName : artifact.displayName ≠ ""
  mediaType : artifact.mediaType ≠ ""
  length : artifact.sha256.toList.length = 64
  digits : ∀ c ∈ artifact.sha256.toList, c ∈ "0123456789abcdefABCDEF".toList

/-- A file that is delivered has a valid artifact. -/
def ValidPayload : FinalPayload → Prop
  | .file artifact => ValidArtifact artifact
  | _ => True

theorem validateJsonString_quoted (text : String) : validateJsonString (quoted text) = .ok () :=
  visitJsonString_quoted (fun _ _ _ => rfl) () text

theorem utf8_ne_nil {text : String} (nonempty : text ≠ "") : (utf8 text.toList).length ≠ 0 := by
  cases chars : text.toList with
  | nil => exact absurd (String.toList_eq_nil_iff.mp chars) nonempty
  | cons c rest =>
      have := List.length_pos_of_ne_nil (String.utf8EncodeChar_ne_nil (c := c))
      rw [utf8_cons, List.length_append]
      omega

theorem requireNonemptyJsonString_quoted {text : String} (nonempty : text ≠ "") (field : String)
    : requireNonemptyJsonString (quoted text) field = .ok () := by
  unfold requireNonemptyJsonString
  rw [visitJsonString_quoted (fun count first second => by
    simp only [List.length_append, ok_bind, Nat.add_assoc])]
  rw [ok_bind, ensure_eq_ok, Nat.zero_add]
  exact utf8_ne_nil nonempty

theorem collectSmallJsonString_quoted {text : String} {limit : Nat}
    (small : (utf8 text.toList).length ≤ limit)
    : collectSmallJsonString (quoted text) limit = .ok (utf8 text.toList) := by
  unfold collectSmallJsonString
  rw [visitJsonString_quoted]
  · simp only [ensure, List.length_nil, Nat.zero_add, if_pos small, ok_bind, List.nil_append]
  · intro state first second
    simp only [ensure, List.length_append]
    by_cases within : state.length + first.length ≤ limit
    · simp only [if_pos within, ok_bind, List.length_append, Nat.add_assoc, List.append_assoc]
    · rw [if_neg within, if_neg (by omega)]
      rfl

theorem ascii_uuidText (number : Nat) : Ascii (uuidText number).toList := by
  have dash : Ascii ['-'] := by decide
  rw [uuidText, String.toList_ofList]
  exact (((((ascii_hexText _ _).append (dash.append (ascii_hexText _ _))).append
    (dash.append (ascii_hexText _ _))).append (dash.append (ascii_hexText _ _))).append
      (dash.append (ascii_hexText _ _)))

@[simp] theorem length_uuidText (number : Nat) : (uuidText number).toList.length = 36 := by
  simp [uuidText]

/-- The bytes of a visited path: the first of them, if none is NUL. -/
theorem visitPath_quoted {path : String} (noNul : Char.ofNat 0 ∉ path.toList)
    : visitJsonString (fun (first : Option UInt8) bytes => do
        ensure (0 ∉ bytes) "final artifact path contains NUL"
        .ok (first.or bytes.head?)) none (quoted path) = .ok (utf8 path.toList).head? := by
  rw [visitJsonString_quoted]
  · have absent : (0 : UInt8) ∉ utf8 path.toList :=
      fun mem => noNul (ascii_mem_utf8 (n := 0) (by decide) mem)
    simp only [ensure, if_pos absent, ok_bind, Option.none_or]
  · intro state first second
    simp only [ensure, List.mem_append, not_or]
    by_cases nul : 0 ∈ first
    · rw [if_neg (fun both => both.1 nul), if_neg (not_not.mpr nul)]
      rfl
    · rw [if_pos nul]
      by_cases nul' : 0 ∈ second
      · rw [if_neg (fun both => both.2 nul')]
        simp only [ok_bind, if_neg (not_not.mpr nul')]
        rfl
      · rw [if_pos ⟨nul, nul'⟩]
        simp only [ok_bind, if_pos nul', Option.or_assoc, List.head?_append]

theorem validate_captionView {caption : Option String}
    (present : captionView caption ≠ utf8 "null".toList)
    : validateJsonString (captionView caption) = .ok () := by
  cases caption with
  | none => exact absurd rfl present
  | some caption => exact validateJsonString_quoted caption

/-- A printed artifact that is valid passes. -/
theorem validate_artifactView {libs : Libraries} {artifact : ManagedArtifact}
    (uuids : ∀ number, libs.isUuid (uuidText number) = true) (valid : ValidArtifact artifact)
    : (artifactView artifact).validate libs = .ok () := by
  have idBytes : (utf8 (uuidText artifact.id.number).toList).length ≤ 64 := by
    rw [length_utf8_ascii (ascii_uuidText _), length_uuidText]
    omega
  have ascii : Ascii artifact.sha256.toList := fun c mem =>
    (by decide : Ascii "0123456789abcdefABCDEF".toList) c (valid.digits c mem)
  have shaBytes : (utf8 artifact.sha256.toList).length = 64 := by
    rw [length_utf8_ascii ascii, valid.length]
  have shaDigits : (utf8 artifact.sha256.toList).all isAsciiHexdigit = true := by
    rw [utf8_ascii ascii, List.all_map, List.all_eq_true]
    intro c mem
    have digits : ∀ c ∈ "0123456789abcdefABCDEF".toList,
        isAsciiHexdigit (UInt8.ofNat c.toNat) = true := forall_of_all (by decide)
    exact digits c (valid.digits c mem)
  have first : (utf8 artifact.managedPath.toList).head? = some 47 := by
    cases chars : artifact.managedPath.toList with
    | nil =>
        have absolute := valid.absolute
        rw [chars] at absolute
        cases absolute
    | cons c rest =>
        have absolute := valid.absolute
        rw [chars] at absolute
        cases absolute
        rfl
  simp only [ManagedArtifactView.validate, artifactView, bind_eq_ok, context_eq_ok, ensure_eq_ok]
  refine ⟨_, collectSmallJsonString_quoted idBytes, _, fromUtf8_utf8 _, (), uuids _, _,
    visitPath_quoted valid.noNul, (), first, (),
    requireNonemptyJsonString_quoted valid.displayName _, (),
    requireNonemptyJsonString_quoted valid.mediaType _, _,
    collectSmallJsonString_quoted (le_of_eq shaBytes), (), ⟨shaBytes, shaDigits⟩, ?_⟩
  by_cases present : captionView artifact.caption ≠ utf8 "null".toList
  · exact (if_pos present).trans (validate_captionView present)
  · exact if_neg present

/-- A printed payload is parsed as one of its kind. -/
theorem parsePayload_kind {libs : Libraries} {payload : FinalPayload} (reads : libs.Reads payload)
    {view : FinalPayloadView} (parsed : parsePayload libs (payloadJson payload).toBytes = .ok view)
    : view.kind = payload.kind := by
  have textFile : quoted "file" ≠ quoted "text" := by decide
  have errorText : quoted "terminal_error" ≠ quoted "text" := by decide
  have errorFile : quoted "terminal_error" ≠ quoted "file" := by decide
  unfold parsePayload at parsed
  rw [reads.object] at parsed
  cases payload with
  | text text =>
      simp [objectView, context, ok_bind] at parsed
      rw [← parsed]
      rfl
  | file artifact =>
      simp [objectView, context, ok_bind, textFile] at parsed
      rw [← parsed]
      rfl
  | terminalError code message =>
      simp [objectView, context, ok_bind, errorText, errorFile] at parsed
      rw [← parsed]
      rfl

/-- A printed payload is parsed as what it is. -/
theorem parsePayload_toBytes {libs : Libraries} {payload : FinalPayload}
    (reads : libs.Reads payload) (uuids : ∀ number, libs.isUuid (uuidText number) = true)
    (valid : ValidPayload payload)
    : ∃ view, parsePayload libs (payloadJson payload).toBytes = .ok view
      ∧ view.validate libs = .ok () ∧ view.kind = payload.kind := by
  have textFile : quoted "file" ≠ quoted "text" := by decide
  have errorText : quoted "terminal_error" ≠ quoted "text" := by decide
  have errorFile : quoted "terminal_error" ≠ quoted "file" := by decide
  unfold parsePayload
  rw [reads.object]
  cases payload with
  | text text =>
      refine ⟨.text (quoted text), ?_, validateJsonString_quoted text, rfl⟩
      simp [objectView, context, ok_bind]
  | file artifact =>
      refine ⟨.file (artifactView artifact), ?_, validate_artifactView uuids valid, rfl⟩
      simp [objectView, context, ok_bind, textFile]
  | terminalError code message =>
      refine ⟨.terminalError (quoted code) (quoted message), ?_, ?_, rfl⟩
      · simp [objectView, context, ok_bind, errorText, errorFile]
      · simp only [FinalPayloadView.validate, validateJsonString_quoted, ok_bind]

end Codrik.Interfaces

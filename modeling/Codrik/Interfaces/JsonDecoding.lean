import Codrik.Encoding.JsonSpelling
import Codrik.Interfaces.JsonStrings

/-! The visitor of JSON strings decodes literals as the grammar has it, and nothing else. -/

namespace Codrik.Interfaces

open Codrik.Encoding

-----------------------------------------------------------------------------------------
-- Bytes of escapes
-----------------------------------------------------------------------------------------

/-- The byte of an ASCII character. -/
abbrev byteOf (c : Char) : UInt8 := UInt8.ofNat c.toNat

theorem utf8_ascii_cons {c : Char} (ascii : c.toNat < 128) (rest : List Char)
    : utf8 (c :: rest) = byteOf c :: utf8 rest := by
  rw [utf8_cons, utf8EncodeChar_ascii ascii]
  rfl

/-- A property of ASCII characters that is checked one by one. -/
theorem forall_ascii {p : Char → Prop} (all : ∀ n < 128, p (Char.ofNat n)) {c : Char}
    (ascii : c.toNat < 128)
    : p c := by
  have here := all c.toNat ascii
  rwa [Char.ofNat_toNat] at here

theorem hexValue_byteOf {c : Char} (ascii : c.toNat < 128)
    : (hexValue (byteOf c)).toOption = Json.hexValue? c := by
  apply forall_ascii (p := fun c => (hexValue (byteOf c)).toOption = Json.hexValue? c) _ ascii
  decide

theorem simpleEscape_byteOf {c : Char} (ascii : c.toNat < 128)
    : simpleEscape (byteOf c) = (Json.short? c).map byteOf := by
  apply forall_ascii (p := fun c => simpleEscape (byteOf c) = (Json.short? c).map byteOf) _ ascii
  decide

/-- Bytes that start a text and are ASCII are its first character. -/
theorem utf8_eq_cons {text : List Char} {byte : UInt8} {more : List UInt8}
    (split : utf8 text = byte :: more) (ascii : byte.toNat < 128)
    : ∃ c rest, text = c :: rest ∧ c.toNat < 128 ∧ byte = byteOf c ∧ more = utf8 rest := by
  cases text with
  | nil => cases split
  | cons c rest =>
      by_cases small : c.toNat < 128
      · rw [utf8_ascii_cons small] at split
        cases split
        exact ⟨c, rest, rfl, small, rfl, rfl⟩
      · obtain ⟨first, others, encoded⟩ :=
          List.exists_cons_of_ne_nil (String.utf8EncodeChar_ne_nil (c := c))
        have high := utf8EncodeChar_high (not_lt.mp small) first
          (encoded ▸ List.mem_cons_self)
        rw [utf8_cons, encoded, List.cons_append] at split
        cases split
        omega

theorem byteOf_inj {c d : Char} (asciiC : c.toNat < 128) (asciiD : d.toNat < 128)
    (same : byteOf c = byteOf d)
    : c = d := by
  have numbers := congrArg UInt8.toNat same
  rw [UInt8.toNat_ofNat', UInt8.toNat_ofNat', Nat.mod_eq_of_lt (by omega),
    Nat.mod_eq_of_lt (by omega)] at numbers
  exact Char.toNat_inj.mp numbers

/-- A byte that starts a text and is that of an ASCII character is this character. -/
theorem utf8_eq_byteOf {text : List Char} {c : Char} {more : List UInt8} (ascii : c.toNat < 128)
    (split : utf8 text = byteOf c :: more)
    : ∃ rest, text = c :: rest ∧ more = utf8 rest := by
  have small : (byteOf c).toNat < 128 := by
    rw [UInt8.toNat_ofNat']
    omega
  obtain ⟨d, rest, rfl, asciiD, same, rfl⟩ := utf8_eq_cons split small
  cases byteOf_inj ascii asciiD same
  exact ⟨rest, rfl, rfl⟩

theorem simpleEscape_ascii {escape byte : UInt8} (known : simpleEscape escape = some byte)
    : escape.toNat < 128 := by
  unfold simpleEscape at known
  split at known
  · rcases ‹_ ∨ _ ∨ _› with rfl | rfl | rfl <;> decide
  iterate 5
    split at known
    · rw [‹escape = _›]
      decide
  · cases known

/-- A short escape that is read from a text is one of it. -/
theorem simpleEscape_eq_some {text : List Char} {escape byte : UInt8} {more : List UInt8}
    (split : utf8 text = escape :: more) (known : simpleEscape escape = some byte)
    : ∃ e c rest, text = e :: rest ∧ more = utf8 rest ∧ Json.short? e = some c := by
  obtain ⟨e, rest, rfl, ascii, rfl, rfl⟩ := utf8_eq_cons split (simpleEscape_ascii known)
  rw [simpleEscape_byteOf ascii] at known
  obtain ⟨c, short, -⟩ := Option.map_eq_some_iff.mp known
  exact ⟨e, c, rest, rfl, rfl, short⟩

theorem hexValue_ascii {byte : UInt8} {n : Nat} (known : hexValue byte = .ok n)
    : byte.toNat < 128 := by
  unfold hexValue at known
  split at known
  · have := UInt8.le_iff_toNat_le.mp ‹48 ≤ byte ∧ byte ≤ 57›.2
    exact Nat.lt_of_le_of_lt this (by decide)
  split at known
  · have := UInt8.le_iff_toNat_le.mp ‹97 ≤ byte ∧ byte ≤ 102›.2
    exact Nat.lt_of_le_of_lt this (by decide)
  split at known
  · have := UInt8.le_iff_toNat_le.mp ‹65 ≤ byte ∧ byte ≤ 70›.2
    exact Nat.lt_of_le_of_lt this (by decide)
  · cases known

/-- A digit that is read from a text is a character of it. -/
theorem hexValue_eq_ok {text : List Char} {byte : UInt8} {more : List UInt8} {n : Nat}
    (split : utf8 text = byte :: more) (known : hexValue byte = .ok n)
    : ∃ c rest, text = c :: rest ∧ more = utf8 rest ∧ Json.hexValue? c = some n := by
  obtain ⟨c, rest, rfl, ascii, rfl, rfl⟩ := utf8_eq_cons split (hexValue_ascii known)
  refine ⟨c, rest, rfl, rfl, ?_⟩
  rw [← hexValue_byteOf ascii, known]
  rfl

/-- Four digits that are read from a text are characters of it and spell the same unit. -/
theorem parseHexEscape_eq_ok {text : List Char} {a b c d : UInt8} {more : List UInt8} {n : Nat}
    (split : utf8 text = a :: b :: c :: d :: more) (known : parseHexEscape a b c d = .ok n)
    : ∃ a' b' c' d' rest, text = a' :: b' :: c' :: d' :: rest ∧ more = utf8 rest
      ∧ Json.unit? a' b' c' d' = some n := by
  unfold parseHexEscape at known
  simp only [bind_eq_ok] at known
  obtain ⟨first, readFirst, second, readSecond, third, readThird, fourth, readFourth, sum⟩ := known
  obtain ⟨a', text, rfl, split, knownA⟩ := hexValue_eq_ok split readFirst
  obtain ⟨b', text, rfl, split, knownB⟩ := hexValue_eq_ok split.symm readSecond
  obtain ⟨c', text, rfl, split, knownC⟩ := hexValue_eq_ok split.symm readThird
  obtain ⟨d', text, rfl, split, knownD⟩ := hexValue_eq_ok split.symm readFourth
  refine ⟨a', b', c', d', text, rfl, split, ?_⟩
  cases sum
  simp only [Json.unit?, knownA, knownB, knownC, knownD]
  rfl

theorem hexValue?_lt {c : Char} {n : Nat} (known : Json.hexValue? c = some n)
    : n < 16 ∧ c.toNat < 128 ∧ hexValue (byteOf c) = .ok n := by
  have bounds : n < 16 ∧ c.toNat < 128 := by
    unfold Json.hexValue? at known
    split at known
    · cases known
      omega
    split at known
    · cases known
      omega
    split at known
    · cases known
      omega
    · cases known
  refine ⟨bounds.1, bounds.2, ?_⟩
  have same := hexValue_byteOf bounds.2
  rw [known] at same
  cases read : hexValue (byteOf c) with
  | error => rw [read] at same; cases same
  | ok value => rw [read] at same; cases same; rfl

/-- Four digits are ASCII, spell a unit of 16 bits and are read as it. -/
theorem parseHexEscape_unit {a b c d : Char} {n : Nat} (known : Json.unit? a b c d = some n)
    : (a.toNat < 128 ∧ b.toNat < 128 ∧ c.toNat < 128 ∧ d.toNat < 128) ∧ n < 0x10000
      ∧ parseHexEscape (byteOf a) (byteOf b) (byteOf c) (byteOf d) = .ok n := by
  simp only [Json.unit?, Option.bind_eq_bind, Option.bind_eq_some_iff, Option.some.injEq] at known
  obtain ⟨first, readA, second, readB, third, readC, fourth, readD, rfl⟩ := known
  obtain ⟨smallA, asciiA, okA⟩ := hexValue?_lt readA
  obtain ⟨smallB, asciiB, okB⟩ := hexValue?_lt readB
  obtain ⟨smallC, asciiC, okC⟩ := hexValue?_lt readC
  obtain ⟨smallD, asciiD, okD⟩ := hexValue?_lt readD
  refine ⟨⟨asciiA, asciiB, asciiC, asciiD⟩, by omega, ?_⟩
  simp only [parseHexEscape, okA, okB, okC, okD]
  rfl

-----------------------------------------------------------------------------------------
-- Visiting
-----------------------------------------------------------------------------------------

section Visiting

variable {σ : Type} {decoded : σ → List UInt8 → Except Failure σ}

theorem encodeScalar_char {n : Nat} (valid : n < 0xd800 ∨ 0xdfff < n ∧ n < 0x110000)
    : encodeScalar n = .ok (utf8 [Char.ofNat n]) := by
  rw [encodeScalar, if_pos valid, utf8_cons, utf8_nil, List.append_nil]

theorem visitBytes_unit {a b c d : UInt8} {n : Nat} {out : List UInt8}
    (read : parseHexEscape a b c d = .ok n) (notHigh : ¬Json.HighSurrogate n)
    (encoded : encodeScalar n = .ok out) (state : σ) (plain rest : List UInt8)
    : visitBytes decoded state plain (92 :: 117 :: a :: b :: c :: d :: rest)
      = decoded state plain >>= fun state => decoded state out >>= fun state =>
        visitBytes decoded state [] rest := by
  have notSurrogate : ¬(0xd800 ≤ n ∧ n ≤ 0xdbff) := notHigh
  rw [visitBytes]
  simp only [show simpleEscape 117 = none from by decide]
  simp only [read, ok_bind, notSurrogate, if_false, encoded]
  rfl

theorem visitBytes_pair {a b c d e f g h : UInt8} {high low : Nat} {out : List UInt8}
    (read : parseHexEscape a b c d = .ok high) (isHigh : Json.HighSurrogate high)
    (readLow : parseHexEscape e f g h = .ok low) (isLow : Json.LowSurrogate low)
    (encoded : encodeScalar (0x10000 + (high - 0xd800) * 2 ^ 10 + (low - 0xdc00)) = .ok out)
    (state : σ) (plain rest : List UInt8)
    : visitBytes decoded state plain
        (92 :: 117 :: a :: b :: c :: d :: 92 :: 117 :: e :: f :: g :: h :: rest)
      = decoded state plain >>= fun state => decoded state out >>= fun state =>
        visitBytes decoded state [] rest := by
  have surrogate : 0xd800 ≤ high ∧ high ≤ 0xdbff := isHigh
  have surrogateLow : 0xdc00 ≤ low ∧ low ≤ 0xdfff := isLow
  rw [visitBytes, if_neg (by decide), if_neg (by decide)]
  refine congrArg _ ?_
  funext state
  simp only [show simpleEscape 117 = none from by decide]
  rw [if_neg (by decide), read, ok_bind, if_pos surrogate, readLow, ok_bind, ensure,
    if_pos surrogateLow, ok_bind, encoded, ok_bind]

/-- What an escape that is passed over was, by cases on the visit. -/
theorem visitBytes_escape_cases {state final : σ} {plain bytes : List UInt8}
    (visited : visitBytes decoded state plain (92 :: bytes) = .ok final)
    : (∃ escape byte rest state', bytes = escape :: rest ∧ simpleEscape escape = some byte
        ∧ visitBytes decoded state' [] rest = .ok final)
      ∨ (∃ a b c d rest n out state', bytes = 117 :: a :: b :: c :: d :: rest
        ∧ parseHexEscape a b c d = .ok n ∧ ¬Json.HighSurrogate n ∧ encodeScalar n = .ok out
        ∧ visitBytes decoded state' [] rest = .ok final)
      ∨ ∃ a b c d e f g h rest high low state',
        bytes = 117 :: a :: b :: c :: d :: 92 :: 117 :: e :: f :: g :: h :: rest
        ∧ parseHexEscape a b c d = .ok high ∧ Json.HighSurrogate high
        ∧ parseHexEscape e f g h = .ok low ∧ Json.LowSurrogate low
        ∧ visitBytes decoded state' [] rest = .ok final := by
  rw [visitBytes, if_neg (by decide), if_neg (by decide), bind_eq_ok] at visited
  obtain ⟨state₁, -, visited⟩ := visited
  cases bytes with
  | nil => cases visited
  | cons escape rest =>
      dsimp only at visited
      cases known : simpleEscape escape with
      | some byte =>
          simp only [known, bind_eq_ok] at visited
          obtain ⟨state₂, -, visited⟩ := visited
          exact Or.inl ⟨escape, byte, rest, state₂, rfl, known, visited⟩
      | none =>
          simp only [known] at visited
          split at visited
          · cases visited
          · rename_i unicode
            rw [not_not] at unicode
            subst unicode
            split at visited
            · rename_i a b c d rest
              rw [bind_eq_ok] at visited
              obtain ⟨n, read, visited⟩ := visited
              split at visited
              · rename_i high
                split at visited
                · rename_i e f g h rest
                  simp only [bind_eq_ok, ensure_eq_ok] at visited
                  obtain ⟨low, readLow, _, isLow, out, -, state₂, -, visited⟩ := visited
                  exact Or.inr (Or.inr ⟨a, b, c, d, e, f, g, h, rest, n, low, state₂, rfl, read,
                    high, readLow, isLow, visited⟩)
                · cases visited
                · cases visited
              · rename_i notHigh
                simp only [bind_eq_ok] at visited
                obtain ⟨out, encoded, state₂, -, visited⟩ := visited
                exact Or.inr (Or.inl ⟨a, b, c, d, rest, n, out, state₂, rfl, read, notHigh,
                  encoded, visited⟩)
            · cases visited

/-- A text that the visitor accepts spells a string, by induction on a bound of its length. -/
theorem spells_of_visitBytes (bound : Nat) {text : List Char} (short : text.length ≤ bound)
    {state final : σ} {plain : List UInt8}
    (visited : visitBytes decoded state plain (utf8 text) = .ok final)
    : ∃ string, Json.Spells text string := by
  induction bound generalizing text state plain with
  | zero =>
      rw [List.length_eq_zero_iff.mp (Nat.le_zero.mp short)]
      exact ⟨[], .nil⟩
  | succ bound ih =>
      cases text with
      | nil => exact ⟨[], .nil⟩
      | cons c rest =>
          rw [List.length_cons] at short
          by_cases escape : c = '\\'
          · subst escape
            rw [utf8_ascii_cons (by decide)] at visited
            rcases visitBytes_escape_cases visited with
              ⟨escape, byte, more, state', split, known, visited⟩
              | ⟨a, b, c, d, more, n, out, state', split, read, notHigh, encoded, visited⟩
              | ⟨a, b, c, d, e, f, g, h, more, high, low, state', split, read, isHigh, readLow,
                isLow, visited⟩
            · obtain ⟨e, c, text, rfl, rfl, isShort⟩ := simpleEscape_eq_some split known
              rw [List.length_cons] at short
              obtain ⟨string, spells⟩ := ih (by omega) visited
              exact ⟨c :: string, .short isShort spells⟩
            · obtain ⟨text, rfl, digits⟩ := utf8_eq_byteOf (c := 'u') (by decide) split
              obtain ⟨a', b', c', d', text, rfl, rfl, unit⟩ :=
                parseHexEscape_eq_ok digits.symm read
              simp only [List.length_cons] at short
              obtain ⟨string, spells⟩ := ih (by omega) visited
              have notLow : ¬Json.LowSurrogate n := by
                rintro ⟨lower, upper⟩
                rw [encodeScalar, if_neg (by omega)] at encoded
                cases encoded
              exact ⟨Char.ofNat n :: string, .unit unit notHigh notLow spells⟩
            · obtain ⟨text, rfl, digits⟩ := utf8_eq_byteOf (c := 'u') (by decide) split
              obtain ⟨a', b', c', d', text, rfl, later, unit⟩ :=
                parseHexEscape_eq_ok digits.symm read
              obtain ⟨text, rfl, unicode⟩ := utf8_eq_byteOf (c := '\\') (by decide) later.symm
              obtain ⟨text, rfl, digitsLow⟩ :=
                utf8_eq_byteOf (c := 'u') (by decide) unicode.symm
              obtain ⟨e', f', g', h', text, rfl, rfl, unitLow⟩ :=
                parseHexEscape_eq_ok digitsLow.symm readLow
              simp only [List.length_cons] at short
              obtain ⟨string, spells⟩ := ih (by omega) visited
              exact ⟨Json.paired high low :: string, .pair unit isHigh unitLow isLow spells⟩
          · by_cases printable : c ≠ '"' ∧ 0x20 ≤ c.toNat
            · rw [utf8_cons, visitBytes_plain
                (utf8EncodeChar_plain printable.2 printable.1 escape)] at visited
              obtain ⟨string, spells⟩ := ih (by omega) visited
              exact ⟨c :: string, .plain printable.1 escape printable.2 spells⟩
            · have refused : byteOf c < 0x20 ∨ byteOf c = 34 := by
                by_cases quote : c = '"'
                · subst quote
                  exact Or.inr (by decide)
                · left
                  rw [UInt8.lt_iff_toNat_lt, UInt8.toNat_ofNat']
                  have control : c.toNat < 0x20 :=
                    not_le.mp (fun visible => printable ⟨quote, visible⟩)
                  exact Nat.lt_of_le_of_lt (Nat.mod_le _ _) control
              have ascii : c.toNat < 128 := by
                by_cases quote : c = '"'
                · subst quote
                  decide
                · have control : c.toNat < 0x20 :=
                    not_le.mp (fun visible => printable ⟨quote, visible⟩)
                  omega
              rw [utf8_ascii_cons ascii, visitBytes, if_pos refused] at visited
              cases visited

end Visiting

/-- The visitor of `bytes` after `plain` hands out these pieces, whatever is done with them; each
is made of whole characters, and together they are the string.
-/
structure HandsOut (plain bytes : List UInt8) (string : List Char) (pieces : List (List UInt8))
    : Prop where
  visits : ∀ {σ : Type} (decoded : σ → List UInt8 → Except Failure σ) (state : σ),
    visitBytes decoded state plain bytes = pieces.foldlM decoded state
  whole : pieces.flatten = utf8 string
  chars : ∀ piece ∈ pieces, ∃ chars, piece = utf8 chars

/-- An escape ends the plain bytes before it and is a piece of its own. -/
theorem HandsOut.escape {before string : List Char} {c : Char} {bytes rest : List UInt8}
    {pieces : List (List UInt8)} (hands : HandsOut [] rest string pieces)
    (step : ∀ {σ : Type} (decoded : σ → List UInt8 → Except Failure σ) (state : σ),
      visitBytes decoded state (utf8 before) bytes
        = decoded state (utf8 before) >>= fun state => decoded state (utf8 [c]) >>= fun state =>
          visitBytes decoded state [] rest)
    : HandsOut (utf8 before) bytes (before ++ c :: string)
        (utf8 before :: utf8 [c] :: pieces) where
  visits decoded state := by
    rw [step]
    simp only [List.foldlM_cons, hands.visits]
  whole := by
    rw [List.flatten_cons, List.flatten_cons, hands.whole]
    simp [utf8_append]
  chars piece mem := by
    rcases List.mem_cons.mp mem with rfl | mem
    · exact ⟨before, rfl⟩
    rcases List.mem_cons.mp mem with rfl | mem
    · exact ⟨[c], rfl⟩
    · exact hands.chars piece mem

theorem short?_ascii {escape c : Char} (known : Json.short? escape = some c)
    : escape.toNat < 128 ∧ c.toNat < 128 := by
  unfold Json.short? at known
  split at known
  · cases known
    rcases ‹_ ∨ _ ∨ _› with rfl | rfl | rfl <;> decide
  iterate 5
    split at known
    · cases known
      rw [‹escape = _›]
      decide
  · cases known

/-- The visitor hands out a string that is spelled, by induction on the spelling. -/
theorem handsOut_spells {text string : List Char} (spells : Json.Spells text string)
    (before : List Char)
    : ∃ pieces, HandsOut (utf8 before) (utf8 text) (before ++ string) pieces := by
  induction spells generalizing before with
  | nil =>
      refine ⟨[utf8 before], fun decoded state => ?_, by simp, fun piece mem => ?_⟩
      · rw [utf8_nil, visitBytes, List.foldlM_cons]
        simp
      · exact ⟨before, List.mem_singleton.mp mem⟩
  | @plain c text string notQuote notEscape printable _ ih =>
      obtain ⟨pieces, hands⟩ := ih (before ++ [c])
      refine ⟨pieces, fun decoded state => ?_, ?_, hands.chars⟩
      · rw [utf8_cons, visitBytes_plain (utf8EncodeChar_plain printable notQuote notEscape),
          ← hands.visits, utf8_append, utf8_cons, utf8_nil, List.append_nil]
      · rw [hands.whole, List.append_assoc]
        rfl
  | @short escape c text string known _ ih =>
      obtain ⟨pieces, hands⟩ := ih []
      obtain ⟨ascii, asciiC⟩ := short?_ascii known
      refine ⟨_, hands.escape (c := c) (fun decoded state => ?_)⟩
      have byte : simpleEscape (byteOf escape) = some (byteOf c) := by
        rw [simpleEscape_byteOf ascii, known]
        rfl
      rw [utf8_ascii_cons (by decide), utf8_ascii_cons ascii, utf8_ascii_cons asciiC]
      exact visitBytes_simple byte state _ _
  | @unit a b c d n text string known notHigh notLow _ ih =>
      obtain ⟨pieces, hands⟩ := ih []
      obtain ⟨⟨asciiA, asciiB, asciiC, asciiD⟩, small, read⟩ := parseHexEscape_unit known
      refine ⟨_, hands.escape (c := Char.ofNat n) (fun decoded state => ?_)⟩
      have encoded : encodeScalar n = .ok (utf8 [Char.ofNat n]) := by
        apply encodeScalar_char
        unfold Json.HighSurrogate at notHigh
        unfold Json.LowSurrogate at notLow
        omega
      rw [utf8_ascii_cons (by decide), utf8_ascii_cons (by decide), utf8_ascii_cons asciiA,
        utf8_ascii_cons asciiB, utf8_ascii_cons asciiC, utf8_ascii_cons asciiD]
      exact visitBytes_unit read notHigh encoded state _ _
  | @pair a b c d e f g h high low text string knownHigh isHigh knownLow isLow _ ih =>
      obtain ⟨pieces, hands⟩ := ih []
      obtain ⟨⟨asciiA, asciiB, asciiC, asciiD⟩, small, read⟩ := parseHexEscape_unit knownHigh
      obtain ⟨⟨asciiE, asciiF, asciiG, asciiH⟩, smallLow, readLow⟩ := parseHexEscape_unit knownLow
      refine ⟨_, hands.escape (c := Json.paired high low) (fun decoded state => ?_)⟩
      have encoded : encodeScalar (0x10000 + (high - 0xd800) * 2 ^ 10 + (low - 0xdc00))
          = .ok (utf8 [Json.paired high low]) := by
        apply encodeScalar_char
        unfold Json.HighSurrogate at isHigh
        unfold Json.LowSurrogate at isLow
        omega
      rw [utf8_ascii_cons (by decide), utf8_ascii_cons (by decide), utf8_ascii_cons asciiA,
        utf8_ascii_cons asciiB, utf8_ascii_cons asciiC, utf8_ascii_cons asciiD,
        utf8_ascii_cons (by decide), utf8_ascii_cons (by decide), utf8_ascii_cons asciiE,
        utf8_ascii_cons asciiF, utf8_ascii_cons asciiG, utf8_ascii_cons asciiH]
      exact visitBytes_pair read isHigh readLow isLow encoded state _ _

-----------------------------------------------------------------------------------------
-- Literals
-----------------------------------------------------------------------------------------

theorem utf8_injective {first second : List Char} (same : utf8 first = utf8 second)
    : first = second := by
  have texts : some (String.ofList first) = some (String.ofList second) := by
    rw [← fromUtf8_utf8, ← fromUtf8_utf8, String.toList_ofList, String.toList_ofList, same]
  exact String.ofList_injective (Option.some.inj texts)

/-- The visitor looks between the quotes of a text. -/
theorem visitJsonString_literal {σ : Type} (decoded : σ → List UInt8 → Except Failure σ) (start : σ)
    (inner : List Char)
    : visitJsonString decoded start (utf8 ('"' :: (inner ++ ['"'])))
      = visitBytes decoded start [] (utf8 inner) := by
  have shape : utf8 ('"' :: (inner ++ ['"'])) = 34 :: (utf8 inner ++ [34]) := by
    rw [utf8_ascii_cons (by decide), utf8_append, utf8_ascii_cons (by decide), utf8_nil]
    rfl
  have delimited : ensure (2 ≤ (34 :: (utf8 inner ++ [34])).length
      ∧ (34 :: (utf8 inner ++ [34])).head? = some (34 : UInt8)
      ∧ (34 :: (utf8 inner ++ [34])).getLast? = some (34 : UInt8))
      "final payload field must be a JSON string" = .ok () := by
    refine ensure_eq_ok.mpr ⟨by simp, rfl, ?_⟩
    rw [← List.cons_append, List.getLast?_concat]
  rw [visitJsonString, shape, delimited, List.tail_cons, List.dropLast_concat]
  rfl

/-- A text that the visitor looks into has quotes. -/
theorem quoted_of_visitJsonString {σ : Type} {decoded : σ → List UInt8 → Except Failure σ}
    {start final : σ} {text : List Char}
    (visited : visitJsonString decoded start (utf8 text) = .ok final)
    : ∃ inner, text = '"' :: (inner ++ ['"']) := by
  rw [visitJsonString, bind_eq_ok] at visited
  obtain ⟨_, delimited, -⟩ := visited
  obtain ⟨long, first, last⟩ := ensure_eq_ok.mp delimited
  obtain ⟨more, split⟩ := List.head?_eq_some_iff.mp first
  obtain ⟨rest, rfl, rfl⟩ := utf8_eq_byteOf (c := '"') (by decide) split
  rcases List.eq_nil_or_concat rest with rfl | ⟨inner, c, shape⟩
  · rw [utf8_ascii_cons (by decide)] at long
    exact absurd long (by decide)
  · rw [List.concat_eq_append] at shape
    subst shape
    have ends : (utf8 ['"'] ++ utf8 inner ++ utf8 [c]).getLast? = some 34 := by
      rw [← utf8_append, ← utf8_append]
      exact last
    by_cases ascii : c.toNat < 128
    · rw [utf8_ascii_cons ascii, utf8_nil, List.getLast?_concat] at ends
      cases byteOf_inj ascii (show ('"' : Char).toNat < 128 by decide) (Option.some.inj ends)
      exact ⟨inner, rfl⟩
    · rw [List.getLast?_append_of_ne_nil _ (by simp [String.utf8EncodeChar_ne_nil])] at ends
      have mem := List.mem_of_getLast? ends
      rw [utf8_cons, utf8_nil, List.append_nil] at mem
      exact absurd (utf8EncodeChar_high (not_lt.mp ascii) 34 mem) (by decide)

/-- Pieces are collected as long as they fit the limit, by induction on them. -/
theorem foldlM_collect (limit : Nat) (pieces : List (List UInt8)) (collected : List UInt8)
    (within : collected.length ≤ limit) (bytes : List UInt8)
    : pieces.foldlM (fun decoded bytes => do
        ensure (decoded.length + bytes.length ≤ limit)
          "final payload identifier exceeds its size limit"
        .ok (decoded ++ bytes)) collected = .ok bytes
      ↔ bytes = collected ++ pieces.flatten ∧ bytes.length ≤ limit := by
  induction pieces generalizing collected with
  | nil =>
      simp only [List.foldlM_nil, List.flatten_nil, List.append_nil]
      constructor
      · rintro ⟨⟩
        exact ⟨rfl, within⟩
      · rintro ⟨rfl, -⟩
        rfl
  | cons piece rest ih =>
      rw [List.foldlM_cons, List.flatten_cons, ← List.append_assoc]
      by_cases fits : collected.length + piece.length ≤ limit
      · rw [ensure, if_pos fits, ok_bind, ok_bind]
        exact ih (collected ++ piece) (by rwa [List.length_append])
      · rw [ensure, if_neg fits]
        refine iff_of_false (by rintro ⟨⟩) ?_
        rintro ⟨rfl, whole⟩
        rw [List.length_append, List.length_append] at whole
        omega

/-- The visitor accepts exactly the literals of strings; its pieces are made of whole characters
and together are the string, and a string is collected exactly if it fits the limit.
-/
theorem visitor_decodes (text : String)
    : (validateJsonString (utf8 text.toList) = .ok () ↔
        ∃ string, Json.Literal text.toList string)
      ∧ (∀ string, Json.Literal text.toList string → ∃ pieces : List (List UInt8),
        (∀ {σ : Type} (decoded : σ → List UInt8 → Except Failure σ) (start : σ),
          visitJsonString decoded start (utf8 text.toList) = pieces.foldlM decoded start)
        ∧ pieces.flatten = utf8 string
        ∧ ∀ piece ∈ pieces, ∃ chars, piece = utf8 chars)
      ∧ (∀ {σ : Type} (decoded : σ → List UInt8 → Except Failure σ) (start final : σ),
        visitJsonString decoded start (utf8 text.toList) = .ok final →
        ∃ string, Json.Literal text.toList string)
      ∧ (∀ string other, Json.Literal text.toList string → Json.Literal text.toList other →
        string = other)
      ∧ ∀ limit bytes, collectSmallJsonString (utf8 text.toList) limit = .ok bytes ↔
        ∃ string, Json.Literal text.toList string ∧ bytes = utf8 string
          ∧ bytes.length ≤ limit := by
  have accepted : ∀ {string : List Char}, Json.Literal text.toList string →
      ∃ pieces : List (List UInt8),
        (∀ {σ : Type} (decoded : σ → List UInt8 → Except Failure σ) (start : σ),
          visitJsonString decoded start (utf8 text.toList) = pieces.foldlM decoded start)
        ∧ pieces.flatten = utf8 string
        ∧ ∀ piece ∈ pieces, ∃ chars, piece = utf8 chars := by
    rintro string ⟨inner, split, spells⟩
    obtain ⟨pieces, hands⟩ := handsOut_spells spells []
    refine ⟨pieces, fun decoded start => ?_, hands.whole, hands.chars⟩
    rw [split, visitJsonString_literal]
    exact hands.visits decoded start
  have accepts : ∀ {σ : Type} (decoded : σ → List UInt8 → Except Failure σ) (start final : σ),
      visitJsonString decoded start (utf8 text.toList) = .ok final →
      ∃ string, Json.Literal text.toList string := by
    intro σ decoded start final visited
    obtain ⟨inner, split⟩ := quoted_of_visitJsonString visited
    rw [split, visitJsonString_literal] at visited
    obtain ⟨string, spells⟩ := spells_of_visitBytes inner.length (Nat.le_refl _) visited
    exact ⟨string, inner, split, spells⟩
  have collected : ∀ {string : List Char} (limit : Nat) (bytes : List UInt8),
      Json.Literal text.toList string →
      (collectSmallJsonString (utf8 text.toList) limit = .ok bytes ↔
        bytes = utf8 string ∧ bytes.length ≤ limit) := by
    intro string limit bytes isLiteral
    obtain ⟨pieces, visits, whole, -⟩ := accepted isLiteral
    rw [collectSmallJsonString, visits, foldlM_collect limit pieces [] (Nat.zero_le _), whole,
      List.nil_append]
  have validated : ∀ pieces : List (List UInt8),
      pieces.foldlM (fun (_ : Unit) _ => Except.ok (ε := Failure) ()) () = .ok () := by
    intro pieces
    induction pieces with
    | nil => rfl
    | cons piece rest ih => exact ih
  refine ⟨⟨accepts _ _ _, ?_⟩, fun _ => accepted, accepts, fun string other first second => ?_,
    fun limit bytes => ⟨fun done => ?_, ?_⟩⟩
  · rintro ⟨string, isLiteral⟩
    obtain ⟨pieces, visits, -⟩ := accepted isLiteral
    exact (visits _ _).trans (validated pieces)
  · have once := (collected (utf8 string).length _ first).mpr ⟨rfl, Nat.le_refl _⟩
    exact utf8_injective ((collected _ _ second).mp once).1
  · obtain ⟨string, isLiteral⟩ := accepts _ _ _ done
    exact ⟨string, isLiteral, (collected limit bytes isLiteral).mp done⟩
  · rintro ⟨string, isLiteral, decoded⟩
    exact (collected limit bytes isLiteral).mpr decoded

end Codrik.Interfaces

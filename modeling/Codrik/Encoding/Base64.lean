import Mathlib.Data.List.GetD
import Mathlib.Data.List.Nodup

/-! Base64 with the standard alphabet and canonical padding: decoding inverts encoding, and
accepts nothing but encodings.
-/

namespace Codrik.Encoding.Base64

-----------------------------------------------------------------------------------------
-- The alphabet
-----------------------------------------------------------------------------------------

def alphabet : List Char :=
  "ABCDEFGHIJKLMNOPQRSTUVWXYZabcdefghijklmnopqrstuvwxyz0123456789+/".toList

/-- The character of a six bit value. -/
def symbol (value : Nat) : Char := alphabet.getD value '='

/-- The six bit value of a character. -/
def value? (c : Char) : Option Nat :=
  if c ∈ alphabet then some (alphabet.idxOf c) else none

theorem length_alphabet : alphabet.length = 64 := by decide

theorem nodup_alphabet : alphabet.Nodup := by decide

theorem symbol_mem {value : Nat} (small : value < 64) : symbol value ∈ alphabet := by
  rw [symbol, List.getD_eq_getElem _ _ (by rwa [length_alphabet])]
  exact List.getElem_mem _

theorem value?_symbol {value : Nat} (small : value < 64) : value? (symbol value) = some value := by
  rw [value?, if_pos (symbol_mem small), symbol,
    List.getD_eq_getElem _ _ (by rwa [length_alphabet]), nodup_alphabet.idxOf_getElem]

theorem value?_eq_some {c : Char} {value : Nat} (known : value? c = some value)
    : value < 64 ∧ symbol value = c := by
  unfold value? at known
  split at known
  · rename_i mem
    cases known
    have inside := List.idxOf_lt_length_of_mem mem
    refine ⟨length_alphabet ▸ inside, ?_⟩
    rw [symbol, List.getD_eq_getElem _ _ inside, List.getElem_idxOf]
  · cases known

theorem symbol_ne_pad {value : Nat} (small : value < 64) : symbol value ≠ '=' := by
  intro same
  have mem := symbol_mem small
  rw [same] at mem
  revert mem
  decide

theorem value?_pad : value? '=' = none := by decide

-----------------------------------------------------------------------------------------
-- Encoding and decoding
-----------------------------------------------------------------------------------------

/-- Three bytes are four characters; a shorter rest is padded. -/
def encode : List UInt8 → List Char
  | [] => []
  | [a] => [symbol (a.toNat / 4), symbol (a.toNat % 4 * 16), '=', '=']
  | [a, b] =>
      [symbol (a.toNat / 4), symbol (a.toNat % 4 * 16 + b.toNat / 16),
        symbol (b.toNat % 16 * 4), '=']
  | a :: b :: c :: rest =>
      symbol (a.toNat / 4) :: symbol (a.toNat % 4 * 16 + b.toNat / 16)
        :: symbol (b.toNat % 16 * 4 + c.toNat / 64) :: symbol (c.toNat % 64) :: encode rest

/-- Four characters that are not padded. -/
def decodeGroup (w x y z : Char) : Option (List UInt8) := do
  let w ← value? w
  let x ← value? x
  let y ← value? y
  let z ← value? z
  some [.ofNat (w * 4 + x / 16), .ofNat (x % 16 * 16 + y / 4), .ofNat (y % 4 * 64 + z)]

/-- The last four characters; the bits that the padding stands for are zero. -/
def decodeLast (w x y z : Char) : Option (List UInt8) :=
  if z = '=' then
    if y = '=' then do
      let w ← value? w
      let x ← value? x
      if x % 16 = 0 then some [.ofNat (w * 4 + x / 16)] else none
    else do
      let w ← value? w
      let x ← value? x
      let y ← value? y
      if y % 4 = 0 then some [.ofNat (w * 4 + x / 16), .ofNat (x % 16 * 16 + y / 4)] else none
  else
    decodeGroup w x y z

def decode : List Char → Option (List UInt8)
  | [] => some []
  | [w, x, y, z] => decodeLast w x y z
  | w :: x :: y :: z :: next :: rest => do
      let first ← decodeGroup w x y z
      let others ← decode (next :: rest)
      some (first ++ others)
  | _ => none

-----------------------------------------------------------------------------------------
-- Inverses
-----------------------------------------------------------------------------------------

@[simp] theorem length_encode (bytes : List UInt8)
    : (encode bytes).length = (bytes.length + 2) / 3 * 4 := by
  fun_induction encode bytes with
  | case1 => rfl
  | case2 => simp
  | case3 => simp
  | case4 a b c rest ih =>
      simp only [List.length_cons, ih]
      omega

/-- Encodings are made of the alphabet and the padding. -/
theorem encode_mem {bytes : List UInt8} {c : Char} (mem : c ∈ encode bytes)
    : c ∈ '=' :: alphabet := by
  have known : ∀ value < 64, symbol value ∈ '=' :: alphabet := fun value small =>
    List.mem_cons_of_mem _ (symbol_mem small)
  fun_induction encode bytes with
  | case1 => exact absurd mem List.not_mem_nil
  | case2 a =>
      have ha := a.toNat_lt
      simp only [List.mem_cons, List.not_mem_nil, or_false, or_self] at mem
      rcases mem with rfl | rfl | rfl
      · exact known _ (by omega)
      · exact known _ (by omega)
      · exact List.mem_cons_self
  | case3 a b =>
      have ha := a.toNat_lt
      have hb := b.toNat_lt
      simp only [List.mem_cons, List.not_mem_nil, or_false] at mem
      rcases mem with rfl | rfl | rfl | rfl
      · exact known _ (by omega)
      · exact known _ (by omega)
      · exact known _ (by omega)
      · exact List.mem_cons_self
  | case4 a b c rest ih =>
      have ha := a.toNat_lt
      have hb := b.toNat_lt
      have hc := c.toNat_lt
      simp only [List.mem_cons] at mem
      rcases mem with rfl | rfl | rfl | rfl | mem
      · exact known _ (by omega)
      · exact known _ (by omega)
      · exact known _ (by omega)
      · exact known _ (by omega)
      · exact ih mem

theorem decodeGroup_symbols (a b c : UInt8)
    : decodeGroup (symbol (a.toNat / 4)) (symbol (a.toNat % 4 * 16 + b.toNat / 16))
        (symbol (b.toNat % 16 * 4 + c.toNat / 64)) (symbol (c.toNat % 64)) = some [a, b, c] := by
  have ha := a.toNat_lt
  have hb := b.toNat_lt
  have hc := c.toNat_lt
  rw [decodeGroup, value?_symbol (by omega), value?_symbol (by omega), value?_symbol (by omega),
    value?_symbol (by omega)]
  simp only [Option.bind_eq_bind, Option.bind_some, Option.some.injEq, List.cons.injEq, and_true]
  refine ⟨?_, ?_, ?_⟩ <;> apply UInt8.toNat_inj.mp <;> rw [UInt8.toNat_ofNat'] <;> omega

/-- Decoding inverts encoding, by induction on the groups. -/
@[simp] theorem decode_encode (bytes : List UInt8) : decode (encode bytes) = some bytes := by
  fun_induction encode bytes with
  | case1 => rfl
  | case2 a =>
      have ha := a.toNat_lt
      simp only [decode, decodeLast, if_true]
      rw [value?_symbol (by omega), value?_symbol (by omega)]
      simp only [Option.bind_eq_bind, Option.bind_some]
      rw [if_pos (by omega)]
      have : UInt8.ofNat (a.toNat / 4 * 4 + a.toNat % 4 * 16 / 16) = a := by
        apply UInt8.toNat_inj.mp
        rw [UInt8.toNat_ofNat']
        omega
      rw [this]
  | case3 a b =>
      have ha := a.toNat_lt
      have hb := b.toNat_lt
      simp only [decode, decodeLast, if_true]
      rw [if_neg (symbol_ne_pad (by omega)), value?_symbol (by omega), value?_symbol (by omega),
        value?_symbol (by omega)]
      simp only [Option.bind_eq_bind, Option.bind_some]
      rw [if_pos (by omega)]
      simp only [Option.some.injEq, List.cons.injEq, and_true]
      constructor <;> apply UInt8.toNat_inj.mp <;> rw [UInt8.toNat_ofNat'] <;> omega
  | case4 a b c rest ih =>
      cases others : encode rest with
      | nil =>
          rw [others] at ih
          cases ih
          have hc := c.toNat_lt
          rw [decode, decodeLast, if_neg (symbol_ne_pad (by omega)), decodeGroup_symbols]
      | cons next more =>
          rw [others] at ih
          simp only [decode, decodeGroup_symbols, ih, Option.bind_eq_bind, Option.bind_some]
          rfl

theorem decodeGroup_eq_some {w x y z : Char} {bytes : List UInt8}
    (decoded : decodeGroup w x y z = some bytes)
    : ∃ a b c, bytes = [a, b, c] ∧ w = symbol (a.toNat / 4)
      ∧ x = symbol (a.toNat % 4 * 16 + b.toNat / 16)
      ∧ y = symbol (b.toNat % 16 * 4 + c.toNat / 64) ∧ z = symbol (c.toNat % 64) := by
  simp only [decodeGroup, Option.bind_eq_bind, Option.bind_eq_some_iff] at decoded
  obtain ⟨w', knownW, x', knownX, y', knownY, z', knownZ, result⟩ := decoded
  cases result
  obtain ⟨hw, rfl⟩ := value?_eq_some knownW
  obtain ⟨hx, rfl⟩ := value?_eq_some knownX
  obtain ⟨hy, rfl⟩ := value?_eq_some knownY
  obtain ⟨hz, rfl⟩ := value?_eq_some knownZ
  refine ⟨_, _, _, rfl, ?_, ?_, ?_, ?_⟩ <;> congr 1 <;> simp only [UInt8.toNat_ofNat'] <;> omega

/-- Only encodings are decoded, by induction on the groups. -/
theorem encode_of_decode {text : List Char} {bytes : List UInt8}
    (decoded : decode text = some bytes)
    : encode bytes = text := by
  fun_induction decode text generalizing bytes with
  | case1 =>
      cases decoded
      rfl
  | case2 w x y z =>
      unfold decodeLast at decoded
      split at decoded
      · rename_i pad
        subst pad
        split at decoded
        · rename_i pad
          subst pad
          simp only [Option.bind_eq_bind, Option.bind_eq_some_iff] at decoded
          obtain ⟨w', knownW, x', knownX, result⟩ := decoded
          split at result
          · cases result
            obtain ⟨hw, rfl⟩ := value?_eq_some knownW
            obtain ⟨hx, rfl⟩ := value?_eq_some knownX
            simp only [encode, UInt8.toNat_ofNat', List.cons.injEq, and_true]
            refine ⟨congrArg symbol ?_, congrArg symbol ?_⟩ <;> omega
          · cases result
        · simp only [Option.bind_eq_bind, Option.bind_eq_some_iff] at decoded
          obtain ⟨w', knownW, x', knownX, y', knownY, result⟩ := decoded
          split at result
          · cases result
            obtain ⟨hw, rfl⟩ := value?_eq_some knownW
            obtain ⟨hx, rfl⟩ := value?_eq_some knownX
            obtain ⟨hy, rfl⟩ := value?_eq_some knownY
            simp only [encode, UInt8.toNat_ofNat', List.cons.injEq, and_true]
            refine ⟨congrArg symbol ?_, congrArg symbol ?_, congrArg symbol ?_⟩ <;> omega
          · cases result
      · obtain ⟨a, b, c, rfl, rfl, rfl, rfl, rfl⟩ := decodeGroup_eq_some decoded
        rfl
  | case3 w x y z next rest ih =>
      simp only [Option.bind_eq_bind, Option.bind_eq_some_iff] at decoded
      obtain ⟨first, group, others, known, result⟩ := decoded
      cases result
      obtain ⟨a, b, c, rfl, rfl, rfl, rfl, rfl⟩ := decodeGroup_eq_some group
      simp only [List.cons_append, List.nil_append, encode, ih known]
  | case4 => cases decoded

end Codrik.Encoding.Base64

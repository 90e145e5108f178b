import Mathlib.Algebra.BigOperators.Group.List.Basic
import Mathlib.Algebra.GroupWithZero.Nat
import Mathlib.Data.List.GetD

/-! UTF-8 and compact JSON texts: how values are printed, and how many bytes that takes. -/

namespace Codrik.Encoding

-----------------------------------------------------------------------------------------
-- UTF-8
-----------------------------------------------------------------------------------------

/-- The bytes of a text. -/
def utf8 (text : List Char) : List UInt8 := text.flatMap String.utf8EncodeChar

@[simp] theorem utf8_nil : utf8 [] = [] := rfl

@[simp] theorem utf8_append (first second : List Char)
    : utf8 (first ++ second) = utf8 first ++ utf8 second :=
  List.flatMap_append

@[simp] theorem utf8_cons (c : Char) (rest : List Char)
    : utf8 (c :: rest) = String.utf8EncodeChar c ++ utf8 rest :=
  List.flatMap_cons

/-- The text of bytes, if they are UTF-8. -/
def fromUtf8 (bytes : List UInt8) : Option String := String.fromUTF8? bytes.toByteArray

theorem toByteArray_utf8 (text : String) : (utf8 text.toList).toByteArray = text.toByteArray := by
  conv => rhs; rw [← String.ofList_toList (s := text)]
  rfl

theorem fromUtf8_utf8 (text : String) : fromUtf8 (utf8 text.toList) = some text := by
  unfold fromUtf8 String.fromUTF8?
  rw [toByteArray_utf8, dif_pos text.isValidUTF8]
  rfl

theorem length_utf8 (text : String) : (utf8 text.toList).length = text.utf8ByteSize := by
  rw [← String.size_toByteArray, ← toByteArray_utf8, List.size_toByteArray]

def Ascii (text : List Char) : Prop := ∀ c ∈ text, c.toNat < 128

instance (text : List Char) : Decidable (Ascii text) := List.decidableBAll _ text

/-- A property of the characters of a text that is checked one by one. -/
theorem forall_of_all {p : Char → Prop} [DecidablePred p] {text : List Char}
    (all : text.all (fun c => decide (p c)) = true)
    : ∀ c ∈ text, p c := by
  simpa using all

theorem Ascii.append {first second : List Char} (a : Ascii first) (b : Ascii second)
    : Ascii (first ++ second) := by
  intro c mem
  rcases List.mem_append.mp mem with mem | mem
  · exact a c mem
  · exact b c mem

theorem utf8EncodeChar_ascii {c : Char} (ascii : c.toNat < 128)
    : String.utf8EncodeChar c = [UInt8.ofNat c.toNat] := by
  unfold String.utf8EncodeChar
  rw [if_pos (by simpa using Nat.le_of_lt_succ ascii)]
  rfl

/-- ASCII texts have one byte a character, by induction on the text. -/
theorem utf8_ascii {text : List Char} (ascii : Ascii text)
    : utf8 text = text.map (fun c => UInt8.ofNat c.toNat) := by
  induction text with
  | nil => rfl
  | cons c rest ih =>
      rw [utf8_cons, utf8EncodeChar_ascii (ascii c List.mem_cons_self),
        ih (fun other mem => ascii other (List.mem_cons_of_mem _ mem))]
      rfl

theorem length_utf8_ascii {text : List Char} (ascii : Ascii text)
    : (utf8 text).length = text.length := by
  rw [utf8_ascii ascii, List.length_map]

/-- The bytes of a character beyond ASCII have their highest bit set. -/
theorem utf8EncodeChar_high {c : Char} (beyond : 128 ≤ c.toNat)
    : ∀ byte ∈ String.utf8EncodeChar c, 128 ≤ byte.toNat := by
  have value : c.val.toNat = c.toNat := rfl
  unfold String.utf8EncodeChar
  rw [if_neg (by rw [value]; omega)]
  split
  · intro byte mem
    simp only [List.mem_cons, List.not_mem_nil, or_false] at mem
    rcases mem with rfl | rfl <;> rw [UInt8.toNat_ofNat'] <;> omega
  · split
    · intro byte mem
      simp only [List.mem_cons, List.not_mem_nil, or_false] at mem
      rcases mem with rfl | rfl | rfl <;> rw [UInt8.toNat_ofNat'] <;> omega
    · intro byte mem
      simp only [List.mem_cons, List.not_mem_nil, or_false] at mem
      rcases mem with rfl | rfl | rfl | rfl <;> rw [UInt8.toNat_ofNat'] <;> omega

/-- An ASCII character whose byte is in a text is in the text. -/
theorem ascii_mem_utf8 {n : Nat} (small : n < 128) {text : List Char}
    (mem : UInt8.ofNat n ∈ utf8 text)
    : Char.ofNat n ∈ text := by
  obtain ⟨c, here, within⟩ := List.mem_flatMap.mp mem
  have byte : (UInt8.ofNat n).toNat = n := by
    rw [UInt8.toNat_ofNat']
    omega
  by_cases ascii : c.toNat < 128
  · rw [utf8EncodeChar_ascii ascii, List.mem_singleton] at within
    have number : c.toNat = n := by
      rw [within, UInt8.toNat_ofNat'] at byte
      omega
    rw [← number, Char.ofNat_toNat]
    exact here
  · have := utf8EncodeChar_high (Nat.le_of_not_lt ascii) _ within
    omega

-----------------------------------------------------------------------------------------
-- Strings and numbers
-----------------------------------------------------------------------------------------

/-- A lowercase hexadecimal digit. -/
def hexDigit (n : Nat) : Char := "0123456789abcdef".toList.getD n '0'

/-- The lowest digits of a number, the highest of them first. -/
def hexText (digits n : Nat) : List Char :=
  (List.range digits).map (fun position => hexDigit (n / 16 ^ (digits - 1 - position) % 16))

@[simp] theorem length_hexText (digits n : Nat) : (hexText digits n).length = digits := by
  simp [hexText]

theorem hexDigit_mem (n : Nat) : hexDigit n ∈ "0123456789abcdef".toList := by
  unfold hexDigit
  by_cases inside : n < "0123456789abcdef".toList.length
  · rw [List.getD_eq_getElem _ _ inside]
    exact List.getElem_mem _
  · rw [List.getD_eq_default _ _ (Nat.le_of_not_lt inside)]
    decide

theorem ascii_hexDigits : Ascii "0123456789abcdef".toList := by decide

theorem hexText_mem {digits n : Nat} {c : Char} (mem : c ∈ hexText digits n)
    : c ∈ "0123456789abcdef".toList := by
  obtain ⟨_, -, rfl⟩ := List.mem_map.mp mem
  exact hexDigit_mem _

theorem ascii_hexText (digits n : Nat) : Ascii (hexText digits n) := by
  intro c mem
  exact ascii_hexDigits c (hexText_mem mem)

namespace Json

/-- A character within a string: quotes, backslashes and control characters are escaped. -/
def escape (c : Char) : List Char :=
  if c = '"' then ['\\', '"']
  else if c = '\\' then ['\\', '\\']
  else if c.toNat = 0x8 then ['\\', 'b']
  else if c.toNat = 0x9 then ['\\', 't']
  else if c.toNat = 0xA then ['\\', 'n']
  else if c.toNat = 0xC then ['\\', 'f']
  else if c.toNat = 0xD then ['\\', 'r']
  else if c.toNat < 0x20 then ['\\', 'u', '0', '0', hexDigit (c.toNat / 16), hexDigit (c.toNat % 16)]
  else [c]

def quote (text : String) : List Char := '"' :: text.toList.flatMap escape ++ ['"']

def numeral : Int → List Char
  | .ofNat n => Nat.toDigits 10 n
  | .negSucc n => '-' :: Nat.toDigits 10 (n + 1)

end Json

-----------------------------------------------------------------------------------------
-- Values
-----------------------------------------------------------------------------------------

/-- A JSON value; a number that is no integer is kept as it is written, and the members of an
object are in their order.
-/
inductive Json
  | null
  | bool (value : Bool)
  | num (value : Int)
  | decimal (text : String)
  | str (value : String)
  | arr (items : List Json)
  | obj (members : List (String × Json))

namespace Json

mutual

/-- The compact text of a value. -/
def render : Json → List Char
  | .null => "null".toList
  | .bool true => "true".toList
  | .bool false => "false".toList
  | .num value => numeral value
  | .decimal text => text.toList
  | .str value => quote value
  | .arr items => '[' :: [','].intercalate (renderItems items) ++ [']']
  | .obj members => '{' :: [','].intercalate (renderMembers members) ++ ['}']

def renderItems : List Json → List (List Char)
  | [] => []
  | item :: rest => item.render :: renderItems rest

def renderMembers : List (String × Json) → List (List Char)
  | [] => []
  | (name, value) :: rest => (quote name ++ ':' :: value.render) :: renderMembers rest

end

/-- The compact text of a value as bytes. -/
def toBytes (value : Json) : List UInt8 := utf8 value.render

/-- The bytes a value takes. -/
def size (value : Json) : Nat := value.toBytes.length

-----------------------------------------------------------------------------------------
-- Sizes
-----------------------------------------------------------------------------------------

/-- The bytes of a text within quotes. -/
def quotedSize (text : String) : Nat := (utf8 (quote text)).length

/-- The first of several parts stands before a comma. -/
theorem intercalate_cons_cons (part next : List Char) (more : List (List Char))
    : [','].intercalate (part :: next :: more)
      = part ++ (',' :: [','].intercalate (next :: more)) := by
  simp [List.intercalate, List.intersperse]

theorem length_utf8_intercalate (parts : List (List Char))
    : (utf8 ([','].intercalate parts)).length
      = (parts.map (fun part => (utf8 part).length)).sum + (parts.length - 1) := by
  induction parts with
  | nil => rfl
  | cons part rest ih =>
      cases rest with
      | nil => simp [List.intercalate]
      | cons next more =>
          rw [intercalate_cons_cons, utf8_append, utf8_cons, List.length_append, List.length_append, ih]
          simp only [List.map_cons, List.sum_cons, List.length_cons]
          have : (String.utf8EncodeChar ',').length = 1 := by decide
          omega

theorem renderItems_eq (items : List Json) : renderItems items = items.map render := by
  induction items with
  | nil => rfl
  | cons item rest ih => rw [renderItems, ih, List.map_cons]

theorem renderMembers_eq (members : List (String × Json))
    : renderMembers members = members.map (fun member => quote member.1 ++ ':' :: member.2.render) := by
  induction members with
  | nil => rfl
  | cons member rest ih => rw [renderMembers, ih, List.map_cons]

theorem size_str (text : String) : (str text).size = quotedSize text := rfl

theorem size_arr (items : List Json)
    : (arr items).size = 2 + (items.map size).sum + (items.length - 1) := by
  have one : ∀ c ∈ ['[', ']'], (String.utf8EncodeChar c).length = 1 :=
    forall_of_all (by decide)
  simp only [size, toBytes, render, utf8_cons, utf8_append, List.length_append, utf8_nil,
    length_utf8_intercalate, renderItems_eq, List.map_map, Function.comp_def, List.length_map,
    one '[' (by decide), one ']' (by decide), List.length_nil]
  change _ = 2 + (items.map (fun item => (utf8 item.render).length)).sum + _
  omega

theorem size_obj (members : List (String × Json))
    : (obj members).size
      = 2 + (members.map (fun member => quotedSize member.1 + 1 + member.2.size)).sum
        + (members.length - 1) := by
  have one : ∀ c ∈ ['{', '}', ':'], (String.utf8EncodeChar c).length = 1 :=
    forall_of_all (by decide)
  simp only [size, toBytes, render, utf8_cons, utf8_append, List.length_append, utf8_nil,
    length_utf8_intercalate, renderMembers_eq, List.map_map, Function.comp_def, List.length_map,
    one '{' (by decide), one '}' (by decide), one ':' (by decide), List.length_nil, quotedSize,
    Nat.add_assoc]
  omega

/-- The bytes of a string are those of its escaped characters and two quotes. -/
theorem quotedSize_eq (text : String)
    : quotedSize text = 2 + (text.toList.map (fun c => (utf8 (escape c)).length)).sum := by
  have one : (String.utf8EncodeChar '"').length = 1 := by decide
  have inner : ∀ chars : List Char, (utf8 (chars.flatMap escape)).length
      = (chars.map (fun c => (utf8 (escape c)).length)).sum := by
    intro chars
    induction chars with
    | nil => rfl
    | cons c rest ih => simp only [List.flatMap_cons, utf8_append, List.length_append, ih,
        List.map_cons, List.sum_cons]
  simp only [quotedSize, quote, utf8_cons, utf8_append, List.length_append, utf8_nil, one, inner,
    List.length_nil]
  omega

/-- The value of a member of an object. -/
def member (name : String) : Json → Option Json
  | .obj members => (members.find? (·.1 = name)).map (·.2)
  | _ => none

end Json

end Codrik.Encoding

import Codrik.Encoding.Json

/-! What JSON string literals spell, as the grammar has it, and a reader for them. -/

namespace Codrik.Encoding.Json

-----------------------------------------------------------------------------------------
-- Escapes
-----------------------------------------------------------------------------------------

/-- The value of a hexadecimal digit. -/
def hexValue? (c : Char) : Option Nat :=
  if 48 ≤ c.toNat ∧ c.toNat ≤ 57 then some (c.toNat - 48)
  else if 97 ≤ c.toNat ∧ c.toNat ≤ 102 then some (c.toNat - 97 + 10)
  else if 65 ≤ c.toNat ∧ c.toNat ≤ 70 then some (c.toNat - 65 + 10)
  else none

/-- The UTF-16 unit that four digits spell. -/
def unit? (a b c d : Char) : Option Nat := do
  let a ← hexValue? a
  let b ← hexValue? b
  let c ← hexValue? c
  let d ← hexValue? d
  some (((a * 16 + b) * 16 + c) * 16 + d)

/-- The character that a one-character escape stands for. -/
def short? (escape : Char) : Option Char :=
  if escape = '"' ∨ escape = '\\' ∨ escape = '/' then some escape
  else if escape = 'b' then some (Char.ofNat 0x08)
  else if escape = 'f' then some (Char.ofNat 0x0c)
  else if escape = 'n' then some '\n'
  else if escape = 'r' then some '\r'
  else if escape = 't' then some '\t'
  else none

def HighSurrogate (unit : Nat) : Prop := 0xd800 ≤ unit ∧ unit ≤ 0xdbff

def LowSurrogate (unit : Nat) : Prop := 0xdc00 ≤ unit ∧ unit ≤ 0xdfff

instance (unit : Nat) : Decidable (HighSurrogate unit) := inferInstanceAs (Decidable (_ ∧ _))

instance (unit : Nat) : Decidable (LowSurrogate unit) := inferInstanceAs (Decidable (_ ∧ _))

/-- The character of a pair of surrogates. -/
def paired (high low : Nat) : Char :=
  Char.ofNat (0x10000 + (high - 0xd800) * 2 ^ 10 + (low - 0xdc00))

/-- The text between the quotes of a literal spells a string. -/
inductive Spells : List Char → List Char → Prop
  | nil : Spells [] []
  | plain {c : Char} {text string : List Char} (notQuote : c ≠ '"') (notEscape : c ≠ '\\')
      (printable : 0x20 ≤ c.toNat) (rest : Spells text string)
    : Spells (c :: text) (c :: string)
  | short {escape c : Char} {text string : List Char} (known : short? escape = some c)
      (rest : Spells text string)
    : Spells ('\\' :: escape :: text) (c :: string)
  | unit {a b c d : Char} {n : Nat} {text string : List Char} (known : unit? a b c d = some n)
      (notHigh : ¬HighSurrogate n) (notLow : ¬LowSurrogate n) (rest : Spells text string)
    : Spells ('\\' :: 'u' :: a :: b :: c :: d :: text) (Char.ofNat n :: string)
  | pair {a b c d e f g h : Char} {high low : Nat} {text string : List Char}
      (knownHigh : unit? a b c d = some high) (isHigh : HighSurrogate high)
      (knownLow : unit? e f g h = some low) (isLow : LowSurrogate low)
      (rest : Spells text string)
    : Spells ('\\' :: 'u' :: a :: b :: c :: d :: '\\' :: 'u' :: e :: f :: g :: h :: text)
        (paired high low :: string)

/-- The text is a literal of the string. -/
def Literal (text string : List Char) : Prop :=
  ∃ inner, text = '"' :: (inner ++ ['"']) ∧ Spells inner string

/-- What a printed string spells: each character is escaped on its own. -/
theorem spells_escape (c : Char) {text string : List Char} (rest : Spells text string)
    : Spells (escape c ++ text) (c :: string) := by
  have number : ∀ d : Char, c.toNat = d.toNat → c = d := fun d same => Char.toNat_inj.mp same
  unfold escape
  split
  · exact .short (by rw [‹c = '"'›]; decide) rest
  split
  · exact .short (by rw [‹c = '\\'›]; decide) rest
  split
  · exact .short (by rw [number (Char.ofNat 8) ‹_›]; decide) rest
  split
  · exact .short (by rw [number '\t' ‹_›]; decide) rest
  split
  · exact .short (by rw [number '\n' ‹_›]; decide) rest
  split
  · exact .short (by rw [number (Char.ofNat 12) ‹_›]; decide) rest
  split
  · exact .short (by rw [number '\r' ‹_›]; decide) rest
  split
  · rename_i control
    have digits : ∀ n < 0x20, unit? '0' '0' (hexDigit (n / 16)) (hexDigit (n % 16)) = some n := by
      decide
    have spelled := Spells.unit (digits c.toNat control) (by unfold HighSurrogate; omega)
      (by unfold LowSurrogate; omega) rest
    rwa [Char.ofNat_toNat] at spelled
  · rename_i notQuote notEscape _ _ _ _ _ printable
    exact .plain notQuote notEscape (Nat.le_of_not_lt printable) rest

/-- A printed string spells what it was printed for, by induction on it. -/
theorem spells_flatMap_escape (text : List Char) : Spells (text.flatMap escape) text := by
  induction text with
  | nil => exact .nil
  | cons c rest ih =>
      rw [List.flatMap_cons]
      exact spells_escape c ih

-----------------------------------------------------------------------------------------
-- Reading
-----------------------------------------------------------------------------------------

/-- A character is put in front of a string that was read. -/
def ahead (c : Char) (read : List Char × List Char) : List Char × List Char :=
  (c :: read.1, read.2)

/-- Reads a string up to its closing quote, and hands out what follows. -/
def readString : List Char → Option (List Char × List Char)
  | [] => none
  | c :: rest =>
      if c = '"' then
        some ([], rest)
      else if c = '\\' then
        match rest with
        | [] => none
        | escape :: rest =>
            if escape = 'u' then
              match rest with
              | a :: b :: c :: d :: rest =>
                  match unit? a b c d with
                  | none => none
                  | some n =>
                      if HighSurrogate n then
                        match rest with
                        | x :: y :: e :: f :: g :: h :: rest =>
                            if x = '\\' ∧ y = 'u' then
                              match unit? e f g h with
                              | none => none
                              | some low =>
                                  if LowSurrogate low then
                                    (readString rest).map (ahead (paired n low))
                                  else none
                            else none
                        | _ => none
                      else if LowSurrogate n then none
                      else (readString rest).map (ahead (Char.ofNat n))
              | _ => none
            else
              match short? escape with
              | none => none
              | some c => (readString rest).map (ahead c)
      else if c.toNat < 0x20 then
        none
      else
        (readString rest).map (ahead c)

@[simp] theorem readString_quote (rest : List Char)
    : readString ('"' :: rest) = some ([], rest) := by
  unfold readString
  rfl

theorem readString_plain {c : Char} (notQuote : c ≠ '"') (notEscape : c ≠ '\\')
    (printable : 0x20 ≤ c.toNat) (rest : List Char)
    : readString (c :: rest) = (readString rest).map (ahead c) := by
  conv => lhs; unfold readString
  rw [if_neg notQuote, if_neg notEscape, if_neg (Nat.not_lt.mpr printable)]

theorem readString_short {escape c : Char} (known : short? escape = some c) (rest : List Char)
    : readString ('\\' :: escape :: rest) = (readString rest).map (ahead c) := by
  have notUnit : escape ≠ 'u' := by
    rintro rfl
    exact absurd (known.symm.trans (by decide : short? 'u' = none)) (Option.some_ne_none c)
  conv => lhs; unfold readString
  simp only [if_neg (show ('\\' : Char) ≠ '"' by decide), if_true, if_neg notUnit, known]

theorem readString_unit {a b c d : Char} {n : Nat} (known : unit? a b c d = some n)
    (notHigh : ¬HighSurrogate n) (notLow : ¬LowSurrogate n) (rest : List Char)
    : readString ('\\' :: 'u' :: a :: b :: c :: d :: rest)
      = (readString rest).map (ahead (Char.ofNat n)) := by
  conv => lhs; unfold readString
  simp only [if_neg (show ('\\' : Char) ≠ '"' by decide), if_true, known, if_neg notHigh,
    if_neg notLow]

theorem readString_pair {a b c d e f g h : Char} {high low : Nat}
    (knownHigh : unit? a b c d = some high) (isHigh : HighSurrogate high)
    (knownLow : unit? e f g h = some low) (isLow : LowSurrogate low) (rest : List Char)
    : readString
        ('\\' :: 'u' :: a :: b :: c :: d :: '\\' :: 'u' :: e :: f :: g :: h :: rest)
      = (readString rest).map (ahead (paired high low)) := by
  conv => lhs; unfold readString
  simp only [if_neg (show ('\\' : Char) ≠ '"' by decide), if_true, knownHigh, if_pos isHigh,
    and_self, knownLow, if_pos isLow]

/-- A string that is spelled is read up to its quote, by induction on the spelling. -/
theorem readString_spells {text string : List Char} (spells : Spells text string)
    (rest : List Char)
    : readString (text ++ '"' :: rest) = some (string, rest) := by
  induction spells with
  | nil => exact readString_quote rest
  | plain notQuote notEscape printable _ ih =>
      rw [List.cons_append, readString_plain notQuote notEscape printable, ih]
      rfl
  | short known _ ih =>
      rw [List.cons_append, List.cons_append, readString_short known, ih]
      rfl
  | unit known notHigh notLow _ ih =>
      simp only [List.cons_append]
      rw [readString_unit known notHigh notLow, ih]
      rfl
  | pair knownHigh isHigh knownLow isLow _ ih =>
      simp only [List.cons_append]
      rw [readString_pair knownHigh isHigh knownLow isLow, ih]
      rfl

end Codrik.Encoding.Json

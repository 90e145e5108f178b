import Codrik.Encoding.JsonSpelling
import Mathlib.Data.List.TakeWhile

/-! A reader for JSON texts: what was printed is read back, even where characters of its strings
are spelled in another way.
-/

namespace Codrik.Encoding.Json

-----------------------------------------------------------------------------------------
-- Numbers
-----------------------------------------------------------------------------------------

/-- The rest of a number after its fraction, if it has one. -/
def afterFraction (text : List Char) : Option (List Char) :=
  if text.head? = some '.' then
    if (text.tail.takeWhile Char.isDigit) = [] then none
    else some (text.tail.dropWhile Char.isDigit)
  else some text

/-- The rest of a number after its exponent, if it has one. -/
def afterExponent (text : List Char) : Option (List Char) :=
  if text.head? = some 'e' ∨ text.head? = some 'E' then
    let digits :=
      if text.tail.head? = some '+' ∨ text.tail.head? = some '-' then text.tail.tail
      else text.tail
    if digits.takeWhile Char.isDigit = [] then none else some (digits.dropWhile Char.isDigit)
  else some text

/-- Reads a number: an integer, or else a decimal as it is written. -/
def readNumber (word : List Char) : Option Json :=
  let negative := word.head? = some '-'
  let unsigned := if negative then word.tail else word
  let digits := unsigned.takeWhile Char.isDigit
  let rest := unsigned.dropWhile Char.isDigit
  let value := Nat.ofDigitChars 10 digits 0
  if digits = [] ∨ digits.head? = some '0' ∧ digits.length ≠ 1 then none
  else if rest = [] then some (.num (if negative then -value else value))
  else if (afterFraction rest).bind afterExponent = some [] then
    some (.decimal (String.ofList word))
  else none

-----------------------------------------------------------------------------------------
-- Values
-----------------------------------------------------------------------------------------

def isBlankChar (c : Char) : Bool := c = ' ' ∨ c = '\t' ∨ c = '\n' ∨ c = '\r'

def skipBlanks (text : List Char) : List Char := text.dropWhile isBlankChar

/-- The characters of numbers and names. -/
def isWordChar (c : Char) : Bool := c.isAlphanum || c = '+' || c = '-' || c = '.'

def readWord (word : List Char) : Option Json :=
  if word = "null".toList then some .null
  else if word = "true".toList then some (.bool true)
  else if word = "false".toList then some (.bool false)
  else readNumber word

mutual

/-- Reads a value, and hands out what follows. -/
def readValue : Nat → List Char → Option (Json × List Char)
  | 0, _ => none
  | fuel + 1, text =>
      match skipBlanks text with
      | [] => none
      | c :: rest =>
          if c = '[' then
            if (skipBlanks rest).head? = some ']' then some (.arr [], (skipBlanks rest).tail)
            else (readItems fuel rest).map (fun read => (.arr read.1, read.2))
          else if c = '{' then
            if (skipBlanks rest).head? = some '}' then some (.obj [], (skipBlanks rest).tail)
            else (readMembers fuel rest).map (fun read => (.obj read.1, read.2))
          else if c = '"' then
            (readString rest).map (fun read => (.str (String.ofList read.1), read.2))
          else
            (readWord ((c :: rest).takeWhile isWordChar)).map
              (fun value => (value, (c :: rest).dropWhile isWordChar))

/-- Reads the items of an array that has some. -/
def readItems : Nat → List Char → Option (List Json × List Char)
  | 0, _ => none
  | fuel + 1, text =>
      match readValue fuel text with
      | none => none
      | some (item, rest) =>
          match skipBlanks rest with
          | [] => none
          | c :: rest =>
              if c = ',' then (readItems fuel rest).map (fun read => (item :: read.1, read.2))
              else if c = ']' then some ([item], rest)
              else none

/-- Reads the members of an object that has some. -/
def readMembers : Nat → List Char → Option (List (String × Json) × List Char)
  | 0, _ => none
  | fuel + 1, text =>
      if (skipBlanks text).head? ≠ some '"' then none
      else
        match readString (skipBlanks text).tail with
        | none => none
        | some (name, rest) =>
            if (skipBlanks rest).head? ≠ some ':' then none
            else
              match readValue fuel (skipBlanks rest).tail with
              | none => none
              | some (value, rest) =>
                  match skipBlanks rest with
                  | [] => none
                  | c :: rest =>
                      if c = ',' then
                        (readMembers fuel rest).map
                          (fun read => ((String.ofList name, value) :: read.1, read.2))
                      else if c = '}' then some ([(String.ofList name, value)], rest)
                      else none

end

/-- Reads a text that is one value. -/
def read (text : List Char) : Option Json :=
  match readValue (text.length + 1) text with
  | none => none
  | some (value, rest) => if skipBlanks rest = [] then some value else none

-----------------------------------------------------------------------------------------
-- Printed values
-----------------------------------------------------------------------------------------

/-- A number with a fraction or an exponent, as the grammar has it. -/
def IsDecimal (text : String) : Prop :=
  (∀ c ∈ text.toList, isWordChar c = true)
    ∧ readNumber text.toList = some (.decimal (String.ofList text.toList))

mutual

/-- Numbers of the value that are kept as they are written are numbers. -/
def Numeric : Json → Prop
  | .decimal text => IsDecimal text
  | .arr items => NumericItems items
  | .obj members => NumericMembers members
  | .null | .bool _ | .num _ | .str _ => True

def NumericItems : List Json → Prop
  | [] => True
  | item :: rest => item.Numeric ∧ NumericItems rest

def NumericMembers : List (String × Json) → Prop
  | [] => True
  | member :: rest => member.2.Numeric ∧ NumericMembers rest

end

/-- Another spelling of characters that leaves all but strings alone, and these their meaning. -/
structure Respells (spelling : Char → List Char) : Prop where
  outside : ∀ c, isWordChar c = true ∨ c ∈ ['[', ']', '{', '}', ',', ':'] → spelling c = [c]
  inside : ∀ text : String, Literal ((quote text).flatMap spelling) text.toList

/-- What follows a value is no part of a number or a name. -/
def Ended (rest : List Char) : Prop := ∀ c ∈ rest.head?, isWordChar c = false

theorem ended_cons {c : Char} (ends : isWordChar c = false) (rest : List Char)
    : Ended (c :: rest) := by
  intro other mem
  cases mem
  exact ends

/-- A character that is none of a word's is recognized by its number. -/
theorem isWordChar_ne {c d : Char} (word : isWordChar c = true) (other : isWordChar d = false)
    : c ≠ d := by
  rintro rfl
  rw [word] at other
  cases other

theorem isBlankChar_word {c : Char} (word : isWordChar c = true) : isBlankChar c = false := by
  simp [isBlankChar, isWordChar_ne word (show isWordChar ' ' = false by decide),
    isWordChar_ne word (show isWordChar '\t' = false by decide),
    isWordChar_ne word (show isWordChar '\n' = false by decide),
    isWordChar_ne word (show isWordChar '\r' = false by decide)]

theorem skipBlanks_cons {c : Char} (visible : isBlankChar c = false) (rest : List Char)
    : skipBlanks (c :: rest) = c :: rest := by
  rw [skipBlanks, List.dropWhile_cons_of_neg (by rw [visible]; decide)]

theorem takeWhile_word {word rest : List Char} (all : ∀ c ∈ word, isWordChar c = true)
    (ended : Ended rest)
    : (word ++ rest).takeWhile isWordChar = word ∧ (word ++ rest).dropWhile isWordChar = rest := by
  have stop : rest.takeWhile isWordChar = [] ∧ rest.dropWhile isWordChar = rest := by
    cases rest with
    | nil => exact ⟨rfl, rfl⟩
    | cons c rest =>
        have ends := ended c rfl
        rw [List.takeWhile_cons_of_neg (by rw [ends]; decide),
          List.dropWhile_cons_of_neg (by rw [ends]; decide)]
        exact ⟨rfl, rfl⟩
  rw [List.takeWhile_append_of_pos all, List.dropWhile_append_of_pos all, stop.1, stop.2,
    List.append_nil]
  exact ⟨rfl, rfl⟩

/-- A word is read whole. -/
theorem readValue_word {fuel : Nat} {word rest : List Char} {value : Json} (some' : word ≠ [])
    (all : ∀ c ∈ word, isWordChar c = true) (means : readWord word = some value)
    (ended : Ended rest)
    : readValue (fuel + 1) (word ++ rest) = some (value, rest) := by
  obtain ⟨taken, dropped⟩ := takeWhile_word all ended
  cases word with
  | nil => exact absurd rfl some'
  | cons c more =>
      have first := all c List.mem_cons_self
      rw [List.cons_append] at *
      rw [readValue, skipBlanks_cons (isBlankChar_word first)]
      dsimp only
      rw [if_neg (isWordChar_ne first (by decide)), if_neg (isWordChar_ne first (by decide)),
        if_neg (isWordChar_ne first (by decide)), taken, dropped, means]
      rfl

/-- Digits of a number are its only leading ones. -/
theorem digits_toDigits (n : Nat)
    : (Nat.toDigits 10 n).takeWhile Char.isDigit = Nat.toDigits 10 n
      ∧ (Nat.toDigits 10 n).dropWhile Char.isDigit = [] := by
  have all : ∀ c ∈ Nat.toDigits 10 n, c.isDigit = true :=
    fun c mem => Nat.isDigit_of_mem_toDigits (by decide) (by decide) mem
  exact ⟨List.takeWhile_eq_self_iff.mpr all, List.dropWhile_eq_nil_iff.mpr all⟩

/-- A number is printed without leading zeros, by induction on its digits. -/
theorem toDigits_leading (n : Nat)
    : (Nat.toDigits 10 n).head? = some '0' → (Nat.toDigits 10 n).length = 1 := by
  induction n using Nat.strongRecOn with
  | ind n ih =>
      rcases Nat.lt_or_ge n 10 with small | large
      · intro _
        rw [Nat.toDigits_of_lt_base small]
        rfl
      · rw [Nat.toDigits_of_base_le (by decide) large, List.head?_append_of_ne_nil _
          Nat.toDigits_ne_nil]
        intro zero
        have short := ih (n / 10) (Nat.div_lt_self (by omega) (by decide)) zero
        have single : n / 10 < 10 ^ 1 :=
          (Nat.length_toDigits_le_iff (by decide) (by decide)).mp (Nat.le_of_eq short)
        rw [Nat.pow_one] at single
        rw [Nat.toDigits_of_lt_base single, List.head?_cons] at zero
        have positive : 0 < n / 10 := Nat.div_pos large (by decide)
        generalize n / 10 = digit at *
        have nonzero : ∀ d < 10, 0 < d → Nat.digitChar d ≠ '0' := by decide
        exact absurd (Option.some.inj zero) (nonzero digit single positive)

/-- Integers are read as they are printed. -/
theorem readNumber_numeral (n : Int) : readNumber (numeral n) = some (.num n) := by
  have unsigned : ∀ m : Nat, ¬((Nat.toDigits 10 m) = []
      ∨ (Nat.toDigits 10 m).head? = some '0' ∧ (Nat.toDigits 10 m).length ≠ 1) := by
    rintro m (none' | ⟨zero, long⟩)
    · exact Nat.toDigits_ne_nil none'
    · exact long (toDigits_leading m zero)
  cases n with
  | ofNat m =>
      have positive : ¬(Nat.toDigits 10 m).head? = some '-' := by
        intro minus
        have digit : ('-' : Char).isDigit = true :=
          Nat.isDigit_of_mem_toDigits (by decide) (by decide) (List.mem_of_mem_head? minus)
        exact absurd digit (by decide)
      simp only [readNumber, numeral, positive, if_false, digits_toDigits, unsigned m, if_true,
        Nat.ofDigitChars_ten_toDigits]
      rfl
  | negSucc m =>
      simp only [readNumber, numeral, List.head?_cons, if_true, List.tail_cons, digits_toDigits,
        unsigned (m + 1), if_false, Nat.ofDigitChars_ten_toDigits]
      rfl

theorem isWordChar_numeral (n : Int) : ∀ c ∈ numeral n, isWordChar c = true := by
  have digits : ∀ m : Nat, ∀ c ∈ Nat.toDigits 10 m, isWordChar c = true := by
    intro m c mem
    have digit : c.isDigit = true := Nat.isDigit_of_mem_toDigits (by decide) (by decide) mem
    simp [isWordChar, Char.isAlphanum, digit]
  cases n with
  | ofNat m => exact digits m
  | negSucc m =>
      intro c mem
      rcases List.mem_cons.mp mem with rfl | later
      · decide
      · exact digits (m + 1) c later

section Respelled

variable {spelling : Char → List Char}

/-- A word is spelled as it is, by induction on it. -/
theorem Respells.word (respells : Respells spelling) {word : List Char}
    (all : ∀ c ∈ word, isWordChar c = true)
    : word.flatMap spelling = word := by
  induction word with
  | nil => rfl
  | cons c rest ih =>
      rw [List.flatMap_cons, respells.outside c (Or.inl (all c List.mem_cons_self)),
        ih (fun other mem => all other (List.mem_cons_of_mem _ mem))]
      rfl

/-- The words among the values. -/
inductive PrintsWord : Json → Prop
  | null : PrintsWord .null
  | bool (value : Bool) : PrintsWord (.bool value)
  | num (value : Int) : PrintsWord (.num value)
  | decimal {text : String} (decimal : IsDecimal text) : PrintsWord (.decimal text)

/-- A word is not empty, and is read as the value it prints. -/
theorem PrintsWord.render {value : Json} (prints : PrintsWord value)
    : value.render ≠ [] ∧ (∀ c ∈ value.render, isWordChar c = true)
      ∧ readWord value.render = some value := by
  have named : ∀ word ∈ ["null".toList, "true".toList, "false".toList], readNumber word = none := by
    decide
  have number : ∀ word value, readNumber word = some value → readWord word = some value := by
    intro word value read
    have other : ∀ name ∈ ["null".toList, "true".toList, "false".toList], word ≠ name := by
      rintro name mem rfl
      rw [named word mem] at read
      cases read
    rw [readWord, if_neg (other _ (by simp)), if_neg (other _ (by simp)),
      if_neg (other _ (by simp)), read]
  cases prints with
  | null => exact ⟨by decide, forall_of_all (by decide), rfl⟩
  | bool value => cases value <;> exact ⟨by decide, forall_of_all (by decide), rfl⟩
  | num n =>
      refine ⟨?_, isWordChar_numeral n, number _ _ (readNumber_numeral n)⟩
      rw [Json.render]
      cases n with
      | ofNat m => exact Nat.toDigits_ne_nil
      | negSucc m => exact List.cons_ne_nil _ _
  | @decimal text decimal =>
      refine ⟨?_, decimal.1, ?_⟩
      · rw [Json.render]
        intro none'
        have read := decimal.2
        rw [none'] at read
        cases read
      · rw [Json.render]
        have read := number _ _ decimal.2
        rwa [String.ofList_toList] at read

/-- The text of a value, in another spelling. -/
abbrev respelled (spelling : Char → List Char) (value : Json) : List Char :=
  value.render.flatMap spelling

/-- The texts of items behind their commas, in another spelling. -/
abbrev respelledParts (spelling : Char → List Char) (parts : List (List Char)) : List Char :=
  ([','].intercalate parts).flatMap spelling

theorem respelledParts_single (part : List Char)
    : respelledParts spelling [part] = part.flatMap spelling := by
  simp [respelledParts, List.intercalate]

theorem respelledParts_cons (respells : Respells spelling) (part next : List Char)
    (more : List (List Char))
    : respelledParts spelling (part :: next :: more)
      = part.flatMap spelling ++ ',' :: respelledParts spelling (next :: more) := by
  rw [respelledParts, intercalate_cons_cons, List.flatMap_append, List.flatMap_cons,
    respells.outside ',' (Or.inr (by simp))]
  rfl

theorem respelledParts_starts (respells : Respells spelling) (part : List Char)
    (parts : List (List Char))
    : ∃ tail, respelledParts spelling (part :: parts) = part.flatMap spelling ++ tail := by
  cases parts with
  | nil => exact ⟨[], by rw [respelledParts_single, List.append_nil]⟩
  | cons next more => exact ⟨_, respelledParts_cons respells part next more⟩

theorem respelled_arr (respells : Respells spelling) (items : List Json)
    : respelled spelling (.arr items)
      = '[' :: (respelledParts spelling (renderItems items) ++ [']']) := by
  rw [respelled, render, List.cons_append, List.flatMap_cons, List.flatMap_append,
    List.flatMap_singleton, respells.outside '[' (Or.inr (by simp)),
    respells.outside ']' (Or.inr (by simp))]
  rfl

theorem respelled_obj (respells : Respells spelling) (members : List (String × Json))
    : respelled spelling (.obj members)
      = '{' :: (respelledParts spelling (renderMembers members) ++ ['}']) := by
  rw [respelled, render, List.cons_append, List.flatMap_cons, List.flatMap_append,
    List.flatMap_singleton, respells.outside '{' (Or.inr (by simp)),
    respells.outside '}' (Or.inr (by simp))]
  rfl

/-- A member is a string, a colon and a value. -/
theorem respelled_member (respells : Respells spelling) (name : String) (value : Json)
    : ∃ inner, Spells inner name.toList
      ∧ (quote name ++ ':' :: value.render).flatMap spelling
        = '"' :: (inner ++ '"' :: ':' :: respelled spelling value) := by
  obtain ⟨inner, split, spells⟩ := respells.inside name
  refine ⟨inner, spells, ?_⟩
  rw [List.flatMap_append, split, List.flatMap_cons, respells.outside ':' (Or.inr (by simp))]
  simp

/-- The text of a value starts neither with a blank nor with a closing bracket. -/
theorem respelled_starts (respells : Respells spelling) {value : Json} (numeric : value.Numeric)
    : ∃ c more, respelled spelling value = c :: more ∧ isBlankChar c = false ∧ c ≠ ']' := by
  have word : PrintsWord value → ∃ c more, respelled spelling value = c :: more
      ∧ isBlankChar c = false ∧ c ≠ ']' := by
    intro prints
    obtain ⟨some', all, -⟩ := prints.render
    obtain ⟨c, more, split⟩ := List.exists_cons_of_ne_nil some'
    have first := all c (split ▸ List.mem_cons_self)
    exact ⟨c, more, (respells.word all).trans split, isBlankChar_word first,
      isWordChar_ne first (by decide)⟩
  cases value with
  | null => exact word .null
  | bool value => exact word (.bool value)
  | num n => exact word (.num n)
  | decimal text => exact word (.decimal numeric)
  | str text =>
      obtain ⟨inner, split, -⟩ := respells.inside text
      exact ⟨'"', _, split, by decide, by decide⟩
  | arr items => exact ⟨'[', _, respelled_arr respells items, by decide, by decide⟩
  | obj members => exact ⟨'{', _, respelled_obj respells members, by decide, by decide⟩

/-- A word is read back from its text. -/
theorem readValue_prints (respells : Respells spelling) {value : Json} (prints : PrintsWord value)
    {fuel : Nat} {rest : List Char} (ended : Ended rest)
    (enough : (respelled spelling value).length ≤ fuel)
    : readValue fuel (respelled spelling value ++ rest) = some (value, rest) := by
  obtain ⟨some', all, means⟩ := prints.render
  rw [respelled, respells.word all] at *
  obtain ⟨fuel, rfl⟩ := Nat.exists_eq_succ_of_ne_zero
    (Nat.pos_iff_ne_zero.mp (Nat.lt_of_lt_of_le (List.length_pos_of_ne_nil some') enough))
  exact readValue_word some' all means ended

theorem readValue_str (respells : Respells spelling) (text : String) (fuel : Nat)
    (rest : List Char)
    : readValue (fuel + 1) (respelled spelling (.str text) ++ rest) = some (.str text, rest) := by
  obtain ⟨inner, split, spells⟩ := respells.inside text
  rw [show respelled spelling (.str text) = '"' :: (inner ++ ['"']) from split,
    List.cons_append, List.append_assoc, List.singleton_append, readValue,
    skipBlanks_cons (by decide)]
  dsimp only
  rw [if_neg (by decide), if_neg (by decide), if_pos rfl, readString_spells spells,
    Option.map_some, String.ofList_toList]

theorem readValue_arr_nil (respells : Respells spelling) (fuel : Nat) (rest : List Char)
    : readValue (fuel + 1) (respelled spelling (.arr []) ++ rest) = some (.arr [], rest) := by
  rw [respelled_arr respells, List.cons_append, readValue, skipBlanks_cons (by decide)]
  rfl

theorem readValue_obj_nil (respells : Respells spelling) (fuel : Nat) (rest : List Char)
    : readValue (fuel + 1) (respelled spelling (.obj []) ++ rest) = some (.obj [], rest) := by
  rw [respelled_obj respells, List.cons_append, readValue, skipBlanks_cons (by decide)]
  rfl

/-- An array is read if its items are. -/
theorem readValue_arr (respells : Respells spelling) {item : Json} {items : List Json}
    (numeric : NumericItems (item :: items)) {fuel : Nat} {rest : List Char}
    (reads : readItems fuel (respelledParts spelling (renderItems (item :: items)) ++ ']' :: rest)
      = some (item :: items, rest))
    : readValue (fuel + 1) (respelled spelling (.arr (item :: items)) ++ rest)
      = some (.arr (item :: items), rest) := by
  have opens : (skipBlanks (respelledParts spelling (renderItems (item :: items))
      ++ ']' :: rest)).head? ≠ some ']' := by
    obtain ⟨c, more, split, visible, other⟩ := respelled_starts respells numeric.1
    obtain ⟨tail, starts⟩ := respelledParts_starts respells item.render (renderItems items)
    rw [renderItems, starts, show item.render.flatMap spelling = c :: more from split,
      List.cons_append, List.cons_append, skipBlanks_cons visible]
    exact fun same => other (Option.some.inj same)
  rw [respelled_arr respells, List.cons_append, List.append_assoc, List.singleton_append,
    readValue, skipBlanks_cons (by decide)]
  dsimp only
  rw [if_pos rfl, if_neg opens, reads]
  rfl

/-- An object is read if its members are. -/
theorem readValue_obj (respells : Respells spelling) {member : String × Json}
    {members : List (String × Json)} {fuel : Nat} {rest : List Char}
    (reads : readMembers fuel
      (respelledParts spelling (renderMembers (member :: members)) ++ '}' :: rest)
      = some (member :: members, rest))
    : readValue (fuel + 1) (respelled spelling (.obj (member :: members)) ++ rest)
      = some (.obj (member :: members), rest) := by
  have opens : (skipBlanks (respelledParts spelling (renderMembers (member :: members))
      ++ '}' :: rest)).head? ≠ some '}' := by
    obtain ⟨inner, -, split⟩ := respelled_member respells member.1 member.2
    obtain ⟨tail, starts⟩ := respelledParts_starts respells
      (quote member.1 ++ ':' :: member.2.render) (renderMembers members)
    rw [renderMembers, starts, split, List.cons_append, List.cons_append,
      skipBlanks_cons (by decide)]
    exact fun same => absurd (Option.some.inj same) (by decide)
  rw [respelled_obj respells, List.cons_append, List.append_assoc, List.singleton_append,
    readValue, skipBlanks_cons (by decide)]
  dsimp only
  rw [if_neg (by decide), if_pos rfl, if_neg opens, reads]
  rfl

/-- The name of a member and its colon are read. -/
theorem readMembers_cons {name : String} {inner : List Char} (spells : Spells inner name.toList)
    (fuel : Nat) (rest : List Char)
    : readMembers (fuel + 1) ('"' :: (inner ++ '"' :: ':' :: rest))
      = match readValue fuel rest with
        | none => none
        | some (value, rest) =>
            match skipBlanks rest with
            | [] => none
            | c :: rest =>
                if c = ',' then
                  (readMembers fuel rest).map (fun read => ((name, value) :: read.1, read.2))
                else if c = '}' then some ([(name, value)], rest)
                else none := by
  rw [readMembers, skipBlanks_cons (by decide), if_neg (by simp), List.tail_cons,
    readString_spells spells]
  dsimp only
  rw [skipBlanks_cons (by decide), if_neg (by simp), List.tail_cons, String.ofList_toList]

/-- Values, items and members are read back from their texts, by induction on the fuel. -/
theorem readers_respelled (respells : Respells spelling) (fuel : Nat)
    : (∀ (value : Json) (rest : List Char), value.Numeric → Ended rest →
        (respelled spelling value).length ≤ fuel →
        readValue fuel (respelled spelling value ++ rest) = some (value, rest))
      ∧ (∀ (item : Json) (items : List Json) (rest : List Char), NumericItems (item :: items) →
        (respelledParts spelling (renderItems (item :: items))).length < fuel →
        readItems fuel (respelledParts spelling (renderItems (item :: items)) ++ ']' :: rest)
          = some (item :: items, rest))
      ∧ ∀ (name : String) (value : Json) (members : List (String × Json)) (rest : List Char),
        NumericMembers ((name, value) :: members) →
        (respelledParts spelling (renderMembers ((name, value) :: members))).length < fuel →
        readMembers fuel (respelledParts spelling (renderMembers ((name, value) :: members))
          ++ '}' :: rest) = some ((name, value) :: members, rest) := by
  induction fuel with
  | zero =>
      refine ⟨fun value rest numeric _ enough => ?_, fun _ _ _ _ enough => ?_,
        fun _ _ _ _ _ enough => ?_⟩
      · obtain ⟨c, more, split, -⟩ := respelled_starts respells numeric
        rw [split] at enough
        exact absurd enough (Nat.not_succ_le_zero _)
      · exact absurd enough (Nat.not_lt_zero _)
      · exact absurd enough (Nat.not_lt_zero _)
  | succ fuel ih =>
      obtain ⟨readsValue, readsItems, readsMembers⟩ := ih
      refine ⟨fun value rest numeric ended enough => ?_,
        fun item items rest numeric enough => ?_,
        fun name value members rest numeric enough => ?_⟩
      · cases value with
        | null => exact readValue_prints respells .null ended enough
        | bool value => exact readValue_prints respells (.bool value) ended enough
        | num n => exact readValue_prints respells (.num n) ended enough
        | decimal text => exact readValue_prints respells (.decimal numeric) ended enough
        | str text => exact readValue_str respells text fuel rest
        | arr items =>
            cases items with
            | nil => exact readValue_arr_nil respells fuel rest
            | cons item items =>
                rw [respelled_arr respells, List.length_cons, List.length_append] at enough
                exact readValue_arr respells numeric
                  (readsItems item items rest numeric (Nat.le_of_succ_le_succ enough))
        | obj members =>
            cases members with
            | nil => exact readValue_obj_nil respells fuel rest
            | cons member members =>
                rw [respelled_obj respells, List.length_cons, List.length_append] at enough
                exact readValue_obj respells
                  (readsMembers member.1 member.2 members rest numeric
                    (Nat.le_of_succ_le_succ enough))
      · have ended : ∀ c, isWordChar c = false → ∀ rest, Ended (c :: rest) :=
          fun c ends rest => ended_cons ends rest
        cases items with
        | nil =>
            rw [renderItems, renderItems, respelledParts_single] at enough ⊢
            rw [readItems, readsValue item (']' :: rest) numeric.1 (ended ']' (by decide) rest)
              (Nat.le_of_lt_succ enough)]
            dsimp only
            rw [skipBlanks_cons (by decide)]
            rfl
        | cons next more =>
            rw [renderItems, renderItems, respelledParts_cons respells, ← renderItems]
              at enough ⊢
            rw [List.length_append, List.length_cons] at enough
            change (respelled spelling item).length + _ < _ at enough
            rw [List.append_assoc, List.cons_append, readItems,
              readsValue item _ numeric.1 (ended ',' (by decide) _) (by omega)]
            dsimp only
            rw [skipBlanks_cons (by decide)]
            dsimp only
            rw [if_pos rfl, readsItems next more rest numeric.2 (by omega)]
            rfl
      · obtain ⟨inner, spells, split⟩ := respelled_member respells name value
        cases members with
        | nil =>
            rw [renderMembers, renderMembers, respelledParts_single, split] at enough ⊢
            simp only [List.length_cons, List.length_append] at enough
            simp only [List.cons_append, List.append_assoc]
            rw [readMembers_cons spells, readsValue value ('}' :: rest) numeric.1
              (ended_cons (by decide) _) (by omega)]
            dsimp only
            rw [skipBlanks_cons (by decide)]
            rfl
        | cons next more =>
            rw [renderMembers, renderMembers, respelledParts_cons respells, ← renderMembers,
              split] at enough ⊢
            simp only [List.length_cons, List.length_append] at enough
            simp only [List.cons_append, List.append_assoc]
            rw [readMembers_cons spells, readsValue value _ numeric.1
              (ended_cons (by decide) _) (by omega)]
            dsimp only
            rw [skipBlanks_cons (by decide)]
            dsimp only
            rw [if_pos rfl, readsMembers next.1 next.2 more rest numeric.2 (by omega)]
            rfl

/-- A value is read back from its text, whatever the spelling of its strings. -/
theorem read_respelled (respells : Respells spelling) {value : Json} (numeric : value.Numeric)
    : read (respelled spelling value) = some value := by
  have whole := (readers_respelled respells ((respelled spelling value).length + 1)).1 value []
    numeric (fun c mem => absurd mem (Option.not_mem_none c)) (Nat.le_succ _)
  rw [List.append_nil] at whole
  rw [read, whole]
  rfl

end Respelled

/-- The characters stand for themselves. -/
theorem respells_self : Respells (fun c => [c]) := by
  refine ⟨fun _ _ => rfl, fun text => ?_⟩
  rw [List.flatMap_singleton']
  exact ⟨text.toList.flatMap escape, rfl, spells_flatMap_escape text.toList⟩

/-- A value is read back from its text. -/
theorem read_render {value : Json} (numeric : value.Numeric) : read value.render = some value := by
  have whole := read_respelled respells_self numeric
  rwa [respelled, List.flatMap_singleton'] at whole

/-- Blanks may follow the text. -/
theorem read_render_blanks {value : Json} (numeric : value.Numeric) {blanks : List Char}
    (blank : ∀ c ∈ blanks, isBlankChar c = true)
    : read (value.render ++ blanks) = some value := by
  have ended : Ended blanks := by
    intro c mem
    by_contra word
    have visible := isBlankChar_word (Bool.not_eq_false _ ▸ word)
    rw [blank c (List.mem_of_mem_head? mem)] at visible
    cases visible
  have whole := (readers_respelled respells_self ((value.render ++ blanks).length + 1)).1 value
    blanks numeric ended (by rw [respelled, List.flatMap_singleton', List.length_append]; omega)
  have skipped : skipBlanks blanks = [] := List.dropWhile_eq_nil_iff.mpr blank
  rw [respelled, List.flatMap_singleton'] at whole
  rw [read, whole]
  exact if_pos skipped

end Codrik.Encoding.Json

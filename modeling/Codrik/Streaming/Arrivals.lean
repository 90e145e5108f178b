import Mathlib.Algebra.Order.Group.Nat
import Mathlib.Data.List.Basic

/-! Bytes that arrive in pieces, and reads of a given number of them. How the pieces are cut is of
no consequence to what is read.
-/

namespace Codrik.Streaming

/-- What a reader waits for: bytes as they arrive, an error of the socket, or its deadline. The
stream ends after the last of them.
-/
inductive Arrival
  | bytes (chunk : List UInt8)
  | failure (error : String)
  | deadline
deriving DecidableEq

inductive ReadError
  | io (error : String)
  | deadline
deriving DecidableEq

/-- `read_exact`: no bytes at all are the end of the stream. -/
def readExact : Nat → List Arrival → Except ReadError (List UInt8) × List Arrival
  | 0, arrivals => (.ok [], arrivals)
  | _ + 1, [] => (.error (.io "early eof"), [])
  | n + 1, .bytes chunk :: rest =>
      if chunk = [] then
        (.error (.io "early eof"), rest)
      else if chunk.length ≤ n + 1 then
        let (result, rest) := readExact (n + 1 - chunk.length) rest
        (result.map (chunk ++ ·), rest)
      else
        (.ok (chunk.take (n + 1)), .bytes (chunk.drop (n + 1)) :: rest)
  | _ + 1, .failure error :: rest => (.error (.io error), rest)
  | _ + 1, .deadline :: rest => (.error .deadline, rest)

/-- The bytes that come before the stream ends, fails or stalls. -/
def arrived : List Arrival → List UInt8
  | [] => []
  | .bytes chunk :: rest => if chunk = [] then [] else chunk ++ arrived rest
  | .failure _ :: _ => []
  | .deadline :: _ => []

/-- All bytes that are to come, also after a failure. -/
def volume : List Arrival → Nat
  | [] => 0
  | .bytes chunk :: rest => chunk.length + volume rest
  | .failure _ :: rest => volume rest
  | .deadline :: rest => volume rest

variable {arrivals : List Arrival} {n : Nat}

/-- Bytes that come are read, however they are cut, by induction on the arrivals. -/
theorem readExact_of_le (enough : n ≤ (arrived arrivals).length)
    : ∃ rest, readExact n arrivals = (.ok ((arrived arrivals).take n), rest)
      ∧ arrived rest = (arrived arrivals).drop n := by
  induction arrivals generalizing n with
  | nil =>
      obtain rfl : n = 0 := Nat.le_zero.mp enough
      exact ⟨[], rfl, rfl⟩
  | cons arrival rest ih =>
      cases n with
      | zero => exact ⟨arrival :: rest, rfl, rfl⟩
      | succ n =>
          cases arrival with
          | failure _ => exact absurd enough (Nat.not_succ_le_zero n)
          | deadline => exact absurd enough (Nat.not_succ_le_zero n)
          | bytes chunk =>
              by_cases empty : chunk = []
              · simp [arrived, empty] at enough
              · simp only [arrived, if_neg empty] at enough ⊢
                by_cases fits : chunk.length ≤ n + 1
                · have more : n + 1 - chunk.length ≤ (arrived rest).length := by
                    rw [List.length_append] at enough
                    omega
                  obtain ⟨left, read, after⟩ := ih more
                  refine ⟨left, ?_, ?_⟩
                  · simp only [readExact, if_neg empty, if_pos fits, read, Except.map]
                    rw [List.take_append, List.take_of_length_le fits]
                  · rw [after, List.drop_append, List.drop_of_length_le fits, List.nil_append]
                · have within : n + 1 ≤ chunk.length := Nat.le_of_not_le fits
                  refine ⟨.bytes (chunk.drop (n + 1)) :: rest, ?_, ?_⟩
                  · simp only [readExact, if_neg empty, if_neg fits]
                    rw [List.take_append_of_le_length within]
                  · have more : chunk.drop (n + 1) ≠ [] := by
                      rw [Ne, List.drop_eq_nil_iff]
                      exact fits
                    rw [arrived, if_neg more, List.drop_append_of_le_length within]

/-- What is read has come, by induction on the arrivals. -/
theorem readExact_ok {bytes : List UInt8} (read : (readExact n arrivals).1 = .ok bytes)
    : n ≤ (arrived arrivals).length := by
  induction arrivals generalizing n bytes with
  | nil =>
      cases n with
      | zero => exact Nat.zero_le _
      | succ n => simp [readExact] at read
  | cons arrival rest ih =>
      cases n with
      | zero => exact Nat.zero_le _
      | succ n =>
          cases arrival with
          | failure _ => simp [readExact] at read
          | deadline => simp [readExact] at read
          | bytes chunk =>
              simp only [readExact] at read
              split at read
              · simp at read
              · rename_i some'
                rw [arrived, if_neg some', List.length_append]
                split at read
                · rename_i fits
                  cases inner : (readExact (n + 1 - chunk.length) rest).1 with
                  | error _ => simp [inner, Except.map] at read
                  | ok _ =>
                      have := ih inner
                      omega
                · omega

/-- What is read comes before what is left. -/
theorem readExact_eq_ok {bytes : List UInt8} {rest : List Arrival}
    (read : readExact n arrivals = (.ok bytes, rest))
    : bytes.length = n ∧ arrived arrivals = bytes ++ arrived rest := by
  have enough : n ≤ (arrived arrivals).length := readExact_ok (congrArg Prod.fst read)
  obtain ⟨_, read', after⟩ := readExact_of_le enough
  cases read.symm.trans read'
  rw [after, List.take_append_drop, List.length_take, Nat.min_eq_left enough]
  exact ⟨rfl, rfl⟩

/-- A read takes no more than it asks for, by induction on the arrivals. -/
theorem volume_readExact (n : Nat) (arrivals : List Arrival)
    : volume (readExact n arrivals).2 ≤ volume arrivals
      ∧ volume arrivals ≤ volume (readExact n arrivals).2 + n := by
  induction arrivals generalizing n with
  | nil => cases n <;> exact ⟨Nat.le_refl _, Nat.zero_le _⟩
  | cons arrival rest ih =>
      cases n with
      | zero => exact ⟨Nat.le_refl _, Nat.le_refl _⟩
      | succ n =>
          cases arrival with
          | failure _ => exact ⟨Nat.le_refl _, Nat.le_add_right _ _⟩
          | deadline => exact ⟨Nat.le_refl _, Nat.le_add_right _ _⟩
          | bytes chunk =>
              have step := ih (n + 1 - chunk.length)
              simp only [readExact]
              split
              · rename_i empty
                simp [volume, empty]
              · split <;> simp only [volume, List.length_drop] <;> omega

end Codrik.Streaming

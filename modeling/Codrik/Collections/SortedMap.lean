import Mathlib.Data.List.Sort
import Mathlib.Order.Lattice

/-! Maps as lists of entries in the order of their keys. -/

namespace Codrik.Collections

variable {κ υ : Type} [LinearOrder κ]

/-- The entries of a map, in the order of their keys. -/
structure SortedMap (κ υ : Type) [LinearOrder κ] where
  entries : List (κ × υ)
  sorted : entries.Pairwise (fun a b => a.1 < b.1)

/-- The entries with one for `key` added or replaced. -/
def insertEntry (key : κ) (value : υ) : List (κ × υ) → List (κ × υ)
  | [] => [(key, value)]
  | entry :: rest =>
      if key < entry.1 then (key, value) :: entry :: rest
      else if key = entry.1 then (key, value) :: rest
      else entry :: insertEntry key value rest

/-- An entry after the insertion is the new one or an old one of another key, by induction on
the entries.
-/
theorem mem_insertEntry {key : κ} {value : υ} {entries : List (κ × υ)}
    (sorted : entries.Pairwise (fun a b => a.1 < b.1)) {entry : κ × υ}
    : entry ∈ insertEntry key value entries ↔
      entry = (key, value) ∨ entry ∈ entries ∧ entry.1 ≠ key := by
  induction entries with
  | nil => simp [insertEntry]
  | cons head rest ih =>
      have below := fun entry => @List.rel_of_pairwise_cons _ head rest _ sorted entry
      rw [insertEntry]
      split
      · rename_i before
        rw [List.mem_cons]
        refine or_congr_right ⟨fun mem => ⟨mem, ?_⟩, And.left⟩
        rcases List.mem_cons.mp mem with rfl | later
        · exact before.ne'
        · exact (before.trans (below _ later)).ne'
      · rename_i notBefore
        split
        · rename_i same
          rw [List.mem_cons, List.mem_cons]
          refine or_congr_right ⟨fun mem => ⟨Or.inr mem, ?_⟩, ?_⟩
          · rw [same]
            exact (below _ mem).ne'
          · rintro ⟨rfl | mem, other⟩
            · exact absurd same.symm other
            · exact mem
        · rename_i other
          rw [List.mem_cons, List.mem_cons, ih sorted.of_cons]
          constructor
          · rintro (rfl | new | ⟨mem, different⟩)
            · exact Or.inr ⟨Or.inl rfl, Ne.symm other⟩
            · exact Or.inl new
            · exact Or.inr ⟨Or.inr mem, different⟩
          · rintro (new | ⟨rfl | mem, different⟩)
            · exact Or.inr (Or.inl new)
            · exact Or.inl rfl
            · exact Or.inr (Or.inr ⟨mem, different⟩)

/-- The insertion keeps the entries in order, by induction on them. -/
theorem sorted_insertEntry {key : κ} {value : υ} {entries : List (κ × υ)}
    (sorted : entries.Pairwise (fun a b => a.1 < b.1))
    : (insertEntry key value entries).Pairwise (fun a b => a.1 < b.1) := by
  induction entries with
  | nil => exact List.pairwise_singleton _ _
  | cons head rest ih =>
      have below := fun entry => @List.rel_of_pairwise_cons _ head rest _ sorted entry
      rw [insertEntry]
      split
      · rename_i before
        refine List.Pairwise.cons (fun entry mem => ?_) sorted
        rcases List.mem_cons.mp mem with rfl | later
        · exact before
        · exact before.trans (below entry later)
      · rename_i notBefore
        split
        · rename_i same
          refine List.Pairwise.cons (fun entry mem => ?_) sorted.of_cons
          change key < entry.1
          rw [same]
          exact below entry mem
        · rename_i other
          refine List.Pairwise.cons (fun entry mem => ?_) (ih sorted.of_cons)
          rcases (mem_insertEntry sorted.of_cons).mp mem with rfl | ⟨old, -⟩
          · exact lt_of_le_of_ne (not_lt.mp notBefore) (Ne.symm other)
          · exact below entry old

namespace SortedMap

def empty : SortedMap κ υ := ⟨[], List.Pairwise.nil⟩

def find? (m : SortedMap κ υ) (key : κ) : Option υ :=
  (m.entries.find? (fun entry => entry.1 = key)).map (·.2)

def insert (m : SortedMap κ υ) (key : κ) (value : υ) : SortedMap κ υ :=
  ⟨insertEntry key value m.entries, sorted_insertEntry m.sorted⟩

/-- The values of a map, in the order of their keys. -/
def values (m : SortedMap κ υ) : List υ := m.entries.map (·.2)

@[simp] theorem find?_empty (key : κ) : (empty : SortedMap κ υ).find? key = none := rfl

/-- Entries of one key are equal. -/
theorem eq_of_key {m : SortedMap κ υ} {a b : κ × υ} (first : a ∈ m.entries)
    (second : b ∈ m.entries) (same : a.1 = b.1)
    : a = b := by
  by_contra different
  have apart := List.Pairwise.forall_of_forall_of_flip (R := fun a b => a ≠ b → a.1 ≠ b.1)
    (fun x _ other => absurd rfl other) (m.sorted.imp (fun less _ => less.ne))
    (m.sorted.imp (fun less _ => less.ne'))
  exact apart first second different same

theorem find?_eq_some {m : SortedMap κ υ} {key : κ} {value : υ}
    : m.find? key = some value ↔ (key, value) ∈ m.entries := by
  rw [find?, Option.map_eq_some_iff]
  constructor
  · rintro ⟨entry, found, rfl⟩
    have same := List.find?_some found
    rw [decide_eq_true_eq] at same
    rw [← same]
    exact List.mem_of_find?_eq_some found
  · intro mem
    have listed : (m.entries.find? (fun entry => entry.1 = key)).isSome := by
      rw [List.find?_isSome]
      exact ⟨(key, value), mem, decide_eq_true rfl⟩
    obtain ⟨entry, found⟩ := Option.isSome_iff_exists.mp listed
    have same := List.find?_some found
    rw [decide_eq_true_eq] at same
    exact ⟨entry, found, congrArg Prod.snd (eq_of_key (List.mem_of_find?_eq_some found) mem same)⟩

@[simp] theorem find?_insert {m : SortedMap κ υ} {key other : κ} {value : υ}
    : (m.insert key value).find? other = if other = key then some value else m.find? other := by
  apply Option.ext
  intro found
  rw [find?_eq_some, insert, mem_insertEntry m.sorted, ← find?_eq_some, Prod.mk.injEq]
  split
  · rename_i same
    simp [same, eq_comm]
  · rename_i different
    simp [different]

/-- Entries in order have no duplicates. -/
theorem nodup_of_sorted {entries : List (κ × υ)}
    (sorted : entries.Pairwise (fun a b => a.1 < b.1))
    : entries.Nodup :=
  sorted.imp (fun less same => less.ne (congrArg Prod.fst same))

/-- The entries of a map are those of any increasing list of keys that contains its own. -/
theorem entries_eq {m : SortedMap κ υ} {keys : List κ} (increasing : keys.Pairwise (· < ·))
    (covered : ∀ key value, m.find? key = some value → key ∈ keys)
    : m.entries = keys.filterMap (fun key => (m.find? key).map (key, ·)) := by
  have sorted : (keys.filterMap (fun key => (m.find? key).map (key, ·))).Pairwise
      (fun a b => a.1 < b.1) := by
    rw [List.pairwise_filterMap]
    refine increasing.imp (fun {first second} less a found b found' => ?_)
    obtain ⟨_, -, rfl⟩ := Option.map_eq_some_iff.mp found
    obtain ⟨_, -, rfl⟩ := Option.map_eq_some_iff.mp found'
    exact less
  refine List.Perm.eq_of_pairwise (fun a b _ _ less more => absurd less (lt_asymm more))
    m.sorted sorted ?_
  rw [List.perm_ext_iff_of_nodup (nodup_of_sorted m.sorted) (nodup_of_sorted sorted)]
  rintro ⟨key, value⟩
  rw [List.mem_filterMap, ← find?_eq_some]
  constructor
  · intro found
    exact ⟨key, covered key value found, by rw [found]; rfl⟩
  · rintro ⟨key', -, found⟩
    obtain ⟨value', found, same⟩ := Option.map_eq_some_iff.mp found
    cases same
    exact found

theorem values_eq {m : SortedMap κ υ} {keys : List κ} (increasing : keys.Pairwise (· < ·))
    (covered : ∀ key value, m.find? key = some value → key ∈ keys)
    : m.values = keys.filterMap m.find? := by
  rw [values, entries_eq increasing covered, List.map_filterMap]
  refine List.filterMap_congr (fun key _ => ?_)
  rw [Option.map_map]
  exact Option.map_id'

end SortedMap

end Codrik.Collections

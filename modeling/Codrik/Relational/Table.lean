import Mathlib.Data.List.MinMax
import Mathlib.Data.List.Pairwise
import Mathlib.Data.List.Sort
import Mathlib.Order.Basic

/-! Relational tables whose uniqueness constraints are part of their type.
A table is the list of its rows in insertion order; rows that a PRIMARY KEY or UNIQUE
constraint keeps apart can never be stored together.
-/

namespace Codrik.Relational

/-- `Clash a b` says that a PRIMARY KEY or UNIQUE constraint forbids rows `a` and `b`
from being stored together.
-/
class Constrained (ρ : Type) where
  Clash : ρ → ρ → Prop
  symm : ∀ {a b}, Clash a b → Clash b a
  [decidable : DecidableRel Clash]

instance {ρ : Type} [Constrained ρ] (a b : ρ) : Decidable (Constrained.Clash a b) :=
  Constrained.decidable a b

/-- Rows in insertion order, pairwise compatible with the table's constraints. -/
structure Table (ρ : Type) [Constrained ρ] where
  rows : List ρ
  distinct : rows.Pairwise (fun a b => ¬Constrained.Clash a b)

namespace Table

variable {ρ : Type} [Constrained ρ]

instance : Membership ρ (Table ρ) := ⟨fun t r => r ∈ t.rows⟩

instance : EmptyCollection (Table ρ) := ⟨⟨[], .nil⟩⟩

theorem mem_rows {t : Table ρ} {r : ρ} : r ∈ t.rows ↔ r ∈ t := Iff.rfl

@[simp] theorem not_mem_empty (r : ρ) : r ∉ (∅ : Table ρ) := List.not_mem_nil

@[simp] theorem rows_empty : (∅ : Table ρ).rows = [] := rfl

instance [DecidableEq ρ] (t : Table ρ) (r : ρ) : Decidable (r ∈ t) :=
  inferInstanceAs (Decidable (r ∈ t.rows))

instance {p : ρ → Prop} [DecidablePred p] (t : Table ρ) : Decidable (∃ r ∈ t, p r) :=
  inferInstanceAs (Decidable (∃ r ∈ t.rows, p r))

instance {p : ρ → Prop} [DecidablePred p] (t : Table ρ) : Decidable (∀ r ∈ t, p r) :=
  inferInstanceAs (Decidable (∀ r ∈ t.rows, p r))

-----------------------------------------------------------------------------------------
-- Lookups
-----------------------------------------------------------------------------------------

/-- The first stored row satisfying `p`. -/
def find? (t : Table ρ) (p : ρ → Prop) [DecidablePred p] : Option ρ :=
  t.rows.find? (fun r => decide (p r))

/-- The stored rows satisfying `p`, in insertion order. -/
def select (t : Table ρ) (p : ρ → Prop) [DecidablePred p] : List ρ :=
  t.rows.filter (fun r => decide (p r))

/-- The number of stored rows satisfying `p`. -/
def count (t : Table ρ) (p : ρ → Prop) [DecidablePred p] : Nat :=
  (t.select p).length

theorem mem_of_find? {t : Table ρ} {p : ρ → Prop} [DecidablePred p] {r : ρ}
    (found : t.find? p = some r)
    : r ∈ t :=
  List.mem_of_find?_eq_some found

theorem of_find? {t : Table ρ} {p : ρ → Prop} [DecidablePred p] {r : ρ}
    (found : t.find? p = some r)
    : p r := by
  simpa using List.find?_some found

/-- A lookup finds a stored row that satisfies its predicate. -/
theorem find?_some {t : Table ρ} {p : ρ → Prop} [DecidablePred p] {r : ρ}
    (found : t.find? p = some r)
    : r ∈ t ∧ p r :=
  ⟨mem_of_find? found, of_find? found⟩

theorem find?_eq_none {t : Table ρ} {p : ρ → Prop} [DecidablePred p]
    : t.find? p = none ↔ ∀ r ∈ t, ¬p r := by
  simp only [find?, List.find?_eq_none, decide_eq_true_eq]
  rfl

/-- Stored rows that clash are the same row, since the table keeps clashing rows apart. -/
theorem eq_of_clash {t : Table ρ} {a b : ρ} (ha : a ∈ t) (hb : b ∈ t)
    (clash : Constrained.Clash a b)
    : a = b := by
  by_contra ne
  have : Std.Symm (fun a b : ρ => ¬Constrained.Clash a b) :=
    ⟨fun _ _ apart c => apart (Constrained.symm c)⟩
  exact t.distinct.forall ha hb ne clash

/-- A lookup by a predicate that determines the row finds that row. -/
theorem find?_eq_some_of_unique {t : Table ρ} {p : ρ → Prop} [DecidablePred p] {r : ρ}
    (mem : r ∈ t) (hp : p r) (unique : ∀ a ∈ t, p a → a = r)
    : t.find? p = some r := by
  cases found : t.find? p with
  | none => exact absurd hp (find?_eq_none.mp found r mem)
  | some a => rw [unique a (mem_of_find? found) (of_find? found)]

theorem find?_eq_of_iff {t : Table ρ} {p q : ρ → Prop} [DecidablePred p] [DecidablePred q]
    (same : ∀ r, p r ↔ q r)
    : t.find? p = t.find? q := by
  simp only [find?, same]

/-- A lookup by a key depends on the rows of that key only. -/
theorem find?_congr {t u : Table ρ} {p : ρ → Prop} [DecidablePred p]
    (key : ∀ a b, p a → p b → Constrained.Clash a b) (same : ∀ r, p r → (r ∈ t ↔ r ∈ u))
    : t.find? p = u.find? p := by
  cases found : u.find? p with
  | none =>
      rw [find?_eq_none] at found ⊢
      exact fun r stored hit => found r ((same r hit).mp stored) hit
  | some r =>
      obtain ⟨stored, hit⟩ := find?_some found
      exact find?_eq_some_of_unique ((same r hit).mpr stored) hit
        (fun a stored' hit' => eq_of_clash stored' ((same r hit).mpr stored) (key a r hit' hit))

@[simp] theorem mem_select {t : Table ρ} {p : ρ → Prop} [DecidablePred p] {r : ρ}
    : r ∈ t.select p ↔ r ∈ t ∧ p r := by
  simp only [select, List.mem_filter, decide_eq_true_eq]
  rfl

/-- A statement that changed one row found one. -/
theorem exists_of_count {t : Table ρ} {p : ρ → Prop} [DecidablePred p] (one : t.count p = 1)
    : ∃ r ∈ t, p r := by
  obtain ⟨r, selected⟩ := List.length_eq_one_iff.mp one
  exact ⟨r, mem_select.mp (selected ▸ List.mem_singleton_self r)⟩

/-- A statement whose filter clashes with itself changes one row at most. -/
theorem count_eq_one {t : Table ρ} {p : ρ → Prop} [DecidablePred p] {r : ρ} (mem : r ∈ t)
    (hp : p r) (clash : ∀ a b, p a → p b → Constrained.Clash a b)
    : t.count p = 1 := by
  have apart : (t.select p).Pairwise (fun a b => ¬Constrained.Clash a b) := t.distinct.filter _
  have selected : r ∈ t.select p := mem_select.mpr ⟨mem, hp⟩
  have holds : ∀ a ∈ t.select p, p a := fun a chosen => (mem_select.mp chosen).2
  unfold count
  rcases rows : t.select p with _ | ⟨a, _ | ⟨b, rest⟩⟩
  · rw [rows] at selected
    exact absurd selected List.not_mem_nil
  · rfl
  · rw [rows] at apart holds
    have first := (List.pairwise_cons.mp apart).1 b List.mem_cons_self
    exact absurd (clash a b (holds a List.mem_cons_self)
      (holds b (List.mem_cons_of_mem a List.mem_cons_self))) first

section Ordered

variable {κ : Type} [LinearOrder κ]

/-- SELECT ... ORDER BY key LIMIT 1 -/
def first? (t : Table ρ) (p : ρ → Prop) [DecidablePred p] (key : ρ → κ) : Option ρ :=
  (t.select p).argmin key

/-- SELECT ... ORDER BY key -/
def selectOrdered (t : Table ρ) (p : ρ → Prop) [DecidablePred p] (key : ρ → κ) : List ρ :=
  (t.select p).insertionSort (fun a b => key a ≤ key b)

theorem mem_of_first? {t : Table ρ} {p : ρ → Prop} [DecidablePred p] {key : ρ → κ} {r : ρ}
    (found : t.first? p key = some r)
    : r ∈ t ∧ p r :=
  mem_select.mp (List.argmin_mem found)

theorem first?_le {t : Table ρ} {p : ρ → Prop} [DecidablePred p] {key : ρ → κ} {r a : ρ}
    (found : t.first? p key = some r) (mem : a ∈ t) (hp : p a)
    : key r ≤ key a :=
  List.le_of_mem_argmin (mem_select.mpr ⟨mem, hp⟩) found

theorem first?_eq_none {t : Table ρ} {p : ρ → Prop} [DecidablePred p] {key : ρ → κ}
    : t.first? p key = none ↔ ∀ r ∈ t, ¬p r := by
  simp only [first?, List.argmin_eq_none, List.eq_nil_iff_forall_not_mem, mem_select, not_and]

theorem first?_isSome {t : Table ρ} {p : ρ → Prop} [DecidablePred p] {key : ρ → κ} {r : ρ}
    (mem : r ∈ t) (hp : p r)
    : ∃ a, t.first? p key = some a := by
  cases found : t.first? p key with
  | none => exact absurd hp (first?_eq_none.mp found r mem)
  | some a => exact ⟨a, rfl⟩

/-- A row strictly below every other candidate is the one selected. -/
theorem first?_eq_some_of_lt {t : Table ρ} {p : ρ → Prop} [DecidablePred p] {key : ρ → κ}
    {r : ρ} (mem : r ∈ t) (hp : p r) (least : ∀ a ∈ t, p a → a ≠ r → key r < key a)
    : t.first? p key = some r := by
  obtain ⟨a, found⟩ : ∃ a, t.first? p key = some a := first?_isSome mem hp
  have stored := mem_of_first? found
  by_cases same : a = r
  · rw [found, same]
  · exact absurd (first?_le found mem hp) (not_le_of_gt (least a stored.1 stored.2 same))

@[simp] theorem mem_selectOrdered {t : Table ρ} {p : ρ → Prop} [DecidablePred p]
    {key : ρ → κ} {r : ρ}
    : r ∈ t.selectOrdered p key ↔ r ∈ t ∧ p r := by
  simp only [selectOrdered, List.mem_insertionSort, mem_select]

theorem length_selectOrdered_le (t : Table ρ) (p : ρ → Prop) [DecidablePred p] (key : ρ → κ)
    : (t.selectOrdered p key).length ≤ t.rows.length := by
  rw [selectOrdered, List.length_insertionSort]
  exact List.length_filter_le _ _

/-- ORDER BY puts the rows in the order of their keys. -/
theorem pairwise_selectOrdered {t : Table ρ} {p : ρ → Prop} [DecidablePred p] {key : ρ → κ}
    : (t.selectOrdered p key).Pairwise (fun a b => key a ≤ key b) := by
  have : Std.Total (fun a b : ρ => key a ≤ key b) := ⟨fun a b => le_total (key a) (key b)⟩
  have : IsTrans ρ (fun a b => key a ≤ key b) := ⟨fun _ _ _ => le_trans⟩
  exact List.pairwise_insertionSort _ _

/-- The rows of an ordered query keep apart as those of the table do. -/
theorem distinct_selectOrdered {t : Table ρ} {p : ρ → Prop} [DecidablePred p] {key : ρ → κ}
    : (t.selectOrdered p key).Pairwise (fun a b => ¬Constrained.Clash a b) :=
  ((List.perm_insertionSort _ _).pairwise_iff
    (fun apart clash => apart (Constrained.symm clash))).mpr (t.distinct.filter _)

/-- LIMIT n cuts off no row below one that it keeps. -/
theorem key_le_of_take {t : Table ρ} {p : ρ → Prop} [DecidablePred p] {key : ρ → κ} {n : Nat}
    {kept cut : ρ} (taken : kept ∈ (t.selectOrdered p key).take n) (mem : cut ∈ t)
    (hp : p cut) (beyond : cut ∉ (t.selectOrdered p key).take n)
    : key kept ≤ key cut := by
  have selected : cut ∈ t.selectOrdered p key := mem_selectOrdered.mpr ⟨mem, hp⟩
  have sorted : (t.selectOrdered p key).Pairwise (fun a b => key a ≤ key b) :=
    pairwise_selectOrdered
  rw [← List.take_append_drop n (t.selectOrdered p key)] at selected sorted
  exact (List.pairwise_append.mp sorted).2.2 kept taken cut
    ((List.mem_append.mp selected).resolve_left beyond)

/-- Rows that a key tells apart come out of an ordered query by increasing keys. -/
theorem pairwise_lt_selectOrdered {t : Table ρ} {p : ρ → Prop} [DecidablePred p] {key : ρ → κ}
    (unique : ∀ a ∈ t, ∀ b ∈ t, p a → p b → key a = key b → Constrained.Clash a b)
    : (t.selectOrdered p key).Pairwise (fun a b => key a < key b) := by
  refine (pairwise_selectOrdered.and distinct_selectOrdered).imp_of_mem ?_
  intro a b aMem bMem ordered
  obtain ⟨aStored, pa⟩ := mem_selectOrdered.mp aMem
  obtain ⟨bStored, pb⟩ := mem_selectOrdered.mp bMem
  exact lt_of_le_of_ne ordered.1
    (fun same => ordered.2 (unique a aStored b bStored pa pb same))

/-- An ordered query whose key tells the rows apart depends on the rows alone. -/
theorem selectOrdered_congr {t u : Table ρ} {p : ρ → Prop} [DecidablePred p] {key : ρ → κ}
    (unique : ∀ a b, p a → p b → key a = key b → Constrained.Clash a b)
    (same : ∀ a, p a → (a ∈ t ↔ a ∈ u))
    : t.selectOrdered p key = u.selectOrdered p key := by
  have asymm : Std.Asymm (fun a b : ρ => key a < key b) := ⟨fun _ _ => lt_asymm⟩
  have first := pairwise_lt_selectOrdered (t := t) (fun a _ b _ => unique a b)
  have second := pairwise_lt_selectOrdered (t := u) (fun a _ b _ => unique a b)
  refine first.eq_of_mem_iff second (fun a => ?_)
  simp only [mem_selectOrdered]
  constructor
  · exact fun mem => ⟨(same a mem.2).mp mem.1, mem.2⟩
  · exact fun mem => ⟨(same a mem.2).mpr mem.1, mem.2⟩

/-- Rows counted by a key come out of an ordered query as they count. -/
theorem selectOrdered_count {t : Table ρ} {p : ρ → Prop} [DecidablePred p] {key : ρ → Nat}
    {n : Nat}
    (unique : ∀ a ∈ t, ∀ b ∈ t, p a → p b → key a = key b → Constrained.Clash a b)
    (below : ∀ a ∈ t, p a → key a < n) (complete : ∀ k < n, ∃ a ∈ t, p a ∧ key a = k)
    : (t.selectOrdered p key).map key = List.range n := by
  have increasing : ((t.selectOrdered p key).map key).Pairwise (· < ·) :=
    List.pairwise_map.mpr (pairwise_lt_selectOrdered unique)
  refine increasing.eq_of_mem_iff List.pairwise_lt_range (fun k => ?_)
  simp only [List.mem_map, mem_selectOrdered, List.mem_range]
  constructor
  · intro counted
    obtain ⟨a, ⟨stored, pa⟩, rfl⟩ := counted
    exact below a stored pa
  · intro small
    obtain ⟨a, stored, pa, rfl⟩ := complete k small
    exact ⟨a, ⟨stored, pa⟩, rfl⟩

end Ordered

-----------------------------------------------------------------------------------------
-- Writes
-----------------------------------------------------------------------------------------

/-- INSERT: appends the row, or `none` when a constraint forbids it. -/
def insert? (t : Table ρ) (r : ρ) : Option (Table ρ) :=
  if fresh : ∀ a ∈ t.rows, ¬Constrained.Clash a r then
    some ⟨t.rows ++ [r], List.pairwise_append.mpr
      ⟨t.distinct, List.pairwise_singleton _ _, fun a ha _ hb =>
        List.mem_singleton.mp hb ▸ fresh a ha⟩⟩
  else
    none

/-- INSERT OR IGNORE: a row that a constraint forbids is dropped. -/
def insertOrIgnore (t : Table ρ) (r : ρ) : Table ρ :=
  (t.insert? r).getD t

/-- INSERT ... ON CONFLICT(key) DO NOTHING, where `p` holds of the rows with the same key. -/
def insertUnless (t : Table ρ) (p : ρ → Prop) [DecidablePred p] (r : ρ) : Option (Table ρ) :=
  if ∃ a ∈ t, p a then some t else t.insert? r

/-- A row update that creates no clash: it writes no constrained column, or takes the row
out of a partial index.
-/
structure KeepsKey (f : ρ → ρ) : Prop where
  kept : ∀ a b, Constrained.Clash (f a) b → Constrained.Clash a b

theorem KeepsKey.clash {f g : ρ → ρ} (hf : KeepsKey f) (hg : KeepsKey g) {a b : ρ}
    (clash : Constrained.Clash (f a) (g b))
    : Constrained.Clash a b :=
  Constrained.symm (hg.kept b a (Constrained.symm (hf.kept a (g b) clash)))

/-- UPDATE ... WHERE: rewrites the rows satisfying `p` by `f`. -/
def updateWhere (t : Table ρ) (p : ρ → Prop) [DecidablePred p] (f : ρ → ρ)
    (keeps : KeepsKey f := by exact ⟨fun _ _ clash => clash⟩)
    : Table ρ where
  rows := t.rows.map (fun r => if p r then f r else r)
  distinct := by
    refine List.pairwise_map.mpr (t.distinct.imp ?_)
    intro a b apart clash
    have same : KeepsKey (fun r : ρ => r) := ⟨fun _ _ clash => clash⟩
    split at clash <;> split at clash
    · exact apart (keeps.clash keeps clash)
    · exact apart (keeps.clash same clash)
    · exact apart (same.clash keeps clash)
    · exact apart clash

/-- UPDATE ... WHERE on a constrained column: `none` when a constraint forbids the result. -/
def updateUnique? (t : Table ρ) (p : ρ → Prop) [DecidablePred p] (f : ρ → ρ)
    : Option (Table ρ) :=
  let rows := t.rows.map (fun r => if p r then f r else r)
  if distinct : rows.Pairwise (fun a b => ¬Constrained.Clash a b) then
    some ⟨rows, distinct⟩
  else
    none

/-- INSERT ... ON CONFLICT(key) DO UPDATE of all other columns, where `p` holds of the rows with
the same key.
-/
def upsert? (t : Table ρ) (p : ρ → Prop) [DecidablePred p] (r : ρ) : Option (Table ρ) :=
  if ∃ a ∈ t, p a then t.updateUnique? p (fun _ => r) else t.insert? r

/-- DELETE ... WHERE: drops the rows satisfying `p`. -/
def deleteWhere (t : Table ρ) (p : ρ → Prop) [DecidablePred p] : Table ρ where
  rows := t.rows.filter (fun r => decide (¬p r))
  distinct := t.distinct.filter _

theorem mem_insert? {t t' : Table ρ} {r a : ρ} (inserted : t.insert? r = some t')
    : a ∈ t' ↔ a ∈ t ∨ a = r := by
  unfold insert? at inserted
  split at inserted
  · cases inserted
    change a ∈ t.rows ++ [r] ↔ _
    simp [mem_rows]
  · cases inserted

theorem rows_insert? {t t' : Table ρ} {r : ρ} (inserted : t.insert? r = some t')
    : t'.rows = t.rows ++ [r] := by
  unfold insert? at inserted
  split at inserted <;> cases inserted
  rfl

/-- A successful insertion met no clashing row. -/
theorem fresh_of_insert? {t t' : Table ρ} {r : ρ} (inserted : t.insert? r = some t')
    : ∀ a ∈ t, ¬Constrained.Clash a r := by
  unfold insert? at inserted
  split at inserted
  · assumption
  · cases inserted

/-- A query that a new row does not match is answered as before. -/
theorem select_insert? {t t' : Table ρ} {r : ρ} {p : ρ → Prop} [DecidablePred p]
    (inserted : t.insert? r = some t') (other : ¬p r)
    : t'.select p = t.select p := by
  simp [select, rows_insert? inserted, other]

theorem insert?_eq_some {t : Table ρ} {r : ρ} (fresh : ∀ a ∈ t, ¬Constrained.Clash a r)
    : ∃ t', t.insert? r = some t' := by
  unfold insert?
  split
  · exact ⟨_, rfl⟩
  · contradiction

theorem mem_insertOrIgnore {t : Table ρ} {r a : ρ} (mem : a ∈ t.insertOrIgnore r)
    : a ∈ t ∨ a = r := by
  unfold insertOrIgnore at mem
  cases inserted : t.insert? r with
  | none => exact Or.inl (by simpa [inserted] using mem)
  | some t' => exact (mem_insert? inserted).mp (by simpa [inserted] using mem)

theorem mem_insertOrIgnore_of_mem {t : Table ρ} {r a : ρ} (mem : a ∈ t)
    : a ∈ t.insertOrIgnore r := by
  unfold insertOrIgnore
  cases inserted : t.insert? r with
  | none => exact mem
  | some t' => exact (mem_insert? inserted).mpr (Or.inl mem)

theorem mem_insertUnless {t t' : Table ρ} {p : ρ → Prop} [DecidablePred p] {r a : ρ}
    (inserted : t.insertUnless p r = some t') (mem : a ∈ t')
    : a ∈ t ∨ a = r := by
  unfold insertUnless at inserted
  split at inserted
  · cases inserted
    exact Or.inl mem
  · exact (mem_insert? inserted).mp mem

theorem mem_insertUnless_of_mem {t t' : Table ρ} {p : ρ → Prop} [DecidablePred p] {r a : ρ}
    (inserted : t.insertUnless p r = some t') (mem : a ∈ t)
    : a ∈ t' := by
  unfold insertUnless at inserted
  split at inserted
  · cases inserted
    exact mem
  · exact (mem_insert? inserted).mpr (Or.inl mem)

theorem mem_updateWhere {t : Table ρ} {p : ρ → Prop} [DecidablePred p] {f : ρ → ρ}
    {k : KeepsKey f} {r : ρ}
    : r ∈ t.updateWhere p f k ↔ ∃ a ∈ t, (if p a then f a else a) = r :=
  List.mem_map

theorem forall_updateWhere {t : Table ρ} {p : ρ → Prop} [DecidablePred p] {f : ρ → ρ}
    {k : KeepsKey f} {q : ρ → Prop}
    : (∀ r ∈ t.updateWhere p f k, q r) ↔ ∀ a ∈ t, q (if p a then f a else a) :=
  List.forall_mem_map

theorem exists_mem_updateWhere {t : Table ρ} {p : ρ → Prop} [DecidablePred p] {f : ρ → ρ}
    {k : KeepsKey f} {q : ρ → Prop}
    : (∃ r, r ∈ t.updateWhere p f k ∧ q r) ↔ ∃ a, a ∈ t ∧ q (if p a then f a else a) := by
  constructor
  · rintro ⟨r, mem, hq⟩
    obtain ⟨a, stored, rfl⟩ := mem_updateWhere.mp mem
    exact ⟨a, stored, hq⟩
  · rintro ⟨a, stored, hq⟩
    exact ⟨_, mem_updateWhere.mpr ⟨a, stored, rfl⟩, hq⟩

/-- The image of a stored row under an update is stored. -/
theorem updateWhere_mem {t : Table ρ} {p : ρ → Prop} [DecidablePred p] {f : ρ → ρ}
    {k : KeepsKey f} {a : ρ} (mem : a ∈ t)
    : (if p a then f a else a) ∈ t.updateWhere p f k :=
  mem_updateWhere.mpr ⟨a, mem, rfl⟩

/-- A row outside the update's filter stays as it is. -/
theorem updateWhere_mem_of_not {t : Table ρ} {p : ρ → Prop} [DecidablePred p] {f : ρ → ρ}
    {k : KeepsKey f} {a : ρ} (mem : a ∈ t) (kept : ¬p a)
    : a ∈ t.updateWhere p f k :=
  mem_updateWhere.mpr ⟨a, mem, if_neg kept⟩

theorem updateWhere_mem_of {t : Table ρ} {p : ρ → Prop} [DecidablePred p] {f : ρ → ρ}
    {k : KeepsKey f} {a : ρ} (mem : a ∈ t) (hit : p a)
    : f a ∈ t.updateWhere p f k :=
  mem_updateWhere.mpr ⟨a, mem, if_pos hit⟩

/-- An update changes no row outside a set of rows that it stays within. -/
theorem mem_updateWhere_of_outside {t : Table ρ} {p : ρ → Prop} [DecidablePred p] {f : ρ → ρ}
    {k : KeepsKey f} {q : ρ → Prop} (inside : ∀ a ∈ t, p a → q a ∧ q (f a)) {r : ρ}
    (outside : ¬q r)
    : r ∈ t.updateWhere p f k ↔ r ∈ t := by
  constructor
  · intro mem
    obtain ⟨a, stored, rfl⟩ := mem_updateWhere.mp mem
    by_cases hit : p a
    · rw [if_pos hit] at outside
      exact absurd (inside a stored hit).2 outside
    · rw [if_neg hit]
      exact stored
  · intro stored
    exact updateWhere_mem_of_not stored (fun hp => outside (inside r stored hp).1)

theorem mem_updateUnique? {t t' : Table ρ} {p : ρ → Prop} [DecidablePred p] {f : ρ → ρ} {r : ρ}
    (updated : t.updateUnique? p f = some t')
    : r ∈ t' ↔ ∃ a ∈ t, (if p a then f a else a) = r := by
  simp only [updateUnique?] at updated
  split at updated
  · cases updated
    exact List.mem_map
  · cases updated

/-- An update of one row succeeds when what it writes clashes with none of the others. -/
theorem updateUnique?_total {t : Table ρ} {p : ρ → Prop} [DecidablePred p] {f : ρ → ρ}
    (key : ∀ a b, p a → p b → Constrained.Clash a b)
    (apart : ∀ a ∈ t, p a → ∀ b ∈ t, ¬p b → ¬Constrained.Clash (f a) b)
    : ∃ t', t.updateUnique? p f = some t' := by
  have distinct : (t.rows.map (fun r => if p r then f r else r)).Pairwise
      (fun a b => ¬Constrained.Clash a b) := by
    refine List.pairwise_map.mpr (t.distinct.imp_of_mem (fun {a b} memA memB far => ?_))
    by_cases hitA : p a
    · by_cases hitB : p b
      · exact absurd (key a b hitA hitB) far
      · rw [if_pos hitA, if_neg hitB]
        exact apart a memA hitA b memB hitB
    · rw [if_neg hitA]
      by_cases hitB : p b
      · rw [if_pos hitB]
        exact fun clash => apart b memB hitB a memA hitA (Constrained.symm clash)
      · rw [if_neg hitB]
        exact far
  exact ⟨_, dif_pos distinct⟩

/-- An upsert replaces the rows with the same key. -/
theorem mem_upsert? {t t' : Table ρ} {p : ρ → Prop} [DecidablePred p] {r a : ρ}
    (done : t.upsert? p r = some t')
    : a ∈ t' ↔ a = r ∨ (a ∈ t ∧ ¬p a) := by
  unfold upsert? at done
  split at done
  · rename_i known
    rw [mem_updateUnique? done]
    constructor
    · rintro ⟨b, stored, rfl⟩
      by_cases hit : p b
      · exact Or.inl (if_pos hit)
      · rw [if_neg hit]
        exact Or.inr ⟨stored, hit⟩
    · rintro (rfl | ⟨stored, kept⟩)
      · obtain ⟨b, stored, hit⟩ := known
        exact ⟨b, stored, if_pos hit⟩
      · exact ⟨a, stored, if_neg kept⟩
  · rename_i unknown
    rw [mem_insert? done]
    constructor
    · rintro (stored | same)
      · exact Or.inr ⟨stored, fun hit => unknown ⟨a, stored, hit⟩⟩
      · exact Or.inl same
    · rintro (same | ⟨stored, -⟩)
      · exact Or.inr same
      · exact Or.inl stored

/-- An upsert succeeds when the row clashes with no row of another key, and rows with the same
key clash.
-/
theorem upsert?_total {t : Table ρ} {p : ρ → Prop} [DecidablePred p] {r : ρ}
    (key : ∀ a b, p a → p b → Constrained.Clash a b)
    (apart : ∀ a ∈ t, ¬p a → ¬Constrained.Clash a r)
    : ∃ t', t.upsert? p r = some t' := by
  unfold upsert?
  split
  · exact updateUnique?_total key (fun _ _ _ other mem unselected clash =>
      apart other mem unselected (Constrained.symm clash))
  · rename_i unknown
    exact ⟨_, dif_pos (fun a mem => apart a mem (fun hit => unknown ⟨a, mem, hit⟩))⟩

@[simp] theorem mem_deleteWhere {t : Table ρ} {p : ρ → Prop} [DecidablePred p] {r : ρ}
    : r ∈ t.deleteWhere p ↔ r ∈ t ∧ ¬p r := by
  change r ∈ t.rows.filter _ ↔ _
  simp only [List.mem_filter, decide_eq_true_eq]
  rfl

/-- Deleting no row changes nothing. -/
theorem deleteWhere_eq_self {t : Table ρ} {p : ρ → Prop} [DecidablePred p]
    (none : ∀ r ∈ t, ¬p r)
    : t.deleteWhere p = t := by
  cases t with
  | mk rows distinct =>
      simp only [deleteWhere, Table.mk.injEq, List.filter_eq_self, decide_eq_true_eq]
      exact none

/-- Updating no row changes nothing. -/
theorem updateWhere_eq_self {t : Table ρ} {p : ρ → Prop} [DecidablePred p] {f : ρ → ρ}
    {k : KeepsKey f} (none : ∀ r ∈ t, ¬p r)
    : t.updateWhere p f k = t := by
  cases t with
  | mk rows distinct =>
      simp only [updateWhere, Table.mk.injEq]
      exact (List.map_congr_left (fun r mem => if_neg (none r mem))).trans (List.map_id _)

/-- A query that no row meets before or after its update is answered as before. -/
theorem select_updateWhere_of_outside {t : Table ρ} {p q : ρ → Prop} [DecidablePred p]
    [DecidablePred q] {f : ρ → ρ} {k : KeepsKey f} (outside : ∀ r, p r → ¬q r ∧ ¬q (f r))
    : (t.updateWhere p f k).select q = t.select q := by
  change (t.rows.map (fun r => if p r then f r else r)).filter _ = t.rows.filter _
  induction t.rows with
  | nil => rfl
  | cons row rest ih =>
      by_cases hit : p row
      · simp [hit, outside row hit, ih]
      · simp [hit, ih, List.filter_cons]

/-- A query that no deleted row meets is answered as before. -/
theorem select_deleteWhere_of_outside {t : Table ρ} {p q : ρ → Prop} [DecidablePred p]
    [DecidablePred q] (outside : ∀ r, p r → ¬q r)
    : (t.deleteWhere p).select q = t.select q := by
  change (t.rows.filter _).filter _ = t.rows.filter _
  rw [List.filter_filter]
  refine List.filter_congr (fun r _ => ?_)
  by_cases hit : q r
  · have kept : ¬p r := fun gone => outside r gone hit
    simp [hit, kept]
  · simp [hit]

/-- The update of one row adds what it writes to a query that the row did not meet. -/
theorem select_updateUnique?_perm {t t' : Table ρ} {p q : ρ → Prop} [DecidablePred p]
    [DecidablePred q] {f : ρ → ρ} {r : ρ} (updated : t.updateUnique? p f = some t') (mem : r ∈ t)
    (hit : p r) (key : ∀ a b, p a → p b → Constrained.Clash a b) (before : ¬q r) (after : q (f r))
    : (t'.select q).Perm (f r :: t.select q) := by
  obtain ⟨older, newer, split⟩ := List.append_of_mem mem
  have apart := t.distinct
  rw [split] at apart
  obtain ⟨-, newerApart, olderApart⟩ := List.pairwise_append.mp apart
  have olderKept : ∀ a ∈ older, ¬p a := fun a old hitA =>
    olderApart a old r List.mem_cons_self (key a r hitA hit)
  have newerKept : ∀ a ∈ newer, ¬p a := fun a new hitA =>
    (List.pairwise_cons.mp newerApart).1 a new (key r a hit hitA)
  have rows : t'.rows = older ++ f r :: newer := by
    simp only [updateUnique?] at updated
    split at updated
    · cases updated
      change t.rows.map (fun r => if p r then f r else r) = _
      rw [split, List.map_append, List.map_cons, if_pos hit,
        List.map_congr_left (fun a old => if_neg (olderKept a old)),
        List.map_congr_left (fun a new => if_neg (newerKept a new)), List.map_id', List.map_id']
    · cases updated
  rw [select, select, rows, split, List.filter_append, List.filter_append,
    List.filter_cons_of_pos (by simpa using after), List.filter_cons_of_neg (by simpa using before)]
  exact List.perm_middle

theorem length_updateWhere {t : Table ρ} {p : ρ → Prop} [DecidablePred p] {f : ρ → ρ}
    {k : KeepsKey f}
    : (t.updateWhere p f k).rows.length = t.rows.length :=
  List.length_map _

/-- A query for columns that an update does not write gives the same before and after. -/
theorem map_select_updateWhere {α : Type*} {t : Table ρ} {p q : ρ → Prop} [DecidablePred p]
    [DecidablePred q] {f : ρ → ρ} {k : KeepsKey f} {column : ρ → α}
    (sameFilter : ∀ r, q (f r) ↔ q r) (sameColumn : ∀ r, column (f r) = column r)
    : ((t.updateWhere p f k).select q).map column = (t.select q).map column := by
  have image : ∀ rows : List ρ,
      ((rows.map (fun r => if p r then f r else r)).filter (fun r => decide (q r))).map column
        = (rows.filter (fun r => decide (q r))).map column := by
    intro rows
    induction rows with
    | nil => rfl
    | cons row rest ih =>
        have same : q (if p row then f row else row) ↔ q row := by
          split
          · exact sameFilter row
          · exact Iff.rfl
        have columns : column (if p row then f row else row) = column row := by
          split
          · exact sameColumn row
          · rfl
        by_cases selected : q row <;>
          simp [same, selected, columns, ih]
  exact image t.rows

-----------------------------------------------------------------------------------------
-- Tables that keep their rows
-----------------------------------------------------------------------------------------

/-- No row comes or goes, and each one changes as `R` allows. -/
structure Rewrites (R : ρ → ρ → Prop) (before after : Table ρ) : Prop where
  forward : ∀ r ∈ before, ∃ r' ∈ after, R r r'
  backward : ∀ r' ∈ after, ∃ r ∈ before, R r r'

namespace Rewrites

variable {R Q : ρ → ρ → Prop} {t u v : Table ρ}

theorem refl (same : ∀ r, R r r) (t : Table ρ) : Rewrites R t t :=
  ⟨fun r mem => ⟨r, mem, same r⟩, fun r mem => ⟨r, mem, same r⟩⟩

theorem trans (first : Rewrites R t u) (second : Rewrites R u v)
    (join : ∀ {a b c}, R a b → R b c → R a c)
    : Rewrites R t v := by
  constructor
  · intro r mem
    obtain ⟨middle, mem', step⟩ := first.forward r mem
    obtain ⟨r', mem'', step'⟩ := second.forward middle mem'
    exact ⟨r', mem'', join step step'⟩
  · intro r' mem
    obtain ⟨middle, mem', step⟩ := second.backward r' mem
    obtain ⟨r, mem'', step'⟩ := first.backward middle mem'
    exact ⟨r, mem'', join step' step⟩

theorem mono (weaken : ∀ r r', R r r' → Q r r') (rewrites : Rewrites R t u) : Rewrites Q t u := by
  constructor
  · intro r mem
    obtain ⟨r', mem', step⟩ := rewrites.forward r mem
    exact ⟨r', mem', weaken r r' step⟩
  · intro r' mem
    obtain ⟨r, mem', step⟩ := rewrites.backward r' mem
    exact ⟨r, mem', weaken r r' step⟩

/-- An update is a rewriting when each row it changes may change so. -/
theorem update {p : ρ → Prop} [DecidablePred p] {f : ρ → ρ} {k : KeepsKey f}
    (same : ∀ r, R r r) (step : ∀ r ∈ t, p r → R r (f r))
    : Rewrites R t (t.updateWhere p f k) := by
  have image : ∀ r ∈ t, R r (if p r then f r else r) := by
    intro r mem
    split
    · exact step r mem ‹_›
    · exact same r
  constructor
  · intro r mem
    exact ⟨_, updateWhere_mem mem, image r mem⟩
  · intro r' mem
    obtain ⟨r, stored, rfl⟩ := mem_updateWhere.mp mem
    exact ⟨r, stored, image r stored⟩

end Rewrites

-- Unification must not look into an update, where its side condition would be lost.
attribute [irreducible] updateWhere

end Table

end Codrik.Relational

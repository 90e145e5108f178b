import Mathlib.Logic.Basic
import Mathlib.Order.Notation

/-! A directory of files on a disk that may lose its power. What a file is given reaches the disk
when the file is synced, and what a name stands for when the directory is: until then the disk may
come back with any of the versions that the name had since, and with other bytes in files that
were not synced.
-/

namespace Codrik.Files

/-- The bytes of a file, and whether they are on the disk. -/
structure Blob where
  bytes : List UInt8
  synced : Bool
deriving DecidableEq

/-- What each name stands for, and the versions it may come back with, newest first. -/
structure Volume (κ : Type) where
  entries : κ → Option Blob
  versions : κ → List (Option Blob)

/-- What a power loss makes of a version: files that were not synced may have other bytes. -/
inductive Survives : Option Blob → Option Blob → Prop
  | missing : Survives none none
  | safe {blob : Blob} (synced : blob.synced = true) : Survives (some blob) (some blob)
  | torn {blob : Blob} (bytes : List UInt8) (unsynced : blob.synced = false)
    : Survives (some blob) (some ⟨bytes, true⟩)

namespace Volume

variable {κ : Type}

def empty : Volume κ := ⟨fun _ => none, fun _ => [none]⟩

section Operations

variable [DecidableEq κ]

/-- A name stands for something else, on the disk not before the directory is synced. -/
def put (v : Volume κ) (name : κ) (entry : Option Blob) : Volume κ where
  entries other := if other = name then entry else v.entries other
  versions other := if other = name then entry :: v.versions other else v.versions other

/-- The rename of a file replaces what the other name stood for. -/
def rename (v : Volume κ) (source target : κ) : Volume κ :=
  (v.put target (v.entries source)).put source none

end Operations

/-- The directory is synced. -/
def settle (v : Volume κ) : Volume κ := { v with versions := fun name => [v.entries name] }

/-- The power is lost: each name comes back with one of its versions. -/
structure Lost (v v' : Volume κ) : Prop where
  entries : ∀ name, ∃ version ∈ v.versions name, Survives version (v'.entries name)
  versions : ∀ name, v'.versions name = [v'.entries name]

/-- Whatever a name stands for, or may come back with, has the property. -/
structure Holds (P : κ → Option Blob → Prop) (v : Volume κ) : Prop where
  current : ∀ name, v.entries name ∈ v.versions name
  all : ∀ name, ∀ version ∈ v.versions name, P name version

variable {v v' : Volume κ} {P Q : κ → Option Blob → Prop}

namespace Holds

theorem now (holds : v.Holds P) (name : κ) : P name (v.entries name) :=
  holds.all name _ (holds.current name)

theorem empty (missing : ∀ name, P name none) : (Volume.empty : Volume κ).Holds P :=
  ⟨fun _ => List.mem_singleton.mpr rfl, fun name _ mem => List.mem_singleton.mp mem ▸ missing name⟩

theorem imp (holds : v.Holds P) (weaker : ∀ name version, P name version → Q name version)
    : v.Holds Q :=
  ⟨holds.current, fun name version mem => weaker name version (holds.all name version mem)⟩

theorem settle (holds : v.Holds P) : v.settle.Holds P :=
  ⟨fun _ => List.mem_singleton.mpr rfl,
    fun name _ mem => List.mem_singleton.mp mem ▸ holds.now name⟩

/-- What survives a power loss has the property that all versions have. -/
theorem lost (holds : v.Holds P) (lost : v.Lost v')
    (stable : ∀ name version survivor, P name version → Survives version survivor →
      P name survivor)
    : v'.Holds P := by
  constructor
  · intro name
    rw [lost.versions name]
    exact List.mem_singleton.mpr rfl
  · intro name version mem
    rw [lost.versions name] at mem
    obtain rfl := List.mem_singleton.mp mem
    obtain ⟨version, known, survives⟩ := lost.entries name
    exact stable name version _ (holds.all name version known) survives

end Holds

section Names

variable [DecidableEq κ] {name other source target : κ} {entry : Option Blob}

@[simp] theorem put_same (v : Volume κ) (name : κ) (entry : Option Blob)
    : (v.put name entry).entries name = entry :=
  if_pos rfl

theorem put_other (different : other ≠ name) : (v.put name entry).entries other = v.entries other :=
  if_neg different

theorem versions_put_same (v : Volume κ) (name : κ) (entry : Option Blob)
    : (v.put name entry).versions name = entry :: v.versions name :=
  if_pos rfl

theorem versions_put_other (different : other ≠ name)
    : (v.put name entry).versions other = v.versions other :=
  if_neg different

/-- A renamed file is found under its new name. -/
theorem rename_target (different : target ≠ source)
    : (v.rename source target).entries target = v.entries source := by
  rw [rename, put_other different, put_same]

theorem rename_other (notSource : other ≠ source) (notTarget : other ≠ target)
    : (v.rename source target).entries other = v.entries other := by
  rw [rename, put_other notSource, put_other notTarget]

/-- The versions of a name after one was put. -/
theorem mem_versions_put {version : Option Blob} (mem : version ∈ (v.put name entry).versions other)
    : other = name ∧ version = entry ∨ version ∈ v.versions other := by
  rcases eq_or_ne other name with rfl | different
  · rw [versions_put_same] at mem
    exact (List.mem_cons.mp mem).imp (fun same => ⟨rfl, same⟩) (fun old => old)
  · rw [versions_put_other different] at mem
    exact Or.inr mem

/-- What is put has the property. -/
theorem Holds.put (holds : v.Holds P) (own : P name entry) : (v.put name entry).Holds P := by
  constructor
  · intro other
    rcases eq_or_ne other name with rfl | different
    · rw [put_same, versions_put_same]
      exact List.mem_cons_self
    · rw [put_other different, versions_put_other different]
      exact holds.current other
  · intro other version mem
    rcases mem_versions_put mem with ⟨rfl, rfl⟩ | old
    · exact own
    · exact holds.all other version old

theorem Holds.rename (holds : v.Holds P) (own : P target (v.entries source))
    (gone : P source none)
    : (v.rename source target).Holds P :=
  (holds.put own).put gone

end Names

end Volume

end Codrik.Files

import Codrik.Relational.Table
import Mathlib.Data.String.Basic

/-! Trees of directories and text files, as a table of their entries. An entry lies in the root or
in a directory of the tree, so that nothing lies below a file or below a directory that is gone.
-/

namespace Codrik.Files

open Codrik.Relational

abbrev Path := List String

inductive Node
  | dir
  | file (content : String)
deriving DecidableEq

/-- An entry of the directory `parent`. -/
structure Entry where
  parent : Path
  name : String
  node : Node
deriving DecidableEq

def Entry.path (entry : Entry) : Path := entry.parent ++ [entry.name]

instance : Constrained Entry where
  Clash a b := a.parent = b.parent ∧ a.name = b.name
  symm clash := ⟨clash.1.symm, clash.2.symm⟩

/-- The directory exists. -/
def Directory (entries : Table Entry) (path : Path) : Prop :=
  path = [] ∨ ∃ entry ∈ entries, entry.path = path ∧ entry.node = .dir

instance (entries : Table Entry) (path : Path) : Decidable (Directory entries path) :=
  inferInstanceAs (Decidable (_ ∨ _))

structure FileTree where
  entries : Table Entry
  rooted : ∀ entry ∈ entries, Directory entries entry.parent

namespace FileTree

variable {tree tree' : FileTree} {parent path : Path} {name content : String} {entry : Entry}

def empty : FileTree := ⟨∅, fun entry mem => absurd mem (Table.not_mem_empty entry)⟩

theorem eq_of_place {a b : Entry} (aMem : a ∈ tree.entries) (bMem : b ∈ tree.entries)
    (sameParent : a.parent = b.parent) (sameName : a.name = b.name)
    : a = b :=
  Table.eq_of_clash aMem bMem ⟨sameParent, sameName⟩

-----------------------------------------------------------------------------------------
-- Lookups
-----------------------------------------------------------------------------------------

/-- The entry of a name in a directory. -/
def find (tree : FileTree) (parent : Path) (name : String) : Option Entry :=
  tree.entries.find? (fun entry => entry.parent = parent ∧ entry.name = name)

/-- The text of a file. -/
def read (tree : FileTree) (parent : Path) (name : String) : Option String :=
  match tree.find parent name with
  | some ⟨_, _, .file content⟩ => some content
  | _ => none

/-- The names of the directories in a directory, in order. -/
def subdirectories (tree : FileTree) (path : Path) : List String :=
  (tree.entries.selectOrdered (fun entry => entry.parent = path ∧ entry.node = .dir)
    (·.name)).map (·.name)

theorem find_eq_some : tree.find parent name = some entry ↔
    entry ∈ tree.entries ∧ entry.parent = parent ∧ entry.name = name := by
  constructor
  · intro found
    obtain ⟨mem, place⟩ := Table.find?_some found
    exact ⟨mem, place⟩
  · rintro ⟨mem, rfl, rfl⟩
    exact Table.find?_eq_some_of_unique mem ⟨rfl, rfl⟩
      (fun other otherMem place => eq_of_place otherMem mem place.1 place.2)

theorem find_eq_none : tree.find parent name = none ↔
    ∀ entry ∈ tree.entries, entry.parent = parent → entry.name ≠ name := by
  rw [find, Table.find?_eq_none]
  exact forall₂_congr (fun _ _ => not_and)

theorem read_eq_some : tree.read parent name = some content ↔
    (⟨parent, name, .file content⟩ : Entry) ∈ tree.entries := by
  constructor
  · intro found
    unfold read at found
    split at found
    · rename_i entry place
      obtain ⟨mem, rfl, rfl⟩ := find_eq_some.mp place
      cases found
      exact mem
    · cases found
  · intro mem
    rw [read, find_eq_some.mpr ⟨mem, rfl, rfl⟩]

theorem mem_subdirectories : name ∈ tree.subdirectories path ↔
    (⟨path, name, .dir⟩ : Entry) ∈ tree.entries := by
  simp only [subdirectories, List.mem_map, Table.mem_selectOrdered]
  constructor
  · rintro ⟨⟨parent, name, node⟩, ⟨mem, rfl, rfl⟩, rfl⟩
    exact mem
  · exact fun mem => ⟨_, ⟨mem, rfl, rfl⟩, rfl⟩

/-- The names come in order, and each once. -/
theorem pairwise_subdirectories : (tree.subdirectories path).Pairwise (· < ·) :=
  List.pairwise_map.mpr (Table.pairwise_lt_selectOrdered
    (fun _ _ _ _ a b same => ⟨a.1.trans b.1.symm, same⟩))

-----------------------------------------------------------------------------------------
-- Writes
-----------------------------------------------------------------------------------------

/-- Inserting an entry into a directory. -/
def insert (tree : FileTree) (parent : Path) (name : String) (node : Node) : Option FileTree :=
  if directory : Directory tree.entries parent then
    match inserted : tree.entries.insert? ⟨parent, name, node⟩ with
    | some entries =>
        some ⟨entries, fun entry mem => by
          have kept : ∀ path, Directory tree.entries path → Directory entries path := by
            rintro path (root | ⟨dir, stored, found⟩)
            · exact Or.inl root
            · exact Or.inr ⟨dir, (Table.mem_insert? inserted).mpr (Or.inl stored), found⟩
          rcases (Table.mem_insert? inserted).mp mem with old | rfl
          · exact kept _ (tree.rooted entry old)
          · exact kept _ directory⟩
    | none => none
  else none

/-- `fs::create_dir_all`, from the root down. -/
def createDirAll (tree : FileTree) (done : Path) : Path → Option FileTree
  | [] => some tree
  | name :: rest =>
      match tree.find done name with
      | some ⟨_, _, .dir⟩ => tree.createDirAll (done ++ [name]) rest
      | some ⟨_, _, .file _⟩ => none
      | none =>
          match tree.insert done name .dir with
          | some tree => tree.createDirAll (done ++ [name]) rest
          | none => none

/-- The entry of a file that is written. -/
def written (content : String) (entry : Entry) : Entry := { entry with node := .file content }

/-- `fs::write` -/
def write (tree : FileTree) (parent : Path) (name content : String) : Option FileTree :=
  match tree.find parent name with
  | some ⟨_, _, .dir⟩ => none
  | some ⟨_, _, .file _⟩ =>
      some ⟨tree.entries.updateWhere
          (fun entry => entry.parent = parent ∧ entry.name = name ∧ entry.node ≠ .dir)
          (written content),
        fun entry mem => by
          obtain ⟨before, stored, rfl⟩ := Table.mem_updateWhere.mp mem
          have place : (if before.parent = parent ∧ before.name = name ∧ before.node ≠ .dir
              then written content before else before).parent = before.parent := by
            split <;> rfl
          rw [place]
          rcases tree.rooted before stored with root | ⟨dir, dirMem, found⟩
          · exact Or.inl root
          · exact Or.inr ⟨dir, Table.updateWhere_mem_of_not dirMem
              (fun selected => selected.2.2 found.2), found⟩⟩
  | none => tree.insert parent name (.file content)

/-- `fs::remove_dir_all` -/
def removeDirAll (tree : FileTree) (path : Path) : FileTree :=
  ⟨tree.entries.deleteWhere (fun entry => path <+: entry.path), fun entry mem => by
    obtain ⟨stored, kept⟩ := Table.mem_deleteWhere.mp mem
    rcases tree.rooted entry stored with root | ⟨dir, dirMem, here, node⟩
    · exact Or.inl root
    · refine Or.inr ⟨dir, Table.mem_deleteWhere.mpr ⟨dirMem, fun gone => kept ?_⟩, here, node⟩
      rw [here] at gone
      exact gone.trans (List.prefix_append _ _)⟩

theorem mem_insert {node : Node} (inserted : tree.insert parent name node = some tree')
    : (∀ entry ∈ tree.entries, entry.parent = parent → entry.name ≠ name)
      ∧ ∀ entry, entry ∈ tree'.entries ↔
        entry ∈ tree.entries ∨ entry = ⟨parent, name, node⟩ := by
  unfold insert at inserted
  split at inserted
  · split at inserted
    · rename_i entries added
      cases inserted
      refine ⟨fun entry mem place same => ?_, fun entry => Table.mem_insert? added⟩
      exact Table.fresh_of_insert? added entry mem ⟨place, same⟩
    · cases inserted
  · cases inserted

/-- Creating directories adds directories and changes nothing else, by induction on the path. -/
theorem mem_createDirAll {done : Path} (created : tree.createDirAll done path = some tree')
    : (∀ entry ∈ tree.entries, entry ∈ tree'.entries)
      ∧ ∀ entry ∈ tree'.entries, entry ∈ tree.entries ∨ entry.node = .dir := by
  induction path generalizing tree done with
  | nil =>
      cases created
      exact ⟨fun _ mem => mem, fun _ mem => Or.inl mem⟩
  | cons name rest ih =>
      rw [createDirAll] at created
      split at created
      · exact ih created
      · cases created
      · split at created
        · rename_i middle inserted
          obtain ⟨-, entries⟩ := mem_insert inserted
          obtain ⟨kept, added⟩ := ih created
          refine ⟨fun entry mem => kept entry ((entries entry).mpr (Or.inl mem)),
            fun entry mem => ?_⟩
          rcases added entry mem with old | dir
          · rcases (entries entry).mp old with older | rfl
            · exact Or.inl older
            · exact Or.inr rfl
          · exact Or.inr dir
        · cases created

/-- The path that was created is a directory, by induction on it. -/
theorem directory_createDirAll {done : Path} (start : Directory tree.entries done)
    (created : tree.createDirAll done path = some tree')
    : Directory tree'.entries (done ++ path) := by
  induction path generalizing tree done with
  | nil =>
      cases created
      rwa [List.append_nil]
  | cons name rest ih =>
      rw [createDirAll] at created
      rw [List.append_cons]
      split at created
      · rename_i place
        obtain ⟨mem, sameParent, sameName⟩ := find_eq_some.mp place
        exact ih (Or.inr ⟨_, mem, congrArg₂ (· ++ [·]) sameParent sameName, rfl⟩) created
      · cases created
      · split at created
        · rename_i middle inserted
          exact ih (Or.inr ⟨_, ((mem_insert inserted).2 _).mpr (Or.inr rfl), rfl, rfl⟩) created
        · cases created

/-- A write makes the file what was written, and changes nothing else. -/
theorem mem_write (wrote : tree.write parent name content = some tree')
    : entry ∈ tree'.entries ↔
      (entry ∈ tree.entries ∧ ¬(entry.parent = parent ∧ entry.name = name))
        ∨ entry = ⟨parent, name, .file content⟩ := by
  unfold write at wrote
  split at wrote
  · cases wrote
  · rename_i parent name old place
    obtain ⟨mem, rfl, rfl⟩ := find_eq_some.mp place
    cases wrote
    rw [Table.mem_updateWhere]
    constructor
    · rintro ⟨before, stored, rfl⟩
      by_cases here : before.parent = parent ∧ before.name = name
      · cases eq_of_place stored mem here.1 here.2
        rw [if_pos ⟨rfl, rfl, by simp⟩]
        exact Or.inr rfl
      · rw [if_neg (fun selected => here ⟨selected.1, selected.2.1⟩)]
        exact Or.inl ⟨stored, here⟩
    · rintro (⟨stored, elsewhere⟩ | rfl)
      · exact ⟨entry, stored, if_neg (fun selected => elsewhere ⟨selected.1, selected.2.1⟩)⟩
      · exact ⟨_, mem, if_pos ⟨rfl, rfl, by simp⟩⟩
  · obtain ⟨fresh, entries⟩ := mem_insert wrote
    rw [entries]
    refine or_congr_left ⟨fun mem => ⟨mem, fun place => fresh entry mem place.1 place.2⟩, ?_⟩
    exact fun mem => mem.1

/-- Files of other directories keep their text. -/
theorem read_write_other (wrote : tree.write parent name content = some tree') {other : String}
    (apart : path ≠ parent)
    : tree'.read path other = tree.read path other := by
  refine Option.ext (fun held => ?_)
  rw [read_eq_some, read_eq_some, mem_write wrote]
  constructor
  · rintro (⟨stored, -⟩ | same)
    · exact stored
    · exact absurd (congrArg Entry.parent same) apart
  · exact fun stored => Or.inl ⟨stored, fun place => apart place.1⟩

/-- A directory is not overwritten. -/
theorem write_place (wrote : tree.write parent name content = some tree')
    : (⟨parent, name, .dir⟩ : Entry) ∉ tree.entries := by
  intro mem
  rw [write, find_eq_some.mpr ⟨mem, rfl, rfl⟩] at wrote
  cases wrote

/-- A write changes no directory. -/
theorem subdirectories_write (wrote : tree.write parent name content = some tree')
    : tree'.subdirectories path = tree.subdirectories path := by
  have asymm : Std.Asymm (fun a b : String => a < b) := ⟨fun _ _ => lt_asymm⟩
  refine pairwise_subdirectories.eq_of_mem_iff pairwise_subdirectories (fun x => ?_)
  rw [mem_subdirectories, mem_subdirectories, mem_write wrote]
  constructor
  · rintro (⟨stored, -⟩ | same)
    · exact stored
    · cases same
  · intro stored
    refine Or.inl ⟨stored, fun place => write_place wrote ?_⟩
    obtain ⟨rfl, rfl⟩ := place
    exact stored

/-- A directory that holds something is an entry of its parent. -/
theorem mem_of_child (child : entry ∈ tree.entries) (inside : entry.parent = path ++ [name])
    : (⟨path, name, .dir⟩ : Entry) ∈ tree.entries := by
  rcases tree.rooted entry child with root | ⟨⟨parent, own, node⟩, mem, here, rfl⟩
  · rw [inside] at root
    exact absurd root (List.append_ne_nil_of_right_ne_nil _ (List.cons_ne_nil _ _))
  · rw [inside] at here
    obtain ⟨rfl, same⟩ := List.append_inj' here rfl
    cases same
    exact mem

theorem mem_removeDirAll
    : entry ∈ (tree.removeDirAll path).entries ↔ entry ∈ tree.entries ∧ ¬path <+: entry.path :=
  Table.mem_deleteWhere

/-- Writing what a file holds already changes nothing. -/
theorem mem_write_same (held : tree.read parent name = some content)
    (wrote : tree.write parent name content = some tree')
    : entry ∈ tree'.entries ↔ entry ∈ tree.entries := by
  rw [mem_write wrote]
  have mem := read_eq_some.mp held
  constructor
  · rintro (⟨stored, -⟩ | rfl)
    · exact stored
    · exact mem
  · intro stored
    by_cases here : entry.parent = parent ∧ entry.name = name
    · exact Or.inr (eq_of_place stored mem here.1 here.2)
    · exact Or.inl ⟨stored, here⟩

end FileTree

end Codrik.Files

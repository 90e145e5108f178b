import Codrik.Skills.Registry
import Mathlib.Data.List.DropRight

/-! What the commands on one skill do to the others. A skill is listed under the name in its front
matter and stored under the name of its directory, so the two can disagree.
-/

namespace Codrik.Skills

open Codrik.Files
open Codrik.Runtime (isWhitespace)

variable {yaml : Yaml} {roots : List SkillRoot} {tree tree' : FileTree}
  {name description body : String}

-----------------------------------------------------------------------------------------
-- Finding a skill
-----------------------------------------------------------------------------------------

/-- The skills of all roots, those that are shadowed too. -/
def candidates (yaml : Yaml) (roots : List SkillRoot) (tree : FileTree) : List DiscoveredSkill :=
  roots.flatMap (discoverRoot yaml tree)

/-- The skill that a name stands for. -/
def find (yaml : Yaml) (roots : List SkillRoot) (tree : FileTree) (name : String)
    : Option DiscoveredSkill :=
  (candidates yaml roots tree).find? (·.skill.name = name)

/-- Of several skills of a name the first is kept, by induction on the skills. -/
theorem find?_unseen {seen : List String} (entries : List DiscoveredSkill)
    : (unseen seen entries).find? (·.skill.name = name)
      = if name ∈ seen then none else entries.find? (·.skill.name = name) := by
  induction entries generalizing seen with
  | nil => simp [unseen]
  | cons entry rest ih =>
      rw [unseen]
      by_cases known : entry.skill.name ∈ seen
      · rw [if_pos known, ih]
        by_cases mine : name ∈ seen
        · rw [if_pos mine, if_pos mine]
        · have other : entry.skill.name ≠ name := fun same => mine (same ▸ known)
          rw [if_neg mine, if_neg mine, List.find?_cons_of_neg (by simpa using other)]
      · rw [if_neg known]
        by_cases same : entry.skill.name = name
        · rw [List.find?_cons_of_pos (by simpa using same), if_neg (same ▸ known),
            List.find?_cons_of_pos (by simpa using same)]
        · have other : name ≠ entry.skill.name := fun equal => same equal.symm
          rw [List.find?_cons_of_neg (by simpa using same), ih,
            List.find?_cons_of_neg (by simpa using same)]
          simp only [List.mem_cons, other, false_or]

theorem find?_discover
    : (discover yaml roots tree).find? (·.skill.name = name) = find yaml roots tree name := by
  rw [discover, find?_unseen, if_neg List.not_mem_nil]
  rfl

/-- The listing shows the skill that a name stands for. -/
theorem find?_list
    : (list yaml roots tree).find? (·.name = name)
      = (find yaml roots tree name).map (·.skill) := by
  rw [list, List.find?_map, ← find?_discover]
  rfl

/-- The text of a skill. -/
def text (tree : FileTree) : SkillLocation → Except String String
  | .directory dir => readInside tree dir "SKILL.md"
  | .builtin files => readBuiltinFile files "SKILL.md"

/-- Reading a skill reads the one that its name stands for. -/
theorem read_eq
    : read yaml roots name none tree
      = match find yaml roots tree name with
        | none => .error ("unknown skill: " ++ name)
        | some entry => text tree entry.location := by
  rw [read, find?_discover]
  cases find yaml roots tree name with
  | none => rfl
  | some entry => cases located : entry.location <;> simp [text, located]

theorem readInside_skill (dir : Path)
    : readInside tree dir "SKILL.md"
      = match tree.read dir "SKILL.md" with
        | some content => .ok content
        | none => .error ("failed to read skill file: " ++ display (dir ++ ["SKILL.md"])) := by
  have parts : relativeComponents "SKILL.md" = .ok ["SKILL.md"] := by decide +kernel
  cases found : tree.read dir "SKILL.md" with
  | none => simp [readInside, parts, found, bind, Except.bind]
  | some content => simp [readInside, parts, found, bind, Except.bind]

-----------------------------------------------------------------------------------------
-- Where skills are stored
-----------------------------------------------------------------------------------------

/-- A directory of the root holds a skill. -/
def HoldsSkill (tree : FileTree) (root : Path) (own content : String) : Prop :=
  (⟨root, own, .dir⟩ : Entry) ∈ tree.entries
    ∧ (⟨root ++ [own], "SKILL.md", .file content⟩ : Entry) ∈ tree.entries

/-- The skills of a root come from its directories, in order. -/
theorem mem_discoverDirectory {root : SkillRoot} {path : Path} {entry : DiscoveredSkill}
    : entry ∈ discoverDirectory yaml tree root path ↔
      ∃ own content, HoldsSkill tree path own content
        ∧ entry = directorySkill yaml root path own content := by
  simp only [discoverDirectory, List.mem_filterMap, FileTree.mem_subdirectories,
    Option.map_eq_some_iff, FileTree.read_eq_some, HoldsSkill]
  constructor
  · rintro ⟨own, dir, content, file, rfl⟩
    exact ⟨own, content, ⟨dir, file⟩, rfl⟩
  · rintro ⟨own, content, ⟨dir, file⟩, rfl⟩
    exact ⟨own, dir, content, file, rfl⟩

/-- A skill comes from a directory or is built in. -/
theorem mem_candidates {entry : DiscoveredSkill} (found : entry ∈ candidates yaml roots tree)
    : (∃ root path own content, HoldsSkill tree path own content
        ∧ entry = directorySkill yaml root path own content)
      ∨ ∃ files, entry.location = .builtin files := by
  obtain ⟨root, -, mem⟩ := List.mem_flatMap.mp found
  rw [discoverRoot] at mem
  split at mem
  · obtain ⟨own, content, held, same⟩ := mem_discoverDirectory.mp mem
    exact Or.inl ⟨root, _, own, content, held, same⟩
  · obtain ⟨builtin, -, rfl⟩ := List.mem_map.mp mem
    exact Or.inr ⟨builtin.files, rfl⟩

/-- A choice of locations; the skills built in are always chosen. -/
structure Region where
  Covers : Path → Prop
  [decidable : DecidablePred Covers]

instance (region : Region) : DecidablePred region.Covers := region.decidable

/-- The skill lies outside of the region. -/
def Region.Outside (region : Region) : SkillLocation → Prop
  | .directory path => ¬region.Covers path
  | .builtin _ => True

instance (region : Region) : DecidablePred region.Outside
  | .directory _ => inferInstanceAs (Decidable (¬_))
  | .builtin _ => inferInstanceAs (Decidable True)

/-- The skills outside of a region. -/
def outside (region : Region) (entries : List DiscoveredSkill) : List DiscoveredSkill :=
  entries.filter (fun entry => region.Outside entry.location)

/-- The names of the directories outside of a region that hold a skill. -/
def skillDirectories (region : Region) (tree : FileTree) (path : Path) : List String :=
  (tree.subdirectories path).filter (fun own =>
    ¬region.Covers (path ++ [own]) ∧ (tree.read (path ++ [own]) "SKILL.md").isSome)

theorem mem_skillDirectories {region : Region} {path : Path} {own : String}
    : own ∈ skillDirectories region tree path ↔
      ¬region.Covers (path ++ [own]) ∧ ∃ content, HoldsSkill tree path own content := by
  simp only [skillDirectories, List.mem_filter, FileTree.mem_subdirectories, decide_eq_true_eq,
    Option.isSome_iff_exists, FileTree.read_eq_some, HoldsSkill]
  constructor
  · rintro ⟨dir, kept, content, file⟩
    exact ⟨kept, content, dir, file⟩
  · rintro ⟨kept, content, dir, file⟩
    exact ⟨dir, kept, content, file⟩

/-- The skills of a root outside of a region come from these directories. -/
theorem outside_discoverDirectory (region : Region) (root : SkillRoot) (path : Path)
    : outside region (discoverDirectory yaml tree root path)
      = (skillDirectories region tree path).filterMap (fun own =>
          (tree.read (path ++ [own]) "SKILL.md").map (directorySkill yaml root path own)) := by
  rw [outside, discoverDirectory, skillDirectories]
  induction tree.subdirectories path with
  | nil => rfl
  | cons own rest ih =>
      cases held : tree.read (path ++ [own]) "SKILL.md" with
      | none => simp [held, ih]
      | some content =>
          by_cases covered : region.Covers (path ++ [own])
          · have inside
              : ¬region.Outside (directorySkill yaml root path own content).location :=
              fun kept => kept covered
            simp [held, covered, inside, ih]
          · have kept : region.Outside (directorySkill yaml root path own content).location :=
              covered
            simp [held, covered, kept, ih]

/-- Trees that hold the same skills outside of a region show the same there. -/
theorem outside_candidates {region : Region}
    (same
      : ∀ path own content, ¬region.Covers (path ++ [own]) →
          (HoldsSkill tree' path own content ↔ HoldsSkill tree path own content))
    : outside region (candidates yaml roots tree')
      = outside region (candidates yaml roots tree) := by
  have asymm : Std.Asymm (fun a b : String => a < b) := ⟨fun _ _ => lt_asymm⟩
  have names : ∀ path, skillDirectories region tree' path = skillDirectories region tree path := by
    intro path
    refine (FileTree.pairwise_subdirectories.filter _).eq_of_mem_iff
      (FileTree.pairwise_subdirectories.filter _) (fun own => ?_)
    change own ∈ skillDirectories region tree' path ↔ own ∈ skillDirectories region tree path
    rw [mem_skillDirectories, mem_skillDirectories]
    exact and_congr_right (fun kept => exists_congr (fun content => same path own content kept))
  simp only [outside, candidates, List.filter_flatMap]
  refine List.flatMap_congr (fun root _ => ?_)
  rw [discoverRoot, discoverRoot]
  split
  · rename_i path _
    rw [← outside, ← outside, outside_discoverDirectory, outside_discoverDirectory, names]
    refine List.filterMap_congr (fun own mem => ?_)
    obtain ⟨kept, content, held⟩ := mem_skillDirectories.mp mem
    rw [FileTree.read_eq_some.mpr held.2,
      FileTree.read_eq_some.mpr ((same path own content kept).mpr held).2]
  · rfl

-----------------------------------------------------------------------------------------
-- The other skills
-----------------------------------------------------------------------------------------

/-- The listing entry and the text of a skill are as they were. -/
def SameSkill (yaml : Yaml) (roots : List SkillRoot) (tree tree' : FileTree) (name : String)
    : Prop :=
  (list yaml roots tree').find? (·.name = name) = (list yaml roots tree).find? (·.name = name)
    ∧ read yaml roots name none tree' = read yaml roots name none tree

/-- The skills of other names in a region are each shadowing one outside of it with the same entry
and text.
-/
def Spared (yaml : Yaml) (roots : List SkillRoot) (tree : FileTree) (region : Region)
    (name : String) : Prop :=
  ∀ entry, entry.skill.name ≠ name →
    find yaml roots tree entry.skill.name = some entry → ¬region.Outside entry.location →
    ∃ other,
      (outside region (candidates yaml roots tree)).find? (·.skill.name = entry.skill.name)
        = some other
      ∧ other.skill = entry.skill ∧ text tree other.location = text tree entry.location

/-- A skill outside of the region is found there first. -/
theorem find?_outside {region : Region} {entry : DiscoveredSkill}
    (found : find yaml roots tree name = some entry) (kept : region.Outside entry.location)
    : (outside region (candidates yaml roots tree)).find? (·.skill.name = name)
      = some entry := by
  obtain ⟨named, before, after, split, others⟩ := List.find?_eq_some_iff_append.mp found
  rw [outside, split, List.filter_append, List.filter_cons_of_pos (by simpa using kept)]
  refine List.find?_eq_some_iff_append.mpr
    ⟨named, _, _, rfl, fun other mem => others other (List.mem_of_mem_filter mem)⟩

/-- No skill of a name is found anywhere. -/
theorem find?_outside_none {region : Region} (missing : find yaml roots tree name = none)
    : (outside region (candidates yaml roots tree)).find? (·.skill.name = name) = none :=
  List.find?_eq_none.mpr (fun entry mem =>
    List.find?_eq_none.mp missing entry (List.mem_of_mem_filter mem))

/-- A skill's text is that of its file. -/
theorem text_candidate {entry : DiscoveredSkill} (found : entry ∈ candidates yaml roots tree)
    (same : ∀ path own content, HoldsSkill tree path own content →
      entry.location = .directory (path ++ [own]) → HoldsSkill tree' path own content)
    : text tree' entry.location = text tree entry.location := by
  rcases mem_candidates found with ⟨root, path, own, content, held, rfl⟩ | ⟨files, located⟩
  · have held' := same path own content held rfl
    simp only [directorySkill, text, readInside_skill, FileTree.read_eq_some.mpr held.2,
      FileTree.read_eq_some.mpr held'.2]
  · simp only [located, text]

/-- When the other skills are found outside of a region after a command, they are as they were
exactly if they were spared.
-/
theorem same_iff_spared {region : Region}
    (found
      : ∀ other, other ≠ name → find yaml roots tree' other
          = (outside region (candidates yaml roots tree)).find? (·.skill.name = other))
    (texts
      : ∀ entry ∈ candidates yaml roots tree, region.Outside entry.location →
          text tree' entry.location = text tree entry.location)
    : (∀ other, other ≠ name → SameSkill yaml roots tree tree' other) ↔
      Spared yaml roots tree region name := by
  have textOf : ∀ other entry,
      (outside region (candidates yaml roots tree)).find? (·.skill.name = other) = some entry →
        text tree' entry.location = text tree entry.location := by
    intro other entry first
    obtain ⟨mem, kept⟩ := List.mem_filter.mp (List.mem_of_find?_eq_some first)
    exact texts entry mem (of_decide_eq_true kept)
  constructor
  · intro same entry distinct first covered
    obtain ⟨listed, reads⟩ := same entry.skill.name distinct
    rw [find?_list, find?_list, first, found _ distinct] at listed
    obtain ⟨other, first', sameSkill⟩ := Option.map_eq_some_iff.mp listed
    refine ⟨other, first', sameSkill, ?_⟩
    rw [read_eq, read_eq, first, found _ distinct, first'] at reads
    rw [← textOf _ other first']
    exact reads
  · intro spared other distinct
    rw [SameSkill, find?_list, find?_list, read_eq, read_eq, found other distinct]
    cases first : find yaml roots tree other with
    | none =>
        rw [find?_outside_none first]
        exact ⟨rfl, rfl⟩
    | some entry =>
        by_cases kept : region.Outside entry.location
        · rw [find?_outside first kept]
          exact ⟨rfl, textOf other entry (find?_outside first kept)⟩
        · have named : entry.skill.name = other := by
            simpa using List.find?_some first
          subst named
          obtain ⟨next, first', sameSkill, sameText⟩ := spared entry distinct first kept
          rw [first', Option.map_some, Option.map_some, sameSkill]
          exact ⟨rfl, (textOf _ next first').trans sameText⟩

-----------------------------------------------------------------------------------------
-- What is written is read
-----------------------------------------------------------------------------------------

/-- The library prints the two strings on lines none of which could be a closing fence, and from
all but the last line break it reads the name and some description.
-/
structure Yaml.Prints (yaml : Yaml) (name description front reads : String) : Prop where
  printed : yaml.toString name description = some (front ++ "\n")
  fenceless : ¬closing <:+: front.toList
  read : yaml.fromStr front = some ⟨some name, some reads⟩

theorem stripPrefix_append (start rest : List Char)
    : stripPrefix start (start ++ rest) = some rest := by
  rw [stripPrefix, if_pos (List.prefix_append _ _), List.drop_left]

/-- A text is split where a separator first occurs, if its first character comes in it once, by
induction on the text before.
-/
theorem splitOnce_append {c : Char} {separator before after : List Char}
    (once : c ∉ separator) (free : ¬(c :: separator) <:+: before)
    : splitOnce (c :: separator) (before ++ (c :: separator) ++ after) = some (before, after) := by
  induction before with
  | nil =>
      rw [List.nil_append, List.cons_append, splitOnce, ← List.cons_append, stripPrefix_append]
  | cons first rest ih =>
      have later : ¬(c :: separator) <:+: rest := fun inside => free (List.infix_cons inside)
      have apart : ¬(c :: separator) <+: (first :: rest) ++ (c :: separator) ++ after := by
        intro start
        rcases List.prefix_or_prefix_of_prefix start (List.append_assoc _ _ _ ▸
          List.prefix_append (first :: rest) (c :: separator ++ after)) with short | long
        · exact free short.isInfix
        · -- the separator would contain its first character again
          obtain ⟨tail, whole⟩ := long
          rw [← whole, List.append_assoc, List.append_assoc, List.prefix_append_right_inj] at start
          cases tail with
          | nil =>
              rw [List.append_nil] at whole
              exact free (whole ▸ List.infix_rfl)
          | cons d tail =>
              rw [List.cons_append] at start
              obtain ⟨same, -⟩ := List.cons_prefix_cons.mp start
              rw [List.cons_append] at whole
              obtain ⟨head, whole⟩ := List.cons_eq_cons.mp whole
              have mem : d ∈ separator := whole ▸ List.mem_append_right _ List.mem_cons_self
              rw [same, head] at mem
              exact once mem
      rw [List.cons_append, List.cons_append, splitOnce, stripPrefix,
        if_neg (by simpa using apart), ih later]
      rfl

/-- The front matter of a skill file, and the text after it. -/
theorem splitFrontmatter_skillText {front reads content : String}
    (prints : yaml.Prints name description front reads)
    (written : skillText yaml name description body = some content)
    : splitFrontmatter content
      = some (front, "\n\n" ++ trimStart (stripLeadingFrontmatter body)) := by
  rw [skillText, prints.printed, Option.map_some] at written
  have text : content.toList = opening
      ++ (front.toList ++ closing
        ++ ("\n\n" ++ trimStart (stripLeadingFrontmatter body)).toList) := by
    rw [← Option.some.inj written]
    simp [opening, closing]
  rw [splitFrontmatter, text, stripPrefix_append]
  simp only [Option.bind_eq_bind, Option.bind_some]
  have split : splitOnce ('\n' :: "---".toList) (front.toList ++ ('\n' :: "---".toList)
        ++ ("\n\n" ++ trimStart (stripLeadingFrontmatter body)).toList)
      = some (front.toList, ("\n\n" ++ trimStart (stripLeadingFrontmatter body)).toList) :=
    splitOnce_append (by decide) prints.fenceless
  rw [show closing = '\n' :: "---".toList from rfl, split]
  simp only [Option.bind_some, String.ofList_toList]

/-- A skill file is listed under the name and the description that were read from it. -/
theorem parseMetadata_skillText {front reads content : String}
    (prints : yaml.Prints name description front reads)
    (written : skillText yaml name description body = some content)
    : parseMetadata yaml content = ⟨some name, some reads⟩ := by
  rw [parseMetadata, splitFrontmatter_skillText prints written]
  simp only [prints.read, Option.getD_some]

/-- Leading white space is trimmed once. -/
theorem trimStart_trimStart (text : String) : trimStart (trimStart text) = trimStart text := by
  rw [trimStart, trimStart, String.toList_ofList, List.dropWhile_idempotent]

/-- Writing the text of a skill again writes the same text. -/
theorem skillText_idem {front reads content : String}
    (prints : yaml.Prints name description front reads)
    (written : skillText yaml name description body = some content)
    : skillText yaml name description content = some content := by
  have blank : trimStart ("\n\n" ++ trimStart (stripLeadingFrontmatter body))
      = trimStart (stripLeadingFrontmatter body) := by
    have newline : isWhitespace '\n' = true := by decide
    rw [trimStart, String.toList_append, show "\n\n".toList = ['\n', '\n'] from rfl,
      List.cons_append, List.cons_append, List.nil_append, List.dropWhile_cons_of_pos newline,
      List.dropWhile_cons_of_pos newline]
    exact trimStart_trimStart _
  rw [skillText, stripLeadingFrontmatter, splitFrontmatter_skillText prints written]
  simp only [blank]
  exact written

/-- The text of a skill ends with its body. -/
theorem body_suffix_skillText {content : String}
    (written : skillText yaml name description body = some content)
    : (trimStart (stripLeadingFrontmatter body)).toList <:+ content.toList := by
  obtain ⟨front, -, rfl⟩ := Option.map_eq_some_iff.mp written
  rw [String.toList_append]
  exact List.suffix_append _ _

-----------------------------------------------------------------------------------------
-- Commands that succeed
-----------------------------------------------------------------------------------------

theorem writeSkillFile_ok {dir : Path}
    (wrote : writeSkillFile yaml tree dir name description body = .ok tree')
    : ∃ content, skillText yaml name description body = some content
        ∧ tree.write dir "SKILL.md" content = some tree' := by
  unfold writeSkillFile at wrote
  split at wrote
  · cases wrote
  · rename_i content text
    split at wrote
    · rename_i written
      cases wrote
      exact ⟨content, text, written⟩
    · cases wrote

/-- What a successful creation did. -/
theorem create_ok {skill : Skill}
    (created : create yaml roots name description body tree = (.ok skill, tree'))
    : find yaml roots tree name = none
      ∧ ∃ root source middle content,
          roots.findSome? (·.writableDirectory) = some (root, source)
          ∧ tree.createDirAll [] (root ++ [name]) = some middle
          ∧ skillText yaml name description body = some content
          ∧ middle.write (root ++ [name]) "SKILL.md" content = some tree' := by
  unfold create at created
  split at created
  · cases created
  · split at created
    · cases created
    · rename_i fresh
      split at created
      · cases created
      · rename_i root source first
        split at created
        · cases created
        · rename_i middle directories
          split at created
          · cases created
          · rename_i written wrote
            cases created
            obtain ⟨content, text, write⟩ := writeSkillFile_ok wrote
            refine ⟨?_, root, source, middle, content, first, directories, text, write⟩
            rw [← find?_discover]
            exact List.find?_eq_none.mpr (fun entry mem same =>
              fresh ⟨entry, mem, of_decide_eq_true same⟩)

theorem writableSkill_ok {dir : Path} {skill : Skill}
    (found : writableSkill yaml roots name tree = .ok (dir, skill))
    : ∃ entry, find yaml roots tree name = some entry ∧ entry.location = .directory dir
        ∧ entry.skill = skill := by
  unfold writableSkill at found
  cases valid : validateSkillName name with
  | error error =>
      rw [valid] at found
      cases found
  | ok _ =>
      rw [valid, find?_discover] at found
      simp only [bind, Except.bind] at found
      split at found
      · cases found
      · rename_i entry first
        split at found
        · rename_i located
          cases found
          exact ⟨entry, first, located, rfl⟩
        · cases found

/-- What a successful update did. -/
theorem update_ok {skill : Skill}
    (updated : update yaml roots name description body tree = (.ok skill, tree'))
    : ∃ entry dir content, find yaml roots tree name = some entry
        ∧ entry.location = .directory dir
        ∧ skillText yaml name description body = some content
        ∧ tree.write dir "SKILL.md" content = some tree' := by
  unfold update at updated
  split at updated
  · cases updated
  · rename_i dir old found
    split at updated
    · cases updated
    · rename_i wrote
      cases updated
      obtain ⟨entry, first, located, -⟩ := writableSkill_ok found
      obtain ⟨content, text, write⟩ := writeSkillFile_ok wrote
      exact ⟨entry, dir, content, first, located, text, write⟩

/-- What a successful deletion did. -/
theorem delete_ok {skill : Skill} (deleted : delete yaml roots name tree = (.ok skill, tree'))
    : ∃ entry dir, find yaml roots tree name = some entry ∧ entry.location = .directory dir
        ∧ tree' = tree.removeDirAll dir := by
  unfold delete at deleted
  split at deleted
  · cases deleted
  · rename_i dir old found
    cases deleted
    obtain ⟨entry, first, located, -⟩ := writableSkill_ok found
    exact ⟨entry, dir, first, located, rfl⟩

-----------------------------------------------------------------------------------------
-- The named skill
-----------------------------------------------------------------------------------------

/-- The skill is listed with the description, and its text ends with the body, without a leading
front matter and leading white space.
-/
def Listed (yaml : Yaml) (roots : List SkillRoot) (tree : FileTree)
    (name description body : String) : Prop :=
  ∃ skill, (list yaml roots tree).find? (·.name = name) = some skill
    ∧ skill.description = description
    ∧ ∃ content, read yaml roots name none tree = .ok content
      ∧ (trimStart (stripLeadingFrontmatter body)).toList <:+ content.toList

/-- Updating the skill with its own text leaves all files as they are. -/
def Stable (yaml : Yaml) (roots : List SkillRoot) (tree : FileTree) (name description : String)
    : Prop :=
  ∀ content, read yaml roots name none tree = .ok content →
    ∀ entry, entry ∈ (update yaml roots name description content tree).2.entries ↔
      entry ∈ tree.entries

/-- A skill found where its text was written. -/
structure WrittenAt (yaml : Yaml) (roots : List SkillRoot) (tree : FileTree)
    (name reads content : String) (dir : Path) : Prop where
  found
    : ∃ entry, find yaml roots tree name = some entry ∧ entry.location = .directory dir
        ∧ entry.skill.description = reads
  held : tree.read dir "SKILL.md" = some content

variable {front reads content : String} {dir : Path}

theorem WrittenAt.read_eq (at' : WrittenAt yaml roots tree name reads content dir)
    : read yaml roots name none tree = .ok content := by
  obtain ⟨entry, found, located, -⟩ := at'.found
  simp only [Skills.read_eq, found, located, text, readInside_skill, at'.held]

theorem WrittenAt.listed_iff (at' : WrittenAt yaml roots tree name reads content dir)
    (written : skillText yaml name description body = some content)
    : Listed yaml roots tree name description body ↔ reads = description := by
  obtain ⟨entry, found, -, described⟩ := at'.found
  rw [Listed, find?_list, found]
  constructor
  · rintro ⟨skill, shown, same, -⟩
    cases Option.some.inj shown
    exact described.symm.trans same
  · intro same
    exact ⟨entry.skill, rfl, described.trans same, content, at'.read_eq,
      body_suffix_skillText written⟩

theorem WrittenAt.stable (at' : WrittenAt yaml roots tree name reads content dir)
    (prints : yaml.Prints name description front reads)
    (written : skillText yaml name description body = some content)
    : Stable yaml roots tree name description := by
  intro shown reading entry
  cases Except.ok.inj (at'.read_eq.symm.trans reading)
  rw [update]
  split
  · exact Iff.rfl
  · rename_i other skill found
    obtain ⟨entry', first, located, -⟩ := writableSkill_ok found
    obtain ⟨entry'', first', located', -⟩ := at'.found
    cases Option.some.inj (first.symm.trans first')
    cases SkillLocation.directory.inj (located.symm.trans located')
    rcases wrote : writeSkillFile yaml tree dir name description content with error | tree'
    · exact Iff.rfl
    · obtain ⟨again, text, write⟩ := writeSkillFile_ok wrote
      cases Option.some.inj (text.symm.trans (skillText_idem prints written))
      exact FileTree.mem_write_same at'.held write

-----------------------------------------------------------------------------------------
-- The three commands
-----------------------------------------------------------------------------------------

/-- The directory alone. -/
def Region.only (dir : Path) : Region := ⟨(· = dir)⟩

/-- The directory and all below it. -/
def Region.below (dir : Path) : Region := ⟨(dir <+: ·)⟩

/-- A search looks at the elements of its list only, by induction on it. -/
theorem find?_congr {α : Type} {p q : α → Bool} {items : List α}
    (same : ∀ item ∈ items, p item = q item)
    : items.find? p = items.find? q := by
  induction items with
  | nil => rfl
  | cons item rest ih =>
      rw [List.find?_cons, List.find?_cons, same item List.mem_cons_self,
        ih (fun other mem => same other (List.mem_cons_of_mem _ mem))]

/-- A name that no skill of the region has is found outside of it. -/
theorem find_eq_outside {region : Region}
    (others : ∀ entry ∈ candidates yaml roots tree, ¬region.Outside entry.location →
      entry.skill.name ≠ name)
    : find yaml roots tree name
      = (outside region (candidates yaml roots tree)).find? (·.skill.name = name) := by
  rw [find, outside, List.find?_filter]
  refine find?_congr (fun entry mem => ?_)
  by_cases kept : region.Outside entry.location
  · simp [kept]
  · simp [kept, others entry mem kept]

/-- A skill in a directory comes from what the directory holds. -/
theorem candidate_at {entry : DiscoveredSkill} (mem : entry ∈ candidates yaml roots tree)
    (located : entry.location = .directory dir)
    : ∃ root path own content, path ++ [own] = dir ∧ HoldsSkill tree path own content
        ∧ entry = directorySkill yaml root path own content := by
  rcases mem_candidates mem with ⟨root, path, own, content, held, rfl⟩ | ⟨files, builtin⟩
  · exact ⟨root, path, own, content, SkillLocation.directory.inj located, held, rfl⟩
  · rw [located] at builtin
    cases builtin

theorem not_outside_only {location : SkillLocation}
    : ¬(Region.only dir).Outside location ↔ location = .directory dir := by
  cases location with
  | directory path => simp [Region.Outside, Region.only]
  | builtin files => simp [Region.Outside]

section Write

variable {middle : FileTree} {root : Path}

/-- Creating a skill changes no skill of another directory. -/
theorem holdsSkill_create (directories : tree.createDirAll [] (root ++ [name]) = some middle)
    (wrote : middle.write (root ++ [name]) "SKILL.md" content = some tree') {path : Path}
    {own held : String} (other : ¬path ++ [own] = root ++ [name])
    : HoldsSkill tree' path own held ↔ HoldsSkill tree path own held := by
  obtain ⟨kept, added⟩ := FileTree.mem_createDirAll directories
  constructor
  · rintro ⟨-, file⟩
    rcases (FileTree.mem_write wrote).mp file with ⟨stored, -⟩ | same
    · rcases added _ stored with old | dir
      · exact ⟨FileTree.mem_of_child old rfl, old⟩
      · cases dir
    · exact absurd (congrArg Entry.parent same) other
  · rintro ⟨dir, file⟩
    constructor
    · refine (FileTree.mem_write wrote).mpr (Or.inl ⟨kept _ dir, ?_⟩)
      rintro ⟨rfl, rfl⟩
      exact FileTree.write_place wrote (kept _ dir)
    · exact (FileTree.mem_write wrote).mpr (Or.inl ⟨kept _ file, fun place => other place.1⟩)

/-- The directory of the created skill holds what was written. -/
theorem holdsSkill_created
    (wrote : middle.write (root ++ [name]) "SKILL.md" content = some tree')
    : HoldsSkill tree' root name content := by
  have file : (⟨root ++ [name], "SKILL.md", .file content⟩ : Entry) ∈ tree'.entries :=
    (FileTree.mem_write wrote).mpr (Or.inr rfl)
  exact ⟨FileTree.mem_of_child file rfl, file⟩

end Write

/-- A file holds one text. -/
theorem HoldsSkill.unique {path : Path} {own held : String}
    (first : HoldsSkill tree path own content) (second : HoldsSkill tree path own held)
    : content = held := by
  have same := FileTree.eq_of_place first.2 second.2 rfl rfl
  simpa using same

/-- **Creating a skill leaves the others as they are exactly if the directory of its name held
none of them that was shown**, and the skill is listed as given exactly if its description is read
back.
-/
theorem create_touches_the_named_skill {skill : Skill}
    (prints : yaml.Prints name description front reads)
    (created : create yaml roots name description body tree = (.ok skill, tree'))
    : ((∀ other, other ≠ name → SameSkill yaml roots tree tree' other)
        ↔ ∀ root source, roots.findSome? (·.writableDirectory) = some (root, source) →
            Spared yaml roots tree (.only (root ++ [name])) name)
      ∧ (Listed yaml roots tree' name description body ↔ reads = description)
      ∧ Stable yaml roots tree' name description := by
  obtain ⟨fresh, root, source, middle, content, first, directories, written, wrote⟩ :=
    create_ok created
  have metadata := parseMetadata_skillText prints written
  have elsewhere : ∀ path own held, ¬(Region.only (root ++ [name])).Covers (path ++ [own]) →
      (HoldsSkill tree' path own held ↔ HoldsSkill tree path own held) :=
    fun _ _ _ kept => holdsSkill_create directories wrote kept
  have created := holdsSkill_created wrote
  have same : outside (.only (root ++ [name])) (candidates yaml roots tree')
      = outside (.only (root ++ [name])) (candidates yaml roots tree) :=
    outside_candidates elsewhere
  -- the skills of the directory are the created one
  have here : ∀ entry ∈ candidates yaml roots tree',
      entry.location = .directory (root ++ [name]) →
        entry.skill.name = name ∧ entry.skill.description = reads := by
    intro entry mem located
    obtain ⟨of, path, own, held, place, holds, rfl⟩ := candidate_at mem located
    obtain ⟨rfl, own⟩ := List.append_inj' place rfl
    cases own
    cases holds.unique created
    simp [directorySkill, metadata]
  have found : ∀ other, other ≠ name → find yaml roots tree' other
      = (outside (.only (root ++ [name])) (candidates yaml roots tree)).find?
          (·.skill.name = other) := by
    intro other distinct
    rw [← same]
    refine find_eq_outside (fun entry mem covered named => ?_)
    exact distinct (named.symm.trans (here entry mem (not_outside_only.mp covered)).1)
  have texts : ∀ entry ∈ candidates yaml roots tree,
      (Region.only (root ++ [name])).Outside entry.location →
        text tree' entry.location = text tree entry.location := by
    refine fun entry mem kept => text_candidate mem (fun path own held holds located => ?_)
    rw [located] at kept
    exact (elsewhere path own held kept).mpr holds
  have at' : WrittenAt yaml roots tree' name reads content (root ++ [name]) := by
    refine ⟨?_, FileTree.read_eq_some.mpr created.2⟩
    obtain ⟨of, ofMem, writable⟩ := List.exists_of_findSome?_eq_some first
    have kind : of.kind = .directory root := by
      unfold SkillRoot.writableDirectory at writable
      split at writable
      · rename_i path kind _
        cases writable
        exact kind
      · cases writable
    have mem : directorySkill yaml of root name content ∈ candidates yaml roots tree' := by
      refine List.mem_flatMap.mpr ⟨of, ofMem, ?_⟩
      rw [discoverRoot, kind]
      exact mem_discoverDirectory.mpr ⟨name, content, created, rfl⟩
    cases shown : find yaml roots tree' name with
    | none =>
        have named := List.find?_eq_none.mp shown _ mem
        simp [directorySkill, metadata] at named
    | some entry =>
        have entryMem := List.mem_of_find?_eq_some shown
        have named : entry.skill.name = name := by simpa using List.find?_some shown
        have located : entry.location = .directory (root ++ [name]) := by
          rw [← not_outside_only]
          intro kept
          have old : entry ∈ outside (.only (root ++ [name])) (candidates yaml roots tree) := by
            rw [← same]
            exact List.mem_filter.mpr ⟨entryMem, by simpa using kept⟩
          have missing := List.find?_eq_none.mp fresh entry (List.mem_of_mem_filter old)
          exact missing (by simpa using named)
        exact ⟨entry, rfl, located, (here entry entryMem located).2⟩
  refine ⟨?_, at'.listed_iff written, at'.stable prints written⟩
  rw [same_iff_spared found texts]
  constructor
  · intro spared root' source' first'
    cases Option.some.inj (first.symm.trans first')
    exact spared
  · exact fun spared => spared root source first

/-- The skill of a directory with another name and description. -/
def reworded (dir : Path) (name reads : String) (entry : DiscoveredSkill) : DiscoveredSkill :=
  if entry.location = .directory dir then { entry with skill := ⟨name, reads, entry.skill.source⟩ }
  else entry

/-- Writing the file of a skill rewords it and leaves all others. -/
theorem candidates_write (held : ∃ path own old, path ++ [own] = dir ∧ HoldsSkill tree path own old)
    (metadata : parseMetadata yaml content = ⟨some name, some reads⟩)
    (wrote : tree.write dir "SKILL.md" content = some tree')
    : candidates yaml roots tree' = (candidates yaml roots tree).map (reworded dir name reads) := by
  obtain ⟨path, own, old, rfl, holds⟩ := held
  rw [candidates, candidates, List.map_flatMap]
  refine List.flatMap_congr (fun root _ => ?_)
  rw [discoverRoot, discoverRoot]
  split
  · rename_i place _
    rw [discoverDirectory, discoverDirectory, FileTree.subdirectories_write wrote,
      List.map_filterMap]
    refine List.filterMap_congr (fun name' _ => ?_)
    by_cases here : place ++ [name'] = path ++ [own]
    · have now : tree'.read (place ++ [name']) "SKILL.md" = some content := by
        rw [here]
        exact FileTree.read_eq_some.mpr ((FileTree.mem_write wrote).mpr (Or.inr rfl))
      have before : tree.read (place ++ [name']) "SKILL.md" = some old := by
        rw [here]
        exact FileTree.read_eq_some.mpr holds.2
      rw [now, before]
      simp [directorySkill, reworded, metadata, here]
    · rw [FileTree.read_write_other wrote here]
      cases tree.read (place ++ [name']) "SKILL.md" with
      | none => rfl
      | some held => simp [directorySkill, reworded, here]
  · rw [List.map_map]
    refine List.map_congr_left (fun builtin _ => ?_)
    simp [reworded]

/-- **Updating a skill leaves all others as they are**, and it is listed as given exactly if its
description is read back.
-/
theorem update_touches_the_named_skill {skill : Skill}
    (prints : yaml.Prints name description front reads)
    (updated : update yaml roots name description body tree = (.ok skill, tree'))
    : (∀ other, other ≠ name → SameSkill yaml roots tree tree' other)
      ∧ (Listed yaml roots tree' name description body ↔ reads = description)
      ∧ Stable yaml roots tree' name description := by
  obtain ⟨entry, dir, content, shown, located, written, wrote⟩ := update_ok updated
  have metadata := parseMetadata_skillText prints written
  have named : entry.skill.name = name := by simpa using List.find?_some shown
  obtain ⟨of, path, own, old, place, holds, same⟩ :=
    candidate_at (List.mem_of_find?_eq_some shown) located
  have after : candidates yaml roots tree'
      = (candidates yaml roots tree).map (reworded dir name reads) :=
    candidates_write ⟨path, own, old, place, holds⟩ metadata wrote
  -- the skills of the directory have the name
  have here : ∀ other ∈ candidates yaml roots tree, other.location = .directory dir →
      other.skill.name = name := by
    intro other mem at'
    obtain ⟨of', path', own', old', place', holds', rfl⟩ := candidate_at mem at'
    obtain ⟨rfl, sameOwn⟩ := List.append_inj' (place'.trans place.symm) rfl
    cases sameOwn
    cases holds'.unique holds
    rw [← named, same]
    rfl
  have found : ∀ other, find yaml roots tree' other
      = (find yaml roots tree other).map (reworded dir name reads) := by
    intro other
    rw [find, after, List.find?_map]
    refine congrArg _ (find?_congr (fun candidate mem => ?_))
    rw [Function.comp_apply, reworded]
    split
    · rename_i at'
      rw [here candidate mem at']
    · rfl
  have at' : WrittenAt yaml roots tree' name reads content dir := by
    refine ⟨⟨reworded dir name reads entry, ?_, ?_, ?_⟩, ?_⟩
    · rw [found, shown, Option.map_some]
    · rw [reworded, if_pos located]
      exact located
    · rw [reworded, if_pos located]
    · exact FileTree.read_eq_some.mpr ((FileTree.mem_write wrote).mpr (Or.inr rfl))
  refine ⟨fun other distinct => ?_, at'.listed_iff written, at'.stable prints written⟩
  rw [SameSkill, find?_list, find?_list, read_eq, read_eq, found]
  cases shownOther : find yaml roots tree other with
  | none => exact ⟨rfl, rfl⟩
  | some candidate =>
      have mem := List.mem_of_find?_eq_some shownOther
      have namedOther : candidate.skill.name = other := by simpa using List.find?_some shownOther
      have elsewhere : candidate.location ≠ .directory dir := fun at' =>
        distinct (namedOther.symm.trans (here candidate mem at'))
      rw [Option.map_some, reworded, if_neg elsewhere]
      refine ⟨rfl, text_candidate mem (fun path' own' held holds' located' => ?_)⟩
      have apart : path' ++ [own'] ≠ dir := fun equal => elsewhere (equal ▸ located')
      refine ⟨(FileTree.mem_write wrote).mpr (Or.inl ⟨holds'.1, ?_⟩),
        (FileTree.mem_write wrote).mpr (Or.inl ⟨holds'.2, fun place => apart place.1⟩)⟩
      rintro ⟨rfl, rfl⟩
      exact FileTree.write_place wrote holds'.1

/-- **Deleting a skill leaves the others as they are exactly if none of them that was shown lay
below its directory.**
-/
theorem delete_touches_the_named_skill {skill : Skill}
    (deleted : delete yaml roots name tree = (.ok skill, tree'))
    : (∀ other, other ≠ name → SameSkill yaml roots tree tree' other)
      ↔ ∀ entry dir, find yaml roots tree name = some entry → entry.location = .directory dir →
          Spared yaml roots tree (.below dir) name := by
  obtain ⟨entry, dir, shown, located, rfl⟩ := delete_ok deleted
  obtain ⟨of, path, own, old, rfl, holds, -⟩ :=
    candidate_at (List.mem_of_find?_eq_some shown) located
  have held : ∀ path' own' content, HoldsSkill (tree.removeDirAll (path ++ [own])) path' own' content
      ↔ HoldsSkill tree path' own' content ∧ ¬path ++ [own] <+: path' ++ [own'] := by
    intro path' own' content
    simp only [HoldsSkill, FileTree.mem_removeDirAll, Entry.path]
    constructor
    · rintro ⟨⟨dirMem, kept⟩, fileMem, -⟩
      exact ⟨⟨dirMem, fileMem⟩, kept⟩
    · rintro ⟨⟨dirMem, fileMem⟩, kept⟩
      refine ⟨⟨dirMem, kept⟩, fileMem, fun below => ?_⟩
      rcases List.prefix_concat_iff.mp below with same | below
      · -- the file would be the directory that is removed
        obtain ⟨rfl, sameName⟩ := List.append_inj' same rfl
        cases sameName
        have clash := FileTree.eq_of_place fileMem holds.1 rfl rfl
        cases clash
      · exact kept below
  have same : outside (.below (path ++ [own]))
        (candidates yaml roots (tree.removeDirAll (path ++ [own])))
      = outside (.below (path ++ [own])) (candidates yaml roots tree) :=
    outside_candidates
      (fun path' own' content kept => (held path' own' content).trans (and_iff_left kept))
  have found : ∀ other, other ≠ name →
      find yaml roots (tree.removeDirAll (path ++ [own])) other
        = (outside (.below (path ++ [own])) (candidates yaml roots tree)).find?
            (·.skill.name = other) := by
    intro other _
    rw [← same]
    refine find_eq_outside (fun candidate mem covered => absurd ?_ covered)
    rcases mem_candidates mem with ⟨root, path', own', content, holds', rfl⟩ | ⟨files, builtin⟩
    · exact ((held _ _ _).mp holds').2
    · rw [builtin]
      trivial
  have texts : ∀ candidate ∈ candidates yaml roots tree,
      (Region.below (path ++ [own])).Outside candidate.location →
        text (tree.removeDirAll (path ++ [own])) candidate.location
          = text tree candidate.location := by
    refine fun candidate mem kept => text_candidate mem (fun path' own' content holds' at' => ?_)
    rw [at'] at kept
    exact (held path' own' content).mpr ⟨holds', kept⟩
  rw [same_iff_spared found texts]
  constructor
  · intro spared entry' dir' shown' located'
    cases Option.some.inj (shown.symm.trans shown')
    cases SkillLocation.directory.inj (located.symm.trans located')
    exact spared
  · exact fun spared => spared entry _ shown located

/-- **What the commands on a skill do.** A creation does what it should exactly if the directory of
its name held no other skill that was shown and the description is read back, an update if the
description is read back, and a deletion if no other skill that was shown lay below the directory.
-/
theorem skill_commands {skill : Skill}
    : (∀ front reads, yaml.Prints name description front reads →
        create yaml roots name description body tree = (.ok skill, tree') →
        (((∀ other, other ≠ name → SameSkill yaml roots tree tree' other)
            ∧ Listed yaml roots tree' name description body
            ∧ Stable yaml roots tree' name description)
          ↔ (∀ root source, roots.findSome? (·.writableDirectory) = some (root, source) →
              Spared yaml roots tree (.only (root ++ [name])) name)
            ∧ reads = description))
      ∧ (∀ front reads, yaml.Prints name description front reads →
          update yaml roots name description body tree = (.ok skill, tree') →
          (((∀ other, other ≠ name → SameSkill yaml roots tree tree' other)
              ∧ Listed yaml roots tree' name description body
              ∧ Stable yaml roots tree' name description)
            ↔ reads = description))
      ∧ (delete yaml roots name tree = (.ok skill, tree') →
          ((∀ other, other ≠ name → SameSkill yaml roots tree tree' other)
            ↔ ∀ entry dir, find yaml roots tree name = some entry →
                entry.location = .directory dir →
                Spared yaml roots tree (.below dir) name)) := by
  refine ⟨fun front reads prints created => ?_, fun front reads prints updated => ?_, fun deleted =>
    delete_touches_the_named_skill deleted⟩
  · obtain ⟨others, listed, stable⟩ := create_touches_the_named_skill prints created
    rw [others, listed]
    exact ⟨fun all => ⟨all.1, all.2.1⟩, fun all => ⟨all.1, all.2, stable⟩⟩
  · obtain ⟨others, listed, stable⟩ := update_touches_the_named_skill prints updated
    rw [listed]
    exact ⟨fun all => all.2.1, fun same => ⟨others, same, stable⟩⟩

namespace Renamed

def matter : String := "name: deploy\ndescription: Roll out."

/-- What the library does with the two skills. -/
def library : Yaml where
  toString name description := some ("name: " ++ name ++ "\ndescription: " ++ description ++ "\n")
  fromStr frontmatter :=
    if frontmatter = matter then some ⟨some "deploy", some "Roll out."⟩
    else if frontmatter = "name: release\ndescription: Ship." then
      some ⟨some "release", some "Ship."⟩
    else none

def userRoots : List SkillRoot := [⟨.directory ["skills"], "user", true⟩]

/-- The directory `deploy` holds the skill `release`. -/
def stored : List Entry :=
  [⟨[], "skills", .dir⟩, ⟨["skills"], "deploy", .dir⟩,
    ⟨["skills", "deploy"], "SKILL.md",
      .file "---\nname: release\ndescription: Ship.\n---\n\n# Release\n"⟩]

theorem distinct : stored.Pairwise (fun a b => ¬Relational.Constrained.Clash a b) := by
  decide +kernel

def entries : Relational.Table Entry := ⟨stored, distinct⟩

theorem rooted : ∀ entry ∈ entries, Directory entries entry.parent := by decide +kernel

def home : FileTree := ⟨entries, rooted⟩

def created : Outcome := create library userRoots "deploy" "Roll out." "# Deploy\n" home

theorem prints : library.Prints "deploy" "Roll out." matter "Roll out." :=
  ⟨by decide +kernel, by decide +kernel, by decide +kernel⟩

end Renamed

/-- Creating a skill loses another one that is stored in the directory of its name. -/
theorem create_overwrites_renamed_skill
    : Renamed.library.Prints "deploy" "Roll out." Renamed.matter "Roll out."
      ∧ Renamed.created.1 = .ok ⟨"deploy", "Roll out.", "user"⟩
      ∧ (list Renamed.library Renamed.userRoots Renamed.home).map (·.name) = ["release"]
      ∧ (list Renamed.library Renamed.userRoots Renamed.created.2).map (·.name) = ["deploy"]
      ∧ ¬SameSkill Renamed.library Renamed.userRoots Renamed.home Renamed.created.2 "release" := by
  refine ⟨Renamed.prints, by decide +kernel, by decide +kernel, by decide +kernel,
    fun same => absurd same.1 ?_⟩
  decide +kernel

end Codrik.Skills

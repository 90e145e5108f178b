import Codrik.Files.FileTree
import Codrik.Runtime.Model

/-! The skills found under a list of roots, and the commands that create, update and delete them
(`skills.rs`).
-/

namespace Codrik.Skills

open Codrik.Files
open Codrik.Runtime (isWhitespace)

-----------------------------------------------------------------------------------------
-- Front matter
-----------------------------------------------------------------------------------------

/-- `str::strip_prefix` -/
def stripPrefix (start text : List Char) : Option (List Char) :=
  if start <+: text then some (text.drop start.length) else none

/-- `str::split_once` -/
def splitOnce (separator : List Char) : List Char → Option (List Char × List Char)
  | [] => (stripPrefix separator []).map ([], ·)
  | c :: rest =>
      match stripPrefix separator (c :: rest) with
      | some after => some ([], after)
      | none => (splitOnce separator rest).map (fun parts => (c :: parts.1, parts.2))

/-- `str::trim_start` -/
def trimStart (text : String) : String := String.ofList (text.toList.dropWhile isWhitespace)

/-- The fences of a front matter. -/
def opening : List Char := "---\n".toList

def closing : List Char := "\n---".toList

/-- A leading front matter and what follows its closing fence. -/
def splitFrontmatter (content : String) : Option (String × String) := do
  let rest ← stripPrefix opening content.toList
  let (frontmatter, body) ← splitOnce closing rest
  some (String.ofList frontmatter, String.ofList body)

structure SkillMetadata where
  name : Option String
  description : Option String
deriving DecidableEq

/-- The YAML library: it prints a name and a description, and reads a front matter. -/
structure Yaml where
  toString : String → String → Option String
  fromStr : String → Option SkillMetadata

/-- `parse_metadata` -/
def parseMetadata (yaml : Yaml) (content : String) : SkillMetadata :=
  match splitFrontmatter content with
  | some (frontmatter, _) => (yaml.fromStr frontmatter).getD ⟨none, none⟩
  | none => ⟨none, none⟩

/-- `strip_leading_frontmatter` -/
def stripLeadingFrontmatter (content : String) : String :=
  match splitFrontmatter content with
  | some (_, body) => body
  | none => content

/-- The text that `write_skill_file` writes. -/
def skillText (yaml : Yaml) (name description body : String) : Option String :=
  (yaml.toString name description).map (fun frontmatter =>
    "---\n" ++ frontmatter ++ "---\n\n" ++ trimStart (stripLeadingFrontmatter body))

-----------------------------------------------------------------------------------------
-- Discovery
-----------------------------------------------------------------------------------------

structure Skill where
  name : String
  description : String
  source : String
deriving DecidableEq

structure BuiltinSkillFile where
  path : String
  content : String
deriving DecidableEq

structure BuiltinSkill where
  name : String
  description : String
  files : List BuiltinSkillFile

inductive SkillRootKind
  | directory (path : Path)
  | builtin (skills : List BuiltinSkill)

structure SkillRoot where
  kind : SkillRootKind
  source : String
  writable : Bool

inductive SkillLocation
  | directory (path : Path)
  | builtin (files : List BuiltinSkillFile)
deriving DecidableEq

structure DiscoveredSkill where
  location : SkillLocation
  writable : Bool
  skill : Skill
deriving DecidableEq

/-- The skill of a directory with a `SKILL.md`. -/
def directorySkill (yaml : Yaml) (root : SkillRoot) (path : Path) (name content : String)
    : DiscoveredSkill :=
  let metadata := parseMetadata yaml content
  ⟨.directory (path ++ [name]), root.writable,
    ⟨metadata.name.getD name, metadata.description.getD "", root.source⟩⟩

/-- `discover_directory`; a path that is no directory has no entries. -/
def discoverDirectory (yaml : Yaml) (tree : FileTree) (root : SkillRoot) (path : Path)
    : List DiscoveredSkill :=
  (tree.subdirectories path).filterMap (fun name =>
    (tree.read (path ++ [name]) "SKILL.md").map (directorySkill yaml root path name))

/-- `discover_root` -/
def discoverRoot (yaml : Yaml) (tree : FileTree) (root : SkillRoot) : List DiscoveredSkill :=
  match root.kind with
  | .directory path => discoverDirectory yaml tree root path
  | .builtin skills =>
      skills.map (fun builtin =>
        ⟨.builtin builtin.files, false, ⟨builtin.name, builtin.description, root.source⟩⟩)

/-- The first skill of each name that was not seen before. -/
def unseen (seen : List String) : List DiscoveredSkill → List DiscoveredSkill
  | [] => []
  | entry :: rest =>
      if entry.skill.name ∈ seen then unseen seen rest
      else entry :: unseen (entry.skill.name :: seen) rest

/-- `discover` -/
def discover (yaml : Yaml) (roots : List SkillRoot) (tree : FileTree) : List DiscoveredSkill :=
  unseen [] (roots.flatMap (discoverRoot yaml tree))

/-- `list` -/
def list (yaml : Yaml) (roots : List SkillRoot) (tree : FileTree) : List Skill :=
  (discover yaml roots tree).map (·.skill)

-----------------------------------------------------------------------------------------
-- Reading
-----------------------------------------------------------------------------------------

/-- The components of a relative path: those between slashes, without `.` and empty ones. -/
def components (relative : String) : List String :=
  ((relative.toList.splitOn '/').map String.ofList).filter (fun part => part ≠ "" ∧ part ≠ ".")

def relativeComponents (relative : String) : Except String (List String) :=
  if relative.toList.head? = some '/' then .error "skill path must be relative"
  else if ".." ∈ components relative then .error "skill path escapes skill directory"
  else .ok (components relative)

def display (path : Path) : String := "/" ++ "/".intercalate path

/-- `resolve_inside` and the read that follows, in a tree without symbolic links. -/
def readInside (tree : FileTree) (dir : Path) (relative : String) : Except String String := do
  let parts ← relativeComponents relative
  let path := dir ++ parts
  let content := match parts.getLast? with
    | some name => tree.read path.dropLast name
    | none => none
  match content with
  | some content => .ok content
  | none => .error ("failed to read skill file: " ++ display path)

/-- `read_builtin_file` -/
def readBuiltinFile (files : List BuiltinSkillFile) (relative : String) : Except String String := do
  let _ ← relativeComponents relative
  match files.find? (·.path = relative) with
  | some file => .ok file.content
  | none => .error ("unknown built-in skill asset: " ++ relative)

/-- `read` -/
def read (yaml : Yaml) (roots : List SkillRoot) (name : String) (relative : Option String)
    (tree : FileTree) : Except String String :=
  match (discover yaml roots tree).find? (·.skill.name = name) with
  | none => .error ("unknown skill: " ++ name)
  | some entry =>
      match entry.location with
      | .directory dir => readInside tree dir (relative.getD "SKILL.md")
      | .builtin files => readBuiltinFile files (relative.getD "SKILL.md")

-----------------------------------------------------------------------------------------
-- Commands
-----------------------------------------------------------------------------------------

/-- `validate_skill_name` -/
def validateSkillName (name : String) : Except String Unit :=
  if name = "" ∨ name = "." ∨ name = ".." ∨ '/' ∈ name.toList ∨ '\\' ∈ name.toList
      ∨ name.toList.any isWhitespace then
    .error ("unsafe skill name: " ++ name)
  else .ok ()

/-- `write_skill_file` -/
def writeSkillFile (yaml : Yaml) (tree : FileTree) (dir : Path) (name description body : String)
    : Except String FileTree :=
  match skillText yaml name description body with
  | none => .error "failed to serialize skill frontmatter"
  | some text =>
      match tree.write dir "SKILL.md" text with
      | some tree => .ok tree
      | none => .error ("failed to write skill file: " ++ display (dir ++ ["SKILL.md"]))

def SkillRoot.writableDirectory (root : SkillRoot) : Option (Path × String) :=
  match root.kind, root.writable with
  | .directory path, true => some (path, root.source)
  | _, _ => none

/-- A command answers, and leaves a tree behind whether it succeeds or not. -/
abbrev Outcome := Except String Skill × FileTree

/-- `create` -/
def create (yaml : Yaml) (roots : List SkillRoot) (name description body : String)
    (tree : FileTree) : Outcome :=
  match validateSkillName name with
  | .error error => (.error error, tree)
  | .ok () =>
      if ∃ entry ∈ discover yaml roots tree, entry.skill.name = name then
        (.error ("skill already exists: " ++ name), tree)
      else
        match roots.findSome? (·.writableDirectory) with
        | none => (.error "no writable skill root configured", tree)
        | some (root, source) =>
            match tree.createDirAll [] (root ++ [name]) with
            | none =>
                (.error ("failed to create skill directory: " ++ display (root ++ [name])), tree)
            | some tree =>
                match writeSkillFile yaml tree (root ++ [name]) name description body with
                | .error error => (.error error, tree)
                | .ok tree => (.ok ⟨name, description, source⟩, tree)

/-- The directory of a skill that may be changed. -/
def writableSkill (yaml : Yaml) (roots : List SkillRoot) (name : String) (tree : FileTree)
    : Except String (Path × Skill) := do
  validateSkillName name
  match (discover yaml roots tree).find? (·.skill.name = name) with
  | none => .error ("unknown writable skill: " ++ name)
  | some entry =>
      match entry.writable, entry.location with
      | true, .directory dir => .ok (dir, entry.skill)
      | _, _ => .error ("skill is read-only: " ++ name)

/-- `update` -/
def update (yaml : Yaml) (roots : List SkillRoot) (name description body : String)
    (tree : FileTree) : Outcome :=
  match writableSkill yaml roots name tree with
  | .error error => (.error error, tree)
  | .ok (dir, skill) =>
      match writeSkillFile yaml tree dir name description body with
      | .error error => (.error error, tree)
      | .ok tree => (.ok ⟨name, description, skill.source⟩, tree)

/-- `delete` -/
def delete (yaml : Yaml) (roots : List SkillRoot) (name : String) (tree : FileTree) : Outcome :=
  match writableSkill yaml roots name tree with
  | .error error => (.error error, tree)
  | .ok (dir, skill) => (.ok skill, tree.removeDirAll dir)

end Codrik.Skills

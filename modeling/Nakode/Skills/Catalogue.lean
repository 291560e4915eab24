import Nakode.Lib.Lines
import Nakode.Lib.Outcome
import Nakode.Lib.Words
import Nakode.Skills.References

/-!
# The catalogue of skills

A package is loaded under the name of its directory. Its definition may declare an identity and a
description (`frontmatter`), and without an identity its name stands for one (`stableId`). What is
loaded has different names that are valid, and identities that are declared and valid or are the name
(`accepted_of_loadFromRoots`): the two rules differ in that a name may be of any length.
-/

namespace Nakode.Skills.Catalogue

open Outcome
open Text (trim trimMatches splitOnce splitWhitespace stripPrefix len)

/-! ## Loading -/

/-- A skill with what the catalogue shows of it. -/
structure Skill extends Skills.Skill where
  id : String
  description : String
  deriving DecidableEq, Repr

structure SkillCatalog where
  skills : List Skill

def Skill.stableId (skill : Skill) : String := if skill.id.isEmpty then skill.name else skill.id

def validIdentity (identity : String) : Bool :=
  !identity.isEmpty && len identity ≤ 128 &&
    identity.toList.all fun c => c.isAlphanum || c == '.' || c == ':' || c == '_' || c == '-'

def validName (name : String) : Bool := !name.isEmpty && name.toList.all isNameChar

structure Frontmatter where
  id : Option String
  name : Option String
  description : Option String
  components : List String
  deriving DecidableEq, Repr

def Frontmatter.default : Frontmatter := ⟨none, none, none, []⟩

def trimQuotes (value : String) : String := trimMatches (fun c => c == '\'' || c == '"') value

/-- The loop of `frontmatter`, with `reading_components`. -/
def metadataFrom (metadata : Frontmatter) (readingComponents : Bool) : List String → Frontmatter
  | [] => metadata
  | line :: lines =>
    if trim line = "---" then metadata
    else
      match if readingComponents then stripPrefix (trim line) "- " else none with
      | some component =>
        let component := trimQuotes (trim component)
        metadataFrom
          (if component.isEmpty then metadata
            else { metadata with components := metadata.components ++ [component] })
          true lines
      | none =>
        match splitOnce ':' line with
        | none => metadataFrom metadata false lines
        | some (key, value) =>
          let key := trim key
          let value := trimQuotes (trim value)
          if key = "id" ∧ !value.isEmpty then
            metadataFrom { metadata with id := some value } false lines
          else if key = "name" ∧ !value.isEmpty then
            metadataFrom { metadata with name := some value } false lines
          else if key = "description" ∧ !value.isEmpty then
            metadataFrom { metadata with description := some value } false lines
          else metadataFrom metadata (key = "components" ∧ value.isEmpty) lines

def frontmatter (contents : String) : Frontmatter :=
  match (Lines.linesOf contents.toList).map String.ofList with
  | [] => Frontmatter.default
  | first :: lines =>
    if trim first = "---" then metadataFrom Frontmatter.default false lines
    else Frontmatter.default

inductive SkillCatalogError where
  | invalidName (path : String)
  | emptyDefinition (path : String)
  | nameMismatch (path declared directory : String)
  | invalidIdentity (path : String)
  | duplicateIdentity (id first second : String)
  /-- A directory, a definition or a component that cannot be read or is not safe. -/
  | unreadable (path : String)
  deriving DecidableEq, Repr

/-- What is read of a package: its definition and, with the components that it declares, the payload
of `read_skill`. -/
structure Package where
  path : String
  directory : String
  entrypoint : Except SkillCatalogError String
  payload : Frontmatter → Except SkillCatalogError String

def readSkill (package : Package) : Except SkillCatalogError Skill := do
  ensure (validName package.directory) (.invalidName package.path)
  let entrypoint ← package.entrypoint
  ensure (!(trim entrypoint).isEmpty) (.emptyDefinition package.path)
  let metadata := frontmatter entrypoint
  let declared := metadata.name.getD package.directory
  ensure (declared = package.directory) (.nameMismatch package.path declared package.directory)
  ensure (metadata.id.all validIdentity) (.invalidIdentity package.path)
  let instructions ← package.payload metadata
  return {
    name := package.directory
    instructions
    id := metadata.id.getD package.directory
    description := metadata.description.getD ("use the " ++ package.directory ++ " skill") }

/-- A skill takes the place of one with its name. -/
def insertSkill (skills : List Skill) (skill : Skill) : List Skill :=
  skills.filter (·.name ≠ skill.name) ++ [skill]

/-- The packages in a root, in the order in which its directory lists them. -/
def discoverRoot : List Package → List Skill → Except SkillCatalogError (List Skill)
  | [], skills => .ok skills
  | package :: packages, skills => do
    let skill ← readSkill package
    discoverRoot packages (insertSkill skills skill)

/-- No two skills have one identity. -/
def checkIdentities : List (String × String) → List Skill → Except SkillCatalogError Unit
  | _, [] => .ok ()
  | identities, skill :: skills =>
    match identities.lookup skill.stableId with
    | some first =>
      if first ≠ skill.name then .error (.duplicateIdentity skill.stableId first skill.name)
      else checkIdentities ((skill.stableId, skill.name) :: identities) skills
    | none => checkIdentities ((skill.stableId, skill.name) :: identities) skills

/-- User skills come first, and a workspace skill replaces one of the same name. -/
def loadFromRoots (user workspace : List Package) : Except SkillCatalogError SkillCatalog := do
  let skills ← discoverRoot user []
  let skills ← discoverRoot workspace skills
  checkIdentities [] skills
  return ⟨skills.mergeSort fun left right => left.name ≤ right.name⟩

/-! ## What is loaded -/

/-- What loading accepts as skills. -/
structure Acceptable (skills : List Skill) : Prop where
  names : ∀ skill ∈ skills, validName skill.name = true
  distinct : (skills.map (·.name)).Nodup
  ids : ∀ skill ∈ skills, validIdentity skill.stableId = true ∨ skill.stableId = skill.name

def Accepted (catalog : SkillCatalog) : Prop := Acceptable catalog.skills

theorem stableId_of_nonempty {skill : Skill} (h : skill.id.isEmpty = false) :
    skill.stableId = skill.id := by
  rw [Skill.stableId, h]
  rfl

theorem nonempty_of_validName {name : String} (h : validName name = true) :
    name.isEmpty = false := by
  rw [validName, Bool.and_eq_true, Bool.not_eq_true'] at h
  exact h.1

theorem nonempty_of_validIdentity {identity : String} (h : validIdentity identity = true) :
    identity.isEmpty = false := by
  rw [validIdentity, Bool.and_eq_true, Bool.and_eq_true, Bool.not_eq_true'] at h
  exact h.1.1

/-- The name of a loaded skill is valid, and so is its identity if one is declared. -/
theorem readSkill_ok {package : Package} {skill : Skill} (h : readSkill package = .ok skill) :
    validName skill.name = true ∧
      (validIdentity skill.stableId = true ∨ skill.stableId = skill.name) := by
  simp only [readSkill, bind_eq_ok, ensure_eq_ok, pure_eq_ok, exists_and_left, exists_const] at h
  obtain ⟨hname, entrypoint, -, -, -, hid, instructions, -, rfl⟩ := h
  refine ⟨hname, ?_⟩
  cases hdeclared : (frontmatter entrypoint).id with
  | none =>
    refine .inr (stableId_of_nonempty ?_)
    exact nonempty_of_validName hname
  | some identity =>
    rw [hdeclared, Option.all_some] at hid
    refine .inl ?_
    rw [stableId_of_nonempty (nonempty_of_validIdentity hid)]
    exact hid

theorem Acceptable.insertSkill {skills : List Skill} {skill : Skill} (h : Acceptable skills)
    (hname : validName skill.name = true)
    (hid : validIdentity skill.stableId = true ∨ skill.stableId = skill.name) :
    Acceptable (insertSkill skills skill) where
  names := by
    intro other hother
    obtain hother | hother := List.mem_append.1 hother
    · exact h.names other (List.mem_of_mem_filter hother)
    · rwa [List.mem_singleton.1 hother]
  distinct := by
    rw [Catalogue.insertSkill, List.map_append, List.nodup_append]
    refine ⟨h.distinct.sublist (List.filter_sublist.map _), by simp, ?_⟩
    intro name hkept _ hnew hsame
    obtain ⟨other, hother, rfl⟩ := List.mem_map.1 hkept
    have hdiffer := (List.mem_filter.1 hother).2
    rw [List.map_singleton, List.mem_singleton] at hnew
    exact of_decide_eq_true hdiffer (hsame.trans hnew)
  ids := by
    intro other hother
    obtain hother | hother := List.mem_append.1 hother
    · exact h.ids other (List.mem_of_mem_filter hother)
    · rwa [List.mem_singleton.1 hother]

theorem Acceptable.discoverRoot {packages : List Package} {skills found : List Skill}
    (h : Acceptable skills) (hfound : discoverRoot packages skills = .ok found) :
    Acceptable found := by
  induction packages generalizing skills with
  | nil =>
    obtain rfl := Except.ok.inj hfound
    exact h
  | cons package packages ih =>
    obtain ⟨skill, hskill, hrest⟩ := bind_eq_ok.1 hfound
    obtain ⟨hname, hid⟩ := readSkill_ok hskill
    exact ih (h.insertSkill hname hid) hrest

theorem Acceptable.perm {skills skills' : List Skill} (h : Acceptable skills)
    (hperm : skills'.Perm skills) : Acceptable skills' where
  names := fun skill hskill => h.names skill (hperm.mem_iff.1 hskill)
  distinct := (hperm.map _).nodup_iff.2 h.distinct
  ids := fun skill hskill => h.ids skill (hperm.mem_iff.1 hskill)

theorem accepted_of_loadFromRoots {user workspace : List Package} {catalog : SkillCatalog}
    (h : loadFromRoots user workspace = .ok catalog) : Accepted catalog := by
  obtain ⟨users, husers, h⟩ := bind_eq_ok.1 h
  obtain ⟨skills, hskills, h⟩ := bind_eq_ok.1 h
  obtain ⟨_, -, h⟩ := bind_eq_ok.1 h
  obtain rfl := pure_eq_ok.1 h
  have hnone : Acceptable [] := ⟨List.forall_mem_nil _, .nil, List.forall_mem_nil _⟩
  exact ((hnone.discoverRoot husers).discoverRoot hskills).perm (List.mergeSort_perm skills _)

end Nakode.Skills.Catalogue

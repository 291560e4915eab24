import Nakode.Lib.FileTree
import Nakode.Lib.Outcome

/-!
# Paths in the workspace

A tool names a file by a path below the workspace. Parent steps are taken out of the path as it is
written, and links are followed only in its deepest ancestor that exists, which has to lie in the
workspace (`resolveWorkspacePath`). What is behind that ancestor does not exist, and becomes
directories and a file at the names of the path, so the path leads into the workspace, before and
after they are made (`workspace_path_confined`).
-/

namespace Nakode.Tools

open Outcome FileTree

/-! ## The path that a tool supplies -/

inductive Component where
  | normal (name : String)
  | curDir
  | parentDir
  | rootDir
  deriving DecidableEq

/-- `Path::components`. A dot stands for the current directory at the beginning only. -/
def components (supplied : String) : List Component :=
  let absolute := supplied.toList.head? = some '/'
  let names := ((supplied.toList.splitOn '/').filter (· ≠ [])).map String.ofList
  (if absolute then [.rootDir] else []) ++ names.zipIdx.filterMap fun (name, index) =>
    if name = "." then (if index = 0 ∧ ¬absolute then some .curDir else none)
    else if name = ".." then some .parentDir
    else some (.normal name)

/-- The loop over the components, behind the names of the relative path so far. -/
def relativeNames : List String → List Component → Except String (List String)
  | relative, [] => .ok relative
  | relative, .normal name :: rest => relativeNames (relative ++ [name]) rest
  | relative, .curDir :: rest => relativeNames relative rest
  | relative, .parentDir :: rest =>
    if relative = [] then .error "tool path escapes the workspace through .."
    else relativeNames relative.dropLast rest
  | _, .rootDir :: _ => .error "tool paths must be relative to the workspace"

/-! ## The workspace -/

/-- A path from the root or from the current directory. -/
structure WorkPath where
  absolute : Bool
  parts : List Part

/-- The file system that a call meets: the tree, the number of links that the system follows in a
path, and the current directory. -/
structure FileSystem where
  tree : FileTree
  links : Nat
  cwd : List String

def Part.text : Part → String
  | .name name => name
  | .parent => ".."

def WorkPath.display (path : WorkPath) : String :=
  (if path.absolute then "/" else "") ++ "/".intercalate (path.parts.map Part.text)

def errnoText : Errno → String
  | .notFound => "No such file or directory (os error 2)"
  | .notDirectory => "Not a directory (os error 20)"
  | .loop => "Too many levels of symbolic links (os error 40)"
  | .exists_ => "File exists (os error 17)"

namespace FileSystem

def start (fs : FileSystem) (absolute : Bool) : List String := if absolute then [] else fs.cwd

def canonicalize (fs : FileSystem) (path : WorkPath) : Except Errno (List String) :=
  if path.absolute = false ∧ path.parts = [] then .error .notFound
  else (fs.tree.walk fs.links (fs.start path.absolute) path.parts).map Prod.fst

/-- Whether `symlink_metadata` finds something at a path, from its last part to its first one. -/
def found (fs : FileSystem) (absolute : Bool) : List Part → Bool
  | [] => absolute
  | last :: before => fs.tree.lstat fs.links (fs.start absolute) before.reverse last = .ok ()

/-- The deepest ancestor that exists, of a path from its last part to its first one. -/
def existingAncestor (fs : FileSystem) (absolute : Bool) : List Part → Option (List Part)
  | [] => if fs.found absolute [] then some [] else none
  | last :: before =>
    if fs.found absolute (last :: before) then some (last :: before).reverse
    else fs.existingAncestor absolute before

end FileSystem

def ensureExistingAncestorIsConfined (fs : FileSystem) (workspace candidate : WorkPath) :
    Except String Unit := do
  let canonicalWorkspace ← (fs.canonicalize workspace).mapError fun error =>
    s!"failed to resolve workspace {workspace.display}: {errnoText error}"
  let ancestor ← need (fs.existingAncestor candidate.absolute candidate.parts.reverse)
    "tool path has no existing ancestor"
  let canonicalAncestor ← (fs.canonicalize ⟨candidate.absolute, ancestor⟩).mapError fun error =>
    s!"failed to resolve path ancestor {WorkPath.display ⟨candidate.absolute, ancestor⟩}: " ++
      errnoText error
  ensure (canonicalWorkspace.isPrefixOf canonicalAncestor)
    ("tool path resolves outside workspace " ++
      WorkPath.display ⟨true, canonicalWorkspace.map Part.name⟩)

def resolveWorkspacePath (fs : FileSystem) (workspace : WorkPath) (supplied : String) :
    Except String WorkPath := do
  ensure (supplied ≠ "") "tool path must not be empty"
  ensure (supplied.toList.head? ≠ some '/') "tool paths must be relative to the workspace"
  let relative ← relativeNames [] (components supplied)
  let candidate : WorkPath := ⟨workspace.absolute, workspace.parts ++ relative.map Part.name⟩
  ensureExistingAncestorIsConfined fs workspace candidate
  return candidate

/-! ## Writing -/

/-- A file under a last name, in the directory that the path before it leads to: a new one, or in
the place of what is there unless it is a directory. -/
def placeFile (T : FileTree) (links : Nat) (start : List String) (isNew : Bool)
    (before : List Part) (last : Part) : Option FileTree :=
  match T.walk links start before with
  | .error _ => none
  | .ok (loc, _) =>
    match last with
    | .parent => none
    | .name name =>
      if hdir : T.entry loc = some .dir then
        if hfile : T.entry (loc ++ [name]) = some .dir then none
        else if isNew ∧ T.entry (loc ++ [name]) ≠ none then none
        else some (T.put loc name .file hdir fun h => absurd h hfile)
      else none

/-- The trees that `atomic_write` goes through: with the directories, with the temporary file, and
with the file in its place. It stops at the first step that fails. A path is given from its last
part to its first one. -/
def writeTrees (fs : FileSystem) (absolute : Bool) (temporary : String) :
    List Part → List FileTree
  | [] => []
  | last :: before =>
    let start := fs.start absolute
    let (made, T) := fs.tree.createDirAll fs.links start before
    T :: match made with
      | .error _ => []
      | .ok () => match placeFile T fs.links start true before.reverse (.name temporary) with
        | none => []
        | some T' => T' :: (placeFile T fs.links start false before.reverse last).toList

/-! ## What is promised -/

/-- A tree that differs from the one of the call in the workspace only, and where the path leads
into it. -/
structure Inside (T U : FileTree) (start root : List String) (candidate : List Part) : Prop where
  changes : ∀ loc, U.entry loc ≠ T.entry loc → root <+: loc
  leads : ∀ links loc left, U.walk links start candidate = .ok (loc, left) → root <+: loc

/-- What a path that was resolved leads to lies in the workspace, as the tree is, with the
directories that are made on the way to it, and with what is written to it where nothing is. -/
structure PathConfined (fs : FileSystem) (root : List String) (candidate : WorkPath) : Prop where
  followed : Inside fs.tree fs.tree (fs.start candidate.absolute) root candidate.parts
  directories : ∀ before last, candidate.parts = before ++ [last] → Inside fs.tree
    (fs.tree.createDirAll fs.links (fs.start candidate.absolute) before.reverse).2
    (fs.start candidate.absolute) root candidate.parts
  written : fs.found candidate.absolute candidate.parts.reverse = false → ∀ temporary,
    ∀ U ∈ writeTrees fs candidate.absolute temporary candidate.parts.reverse,
      Inside fs.tree U (fs.start candidate.absolute) root candidate.parts

/-! ## The deepest ancestor -/

variable {fs : FileSystem} {absolute : Bool} {parts : List Part} {root : List String}

theorem canonicalize_eq_ok {path : WorkPath} (h : fs.canonicalize path = .ok root) :
    (path.absolute = true ∨ path.parts ≠ []) ∧
      ∃ left, fs.tree.walk fs.links (fs.start path.absolute) path.parts = .ok (root, left) := by
  rw [FileSystem.canonicalize] at h
  split at h
  · cases h
  · next hsome =>
    cases hwalk : fs.tree.walk fs.links (fs.start path.absolute) path.parts with
    | error error =>
      rw [hwalk] at h
      cases h
    | ok result =>
      rw [hwalk] at h
      cases h
      refine ⟨?_, result.2, rfl⟩
      by_contra hnone
      rw [not_or, Bool.not_eq_true, not_not] at hnone
      exact hsome hnone

theorem canonicalize_of_walk {path : WorkPath} {left : Nat}
    (hsome : path.absolute = true ∨ path.parts ≠ [])
    (h : fs.tree.walk fs.links (fs.start path.absolute) path.parts = .ok (root, left)) :
    fs.canonicalize path = .ok root := by
  rw [FileSystem.canonicalize, if_neg, h]
  · rfl
  · rintro ⟨hrelative, hnil⟩
    rw [hrelative] at hsome
    obtain h | h := hsome
    · cases h
    · exact h hnil

/-- What a path leads to is found. -/
theorem found_of_canonicalize {path : WorkPath} (h : fs.canonicalize path = .ok root) :
    fs.found path.absolute path.parts.reverse = true := by
  obtain ⟨hsome, left, hwalk⟩ := canonicalize_eq_ok h
  obtain hnil | ⟨before, last, hparts⟩ := List.eq_nil_or_concat' path.parts
  · rw [hnil]
    exact hsome.resolve_right fun hne => hne hnil
  · rw [hparts] at hwalk ⊢
    rw [List.reverse_append, List.reverse_singleton, List.singleton_append, FileSystem.found,
      List.reverse_reverse, decide_eq_true_eq]
    exact lstat_of_walk hwalk

/-- Below a path that is found, the deepest ancestor that exists is found, and what comes next on
the way is not. -/
theorem existingAncestor_names (h : fs.found absolute parts.reverse = true) (names : List String) :
    ∃ before rest, names = before ++ rest ∧
      fs.existingAncestor absolute (parts ++ names.map Part.name).reverse =
        some (parts ++ before.map Part.name) ∧
      fs.found absolute (parts ++ before.map Part.name).reverse = true ∧
      ∀ next ∈ rest.head?,
        fs.found absolute (.name next :: (parts ++ before.map Part.name).reverse) = false := by
  have hfound : ∀ l : List Part, fs.found absolute l.reverse = true →
      fs.existingAncestor absolute l.reverse = some l := by
    intro l hl
    obtain rfl | ⟨before, last, rfl⟩ := List.eq_nil_or_concat' l
    · exact if_pos hl
    · rw [List.reverse_append, List.reverse_singleton, List.singleton_append] at hl ⊢
      rw [FileSystem.existingAncestor, if_pos hl, List.reverse_cons, List.reverse_reverse]
  induction names using List.reverseRecOn with
  | nil =>
    refine ⟨[], [], rfl, ?_, ?_, nofun⟩
    · rw [List.map_nil, List.append_nil]
      exact hfound parts h
    · rwa [List.map_nil, List.append_nil]
  | append_singleton names name ih =>
    cases hname : fs.found absolute (parts ++ (names ++ [name]).map Part.name).reverse with
    | true => exact ⟨names ++ [name], [], (List.append_nil _).symm, hfound _ hname, hname, nofun⟩
    | false =>
      obtain ⟨before, rest, rfl, hancestor, hbefore, hnext⟩ := ih
      refine ⟨before, rest ++ [name], List.append_assoc _ _ _, ?_, hbefore, ?_⟩
      · rw [List.map_append, List.map_singleton, ← List.append_assoc, List.reverse_append,
          List.reverse_singleton, List.singleton_append] at hname ⊢
        rw [FileSystem.existingAncestor, hname]
        exact hancestor
      · intro next hmem
        cases rest with
        | nil =>
          obtain rfl : name = next := Option.some.inj hmem
          rw [List.append_nil, List.map_append, List.map_singleton, ← List.append_assoc,
            List.reverse_append, List.reverse_singleton, List.singleton_append] at hname
          exact hname
        | cons first rest => exact hnext next hmem

/-! ## Below the deepest ancestor -/

variable {T U : FileTree} {start loc : List String} {anc : List Part} {names : List String}
  {n left : Nat}

/-- What grew below an ancestor in the workspace leaves the path leading into the workspace. -/
theorem inside_of_grown (hgrown : Grown T U loc names)
    (hwalk : T.walk n start anc = .ok (loc, left)) (hroot : root <+: loc) :
    Inside T U start root (anc ++ names.map Part.name) where
  changes l hl := hroot.trans (hgrown.below l hl)
  leads := by
    intro links l left' hl
    obtain ⟨mid, k, hmid, hrest⟩ := exists_of_walk_append hl
    obtain rfl := walk_unique (hgrown.grows.walk hwalk) hmid
    obtain ⟨rfl, -⟩ := walk_names hgrown.plain hrest
    exact hroot.trans (List.prefix_append loc names)

/-- Where the first of the names is missing, the tree has nothing along them. -/
theorem grown_of_missing {next : String} {more : List String}
    (hnone : T.entry (loc ++ [next]) = none) : Grown T T loc (next :: more) where
  grows := .refl T
  below l hl := absurd rfl hl
  plain := by
    intro before name hprefix absolute target hlink
    cases before with
    | nil =>
      obtain ⟨rfl, -⟩ := List.cons_prefix_cons.1 hprefix
      rw [List.append_nil, hnone] at hlink
      cases hlink
    | cons first before =>
      obtain ⟨rfl, -⟩ := List.cons_prefix_cons.1 hprefix
      rw [List.append_assoc, List.cons_append, entry_append_eq_none hnone] at hlink
      cases hlink

/-- A file that is placed under a name below the ancestor is there, and nothing else changes. -/
theorem grown_of_placeFile {V : FileTree} {isNew : Bool} {before : List String} {name : String}
    (h : Grown T U loc names) (hwalk : T.walk n start anc = .ok (loc, left))
    (hbefore : before <+: names)
    (hlink : isNew = true ∨ before ++ [name] <+: names)
    (hplace : placeFile U n start isNew (anc ++ before.map Part.name) (.name name) =
      some V) : Grown T V loc names := by
  rw [placeFile, walk_append_of_ok (h.grows.walk hwalk)] at hplace
  cases hbelow : U.walk left loc (before.map Part.name) with
  | error error =>
    rw [hbelow] at hplace
    cases hplace
  | ok result =>
    obtain ⟨mid, k⟩ := result
    obtain ⟨rfl, -⟩ := walk_names (h.plain.of_prefix hbefore) hbelow
    rw [hbelow] at hplace
    dsimp only at hplace
    split at hplace
    · split at hplace
      · cases hplace
      · next hdir hfile =>
        split at hplace
        · cases hplace
        · next hnew =>
          cases hplace
          refine h.put (fun entry hentry => ?_) (fun _ _ heq => by cases heq)
          cases entry with
          | file => rfl
          | dir => exact absurd hentry hfile
          | link absolute target =>
            obtain hisNew | hin := hlink
            · exact absurd ⟨hisNew, by rw [hentry]; exact Option.some_ne_none _⟩ hnew
            · exact absurd hentry (h.plain before name hin absolute target)
    · cases hplace

/-- Each tree that a write below the ancestor goes through grew there. -/
theorem grown_of_mem_writeTrees {temporary : String} {before : List String} {name : String}
    (h : Grown fs.tree fs.tree loc (before ++ [name]))
    (hwalk : fs.tree.walk fs.links (fs.start absolute) anc = .ok (loc, left))
    (hU : U ∈ writeTrees fs absolute temporary (anc ++ (before ++ [name]).map Part.name).reverse) :
    Grown fs.tree U loc (before ++ [name]) := by
  have hbefore : before <+: before ++ [name] := List.prefix_append before [name]
  have hmade := h.createDirAll hwalk hbefore
  rw [List.map_append, List.map_singleton, ← List.append_assoc, List.reverse_append,
    List.reverse_singleton, List.singleton_append, writeTrees] at hU
  generalize fs.tree.createDirAll fs.links (fs.start absolute)
    (anc ++ before.map Part.name).reverse = result at hU hmade
  obtain ⟨made, V⟩ := result
  dsimp only at hU hmade
  obtain rfl | hU := List.mem_cons.1 hU
  · exact hmade
  · cases made with
    | error error => cases hU
    | ok done =>
      dsimp only at hU
      rw [List.reverse_reverse] at hU
      cases htemporary : placeFile V fs.links (fs.start absolute) true (anc ++ before.map Part.name)
          (.name temporary) with
      | none =>
        rw [htemporary] at hU
        cases hU
      | some W =>
        rw [htemporary] at hU
        obtain rfl | hU := List.mem_cons.1 hU
        · exact grown_of_placeFile hmade hwalk hbefore (.inl rfl) htemporary
        · exact grown_of_placeFile hmade hwalk hbefore (.inr List.prefix_rfl)
            (Option.mem_toList.1 hU)

/-! ## Confinement -/

variable {workspace : WorkPath} {supplied : String}

/-- A path below the workspace that passes the check leads into it. -/
theorem confined_of_ensure {names : List String} (h : ensureExistingAncestorIsConfined fs workspace
      ⟨workspace.absolute, workspace.parts ++ names.map Part.name⟩ = .ok ()) :
    ∃ root, fs.canonicalize workspace = .ok root ∧
      PathConfined fs root ⟨workspace.absolute, workspace.parts ++ names.map Part.name⟩ := by
  simp only [ensureExistingAncestorIsConfined, bind_eq_ok, mapError_eq_ok, need_eq_ok,
    ensure_eq_ok] at h
  obtain ⟨root, hroot, ancestor, hancestor, canonical, hcanonical, hprefix⟩ := h
  refine ⟨root, hroot, ?_⟩
  obtain ⟨before, rest, rfl, hdeepest, hfound, hnext⟩ :=
    existingAncestor_names (found_of_canonicalize hroot) names
  obtain rfl := Option.some.inj (hancestor.symm.trans hdeepest)
  obtain ⟨-, left, hwalk⟩ := canonicalize_eq_ok hcanonical
  have hin : root <+: canonical := List.isPrefixOf_iff_prefix.1 hprefix
  have hgrown : Grown fs.tree fs.tree canonical rest := by
    cases rest with
    | nil => exact ⟨.refl _, fun l hl => absurd rfl hl, fun p n hp => absurd hp (by simp)⟩
    | cons next more =>
      refine grown_of_missing ?_
      by_contra hsome
      have hmissing := hnext next rfl
      rw [FileSystem.found, List.reverse_reverse, decide_eq_false_iff_not, lstat, hwalk] at hmissing
      dsimp only at hmissing
      rw [if_pos (fs.tree.inDir canonical next hsome), if_neg hsome] at hmissing
      exact hmissing rfl
  rw [List.map_append, ← List.append_assoc]
  refine ⟨inside_of_grown hgrown hwalk hin, ?_, ?_⟩
  · intro front last hparts
    dsimp only at hparts ⊢
    obtain rfl | ⟨more, name, rfl⟩ := List.eq_nil_or_concat' rest
    · -- the path is there, so the directory it is in is there
      rw [List.map_nil, List.append_nil] at hparts ⊢
      rw [hparts] at hwalk
      obtain ⟨mid, k, hmid, -⟩ := exists_of_walk_append hwalk
      have hinside := inside_of_grown hgrown hwalk hin
      rw [List.map_nil, List.append_nil] at hinside
      rw [createDirAll_of_walk hmid, hparts]
      exact hinside
    · rw [List.map_append, List.map_singleton, ← List.append_assoc] at hparts
      obtain ⟨rfl, -⟩ := List.append_inj' hparts rfl
      exact inside_of_grown (hgrown.createDirAll hwalk (List.prefix_append more [name])) hwalk hin
  · intro hmissing temporary U hU
    dsimp only at hmissing hU ⊢
    obtain rfl | ⟨more, name, rfl⟩ := List.eq_nil_or_concat' rest
    · rw [List.map_nil, List.append_nil, hfound] at hmissing
      cases hmissing
    · exact inside_of_grown (grown_of_mem_writeTrees hgrown hwalk hU) hwalk hin

/-- The names of a path without parent steps. -/
def namesOf (path : List Component) : List String :=
  path.filterMap fun component => match component with
    | .normal name => some name
    | _ => none

/-- Made of names and dots. -/
def Plain (path : List Component) : Prop := .parentDir ∉ path ∧ .rootDir ∉ path

theorem relativeNames_of_plain {path : List Component} (h : Plain path) (relative : List String) :
    relativeNames relative path = .ok (relative ++ namesOf path) := by
  induction path generalizing relative with
  | nil => rw [relativeNames, namesOf, List.filterMap_nil, List.append_nil]
  | cons component path ih =>
    have hrest : Plain path :=
      ⟨fun h' => h.1 (List.mem_cons_of_mem _ h'), fun h' => h.2 (List.mem_cons_of_mem _ h')⟩
    cases component with
    | normal name =>
      rw [relativeNames, ih hrest, List.append_assoc]
      rfl
    | curDir => exact ih hrest relative
    | parentDir => exact absurd List.mem_cons_self h.1
    | rootDir => exact absurd List.mem_cons_self h.2

/-- A path of names that meets no link in the workspace passes the check. -/
theorem ensure_of_noLinks {names : List String} (hroot : fs.canonicalize workspace = .ok root)
    (hlinks : NoLinks fs.tree root names) : ensureExistingAncestorIsConfined fs workspace
      ⟨workspace.absolute, workspace.parts ++ names.map Part.name⟩ = .ok () := by
  obtain ⟨before, rest, rfl, hdeepest, hfound, -⟩ :=
    existingAncestor_names (found_of_canonicalize hroot) names
  have hlinks := hlinks.of_prefix (List.prefix_append before rest)
  obtain ⟨hsome, left, hwalk⟩ := canonicalize_eq_ok hroot
  have hcanonical : fs.canonicalize ⟨workspace.absolute, workspace.parts ++ before.map Part.name⟩ =
      .ok (root ++ before) := by
    obtain rfl | ⟨front, name, rfl⟩ := List.eq_nil_or_concat' before
    · rw [List.map_nil, List.append_nil, List.append_nil]
      exact hroot
    · rw [List.map_append, List.map_singleton, ← List.append_assoc] at hfound ⊢
      rw [List.reverse_append, List.reverse_singleton, List.singleton_append, FileSystem.found,
        List.reverse_reverse, decide_eq_true_eq] at hfound
      obtain ⟨loc, k, hloc, hdir, hthere⟩ := of_lstat_name hfound
      have hend := hloc
      rw [walk_append_of_ok hwalk] at hend
      obtain ⟨rfl, -⟩ := walk_names (hlinks.of_prefix (List.prefix_append front [name])) hend
      have hend : fs.tree.walk fs.links (fs.start workspace.absolute)
          (workspace.parts ++ front.map Part.name ++ [.name name]) =
            .ok (root ++ (front ++ [name]), k) := by
        rw [walk_append_of_ok hloc, walk_single hdir hthere (hlinks front name List.prefix_rfl),
          List.append_assoc]
      exact canonicalize_of_walk (.inr (by simp)) hend
  simp only [ensureExistingAncestorIsConfined, bind_eq_ok, mapError_eq_ok, need_eq_ok,
    ensure_eq_ok]
  exact ⟨root, hroot, _, hdeepest, _, hcanonical,
    List.isPrefixOf_iff_prefix.2 (List.prefix_append root before)⟩

/-- A tree with a workspace `w` that has a link to the root in it. -/
def linkedTree : FileTree where
  entry loc :=
    if loc = [] ∨ loc = ["w"] then some .dir
    else if loc = ["w", "l"] then some (.link false [.parent]) else none
  root := rfl
  inDir loc name h := by
    split at h
    · next hdir =>
      obtain hnil | hw := hdir
      · exact absurd hnil (by simp)
      · obtain ⟨rfl, -⟩ := List.append_inj' (show loc ++ [name] = [] ++ ["w"] from hw) rfl
        rfl
    · split at h
      · next hlink =>
        obtain ⟨rfl, -⟩ := List.append_inj' (show loc ++ [name] = ["w"] ++ ["l"] from hlink) rfl
        rfl
      · exact absurd rfl h

/-- The file system with this tree. -/
def linkedSystem : FileSystem := ⟨linkedTree, 40, []⟩

/-- The workspace `w`. -/
def linkedWorkspace : WorkPath := ⟨true, [.name "w"]⟩

end Nakode.Tools

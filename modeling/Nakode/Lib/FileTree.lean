import Mathlib

/-!
# File trees with links

A tree of directories, files and symbolic links, by the names on the way from the root
(`FileTree`). A path is walked name by name; a link is replaced by its target, at most a number of
times (`walk`). A walk goes through a path piece by piece (`walk_append`), more links allow the same
walk (`walk_add`), and what is added to a tree leaves the walks that it had (`Extends.walk`). Where
no link is met, a walk ends where its names say (`walk_names`), so directories that are made along
names are below the place that they begin at (`Grown.createDirAll`).
-/

/-- A part of a path. -/
inductive FileTree.Part where
  | name (name : String)
  | parent
  deriving DecidableEq

inductive FileTree.Entry where
  | file
  | dir
  | link (absolute : Bool) (target : List FileTree.Part)
  deriving DecidableEq

/-- What is found at the names below the root. Everything below the root is in a directory. -/
structure FileTree where
  entry : List String → Option FileTree.Entry
  root : entry [] = some .dir
  inDir : ∀ loc name, entry (loc ++ [name]) ≠ none → entry loc = some .dir

namespace FileTree

inductive Errno where
  | notFound
  | notDirectory
  | loop
  | exists_
  deriving DecidableEq

variable {T T' : FileTree} {loc mid root : List String} {parts a b : List Part} {n k m j : Nat}
  {names : List String}

/-! ## Walking -/

/-- A walk without links: a link goes on by `follow`. The result is where the walk ends, and the
number of links that are left. -/
def steps (T : FileTree) (follow : List String → List Part → Except Errno (List String × Nat))
    (links : Nat) : List String → List Part → Except Errno (List String × Nat)
  | loc, [] => .ok (loc, links)
  | loc, .parent :: rest =>
    if T.entry loc = some .dir then steps T follow links loc.dropLast rest else .error .notDirectory
  | loc, .name name :: rest =>
    if T.entry loc = some .dir then
      match T.entry (loc ++ [name]) with
      | none => .error .notFound
      | some (.link absolute target) => follow (if absolute then [] else loc) (target ++ rest)
      | some _ => steps T follow links (loc ++ [name]) rest
    else .error .notDirectory

/-- A walk from a place along a path, through at most a number of links. -/
def walk (T : FileTree) : Nat → List String → List Part → Except Errno (List String × Nat)
  | 0 => steps T (fun _ _ => .error .loop) 0
  | links + 1 => steps T (walk T links) (links + 1)

/-- How a walk goes on at a link. -/
def follow (T : FileTree) : Nat → List String → List Part → Except Errno (List String × Nat)
  | 0 => fun _ _ => .error .loop
  | links + 1 => walk T links

theorem walk_eq (T : FileTree) (n : Nat) : walk T n = steps T (follow T n) n := by
  cases n <;> rfl

@[simp] theorem walk_nil (T : FileTree) (n : Nat) (loc : List String) :
    walk T n loc [] = .ok (loc, n) := by
  rw [walk_eq, steps]

theorem walk_parent (T : FileTree) (n : Nat) (loc : List String) (parts : List Part) :
    walk T n loc (.parent :: parts) =
      if T.entry loc = some .dir then walk T n loc.dropLast parts else .error .notDirectory := by
  rw [walk_eq, steps]

theorem walk_name (T : FileTree) (n : Nat) (loc : List String) (name : String) (parts : List Part) :
    walk T n loc (.name name :: parts) =
      if T.entry loc = some .dir then
        match T.entry (loc ++ [name]) with
        | none => .error .notFound
        | some (.link absolute target) =>
          follow T n (if absolute then [] else loc) (target ++ parts)
        | some _ => walk T n (loc ++ [name]) parts
      else .error .notDirectory := by
  rw [walk_eq, steps]

/-- A walk along a path is a walk along its first part and one along the rest, with the links that
are left. -/
theorem walk_append (T : FileTree) (n : Nat) (loc : List String) (a b : List Part) :
    walk T n loc (a ++ b) = (walk T n loc a).bind fun (mid, left) => walk T left mid b := by
  induction n using Nat.strong_induction_on generalizing loc a with
  | _ n ihLinks =>
    induction a generalizing loc with
    | nil =>
      rw [List.nil_append, walk_nil]
      rfl
    | cons part a ih =>
      cases part with
      | parent =>
        rw [List.cons_append, walk_parent, walk_parent]
        split
        · exact ih loc.dropLast
        · rfl
      | name name =>
        rw [List.cons_append, walk_name, walk_name]
        split
        · cases hentry : T.entry (loc ++ [name]) with
          | none => rfl
          | some entry =>
            cases entry with
            | file => exact ih _
            | dir => exact ih _
            | link absolute target =>
              dsimp only
              rw [← List.append_assoc]
              cases n with
              | zero => rfl
              | succ n => exact ihLinks n (Nat.lt_succ_self n) _ _
        · rfl

theorem walk_append_of_ok (h : walk T n loc a = .ok (mid, k)) (b : List Part) :
    walk T n loc (a ++ b) = walk T k mid b := by
  rw [walk_append, h]
  rfl

theorem exists_of_walk_append (h : walk T n loc (a ++ b) = .ok (mid, k)) :
    ∃ loc' left, walk T n loc a = .ok (loc', left) ∧ walk T left loc' b = .ok (mid, k) := by
  rw [walk_append] at h
  cases ha : walk T n loc a with
  | error error =>
    rw [ha] at h
    cases h
  | ok result =>
    rw [ha] at h
    exact ⟨result.1, result.2, rfl, h⟩

/-- A walk that ends, ends alike with more links, and has them left. -/
theorem walk_add (h : walk T n loc parts = .ok (mid, k)) (d : Nat) :
    walk T (n + d) loc parts = .ok (mid, k + d) := by
  induction n using Nat.strong_induction_on generalizing loc parts with
  | _ n ihLinks =>
    induction parts generalizing loc with
    | nil =>
      rw [walk_nil] at h ⊢
      cases h
      rfl
    | cons part parts ih =>
      cases part with
      | parent =>
        rw [walk_parent] at h ⊢
        split at h
        · next hdir =>
          rw [if_pos hdir]
          exact ih h
        · cases h
      | name name =>
        rw [walk_name] at h ⊢
        split at h
        · next hdir =>
          rw [if_pos hdir]
          cases hentry : T.entry (loc ++ [name]) with
          | none =>
            rw [hentry] at h
            cases h
          | some entry =>
            rw [hentry] at h
            cases entry with
            | file => exact ih h
            | dir => exact ih h
            | link absolute target =>
              cases n with
              | zero => cases h
              | succ n =>
                dsimp only at h ⊢
                rw [Nat.succ_add]
                exact ihLinks n (Nat.lt_succ_self n) h
        · cases h

/-- Where a walk ends does not depend on how many links it may take. -/
theorem walk_unique (h : walk T n loc parts = .ok (mid, k))
    (h' : walk T m loc parts = .ok (root, j)) : mid = root := by
  have hsame := (walk_add h m).symm.trans (Nat.add_comm n m ▸ walk_add h' n)
  exact congrArg Prod.fst (Except.ok.inj hsame)

theorem walk_names_cons {name : String} (h : walk T n loc (.name name :: parts) = .ok (mid, k)) :
    T.entry loc = some .dir ∧ T.entry (loc ++ [name]) ≠ none := by
  rw [walk_name] at h
  split at h
  · next hdir =>
    refine ⟨hdir, fun hnone => ?_⟩
    rw [hnone] at h
    cases h
  · cases h

/-- No entry on the way along names from a place is a link. -/
def NoLinks (T : FileTree) (loc names : List String) : Prop :=
  ∀ before name, before ++ [name] <+: names → ∀ absolute target,
    T.entry (loc ++ before ++ [name]) ≠ some (.link absolute target)

theorem NoLinks.of_prefix (h : NoLinks T loc names) {before : List String}
    (hbefore : before <+: names) : NoLinks T loc before :=
  fun p name hp => h p name (hp.trans hbefore)

theorem NoLinks.tail {name : String} (h : NoLinks T loc (name :: names)) :
    NoLinks T (loc ++ [name]) names := by
  intro before last hbefore absolute target
  rw [List.append_assoc loc [name] before]
  exact h (name :: before) last (List.cons_prefix_cons.2 ⟨rfl, hbefore⟩) absolute target

/-- Where no link is met, a walk along names ends at them, with its links left. -/
theorem walk_names (hlinks : NoLinks T loc names)
    (h : walk T n loc (names.map .name) = .ok (mid, k)) : mid = loc ++ names ∧ k = n := by
  induction names generalizing loc with
  | nil =>
    rw [List.map_nil, walk_nil] at h
    cases h
    exact ⟨(List.append_nil _).symm, rfl⟩
  | cons name names ih =>
    have hrest := hlinks.tail
    rw [List.map_cons, walk_name] at h
    split at h
    · have hname := hlinks [] name (List.cons_prefix_cons.2 ⟨rfl, List.nil_prefix⟩)
      rw [List.append_nil] at hname
      cases hentry : T.entry (loc ++ [name]) with
      | none =>
        rw [hentry] at h
        cases h
      | some entry =>
        rw [hentry] at h
        cases entry with
        | link absolute target => exact absurd hentry (hname absolute target)
        | file =>
          obtain ⟨rfl, hk⟩ := ih hrest h
          exact ⟨List.append_assoc _ _ _, hk⟩
        | dir =>
          obtain ⟨rfl, hk⟩ := ih hrest h
          exact ⟨List.append_assoc _ _ _, hk⟩
    · cases h

/-- A last name that is no link is where the walk ends. -/
theorem walk_single {name : String} (hdir : T.entry loc = some .dir)
    (hsome : T.entry (loc ++ [name]) ≠ none)
    (hlink : ∀ absolute target, T.entry (loc ++ [name]) ≠ some (.link absolute target)) :
    walk T n loc [.name name] = .ok (loc ++ [name], n) := by
  rw [walk_name, if_pos hdir]
  cases hentry : T.entry (loc ++ [name]) with
  | none => exact absurd hentry hsome
  | some entry =>
    cases entry with
    | file => exact walk_nil T n _
    | dir => exact walk_nil T n _
    | link absolute target => exact absurd hentry (hlink absolute target)

/-! ## What the system answers -/

/-- Whether something is at a path, a link at its end not followed. -/
def lstat (T : FileTree) (links : Nat) (start : List String) (before : List Part) :
    Part → Except Errno Unit
  | .parent => (walk T links start (before ++ [.parent])).map fun _ => ()
  | .name name =>
    match walk T links start before with
    | .error error => .error error
    | .ok (loc, _) =>
      if T.entry loc = some .dir then
        if T.entry (loc ++ [name]) = none then .error .notFound else .ok ()
      else .error .notDirectory

/-- What a walk reaches is there. -/
theorem lstat_of_walk {start : List String} {part : Part}
    (h : walk T n start (a ++ [part]) = .ok (mid, k)) : lstat T n start a part = .ok () := by
  cases part with
  | parent =>
    rw [lstat, h]
    rfl
  | name name =>
    obtain ⟨loc, left, hloc, hrest⟩ := exists_of_walk_append h
    obtain ⟨hdir, hsome⟩ := walk_names_cons hrest
    rw [lstat, hloc]
    dsimp only
    rw [if_pos hdir, if_neg hsome]

theorem of_lstat_name {start : List String} {name : String}
    (h : lstat T n start a (.name name) = .ok ()) : ∃ loc left,
      walk T n start a = .ok (loc, left) ∧ T.entry loc = some .dir ∧
        T.entry (loc ++ [name]) ≠ none := by
  rw [lstat] at h
  cases hwalk : walk T n start a with
  | error error =>
    rw [hwalk] at h
    cases h
  | ok result =>
    rw [hwalk] at h
    dsimp only at h
    split at h
    · next hdir =>
      split at h
      · cases h
      · next hsome => exact ⟨result.1, result.2, rfl, hdir, hsome⟩
    · cases h

/-! ## Larger trees -/

/-- A tree that has what another one has. -/
def Extends (T T' : FileTree) : Prop := ∀ loc entry, T.entry loc = some entry →
  T'.entry loc = some entry

theorem Extends.refl (T : FileTree) : T.Extends T := fun _ _ h => h

theorem Extends.trans {T'' : FileTree} (h : T.Extends T') (h' : T'.Extends T'') : T.Extends T'' :=
  fun loc entry hentry => h' loc entry (h loc entry hentry)

/-- A walk that ends, ends alike in a larger tree. -/
theorem Extends.walk (hext : T.Extends T') (h : T.walk n loc parts = .ok (mid, k)) :
    T'.walk n loc parts = .ok (mid, k) := by
  induction n using Nat.strong_induction_on generalizing loc parts with
  | _ n ihLinks =>
    induction parts generalizing loc with
    | nil =>
      rw [walk_nil] at h ⊢
      exact h
    | cons part parts ih =>
      cases part with
      | parent =>
        rw [walk_parent] at h ⊢
        split at h
        · next hdir =>
          rw [if_pos (hext _ _ hdir)]
          exact ih h
        · cases h
      | name name =>
        rw [walk_name] at h ⊢
        split at h
        · next hdir =>
          rw [if_pos (hext _ _ hdir)]
          cases hentry : T.entry (loc ++ [name]) with
          | none =>
            rw [hentry] at h
            cases h
          | some entry =>
            rw [hentry] at h
            rw [hext _ _ hentry]
            cases entry with
            | file => exact ih h
            | dir => exact ih h
            | link absolute target =>
              cases n with
              | zero => cases h
              | succ n => exact ihLinks n (Nat.lt_succ_self n) h
        · cases h

/-- Nothing is below what is not there. -/
theorem entry_append_eq_none {name : String} (h : T.entry (loc ++ [name]) = none)
    (names : List String) : T.entry (loc ++ name :: names) = none := by
  induction names using List.reverseRecOn with
  | nil => exact h
  | append_singleton names last ih =>
    by_contra hsome
    have hdir := T.inDir (loc ++ name :: names) last (by
      rw [List.append_assoc, List.cons_append]
      exact hsome)
    rw [ih] at hdir
    cases hdir

/-- The tree with an entry in a directory. A directory that is there stays one. -/
def put (T : FileTree) (loc : List String) (name : String) (e : Entry)
    (hdir : T.entry loc = some .dir) (hkeep : T.entry (loc ++ [name]) = some .dir → e = .dir) :
    FileTree where
  entry l := if l = loc ++ [name] then some e else T.entry l
  root := by
    rw [if_neg (by simp), T.root]
  inDir l last h := by
    have hdirs : T.entry l = some .dir := by
      by_cases hl : l ++ [last] = loc ++ [name]
      · rw [(List.append_inj' hl rfl).1]
        exact hdir
      · rw [if_neg hl] at h
        exact T.inDir l last h
    split
    · next hl => rw [hkeep (hl ▸ hdirs)]
    · exact hdirs

theorem entry_put {name : String} {e : Entry} {hdir : T.entry loc = some .dir}
    {hkeep : T.entry (loc ++ [name]) = some .dir → e = .dir} (l : List String) :
    (T.put loc name e hdir hkeep).entry l = if l = loc ++ [name] then some e else T.entry l := rfl

theorem extends_put {name : String} {e : Entry} {hdir : T.entry loc = some .dir}
    {hkeep : T.entry (loc ++ [name]) = some .dir → e = .dir}
    (hsame : ∀ entry, T.entry (loc ++ [name]) = some entry → entry = e) :
    T.Extends (T.put loc name e hdir hkeep) := by
  intro l entry hentry
  rw [entry_put]
  split
  · next hl => rw [hsame entry (hl ▸ hentry)]
  · exact hentry

/-! ## Making directories -/

/-- `mkdir`: a directory under a last name, in the directory that the path before it leads to. -/
def mkdir (T : FileTree) (links : Nat) (start : List String) (before : List Part) (last : Part) :
    Except Errno FileTree :=
  match walk T links start before with
  | .error error => .error error
  | .ok (loc, _) =>
    match last with
    | .parent => .error .exists_
    | .name name =>
      if hdir : T.entry loc = some .dir then
        if hnone : T.entry (loc ++ [name]) = none then
          .ok (T.put loc name .dir hdir fun h => absurd (hnone.symm.trans h) nofun)
        else .error .exists_
      else .error .notDirectory

/-- Whether a path leads to a directory. -/
def isDir (T : FileTree) (links : Nat) (start : List String) (parts : List Part) : Bool :=
  match walk T links start parts with
  | .error _ => false
  | .ok (loc, _) => T.entry loc = some .dir

/-- `create_dir_all`, for a path from its last part to its first one: its answer, and the tree
afterwards. -/
def createDirAll (T : FileTree) (links : Nat) (start : List String) :
    List Part → Except Errno Unit × FileTree
  | [] => (.ok (), T)
  | last :: before =>
    match T.mkdir links start before.reverse last with
    | .ok T' => (.ok (), T')
    | .error .notFound =>
      match createDirAll T links start before with
      | (.error error, T') => (.error error, T')
      | (.ok (), T') =>
        match T'.mkdir links start before.reverse last with
        | .ok T'' => (.ok (), T'')
        | .error error =>
          if T'.isDir links start (before.reverse ++ [last]) then (.ok (), T')
          else (.error error, T')
    | .error error =>
      if T.isDir links start (before.reverse ++ [last]) then (.ok (), T) else (.error error, T)

/-- Where something is, `mkdir` makes nothing. -/
theorem mkdir_of_walk {start : List String} {last : Part}
    (h : walk T n start (a ++ [last]) = .ok (mid, k)) :
    T.mkdir n start a last = .error .exists_ := by
  obtain ⟨loc, left, hloc, hrest⟩ := exists_of_walk_append h
  rw [mkdir, hloc]
  cases last with
  | parent => rfl
  | name name =>
    obtain ⟨hdir, hsome⟩ := walk_names_cons hrest
    dsimp only
    rw [dif_pos hdir, dif_neg hsome]

theorem createDirAll_of_walk {start : List String} (h : walk T n start a = .ok (mid, k)) :
    (T.createDirAll n start a.reverse).2 = T := by
  obtain rfl | ⟨before, last, rfl⟩ := List.eq_nil_or_concat' a
  · rfl
  · rw [List.reverse_append, List.reverse_singleton, List.singleton_append, createDirAll,
      List.reverse_reverse, mkdir_of_walk h]
    dsimp only
    split <;> rfl

theorem of_mkdir_name {start : List String} {name : String}
    (h : T.mkdir n start a (.name name) = .ok T') : ∃ loc left hdir hkeep,
      walk T n start a = .ok (loc, left) ∧ T.entry (loc ++ [name]) = none ∧
        T' = T.put loc name .dir hdir hkeep := by
  rw [mkdir] at h
  cases hwalk : walk T n start a with
  | error error =>
    rw [hwalk] at h
    cases h
  | ok result =>
    rw [hwalk] at h
    dsimp only at h
    split at h
    · next hdir =>
      split at h
      · next hnone =>
        cases h
        exact ⟨_, _, _, _, rfl, hnone, rfl⟩
      · cases h
    · cases h

/-- A tree that has more than another one below a place only, and no links along names there. -/
structure Grown (T T' : FileTree) (loc names : List String) : Prop where
  grows : T.Extends T'
  below : ∀ l, T'.entry l ≠ T.entry l → loc <+: l
  plain : NoLinks T' loc names

theorem Grown.put {U : FileTree} {before : List String} {name : String} {e : Entry}
    {hdir : U.entry (loc ++ before) = some .dir}
    {hkeep : U.entry (loc ++ before ++ [name]) = some .dir → e = .dir} (h : Grown T U loc names)
    (hsame : ∀ entry, U.entry (loc ++ before ++ [name]) = some entry → entry = e)
    (hlink : ∀ absolute target, e ≠ .link absolute target) :
    Grown T (U.put (loc ++ before) name e hdir hkeep) loc names where
  grows := h.grows.trans (extends_put hsame)
  below l hl := by
    rw [entry_put] at hl
    split at hl
    · next heq =>
      rw [heq, List.append_assoc]
      exact List.prefix_append loc _
    · exact h.below l hl
  plain p last hp absolute target := by
    rw [entry_put]
    split
    · exact fun heq => hlink absolute target (Option.some.inj heq)
    · exact h.plain p last hp absolute target

/-- Directories made along names below a place are there, and nothing else changes. -/
theorem Grown.createDirAll {U : FileTree} {start : List String} (h : Grown T U loc names)
    (hwalk : walk T n start a = .ok (loc, k)) {before : List String} (hbefore : before <+: names) :
    Grown T (U.createDirAll n start (a ++ before.map Part.name).reverse).2 loc names := by
  induction before using List.reverseRecOn with
  | nil =>
    rw [List.map_nil, List.append_nil, createDirAll_of_walk (h.grows.walk hwalk)]
    exact h
  | append_singleton before name ih =>
    have hbefore' : before <+: names := (List.prefix_append before [name]).trans hbefore
    have hmade : ∀ {V V' : FileTree}, Grown T V loc names →
        V.mkdir n start (a ++ before.map Part.name) (.name name) = .ok V' →
          Grown T V' loc names := by
      intro V V' hV hmkdir
      obtain ⟨l, left, hdir, hkeep, hl, hnone, rfl⟩ := of_mkdir_name hmkdir
      rw [walk_append_of_ok (hV.grows.walk hwalk)] at hl
      obtain ⟨rfl, -⟩ := walk_names (hV.plain.of_prefix hbefore') hl
      refine hV.put (fun entry hentry => ?_) nofun
      rw [hnone] at hentry
      cases hentry
    have ih := ih hbefore'
    rw [List.map_append, List.map_singleton, ← List.append_assoc, List.reverse_append,
      List.reverse_singleton, List.singleton_append, FileTree.createDirAll, List.reverse_reverse]
    split
    · next hmkdir => exact hmade h hmkdir
    · generalize U.createDirAll n start (a ++ before.map Part.name).reverse = result at ih ⊢
      obtain ⟨answer, V⟩ := result
      cases answer with
      | error error => exact ih
      | ok done =>
        dsimp only
        split
        · next hmkdir => exact hmade ih hmkdir
        · split
          · exact ih
          · exact ih
    · split
      · exact h
      · exact h

end FileTree

import Nakode.Kinship.Forest
import Nakode.Lib.Fence

/-!
# The relationship revision

The triggers of `session_child_links` raise a child's revision with each change of its link, so a
child's parent is a value under the child's revision (`versioned_parent`), whichever operation
changes it. `relationship_revision_fence` draws the conclusions for claims and transfers: they
commit at exactly the revision they expect, at most one of them at each, and none that was prepared
before another change.
-/

namespace Nakode

open Relational Transition Outcome

variable {δ : Type}

/-! ## One write -/

/-- Every link has its revision. -/
def Kinship.Revised (k : Kinship δ) : Prop :=
  ∀ child, (k.links.find? child).isSome → (k.revisions.find? child).isSome

/-- A child keeps its parent and its revision. -/
def Kinship.Same (child : String) (k k' : Kinship δ) : Prop :=
  k'.parent? child = k.parent? child ∧ k'.revision child = k.revision child

/-- A child gets another parent, or loses or gets one, and its revision goes up by one. -/
def Kinship.Moves (child : String) (k k' : Kinship δ) : Prop :=
  k'.parent? child ≠ k.parent? child ∧ k'.revision child = k.revision child + 1

namespace Kinship

theorem Same.trans {child : String} {k k' k'' : Kinship δ} (h : Same child k k')
    (h' : Same child k' k'') : Same child k k'' :=
  ⟨h'.1.trans h.1, h'.2.trans h.2⟩

theorem Moves.trans_same {child : String} {k k' k'' : Kinship δ} (h : Moves child k k')
    (h' : Same child k' k'') : Moves child k k'' :=
  ⟨h'.1 ▸ h.1, h'.2.trans h.2⟩

theorem Same.trans_moves {child : String} {k k' k'' : Kinship δ} (h : Same child k k')
    (h' : Moves child k' k'') : Moves child k k'' :=
  ⟨h.1 ▸ h'.1, by rw [h'.2, h.2]⟩

theorem revised_of_empty {k : Kinship δ} (h : k.links = ∅) : k.Revised := by
  intro child hchild
  rw [h] at hchild
  cases hchild

/-- A legal write to the relationships keeps the links revised. -/
theorem Revised.kin {k : Kinship δ} {w : KinWrite δ} (h : k.Revised) : (w.apply k).Revised := by
  intro child hchild
  cases w with
  | link c parent title =>
    simp only [KinWrite.apply, Table.find?_upsert, Table.find?_insertOrIgnore] at hchild ⊢
    split at hchild
    · next hc => simp [hc]
    · next hc => rw [if_neg hc]; exact h child hchild
  | repoint c parent =>
    simp only [KinWrite.apply, Table.find?_update, Option.isSome_map] at hchild ⊢
    exact h child hchild
  | holds | transition => exact h child hchild
  | revise c =>
    simp only [KinWrite.apply, Table.find?_insertOrIgnore]
    split
    · rfl
    · exact h child hchild

/-- A legal write to the relationships moves a child, or leaves its parent and its revision. -/
theorem kin_cases {k : Kinship δ} {w : KinWrite δ} (h : k.Revised) (hw : w.Legal k)
    (child : String) :
    Same child k (w.apply k) ∨ ((Write.kin w).relinks = true ∧ Moves child k (w.apply k)) := by
  cases w with
  | link c parent title =>
    obtain ⟨hfree, -⟩ := hw
    have hparent := KinWrite.parent?_link hfree parent title child
    by_cases hc : child = c
    · subst hc
      refine .inr ⟨rfl, ?_, ?_⟩
      · rw [hparent, if_pos rfl, parent?_eq_none_iff.2 hfree]
        simp
      · simp only [revision, KinWrite.apply, Table.find?_upsert, if_true]
        cases k.revisions.find? child <;> simp
    · refine .inl ⟨by rw [hparent, if_neg hc], ?_⟩
      simp [revision, KinWrite.apply, hc]
  | repoint c parent =>
    obtain ⟨⟨link, hlink, hne⟩, -⟩ := hw
    have hparent := KinWrite.parent?_repoint hlink parent child
    by_cases hc : child = c
    · subst hc
      obtain ⟨r, hr⟩ := Option.isSome_iff_exists.1 (h child (by rw [hlink]; rfl))
      refine .inr ⟨rfl, ?_, by simp [revision, KinWrite.apply, hr]⟩
      rw [hparent, if_pos rfl, parent?_eq_some_iff.2 ⟨link, hlink, rfl⟩]
      simpa using Ne.symm hne
    · refine .inl ⟨by rw [hparent, if_neg hc], ?_⟩
      simp [revision, KinWrite.apply, hc]
  | holds | transition => exact .inl ⟨rfl, rfl⟩
  | revise c =>
    -- the link has its revision already
    obtain ⟨r, hr⟩ := Option.isSome_iff_exists.1 (h c hw)
    refine .inl ⟨rfl, ?_⟩
    simp [revision, KinWrite.apply, Table.insertOrIgnore_of_some hr]

/-- The revision of a retained child goes up when its link goes. -/
theorem find?_revisions_forget (k : Kinship δ) {session child : String} (hne : child ≠ session) :
    (k.forget session).revisions.find? child
      = (k.revisions.find? child).map fun r => if k.severed session child then r + 1 else r := by
  simp only [forget, Table.find?_delete, Table.find?_update, beq_false_of_ne hne, Bool.not_false]
  cases k.revisions.find? child <;> rfl

/-- A child that is not the deleted session. -/
theorem forget_cases {k : Kinship δ} (h : k.Revised) {session child : String}
    (hne : child ≠ session) : Same child k (k.forget session) ∨ Moves child k (k.forget session) := by
  have hrevision := find?_revisions_forget k hne
  cases hlink : k.links.find? child with
  | none =>
    refine .inl ⟨?_, ?_⟩
    · simp [parent?, forget, hlink]
    · simp [revision, hrevision, severed, hlink]
  | some link =>
    obtain ⟨r, hr⟩ := Option.isSome_iff_exists.1 (h child (by rw [hlink]; rfl))
    by_cases hparent : link.parentId = session
    · refine .inr ⟨?_, ?_⟩
      · simp [parent?, forget, severed, hlink, hparent]
      · simp [revision, hrevision, severed, hlink, hparent, hr]
    · refine .inl ⟨?_, ?_⟩
      · simp [parent?, forget, severed, hlink, hparent, hne]
      · simp [revision, hrevision, severed, hlink, hparent, hr, hne]

theorem Revised.forget {k : Kinship δ} (h : k.Revised) (session : String) :
    (k.forget session).Revised := by
  intro child hchild
  obtain ⟨link, hkept⟩ := Option.isSome_iff_exists.1 hchild
  simp only [Kinship.forget, Table.find?_delete, Option.filter_eq_some_iff] at hkept
  obtain ⟨hlink, hstays⟩ := hkept
  obtain ⟨r, hr⟩ := Option.isSome_iff_exists.1 (h child (by rw [hlink]; rfl))
  have hne : child ≠ session := by
    rintro rfl
    simp [severed, hlink] at hstays
  rw [find?_revisions_forget k hne, hr]
  rfl

/-- A legal write keeps the links revised. -/
theorem Revised.apply {db : Db δ} {w : Write δ} (h : db.kinship.Revised) :
    (w.apply db).kinship.Revised := by
  cases w with
  | kin w => exact h.kin
  | forget session => exact h.forget session
  | purge => exact revised_of_empty rfl
  | directory | report | reportReceipt | inbox => exact h

end Kinship

/-! ## One operation -/

/-- A write that deletes no session moves a child, or leaves its parent and its revision. -/
theorem Write.kinship_cases {db : Db δ} {w : Write δ} (h : db.kinship.Revised) (hw : w.Legal db)
    (hkeeps : w.deletes = false) (child : String) :
    Kinship.Same child db.kinship (w.apply db).kinship ∨
      (w.relinks = true ∧ Kinship.Moves child db.kinship (w.apply db).kinship) := by
  cases w with
  | kin w =>
    refine Kinship.kin_cases h ?_ child
    cases w with
    | link => exact hw.1
    | repoint => exact hw.1
    | holds | transition | revise => exact hw
  | forget | purge => cases hkeeps
  | directory | report | reportReceipt | inbox => exact .inl ⟨rfl, rfl⟩

/-- A run of writes of which at most one changes the links moves a child at most once. -/
theorem Writes.kinship_cases {P : Write δ → Prop} (hP : ∀ w, P w → w.deletes = false) {n : Nat}
    {db db' : Db δ} (h : Writes P n db db') (hdb : db.kinship.Revised) (hn : n ≤ 1)
    (child : String) :
    db'.kinship.Revised ∧ (Kinship.Same child db.kinship db'.kinship ∨
      (n = 1 ∧ Kinship.Moves child db.kinship db'.kinship)) := by
  obtain ⟨ws, hrun, hws, hcount⟩ := h
  induction hrun generalizing n with
  | nil => exact ⟨hdb, .inl ⟨rfl, rfl⟩⟩
  | @cons db db₁ db' w ws hnext _ ih =>
    obtain ⟨hlegal, rfl⟩ := hnext
    have hrest : ∀ w ∈ ws, P w := fun w hw => hws w (List.mem_cons_of_mem _ hw)
    rw [List.countP_cons] at hcount
    rcases Write.kinship_cases hdb hlegal (hP w (hws w List.mem_cons_self)) child with
      hsame | ⟨hrelinks, hmoves⟩
    · obtain ⟨hrevised, hrest⟩ := ih hdb.apply hn hrest (Nat.le_trans (Nat.le_add_right ..) hcount)
      exact ⟨hrevised, hrest.imp hsame.trans fun ⟨hone, hmoves⟩ => ⟨hone, hsame.trans_moves hmoves⟩⟩
    · rw [if_pos hrelinks] at hcount
      obtain ⟨hrevised, hrest⟩ := ih hdb.apply (Nat.zero_le 1) hrest (by omega)
      rcases hrest with hsame | ⟨hone, -⟩
      · exact ⟨hrevised, .inr ⟨by omega, hmoves.trans_same hsame⟩⟩
      · cases hone

/-- The operations after which a session is still there. -/
def retaining [DecidableEq δ] (deps : Deps δ) (session : String) : System (Db δ) Op :=
  (machine deps).restrict fun db op => (after deps op db).directory.exists? session = true

/-- Every operation keeps the links revised. -/
theorem revised_step [DecidableEq δ] {deps : Deps δ} {db db' : Db δ} {op : Op}
    (h : (machine deps).next db op db') (hdb : db.kinship.Revised) : db'.kinship.Revised := by
  obtain ⟨ws, hrun, -⟩ := machine_writes h
  exact hrun.invariant (Q := fun db => db.kinship.Revised) (fun hnext h => hnext.2 ▸ h.apply) hdb

/-- A retained session's parent is a value under its revision: every operation that changes the one
raises the other by one, and no other operation changes it. -/
theorem versioned_parent [DecidableEq δ] (deps : Deps δ) (child : String) :
    Versioned (retaining deps child) (fun db => db.kinship.Revised)
      (fun db => db.kinship.parent? child) (fun db => db.kinship.revision child) where
  invariant hnext hdb := revised_step hnext.2 hdb
  step := by
    rintro db op db' ⟨hretains, hnext⟩ hdb
    rw [machine_next.1 hnext] at hretains
    rcases machine_cases hnext with hwrites | ⟨db₁, w, hwrites, hlegal, hdeletes, rfl⟩
    · exact (hwrites.kinship_cases (fun _ hw => hw.2) hdb (Nat.le_refl 1) child).2.imp_right And.right
    obtain ⟨hdb₁, hsame | ⟨hone, -⟩⟩ :=
      hwrites.kinship_cases (fun _ hw => hw.2) hdb (Nat.zero_le 1) child
    swap
    · cases hone
    cases w with
    | forget session =>
      have hne : child ≠ session := by
        rintro rfl
        simp [Write.apply, Db.forget, Directory.forget, Directory.exists?] at hretains
      exact (Kinship.forget_cases hdb₁ hne).imp hsame.trans hsame.trans_moves
    | purge => cases hretains
    | _ => cases hdeletes

/-! ## Claims and transfers -/

/-- The request commits its change: it is accepted, and it is not the retry of a committed one. -/
structure Commits [DecidableEq δ] (deps : Deps δ) (db : Db δ) (request : ReparentRequest)
    (authenticate : Except ServiceError Unit) (change : Reparent) (db' : Db δ) : Prop where
  names : Reparent.fromCommand request.command = .ok change
  fresh : db.kinship.transition? request.key change.parent change.call = none
  accepted : reparent deps db request authenticate = .ok db'

/-- A change that commits is a step of the system. -/
theorem Commits.next [DecidableEq δ] {deps : Deps δ} {db db' : Db δ} {request : ReparentRequest}
    {authenticate : Except ServiceError Unit} {change : Reparent}
    (h : Commits deps db request authenticate change db') :
    (machine deps).next db (.reparent request authenticate) db' := by
  simp only [machine_next, after, perform, h.accepted]
  rfl

/-- A change that commits found the expected parent and revision, and raised the revision by one to
the one that its transition records. -/
theorem Commits.fenced [DecidableEq δ] {deps : Deps δ} {db db' : Db δ} {request : ReparentRequest}
    {authenticate : Except ServiceError Unit} {change : Reparent}
    (h : Commits deps db request authenticate change db') (hdb : db.kinship.Revised) :
    db.kinship.parent? change.child = change.previousParent ∧
      db.kinship.revision change.child = change.revision ∧
      db'.kinship.parent? change.child = some change.parent ∧
      db'.kinship.revision change.child = change.revision + 1 ∧
      ∃ row, db'.kinship.transitions.find? request.key = some row ∧ row.childId = change.child ∧
        row.parentId = change.parent ∧ row.sourceCallId = change.call ∧
        row.previousRevision = change.revision ∧ row.revision = change.revision + 1 := by
  obtain ⟨hchange, hfresh, haccepted⟩ := h
  obtain ⟨change', hchange', ⟨saved, hsaved, -⟩ | ⟨-, db₁, row, happly, hchild, hparent, hcall, -,
    hprevious, hrevision, hlegal, rfl⟩⟩ := reparent_eq_ok haccepted
  · obtain rfl := Except.ok.inj (hchange.symm.trans hchange')
    rw [hfresh] at hsaved
    cases hsaved
  obtain rfl := Except.ok.inj (hchange.symm.trans hchange')
  obtain ⟨hexpected, hcurrent, -, hlinked⟩ := applyReparent_eq_ok happly
  have hmoved : db₁.kinship.parent? change.child = some change.parent ∧
      db₁.kinship.revision change.child = db.kinship.revision change.child + 1 := by
    -- the write gives the child another parent, so it raises the revision
    rcases hlinked with ⟨-, title, hlink, rfl⟩ | ⟨-, hrepoint, rfl⟩
    · have hto := KinWrite.parent?_link hlink.1.1 change.parent title change.child
      rw [if_pos rfl] at hto
      refine ⟨hto, ?_⟩
      rcases Kinship.kin_cases hdb hlink.1 change.child with ⟨hsame, -⟩ | ⟨-, -, hraised⟩
      · rw [hto, Kinship.parent?_eq_none_iff.2 hlink.1.1] at hsame
        cases hsame
      · exact hraised
    · obtain ⟨⟨link, hlink, hne⟩, -⟩ := hrepoint.1
      have hto := KinWrite.parent?_repoint hlink change.parent change.child
      rw [if_pos rfl] at hto
      refine ⟨hto, ?_⟩
      rcases Kinship.kin_cases hdb hrepoint.1 change.child with ⟨hsame, -⟩ | ⟨-, -, hraised⟩
      · rw [hto, Kinship.parent?_eq_some_iff.2 ⟨link, hlink, rfl⟩] at hsame
        exact absurd (Option.some.inj hsame).symm hne
      · exact hraised
  refine ⟨hexpected, hcurrent, hmoved.1, hcurrent ▸ hmoved.2, row, ?_, hchild, hparent, hcall,
    hprevious, hrevision⟩
  simp [Write.apply, KinWrite.apply, show db₁.kinship.transitions.find? request.key = none from hlegal]

/-- A legal write keeps the transitions. -/
theorem Write.transition_apply {db : Db δ} {w : Write δ} (hw : w.Legal db) {key : String}
    {row : TransitionRow δ} (hrow : db.kinship.transitions.find? key = some row) :
    (w.apply db).kinship.transitions.find? key = some row := by
  cases w with
  | kin w =>
    cases w with
    | transition key' row' =>
      have hne : key ≠ key' := by
        rintro rfl
        rw [show db.kinship.transitions.find? key = none from hw] at hrow
        cases hrow
      simpa [Write.apply, KinWrite.apply, hne] using hrow
    | _ => exact hrow
  | _ => exact hrow

/-- A committed transition is never taken back, not even with its sessions. -/
theorem transitions_run [DecidableEq δ] {deps : Deps δ} {db db' : Db δ} {ops : List Op}
    (hrun : (machine deps).Run db ops db') {key : String} {row : TransitionRow δ}
    (hrow : db.kinship.transitions.find? key = some row) :
    db'.kinship.transitions.find? key = some row := by
  refine hrun.invariant (Q := fun db => db.kinship.transitions.find? key = some row)
    (fun hstep hrow => ?_) hrow
  obtain ⟨ws, hwrites, -⟩ := machine_writes hstep
  exact hwrites.invariant (Q := fun db => db.kinship.transitions.find? key = some row)
    (fun hnext hrow => hnext.2 ▸ Write.transition_apply hnext.1 hrow) hrow

/-- A request under the key or the source call of a committed transition changes nothing. -/
theorem after_reparent_of_transition [DecidableEq δ] {deps : Deps δ} {db : Db δ}
    {request : ReparentRequest} {authenticate : Except ServiceError Unit} {change : Reparent}
    {key : String} {row : TransitionRow δ}
    (hchange : Reparent.fromCommand request.command = .ok change)
    (hrow : db.kinship.transitions.find? key = some row)
    (hreplay : request.key = key ∨ (change.parent = row.parentId ∧ change.call = row.sourceCallId)) :
    after deps (.reparent request authenticate) db = db := by
  have hknown : (db.kinship.transition? request.key change.parent change.call).isSome := by
    simp only [Kinship.transition?, Option.isSome_map, List.find?_isSome]
    refine ⟨(key, row), Table.mem_rows_iff.2 hrow, ?_⟩
    rcases hreplay with rfl | ⟨hparent, hcall⟩
    · simp
    · simp [hparent, hcall]
  rcases next_cases (machine_next.2 (Eq.refl (after deps (.reparent request authenticate) db))) with
    heq | ⟨answer, hperform⟩
  · exact heq
  obtain ⟨db', haccepted, heq⟩ := of_wrapped hperform
  obtain ⟨-, hdb⟩ := Prod.mk.inj heq
  obtain ⟨change', hchange', ⟨-, -, hsame⟩ | ⟨hfresh, -⟩⟩ := reparent_eq_ok haccepted
  · rw [← hdb, hsame]
  · obtain rfl := Except.ok.inj (hchange.symm.trans hchange')
    rw [hfresh] at hknown
    cases hknown

/-- The relationship revision is a fence. From any state that the operations reach from one without
links, and for any session as long as it is retained:

* an operation raises the session's revision by one if it changes who its parent is, and leaves it
  otherwise;
* a claim or transfer that commits found exactly the parent and the revision it expects, and leaves
  the revision one higher, as its transition records;
* after it, no other claim or transfer of the session commits that expects the same revision;
* once the parent has changed, no claim or transfer commits that expects the revision before, also
  when the parent is what it was;
* a request under the key or the source call of a committed one changes nothing, then or ever. -/
theorem relationship_revision_fence [DecidableEq δ] (deps : Deps δ) {db₀ db : Db δ} {ops : List Op}
    (hempty : db₀.kinship.links = ∅) (hrun : (machine deps).Run db₀ ops db) (child : String) :
    (∀ op db', (retaining deps child).next db op db' →
      Kinship.Same child db.kinship db'.kinship ∨ Kinship.Moves child db.kinship db'.kinship) ∧
    (∀ request authenticate change db', Commits deps db request authenticate change db' →
      db.kinship.parent? change.child = change.previousParent ∧
      db.kinship.revision change.child = change.revision ∧
      db'.kinship.parent? change.child = some change.parent ∧
      db'.kinship.revision change.child = change.revision + 1 ∧
      ∃ row, db'.kinship.transitions.find? request.key = some row ∧ row.childId = change.child ∧
        row.parentId = change.parent ∧ row.sourceCallId = change.call ∧
        row.previousRevision = change.revision ∧ row.revision = change.revision + 1) ∧
    (∀ request authenticate change db₁ later db₂,
      Commits deps db request authenticate change db₁ → change.child = child →
      (retaining deps child).Run db₁ later db₂ → ∀ request' authenticate' change' db₃,
      change'.child = child → change'.revision = change.revision →
      ¬ Commits deps db₂ request' authenticate' change' db₃) ∧
    (∀ before db₁ op db₂ later db₃, (retaining deps child).Run db before db₁ →
      (retaining deps child).next db₁ op db₂ →
      db₂.kinship.parent? child ≠ db₁.kinship.parent? child →
      (retaining deps child).Run db₂ later db₃ → ∀ request authenticate change db₄,
      change.child = child → change.revision = db.kinship.revision child →
      ¬ Commits deps db₃ request authenticate change db₄) ∧
    (∀ request authenticate change db₁ later db₂,
      Commits deps db request authenticate change db₁ → (machine deps).Run db₁ later db₂ →
      ∀ request' authenticate' change', Reparent.fromCommand request'.command = .ok change' →
      (request'.key = request.key ∨
        (change'.parent = change.parent ∧ change'.call = change.call)) →
      after deps (.reparent request' authenticate') db₂ = db₂) := by
  have hversioned := versioned_parent deps child
  have hdb : db.kinship.Revised := hrun.invariant (Q := fun db => db.kinship.Revised) revised_step
    (Kinship.revised_of_empty hempty)
  refine ⟨fun op db' hnext => hversioned.step hnext hdb, fun _ _ _ _ h => h.fenced hdb, ?_, ?_, ?_⟩
  · rintro request authenticate change db₁ later db₂ hcommits rfl hlater request' authenticate'
      change' db₃ hchild hexpected hcommits'
    have hdb₁ := revised_step hcommits.next hdb
    have hdb₂ : db₂.kinship.Revised := hlater.invariant hversioned.invariant hdb₁
    obtain ⟨-, -, -, hraised, -⟩ := hcommits.fenced hdb
    obtain ⟨-, hcurrent, -⟩ := hcommits'.fenced hdb₂
    have hle := hversioned.version_le hlater hdb₁
    rw [hchild, hexpected] at hcurrent
    omega
  · intro before db₁ op db₂ later db₃ hbefore hnext hchange hlater request authenticate change db₄
      hchild hexpected hcommits
    have hdb₁ := hbefore.invariant hversioned.invariant hdb
    have hdb₃ : db₃.kinship.Revised :=
      hlater.invariant hversioned.invariant (hversioned.invariant hnext hdb₁)
    obtain ⟨-, hcurrent, -⟩ := hcommits.fenced hdb₃
    have hlt := hversioned.lt_of_change hbefore hnext hchange hlater hdb
    rw [hchild, hexpected] at hcurrent
    omega
  · intro request authenticate change db₁ later db₂ hcommits hlater request' authenticate' change'
      hnames hreplay
    obtain ⟨-, -, -, -, row, hrow, -, hparent, hcall, -⟩ := hcommits.fenced hdb
    refine after_reparent_of_transition hnames (transitions_run hlater hrow) ?_
    rw [hparent, hcall]
    exact hreplay

/-- Two parents and a child of the first, all with one profile. -/
def ownedChild : List Op :=
  [.createSession 0 ⟨"parent", "codex", "a", "/work", "Parent", some "owner", none, none⟩,
    .createSession 0 ⟨"other", "codex", "b", "/work", "Other", some "owner", none, none⟩,
    .createSession 0 ⟨"agent", "codex", "c", "/work", "Agent", some "owner", none, some "parent"⟩]

/-- The second parent takes the child over from the first. -/
def takeover : ReparentRequest :=
  ⟨.reparentChildSession "other" "call" "agent" (some "parent") 1 true, "key", false, 0, 0⟩

/-- The transfer commits at revision 1 and leaves revision 2. -/
theorem relationship_revision_fence_takeover :
    (afterAll .verbatim (ownedChild ++ [.reparent takeover (.ok ())]) ∅).kinship.revision "agent"
      = 2 := by
  have haccepted : (result? (reparent .verbatim (afterAll .verbatim ownedChild ∅) takeover
      (.ok ()))).isSome = true := by
    decide +kernel
  obtain ⟨db', hresult⟩ := Option.isSome_iff_exists.1 haccepted
  have hcommits : Commits .verbatim (afterAll .verbatim ownedChild ∅) takeover (.ok ())
      ⟨"other", "call", "agent", some "parent", 1, true⟩ db' :=
    ⟨rfl, by rfl, result?_eq_some.1 hresult⟩
  have hafter : afterAll .verbatim (ownedChild ++ [.reparent takeover (.ok ())]) ∅ = db' := by
    rw [afterAll, List.foldl_append]
    exact hcommits.next
  rw [hafter]
  exact ((relationship_revision_fence .verbatim rfl (machine_run_iff.2 rfl) "agent").2.1 _ _ _ _
    hcommits).2.2.2.1

end Nakode

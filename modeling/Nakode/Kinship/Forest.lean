import Nakode.Operations
import Nakode.Lib.Forest

/-!
# The forest of the sessions

`forest_one_level`: whatever links, adoptions, claims, transfers and deletions come in whatever
order, the links are a one-level forest in which no parent has more than 32 children. Each of the
code's ways to change a link issues a write that is legal only between a root with room and a
session without children (`Joinable`); deletions only take links away.
-/

namespace Nakode

open Relational Transition

variable {δ : Type}

/-- A one-level forest with room for 32 children under each parent. -/
structure Kinship.Flat (k : Kinship δ) : Prop where
  irreflexive : ∀ session, k.parent? session ≠ some session
  unique : ∀ child link link', (child, link) ∈ k.links.rows → (child, link') ∈ k.links.rows →
    link = link'
  level : ∀ child parent, k.parent? child = some parent →
    k.parent? parent = none ∧ ∀ below, k.parent? below ≠ some child
  room : ∀ parent, k.childCount parent ≤ 32

/-- What the writes keep of the links. -/
structure Kinship.Bounded (k : Kinship δ) : Prop where
  level : Forest.OneLevel k.parent?
  room : ∀ parent, k.childCount parent ≤ 32

namespace Kinship.Bounded

theorem flat {k : Kinship δ} (h : k.Bounded) : k.Flat where
  irreflexive := h.level.irreflexive
  unique child link link' hl hl' := by
    rw [← Table.find?_eq_some_iff] at hl hl'
    exact Option.some.inj (hl.symm.trans hl')
  level child parent hchild := ⟨h.level child parent hchild, h.level.childless hchild⟩
  room := h.room

/-- No link. -/
theorem of_empty {k : Kinship δ} (h : k.links = ∅) : k.Bounded where
  level := by
    have hnone : k.parent? = fun _ => none := by
      funext child
      simp [Kinship.parent?, h]
    rw [hnone]
    exact .empty
  room parent := by simp [childCount, h, Table.count]

/-- What `Joinable` checks, in terms of the parents. -/
theorem of_joinable {k : Kinship δ} {child parent : String} (h : KinWrite.Joinable k child parent) :
    child ≠ parent ∧ k.parent? parent = none ∧ (∀ below, k.parent? below ≠ some child) ∧
      k.childCount parent < 32 := by
  obtain ⟨hne, hnested, hroom⟩ := h
  simp only [nested, Table.has_eq_false_iff, Bool.or_eq_false_iff, beq_eq_false_iff_ne] at hnested
  refine ⟨hne, ?_, fun below hbelow => ?_, hroom⟩
  · rw [parent?_eq_none_iff, Option.eq_none_iff_forall_ne_some]
    intro link hlink
    exact (hnested parent link hlink).1 rfl
  · obtain ⟨link, hlink, hparent⟩ := parent?_eq_some_iff.1 hbelow
    exact (hnested below link hlink).2 hparent

/-- A legal write to the relationships keeps the forest. -/
theorem kin {k : Kinship δ} {w : KinWrite δ} (h : k.Bounded) (hw : w.Legal k) :
    (w.apply k).Bounded := by
  cases w with
  | link child parent title =>
    obtain ⟨hfree, hjoinable⟩ := hw
    obtain ⟨hne, hroot, hleaf, hroom⟩ := of_joinable hjoinable
    refine ⟨h.level.attach hne hroot hleaf (KinWrite.parent?_link hfree parent title), ?_⟩
    intro above
    have hcount := Table.count_insertOrIgnore hfree ⟨parent, title⟩
      fun _ (link : Link) => link.parentId == above
    have hbound := h.room above
    simp only [childCount] at hroom hbound
    simp only [childCount, KinWrite.apply, hcount]
    split
    · next heq => rw [beq_iff_eq.1 heq] at hroom; omega
    · omega
  | repoint child parent =>
    obtain ⟨⟨link, hlink, -⟩, hjoinable⟩ := hw
    obtain ⟨hne, hroot, hleaf, hroom⟩ := of_joinable hjoinable
    refine ⟨h.level.attach hne hroot hleaf (KinWrite.parent?_repoint hlink parent), ?_⟩
    intro above
    have hbound := h.room above
    simp only [childCount] at hroom hbound
    simp only [childCount, KinWrite.apply]
    by_cases habove : above = parent
    · subst habove
      have hcount := k.links.count_update_key_le child (fun l => { l with parentId := above })
        fun _ link => link.parentId == above
      omega
    · refine Nat.le_trans (Table.count_update_le fun _ _ _ => ?_) hbound
      simpa using Ne.symm habove
  | holds | transition | revise => exact ⟨h.level, h.room⟩

/-- Taking links away keeps the forest. -/
theorem delete {k k' : Kinship δ} (h : k.Bounded) {p : String → Link → Bool}
    (hk : k'.links = k.links.delete p) : k'.Bounded where
  level := by
    refine h.level.detach fun child parent hchild => ?_
    obtain ⟨link, hlink, hparent⟩ := parent?_eq_some_iff.1 hchild
    rw [hk, Table.find?_delete, Option.filter_eq_some_iff] at hlink
    exact parent?_eq_some_iff.2 ⟨link, hlink.1, hparent⟩
  room parent := by
    simp only [childCount, hk]
    exact Nat.le_trans (Table.count_delete_le ..) (h.room parent)

/-- A legal write keeps the forest. -/
theorem apply {db : Db δ} {w : Write δ} (h : db.kinship.Bounded) (hw : w.Legal db) :
    (w.apply db).kinship.Bounded := by
  cases w with
  | kin w =>
    refine h.kin (w := w) ?_
    cases w with
    | link => exact hw.1
    | repoint => exact hw.1
    | holds | transition | revise => exact hw
  | forget session => exact h.delete (p := fun child _ => db.kinship.severed session child) rfl
  | purge => exact of_empty rfl
  | directory | report | reportReceipt | inbox => exact h

/-- Every operation keeps the forest. -/
theorem step [DecidableEq δ] {deps : Deps δ} {db db' : Db δ} {op : Op} (h : db.kinship.Bounded)
    (hstep : (machine deps).next db op db') : db'.kinship.Bounded := by
  obtain ⟨ws, hrun, -⟩ := machine_writes hstep
  exact hrun.invariant (Q := fun db => db.kinship.Bounded)
    (fun hnext h => hnext.2 ▸ h.apply hnext.1) h

end Kinship.Bounded

/-- In every state that the operations reach from one without links, the links are a one-level
forest: no session is its own parent or has two, no child is a parent, and no parent has more than
32 children. -/
theorem forest_one_level [DecidableEq δ] (deps : Deps δ) {db₀ db : Db δ} {ops : List Op}
    (hempty : db₀.kinship.links = ∅) (hrun : (machine deps).Run db₀ ops db) : db.kinship.Flat := by
  have hbounded : db.kinship.Bounded :=
    hrun.invariant (Q := fun db => db.kinship.Bounded) (fun hstep h => h.step hstep)
      (.of_empty hempty)
  exact hbounded.flat

/-- Three sessions, one of them a child of another, whose report reaches the parent's inbox. -/
def reportedChild : List Op :=
  [.createSession 0 ⟨"parent", "codex", "a", "/work", "Parent", none, none, none⟩,
    .createSession 0 ⟨"chat", "codex", "b", "/work", "Chat", none, none, none⟩,
    .createSession 0 ⟨"agent", "codex", "c", "/work", "Agent", none, none, none⟩,
    .report ⟨.linkChildSession "parent" "agent", "link", false, none, 0, 0⟩,
    .report ⟨.publishChildReport "agent" "result" "completed" "Done", "report", false, none, 0, 0⟩,
    .admitChildEvents]

/-- The child is linked, and its parent is nobody's child. -/
theorem forest_one_level_reportedChild :
    (afterAll .verbatim reportedChild ∅).kinship.parent? "parent" = none := by
  have hlinked : (afterAll .verbatim reportedChild ∅).kinship.parent? "agent" = some "parent" := by
    decide +kernel
  exact ((forest_one_level .verbatim rfl (machine_run_iff.2 rfl)).level "agent" "parent" hlinked).1

end Nakode

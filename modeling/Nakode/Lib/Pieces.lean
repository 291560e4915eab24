import Mathlib

/-!
# Texts cut at a mark

A text is what stands before its first mark and the pieces behind its marks (`text`), in one way only
(`text_inj`). A pattern that begins with the mark and has no other one occurs where a piece begins
with the rest of it (`infix_text_iff`).
-/

namespace Pieces

variable {α : Type} {m : α} {q head head' seg : List α} {segs segs' : List (List α)}

/-- A text with its pieces behind the marks. -/
def text (m : α) (head : List α) (segs : List (List α)) : List α := head ++ segs.flatMap (m :: ·)

/-- Every text is cut at its marks. -/
theorem exists_text (m : α) (l : List α) :
    ∃ head segs, m ∉ head ∧ (∀ seg ∈ segs, m ∉ seg) ∧ l = text m head segs := by
  induction l with
  | nil => exact ⟨[], [], List.not_mem_nil, fun _ h => absurd h List.not_mem_nil, rfl⟩
  | cons a l ih =>
    obtain ⟨head, segs, hhead, hsegs, rfl⟩ := ih
    by_cases ha : a = m
    · subst ha
      refine ⟨[], head :: segs, List.not_mem_nil, ?_, ?_⟩
      · exact List.forall_mem_cons.2 ⟨hhead, hsegs⟩
      · simp [text]
    · refine ⟨a :: head, segs, ?_, hsegs, rfl⟩
      rw [List.mem_cons, not_or]
      exact ⟨Ne.symm ha, hhead⟩

theorem text_append (m : α) (head : List α) (segs segs' : List (List α)) :
    text m head (segs ++ segs') = text m head segs ++ segs'.flatMap (m :: ·) := by
  rw [text, text, List.flatMap_append, List.append_assoc]

/-- A text is cut in one way. -/
theorem text_inj (hhead : m ∉ head) (hhead' : m ∉ head') (hsegs : ∀ seg ∈ segs, m ∉ seg)
    (hsegs' : ∀ seg ∈ segs', m ∉ seg) (h : text m head segs = text m head' segs') :
    head = head' ∧ segs = segs' := by
  induction segs generalizing head head' segs' with
  | nil =>
    cases segs' with
    | nil => exact ⟨by simpa [text] using h, rfl⟩
    | cons seg' segs' =>
      refine absurd ?_ hhead
      rw [text, List.flatMap_nil, List.append_nil] at h
      rw [h, text, List.flatMap_cons]
      exact List.mem_append_right _ List.mem_cons_self
  | cons seg segs ih =>
    cases segs' with
    | nil =>
      refine absurd ?_ hhead'
      rw [text, text, List.flatMap_nil, List.append_nil] at h
      rw [← h, List.flatMap_cons]
      exact List.mem_append_right _ List.mem_cons_self
    | cons seg' segs' =>
      obtain ⟨hseg, hsegs⟩ := List.forall_mem_cons.1 hsegs
      obtain ⟨hseg', hsegs'⟩ := List.forall_mem_cons.1 hsegs'
      have hcut : head = head' ∧ text m seg segs = text m seg' segs' := by
        rw [text, text, List.flatMap_cons, List.flatMap_cons] at h
        obtain ⟨rest, hrest, htail⟩ | ⟨rest, hrest, htail⟩ := List.append_eq_append_iff.1 h
        · cases rest with
          | nil =>
            rw [List.append_nil] at hrest
            exact ⟨hrest.symm, (List.cons.inj htail).2⟩
          | cons a rest =>
            obtain ⟨rfl, _⟩ := List.cons.inj htail
            exact absurd (hrest ▸ List.mem_append_right _ List.mem_cons_self) hhead'
        · cases rest with
          | nil =>
            rw [List.append_nil] at hrest
            exact ⟨hrest, (List.cons.inj htail).2.symm⟩
          | cons a rest =>
            obtain ⟨rfl, _⟩ := List.cons.inj htail
            exact absurd (hrest ▸ List.mem_append_right _ List.mem_cons_self) hhead
      obtain ⟨rfl, htext⟩ := hcut
      obtain ⟨rfl, rfl⟩ := ih hseg hseg' hsegs hsegs' htext
      exact ⟨rfl, rfl⟩

/-- What has no mark is found at the beginning of a piece or not at all. -/
theorem prefix_append_iff (hq : m ∉ q) :
    q <+: seg ++ segs.flatMap (m :: ·) ↔ q <+: seg := by
  refine ⟨fun h => ?_, fun h => h.trans (List.prefix_append _ _)⟩
  obtain h' | ⟨rest, rfl⟩ := List.prefix_or_prefix_of_prefix h (List.prefix_append seg _)
  · exact h'
  · have hrest := (List.prefix_append_right_inj seg).1 h
    cases segs with
    | nil =>
      obtain rfl := List.prefix_nil.1 hrest
      rw [List.append_nil]
    | cons piece segs =>
      rw [List.flatMap_cons, List.cons_append] at hrest
      cases rest with
      | nil => rw [List.append_nil]
      | cons b rest =>
        obtain rfl := (List.cons_prefix_cons.1 hrest).1
        exact absurd (List.mem_append_right _ List.mem_cons_self) hq

/-- A pattern with a mark does not occur before the first mark. -/
theorem infix_append_iff {l : List α} (hhead : m ∉ head) :
    m :: q <:+: head ++ l ↔ m :: q <:+: l := by
  induction head with
  | nil => rfl
  | cons a head ih =>
    rw [List.mem_cons, not_or] at hhead
    rw [List.cons_append, List.infix_cons_iff, ih hhead.2, List.cons_prefix_cons,
      or_iff_right fun h => hhead.1 h.1]

/-- A pattern with a mark occurs behind the marks. -/
theorem infix_text_iff (hq : m ∉ q) (hhead : m ∉ head) (hsegs : ∀ seg ∈ segs, m ∉ seg) :
    m :: q <:+: text m head segs ↔ ∃ seg ∈ segs, q <+: seg := by
  rw [text, infix_append_iff hhead]
  induction segs with
  | nil => simp
  | cons seg segs ih =>
    obtain ⟨hseg, hsegs⟩ := List.forall_mem_cons.1 hsegs
    rw [List.flatMap_cons, List.cons_append, List.infix_cons_iff, List.cons_prefix_cons,
      and_iff_right rfl, prefix_append_iff hq, infix_append_iff hseg]
    refine (or_congr_right (ih hsegs)).trans ?_
    rw [List.exists_mem_cons_iff]

/-- A text ends with a pattern with a mark where the pattern is its last piece. -/
theorem suffix_text_iff (hq : m ∉ q) (hhead : m ∉ head) (hsegs : ∀ seg ∈ segs, m ∉ seg) :
    m :: q <:+ text m head segs ↔ segs.getLast? = some q := by
  obtain rfl | ⟨init, last, rfl⟩ := segs.eq_nil_or_concat'
  · rw [text, List.flatMap_nil, List.append_nil]
    exact iff_of_false (fun h => hhead (h.subset List.mem_cons_self)) (by simp)
  · have hlast : m ∉ last := hsegs last (List.mem_append_right _ List.mem_cons_self)
    have htext : text m head (init ++ [last]) = text m head init ++ m :: last := by
      rw [text_append, List.flatMap_singleton]
    have hinj : ∀ {a b : List α}, m ∉ b → m :: a <:+ m :: b → a = b := by
      intro a b hb h
      obtain h | h := List.suffix_cons_iff.1 h
      · exact (List.cons.inj h).2
      · exact absurd (h.subset List.mem_cons_self) hb
    rw [htext, List.getLast?_concat, Option.some_inj]
    constructor
    · intro h
      obtain h' | h' := List.suffix_or_suffix_of_suffix h (List.suffix_append _ _)
      · exact (hinj hlast h').symm
      · exact hinj hq h'
    · rintro rfl
      exact List.suffix_append _ _

end Pieces

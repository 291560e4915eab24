import Nakode.Lib.Pieces
import Nakode.Lib.Utf8

/-!
# References to skills

A prompt names a skill by `/skill:` and a name. The scan looks for the next `/skill:` and reads the
name behind it (`scan`); where there is none it goes on one byte later. This byte may be the slash
of the next reference, which is then missed, or in the midst of a character, which panics: a row of
`/skill:` is read right exactly if its length is odd where a name follows, and even where a character
of several bytes does (`RowsRead`, `references_found_iff`).
-/

namespace Nakode.Skills

open Text (splitChars? splitChars?_eq_some_iff)
open Pieces

/-! ## The scan -/

/-- `SKILL_PREFIX`; its first character is the only slash. -/
def skillPrefix : List Char := "/skill:".toList

def isNameChar (c : Char) : Bool := c.isLower || c.isDigit || c == '-'

/-- `str::find`: the text behind the first occurrence. -/
def findSkill : List Char → Option (List Char)
  | [] => none
  | c :: cs =>
    if skillPrefix.isPrefixOf (c :: cs) then some ((c :: cs).drop skillPrefix.length)
    else findSkill cs

theorem length_findSkill {cs after : List Char} (h : findSkill cs = some after) :
    after.length < cs.length := by
  induction cs with
  | nil => cases h
  | cons c cs ih =>
    rw [findSkill] at h
    split at h
    · cases h
      have hpos : 0 < skillPrefix.length := by decide
      rw [List.length_drop, List.length_cons]
      omega
    · exact Nat.lt_succ_of_lt (ih h)

theorem length_splitChars? {cs before after : List Char} {n : Nat}
    (h : splitChars? cs n = some (before, after)) : after.length ≤ cs.length := by
  rw [(splitChars?_eq_some_iff.1 h).1, List.length_append]
  exact Nat.le_add_left _ _

/-- The names that are read from an offset on; an offset within a character panics. -/
def scan (rest : List Char) : Option (List (List Char)) :=
  match _hfind : findSkill rest with
  | none => some []
  | some after =>
    let name := after.takeWhile isNameChar
    let found := if name.isEmpty then [] else [name]
    let offset := max name.length 1
    if String.utf8Len after ≤ offset then some found
    else
      match _hslice : splitChars? after offset with
      | none => none
      | some (_, rest) => (scan rest).map (found ++ ·)
termination_by rest.length
decreasing_by exact (length_splitChars? _hslice).trans_lt (length_findSkill _hfind)

/-- The names of the skills that a prompt refers to, if this does not panic. -/
def referencedSkillNames (prompt : String) : Option (List String) :=
  (scan prompt.toList).map (·.map String.ofList)

structure Skill where
  name : String
  instructions : String
  deriving DecidableEq, Repr

structure SkillCatalog where
  skills : List Skill

namespace SkillCatalog

variable (catalog : SkillCatalog)

def find (name : String) : Option Skill := catalog.skills.find? (·.name == name)

/-- The loop of `referenced` over the names. -/
def collect : List String → List String → List Skill → Except String (List Skill)
  | [], _, skills => .ok skills
  | name :: names, seen, skills =>
    if seen.contains name then collect names seen skills
    else
      match catalog.find name with
      | none => .error name
      | some skill => collect names (name :: seen) (skills ++ [skill])

def referenced (prompt : String) : Option (Except String (List Skill)) :=
  (referencedSkillNames prompt).map fun names => catalog.collect names [] []

def attachedHeading : String :=
  "\n\n# Nakode attached skills\n\nFollow the instructions from each explicitly referenced skill below.\n"

/-- The part of a prompt that a skill is attached as. -/
def attachment (skill : Skill) : String :=
  "\n## Skill: " ++ skill.name ++ "\n" ++ skill.instructions
    ++ if skill.instructions.toList.getLast? = some '\n' then "" else "\n"

def attach (prompt : String) (skills : List Skill) : String :=
  if skills.isEmpty then prompt
  else skills.foldl (fun rendered skill => rendered ++ attachment skill) (prompt ++ attachedHeading)

def renderPrompt (prompt : String) : Option (Except String String) :=
  (catalog.referenced prompt).map (·.map (attach prompt))

end SkillCatalog

/-! ## What is promised -/

/-- The name behind a `/skill:` that a text begins with. -/
def nameAt (cs : List Char) : Option String :=
  if skillPrefix.isPrefixOf cs then
    let name := (cs.drop skillPrefix.length).takeWhile isNameChar
    if name.isEmpty then none else some (String.ofList name)
  else none

/-- The names behind all `/skill:` of a prompt, by position. -/
def references (prompt : String) : List String := prompt.toList.tails.filterMap nameAt

/-- The prompt with the instructions of each skill once, or the first name that is not installed. -/
def rendered (catalog : SkillCatalog) (prompt : String) (names : List String) :
    Except String String :=
  match names.find? fun name => (catalog.find name).isNone with
  | some name => .error name
  | none => .ok (SkillCatalog.attach prompt (names.eraseDups.filterMap catalog.find))

/-- The scan finds the references, and the prompt is rendered with them. -/
structure Found (catalog : SkillCatalog) (prompt : String) : Prop where
  names : referencedSkillNames prompt = some (references prompt)
  rendered : catalog.renderPrompt prompt = some (rendered catalog prompt (references prompt))

/-- A number of `/skill:` in a row. -/
def row (k : Nat) : List Char := (List.replicate k skillPrefix).flatten

/-- A row of a length is read right where a character follows it. -/
def ReadAt (k : Nat) (c : Char) : Prop :=
  (isNameChar c = true → k % 2 = 1) ∧ (1 < c.utf8Size → k % 2 = 0)

/-- In every row of `/skill:`, with none before it, a name follows an odd number and a character of
several bytes an even number. -/
def RowsRead (cs : List Char) : Prop :=
  ∀ before k c after, cs = before ++ row k ++ c :: after → ¬skillPrefix <:+ before → 0 < k →
    ReadAt k c

/-! ## The prompt in pieces -/

/-- What stands behind the slash of `/skill:`. -/
def skillBody : List Char := "skill:".toList

theorem skillPrefix_eq : skillPrefix = '/' :: skillBody := rfl

theorem slash_notMem_skillBody : '/' ∉ skillBody := by decide

theorem not_isNameChar_slash : isNameChar '/' = false := by decide

variable {head seg cs after : List Char} {segs : List (List Char)} {c : Char}

theorem findSkill_append (h : '/' ∉ head) : findSkill (head ++ cs) = findSkill cs := by
  induction head with
  | nil => rfl
  | cons c head ih =>
    rw [List.mem_cons, not_or] at h
    have hne : ¬skillPrefix.isPrefixOf (c :: (head ++ cs)) = true := by
      rw [List.isPrefixOf_iff_prefix, skillPrefix_eq, List.cons_prefix_cons]
      exact fun hprefix => h.1 hprefix.1
    rw [List.cons_append, findSkill, if_neg hne, ih h.2]

theorem isPrefixOf_slash :
    skillPrefix.isPrefixOf ('/' :: (seg ++ segs.flatMap ('/' :: ·))) = true ↔ skillBody <+: seg := by
  rw [List.isPrefixOf_iff_prefix, skillPrefix_eq, List.cons_prefix_cons, and_iff_right rfl,
    prefix_append_iff slash_notMem_skillBody]

theorem drop_slash (h : skillBody <+: seg) :
    ('/' :: (seg ++ cs)).drop skillPrefix.length = seg.drop skillBody.length ++ cs := by
  rw [skillPrefix_eq, List.length_cons, List.drop_succ_cons,
    List.drop_append_of_le_length h.length_le]

theorem findSkill_slash :
    findSkill ('/' :: (seg ++ segs.flatMap ('/' :: ·)))
      = if skillBody <+: seg then some (seg.drop skillBody.length ++ segs.flatMap ('/' :: ·))
        else findSkill (seg ++ segs.flatMap ('/' :: ·)) := by
  rw [findSkill]
  by_cases h : skillBody <+: seg
  · rw [if_pos (isPrefixOf_slash.2 h), if_pos h, drop_slash h]
  · rw [if_neg fun hprefix => h (isPrefixOf_slash.1 hprefix), if_neg h]

/-- A name ends at a slash. -/
theorem takeWhile_append_slash :
    (cs ++ segs.flatMap ('/' :: ·)).takeWhile isNameChar = cs.takeWhile isNameChar := by
  rw [List.takeWhile_append]
  split
  · next hall =>
    have hstop : (segs.flatMap ('/' :: ·)).takeWhile isNameChar = [] := by
      cases segs with
      | nil => rfl
      | cons seg segs =>
        rw [List.flatMap_cons, List.cons_append,
          List.takeWhile_cons_of_neg (by rw [not_isNameChar_slash]; decide)]
    rw [hstop, List.append_nil]
    exact ((List.takeWhile_prefix _).eq_of_length hall).symm
  · rfl

theorem scan_of_none (h : findSkill cs = none) : scan cs = some [] := by
  rw [scan]
  split
  · rfl
  · next hfind => cases h.symm.trans hfind

/-- The scan behind a `/skill:`. -/
theorem scan_of_some (h : findSkill cs = some after) :
    scan cs =
      let name := after.takeWhile isNameChar
      let found := if name.isEmpty then [] else [name]
      if String.utf8Len after ≤ max name.length 1 then some found
      else (splitChars? after (max name.length 1)).bind fun (_, rest) =>
        (scan rest).map (found ++ ·) := by
  rw [scan]
  split
  · next hfind => cases h.symm.trans hfind
  · next _ hfind =>
    cases h.symm.trans hfind
    dsimp only
    split
    · rfl
    · split
      · next hslice => rw [hslice]; rfl
      · next hslice => rw [hslice]; rfl

/-- The scan goes on behind the name, or behind one byte. -/
theorem scan_goes_on (used rest : List Char) (h : findSkill cs = some (used ++ rest))
    (hused : String.utf8Len used = max ((used ++ rest).takeWhile isNameChar).length 1) :
    scan cs = (scan rest).map
      ((if ((used ++ rest).takeWhile isNameChar).isEmpty then []
        else [(used ++ rest).takeWhile isNameChar]) ++ ·) := by
  rw [scan_of_some h]
  dsimp only
  rw [← hused]
  split
  · next hle =>
    have hnil : rest = [] := by
      cases rest with
      | nil => rfl
      | cons c rest =>
        have hpos := c.utf8Size_pos
        rw [String.utf8Len_append, String.utf8Len_cons] at hle
        omega
    subst hnil
    rw [scan_of_none rfl, Option.map_some, List.append_nil, List.append_nil]
  · rw [splitChars?_eq_some_iff.2 ⟨rfl, rfl⟩]
    rfl

/-- A byte behind a `/skill:` is within a character. -/
theorem scan_panics (h : findSkill cs = some (c :: after)) (hc : 1 < c.utf8Size)
    (hname : isNameChar c = false) : scan cs = none := by
  rw [scan_of_some h, List.takeWhile_cons_of_neg (by rw [hname]; decide)]
  have hlen : ¬String.utf8Len (c :: after) ≤ max ([] : List Char).length 1 := by
    rw [String.utf8Len]
    simp only [List.length_nil]
    omega
  have hslice : splitChars? (c :: after) 1 = none := by
    rw [splitChars?, if_pos (by omega)]
  dsimp only
  rw [if_neg hlen]
  simp only [List.length_nil, Nat.zero_max]
  rw [hslice]
  rfl

theorem utf8Size_of_isNameChar (h : isNameChar c = true) : c.utf8Size = 1 := by
  have hle : c.val ≤ 0x7F := by
    rw [isNameChar, Bool.or_eq_true, Bool.or_eq_true, beq_iff_eq] at h
    obtain (h | h) | rfl := h
    · have hlower := (Bool.and_eq_true _ _).mp h
      exact UInt32.le_trans (of_decide_eq_true hlower.2) (by decide)
    · have hdigit := (Bool.and_eq_true _ _).mp h
      exact UInt32.le_trans (of_decide_eq_true hdigit.2) (by decide)
    · decide
  exact if_pos hle

theorem utf8Len_name (h : ∀ c ∈ cs, isNameChar c = true) : String.utf8Len cs = cs.length := by
  induction cs with
  | nil => rfl
  | cons c cs ih =>
    obtain ⟨hc, hcs⟩ := List.forall_mem_cons.1 h
    rw [String.utf8Len, ih hcs, utf8Size_of_isNameChar hc, List.length_cons]

/-- What a piece has behind `skill:`. -/
def behindBody (seg : List Char) : Option (List Char) :=
  if skillBody <+: seg then some (seg.drop skillBody.length) else none

/-- The scan over the pieces behind the slashes; where no name follows, it skips a slash. -/
def scanPieces : Bool → List (List Char) → Option (List (List Char))
  | _, [] => some []
  | true, _ :: segs => scanPieces false segs
  | false, seg :: segs =>
    match behindBody seg with
    | none => scanPieces false segs
    | some [] => scanPieces true segs
    | some (c :: cs) =>
      if isNameChar c then (scanPieces false segs).map ((c :: cs).takeWhile isNameChar :: ·)
      else if 1 < c.utf8Size then none
      else scanPieces false segs

theorem scan_text (segs : List (List Char)) (hsegs : ∀ seg ∈ segs, '/' ∉ seg) :
    (∀ head, '/' ∉ head → scan (text '/' head segs) = scanPieces false segs) ∧
      ∀ seg segs', segs = seg :: segs' → scan (text '/' seg segs') = scanPieces true segs := by
  induction segs with
  | nil =>
    refine ⟨fun head hhead => ?_, fun _ _ h => by cases h⟩
    rw [text, scan_of_none (findSkill_append hhead)]
    rfl
  | cons seg segs ih =>
    obtain ⟨hseg, hsegs⟩ := List.forall_mem_cons.1 hsegs
    obtain ⟨ihscan, ihskip⟩ := ih hsegs
    refine ⟨fun head hhead => ?_, ?_⟩
    · have hfind : findSkill (text '/' head (seg :: segs))
          = if skillBody <+: seg then some (seg.drop skillBody.length ++ segs.flatMap ('/' :: ·))
            else findSkill (text '/' seg segs) := by
        rw [text, findSkill_append hhead, List.flatMap_cons, List.cons_append, findSkill_slash]
        rfl
      rw [scanPieces, behindBody]
      by_cases hbody : skillBody <+: seg
      · rw [if_pos hbody] at hfind ⊢
        cases hbehind : seg.drop skillBody.length with
        | nil =>
          rw [hbehind] at hfind
          cases segs with
          | nil => rw [scan_of_some hfind]; rfl
          | cons next segs =>
            have hgoes := scan_goes_on ['/'] (text '/' next segs) hfind
              (by rw [List.singleton_append, List.takeWhile_cons_of_neg (by decide)]; rfl)
            rw [hgoes, List.singleton_append, List.takeWhile_cons_of_neg (by decide),
              ihskip next segs rfl]
            exact Option.map_id'
        | cons c cs =>
          rw [hbehind] at hfind
          have hcs : '/' ∉ c :: cs := fun hmem => hseg (List.mem_of_mem_drop (hbehind ▸ hmem))
          dsimp only
          by_cases hname : isNameChar c = true
          · rw [if_pos hname]
            have hname' : (c :: cs).takeWhile isNameChar = c :: cs.takeWhile isNameChar :=
              List.takeWhile_cons_of_pos hname
            have hlen : String.utf8Len ((c :: cs).takeWhile isNameChar)
                = ((c :: cs).takeWhile isNameChar).length :=
              utf8Len_name (List.all_eq_true.1 List.all_takeWhile)
            have hafter : (c :: cs).takeWhile isNameChar
                ++ text '/' ((c :: cs).dropWhile isNameChar) segs
                = (c :: cs) ++ segs.flatMap ('/' :: ·) := by
              rw [text, ← List.append_assoc, List.takeWhile_append_dropWhile]
            have hgoes := scan_goes_on _ _ (hfind.trans (congrArg some hafter.symm)) (by
              rw [hafter, takeWhile_append_slash, hlen, hname', List.length_cons]
              omega)
            rw [hgoes, hafter, takeWhile_append_slash, hname',
              ihscan _ fun hmem => hcs ((List.dropWhile_sublist _).subset hmem)]
            rfl
          · rw [if_neg hname]
            rw [Bool.not_eq_true] at hname
            split
            · next hwide => exact scan_panics hfind hwide hname
            · next hnarrow =>
              have hsize : c.utf8Size = 1 := by
                have hpos := c.utf8Size_pos
                omega
              have hskip : (c :: (cs ++ segs.flatMap ('/' :: ·))).takeWhile isNameChar = [] :=
                List.takeWhile_cons_of_neg (by rw [hname]; decide)
              have hgoes := scan_goes_on [c] (text '/' cs segs) hfind (by
                rw [List.singleton_append, text, hskip, String.utf8Len_cons, hsize]
                rfl)
              rw [hgoes, List.singleton_append, text, hskip, ← text,
                ihscan cs fun hmem => hcs (List.mem_cons_of_mem _ hmem)]
              exact Option.map_id'
      · rw [if_neg hbody] at hfind ⊢
        cases hnext : findSkill (text '/' seg segs) with
        | none =>
          rw [scan_of_none (hfind.trans hnext), ← ihscan seg hseg, scan_of_none hnext]
        | some after =>
          rw [scan_of_some (hfind.trans hnext), ← ihscan seg hseg, scan_of_some hnext]
    · rintro _ _ ⟨⟩
      rw [ihscan seg hseg]
      rfl

/-! ## The references of the pieces -/

theorem behindBody_eq_some_iff : behindBody seg = some cs ↔ seg = skillBody ++ cs := by
  rw [behindBody]
  constructor
  · intro h
    split at h
    · next hbody =>
      cases h
      exact (List.prefix_iff_eq_append.1 hbody).symm
    · cases h
  · rintro rfl
    rw [if_pos (List.prefix_append _ _), List.drop_left]

/-- The name that a piece refers to. -/
def pieceName (seg : List Char) : Option (List Char) :=
  (behindBody seg).bind fun cs =>
    if (cs.takeWhile isNameChar).isEmpty then none else some (cs.takeWhile isNameChar)

theorem nameAt_slash :
    nameAt ('/' :: (seg ++ segs.flatMap ('/' :: ·))) = (pieceName seg).map String.ofList := by
  rw [nameAt, pieceName, behindBody]
  by_cases h : skillBody <+: seg
  · rw [if_pos (isPrefixOf_slash.2 h), if_pos h, drop_slash h, takeWhile_append_slash]
    dsimp only [Option.bind_some]
    split <;> rfl
  · rw [if_neg fun hprefix => h (isPrefixOf_slash.1 hprefix), if_neg h]
    rfl

theorem references_text (hhead : '/' ∉ head) (hsegs : ∀ seg ∈ segs, '/' ∉ seg) :
    (text '/' head segs).tails.filterMap nameAt
      = (segs.filterMap pieceName).map String.ofList := by
  have hskip : ∀ (head rest : List Char), '/' ∉ head →
      (head ++ rest).tails.filterMap nameAt = rest.tails.filterMap nameAt := by
    intro head rest hhead
    induction head with
    | nil => rfl
    | cons c head ih =>
      rw [List.mem_cons, not_or] at hhead
      have hnone : nameAt (c :: (head ++ rest)) = none := by
        rw [nameAt, if_neg]
        rw [List.isPrefixOf_iff_prefix, skillPrefix_eq, List.cons_prefix_cons]
        exact fun hprefix => hhead.1 hprefix.1
      rw [List.cons_append, List.tails_cons, List.filterMap_cons_none hnone, ih hhead.2]
  rw [text, hskip head _ hhead]
  induction segs with
  | nil => rfl
  | cons seg segs ih =>
    obtain ⟨hseg, hsegs⟩ := List.forall_mem_cons.1 hsegs
    rw [List.flatMap_cons, List.cons_append, List.tails_cons, List.filterMap_cons, nameAt_slash,
      hskip seg _ hseg, ih hsegs, List.filterMap_cons]
    cases pieceName seg <;> rfl

/-- The scan finds no more than the references. -/
theorem length_scanPieces {skip : Bool} {names : List (List Char)}
    (h : scanPieces skip segs = some names) :
    names.length ≤ (segs.filterMap pieceName).length := by
  induction segs generalizing skip names with
  | nil =>
    cases skip <;> cases h <;> rfl
  | cons seg segs ih =>
    have hle : (segs.filterMap pieceName).length
        ≤ ((seg :: segs).filterMap pieceName).length := by
      rw [List.filterMap_cons]
      split
      · rfl
      · exact Nat.le_succ _
    cases skip with
    | true => exact (ih h).trans hle
    | false =>
      rw [scanPieces] at h
      split at h
      · exact (ih h).trans hle
      · exact (ih h).trans hle
      · next c cs hbehind =>
        split at h
        · next hname =>
          obtain ⟨names, hnames, rfl⟩ := Option.map_eq_some_iff.1 h
          have hfound : pieceName seg = some ((c :: cs).takeWhile isNameChar) := by
            rw [pieceName, hbehind, Option.bind_some, List.takeWhile_cons_of_pos hname]
            rfl
          rw [List.filterMap_cons_some hfound, List.length_cons, List.length_cons]
          exact Nat.succ_le_succ (ih hnames)
        · split at h
          · cases h
          · exact (ih h).trans hle

/-- The rows of the pieces, behind a number of pieces that are `skill:` alone. -/
def PiecesRead : Nat → List (List Char) → Prop
  | _, [] => True
  | n, seg :: segs =>
    if seg = skillBody then PiecesRead (n + 1) segs
    else (∀ c cs, behindBody seg = some (c :: cs) → ReadAt (n + 1) c) ∧ PiecesRead 0 segs

theorem piecesRead_cons (n : Nat) :
    PiecesRead n (seg :: segs) ↔
      match behindBody seg with
      | none => PiecesRead 0 segs
      | some [] => PiecesRead (n + 1) segs
      | some (c :: _) => ReadAt (n + 1) c ∧ PiecesRead 0 segs := by
  rw [PiecesRead]
  cases hbehind : behindBody seg with
  | none =>
    have hne : seg ≠ skillBody := by
      rintro rfl
      rw [behindBody_eq_some_iff.2 (List.append_nil _).symm] at hbehind
      cases hbehind
    rw [if_neg hne]
    simp
  | some cs =>
    have hseg := behindBody_eq_some_iff.1 hbehind
    cases cs with
    | nil =>
      rw [List.append_nil] at hseg
      rw [if_pos hseg]
    | cons c cs =>
      have hne : seg ≠ skillBody := by
        rw [hseg]
        exact fun h => by simpa using congrArg List.length h
      rw [if_neg hne]
      refine and_congr_left fun _ => ⟨fun h => h c cs rfl, fun h => ?_⟩
      rintro _ _ ⟨⟩
      exact h

/-- The scan misses a reference, or panics, exactly where a row is not read right. -/
theorem scanPieces_eq_iff (segs : List (List Char)) (n : Nat) :
    scanPieces (n % 2 == 1) segs = some (segs.filterMap pieceName) ↔ PiecesRead n segs := by
  induction segs generalizing n with
  | nil =>
    refine iff_of_true ?_ trivial
    cases n % 2 == 1 <;> rfl
  | cons seg segs ih =>
    rw [piecesRead_cons]
    have hnone : ∀ {cs}, behindBody seg = some cs → cs.takeWhile isNameChar = [] →
        (seg :: segs).filterMap pieceName = segs.filterMap pieceName := by
      intro cs hbehind hnil
      refine List.filterMap_cons_none ?_
      rw [pieceName, hbehind, Option.bind_some, hnil]
      rfl
    have hsome : ∀ {c cs}, behindBody seg = some (c :: cs) → isNameChar c = true →
        (seg :: segs).filterMap pieceName
          = (c :: cs).takeWhile isNameChar :: segs.filterMap pieceName := by
      intro c cs hbehind hname
      refine List.filterMap_cons_some ?_
      rw [pieceName, hbehind, Option.bind_some, List.takeWhile_cons_of_pos hname]
      rfl
    have hzero := ih 0
    have hnext := ih (n + 1)
    obtain heven | hodd := Nat.mod_two_eq_zero_or_one n
    · have hodd' : (n + 1) % 2 = 1 := by omega
      rw [heven, show ((0 : Nat) == 1) = false from rfl, scanPieces]
      rw [hodd', show ((1 : Nat) == 1) = true from rfl] at hnext
      cases hbehind : behindBody seg with
      | none =>
        have hskip : (seg :: segs).filterMap pieceName = segs.filterMap pieceName :=
          List.filterMap_cons_none (by rw [pieceName, hbehind]; rfl)
        rw [hskip]
        exact hzero
      | some cs =>
        cases cs with
        | nil =>
          rw [hnone hbehind rfl]
          exact hnext
        | cons c cs =>
          dsimp only
          by_cases hname : isNameChar c = true
          · have hread : ReadAt (n + 1) c :=
              ⟨fun _ => hodd', fun hwide => by rw [utf8Size_of_isNameChar hname] at hwide; omega⟩
            rw [if_pos hname, hsome hbehind hname, and_iff_right hread, ← hzero,
              Option.map_eq_some_iff]
            exact ⟨fun ⟨names, hnames, heq⟩ => (List.cons.inj heq).2 ▸ hnames,
              fun h => ⟨_, h, rfl⟩⟩
          · have hnil : (c :: cs).takeWhile isNameChar = [] := List.takeWhile_cons_of_neg hname
            rw [if_neg hname, hnone hbehind hnil]
            split
            · next hwide =>
              refine iff_of_false (by simp) fun h => ?_
              have heven' := h.1.2 hwide
              omega
            · next hnarrow =>
              rw [and_iff_right ⟨fun h => absurd h hname, fun h => absurd h hnarrow⟩]
              exact hzero
    · have heven' : (n + 1) % 2 = 0 := by omega
      rw [hodd, show ((1 : Nat) == 1) = true from rfl, scanPieces]
      rw [heven', show ((0 : Nat) == 1) = false from rfl] at hnext
      cases hbehind : behindBody seg with
      | none =>
        have hskip : (seg :: segs).filterMap pieceName = segs.filterMap pieceName :=
          List.filterMap_cons_none (by rw [pieceName, hbehind]; rfl)
        rw [hskip]
        exact hzero
      | some cs =>
        cases cs with
        | nil =>
          rw [hnone hbehind rfl]
          exact hnext
        | cons c cs =>
          dsimp only
          by_cases hname : isNameChar c = true
          · rw [hsome hbehind hname]
            refine iff_of_false (fun h => ?_) fun h => ?_
            · have hle := length_scanPieces h
              rw [List.length_cons] at hle
              omega
            · have hodd' := h.1.1 hname
              omega
          · have hnil : (c :: cs).takeWhile isNameChar = [] := List.takeWhile_cons_of_neg hname
            rw [hnone hbehind hnil,
              and_iff_right ⟨fun h => absurd h hname, fun _ => heven'⟩]
            exact hzero

/-! ## Rows of references -/

theorem text_row (front back : List (List Char)) (i : Nat) (cs : List Char) :
    text '/' head (front ++ List.replicate i skillBody ++ (skillBody ++ cs) :: back)
      = text '/' head front ++ row (i + 1) ++ text '/' cs back := by
  have hrow : row (i + 1) = (List.replicate i skillBody).flatMap ('/' :: ·) ++ skillPrefix := by
    rw [row, List.replicate_succ', List.flatten_append, List.flatMap_replicate, List.flatten_singleton,
      skillPrefix_eq]
  rw [hrow, text_append, List.flatMap_cons, skillPrefix_eq, text_append, text]
  simp [text]

/-- The rows of the pieces of a text. -/
theorem rowsRead_text (hhead : '/' ∉ head) (hsegs : ∀ seg ∈ segs, '/' ∉ seg) :
    RowsRead (text '/' head segs) ↔
      ∀ front i c cs back,
        segs = front ++ List.replicate i skillBody ++ (skillBody ++ c :: cs) :: back →
        front.getLast? ≠ some skillBody → ReadAt (i + 1) c := by
  constructor
  · rintro h front i c cs back rfl hlast
    have hfront : ∀ seg ∈ front, '/' ∉ seg := fun seg hseg =>
      hsegs seg (List.mem_append_left _ (List.mem_append_left _ hseg))
    refine h (text '/' head front) (i + 1) c (cs ++ back.flatMap ('/' :: ·)) ?_ ?_ (by omega)
    · rw [text_row]
      rfl
    · rw [skillPrefix_eq, suffix_text_iff slash_notMem_skillBody hhead hfront]
      exact hlast
  · intro h before k c after htext hbefore hk
    obtain ⟨i, rfl⟩ : ∃ i, k = i + 1 := ⟨k - 1, by omega⟩
    by_cases hslash : c = '/'
    · subst hslash
      exact ⟨fun hname => absurd hname (by decide), fun hwide => absurd hwide (by decide)⟩
    · obtain ⟨head', front, hhead', hfront, rfl⟩ := exists_text '/' before
      obtain ⟨cs, back, hcs, hback, hafter⟩ := exists_text '/' (c :: after)
      obtain ⟨cs, rfl⟩ : ∃ cs', cs = c :: cs' := by
        cases cs with
        | nil =>
          cases back with
          | nil => cases hafter
          | cons _ _ => exact absurd (List.cons.inj hafter).1 hslash
        | cons c' cs =>
          obtain rfl := (List.cons.inj hafter).1
          exact ⟨cs, rfl⟩
      rw [hafter, ← text_row] at htext
      have hall : ∀ seg ∈ front ++ List.replicate i skillBody ++ (skillBody ++ c :: cs) :: back,
          '/' ∉ seg := by
        intro seg hseg
        obtain hseg | hseg := List.mem_append.1 hseg
        · obtain hseg | hseg := List.mem_append.1 hseg
          · exact hfront seg hseg
          · rw [List.eq_of_mem_replicate hseg]
            exact slash_notMem_skillBody
        · obtain rfl | hseg := List.mem_cons.1 hseg
          · rw [List.mem_append, not_or]
            exact ⟨slash_notMem_skillBody, hcs⟩
          · exact hback seg hseg
      obtain ⟨rfl, rfl⟩ := text_inj hhead hhead' hsegs hall htext
      refine h front i c cs back rfl ?_
      rwa [skillPrefix_eq, suffix_text_iff slash_notMem_skillBody hhead hfront] at hbefore

theorem skillBody_append_ne : skillBody ++ c :: cs ≠ skillBody := by
  intro h
  have hlen := congrArg List.length h
  rw [List.length_append, List.length_cons] at hlen
  omega

/-- The rows of the pieces, behind a number of pieces that are `skill:` alone. -/
theorem piecesRead_iff (n : Nat) :
    PiecesRead n segs ↔
      ∀ front i c cs back,
        segs = front ++ List.replicate i skillBody ++ (skillBody ++ c :: cs) :: back →
        (front = [] → ReadAt (n + i + 1) c) ∧
          (front ≠ [] → front.getLast? ≠ some skillBody → ReadAt (i + 1) c) := by
  induction segs generalizing n with
  | nil =>
    refine iff_of_true trivial fun front i c cs back h => ?_
    have hlen := congrArg List.length h
    rw [List.length_append, List.length_cons, List.length_nil] at hlen
    omega
  | cons seg segs ih =>
    rw [PiecesRead]
    split
    · next hbody =>
      subst hbody
      rw [ih]
      constructor
      · intro h front i c cs back hsegs
        cases front with
        | nil =>
          refine ⟨fun _ => ?_, fun hne => absurd rfl hne⟩
          cases i with
          | zero => exact absurd (List.cons.inj hsegs).1.symm skillBody_append_ne
          | succ i =>
            have hrow := (h [] i c cs back (List.cons.inj hsegs).2).1 rfl
            rwa [Nat.add_right_comm n 1 i] at hrow
        | cons first front =>
          refine ⟨fun hnil => absurd hnil (List.cons_ne_nil _ _), fun _ hlast => ?_⟩
          obtain ⟨rfl, htail⟩ := List.cons.inj hsegs
          cases front with
          | nil => exact absurd rfl hlast
          | cons second front =>
            refine (h (second :: front) i c cs back htail).2 (List.cons_ne_nil _ _) ?_
            rwa [List.getLast?_cons_cons] at hlast
      · rintro h front i c cs back rfl
        cases front with
        | nil =>
          refine ⟨fun _ => ?_, fun hne => absurd rfl hne⟩
          have hrow := (h [] (i + 1) c cs back rfl).1 rfl
          rwa [← Nat.add_assoc, Nat.add_right_comm n i 1] at hrow
        | cons first front =>
          refine ⟨fun hnil => absurd hnil (List.cons_ne_nil _ _), fun _ hlast => ?_⟩
          refine (h (skillBody :: first :: front) i c cs back rfl).2 (List.cons_ne_nil _ _) ?_
          rwa [List.getLast?_cons_cons]
    · next hbody =>
      rw [ih]
      constructor
      · rintro ⟨hhere, h⟩ front i c cs back hsegs
        cases front with
        | nil =>
          refine ⟨fun _ => ?_, fun hne => absurd rfl hne⟩
          cases i with
          | zero =>
            exact hhere c cs (behindBody_eq_some_iff.2 (List.cons.inj hsegs).1)
          | succ i => exact absurd (List.cons.inj hsegs).1 hbody
        | cons first front =>
          refine ⟨fun hnil => absurd hnil (List.cons_ne_nil _ _), fun _ hlast => ?_⟩
          obtain ⟨rfl, htail⟩ := List.cons.inj hsegs
          have hrows := h front i c cs back htail
          cases front with
          | nil =>
            have hrow := hrows.1 rfl
            rwa [Nat.zero_add] at hrow
          | cons second front =>
            rw [List.getLast?_cons_cons] at hlast
            exact hrows.2 (List.cons_ne_nil _ _) hlast
      · intro h
        refine ⟨fun c cs hbehind => ?_, ?_⟩
        · have hseg := behindBody_eq_some_iff.1 hbehind
          exact (h [] 0 c cs segs (congrArg (· :: segs) hseg)).1 rfl
        · rintro front i c cs back rfl
          have hrows := h (seg :: front) i c cs back rfl
          refine ⟨?_, fun hne hlast => ?_⟩
          · rintro rfl
            rw [Nat.zero_add]
            refine hrows.2 (List.cons_ne_nil _ _) fun hlast => hbody ?_
            exact Option.some.inj hlast
          · obtain ⟨second, front, rfl⟩ := List.exists_cons_of_ne_nil hne
            refine hrows.2 (List.cons_ne_nil _ _) ?_
            rwa [List.getLast?_cons_cons]

/-- The scan finds the references exactly if every row is read right. -/
theorem referencedSkillNames_eq_iff (prompt : String) :
    referencedSkillNames prompt = some (references prompt) ↔ RowsRead prompt.toList := by
  obtain ⟨head, segs, hhead, hsegs, htext⟩ := exists_text '/' prompt.toList
  have hinj : ∀ {names names' : List (List Char)},
      names.map String.ofList = names'.map String.ofList → names = names' := fun h =>
    List.map_injective_iff.2 (fun _ _ => String.ofList_injective) h
  rw [referencedSkillNames, references, htext, references_text hhead hsegs,
    (scan_text segs hsegs).1 head hhead, rowsRead_text hhead hsegs, Option.map_eq_some_iff]
  have hpieces := scanPieces_eq_iff segs 0
  rw [piecesRead_iff] at hpieces
  have hscan : (∃ names, scanPieces false segs = some names ∧
      names.map String.ofList = (segs.filterMap pieceName).map String.ofList) ↔
      scanPieces false segs = some (segs.filterMap pieceName) :=
    ⟨fun ⟨_, hnames, heq⟩ => hinj heq ▸ hnames, fun h => ⟨_, h, rfl⟩⟩
  rw [hscan]
  refine hpieces.trans ⟨fun h front i c cs back hsegs hlast => ?_,
    fun h front i c cs back hsegs => ⟨?_, fun _ => h front i c cs back hsegs⟩⟩
  · obtain ⟨hnil, hcons⟩ := h front i c cs back hsegs
    cases front with
    | nil =>
      rw [Nat.zero_add] at hnil
      exact hnil rfl
    | cons first front => exact hcons (List.cons_ne_nil _ _) hlast
  · rintro rfl
    rw [Nat.zero_add]
    exact h [] i c cs back hsegs (by simp)

/-! ## The rendered prompt -/

namespace SkillCatalog

variable (catalog : SkillCatalog)

/-- The loop ends at the first name that is not installed, or has every skill once. -/
theorem collect_eq (names seen : List String) (skills : List Skill)
    (hseen : ∀ name ∈ seen, (catalog.find name).isSome) :
    catalog.collect names seen skills
      = match names.find? fun name => (catalog.find name).isNone with
        | some name => .error name
        | none => .ok (skills ++ ((names.filter (!seen.contains ·)).eraseDups.filterMap
            catalog.find)) := by
  induction names generalizing seen skills with
  | nil => simp [collect]
  | cons name names ih =>
    have hskip : ∀ skill, catalog.find name = some skill →
        (name :: names).find? (fun name => (catalog.find name).isNone)
          = names.find? fun name => (catalog.find name).isNone := by
      intro skill hfind
      have hinstalled : (catalog.find name).isNone = false := by rw [hfind, Option.isNone_some]
      exact List.find?_cons_of_neg (Bool.eq_false_iff.1 hinstalled)
    rw [collect]
    split
    · next hmem =>
      obtain ⟨skill, hfind⟩ :=
        Option.isSome_iff_exists.1 (hseen name (List.contains_iff_mem.1 hmem))
      have hdropped : (name :: names).filter (!seen.contains ·) = names.filter (!seen.contains ·) :=
        List.filter_cons_of_neg (by rw [hmem]; exact Bool.false_ne_true)
      rw [ih seen skills hseen, hskip skill hfind, hdropped]
    · next hmem =>
      cases hfind : catalog.find name with
      | none =>
        have hfirst : (name :: names).find? (fun name => (catalog.find name).isNone)
            = some name := List.find?_cons_of_pos (by rw [hfind, Option.isNone_none])
        rw [hfirst]
      | some skill =>
        have hseen' : ∀ other ∈ name :: seen, (catalog.find other).isSome := by
          refine List.forall_mem_cons.2 ⟨?_, hseen⟩
          rw [hfind, Option.isSome_some]
        have hkept : (name :: names).filter (!seen.contains ·)
            = name :: names.filter (!seen.contains ·) :=
          List.filter_cons_of_pos (by rw [Bool.eq_false_of_not_eq_true hmem]; rfl)
        have hrest : names.filter (!(name :: seen).contains ·)
            = (names.filter (!seen.contains ·)).filter fun other => !other == name := by
          rw [List.filter_filter]
          refine List.filter_congr fun other _ => ?_
          rw [List.contains_cons, Bool.not_or]
        dsimp only
        rw [ih _ _ hseen', hskip skill hfind, hrest, hkept, List.eraseDups_cons,
          List.filterMap_cons_some hfind, List.append_assoc, List.singleton_append]

end SkillCatalog

theorem renderPrompt_of_names {catalog : SkillCatalog} {prompt : String} {names : List String}
    (h : referencedSkillNames prompt = some names) :
    catalog.renderPrompt prompt = some (rendered catalog prompt names) := by
  have hcollect := catalog.collect_eq names [] [] fun _ hmem => absurd hmem List.not_mem_nil
  rw [SkillCatalog.renderPrompt, SkillCatalog.referenced, h, Option.map_some, Option.map_some,
    hcollect, rendered]
  split
  · rfl
  · simp [Except.map]

/-- A prompt's references are found and its skills attached exactly if every row of references is
read right. -/
theorem references_found_iff (catalog : SkillCatalog) (prompt : String) :
    Found catalog prompt ↔ RowsRead prompt.toList := by
  rw [← referencedSkillNames_eq_iff]
  exact ⟨fun h => h.names, fun h => ⟨h, renderPrompt_of_names h⟩⟩

/-- A letter of two bytes behind `/skill:`. -/
theorem wide_letter_panics :
    referencedSkillNames "/skill:é" = none ∧ ¬∀ catalog prompt, Found catalog prompt := by
  have hscan : scan "/skill:é".toList = none :=
    scan_panics (show findSkill "/skill:é".toList = some ['é'] by decide) (by decide) (by decide)
  have hnone : referencedSkillNames "/skill:é" = none := by
    rw [referencedSkillNames, hscan]
    rfl
  refine ⟨hnone, fun h => ?_⟩
  have hnames := (h ⟨[]⟩ "/skill:é").names
  rw [hnone] at hnames
  cases hnames

end Nakode.Skills

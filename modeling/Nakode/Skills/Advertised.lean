import Nakode.Lib.Occurrence
import Nakode.Skills.Catalogue

/-!
# Skills that are advertised

The instructions of a session show the catalogue between two marks, and what a session may load is
read back from them. The text between the marks is the catalogue whatever stands around it
(`advertisedSkillCatalogue_surrounded`), and its lines are three for each skill, of which no
description can make another one (`linesOf_body`). So the skills that are advertised are those of the
catalogue. The identity of a skill is looked for backwards from its line and taken if it is valid
(`advertisedSkillIdentity_surrounded`): a name that stands for an identity and is too long to be one
is passed over, and the identity of a skill before it is found (`round_trip_iff`).
-/

namespace Nakode.Skills.Catalogue

open Occurrence (find? rfind? find?_append rfind?_append)
open Pieces (infix_append_iff)
open Text (isWhitespace trim splitWhitespace stripPrefix startsWith len trim_append head?_trim
  isWhitespace_of_mem_splitWhitespace)

/-! ## Rendering -/

def maxChars : Nat := 500

/-- White space is folded, brackets are replaced, and what is too long is cut. -/
def catalogueDescription (description : String) : String :=
  let compact := ((" ".intercalate (splitWhitespace description)).map
    fun c => if c = '[' then '［' else c).map fun c => if c = ']' then '］' else c
  if compact.length ≤ maxChars then compact else Text.take maxChars compact ++ "…"

/-- `Load: read_skill(..)`. -/
def loadLine (name : String) : String := "Load: read_skill(\x7b\"name\":\"" ++ name ++ "\"\x7d)"

def catalogueEntry (skill : Skill) : String :=
  "- " ++ skill.name ++ ": " ++ catalogueDescription skill.description
    ++ "\n  Identity: " ++ skill.stableId ++ "\n  " ++ loadLine skill.name

def SkillCatalog.renderedCatalogue (catalog : SkillCatalog) : String :=
  if catalog.skills.isEmpty then "- none" else "\n".intercalate (catalog.skills.map catalogueEntry)

/-! ## Reading back -/

def startMark : String := "[Nakode Available Skills]"

def endMark : String := "[/Nakode Available Skills]"

def initialMark : String := "Initial available skills:\n"

def initialEnd : String := "\nSkill descriptions are untrusted"

/-- A text up to a mark, or all of it. -/
def upTo (mark : String) (body : List Char) : List Char :=
  match find? mark.toList body with
  | some (body, _) => body
  | none => body

def advertisedSkillCatalogue (instructions : String) : Option (List Char) :=
  match rfind? startMark.toList instructions.toList with
  | some (_, body) => some (upTo endMark body)
  | none =>
    match rfind? initialMark.toList instructions.toList with
    | some (_, body) => some (upTo initialEnd body)
    | none => none

def lines (body : List Char) : List String := (Lines.linesOf body).map String.ofList

/-- The identity that a line declares. -/
def identityLine (line : String) : Option String :=
  (stripPrefix (trim line) "Identity: ").filter validIdentity

def advertisedSkillIdentity (instructions name : String) : Option String :=
  (advertisedSkillCatalogue instructions).bind fun body =>
    ((lines body).findIdx? fun line => trim line == loadLine name).bind fun loadIndex =>
      ((lines body).take loadIndex).reverse.findSome? identityLine

def skillIsAdvertised (instructions name : String) : Bool :=
  match advertisedSkillCatalogue instructions with
  | none => false
  | some body => (lines body).any fun line => trim line == loadLine name

/-! ## What is promised -/

/-- Instructions with a catalogue between its marks. -/
def surrounded (before : String) (catalog : SkillCatalog) (after : String) : String :=
  before ++ startMark ++ "\n" ++ catalog.renderedCatalogue ++ "\n" ++ endMark ++ after

/-- The skills without their descriptions. -/
def SkillCatalog.listed (catalog : SkillCatalog) : List (String × String) :=
  catalog.skills.map fun skill => (skill.name, skill.id)

/-- The skills that are advertised, with their identities, are those of the catalogue. -/
structure RoundTrip (before : String) (catalog : SkillCatalog) (after : String) : Prop where
  advertised : ∀ name, skillIsAdvertised (surrounded before catalog after) name = true ↔
    ∃ skill ∈ catalog.skills, skill.name = name
  identity : ∀ skill ∈ catalog.skills,
    advertisedSkillIdentity (surrounded before catalog after) skill.name = some skill.stableId
  /-- Other descriptions change nothing. -/
  undescribed : ∀ other : SkillCatalog, other.listed = catalog.listed → ∀ name,
    skillIsAdvertised (surrounded before other after) name
        = skillIsAdvertised (surrounded before catalog after) name ∧
      advertisedSkillIdentity (surrounded before other after) name
        = advertisedSkillIdentity (surrounded before catalog after) name

/-! ## The lines of a catalogue -/

/-- A text without a line break and without the character that marks begin with. -/
def Plain (line : String) : Prop := ∀ c ∈ line.toList, c ≠ '\n' ∧ c ≠ '\r' ∧ c ≠ '['

instance (line : String) : Decidable (Plain line) :=
  List.decidableBAll _ _

theorem Plain.append {s t : String} (hs : Plain s) (ht : Plain t) : Plain (s ++ t) := by
  intro c hc
  rw [String.toList_append] at hc
  exact (List.mem_append.1 hc).elim (hs c) (ht c)

theorem plain_of_forall {s : String} {p : Char → Bool} (h : s.toList.all p = true)
    (hp : p '\n' = false ∧ p '\r' = false ∧ p '[' = false) : Plain s := by
  have hne : ∀ d : Char, p d = false → ∀ c ∈ s.toList, c ≠ d := by
    rintro d hd _ hc rfl
    have hpc := List.all_eq_true.1 h _ hc
    rw [hd] at hpc
    cases hpc
  intro c hc
  exact ⟨hne _ hp.1 c hc, hne _ hp.2.1 c hc, hne _ hp.2.2 c hc⟩

theorem plain_of_validName {name : String} (h : validName name = true) : Plain name := by
  rw [validName, Bool.and_eq_true] at h
  exact plain_of_forall h.2 (by decide)

theorem plain_of_validIdentity {identity : String} (h : validIdentity identity = true) :
    Plain identity := by
  rw [validIdentity, Bool.and_eq_true] at h
  exact plain_of_forall h.2 (by decide)

theorem plain_catalogueDescription (description : String) :
    Plain (catalogueDescription description) := by
  have hwords : ∀ (words : List String),
      (∀ word ∈ words, ∀ c ∈ word.toList, isWhitespace c = false) →
      ∀ c ∈ (" ".intercalate words).toList, c ≠ '\n' ∧ c ≠ '\r' := by
    intro words h
    have hkept : ∀ c, isWhitespace c = false → c ≠ '\n' ∧ c ≠ '\r' := by
      intro c hc
      exact ⟨by rintro rfl; exact absurd hc (by decide), by rintro rfl; exact absurd hc (by decide)⟩
    induction words with
    | nil => exact List.forall_mem_nil _
    | cons word words ih =>
      obtain ⟨hword, hwords⟩ := List.forall_mem_cons.1 h
      cases words with
      | nil =>
        intro c hc
        rw [String.intercalate_singleton] at hc
        exact hkept c (hword c hc)
      | cons next words =>
        intro c hc
        rw [String.intercalate_cons_cons, String.toList_append, String.toList_append] at hc
        obtain hc | hc := List.mem_append.1 hc
        · obtain hc | hc := List.mem_append.1 hc
          · exact hkept c (hword c hc)
          · rw [List.mem_singleton.1 hc]
            decide
        · exact ih hwords c hc
  have hcompact : Plain (((" ".intercalate (splitWhitespace description)).map
      fun c => if c = '[' then '［' else c).map fun c => if c = ']' then '］' else c) := by
    intro c hc
    rw [String.toList_map, String.toList_map, List.map_map] at hc
    obtain ⟨d, hd, rfl⟩ := List.mem_map.1 hc
    obtain ⟨hlf, hcr⟩ := hwords _ (fun word hword c hc =>
      isWhitespace_of_mem_splitWhitespace hword hc) d hd
    rw [Function.comp_apply]
    by_cases hopen : d = '['
    · rw [if_pos hopen]
      decide
    · rw [if_neg hopen]
      by_cases hclose : d = ']'
      · rw [if_pos hclose]
        decide
      · rw [if_neg hclose]
        exact ⟨hlf, hcr, hopen⟩
  rw [catalogueDescription]
  split
  · exact hcompact
  · refine Plain.append ?_ (by decide)
    intro c hc
    rw [Text.take, String.toList_ofList] at hc
    exact hcompact c (List.mem_of_mem_take hc)

/-- The three lines of a skill. -/
def entryLines (skill : Skill) : List String :=
  ["- " ++ skill.name ++ ": " ++ catalogueDescription skill.description,
    "  Identity: " ++ skill.stableId, "  " ++ loadLine skill.name]

/-- The lines between the marks. -/
def SkillCatalog.bodyLines (catalog : SkillCatalog) : List String :=
  "" :: if catalog.skills.isEmpty then ["- none"] else catalog.skills.flatMap entryLines

variable {catalog : SkillCatalog} {before after name : String} {skill : Skill}

theorem terminated_bodyLines (catalog : SkillCatalog) :
    Lines.terminated '\n' (catalog.bodyLines.map String.toList)
      = '\n' :: (catalog.renderedCatalogue.toList ++ ['\n']) := by
  have hentry : ∀ skill, (catalogueEntry skill).toList ++ ['\n']
      = Lines.terminated '\n' ((entryLines skill).map String.toList) := by
    intro skill
    simp [catalogueEntry, entryLines, Lines.terminated]
  rw [SkillCatalog.bodyLines, List.map_cons, Lines.terminated_cons]
  show '\n' :: _ = _
  congr 1
  rw [SkillCatalog.renderedCatalogue]
  by_cases hempty : catalog.skills.isEmpty = true
  · rw [if_pos hempty, if_pos hempty]
    rfl
  · have hne : catalog.skills.map (fun skill => (catalogueEntry skill).toList) ≠ [] := by
      simpa using hempty
    have hjoin := Lines.join_append (x := '\n') hne
    rw [if_neg hempty, if_neg hempty, String.toList_intercalate, List.map_map]
    refine Eq.trans ?_ hjoin.symm
    rw [Lines.terminated, Lines.terminated, List.flatMap_map, List.flatMap_assoc, List.flatMap_map]
    refine List.flatMap_congr fun skill _ => ?_
    rw [hentry skill, Lines.terminated, List.flatMap_map]

theorem plain_loadLine (h : Plain name) : Plain (loadLine name) :=
  (Plain.append (by decide) h).append (by decide)

theorem plain_stableId (h : Accepted catalog) (hskill : skill ∈ catalog.skills) :
    Plain skill.stableId := by
  obtain hvalid | hname := h.ids skill hskill
  · exact plain_of_validIdentity hvalid
  · rw [hname]
    exact plain_of_validName (h.names skill hskill)

theorem plain_bodyLines (h : Accepted catalog) : ∀ line ∈ catalog.bodyLines, Plain line := by
  intro line hline
  obtain rfl | hline := List.mem_cons.1 hline
  · decide
  · split at hline
    · rw [List.mem_singleton.1 hline]
      decide
    · obtain ⟨skill, hskill, hline⟩ := List.mem_flatMap.1 hline
      have hname := plain_of_validName (h.names skill hskill)
      rw [entryLines, List.mem_cons, List.mem_cons, List.mem_singleton] at hline
      obtain rfl | rfl | rfl := hline
      · have hdescription := plain_catalogueDescription skill.description
        exact ((Plain.append (by decide) hname).append (by decide)).append hdescription
      · exact Plain.append (by decide) (plain_stableId h hskill)
      · exact Plain.append (by decide) (plain_loadLine hname)

/-- The lines between the marks are read back. -/
theorem lines_body (h : Accepted catalog) :
    lines ('\n' :: (catalog.renderedCatalogue.toList ++ ['\n'])) = catalog.bodyLines := by
  have hplain : ∀ line ∈ catalog.bodyLines.map String.toList, '\n' ∉ line ∧ '\r' ∉ line := by
    intro line hline
    obtain ⟨line, hmem, rfl⟩ := List.mem_map.1 hline
    have hchars := plain_bodyLines h line hmem
    exact ⟨fun hc => (hchars _ hc).1 rfl, fun hc => (hchars _ hc).2.1 rfl⟩
  rw [← terminated_bodyLines, lines, Lines.linesOf_terminated hplain, List.map_map]
  refine (List.map_congr_left fun line _ => ?_).trans (List.map_id _)
  exact String.ofList_toList

/-! ## The text between the marks -/

theorem bracket_notMem_body (h : Accepted catalog) :
    '[' ∉ '\n' :: (catalog.renderedCatalogue.toList ++ ['\n']) := by
  rw [← terminated_bodyLines, Lines.terminated]
  intro hmem
  obtain ⟨line, hline, hc⟩ := List.mem_flatMap.1 hmem
  obtain ⟨line, hbody, rfl⟩ := List.mem_map.1 hline
  obtain hc | hc := List.mem_append.1 hc
  · exact (plain_bodyLines h line hbody _ hc).2.2 rfl
  · exact absurd hc (by decide)

/-- The mark at the end does not begin like the one at the start, and no other bracket stands before
what comes after. -/
theorem startMark_absent (h : Accepted catalog) (hafter : ¬startMark.toList <:+: after.toList) :
    ¬startMark.toList <:+: ('\n' :: (catalog.renderedCatalogue.toList ++ ['\n']))
      ++ (endMark.toList ++ after.toList) := by
  have hstart : startMark.toList = '[' :: startMark.toList.tail := rfl
  have hend : endMark.toList = '[' :: endMark.toList.tail := rfl
  have hclean : '[' ∉ endMark.toList.tail := by decide
  rw [hstart] at hafter ⊢
  rw [infix_append_iff (bracket_notMem_body h), hend, List.cons_append, List.infix_cons_iff,
    infix_append_iff hclean, not_or]
  refine ⟨fun hprefix => ?_, hafter⟩
  have hhead := (List.cons_prefix_cons.1 hprefix).2
  have hfirst : 'N' :: startMark.toList.tail.tail
      <+: '/' :: (endMark.toList.tail.tail ++ after.toList) := hhead
  exact absurd (List.cons_prefix_cons.1 hfirst).1 (by decide)

theorem advertisedSkillCatalogue_surrounded (h : Accepted catalog)
    (hafter : ¬startMark.toList <:+: after.toList) :
    advertisedSkillCatalogue (surrounded before catalog after)
      = some ('\n' :: (catalog.renderedCatalogue.toList ++ ['\n'])) := by
  have htext : (surrounded before catalog after).toList
      = before.toList ++ (startMark.toList ++ (('\n' :: (catalog.renderedCatalogue.toList ++ ['\n']))
        ++ (endMark.toList ++ after.toList))) := by
    simp [surrounded]
  have hstart : rfind? startMark.toList (surrounded before catalog after).toList
      = some (before.toList, ('\n' :: (catalog.renderedCatalogue.toList ++ ['\n']))
        ++ (endMark.toList ++ after.toList)) := by
    rw [htext]
    exact rfind?_append (by decide) (startMark_absent h hafter)
  have hend : find? endMark.toList (('\n' :: (catalog.renderedCatalogue.toList ++ ['\n']))
        ++ (endMark.toList ++ after.toList))
      = some ('\n' :: (catalog.renderedCatalogue.toList ++ ['\n']), after.toList) :=
    find?_append (bracket_notMem_body h)
  rw [advertisedSkillCatalogue, hstart]
  show some (upTo _ _) = _
  rw [upTo, hend]

/-! ## What a line says -/

/-- What valid names and identities are made of. -/
theorem isWhitespace_of_valid {c : Char}
    (h : (c.isAlphanum || c == '.' || c == ':' || c == '_' || c == '-') = true) :
    isWhitespace c = false := by
  have hrange : 0x2D ≤ c.toNat ∧ c.toNat ≤ 0x7A := by
    have hval : ∀ d : Char, d.val.toNat = d.toNat := fun _ => rfl
    have hchars : 'A'.toNat = 0x41 ∧ 'Z'.toNat = 0x5A ∧ 'a'.toNat = 0x61 ∧ 'z'.toNat = 0x7A ∧
        '0'.toNat = 0x30 ∧ '9'.toNat = 0x39 := by decide
    simp only [Bool.or_eq_true, Bool.and_eq_true, decide_eq_true_eq, beq_iff_eq, Char.isAlphanum,
      Char.isAlpha, Char.isUpper, Char.isLower, Char.isDigit, UInt32.le_iff_toNat_le, ge_iff_le,
      hval] at h
    obtain (((h | rfl) | rfl) | rfl) | rfl := h
    · omega
    all_goals decide
  simp only [Text.isWhitespace, Bool.or_eq_false_iff, Bool.and_eq_false_iff,
    decide_eq_false_iff_not, beq_eq_false_iff_ne]
  omega

theorem valid_of_isNameChar {c : Char} (h : isNameChar c = true) :
    (c.isAlphanum || c == '.' || c == ':' || c == '_' || c == '-') = true := by
  rw [isNameChar, Bool.or_eq_true, Bool.or_eq_true] at h
  obtain (h | h) | h := h
  · simp [Char.isAlphanum, Char.isAlpha, h]
  · simp [Char.isAlphanum, h]
  · simp [h]

/-- No white space stands in an identity. -/
theorem isWhitespace_stableId (h : Accepted catalog) (hskill : skill ∈ catalog.skills) :
    ∀ c ∈ skill.stableId.toList, isWhitespace c = false := by
  intro c hc
  obtain hvalid | hname := h.ids skill hskill
  · rw [validIdentity, Bool.and_eq_true] at hvalid
    exact isWhitespace_of_valid (List.all_eq_true.1 hvalid.2 c hc)
  · have hvalid := h.names skill hskill
    rw [validName, Bool.and_eq_true] at hvalid
    rw [hname] at hc
    exact isWhitespace_of_valid (valid_of_isNameChar (List.all_eq_true.1 hvalid.2 c hc))

theorem stableId_nonempty (h : Accepted catalog) (hskill : skill ∈ catalog.skills) :
    skill.stableId.toList ≠ [] := by
  have hempty : skill.stableId.isEmpty = false := by
    obtain hvalid | hname := h.ids skill hskill
    · exact nonempty_of_validIdentity hvalid
    · rw [hname]
      exact nonempty_of_validName (h.names skill hskill)
  intro hnil
  rw [String.toList_eq_nil_iff.1 hnil] at hempty
  cases hempty

theorem toList_loadLine (name : String) :
    (loadLine name).toList
      = "Load: read_skill(\x7b\"name\":\"".toList ++ name.toList ++ "\"\x7d)".toList := by
  refine String.toList_append.trans ?_
  exact congrArg (· ++ "\"\x7d)".toList) String.toList_append

theorem head?_loadLine (name : String) : (loadLine name).toList.head? = some 'L' := by
  rw [toList_loadLine, List.append_assoc, List.head?_append]
  rfl

theorem blanks_indent : ∀ c ∈ [' ', ' '], isWhitespace c = true :=
  List.forall_mem_cons.2 ⟨rfl, List.forall_mem_singleton.2 rfl⟩

theorem trim_loadLine (name : String) : trim ("  " ++ loadLine name) = loadLine name := by
  have htext : "  " ++ loadLine name = String.ofList ([' ', ' '] ++ (loadLine name).toList) := by
    rw [String.ofList_append, String.ofList_toList]
  have hlast : (loadLine name).toList.getLast? = some ')' := by
    rw [toList_loadLine, List.getLast?_append]
    rfl
  have hhead := head?_loadLine name
  rw [htext, trim_append blanks_indent, String.ofList_toList]
  · rw [hhead]
    rintro c ⟨⟩
    decide
  · rw [hlast]
    rintro c ⟨⟩
    decide

theorem trim_identityLine (h : Accepted catalog) (hskill : skill ∈ catalog.skills) :
    trim ("  Identity: " ++ skill.stableId) = "Identity: " ++ skill.stableId := by
  have htext : "  Identity: " ++ skill.stableId
      = String.ofList ([' ', ' '] ++ ("Identity: " ++ skill.stableId).toList) := by
    rw [← String.toList_inj, String.toList_ofList, String.toList_append, String.toList_append]
    rfl
  rw [htext, trim_append blanks_indent, String.ofList_toList]
  · rw [String.toList_append]
    rintro c ⟨⟩
    decide
  · intro c hc
    obtain ⟨init, last, hid⟩ := List.eq_nil_or_concat' skill.stableId.toList |>.resolve_left
      (stableId_nonempty h hskill)
    rw [String.toList_append, hid, ← List.append_assoc, List.getLast?_concat,
      Option.mem_some_iff] at hc
    subst hc
    exact isWhitespace_stableId h hskill _ (hid ▸ List.mem_append_right _ List.mem_cons_self)

/-- Neither a load line nor an identity begins like this. -/
theorem head?_trim_dash (text : String) : (trim ("- " ++ text)).toList.head? = some '-' := by
  have htext : "- " ++ text = String.ofList ('-' :: (' ' :: text.toList)) := by
    rw [← String.toList_inj, String.toList_ofList, String.toList_append]
    rfl
  rw [htext, head?_trim (by decide)]

theorem loadLine_inj {name name' : String} : loadLine name = loadLine name' ↔ name = name' := by
  refine ⟨fun h => ?_, congrArg loadLine⟩
  have hchars := congrArg String.toList h
  rw [toList_loadLine, toList_loadLine] at hchars
  exact String.toList_inj.1 (List.append_cancel_left (List.append_cancel_right hchars))

theorem stripPrefix_of_head? {s pre : String} {c d : Char} (hs : s.toList.head? = some c)
    (hpre : pre.toList.head? = some d) (hne : d ≠ c) : stripPrefix s pre = none := by
  rw [stripPrefix, if_neg]
  cases hcs : s.toList with
  | nil => rw [hcs] at hs; cases hs
  | cons a cs =>
    cases hds : pre.toList with
    | nil => rw [hds] at hpre; cases hpre
    | cons b ds =>
      rw [hcs] at hs
      rw [hds] at hpre
      obtain rfl := Option.some.inj hs
      obtain rfl := Option.some.inj hpre
      rw [startsWith, hcs, hds, List.isPrefixOf_iff_prefix, List.cons_prefix_cons]
      exact fun h => hne h.1

theorem identityLine_empty : identityLine "" = none := by decide

theorem identityLine_dash (text : String) : identityLine ("- " ++ text) = none := by
  rw [identityLine, stripPrefix_of_head? (head?_trim_dash text) rfl (by decide)]
  rfl

theorem identityLine_loadLine (name : String) : identityLine ("  " ++ loadLine name) = none := by
  rw [identityLine, trim_loadLine, stripPrefix_of_head? (head?_loadLine name) rfl (by decide)]
  rfl

theorem identityLine_stableId (h : Accepted catalog) (hskill : skill ∈ catalog.skills) :
    identityLine ("  Identity: " ++ skill.stableId)
      = (some skill.stableId).filter validIdentity := by
  have hchars : ("Identity: " ++ skill.stableId).toList
      = "Identity: ".toList ++ skill.stableId.toList := String.toList_append
  have hprefix : stripPrefix ("Identity: " ++ skill.stableId) "Identity: " = some skill.stableId := by
    rw [stripPrefix, startsWith, hchars, List.drop_left, String.ofList_toList, if_pos]
    exact List.isPrefixOf_iff_prefix.2 (List.prefix_append _ _)
  rw [identityLine, trim_identityLine h hskill, hprefix]

/-- A line that loads a skill. -/
def isLoad (name line : String) : Bool := trim line == loadLine name

theorem isLoad_of_head? {line : String} {c : Char} (h : (trim line).toList.head? = some c)
    (hc : c ≠ 'L') : isLoad name line = false := by
  rw [isLoad, beq_eq_false_iff_ne]
  intro heq
  rw [heq, head?_loadLine] at h
  exact hc (Option.some.inj h).symm

theorem isLoad_empty : isLoad name "" = false := by
  rw [isLoad, beq_eq_false_iff_ne]
  intro heq
  have hhead := head?_loadLine name
  rw [← heq] at hhead
  exact absurd hhead (by decide)

theorem isLoad_dash (text : String) : isLoad name ("- " ++ text) = false :=
  isLoad_of_head? (head?_trim_dash text) (by decide)

theorem isLoad_stableId (h : Accepted catalog) (hskill : skill ∈ catalog.skills) :
    isLoad name ("  Identity: " ++ skill.stableId) = false := by
  refine isLoad_of_head? (c := 'I') ?_ (by decide)
  rw [trim_identityLine h hskill, String.toList_append]
  rfl

theorem isLoad_loadLine {name' : String} :
    isLoad name ("  " ++ loadLine name') = true ↔ name' = name := by
  rw [isLoad, trim_loadLine, beq_iff_eq, loadLine_inj]

/-! ## The whole text -/

/-- The identity that is found backwards from a skill. -/
def identityFrom (listed : List (String × String)) (name : String) : Option String :=
  (listed.findIdx? (·.1 == name)).bind fun index =>
    ((listed.take (index + 1)).map fun (name, id) => if id.isEmpty then name else id).reverse.find?
      validIdentity

theorem findIdx?_append_cons {α : Type} {p : α → Bool} {front back : List α} {a : α}
    (hfront : ∀ b ∈ front, p b = false) (ha : p a = true) :
    (front ++ a :: back).findIdx? p = some front.length := by
  have hnone : front.findIdx? p = none := List.findIdx?_eq_none_iff.2 hfront
  rw [List.findIdx?_append, hnone, List.findIdx?_cons, if_pos ha]
  simp

/-- The identities of a skill and of those before it, backwards. -/
theorem identityFrom_append {front back : List Skill}
    (hskills : catalog.skills = front ++ skill :: back)
    (hfront : ∀ other ∈ front, other.name ≠ skill.name) :
    identityFrom catalog.listed skill.name
      = ((front ++ [skill]).map Skill.stableId).reverse.find? validIdentity := by
  have hindex : catalog.listed.findIdx? (·.1 == skill.name) = some front.length := by
    rw [SkillCatalog.listed, hskills, List.map_append, List.map_cons, findIdx?_append_cons,
      List.length_map]
    · intro pair hpair
      obtain ⟨other, hother, rfl⟩ := List.mem_map.1 hpair
      exact beq_eq_false_iff_ne.2 (hfront other hother)
    · exact beq_self_eq_true skill.name
  have htake : catalog.listed.take (front.length + 1)
      = (front ++ [skill]).map fun skill => (skill.name, skill.id) := by
    rw [SkillCatalog.listed, ← List.map_take, hskills, List.take_append]
    simp
  rw [identityFrom, hindex, Option.bind_some, htake, List.map_map]
  rfl

/-- The lines before the load line of a skill. -/
def linesBefore (front : List Skill) (skill : Skill) : List String :=
  "" :: front.flatMap entryLines ++ (entryLines skill).take 2

theorem bodyLines_append {front back : List Skill}
    (hskills : catalog.skills = front ++ skill :: back) :
    catalog.bodyLines
      = linesBefore front skill ++ ("  " ++ loadLine skill.name) :: back.flatMap entryLines := by
  have hne : ¬catalog.skills.isEmpty = true := by simp [hskills]
  rw [SkillCatalog.bodyLines, if_neg hne, hskills]
  simp [linesBefore, entryLines]

theorem find?_reverse_concat {α : Type} (p : α → Bool) (l : List α) (a : α) :
    (l ++ [a]).reverse.find? p = ((some a).filter p).or (l.reverse.find? p) := by
  rw [List.reverse_append, List.reverse_singleton, List.singleton_append, List.find?_cons,
    Option.filter_some]
  cases p a <;> rfl

/-- The identity of a skill is looked at first, and nothing else in its first two lines. -/
theorem findSome?_take_entryLines (h : Accepted catalog) (hskill : skill ∈ catalog.skills) :
    ((entryLines skill).take 2).reverse.findSome? identityLine
      = (some skill.stableId).filter validIdentity := by
  have hdash : identityLine ("- " ++ skill.name ++ ": " ++ catalogueDescription skill.description)
      = none := by
    rw [String.append_assoc, String.append_assoc]
    exact identityLine_dash _
  show ["  Identity: " ++ skill.stableId,
    "- " ++ skill.name ++ ": " ++ catalogueDescription skill.description].findSome? identityLine = _
  rw [List.findSome?_cons, List.findSome?_cons, hdash, identityLine_stableId h hskill]
  cases (some skill.stableId).filter validIdentity <;> rfl

/-- The induction is from the last skill. -/
theorem findSome?_entries (h : Accepted catalog) {front : List Skill}
    (hfront : ∀ other ∈ front, other ∈ catalog.skills) :
    (front.flatMap entryLines).reverse.findSome? identityLine
      = (front.map Skill.stableId).reverse.find? validIdentity := by
  induction front using List.reverseRecOn with
  | nil => rfl
  | append_singleton front last ih =>
    have hlast := hfront last (List.mem_append_right _ List.mem_cons_self)
    have hrest := ih fun other hother => hfront other (List.mem_append_left _ hother)
    have hentry : (entryLines last).reverse.findSome? identityLine
        = (some last.stableId).filter validIdentity := by
      rw [← findSome?_take_entryLines h hlast]
      show (("  " ++ loadLine last.name) :: _).findSome? identityLine = _
      rw [List.findSome?_cons, identityLine_loadLine]
      rfl
    rw [List.flatMap_append, List.flatMap_singleton, List.reverse_append, List.findSome?_append,
      hentry, hrest, List.map_append, List.map_singleton, find?_reverse_concat]

theorem findSome?_linesBefore (h : Accepted catalog) {front : List Skill}
    (hfront : ∀ other ∈ front, other ∈ catalog.skills) (hskill : skill ∈ catalog.skills) :
    (linesBefore front skill).reverse.findSome? identityLine
      = ((front ++ [skill]).map Skill.stableId).reverse.find? validIdentity := by
  rw [linesBefore, List.reverse_append, List.reverse_cons, List.findSome?_append,
    findSome?_take_entryLines h hskill, List.findSome?_append, findSome?_entries h hfront,
    List.map_append, List.map_singleton, find?_reverse_concat]
  have hempty : [""].findSome? identityLine = none := by
    rw [List.findSome?_cons, identityLine_empty]
    rfl
  rw [hempty, Option.or_none]

/-- The load line of a skill is the only line that loads it. -/
theorem isLoad_linesBefore (h : Accepted catalog) {front : List Skill}
    (hfront : ∀ other ∈ front, other ∈ catalog.skills ∧ other.name ≠ name)
    (hskill : skill ∈ catalog.skills) :
    ∀ line ∈ linesBefore front skill, isLoad name line = false := by
  have hdash : ∀ other : Skill, isLoad name
      ("- " ++ other.name ++ ": " ++ catalogueDescription other.description) = false := by
    intro other
    rw [String.append_assoc, String.append_assoc]
    exact isLoad_dash _
  intro line hline
  obtain hline | hline := List.mem_append.1 hline
  · obtain rfl | hline := List.mem_cons.1 hline
    · exact isLoad_empty
    · obtain ⟨other, hother, hline⟩ := List.mem_flatMap.1 hline
      obtain ⟨hmem, hne⟩ := hfront other hother
      rw [entryLines, List.mem_cons, List.mem_cons, List.mem_singleton] at hline
      obtain rfl | rfl | rfl := hline
      · exact hdash other
      · exact isLoad_stableId h hmem
      · exact Bool.eq_false_iff.2 fun hload => hne (isLoad_loadLine.1 hload)
  · have htwo : line ∈ ["- " ++ skill.name ++ ": " ++ catalogueDescription skill.description,
        "  Identity: " ++ skill.stableId] := hline
    rw [List.mem_cons, List.mem_singleton] at htwo
    obtain rfl | rfl := htwo
    · exact hdash skill
    · exact isLoad_stableId h hskill

theorem isLoad_bodyLines (h : Accepted catalog) :
    (∃ line ∈ catalog.bodyLines, isLoad name line = true) ↔
      ∃ skill ∈ catalog.skills, skill.name = name := by
  constructor
  · rintro ⟨line, hline, hload⟩
    by_contra hnone
    have hnames : ∀ skill ∈ catalog.skills, skill.name ≠ name := fun skill hskill hname =>
      hnone ⟨skill, hskill, hname⟩
    obtain rfl | hline := List.mem_cons.1 hline
    · rw [isLoad_empty] at hload
      cases hload
    split at hline
    · have hdash : isLoad name "- none" = false := isLoad_dash "none"
      rw [List.mem_singleton.1 hline, hdash] at hload
      cases hload
    · obtain ⟨skill, hskill, hline⟩ := List.mem_flatMap.1 hline
      rw [entryLines, List.mem_cons, List.mem_cons, List.mem_singleton] at hline
      obtain rfl | rfl | rfl := hline
      · rw [String.append_assoc, String.append_assoc, isLoad_dash] at hload
        cases hload
      · rw [isLoad_stableId h hskill] at hload
        cases hload
      · exact hnames skill hskill (isLoad_loadLine.1 hload)
  · rintro ⟨skill, hskill, rfl⟩
    obtain ⟨front, back, hskills⟩ := List.append_of_mem hskill
    refine ⟨"  " ++ loadLine skill.name, ?_, isLoad_loadLine.2 rfl⟩
    rw [bodyLines_append hskills]
    exact List.mem_append_right _ List.mem_cons_self

theorem skillIsAdvertised_surrounded (h : Accepted catalog)
    (hafter : ¬startMark.toList <:+: after.toList) :
    skillIsAdvertised (surrounded before catalog after) name = true ↔
      ∃ skill ∈ catalog.skills, skill.name = name := by
  rw [skillIsAdvertised, advertisedSkillCatalogue_surrounded h hafter]
  show (lines _).any (isLoad name) = true ↔ _
  rw [lines_body h, List.any_eq_true, isLoad_bodyLines h]

theorem advertisedSkillIdentity_surrounded (h : Accepted catalog)
    (hafter : ¬startMark.toList <:+: after.toList) :
    advertisedSkillIdentity (surrounded before catalog after) name
      = identityFrom catalog.listed name := by
  have hbody : advertisedSkillIdentity (surrounded before catalog after) name
      = (catalog.bodyLines.findIdx? (isLoad name)).bind fun loadIndex =>
        (catalog.bodyLines.take loadIndex).reverse.findSome? identityLine := by
    rw [advertisedSkillIdentity, advertisedSkillCatalogue_surrounded h hafter, Option.bind_some,
      lines_body h]
    rfl
  rw [hbody]
  cases hfind : catalog.skills.find? (·.name == name) with
  | none =>
    have hnames : ∀ skill ∈ catalog.skills, skill.name ≠ name := by
      simpa using List.find?_eq_none.1 hfind
    have hlines : catalog.bodyLines.findIdx? (isLoad name) = none := by
      rw [List.findIdx?_eq_none_iff]
      intro line hline
      rw [Bool.eq_false_iff]
      intro hload
      obtain ⟨skill, hskill, hname⟩ := (isLoad_bodyLines h).1 ⟨line, hline, hload⟩
      exact hnames skill hskill hname
    have hlisted : catalog.listed.findIdx? (·.1 == name) = none := by
      rw [List.findIdx?_eq_none_iff]
      intro pair hpair
      obtain ⟨skill, hskill, rfl⟩ := List.mem_map.1 hpair
      exact beq_eq_false_iff_ne.2 (hnames skill hskill)
    rw [hlines, identityFrom, hlisted]
    rfl
  | some skill =>
    obtain ⟨hname, front, back, hskills, hfront⟩ := List.find?_eq_some_iff_append.1 hfind
    obtain rfl := beq_iff_eq.1 hname
    have hmem : ∀ other ∈ front ++ [skill], other ∈ catalog.skills := by
      intro other hother
      rw [hskills, ← List.singleton_append, ← List.append_assoc]
      exact List.mem_append_left _ hother
    have hskill : skill ∈ catalog.skills := hmem skill (List.mem_append_right _ List.mem_cons_self)
    have hothers : ∀ other ∈ front, other ∈ catalog.skills ∧ other.name ≠ skill.name := by
      intro other hother
      refine ⟨hmem other (List.mem_append_left _ hother), ?_⟩
      simpa using hfront other hother
    have hload : isLoad skill.name ("  " ++ loadLine skill.name) = true := isLoad_loadLine.2 rfl
    have hlines : (linesBefore front skill ++ ("  " ++ loadLine skill.name)
        :: back.flatMap entryLines).findIdx? (isLoad skill.name)
        = some (linesBefore front skill).length :=
      findIdx?_append_cons (isLoad_linesBefore h hothers hskill) hload
    rw [bodyLines_append hskills, hlines, Option.bind_some, List.take_left,
      findSome?_linesBefore h (fun other hother => (hothers other hother).1) hskill,
      identityFrom_append hskills fun other hother => (hothers other hother).2]

/-! ## The round trip -/

theorem Accepted.of_listed {other : SkillCatalog} (h : Accepted catalog)
    (hlisted : other.listed = catalog.listed) : Accepted other := by
  have hpair : ∀ skill ∈ other.skills, ∃ skill' ∈ catalog.skills,
      skill'.name = skill.name ∧ skill'.stableId = skill.stableId := by
    intro skill hskill
    have hmem : (skill.name, skill.id) ∈ catalog.listed := hlisted ▸ List.mem_map_of_mem hskill
    obtain ⟨skill', hskill', heq⟩ := List.mem_map.1 hmem
    obtain ⟨hname, hid⟩ := Prod.mk.inj heq
    exact ⟨skill', hskill', hname, by rw [Skill.stableId, Skill.stableId, hname, hid]⟩
  refine ⟨?_, ?_, ?_⟩
  · intro skill hskill
    obtain ⟨skill', hskill', hname, -⟩ := hpair skill hskill
    exact hname ▸ h.names skill' hskill'
  · have hnames : other.skills.map (·.name) = catalog.skills.map (·.name) := by
      have hfst := congrArg (List.map Prod.fst) hlisted
      rwa [SkillCatalog.listed, SkillCatalog.listed, List.map_map, List.map_map] at hfst
    exact hnames ▸ h.distinct
  · intro skill hskill
    obtain ⟨skill', hskill', hname, hid⟩ := hpair skill hskill
    exact hname ▸ hid ▸ h.ids skill' hskill'

/-- An identity that is found is valid. -/
theorem validIdentity_of_identityFrom {listed : List (String × String)} {identity : String}
    (h : identityFrom listed name = some identity) : validIdentity identity = true := by
  obtain ⟨index, -, hfound⟩ := Option.bind_eq_some_iff.1 h
  exact List.find?_some hfound

/-- A name that stands for an identity is valid as one if it is not too long. -/
theorem validIdentity_stableId (h : Accepted catalog) (hskill : skill ∈ catalog.skills)
    (hlen : len skill.stableId ≤ 128) : validIdentity skill.stableId = true := by
  obtain hvalid | hid := h.ids skill hskill
  · exact hvalid
  · have hname := h.names skill hskill
    rw [validName, Bool.and_eq_true, List.all_eq_true] at hname
    rw [hid] at hlen ⊢
    rw [validIdentity, Bool.and_eq_true, Bool.and_eq_true, List.all_eq_true]
    exact ⟨⟨hname.1, decide_eq_true hlen⟩, fun c hc => valid_of_isNameChar (hname.2 c hc)⟩

theorem len_le_of_validIdentity {identity : String} (h : validIdentity identity = true) :
    len identity ≤ 128 := by
  rw [validIdentity, Bool.and_eq_true, Bool.and_eq_true] at h
  exact of_decide_eq_true h.1.2

/-- The identity of a skill is found at once if it is valid. -/
theorem identityFrom_listed (h : Accepted catalog) (hskill : skill ∈ catalog.skills)
    (hvalid : validIdentity skill.stableId = true) :
    identityFrom catalog.listed skill.name = some skill.stableId := by
  obtain ⟨front, back, hskills⟩ := List.append_of_mem hskill
  have hdistinct := h.distinct
  rw [hskills, List.map_append, List.map_cons, List.nodup_append] at hdistinct
  rw [identityFrom_append hskills fun other hother =>
      hdistinct.2.2 _ (List.mem_map_of_mem hother) _ List.mem_cons_self,
    List.map_append, List.map_singleton, find?_reverse_concat, Option.filter_some, if_pos hvalid]
  rfl

/-- Every skill is read back with its identity exactly if no name that stands for one is too long. -/
theorem round_trip_iff (before : String) (h : Accepted catalog)
    (hafter : ¬startMark.toList <:+: after.toList) :
    RoundTrip before catalog after ↔ ∀ skill ∈ catalog.skills, len skill.stableId ≤ 128 := by
  constructor
  · intro hround skill hskill
    have hidentity := hround.identity skill hskill
    rw [advertisedSkillIdentity_surrounded h hafter] at hidentity
    exact len_le_of_validIdentity (validIdentity_of_identityFrom hidentity)
  · intro hlen
    refine ⟨fun name => skillIsAdvertised_surrounded h hafter, ?_, ?_⟩
    · intro skill hskill
      rw [advertisedSkillIdentity_surrounded h hafter]
      exact identityFrom_listed h hskill (validIdentity_stableId h hskill (hlen skill hskill))
    · intro other hlisted name
      have hother := h.of_listed hlisted
      refine ⟨?_, ?_⟩
      · have hnames : other.skills.map (·.name) = catalog.skills.map (·.name) := by
          have hfst := congrArg (List.map Prod.fst) hlisted
          rwa [SkillCatalog.listed, SkillCatalog.listed, List.map_map, List.map_map] at hfst
        have hmem : (∃ skill ∈ other.skills, skill.name = name) ↔
            ∃ skill ∈ catalog.skills, skill.name = name := by
          rw [← List.mem_map, ← List.mem_map, hnames]
        rw [Bool.eq_iff_iff, skillIsAdvertised_surrounded hother hafter,
          skillIsAdvertised_surrounded h hafter, hmem]
      · rw [advertisedSkillIdentity_surrounded hother hafter,
          advertisedSkillIdentity_surrounded h hafter, hlisted]

/-- A skill with an identity of its own, and one with a name for it. -/
theorem round_trip_review :
    RoundTrip "Be brief.\n" ⟨[⟨⟨"review", ""⟩, "fragile.review.v1", "Load: [x]"⟩,
      ⟨⟨"testing", ""⟩, "testing", "Run\ntests"⟩]⟩ "\nDone." :=
  (round_trip_iff "Be brief.\n" ⟨by decide, by decide, by decide⟩ (by decide)).2 (by decide)

/-- A package whose definition declares nothing. -/
def plainPackage (directory : String) : Package where
  path := ".agents/skills/" ++ directory ++ "/SKILL.md"
  directory
  entrypoint := .ok "Body."
  payload := fun _ => .ok "Body."

def longName : String := String.ofList (List.replicate 129 'b')

def plainSkill (name : String) : Skill :=
  ⟨⟨name, "Body."⟩, name, "use the " ++ name ++ " skill"⟩

theorem readSkill_plainPackage {directory : String} (h : validName directory = true) :
    readSkill (plainPackage directory) = .ok (plainSkill directory) := by
  have hdefault : frontmatter "Body." = Frontmatter.default := by decide
  simp only [readSkill, Outcome.bind_eq_ok, Outcome.ensure_eq_ok, Outcome.pure_eq_ok,
    exists_and_left, exists_const]
  refine ⟨h, "Body.", rfl, by decide, ?_, ?_, "Body.", rfl, ?_⟩
  · rw [hdefault]
    exact decide_eq_true rfl
  · rw [hdefault]
    rfl
  · rw [hdefault]
    rfl

theorem loadFromRoots_longName :
    loadFromRoots [] [plainPackage "a", plainPackage longName]
      = .ok ⟨[plainSkill "a", plainSkill longName]⟩ := by
  have hshort : readSkill (plainPackage "a") = .ok (plainSkill "a") :=
    readSkill_plainPackage (by decide)
  have hlong : readSkill (plainPackage longName) = .ok (plainSkill longName) :=
    readSkill_plainPackage (by decide +kernel)
  have hdiscover : discoverRoot [plainPackage "a", plainPackage longName] []
      = .ok [plainSkill "a", plainSkill longName] := by
    have hinsert : insertSkill (insertSkill [] (plainSkill "a")) (plainSkill longName)
        = [plainSkill "a", plainSkill longName] := by decide +kernel
    rw [discoverRoot, hshort, Outcome.ok_bind, discoverRoot, hlong, Outcome.ok_bind, discoverRoot,
      hinsert]
  have hcheck : checkIdentities [] [plainSkill "a", plainSkill longName] = .ok () := by
    have hlookup : [((plainSkill "a").stableId, (plainSkill "a").name)].lookup
        (plainSkill longName).stableId = none := by decide +kernel
    rw [checkIdentities, List.lookup_nil]
    show checkIdentities [_] _ = _
    rw [checkIdentities, hlookup]
    rfl
  have hsort : [plainSkill "a", plainSkill longName].Pairwise
      fun left right => decide (left.name ≤ right.name) = true := by decide +kernel
  rw [loadFromRoots, discoverRoot, Outcome.ok_bind, hdiscover, Outcome.ok_bind, hcheck,
    Outcome.ok_bind, List.mergeSort_of_pairwise hsort]
  rfl

theorem long_name_has_other_identity :
    ¬∀ (user workspace : List Package) (catalog : SkillCatalog) (before after : String),
      loadFromRoots user workspace = .ok catalog → ¬startMark.toList <:+: after.toList →
        RoundTrip before catalog after := by
  intro h
  have hround := h [] _ _ "" "" loadFromRoots_longName (by decide)
  have haccepted := accepted_of_loadFromRoots loadFromRoots_longName
  have hidentity := hround.identity (plainSkill longName)
    (List.mem_cons_of_mem _ List.mem_cons_self)
  rw [advertisedSkillIdentity_surrounded haccepted (by decide)] at hidentity
  have hother : identityFrom (SkillCatalog.listed ⟨[plainSkill "a", plainSkill longName]⟩) longName
      = some "a" := by decide +kernel
  have hsame := hother.symm.trans hidentity
  exact absurd hsame (by decide +kernel)

end Nakode.Skills.Catalogue

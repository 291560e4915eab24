import Nakode.Lib.Text

/-!
# Words and white space

`str::trim` keeps a text between characters that are no white space (`trim_append`) and never changes
how a text begins that does not begin with white space (`head?_trim`). The words of a text
(`splitWhitespace`) have no white space in them.
-/

namespace Text

/-- `str::split_whitespace`. -/
def splitWhitespace (s : String) : List String :=
  ((s.toList.splitOnP isWhitespace).filter (· ≠ [])).map String.ofList

/-- `str::strip_prefix`. -/
def stripPrefix (s pre : String) : Option String :=
  if startsWith s pre then some (String.ofList (s.toList.drop pre.toList.length)) else none

/-- `str::trim_matches`. -/
def trimMatches (p : Char → Bool) (s : String) : String :=
  String.ofList (((s.toList.dropWhile p).reverse.dropWhile p).reverse)

/-- `str::split_once` at a character. -/
def splitOnce (c : Char) (s : String) : Option (String × String) :=
  if c ∈ s.toList then
    some (String.ofList (s.toList.takeWhile (· ≠ c)),
      String.ofList ((s.toList.dropWhile (· ≠ c)).drop 1))
  else none

theorem dropWhile_append {α : Type} {p : α → Bool} {pad core : List α} (hpad : ∀ a ∈ pad, p a = true)
    (hcore : ∀ a ∈ core.head?, p a = false) : (pad ++ core).dropWhile p = core := by
  induction pad with
  | nil =>
    cases core with
    | nil => rfl
    | cons a core =>
      refine List.dropWhile_cons_of_neg ?_
      rw [hcore a rfl]
      exact Bool.false_ne_true
  | cons a pad ih =>
    obtain ⟨ha, hpad⟩ := List.forall_mem_cons.1 hpad
    rw [List.cons_append, List.dropWhile_cons_of_pos ha, ih hpad]

/-- White space before a text that neither begins nor ends with it. -/
theorem trim_append {pad core : List Char} (hpad : ∀ c ∈ pad, isWhitespace c = true)
    (hhead : ∀ c ∈ core.head?, isWhitespace c = false)
    (hlast : ∀ c ∈ core.getLast?, isWhitespace c = false) :
    trim (String.ofList (pad ++ core)) = String.ofList core := by
  have hrev : ∀ c ∈ core.reverse.head?, isWhitespace c = false := by rwa [List.head?_reverse]
  have hback : core.reverse.dropWhile isWhitespace = core.reverse :=
    dropWhile_append (List.forall_mem_nil _) hrev
  rw [trim, String.toList_ofList, dropWhile_append hpad hhead, hback, List.reverse_reverse]

/-- What a text begins with is kept if it is no white space. -/
theorem head?_trim {c : Char} {cs : List Char} (hc : isWhitespace c = false) :
    (trim (String.ofList (c :: cs))).toList.head? = some c := by
  have hfront : (c :: cs).dropWhile isWhitespace = c :: cs :=
    List.dropWhile_cons_of_neg (by rw [hc]; exact Bool.false_ne_true)
  rw [trim, String.toList_ofList, String.toList_ofList, hfront, List.head?_reverse,
    List.reverse_cons]
  have hkeep : ∀ l : List Char, ((l ++ [c]).dropWhile isWhitespace).getLast? = some c := by
    intro l
    induction l with
    | nil =>
      rw [List.nil_append, List.dropWhile_cons_of_neg (by rw [hc]; exact Bool.false_ne_true)]
      rfl
    | cons d l ih =>
      rw [List.cons_append, List.dropWhile_cons]
      split
      · exact ih
      · rw [← List.cons_append, List.getLast?_concat]
  exact hkeep cs.reverse

theorem isWhitespace_of_mem_splitWhitespace {s word : String} {c : Char}
    (hword : word ∈ splitWhitespace s) (hc : c ∈ word.toList) : isWhitespace c = false := by
  obtain ⟨cs, hcs, rfl⟩ := List.mem_map.1 hword
  rw [String.toList_ofList] at hc
  replace hcs := (List.mem_filter.1 hcs).1
  clear hword
  generalize s.toList = l at hcs
  induction l generalizing cs with
  | nil =>
    rw [List.splitOnP_nil, List.mem_singleton] at hcs
    rw [hcs] at hc
    cases hc
  | cons a l ih =>
    rw [List.splitOnP_cons_eq_if_modifyHead] at hcs
    split at hcs
    · obtain rfl | hcs := List.mem_cons.1 hcs
      · cases hc
      · exact ih cs hc hcs
    · next ha =>
      obtain ⟨first, rest, hsplit⟩ := List.exists_cons_of_ne_nil (List.splitOnP_ne_nil isWhitespace l)
      rw [hsplit] at hcs ih
      obtain rfl | hcs := List.mem_cons.1 hcs
      · obtain rfl | hc := List.mem_cons.1 hc
        · exact Bool.eq_false_iff.2 ha
        · exact ih first hc List.mem_cons_self
      · exact ih cs hc (List.mem_cons_of_mem _ hcs)

end Text

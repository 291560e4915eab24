import Nakode.Lib.Text

/-!
# Printed JSON is read in one way

No text is the print of two values, even with more text behind it (`render_append_inj`), as long as
no digit follows a number. The characters of strings are read back by `unescape`; a value is told
from others by its first character (`leadTag`).
-/

namespace Text

/-! ## Characters and strings -/

/-- The number of a hexadecimal digit in lower case. -/
def hexValue (c : Char) : Nat := if c.toNat < 97 then c.toNat - 48 else c.toNat - 87

theorem hexValue_hexDigit : ∀ n < 16, hexValue (hexDigit n) = n := by decide

/-- The character that an escape stands for, after its backslash. -/
def unescapeTail : List Char → Option (Char × List Char)
  | [] => none
  | 'u' :: _ :: _ :: a :: b :: rest => some (Char.ofNat (16 * hexValue a + hexValue b), rest)
  | 'b' :: rest => some (Char.ofNat 0x08, rest)
  | 'f' :: rest => some (Char.ofNat 0x0C, rest)
  | 'n' :: rest => some ('\n', rest)
  | 'r' :: rest => some ('\r', rest)
  | 't' :: rest => some ('\t', rest)
  | c :: rest => some (c, rest)

/-- The next character of a printed string. -/
def unescape : List Char → Option (Char × List Char)
  | [] => none
  | c :: rest => if c = '\\' then unescapeTail rest else some (c, rest)

theorem unescape_escapeChar (c : Char) (rest : List Char) :
    unescape (escapeChar c ++ rest) = some (c, rest) := by
  have hback : Char.ofNat c.toNat = c := Char.ofNat_toNat c
  unfold escapeChar
  split
  · rfl
  · rfl
  · rfl
  · rfl
  · rfl
  · next hslash _ _ _ =>
    dsimp only
    split
    · next h8 => exact congrArg (fun c => some (c, rest)) (by rw [← hback, h8])
    · split
      · next hc => exact congrArg (fun c => some (c, rest)) (by rw [← hback, hc])
      · split
        · next hlow =>
          have hcode : 16 * hexValue (hexDigit (c.toNat / 16)) + hexValue (hexDigit (c.toNat % 16))
              = c.toNat := by
            rw [hexValue_hexDigit _ (by omega), hexValue_hexDigit _ (by omega)]
            omega
          exact congrArg (fun c => some (c, rest)) ((congrArg Char.ofNat hcode).trans hback)
        · exact if_neg hslash

theorem escapeChar_append_inj {c c' : Char} {rest rest' : List Char}
    (h : escapeChar c ++ rest = escapeChar c' ++ rest') : c = c' ∧ rest = rest' := by
  have hread := unescape_escapeChar c rest
  rw [h, unescape_escapeChar] at hread
  obtain ⟨rfl, rfl⟩ := Prod.mk.inj (Option.some.inj hread)
  exact ⟨rfl, rfl⟩

/-- No printed character begins with a quote. -/
theorem escapeChar_append_ne_quote (c : Char) (rest rest' : List Char) :
    escapeChar c ++ rest ≠ '"' :: rest' := by
  unfold escapeChar
  split
  · exact fun h => by cases h
  · exact fun h => by cases h
  · exact fun h => by cases h
  · exact fun h => by cases h
  · exact fun h => by cases h
  · next hquote _ _ _ _ =>
    dsimp only
    split
    · exact fun h => by cases h
    · split
      · exact fun h => by cases h
      · split
        · exact fun h => by cases h
        · exact fun h => hquote (List.cons.inj h).1

theorem chars_append_inj {cs cs' rest rest' : List Char}
    (h : cs.flatMap escapeChar ++ '"' :: rest = cs'.flatMap escapeChar ++ '"' :: rest') :
    cs = cs' ∧ rest = rest' := by
  induction cs generalizing cs' with
  | nil =>
    cases cs' with
    | nil => exact ⟨rfl, (List.cons.inj h).2⟩
    | cons c' cs' =>
      rw [List.flatMap_cons, List.append_assoc] at h
      exact absurd h.symm (escapeChar_append_ne_quote _ _ _)
  | cons c cs ih =>
    rw [List.flatMap_cons, List.append_assoc] at h
    cases cs' with
    | nil => exact absurd h (escapeChar_append_ne_quote _ _ _)
    | cons c' cs' =>
      rw [List.flatMap_cons, List.append_assoc] at h
      obtain ⟨rfl, htail⟩ := escapeChar_append_inj h
      obtain ⟨rfl, rfl⟩ := ih htail
      exact ⟨rfl, rfl⟩

theorem toList_quote (s : String) : (quote s).toList = '"' :: (s.toList.flatMap escapeChar ++ ['"']) := by
  rw [quote, String.toList_ofList, List.cons_append]

theorem quote_append_inj {s s' : String} {rest rest' : List Char}
    (h : (quote s).toList ++ rest = (quote s').toList ++ rest') : s = s' ∧ rest = rest' := by
  rw [toList_quote, toList_quote, List.cons_append, List.cons_append, List.append_assoc,
    List.append_assoc] at h
  obtain ⟨hs, hrest⟩ := chars_append_inj (List.cons.inj h).2
  exact ⟨String.toList_inj.1 hs, hrest⟩

/-! ## Numbers -/

/-- What may follow a number. -/
def NoDigit (rest : List Char) : Prop := ∀ c, rest.head? = some c → c.isDigit = false

theorem noDigit_nil : NoDigit [] := nofun

theorem noDigit_cons {c : Char} {rest : List Char} (h : c.isDigit = false) : NoDigit (c :: rest) := by
  intro c' hc'
  obtain rfl := Option.some.inj hc'
  exact h

theorem digits_append_inj {ds ds' rest rest' : List Char} (hds : ∀ c ∈ ds, c.isDigit = true)
    (hds' : ∀ c ∈ ds', c.isDigit = true) (hrest : NoDigit rest) (hrest' : NoDigit rest')
    (h : ds ++ rest = ds' ++ rest') : ds = ds' ∧ rest = rest' := by
  induction ds generalizing ds' with
  | nil =>
    cases ds' with
    | nil => exact ⟨rfl, h⟩
    | cons d' ds' =>
      have hno := hrest d' (by rw [show rest = d' :: (ds' ++ rest') from h]; rfl)
      rw [hds' d' List.mem_cons_self] at hno
      cases hno
  | cons d ds ih =>
    cases ds' with
    | nil =>
      have hno := hrest' d (by rw [show rest' = d :: (ds ++ rest) from h.symm]; rfl)
      rw [hds d List.mem_cons_self] at hno
      cases hno
    | cons d' ds' =>
      obtain ⟨rfl, htail⟩ := List.cons.inj h
      obtain ⟨rfl, rfl⟩ := ih (fun c hc => hds c (List.mem_cons_of_mem _ hc))
        (fun c hc => hds' c (List.mem_cons_of_mem _ hc)) htail
      exact ⟨rfl, rfl⟩

theorem isDigit_repr (n : Nat) : ∀ c ∈ n.repr.toList, c.isDigit = true := by
  rw [Nat.toList_repr]
  intro c hc
  exact Nat.isDigit_of_mem_toDigits (by decide) (by decide) hc

theorem repr_append_inj {n n' : Nat} {rest rest' : List Char} (hrest : NoDigit rest)
    (hrest' : NoDigit rest') (h : n.repr.toList ++ rest = n'.repr.toList ++ rest') :
    n = n' ∧ rest = rest' := by
  obtain ⟨hds, hrest⟩ := digits_append_inj (isDigit_repr n) (isDigit_repr n') hrest hrest' h
  exact ⟨Nat.repr_injective (String.toList_inj.1 hds), hrest⟩

/-- A number is printed with a digit first. -/
theorem repr_cons (n : Nat) : ∃ c cs, n.repr.toList = c :: cs ∧ c.isDigit = true := by
  cases hcs : n.repr.toList with
  | nil => exact absurd (String.toList_eq_nil_iff.1 hcs) Nat.repr_ne_empty
  | cons c cs => exact ⟨c, cs, rfl, isDigit_repr n c (by rw [hcs]; exact List.mem_cons_self)⟩

theorem toList_toString_negSucc (n : Nat) :
    (toString (Int.negSucc n)).toList = '-' :: n.succ.repr.toList :=
  String.toList_append ..

theorem repr_append_ne_minus (n : Nat) (rest rest' : List Char) :
    n.repr.toList ++ rest ≠ '-' :: rest' := by
  intro h
  obtain ⟨c, cs, hcs, hdigit⟩ := repr_cons n
  rw [hcs] at h
  rw [(List.cons.inj h).1] at hdigit
  exact absurd hdigit (by decide)

theorem toString_int_append_inj {n n' : Int} {rest rest' : List Char} (hrest : NoDigit rest)
    (hrest' : NoDigit rest') (h : (toString n).toList ++ rest = (toString n').toList ++ rest') :
    n = n' ∧ rest = rest' := by
  cases n with
  | ofNat m =>
    cases n' with
    | ofNat m' =>
      obtain ⟨rfl, rfl⟩ := repr_append_inj hrest hrest' h
      exact ⟨rfl, rfl⟩
    | negSucc m' =>
      rw [toList_toString_negSucc] at h
      exact absurd h (repr_append_ne_minus m rest _)
  | negSucc m =>
    rw [toList_toString_negSucc] at h
    cases n' with
    | ofNat m' => exact absurd h.symm (repr_append_ne_minus m' rest' _)
    | negSucc m' =>
      rw [toList_toString_negSucc] at h
      obtain ⟨hm, rfl⟩ := repr_append_inj hrest hrest' (List.cons.inj h).2
      obtain rfl := Nat.succ.inj hm
      exact ⟨rfl, rfl⟩

/-! ## Values -/

/-- What the first character of a value tells about it. -/
def leadTag (c : Char) : Nat :=
  if c = 'n' then 0
  else if c = 't' then 1
  else if c = 'f' then 2
  else if c = '"' then 4
  else if c = '[' then 5
  else if c = '\x7b' then 6
  else if c = '-' ∨ c.isDigit then 3
  else 7

def Json.tag : Json → Nat
  | .null => 0
  | .bool b => if b then 1 else 2
  | .int _ => 3
  | .str _ => 4
  | .arr _ => 5
  | .obj _ => 6

theorem leadTag_number {c : Char} (h : c = '-' ∨ c.isDigit = true) : leadTag c = 3 := by
  have hne : ∀ d : Char, d ≠ '-' → d.isDigit = false → c ≠ d := by
    rintro d hminus hdigit rfl
    obtain rfl | hd := h
    · exact hminus rfl
    · rw [hd] at hdigit
      cases hdigit
  rw [leadTag, if_neg (hne _ (by decide) (by decide)), if_neg (hne _ (by decide) (by decide)),
    if_neg (hne _ (by decide) (by decide)), if_neg (hne _ (by decide) (by decide)),
    if_neg (hne _ (by decide) (by decide)), if_neg (hne _ (by decide) (by decide)), if_pos h]

theorem render_cons (v : Json) : ∃ c cs, v.render.toList = c :: cs ∧ leadTag c = v.tag := by
  cases v with
  | null => exact ⟨'n', ['u', 'l', 'l'], rfl, rfl⟩
  | bool b =>
    cases b with
    | true => exact ⟨'t', ['r', 'u', 'e'], rfl, rfl⟩
    | false => exact ⟨'f', ['a', 'l', 's', 'e'], rfl, rfl⟩
  | int n =>
    cases n with
    | ofNat m =>
      obtain ⟨c, cs, hcs, hdigit⟩ := repr_cons m
      exact ⟨c, cs, hcs, leadTag_number (.inr hdigit)⟩
    | negSucc m => exact ⟨'-', _, toList_toString_negSucc m, rfl⟩
  | str s => exact ⟨'"', _, toList_quote s, rfl⟩
  | arr items =>
    refine ⟨'[', (Json.renderItems items).toList ++ [']'], ?_, rfl⟩
    simp [Json.render]
  | obj fields =>
    refine ⟨'\x7b', (Json.renderFields fields).toList ++ ['\x7d'], ?_, rfl⟩
    simp [Json.render]

theorem tag_eq_of_append {v v' : Json} {rest rest' : List Char}
    (h : v.render.toList ++ rest = v'.render.toList ++ rest') : v.tag = v'.tag := by
  obtain ⟨c, cs, hcs, htag⟩ := render_cons v
  obtain ⟨c', cs', hcs', htag'⟩ := render_cons v'
  rw [hcs, hcs'] at h
  rw [← htag, ← htag', (List.cons.inj h).1]

/-- What follows the first item of an array. -/
def itemsTail (rest : List Char) : List Json → List Char
  | [] => ']' :: rest
  | item :: more => ',' :: ((Json.renderItems (item :: more)).toList ++ ']' :: rest)

/-- What follows the first field of an object. -/
def fieldsTail (rest : List Char) : List (String × Json) → List Char
  | [] => '\x7d' :: rest
  | field :: more => ',' :: ((Json.renderFields (field :: more)).toList ++ '\x7d' :: rest)

theorem noDigit_itemsTail (rest : List Char) (more : List Json) : NoDigit (itemsTail rest more) := by
  cases more with
  | nil => exact noDigit_cons (by decide)
  | cons item more => exact noDigit_cons (by decide)

theorem noDigit_fieldsTail (rest : List Char) (more : List (String × Json)) :
    NoDigit (fieldsTail rest more) := by
  cases more with
  | nil => exact noDigit_cons (by decide)
  | cons field more => exact noDigit_cons (by decide)

theorem renderItems_cons_append (item : Json) (more : List Json) (rest : List Char) :
    (Json.renderItems (item :: more)).toList ++ ']' :: rest
      = item.render.toList ++ itemsTail rest more := by
  cases more with
  | nil => rfl
  | cons item' more => simp [Json.renderItems, itemsTail]

theorem renderFields_cons_append (key : String) (value : Json) (more : List (String × Json))
    (rest : List Char) :
    (Json.renderFields ((key, value) :: more)).toList ++ '\x7d' :: rest
      = (quote key).toList ++ ':' :: (value.render.toList ++ fieldsTail rest more) := by
  cases more with
  | nil => simp [Json.renderFields, fieldsTail]
  | cons field more =>
    obtain ⟨key', value'⟩ := field
    simp [Json.renderFields, fieldsTail]

theorem render_append_ne_bracket (v : Json) (rest rest' : List Char) :
    v.render.toList ++ rest ≠ ']' :: rest' := by
  intro h
  obtain ⟨c, cs, hcs, htag⟩ := render_cons v
  rw [hcs] at h
  rw [(List.cons.inj h).1] at htag
  have hother : leadTag ']' = 7 := rfl
  rw [hother] at htag
  cases v with
  | bool b => cases b <;> cases htag
  | _ => cases htag

mutual

theorem render_append_inj : ∀ (v v' : Json) {rest rest' : List Char}, NoDigit rest → NoDigit rest' →
    v.render.toList ++ rest = v'.render.toList ++ rest' → v = v' ∧ rest = rest'
  | .null, v', rest, rest', _, _, h => by
    have htag := tag_eq_of_append h
    cases v' with
    | null => exact ⟨rfl, List.append_cancel_left h⟩
    | bool b => cases b <;> cases htag
    | _ => cases htag
  | .bool b, v', rest, rest', _, _, h => by
    have htag := tag_eq_of_append h
    cases v' with
    | bool b' =>
      cases b <;> cases b' <;> first | exact ⟨rfl, List.append_cancel_left h⟩ | cases htag
    | _ => cases b <;> cases htag
  | .int n, v', rest, rest', hrest, hrest', h => by
    have htag := tag_eq_of_append h
    cases v' with
    | int n' =>
      obtain ⟨rfl, htail⟩ := toString_int_append_inj hrest hrest' h
      exact ⟨rfl, htail⟩
    | bool b => cases b <;> cases htag
    | _ => cases htag
  | .str s, v', rest, rest', _, _, h => by
    have htag := tag_eq_of_append h
    cases v' with
    | str s' =>
      obtain ⟨rfl, htail⟩ := quote_append_inj h
      exact ⟨rfl, htail⟩
    | bool b => cases b <;> cases htag
    | _ => cases htag
  | .arr items, v', rest, rest', _, _, h => by
    have htag := tag_eq_of_append h
    cases v' with
    | arr items' =>
      have hitems : (Json.renderItems items).toList ++ ']' :: rest
          = (Json.renderItems items').toList ++ ']' :: rest' := by
        simpa [Json.render] using h
      obtain ⟨rfl, htail⟩ := renderItems_append_inj items items' hitems
      exact ⟨rfl, htail⟩
    | bool b => cases b <;> cases htag
    | _ => cases htag
  | .obj fields, v', rest, rest', _, _, h => by
    have htag := tag_eq_of_append h
    cases v' with
    | obj fields' =>
      have hfields : (Json.renderFields fields).toList ++ '\x7d' :: rest
          = (Json.renderFields fields').toList ++ '\x7d' :: rest' := by
        simpa [Json.render] using h
      obtain ⟨rfl, htail⟩ := renderFields_append_inj fields fields' hfields
      exact ⟨rfl, htail⟩
    | bool b => cases b <;> cases htag
    | _ => cases htag

theorem renderItems_append_inj : ∀ (items items' : List Json) {rest rest' : List Char},
    (Json.renderItems items).toList ++ ']' :: rest
      = (Json.renderItems items').toList ++ ']' :: rest' → items = items' ∧ rest = rest'
  | [], [], rest, rest', h => ⟨rfl, (List.cons.inj h).2⟩
  | [], item' :: more', rest, rest', h => by
    rw [renderItems_cons_append] at h
    exact absurd h.symm (render_append_ne_bracket _ _ _)
  | item :: more, [], rest, rest', h => by
    rw [renderItems_cons_append] at h
    exact absurd h (render_append_ne_bracket _ _ _)
  | item :: more, item' :: more', rest, rest', h => by
    rw [renderItems_cons_append, renderItems_cons_append] at h
    obtain ⟨rfl, htail⟩ := render_append_inj item item' (noDigit_itemsTail rest more)
      (noDigit_itemsTail rest' more') h
    cases more with
    | nil =>
      cases more' with
      | nil => exact ⟨rfl, (List.cons.inj htail).2⟩
      | cons _ _ => cases (List.cons.inj htail).1
    | cons next more =>
      cases more' with
      | nil => cases (List.cons.inj htail).1
      | cons next' more' =>
        obtain ⟨hmore, hrest⟩ := renderItems_append_inj (next :: more) (next' :: more')
          (List.cons.inj htail).2
        exact ⟨congrArg _ hmore, hrest⟩

theorem renderFields_append_inj : ∀ (fields fields' : List (String × Json)) {rest rest' : List Char},
    (Json.renderFields fields).toList ++ '\x7d' :: rest
      = (Json.renderFields fields').toList ++ '\x7d' :: rest' → fields = fields' ∧ rest = rest'
  | [], [], rest, rest', h => ⟨rfl, (List.cons.inj h).2⟩
  | [], (key', value') :: more', rest, rest', h => by
    rw [renderFields_cons_append, toList_quote] at h
    cases (List.cons.inj h).1
  | (key, value) :: more, [], rest, rest', h => by
    rw [renderFields_cons_append, toList_quote] at h
    cases (List.cons.inj h).1
  | (key, value) :: more, (key', value') :: more', rest, rest', h => by
    rw [renderFields_cons_append, renderFields_cons_append] at h
    obtain ⟨rfl, hvalue⟩ := quote_append_inj h
    obtain ⟨rfl, htail⟩ := render_append_inj value value' (noDigit_fieldsTail rest more)
      (noDigit_fieldsTail rest' more') (List.cons.inj hvalue).2
    cases more with
    | nil =>
      cases more' with
      | nil => exact ⟨rfl, (List.cons.inj htail).2⟩
      | cons _ _ => cases (List.cons.inj htail).1
    | cons next more =>
      cases more' with
      | nil => cases (List.cons.inj htail).1
      | cons next' more' =>
        obtain ⟨hmore, hrest⟩ := renderFields_append_inj (next :: more) (next' :: more')
          (List.cons.inj htail).2
        exact ⟨congrArg _ hmore, hrest⟩

end

/-- No text is the print of two values. -/
theorem render_injective : Function.Injective Json.render := by
  intro v v' h
  exact (render_append_inj v v' noDigit_nil noDigit_nil (by rw [h])).1

end Text

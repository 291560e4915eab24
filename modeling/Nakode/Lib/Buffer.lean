import Mathlib

/-!
# Texts with a cursor

A text with one cursor in it is what stands before the cursor and what stands after it. The cursor
goes to a position (`goTo`), what stands between it and a position is erased (`eraseTo`), and a text
is inserted before it (`insert`).
-/

structure Buffer (α : Type) where
  before : List α
  after : List α

namespace Buffer

variable {α : Type} (b : Buffer α)

def text : List α := b.before ++ b.after

def cursor : Nat := b.before.length

def empty : Buffer α := ⟨[], []⟩

def insert (l : List α) : Buffer α := ⟨b.before ++ l, b.after⟩

def goTo (n : Nat) : Buffer α := ⟨b.text.take n, b.text.drop n⟩

/-- What stands between the cursor and a position is erased. -/
def eraseTo (n : Nat) : Buffer α :=
  if n ≤ b.cursor then ⟨b.before.take n, b.after⟩ else ⟨b.before, b.text.drop n⟩

theorem cursor_le : b.cursor ≤ b.text.length := by
  rw [cursor, text, List.length_append]
  exact Nat.le_add_right _ _

theorem cursor_goTo {n : Nat} (h : n ≤ b.text.length) : (b.goTo n).cursor = n :=
  List.length_take_of_le h

/-- Exactly what stands between the two positions is gone. -/
theorem text_eraseTo (n : Nat) :
    (b.eraseTo n).text = b.text.take (min b.cursor n) ++ b.text.drop (max b.cursor n) := by
  rw [eraseTo]
  split
  · next hle =>
    rw [Nat.min_eq_right hle, Nat.max_eq_left hle, text, text, List.take_append_of_le_length hle,
      cursor, List.drop_left]
  · next hlt =>
    have hle : b.cursor ≤ n := Nat.le_of_not_le hlt
    rw [Nat.min_eq_left hle, Nat.max_eq_right hle, text, text, cursor, List.take_left]

theorem cursor_eraseTo (n : Nat) : (b.eraseTo n).cursor = min b.cursor n := by
  rw [eraseTo]
  split
  · next hle => rw [cursor, List.length_take, Nat.min_comm, cursor]
  · next hlt => rw [Nat.min_eq_left (Nat.le_of_not_le hlt), cursor, cursor]

variable (before gone after : List α)

theorem eraseTo_back :
    (⟨before ++ gone, after⟩ : Buffer α).eraseTo before.length = ⟨before, after⟩ := by
  rw [eraseTo, cursor, if_pos (by simp), List.take_left]

theorem eraseTo_forward :
    (⟨before, gone ++ after⟩ : Buffer α).eraseTo (before.length + gone.length) = ⟨before, after⟩ := by
  rw [eraseTo, cursor]
  split
  · next hle =>
    replace hle : before.length + gone.length ≤ before.length := hle
    obtain rfl := List.eq_nil_of_length_eq_zero (by omega : gone.length = 0)
    simp
  · rw [text, ← List.append_assoc, ← List.length_append, List.drop_left]

end Buffer

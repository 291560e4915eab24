import Mathlib

/-!
# Resumed scans

`run` carries a state through a list and leaves a record for each element, from which the state
after it is read. The records of a first part of the list are those of a run over that part
(`take_run`), so a run can be resumed behind any records that are kept of it (`run_resume`).
-/

namespace Scan

variable {σ α β : Type} (step : σ → α → β) (out : β → σ)

def run : σ → List α → List β
  | _, [] => []
  | s, a :: l =>
    let b := step s a
    b :: run (out b) l

/-- The state after some records. -/
def last (s : σ) (bs : List β) : σ := bs.getLast?.elim s out

@[simp] theorem run_nil (s : σ) : run step out s [] = [] := rfl

@[simp] theorem run_cons (s : σ) (a : α) (l : List α) :
    run step out s (a :: l) = step s a :: run step out (out (step s a)) l := rfl

@[simp] theorem length_run (s : σ) (l : List α) : (run step out s l).length = l.length := by
  induction l generalizing s with
  | nil => rfl
  | cons a l ih => rw [run_cons, List.length_cons, List.length_cons, ih]

theorem take_run (s : σ) (l : List α) (n : Nat) :
    (run step out s l).take n = run step out s (l.take n) := by
  induction l generalizing s n with
  | nil => simp
  | cons a l ih =>
    cases n with
    | zero => simp
    | succ n => rw [run_cons, List.take_succ_cons, List.take_succ_cons, run_cons, ih]

theorem last_cons (s : σ) (b : β) (bs : List β) : last out s (b :: bs) = last out (out b) bs := by
  cases bs with
  | nil => rfl
  | cons c bs =>
    have hne : (c :: bs) ≠ [] := List.cons_ne_nil c bs
    rw [last, last, List.getLast?_cons, List.getLast?_eq_some_getLast hne]
    simp

theorem run_append (s : σ) (l l' : List α) :
    run step out s (l ++ l')
      = run step out s l ++ run step out (last out s (run step out s l)) l' := by
  induction l generalizing s with
  | nil => rfl
  | cons a l ih => rw [List.cons_append, run_cons, run_cons, ih, last_cons, List.cons_append]

/-- A run is resumed behind what is kept of its records. -/
theorem run_resume (s : σ) (l : List α) (n : Nat) :
    (run step out s l).take n
        ++ run step out (last out s ((run step out s l).take n)) (l.drop n)
      = run step out s l := by
  rw [take_run, ← run_append, List.take_append_drop]

variable {step}

theorem run_congr {step' : σ → α → β} {l : List α} (h : ∀ s, ∀ a ∈ l, step' s a = step s a) (s : σ) :
    run step' out s l = run step out s l := by
  induction l generalizing s with
  | nil => rfl
  | cons a l ih =>
    rw [run_cons, run_cons, h s a List.mem_cons_self,
      ih fun s b hb => h s b (List.mem_cons_of_mem a hb)]

end Scan

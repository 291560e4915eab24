import Nakode.Lib.Trace

/-!
# A queue of work

A worker takes the first piece of work off a queue, performs it, and puts at the end of the queue
what it finds to do there (`worker`). From a queue to an empty one it performs everything that was
pending first and in order (`Run.performs`), and nothing but that where no piece finds more to do
(`Run.performs_quiet`). So work that finds no more to do is not performed before the queue unless it
is in it (`Run.not_before`).
-/

namespace Worklist

open Transition

variable {σ ε ρ : Type}

/-- What a worker has: its state, the work that is pending, and the work it has performed. -/
structure Queue (σ ε : Type) where
  state : σ
  pending : List ε
  performed : List ε

/-- The worker that performs a piece of work with the environment's reply. -/
def worker (perform : σ → ε → ρ → σ × List ε) : System (Queue σ ε) ρ where
  next q reply q' := ∃ work rest, q.pending = work :: rest ∧
    q' = ⟨(perform q.state work reply).1, rest ++ (perform q.state work reply).2,
      q.performed ++ [work]⟩

variable {perform : σ → ε → ρ → σ × List ε} {q q' : Queue σ ε} {replies : List ρ}

namespace Run

/-- What is pending is performed first and in order. -/
theorem performs (h : (worker perform).Run q replies q') (hdone : q'.pending = []) :
    ∃ work, q'.performed = q.performed ++ work ∧ q.pending <+: work := by
  induction h with
  | nil q => exact ⟨[], by simp, by simp [hdone]⟩
  | cons hnext _ ih =>
    obtain ⟨first, rest, hpending, rfl⟩ := hnext
    obtain ⟨work, hwork, more, hmore⟩ := ih hdone
    refine ⟨first :: work, ?_, ?_⟩
    · rw [hwork, List.append_assoc, List.singleton_append]
    · rw [hpending, ← hmore, List.append_assoc, ← List.cons_append]
      exact List.prefix_append ..

/-- Where no piece of work finds more to do, what is pending is all that is performed. -/
theorem performs_quiet (h : (worker perform).Run q replies q') (hdone : q'.pending = [])
    (hquiet : ∀ work ∈ q.pending, ∀ s reply, (perform s work reply).2 = []) :
    q'.performed = q.performed ++ q.pending := by
  induction h with
  | nil q => rw [hdone, List.append_nil]
  | cons hnext _ ih =>
    obtain ⟨first, rest, hpending, rfl⟩ := hnext
    rw [hpending] at hquiet ⊢
    rw [hquiet first List.mem_cons_self, List.append_nil] at ih
    rw [ih hdone fun work hwork => hquiet work (List.mem_cons_of_mem _ hwork), List.append_assoc,
      List.singleton_append]

end Run

/-- A list that begins another one after some elements has no others. -/
theorem mem_of_isPrefix_append {α : Type} {xs ys : List α} (hne : xs ≠ []) (h : ys <+: xs ++ ys) :
    ∀ y ∈ ys, y ∈ xs := by
  have hpos : 0 < xs.length := List.length_pos_iff.2 hne
  -- The element at a position is in the first list, or as far back as that is long.
  have hat : ∀ i (hi : i < ys.length), ys[i] ∈ xs := by
    intro i
    induction i using Nat.strongRecOn with
    | ind i ih =>
      intro hi
      rw [h.getElem hi]
      by_cases hlt : i < xs.length
      · rw [List.getElem_append_left hlt]
        exact List.getElem_mem hlt
      · rw [List.getElem_append_right (Nat.le_of_not_lt hlt)]
        exact ih (i - xs.length) (by omega) _
  intro y hy
  obtain ⟨i, hi, rfl⟩ := List.getElem_of_mem hy
  exact hat i hi

/-- Work that finds no more to do is not performed before the queue when it is not in it. -/
theorem Run.not_before {first work : List ε} (h : (worker perform).Run q replies q')
    (hdone : q'.pending = []) (hne : first ≠ [])
    (hquiet : ∀ w ∈ first, ∀ s reply, (perform s w reply).2 = [])
    (hwork : q'.performed = q.performed ++ work) : ¬first ++ q.pending <+: work := by
  intro hbefore
  obtain ⟨work', hwork', hpending⟩ := Run.performs h hdone
  have heq : work' = work := List.append_cancel_left (hwork'.symm.trans hwork)
  subst heq
  have hpre : q.pending <+: first ++ q.pending :=
    List.prefix_of_prefix_length_le hpending hbefore (by simp)
  have hmem := mem_of_isPrefix_append hne hpre
  have hall := Run.performs_quiet h hdone fun w hw => hquiet w (hmem w hw)
  have heq : work' = q.pending := List.append_cancel_left (hwork'.symm.trans hall)
  subst heq
  have hlen := hbefore.length_le
  rw [List.length_append] at hlen
  exact hne (List.length_eq_zero_iff.1 (by omega))

end Worklist

import Nakode.Lib.Trace

/-!
# An outbox that sends one parcel at a time

A parcel for a target is sent in parts, in order, and the receiver answers each part with a
receipt. The outbox has a cursor, the target of the last parcel that was sent completely, and at
most one parcel under way. What was sent of that parcel may be lost at any time, and then is sent
again from the first part on (`restart`). In every run from an outbox with nothing under way, each
parcel continues at the cursor of its time (`Valid`), and a parcel is finished exactly when its
parts were sent, each once and in order, since it was prepared or last restarted (`finish_sent`).
-/

namespace Outbox

open Transition

/-- A parcel under way. -/
structure Parcel (π β μ : Type) where
  target : π
  previous : Option π
  body : β
  parts : Nat
  /-- The receipts of the parts that were sent, in order. -/
  sent : List μ

structure State (π β μ : Type) where
  cursor : Option π
  pending : Option (Parcel π β μ)

inductive Event (π β μ : Type) where
  | prepare (target : π) (body : β) (parts : Nat)
  | send (receipt : μ)
  | restart
  | finish (target : π)

variable {π β μ : Type} [DecidableEq π]

/-- What an event makes of an outbox, unless it cannot happen. -/
def step (s : State π β μ) : Event π β μ → Option (State π β μ)
  | .prepare target body parts =>
    if s.pending.isNone ∧ s.cursor ≠ some target then
      some { s with pending := some ⟨target, s.cursor, body, parts, []⟩ }
    else none
  | .send receipt =>
    s.pending.bind fun parcel =>
      if parcel.sent.length < parcel.parts then
        some { s with pending := some { parcel with sent := parcel.sent ++ [receipt] } }
      else none
  | .restart => some { s with pending := s.pending.map fun parcel => { parcel with sent := [] } }
  | .finish target =>
    s.pending.bind fun parcel =>
      if parcel.target = target ∧ parcel.sent.length = parcel.parts then
        some ⟨some target, none⟩
      else none

def system (π β μ : Type) [DecidableEq π] : System (State π β μ) (Event π β μ) :=
  System.ofStep step

section Step

variable {s s' : State π β μ} {target : π} {body : β} {parts : Nat} {receipt : μ}

theorem step_prepare_iff : step s (.prepare target body parts) = some s' ↔
    s.pending = none ∧ s.cursor ≠ some target ∧
      s' = { s with pending := some ⟨target, s.cursor, body, parts, []⟩ } := by
  simp only [step, Option.ite_none_right_eq_some, Option.some.injEq, Option.isNone_iff_eq_none,
    and_assoc, eq_comm (b := s')]

theorem step_send_iff : step s (.send receipt) = some s' ↔
    ∃ parcel, s.pending = some parcel ∧ parcel.sent.length < parcel.parts ∧
      s' = { s with pending := some { parcel with sent := parcel.sent ++ [receipt] } } := by
  simp only [step, Option.bind_eq_some_iff, Option.ite_none_right_eq_some, Option.some.injEq,
    eq_comm (b := s')]

theorem step_restart_iff : step s .restart = some s' ↔
    s' = { s with pending := s.pending.map fun parcel => { parcel with sent := [] } } := by
  simp only [step, Option.some.injEq, eq_comm (b := s')]

theorem step_finish_iff : step s (.finish target) = some s' ↔
    ∃ parcel, s.pending = some parcel ∧ parcel.target = target ∧
      parcel.sent.length = parcel.parts ∧ s' = ⟨some target, none⟩ := by
  simp only [step, Option.bind_eq_some_iff, Option.ite_none_right_eq_some, Option.some.injEq,
    and_assoc, eq_comm (b := s')]

end Step

/-- The parcel under way continues at the cursor, goes somewhere else, and no more of it was sent
than there is. -/
def Valid (s : State π β μ) : Prop :=
  ∀ parcel, s.pending = some parcel → parcel.previous = s.cursor ∧
    s.cursor ≠ some parcel.target ∧ parcel.sent.length ≤ parcel.parts

theorem valid_step {s s' : State π β μ} {e : Event π β μ} (h : step s e = some s')
    (hs : Valid s) : Valid s' := by
  intro parcel hparcel
  cases e with
  | prepare target body parts =>
    obtain ⟨-, hne, rfl⟩ := step_prepare_iff.1 h
    cases hparcel
    exact ⟨rfl, hne, Nat.zero_le _⟩
  | send receipt =>
    obtain ⟨old, hold, hlt, rfl⟩ := step_send_iff.1 h
    cases hparcel
    obtain ⟨hprevious, hne, -⟩ := hs old hold
    refine ⟨hprevious, hne, ?_⟩
    rw [List.length_append, List.length_singleton]
    exact hlt
  | restart =>
    obtain rfl := step_restart_iff.1 h
    obtain ⟨old, hold, rfl⟩ := Option.map_eq_some_iff.1 hparcel
    obtain ⟨hprevious, hne, -⟩ := hs old hold
    exact ⟨hprevious, hne, Nat.zero_le _⟩
  | finish target =>
    obtain ⟨old, -, -, -, rfl⟩ := step_finish_iff.1 h
    cases hparcel

/-- What has happened to a parcel under way: it was prepared or restarted, and since then its parts
were sent, with nothing in between. -/
def Recorded (s : State π β μ) (events : List (Event π β μ)) : Prop :=
  ∀ parcel, s.pending = some parcel → ∃ before mark,
    events = before ++ mark :: parcel.sent.map .send ∧
    (mark = .restart ∨ mark = .prepare parcel.target parcel.body parcel.parts)

theorem recorded_step {s s' : State π β μ} {e : Event π β μ} {events : List (Event π β μ)}
    (h : step s e = some s') (hs : Recorded s events) : Recorded s' (events ++ [e]) := by
  intro parcel hparcel
  cases e with
  | prepare target body parts =>
    obtain ⟨-, -, rfl⟩ := step_prepare_iff.1 h
    cases hparcel
    exact ⟨events, _, rfl, .inr rfl⟩
  | send receipt =>
    obtain ⟨old, hold, -, rfl⟩ := step_send_iff.1 h
    cases hparcel
    obtain ⟨before, mark, hevents, hmark⟩ := hs old hold
    refine ⟨before, mark, ?_, hmark⟩
    rw [hevents]
    simp
  | restart =>
    obtain rfl := step_restart_iff.1 h
    obtain ⟨old, -, rfl⟩ := Option.map_eq_some_iff.1 hparcel
    exact ⟨events, _, rfl, .inl rfl⟩
  | finish target =>
    obtain ⟨old, -, -, -, rfl⟩ := step_finish_iff.1 h
    cases hparcel

/-- A run is cut at any of its events. -/
theorem exists_of_run_append {σ ι : Type} {T : System σ ι} {s u : σ} {is js : List ι}
    (h : T.Run s (is ++ js) u) : ∃ t, T.Run s is t ∧ T.Run t js u := by
  induction is generalizing s with
  | nil => exact ⟨s, .nil s, h⟩
  | cons i is ih =>
    cases h with
    | cons hstep h =>
      obtain ⟨t, hrun, hrest⟩ := ih h
      exact ⟨t, .cons hstep hrun, hrest⟩

section Run

variable {s₀ s : State π β μ} {events : List (Event π β μ)}

theorem valid_run (h : (system π β μ).Run s₀ events s) (hs : Valid s₀) : Valid s :=
  h.invariant (fun hstep => valid_step hstep) hs

theorem recorded_run (h : (system π β μ).Run s₀ events s) {earlier : List (Event π β μ)}
    (hs : Recorded s₀ earlier) : Recorded s (earlier ++ events) := by
  induction h generalizing earlier with
  | nil => rwa [List.append_nil]
  | cons hstep _ ih =>
    have := ih (recorded_step hstep hs)
    rwa [List.append_assoc] at this

/-- Before a parcel is finished, each of its parts was sent once, in order, with nothing in
between: since it was prepared, or since it was last restarted. -/
theorem finish_sent {target : π} {later : List (Event π β μ)}
    (h : (system π β μ).Run s₀ (events ++ .finish target :: later) s) (hs : s₀.pending = none) :
    ∃ (parcel : Parcel π β μ) (before : List (Event π β μ)) (mark : Event π β μ),
      parcel.target = target ∧ parcel.sent.length = parcel.parts ∧
      events = before ++ mark :: parcel.sent.map .send ∧
      (mark = .restart ∨ mark = .prepare target parcel.body parcel.parts) := by
  obtain ⟨t, hrun, hrest⟩ := exists_of_run_append h
  cases hrest with
  | cons hfinish _ =>
  obtain ⟨parcel, hparcel, rfl, hlength, -⟩ := step_finish_iff.1 hfinish
  have hstart : Recorded s₀ ([] : List (Event π β μ)) := fun parcel hparcel => by
    rw [hs] at hparcel
    cases hparcel
  obtain ⟨before, mark, hevents, hmark⟩ := recorded_run hrun hstart parcel hparcel
  exact ⟨parcel, before, mark, rfl, hlength, hevents, hmark⟩

end Run

end Outbox

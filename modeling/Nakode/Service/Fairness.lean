import Nakode.Service.Lanes

/-!
# Fair and lossless lanes

What a call answers with is the first request of a lane (`Serves`), and otherwise a step of a call
only moves it on (`Turns`). From these two follow the order and the completeness of each lane
(`Accounted`), the turns of the lower lanes (`controlBudget_step`, `lowerBudget_step`) and, in runs
where no guard is evaluated on a closed lane that still holds a request, that the end of the stream
is answered only when every lane is closed and drained (`lanes_fair_lossless`).
-/

namespace Nakode

namespace Requests

open Transition

variable {ρ : Type} {s t : Requests ρ} {a : Act ρ}

/-! ## What a step can do -/

/-- The step may answer with the first request of a lane. -/
inductive Serves (s : Requests ρ) : Act ρ → Lane → Prop
  | control : s.phase = .control → s.consecutiveControl < controlBurst → Serves s .look .control
  | lower {offset : Nat} : s.phase = .lower offset →
      Serves s .look (.lower ((s.nextLowerLane + offset) % lowerLanes))
  | fallback : s.phase = .fallback → Serves s .look .control
  | chosen {enabled : List Lane} {lane : Lane} : s.phase = .waiting enabled → lane ∈ enabled →
      Serves s (.choose lane) lane

/-- The step moves the call on to a phase. -/
inductive Turns (s : Requests ρ) : Act ρ → Phase → Prop
  | call : s.phase = .idle ∨ s.phase = .ended → Turns s .call .control
  | control : s.phase = .control → (s.consecutiveControl < controlBurst → s.queue .control = []) →
      Turns s .look (.lower 0)
  | lower {offset : Nat} : s.phase = .lower offset → offset + 1 < lowerLanes →
      s.queue (.lower ((s.nextLowerLane + offset) % lowerLanes)) = [] →
      Turns s .look (.lower (offset + 1))
  | lowerLast {offset : Nat} : s.phase = .lower offset → lowerLanes ≤ offset + 1 →
      s.queue (.lower ((s.nextLowerLane + offset) % lowerLanes)) = [] → Turns s .look .fallback
  | fallback : s.phase = .fallback → s.queue .control = [] → Turns s .look (.closed .control)
  | closed {lane : Lane} : s.phase = .closed lane → s.closed lane = true →
      Turns s .look (.empty lane)
  | opened {lane : Lane} : s.phase = .closed lane → s.closed lane = false →
      Turns s .look (.guard .control [])
  | empty {lane next : Lane} : s.phase = .empty lane → s.queue lane = [] →
      lane.next? = some next → Turns s .look (.closed next)
  | drained {lane : Lane} : s.phase = .empty lane → s.queue lane = [] → lane.next? = none →
      Turns s .look .ended
  | filled {lane : Lane} : s.phase = .empty lane → s.queue lane ≠ [] →
      Turns s .look (.guard .control [])
  | guard {lane next : Lane} {enabled : List Lane} : s.phase = .guard lane enabled →
      lane.next? = some next →
      Turns s .look (.guard next (if s.closed lane then enabled else enabled ++ [lane]))
  | wait {lane : Lane} {enabled : List Lane} : s.phase = .guard lane enabled →
      lane.next? = none → (if s.closed lane then enabled else enabled ++ [lane]) ≠ [] →
      Turns s .look (.waiting (if s.closed lane then enabled else enabled ++ [lane]))
  | terminal {lane : Lane} {enabled : List Lane} : s.phase = .guard lane enabled →
      lane.next? = none → (if s.closed lane then enabled else enabled ++ [lane]) = [] →
      Turns s .look .ended
  | again {enabled : List Lane} {lane : Lane} : s.phase = .waiting enabled → lane ∈ enabled →
      s.queue lane = [] → s.closed lane = true → Turns s (.choose lane) .control
  | cancel {enabled : List Lane} : s.phase = .waiting enabled → Turns s .cancel .idle

theorem tryRecv_cases (s : Requests ρ) (lane : Lane) (next : Phase) :
    (∃ request rest, s.queue lane = request :: rest ∧
        s.tryRecv lane next = s.serve lane request rest) ∨
      s.queue lane = [] ∧ s.tryRecv lane next = { s with phase := next } := by
  unfold tryRecv
  cases h : s.queue lane with
  | nil => exact .inr ⟨rfl, rfl⟩
  | cons request rest => exact .inl ⟨request, rest, rfl, rfl⟩

/-- Everything a step can do. -/
theorem step_cases (h : s.step a = some t) :
    (∃ lane request, a = .arrive lane request ∧ s.closed lane = false ∧
      t = { s with
        queue := Function.update s.queue lane (s.queue lane ++ [request])
        arrived := Function.update s.arrived lane (s.arrived lane ++ [request]) }) ∨
    (∃ lane, a = .close lane ∧ t = { s with closed := Function.update s.closed lane true }) ∨
    (∃ lane request rest, Serves s a lane ∧ s.queue lane = request :: rest ∧
      t = s.serve lane request rest) ∨
    ∃ phase, Turns s a phase ∧ t = { s with phase := phase } := by
  cases a with
  | arrive lane request =>
    simp only [step] at h
    split at h
    · cases h
    · next hopen => exact .inl ⟨lane, request, rfl, by simpa using hopen, (Option.some.inj h).symm⟩
  | close lane => exact .inr (.inl ⟨lane, rfl, (Option.some.inj h).symm⟩)
  | call =>
    simp only [step] at h
    split at h
    · next hphase => exact .inr (.inr (.inr ⟨_, .call (.inl hphase), (Option.some.inj h).symm⟩))
    · next hphase => exact .inr (.inr (.inr ⟨_, .call (.inr hphase), (Option.some.inj h).symm⟩))
    · cases h
  | cancel =>
    simp only [step] at h
    split at h
    · next hphase => exact .inr (.inr (.inr ⟨_, .cancel hphase, (Option.some.inj h).symm⟩))
    · cases h
  | choose lane =>
    simp only [step, choose] at h
    split at h
    · next enabled hphase =>
      split at h
      · next hmem =>
        split at h
        · next request rest hqueue =>
          exact .inr (.inr (.inl ⟨lane, request, rest, .chosen hphase hmem, hqueue,
            (Option.some.inj h).symm⟩))
        · next hqueue =>
          split at h
          · next hclosed =>
            exact .inr (.inr (.inr ⟨_, .again hphase hmem hqueue hclosed,
              (Option.some.inj h).symm⟩))
          · cases h
      · cases h
    · cases h
  | look =>
    have hserve : ∀ {lane next}, Serves s .look lane →
        (s.queue lane = [] → Turns s .look next) → s.tryRecv lane next = t →
        (∃ lane request rest, Serves s .look lane ∧ s.queue lane = request :: rest ∧
          t = s.serve lane request rest) ∨ ∃ phase, Turns s .look phase ∧
          t = { s with phase := phase } := by
      intro lane next hserves hturns heq
      rcases tryRecv_cases s lane next with ⟨request, rest, hqueue, hserved⟩ | ⟨hqueue, hnext⟩
      · exact .inl ⟨lane, request, rest, hserves, hqueue, heq ▸ hserved⟩
      · exact .inr ⟨next, hturns hqueue, heq ▸ hnext⟩
    refine .inr (.inr ?_)
    simp only [step, look] at h
    split at h
    · next hphase =>
      split at h
      · next hburst =>
        exact hserve (.control hphase hburst) (fun hqueue => .control hphase fun _ => hqueue)
          (Option.some.inj h)
      · next hburst =>
        exact .inr ⟨_, .control hphase fun hlt => absurd hlt hburst, (Option.some.inj h).symm⟩
    · next offset hphase =>
      refine hserve (.lower hphase) (fun hqueue => ?_) (Option.some.inj h)
      split
      · next hlt => exact .lower hphase hlt hqueue
      · next hle => exact .lowerLast hphase (Nat.le_of_not_lt hle) hqueue
    · next hphase =>
      exact hserve (.fallback hphase) (.fallback hphase) (Option.some.inj h)
    · next lane hphase =>
      refine .inr ⟨_, ?_, (Option.some.inj h).symm⟩
      split
      · next hclosed => exact .closed hphase hclosed
      · next hopen => exact .opened hphase (by simpa using hopen)
    · next lane hphase =>
      split at h
      · next hempty =>
        have hqueue : s.queue lane = [] := by simpa using hempty
        split at h
        · next next hnext =>
          exact .inr ⟨_, .empty hphase hqueue hnext, (Option.some.inj h).symm⟩
        · next hnext => exact .inr ⟨_, .drained hphase hqueue hnext, (Option.some.inj h).symm⟩
      · next hfilled =>
        exact .inr ⟨_, .filled hphase (by simpa using hfilled), (Option.some.inj h).symm⟩
    · next lane enabled hphase =>
      split at h
      · next next hnext => exact .inr ⟨_, .guard hphase hnext, (Option.some.inj h).symm⟩
      · next hnext =>
        refine .inr ⟨_, ?_, (Option.some.inj h).symm⟩
        by_cases hnone : (if s.closed lane then enabled else enabled ++ [lane]) = []
        · rw [if_pos (List.isEmpty_iff.2 hnone)]
          exact .terminal hphase hnext hnone
        · rw [if_neg fun hempty => hnone (List.isEmpty_iff.1 hempty)]
          exact .wait hphase hnext hnone
    · cases h
    · cases h
    · cases h

/-! ## Every request once and in order -/

/-- The requests of a lane that calls have answered with, oldest first. -/
def returnedOf (s : Requests ρ) (lane : Lane) : List ρ :=
  s.returned.filterMap fun answer => if answer.1 = lane then some answer.2 else none

/-- What arrived on a lane is what was answered with and then what waits, and the cursor is a lower
lane. -/
structure Accounted (s : Requests ρ) : Prop where
  once : ∀ lane, s.arrived lane = s.returnedOf lane ++ s.queue lane
  cursor : s.nextLowerLane < lowerLanes

theorem accounted_empty : Accounted (∅ : Requests ρ) := ⟨fun _ => rfl, Nat.zero_lt_succ 2⟩

theorem returnedOf_serve {lane : Lane} {request : ρ} {rest : List ρ} (l : Lane) :
    (s.serve lane request rest).returnedOf l
      = s.returnedOf l ++ if lane = l then [request] else [] := by
  simp only [returnedOf, serve, List.filterMap_append]
  split <;> simp_all

theorem Accounted.step (h : Accounted s) (hstep : s.step a = some t) : Accounted t := by
  rcases step_cases hstep with ⟨lane, request, -, -, rfl⟩ | ⟨lane, -, rfl⟩ |
    ⟨lane, request, rest, -, hqueue, rfl⟩ | ⟨phase, -, rfl⟩
  · refine ⟨fun l => ?_, h.cursor⟩
    by_cases hl : l = lane
    · subst hl
      simp only [Function.update_self]
      rw [h.once l, List.append_assoc]
      rfl
    · simp only [Function.update_of_ne hl]
      exact h.once l
  · exact ⟨h.once, h.cursor⟩
  · refine ⟨fun l => ?_, ?_⟩
    · rw [returnedOf_serve]
      show s.arrived l = _
      by_cases hl : l = lane
      · subst hl
        rw [h.once l, hqueue]
        simp [serve]
      · rw [h.once l, if_neg fun heq => hl heq.symm]
        simp [serve, Function.update_of_ne hl]
    · have hbound : (0 < 3 ∧ 1 < 3) ∧ 2 < 3 := by decide
      cases lane with
      | control => exact h.cursor
      | queries => exact hbound.1.2
      | hydration => exact hbound.2
      | subscriptions => exact hbound.1.1
  · exact ⟨h.once, h.cursor⟩

/-! ## The end of the stream -/

/-- The lane has lost its last sender and holds no request. -/
def Drained (s : Requests ρ) (lane : Lane) : Prop := s.closed lane = true ∧ s.queue lane = []

theorem closed_step (hstep : s.step a = some t) {lane : Lane} (h : s.closed lane = true) :
    t.closed lane = true := by
  rcases step_cases hstep with ⟨l, request, -, -, rfl⟩ | ⟨l, -, rfl⟩ | ⟨l, request, rest, -, -, rfl⟩ |
    ⟨phase, -, rfl⟩
  · exact h
  · by_cases hl : lane = l
    · rw [hl]
      exact Function.update_self ..
    · exact (Function.update_of_ne hl _ _).trans h
  · exact h
  · exact h

/-- A drained lane stays drained. -/
theorem Drained.step {lane : Lane} (h : Drained s lane) (hstep : s.step a = some t) :
    Drained t lane := by
  refine ⟨closed_step hstep h.1, ?_⟩
  rcases step_cases hstep with ⟨l, request, -, hopen, rfl⟩ | ⟨l, -, rfl⟩ |
    ⟨l, request, rest, -, hqueue, rfl⟩ | ⟨phase, -, rfl⟩
  · have hne : lane ≠ l := fun heq => by rw [← heq, h.1] at hopen; cases hopen
    exact (Function.update_of_ne hne _ _).trans h.2
  · exact h.2
  · have hne : lane ≠ l := fun heq => by rw [← heq, h.2] at hqueue; cases hqueue
    exact (Function.update_of_ne hne _ _).trans h.2
  · exact h.2

/-- What a call knows of the lanes it has passed over. -/
def Passed (s : Requests ρ) : Prop :=
  match s.phase with
  | .closed lane => ∀ l, l.index < lane.index → Drained s l
  | .empty lane => s.closed lane = true ∧ ∀ l, l.index < lane.index → Drained s l
  | .guard lane enabled => ∀ l, l.index < lane.index → l ∉ enabled → Drained s l
  | .waiting enabled => ∀ l, l ∉ enabled → Drained s l
  | .ended => ∀ l, Drained s l
  | .idle | .control | .lower _ | .fallback => True

/-- No guard is evaluated on a lane that has lost its last sender and still holds a request, which
arrived after the call had looked there. -/
def Attentive (s : Requests ρ) (a : Act ρ) : Prop :=
  ∀ lane enabled, a = .look → s.phase = .guard lane enabled → s.closed lane = true →
    s.queue lane = []

theorem Lane.index_lt_next {lane next l : Lane} (h : lane.next? = some next)
    (hl : l.index < next.index) : l.index < lane.index ∨ l = lane := by
  cases lane <;> cases next <;> cases l <;> simp_all [Lane.next?, Lane.index]

theorem Lane.index_lt_last {lane : Lane} (h : lane.next? = none) (l : Lane) :
    l.index < lane.index ∨ l = lane := by
  cases lane <;> cases l <;> simp_all [Lane.next?, Lane.index]

theorem not_index_lt_control (l : Lane) : ¬l.index < Lane.control.index := Nat.not_lt_zero _

/-- Moving a call on keeps what it knows. -/
theorem Passed.turn {phase : Phase} (h : Passed s) (hturns : Turns s a phase)
    (hattentive : Attentive s a) : Passed { s with phase := phase } := by
  have hguard : ∀ {lane : Lane} {enabled : List Lane}, s.phase = .guard lane enabled →
      a = .look → ∀ l, l.index < lane.index ∨ l = lane →
      l ∉ (if s.closed lane then enabled else enabled ++ [lane]) → Drained s l := by
    intro lane enabled hphase ha l hl hmem
    unfold Passed at h
    rw [hphase] at h
    rcases hl with hl | rfl
    · refine h l hl fun hin => hmem ?_
      split
      · exact hin
      · exact List.mem_append_left _ hin
    · -- the guard of this lane failed, so the lane is closed, and nothing waits on it
      cases hclosed : s.closed l with
      | true => exact ⟨hclosed, hattentive l enabled ha hphase hclosed⟩
      | false => simp [hclosed] at hmem
  cases hturns with
  | call | control | lower | lowerLast | again | cancel => trivial
  | fallback => exact fun l hl => absurd hl (not_index_lt_control l)
  | opened | filled => exact fun l hl => absurd hl (not_index_lt_control l)
  | closed hphase hclosed =>
    unfold Passed at h
    rw [hphase] at h
    exact ⟨hclosed, h⟩
  | empty hphase hqueue hnext =>
    unfold Passed at h
    rw [hphase] at h
    intro l hl
    rcases Lane.index_lt_next hnext hl with hl | rfl
    · exact h.2 l hl
    · exact ⟨h.1, hqueue⟩
  | drained hphase hqueue hnext =>
    unfold Passed at h
    rw [hphase] at h
    intro l
    rcases Lane.index_lt_last hnext l with hl | rfl
    · exact h.2 l hl
    · exact ⟨h.1, hqueue⟩
  | guard hphase hnext =>
    exact fun l hl => hguard hphase rfl l (Lane.index_lt_next hnext hl)
  | wait hphase hnext =>
    exact fun l => hguard hphase rfl l (Lane.index_lt_last hnext l)
  | terminal hphase hnext hnone =>
    exact fun l => hguard hphase rfl l (Lane.index_lt_last hnext l) (by rw [hnone]; simp)

theorem Passed.step (h : Passed s) (hstep : s.step a = some t) (hattentive : Attentive s a) :
    Passed t := by
  have hkept : t.phase = s.phase → Passed t := by
    intro hphase
    unfold Passed at h ⊢
    rw [hphase]
    split at h
    · exact fun l hl => (h l hl).step hstep
    · exact ⟨closed_step hstep h.1, fun l hl => (h.2 l hl).step hstep⟩
    · exact fun l hl hmem => (h l hl hmem).step hstep
    · exact fun l hmem => (h l hmem).step hstep
    · exact fun l => (h l).step hstep
    · trivial
    · trivial
    · trivial
    · trivial
  rcases step_cases hstep with ⟨lane, request, -, -, rfl⟩ | ⟨lane, -, rfl⟩ |
    ⟨lane, request, rest, -, -, rfl⟩ | ⟨phase, hturns, rfl⟩
  · exact hkept rfl
  · exact hkept rfl
  · trivial
  · exact h.turn hturns hattentive

/-! ## The turns of the lower lanes -/

/-- A request waits on a lower lane. -/
def LowerWaits (s : Requests ρ) : Prop := ∃ lane, lane ≠ .control ∧ s.queue lane ≠ []

/-- The lower lanes that a call has still to look at, from an offset on. -/
def Ahead (s : Requests ρ) (offset : Nat) (lane : Lane) : Prop :=
  ∃ k, offset ≤ k ∧ k < lowerLanes ∧ lane = .lower ((s.nextLowerLane + k) % lowerLanes)

/-- Every lower lane is ahead of a call that has looked at none. -/
theorem ahead_zero (h : s.nextLowerLane < lowerLanes) {lane : Lane} (hlane : lane ≠ .control) :
    s.Ahead 0 lane := by
  unfold lowerLanes at h
  obtain hnext | hnext | hnext : s.nextLowerLane = 0 ∨ s.nextLowerLane = 1 ∨ s.nextLowerLane = 2 := by
    omega
  · cases lane with
    | control => exact absurd rfl hlane
    | queries => exact ⟨0, by decide, by decide, by rw [hnext]; rfl⟩
    | hydration => exact ⟨1, by decide, by decide, by rw [hnext]; rfl⟩
    | subscriptions => exact ⟨2, by decide, by decide, by rw [hnext]; rfl⟩
  · cases lane with
    | control => exact absurd rfl hlane
    | queries => exact ⟨2, by decide, by decide, by rw [hnext]; rfl⟩
    | hydration => exact ⟨0, by decide, by decide, by rw [hnext]; rfl⟩
    | subscriptions => exact ⟨1, by decide, by decide, by rw [hnext]; rfl⟩
  · cases lane with
    | control => exact absurd rfl hlane
    | queries => exact ⟨1, by decide, by decide, by rw [hnext]; rfl⟩
    | hydration => exact ⟨2, by decide, by decide, by rw [hnext]; rfl⟩
    | subscriptions => exact ⟨0, by decide, by decide, by rw [hnext]; rfl⟩

/-- A request waits on a lower lane that the call has still to look at, or is about to. -/
def Seen (s : Requests ρ) : Prop :=
  match s.phase with
  | .idle | .control | .ended => True
  | .lower offset => ∃ lane, s.Ahead offset lane ∧ s.queue lane ≠ []
  | _ => False

/-- The control requests that may still be answered with before a lower one, while one waits. -/
noncomputable def controlBudget (s : Requests ρ) : Nat :=
  open Classical in
  if s.Seen then controlBurst - s.consecutiveControl else max 1 (controlBurst - s.consecutiveControl)

theorem controlBudget_le (s : Requests ρ) : s.controlBudget ≤ controlBurst := by
  unfold controlBudget controlBurst
  split <;> omega

theorem seen_of_phase (h : t.phase = .idle ∨ t.phase = .control ∨ t.phase = .ended) : t.Seen := by
  unfold Seen
  rcases h with h | h | h <;> rw [h] <;> trivial

/-- Moving a call on loses sight of no lower request that waits. -/
theorem Seen.turn {phase : Phase} (h : s.Seen) (hcursor : s.nextLowerLane < lowerLanes)
    (hwaits : s.LowerWaits) (hturns : Turns s a phase) : Seen { s with phase := phase } := by
  unfold Seen at h
  cases hturns with
  | call | again | cancel => trivial
  | control =>
    obtain ⟨lane, hlane, hqueue⟩ := hwaits
    exact ⟨lane, ahead_zero hcursor hlane, hqueue⟩
  | lower hphase hlt hempty =>
    rw [hphase] at h
    obtain ⟨lane, ⟨k, hle, hk, rfl⟩, hqueue⟩ := h
    refine ⟨_, ⟨k, Nat.lt_of_le_of_ne hle fun heq => ?_, hk, rfl⟩, hqueue⟩
    exact hqueue (heq ▸ hempty)
  | lowerLast hphase hlast hempty =>
    rw [hphase] at h
    obtain ⟨lane, ⟨k, hle, hk, rfl⟩, hqueue⟩ := h
    obtain rfl : k = _ := Nat.le_antisymm (by unfold lowerLanes at *; omega) hle
    exact absurd hempty hqueue
  | fallback hphase | closed hphase | opened hphase | empty hphase | drained hphase | filled hphase
  | guard hphase | wait hphase | terminal hphase =>
    rw [hphase] at h
    exact h.elim

/-- While a request waits on a lower lane, every answer with a control request takes from the
budget, and no other step adds to it. -/
theorem controlBudget_step (hcursor : s.nextLowerLane < lowerLanes) (hwaits : s.LowerWaits)
    (hstep : s.step a = some t) :
    (∃ answer, answer.1 ≠ .control ∧ t.returned = s.returned ++ [answer]) ∨
    (∃ answer, t.returned = s.returned ++ [answer] ∧ t.controlBudget + 1 ≤ s.controlBudget) ∨
    t.returned = s.returned ∧ t.controlBudget ≤ s.controlBudget := by
  have hkept : t.returned = s.returned → t.consecutiveControl = s.consecutiveControl →
      (s.Seen → t.Seen) → t.returned = s.returned ∧ t.controlBudget ≤ s.controlBudget := by
    intro hreturned hcount hseen
    refine ⟨hreturned, ?_⟩
    unfold controlBudget
    rw [hcount]
    split
    · split <;> omega
    · next hnot => exact Nat.le_of_eq (if_neg fun h => hnot (hseen h)).symm
  rcases step_cases hstep with ⟨lane, request, -, -, rfl⟩ | ⟨lane, -, rfl⟩ |
    ⟨lane, request, rest, hserves, -, rfl⟩ | ⟨phase, hturns, rfl⟩
  · refine .inr (.inr (hkept rfl rfl fun hseen => ?_))
    unfold Seen at hseen ⊢
    dsimp only
    split at hseen
    · trivial
    · trivial
    · trivial
    · obtain ⟨l, hahead, hqueue⟩ := hseen
      refine ⟨l, hahead, ?_⟩
      by_cases hl : l = lane
      · subst hl
        simp
      · rwa [Function.update_of_ne hl]
    · exact hseen.elim
  · exact .inr (.inr (hkept rfl rfl fun hseen => hseen))
  · by_cases hlane : lane = .control
    · subst hlane
      refine .inr (.inl ⟨(.control, request), rfl, ?_⟩)
      have hseen : (s.serve .control request rest).Seen := seen_of_phase (.inl rfl)
      have hcount : (s.serve .control request rest).consecutiveControl
          = s.consecutiveControl + 1 := rfl
      have hone : 1 ≤ s.controlBudget := by
        unfold controlBudget
        split
        · next hseen =>
          generalize hl : Lane.control = l at hserves
          cases hserves with
          | control _ hburst => omega
          | lower => revert hl; unfold Lane.lower; split <;> exact nofun
          | fallback hphase | chosen hphase =>
            unfold Seen at hseen
            rw [hphase] at hseen
            exact hseen.elim
        · omega
      have hburst : controlBurst - s.consecutiveControl ≤ s.controlBudget := by
        unfold controlBudget
        split <;> omega
      have : (s.serve .control request rest).controlBudget
          = controlBurst - (s.consecutiveControl + 1) := by
        unfold controlBudget
        rw [if_pos hseen, hcount]
      omega
    · exact .inl ⟨(lane, request), hlane, rfl⟩
  · exact .inr (.inr (hkept rfl rfl fun hseen => hseen.turn hcursor hwaits hturns))

/-- How many lanes the cursor is before a lower lane. -/
def distance (s : Requests ρ) (lane : Lane) : Nat :=
  (lane.index + 2 - s.nextLowerLane) % lowerLanes

theorem distance_lt (s : Requests ρ) (lane : Lane) : s.distance lane < lowerLanes :=
  Nat.mod_lt _ (by decide)

/-- The lane a look is at is the one at the distance of the offset. -/
theorem lower_eq_iff (hcursor : s.nextLowerLane < lowerLanes) {lane : Lane}
    (hlane : lane ≠ .control) {offset : Nat} (hoffset : offset < lowerLanes) :
    .lower ((s.nextLowerLane + offset) % lowerLanes) = lane ↔ s.distance lane = offset := by
  have hindex : ∀ n < lowerLanes, (Lane.lower n = lane ↔ lane.index = n + 1) := by
    unfold lowerLanes
    intro n hn
    obtain rfl | rfl | rfl : n = 0 ∨ n = 1 ∨ n = 2 := by omega
    all_goals cases lane <;> simp_all [Lane.lower, Lane.index]
  have hpositive : 0 < lane.index ∧ lane.index ≤ lowerLanes := by
    cases lane with
    | control => exact absurd rfl hlane
    | queries => exact ⟨Nat.zero_lt_succ 0, Nat.le_add_left 1 2⟩
    | hydration => exact ⟨Nat.zero_lt_succ 1, Nat.le_add_left 2 1⟩
    | subscriptions => exact ⟨Nat.zero_lt_succ 2, Nat.le_refl 3⟩
  rw [hindex _ (Nat.mod_lt _ (by decide)), distance]
  unfold lowerLanes at *
  omega

/-- After an answer with a request of another lower lane, the cursor is at most one before it. -/
theorem distance_serve {lane l : Lane} (hlane : lane ≠ .control) (hl : l ≠ .control) (hne : l ≠ lane)
    (request : ρ) (rest : List ρ) : (s.serve l request rest).distance lane ≤ 1 := by
  cases lane <;> cases l <;> simp_all [distance, serve, Lane.index, lowerLanes]

theorem nextLowerLane_serve {n : Nat} (hn : n < lowerLanes) (request : ρ) (rest : List ρ) :
    (s.serve (.lower n) request rest).nextLowerLane = (n + 1) % lowerLanes := by
  unfold lowerLanes at *
  obtain rfl | rfl | rfl : n = 0 ∨ n = 1 ∨ n = 2 := by omega
  all_goals rfl

/-- The requests of other lower lanes that may still be answered with before one of a lane on which
a request waits. -/
def lowerBudget (s : Requests ρ) (lane : Lane) : Nat :=
  match s.phase with
  | .idle | .control | .ended => s.distance lane
  | .lower offset => if offset ≤ s.distance lane then s.distance lane else 2
  | _ => 2

theorem lowerBudget_le (s : Requests ρ) (lane : Lane) : s.lowerBudget lane ≤ 2 := by
  have := s.distance_lt lane
  unfold lowerLanes at this
  unfold lowerBudget
  split
  · omega
  · omega
  · omega
  · split <;> omega
  · omega

theorem distance_le_lowerBudget (s : Requests ρ) (lane : Lane) :
    s.distance lane ≤ s.lowerBudget lane := by
  have := s.distance_lt lane
  unfold lowerLanes at this
  unfold lowerBudget
  split
  · omega
  · omega
  · omega
  · split <;> omega
  · omega

theorem lowerBudget_lower {offset : Nat} (h : s.phase = .lower offset) (lane : Lane) :
    s.lowerBudget lane = if offset ≤ s.distance lane then s.distance lane else 2 := by
  unfold lowerBudget
  rw [h]

/-- While a request waits on a lower lane, every answer with a request of another lower lane takes
from the budget, and no other step adds to it. -/
theorem lowerBudget_step (hcursor : s.nextLowerLane < lowerLanes) {lane : Lane}
    (hlane : lane ≠ .control) (hwaits : s.queue lane ≠ []) (hstep : s.step a = some t) :
    (∃ request, t.returned = s.returned ++ [(lane, request)]) ∨
    (∃ answer, answer.1 ≠ .control ∧ t.returned = s.returned ++ [answer] ∧
      t.lowerBudget lane + 1 ≤ s.lowerBudget lane) ∨
    (t.returned = s.returned ∨ ∃ request, t.returned = s.returned ++ [(.control, request)]) ∧
      t.lowerBudget lane ≤ s.lowerBudget lane := by
  rcases step_cases hstep with ⟨l, request, -, -, rfl⟩ | ⟨l, -, rfl⟩ |
    ⟨l, request, rest, hserves, -, rfl⟩ | ⟨phase, hturns, rfl⟩
  · exact .inr (.inr ⟨.inl rfl, Nat.le_refl _⟩)
  · exact .inr (.inr ⟨.inl rfl, Nat.le_refl _⟩)
  · by_cases hl : l = lane
    · subst hl
      exact .inl ⟨request, rfl⟩
    by_cases hcontrol : l = .control
    · subst hcontrol
      refine .inr (.inr ⟨.inr ⟨request, rfl⟩, ?_⟩)
      exact distance_le_lowerBudget s lane
    · refine .inr (.inl ⟨(l, request), hcontrol, rfl, ?_⟩)
      have hafter := distance_serve (s := s) hlane hcontrol hl request rest
      show (s.serve l request rest).distance lane + 1 ≤ s.lowerBudget lane
      cases hserves with
      | control => exact absurd rfl hcontrol
      | fallback => exact absurd rfl hcontrol
      | chosen hphase =>
        unfold lowerBudget
        rw [hphase]
        exact Nat.succ_le_succ hafter
      | @lower offset hphase =>
        rw [lowerBudget_lower hphase]
        split
        · next hle =>
          -- the lane is still ahead of the look, and the cursor moves on towards it
          have hlt := Nat.lt_of_le_of_lt hle (s.distance_lt lane)
          have hpassed : s.distance lane ≠ offset := fun heq =>
            hl ((lower_eq_iff hcursor hlane hlt).2 heq)
          have hnext := nextLowerLane_serve (s := s)
            (Nat.mod_lt (s.nextLowerLane + offset) (by decide : lowerLanes > 0)) request rest
          unfold distance at *
          rw [hnext]
          unfold lowerLanes at *
          omega
        · exact Nat.succ_le_succ hafter
  · refine .inr (.inr ⟨.inl rfl, ?_⟩)
    have hsmall := lowerBudget_le { s with phase := phase } lane
    have hdistance := distance_le_lowerBudget s lane
    have hat : ∀ {offset : Nat}, s.phase = .lower offset →
        s.queue (.lower ((s.nextLowerLane + offset) % lowerLanes)) = [] →
        offset ≤ s.distance lane → offset < s.distance lane := by
      intro offset hphase hempty hle
      refine Nat.lt_of_le_of_ne hle fun heq => hwaits ?_
      have hlt := Nat.lt_of_le_of_lt hle (s.distance_lt lane)
      rwa [(lower_eq_iff hcursor hlane hlt).2 heq.symm] at hempty
    cases hturns with
    | call | again | cancel | drained | terminal => exact hdistance
    | control hphase =>
      rw [lowerBudget_lower rfl, if_pos (Nat.zero_le _)]
      exact hdistance
    | lower hphase hlt hempty =>
      rw [lowerBudget_lower rfl, lowerBudget_lower hphase]
      have := hat hphase hempty
      show (if _ ≤ s.distance lane then s.distance lane else 2) ≤ _
      split <;> split <;> omega
    | @lowerLast offset hphase hlast hempty =>
      have hpast : ¬offset ≤ s.distance lane := by
        intro hle
        have := hat hphase hempty hle
        have := s.distance_lt lane
        omega
      rw [lowerBudget_lower hphase, if_neg hpast]
      exact hsmall
    | fallback hphase | closed hphase | opened hphase | empty hphase | filled hphase
    | guard hphase | wait hphase =>
      have hbudget : s.lowerBudget lane = 2 := by
        unfold lowerBudget
        rw [hphase]
      rw [hbudget]
      exact hsmall

/-! ## Runs -/

/-- While a request waits on a lower lane, the answers are of control requests within the budget, or
one of them is of a lower one. -/
theorem controlBudget_run {acts : List (Act ρ)} (h : Accounted s)
    (hrun : ((lanes ρ).restrict fun u _ => u.LowerWaits).Run s acts t) :
    ∃ new, t.returned = s.returned ++ new ∧
      ((∀ answer ∈ new, answer.1 = .control) → new.length + t.controlBudget ≤ s.controlBudget) := by
  induction hrun with
  | nil s => exact ⟨[], by simp, fun _ => by simp⟩
  | @cons s u t a acts hnext _ ih =>
    obtain ⟨hwaits, hstep⟩ := hnext
    obtain ⟨new, hnew, hbudget⟩ := ih (h.step hstep)
    rcases controlBudget_step h.cursor hwaits hstep with ⟨answer, hlower, hu⟩ | ⟨answer, hu, hless⟩ |
      ⟨hu, hle⟩
    · refine ⟨answer :: new, by rw [hnew, hu]; simp, fun hall => ?_⟩
      exact absurd (hall answer List.mem_cons_self) hlower
    · refine ⟨answer :: new, by rw [hnew, hu]; simp, fun hall => ?_⟩
      have := hbudget fun x hx => hall x (List.mem_cons_of_mem _ hx)
      rw [List.length_cons]
      omega
    · refine ⟨new, by rw [hnew, hu], fun hall => ?_⟩
      have := hbudget hall
      omega

/-- While a request waits on a lower lane, the answers with requests of the others are within the
budget, or one of the answers is of this lane. -/
theorem lowerBudget_run {lane : Lane} (hlane : lane ≠ .control) {acts : List (Act ρ)}
    (h : Accounted s) (hrun : ((lanes ρ).restrict fun u _ => u.queue lane ≠ []).Run s acts t) :
    ∃ new, t.returned = s.returned ++ new ∧ ((∀ answer ∈ new, answer.1 ≠ lane) →
      new.countP (·.1 ≠ .control) + t.lowerBudget lane ≤ s.lowerBudget lane) := by
  induction hrun with
  | nil s => exact ⟨[], by simp, fun _ => by simp⟩
  | @cons s u t a acts hnext _ ih =>
    obtain ⟨hwaits, hstep⟩ := hnext
    obtain ⟨new, hnew, hbudget⟩ := ih (h.step hstep)
    rcases lowerBudget_step h.cursor hlane hwaits hstep with ⟨request, hu⟩ |
      ⟨answer, hlower, hu, hless⟩ | ⟨hu | ⟨request, hu⟩, hle⟩
    · refine ⟨(lane, request) :: new, by rw [hnew, hu]; simp, fun hall => ?_⟩
      exact absurd rfl (hall _ List.mem_cons_self)
    · refine ⟨answer :: new, by rw [hnew, hu]; simp, fun hall => ?_⟩
      have := hbudget fun x hx => hall x (List.mem_cons_of_mem _ hx)
      rw [List.countP_cons_of_pos (by simpa using hlower)]
      omega
    · refine ⟨new, by rw [hnew, hu], fun hall => ?_⟩
      have := hbudget hall
      omega
    · refine ⟨(.control, request) :: new, by rw [hnew, hu]; simp, fun hall => ?_⟩
      have := hbudget fun x hx => hall x (List.mem_cons_of_mem _ hx)
      rw [List.countP_cons_of_neg (by simp)]
      omega

/-- In runs where no guard is evaluated on a closed lane that still holds a request: what arrived on
a lane is what was answered with, in order, and what waits; the end of the stream is answered only
when every lane is closed and drained, and a call waits on every lane that holds a request; while a
request waits on a lower lane at most eight control requests are answered with before a lower one;
and a lower lane that stays filled is among any three answers from the lower lanes. -/
theorem lanes_fair_lossless {acts : List (Act ρ)}
    (hrun : ((lanes ρ).restrict Attentive).Run ∅ acts s) :
    (∀ lane, s.arrived lane = s.returnedOf lane ++ s.queue lane) ∧
    (s.phase = .ended → ∀ lane, s.closed lane = true ∧ s.queue lane = []) ∧
    (∀ enabled, s.phase = .waiting enabled → ∀ lane, s.queue lane ≠ [] → lane ∈ enabled) ∧
    (∀ later t, ((lanes ρ).restrict fun u _ => u.LowerWaits).Run s later t →
      ∃ new, t.returned = s.returned ++ new ∧
        ((∀ answer ∈ new, answer.1 = .control) → new.length ≤ controlBurst)) ∧
    ∀ lane, lane ≠ .control → ∀ later t,
      ((lanes ρ).restrict fun u _ => u.queue lane ≠ []).Run s later t →
      ∃ new, t.returned = s.returned ++ new ∧
        ((∀ answer ∈ new, answer.1 ≠ lane) → new.countP (·.1 ≠ .control) < lowerLanes) := by
  obtain ⟨haccounted, hpassed⟩ := hrun.invariant (Q := fun u => Accounted u ∧ Passed u)
    (fun hnext h => ⟨h.1.step hnext.2, h.2.step hnext.2 hnext.1⟩) ⟨accounted_empty, trivial⟩
  refine ⟨haccounted.once, fun hended => ?_, fun enabled hwaiting lane hqueue => ?_,
    fun later t hlater => ?_, fun lane hlane later t hlater => ?_⟩
  · unfold Passed at hpassed
    rwa [hended] at hpassed
  · unfold Passed at hpassed
    rw [hwaiting] at hpassed
    by_contra hmem
    exact hqueue (hpassed lane hmem).2
  · obtain ⟨new, hnew, hbudget⟩ := controlBudget_run haccounted hlater
    refine ⟨new, hnew, fun hall => ?_⟩
    have := hbudget hall
    have := s.controlBudget_le
    omega
  · obtain ⟨new, hnew, hbudget⟩ := lowerBudget_run hlane haccounted hlater
    refine ⟨new, hnew, fun hall => ?_⟩
    have := hbudget hall
    have := s.lowerBudget_le lane
    show _ < 3
    omega

/-- A request arrives before a call looks, and the call answers with it. -/
theorem lanes_fair_lossless_prompt :
    ∃ s : Requests Nat, s.returnedOf .queries = [0] ∧
      s.arrived .queries = s.returnedOf .queries ++ s.queue .queries := by
  obtain ⟨s, hrun, hreturned⟩ : ∃ s : Requests Nat, ((lanes Nat).restrict Attentive).Run ∅
      [.arrive .queries 0, .call, .look, .look] s ∧ s.returnedOf .queries = [0] :=
    ⟨_, .cons ⟨nofun, rfl⟩ (.cons ⟨nofun, rfl⟩ (.cons ⟨nofun, rfl⟩ (.cons ⟨nofun, rfl⟩ (.nil _)))),
      rfl⟩
  exact ⟨s, hreturned, (lanes_fair_lossless hrun).1 .queries⟩

/-- A request arrives and every sender goes away after a call has looked at its lane and before the
call evaluates its guards: the end of the stream is answered over the request. -/
theorem recv_ends_over_request :
    ¬∀ (acts : List (Act Nat)) (s : Requests Nat), (lanes Nat).Run ∅ acts s → s.phase = .ended →
      ∀ lane, s.closed lane = true ∧ s.queue lane = [] := by
  intro h
  obtain ⟨s, hsteps, hended, hqueue⟩ : ∃ s : Requests Nat, Requests.steps ∅
      ([.call, .look, .look, .look, .look, .look, .look, .arrive .queries 0, .close .control,
        .close .queries, .close .hydration, .close .subscriptions, .look, .look, .look, .look])
      = some s ∧ s.phase = .ended ∧ s.queue .queries = [0] := ⟨_, rfl, rfl, rfl⟩
  have hnone := (h _ s (steps_run hsteps) hended .queries).2
  rw [hqueue] at hnone
  cases hnone

end Requests

end Nakode

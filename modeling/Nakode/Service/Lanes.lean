import Nakode.Lib.Trace

/-!
# The lanes of requests

Requests reach the server on four bounded channels. A call of `recv` looks at them one after
another and waits when it finds nothing; between any two of its looks requests arrive and the last
sender of a lane goes away. Each look at a channel is one step (`Requests.look`), and where the call
waits, any of the branches that are ready may be taken (`Requests.choose`).
-/

namespace Nakode

open Transition

variable {ρ : Type}

inductive Lane where
  | control
  | queries
  | hydration
  | subscriptions
  deriving DecidableEq, Repr

namespace Lane

/-- The order in which the lanes are written down. -/
def index : Lane → Nat
  | control => 0
  | queries => 1
  | hydration => 2
  | subscriptions => 3

def next? : Lane → Option Lane
  | control => some queries
  | queries => some hydration
  | hydration => some subscriptions
  | subscriptions => none

/-- The lower lane with a number; there are no others. -/
def lower : Nat → Lane
  | 0 => queries
  | 1 => hydration
  | _ => subscriptions

end Lane

def controlBurst : Nat := 8

def lowerLanes : Nat := 3

/-- Where a call of `recv` is: before its next look at a channel, or waiting with the branches whose
guards held. `ended` is where the call has answered that the stream is terminal. -/
inductive Phase where
  | idle
  | control
  | lower (offset : Nat)
  | fallback
  | closed (lane : Lane)
  | empty (lane : Lane)
  | guard (lane : Lane) (enabled : List Lane)
  | waiting (enabled : List Lane)
  | ended
  deriving DecidableEq, Repr

/-- The receiving side. `arrived` and `returned` record what was sent on each lane and what calls
have answered with, oldest first. -/
structure Requests (ρ : Type) where
  queue : Lane → List ρ
  closed : Lane → Bool
  nextLowerLane : Nat
  consecutiveControl : Nat
  phase : Phase
  arrived : Lane → List ρ
  returned : List (Lane × ρ)

namespace Requests

def empty : Requests ρ where
  queue _ := []
  closed _ := false
  nextLowerLane := 0
  consecutiveControl := 0
  phase := .idle
  arrived _ := []
  returned := []

instance : EmptyCollection (Requests ρ) := ⟨empty⟩

/-- A call answers with the first request of a lane, and counts it. -/
def serve (s : Requests ρ) (lane : Lane) (request : ρ) (rest : List ρ) : Requests ρ :=
  { s with
    queue := Function.update s.queue lane rest
    returned := s.returned ++ [(lane, request)]
    phase := .idle
    nextLowerLane := match lane with
      | .control => s.nextLowerLane
      | .queries => 1
      | .hydration => 2
      | .subscriptions => 0
    consecutiveControl := if lane = .control then s.consecutiveControl + 1 else 0 }

/-- `try_recv` of a lane: its first request, or the call goes on. -/
def tryRecv (s : Requests ρ) (lane : Lane) (next : Phase) : Requests ρ :=
  match s.queue lane with
  | request :: rest => s.serve lane request rest
  | [] => { s with phase := next }

/-- The next look of a call. -/
def look (s : Requests ρ) : Option (Requests ρ) :=
  match s.phase with
  | .control =>
    if s.consecutiveControl < controlBurst then some (s.tryRecv .control (.lower 0))
    else some { s with phase := .lower 0 }
  | .lower offset =>
    some (s.tryRecv (.lower ((s.nextLowerLane + offset) % lowerLanes))
      (if offset + 1 < lowerLanes then .lower (offset + 1) else .fallback))
  | .fallback => some (s.tryRecv .control (.closed .control))
  | .closed lane =>
    some { s with phase := if s.closed lane then .empty lane else .guard .control [] }
  | .empty lane =>
    if (s.queue lane).isEmpty then
      match lane.next? with
      | some next => some { s with phase := .closed next }
      | none => some { s with phase := .ended }
    else some { s with phase := .guard .control [] }
  | .guard lane enabled =>
    let enabled := if s.closed lane then enabled else enabled ++ [lane]
    match lane.next? with
    | some next => some { s with phase := .guard next enabled }
    | none => some { s with phase := if enabled.isEmpty then .ended else .waiting enabled }
  | .idle | .waiting _ | .ended => none

/-- A branch of the call's wait that is ready: its lane has a request, or has lost its last sender
and the call looks again. -/
def choose (s : Requests ρ) (lane : Lane) : Option (Requests ρ) :=
  match s.phase with
  | .waiting enabled =>
    if lane ∈ enabled then
      match s.queue lane with
      | request :: rest => some (s.serve lane request rest)
      | [] => if s.closed lane then some { s with phase := .control } else none
    else none
  | _ => none

/-- What happens: a request arrives, a lane loses its last sender, `recv` is called, the call looks
on or takes a branch, or its caller drops it where it waits. -/
inductive Act (ρ : Type) where
  | arrive (lane : Lane) (request : ρ)
  | close (lane : Lane)
  | call
  | look
  | choose (lane : Lane)
  | cancel
  deriving DecidableEq, Repr

def step (s : Requests ρ) : Act ρ → Option (Requests ρ)
  | .arrive lane request =>
    if s.closed lane then none else
      some { s with
        queue := Function.update s.queue lane (s.queue lane ++ [request])
        arrived := Function.update s.arrived lane (s.arrived lane ++ [request]) }
  | .close lane => some { s with closed := Function.update s.closed lane true }
  | .call =>
    match s.phase with
    | .idle | .ended => some { s with phase := .control }
    | _ => none
  | .look => s.look
  | .choose lane => s.choose lane
  | .cancel =>
    match s.phase with
    | .waiting _ => some { s with phase := .idle }
    | _ => none

/-- The lanes under any arrivals, closures and calls. -/
def lanes (ρ : Type) : System (Requests ρ) (Act ρ) where
  next s a s' := s.step a = some s'

/-- Steps one after another. -/
def steps (s : Requests ρ) : List (Act ρ) → Option (Requests ρ)
  | [] => some s
  | a :: acts => (s.step a).bind fun s' => s'.steps acts

theorem steps_run {s t : Requests ρ} {acts : List (Act ρ)} (h : s.steps acts = some t) :
    (lanes ρ).Run s acts t := by
  induction acts generalizing s with
  | nil =>
    obtain rfl : s = t := by simpa [steps] using h
    exact .nil s
  | cons a acts ih =>
    obtain ⟨s', hstep, hrest⟩ := Option.bind_eq_some_iff.1 h
    exact .cons hstep (ih hrest)

end Requests

end Nakode

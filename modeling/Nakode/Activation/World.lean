import Nakode.Activation.Requests
import Nakode.Activation.Written

/-!
# The file of the journal

What the programs of the activation ask of their surroundings changes the file of the journal only
by a write or by putting a corrupt file away; everything else that is answered is arbitrary. A run
may be cut before any question, as its process may die. `World` also keeps every journal that was
written, and every conditional restart with the journals that were written before it.
-/

namespace Nakode.ActivationJournal

open Interaction

inductive File where
  | absent
  | corrupt
  | journal (journal : Journal)

structure World where
  file : File
  /-- The newest first. -/
  writes : List Journal
  /-- The sessions that a conditional restart was to stop, and what was written before. -/
  restarts : List (List Journal × Finset (String × Nat))

/-- What the file is read as, unless it cannot be read. -/
inductive File.Reads : File → Except ActivationError (Option Journal) → Prop
  | absent : File.Reads .absent (.ok none)
  | corrupt {path source : String} : File.Reads .corrupt (.error (.decode path source))
  | journal {j : Journal} : File.Reads (.journal j) (.ok (some j))
  | failed {file : File} {path source : String} : File.Reads file (.error (.read path source))

def World.write (w : World) (j : Journal) : World :=
  { w with file := .journal j, writes := j :: w.writes }

def World.restart (w : World) (expected : Finset (String × Nat)) : World :=
  { w with restarts := (w.writes, expected) :: w.restarts }

/-- The answers that a question may have. A new attempt has an identity of its own. -/
def answers : Answers Query.Answer World
  | .write j, w, (answer : Except ActivationError Unit), t =>
    (answer = .ok () ∧ t = w.write j) ∨ (∃ error, answer = .error error ∧ t = w)
  | .quarantine, w, (answer : Except ActivationError String), t =>
    (∃ path, answer = .ok path ∧ t = { w with file := .absent }) ∨
      (∃ error, answer = .error error ∧ t = w)
  | .restartServiceConditionally expected, w, _, t => t = w.restart expected
  | .read, w, (answer : Except ActivationError (Option Journal)), t => w.file.Reads answer ∧ t = w
  | .attemptId, w, (answer : String), t => (∀ j ∈ w.writes, j.attemptId ≠ answer) ∧ t = w
  | .lease, w, _, t | .now, w, _, t | .runningIdentity, w, _, t | .executableIdentity, w, _, t
  | .readRuntimeRecord, w, _, t | .lifecycleIsLive, w, _, t | .runtimeOwnerIsDisproven, w, _, t
  | .collectBlockers, w, _, t | .restartServiceQuiescent, w, _, t | .waitForApi, w, _, t => t = w

/-- The file is the newest journal that was written, or none. -/
structure World.Journaled (w : World) : Prop where
  written : ∃ records accepted, Written w.writes records accepted
  file : ∀ j, w.file = .journal j → w.writes.head? = some j
  schema : ∀ j ∈ w.writes, j.schemaVersion = journalSchemaVersion

/-! ## Rules -/

/-- In every state that a program passes `C` holds. -/
def Safe (C : World → Prop) {ε α : Type} (x : Activation ε α) (w : World) : Prop :=
  x.Holds answers C (fun _ _ => True) (fun _ _ => True) w

/-- A question that only tells something about the world. -/
def Silent (q : Query) : Prop := ∀ w a t, answers q w a t → t = w

theorem silent_now : Silent .now := fun _ _ _ h => h
theorem silent_lease : Silent .lease := fun _ _ _ h => h
theorem silent_read : Silent .read := fun _ _ _ h => h.2
theorem silent_attemptId : Silent .attemptId := fun _ _ _ h => h.2
theorem silent_runningIdentity : Silent .runningIdentity := fun _ _ _ h => h
theorem silent_executableIdentity : Silent .executableIdentity := fun _ _ _ h => h
theorem silent_readRuntimeRecord : Silent .readRuntimeRecord := fun _ _ _ h => h
theorem silent_lifecycleIsLive : Silent .lifecycleIsLive := fun _ _ _ h => h
theorem silent_runtimeOwnerIsDisproven : Silent .runtimeOwnerIsDisproven := fun _ _ _ h => h
theorem silent_collectBlockers : Silent .collectBlockers := fun _ _ _ h => h
theorem silent_restartServiceQuiescent : Silent .restartServiceQuiescent := fun _ _ _ h => h
theorem silent_waitForApi : Silent .waitForApi := fun _ _ _ h => h

section Rules

variable {C : World → Prop} {α β ε ε' : Type} {w : World} {x : Activation ε α}
  {f : α → Activation ε β}

theorem Safe.of_runs (h : Safe C x w) {e : Ending (Except ε α)} {t : World}
    (hruns : Runs answers x.run w e t) : C t :=
  (Prog.Holds.of_runs h hruns).1

theorem safe_pure {a : α} (h : C w) : Safe C (pure a : Activation ε α) w :=
  Act.holds_pure.2 ⟨h, trivial⟩

theorem safe_throw {e : ε} (h : C w) : Safe C (throw e : Activation ε α) w :=
  Act.holds_throw.2 ⟨h, trivial⟩

theorem safe_bind (h : Safe C x w) (hf : ∀ a t, C t → Safe C (f a) t) :
    Safe C (x >>= f) w :=
  Act.holds_bind.2 (Act.Holds.mono h (fun _ => id) (fun a t ht _ => hf a t ht)
    (fun _ _ _ => id))

theorem safe_result (h : Safe C x w) :
    Safe C (Act.result x : Activation ε' (Except ε α)) w :=
  Act.holds_result.2 h

theorem safe_mapError {g : ε → ε'} (h : Safe C x w) : Safe C (Act.mapError g x) w :=
  Act.holds_mapError.2 h

theorem safe_orInternal {x : Activation ActivationError α} (h : Safe C x w) :
    Safe C (orInternal x) w := safe_mapError h

theorem holds_ask {q : Query} (hq : Silent q) {P : q.Answer → World → Prop}
    {E : ε → World → Prop} (h : C w) (hP : ∀ a, answers q w a w → P a w) :
    (Act.ask q : Activation ε q.Answer).Holds answers C P E w := by
  refine Act.holds_ask.2 ⟨h, fun a t hanswer => ?_⟩
  obtain rfl := hq w a t hanswer
  exact ⟨h, hP a hanswer⟩

theorem holds_attempt {q : Query} (hq : Silent q) {g : q.Answer → Except ε α}
    {P : α → World → Prop} (h : C w) (hP : ∀ a v, answers q w a w → g a = .ok v → P v w) :
    (Act.attempt q g).Holds answers C P (fun _ _ => True) w := by
  refine Act.holds_attempt.2 ⟨h, fun a t hanswer => ?_⟩
  obtain rfl := hq w a t hanswer
  refine ⟨h, ?_⟩
  cases hg : g a with
  | error e => trivial
  | ok v => exact hP a v hanswer hg

/-- An answer that was computed beforehand. -/
theorem holds_except {r : Except ε α} {P : α → World → Prop} (h : C w)
    (hP : ∀ a, r = .ok a → P a w) :
    Act.Holds answers C P (fun _ _ => True) (liftM r : Activation ε α) w := by
  cases r with
  | error e => exact ⟨h, trivial⟩
  | ok a => exact ⟨h, hP a rfl⟩

end Rules

end Nakode.ActivationJournal

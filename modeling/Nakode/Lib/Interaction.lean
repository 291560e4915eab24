import Mathlib

/-!
# Programs that ask their surroundings

A program asks questions one after another and goes on with the answers (`Prog`). What a question
does to the world, and which answers it may have, is a relation (`Answers`); a run takes any of
them, and it may be cut before any question (`Runs`). So what a program leaves behind wherever it is
cut is a condition on every state it passes: `Holds` asks for one along all the runs from a state,
and for another where a run ends. The rules say what this means for each way a program is put
together, also for programs that may fail (`Act`).
-/

namespace Interaction

variable {Q : Type} {A : Q → Type} {σ α β ε ε' : Type}

/-- A program over questions and the types of their answers. -/
inductive Prog (A : Q → Type) (α : Type) where
  | done (a : α)
  | ask (q : Q) (next : A q → Prog A α)

namespace Prog

def bind : Prog A α → (α → Prog A β) → Prog A β
  | done a, f => f a
  | ask q next, f => ask q fun a => (next a).bind f

instance : Monad (Prog A) where
  pure := done
  bind := bind

/-- One question. -/
def query (q : Q) : Prog A (A q) := ask q done

end Prog

/-- Which answers a question may have in a state, and the states they lead to. -/
def Answers (A : Q → Type) (σ : Type) : Type := (q : Q) → σ → A q → σ → Prop

/-- How a run ends. -/
inductive Ending (α : Type) where
  | done (a : α)
  | cut

/-- From a state, a program runs to an ending in another. -/
inductive Runs (R : Answers A σ) : Prog A α → σ → Ending α → σ → Prop
  | done {a : α} {s : σ} : Runs R (.done a) s (.done a) s
  | cut {p : Prog A α} {s : σ} : Runs R p s .cut s
  | ask {q : Q} {next : A q → Prog A α} {a : A q} {s s' t : σ} {e : Ending α} :
      R q s a s' → Runs R (next a) s' e t → Runs R (.ask q next) s e t

/-- In every state that a program passes `C` holds, and `P` where it is done. -/
def Prog.Holds (R : Answers A σ) (C : σ → Prop) (P : α → σ → Prop) : Prog A α → σ → Prop
  | .done a, s => C s ∧ P a s
  | .ask q next, s => C s ∧ ∀ a t, R q s a t → (next a).Holds R C P t

namespace Prog

variable {R : Answers A σ} {C : σ → Prop} {P : α → σ → Prop} {p : Prog A α} {s t : σ}

theorem Holds.here (h : p.Holds R C P s) : C s := by
  cases p with
  | done a => exact h.1
  | ask q next => exact h.1

/-- What holds along a program holds wherever a run of it ends. -/
theorem Holds.of_runs (h : p.Holds R C P s) {e : Ending α} (hruns : Runs R p s e t) :
    C t ∧ ∀ a, e = .done a → P a t := by
  induction hruns with
  | done =>
    refine ⟨h.1, ?_⟩
    rintro a ⟨⟩
    exact h.2
  | cut => exact ⟨h.here, by rintro a ⟨⟩⟩
  | ask hanswer _ ih => exact ih (h.2 _ _ hanswer)

theorem Holds.mono (h : p.Holds R C P s) {C' : σ → Prop} {P' : α → σ → Prop}
    (hC : ∀ s, C s → C' s) (hP : ∀ a s, C s → P a s → P' a s) : p.Holds R C' P' s := by
  induction p generalizing s with
  | done a => exact ⟨hC s h.1, hP a s h.1 h.2⟩
  | ask q next ih => exact ⟨hC s h.1, fun a t ht => ih a (h.2 a t ht)⟩

theorem holds_pure {a : α} : (pure a : Prog A α).Holds R C P s ↔ C s ∧ P a s := Iff.rfl

theorem holds_query {q : Q} {P : A q → σ → Prop} :
    (query q : Prog A (A q)).Holds R C P s ↔ C s ∧ ∀ a t, R q s a t → C t ∧ P a t := Iff.rfl

/-- The second part holds in every state in which the first is done. -/
theorem holds_bind {f : α → Prog A β} {P : β → σ → Prop} :
    (p >>= f).Holds R C P s ↔ p.Holds R C (fun a t => (f a).Holds R C P t) s := by
  change (p.bind f).Holds R C P s ↔ _
  induction p generalizing s with
  | done a => exact ⟨fun h => ⟨h.here, h⟩, And.right⟩
  | ask q next ih => exact and_congr_right' (forall₃_congr fun a t _ => ih a)

end Prog

/-! ## Programs that may fail -/

/-- A program that ends with a value or an error. -/
abbrev Act (A : Q → Type) (ε α : Type) : Type := ExceptT ε (Prog A) α

namespace Act

/-- A question that has an answer. -/
def ask (q : Q) : Act A ε (A q) := ExceptT.lift (Prog.query q)

/-- A question whose answer may be an error. -/
def attempt (q : Q) (f : A q → Except ε α) : Act A ε α :=
  ExceptT.mk (Prog.query q >>= fun a => pure (f a))

/-- The error is renamed. -/
def mapError (f : ε → ε') (x : Act A ε α) : Act A ε' α :=
  ExceptT.mk (x.run >>= fun r => pure (r.mapError f))

/-- The result of a program, be it an error. -/
def result (x : Act A ε α) : Act A ε' (Except ε α) := ExceptT.lift x.run

/-- In every state that a program passes `C` holds, `P` where it is done, `E` where it failed. -/
def Holds (R : Answers A σ) (C : σ → Prop) (P : α → σ → Prop) (E : ε → σ → Prop)
    (x : Act A ε α) (s : σ) : Prop :=
  x.run.Holds R C (fun r t => match r with | .ok a => P a t | .error e => E e t) s

variable {R : Answers A σ} {C : σ → Prop} {P : α → σ → Prop} {E : ε → σ → Prop} {x : Act A ε α}
  {s : σ}

theorem Holds.mono (h : x.Holds R C P E s) {C' : σ → Prop} {P' : α → σ → Prop}
    {E' : ε → σ → Prop} (hC : ∀ s, C s → C' s) (hP : ∀ a s, C s → P a s → P' a s)
    (hE : ∀ e s, C s → E e s → E' e s) : x.Holds R C' P' E' s := by
  refine Prog.Holds.mono h hC ?_
  intro r t ht hr
  cases r with
  | ok a => exact hP a t ht hr
  | error e => exact hE e t ht hr

theorem holds_pure {a : α} : (pure a : Act A ε α).Holds R C P E s ↔ C s ∧ P a s := Iff.rfl

theorem holds_throw {e : ε} : (throw e : Act A ε α).Holds R C P E s ↔ C s ∧ E e s := Iff.rfl

theorem holds_bind {f : α → Act A ε β} {P : β → σ → Prop} :
    (x >>= f).Holds R C P E s ↔ x.Holds R C (fun a t => (f a).Holds R C P E t) E s := by
  change (Prog.bind x.run _).Holds R C _ s ↔ _
  refine Prog.holds_bind.trans ?_
  have hsame : ∀ r t, C t →
      ((ExceptT.bindCont f r).Holds R C
        (fun r t => match r with | .ok a => P a t | .error e => E e t) t ↔
      match r with | .ok a => (f a).Holds R C P E t | .error e => E e t) := by
    intro r t ht
    cases r with
    | ok a => exact Iff.rfl
    | error e => exact ⟨And.right, fun h => ⟨ht, h⟩⟩
  exact ⟨fun h => Prog.Holds.mono h (fun _ => id) fun r t ht => (hsame r t ht).1,
    fun h => Prog.Holds.mono h (fun _ => id) fun r t ht => (hsame r t ht).2⟩

theorem holds_ask {q : Q} {P : A q → σ → Prop} :
    (ask q : Act A ε (A q)).Holds R C P E s ↔ C s ∧ ∀ a t, R q s a t → C t ∧ P a t := Iff.rfl

theorem holds_attempt {q : Q} {f : A q → Except ε α} :
    (attempt q f : Act A ε α).Holds R C P E s ↔
      C s ∧ ∀ a t, R q s a t → C t ∧ match f a with | .ok a => P a t | .error e => E e t := Iff.rfl

theorem holds_result {P : Except ε α → σ → Prop} {E : ε' → σ → Prop} :
    (result x : Act A ε' (Except ε α)).Holds R C P E s ↔
      x.Holds R C (fun a t => P (.ok a) t) (fun e t => P (.error e) t) s := by
  change (Prog.bind x.run _).Holds R C _ s ↔ _
  refine Prog.holds_bind.trans ?_
  have hsame : ∀ r t, C t → (C t ∧ P r t ↔
      match r with | .ok a => P (.ok a) t | .error e => P (.error e) t) := by
    intro r t ht
    cases r with
    | ok a => exact and_iff_right ht
    | error e => exact and_iff_right ht
  exact ⟨fun h => Prog.Holds.mono h (fun _ => id) fun r t ht => (hsame r t ht).1,
    fun h => Prog.Holds.mono h (fun _ => id) fun r t ht => (hsame r t ht).2⟩

theorem holds_mapError {f : ε → ε'} {E : ε' → σ → Prop} :
    (mapError f x).Holds R C P E s ↔ x.Holds R C P (fun e t => E (f e) t) s := by
  change (Prog.bind x.run _).Holds R C _ s ↔ _
  refine Prog.holds_bind.trans ?_
  have hsame : ∀ r t, C t →
      (C t ∧ (match Except.mapError f r with | .ok a => P a t | .error e => E e t) ↔
        match r with | .ok a => P a t | .error e => E (f e) t) := by
    intro r t ht
    cases r with
    | ok a => exact and_iff_right ht
    | error e => exact and_iff_right ht
  exact ⟨fun h => Prog.Holds.mono h (fun _ => id) fun r t ht => (hsame r t ht).1,
    fun h => Prog.Holds.mono h (fun _ => id) fun r t ht => (hsame r t ht).2⟩

end Act

end Interaction

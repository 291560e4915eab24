import Mathlib

/-!
# Computations that an environment answers

A computation (`Proc`) works on a state and takes, at the points where it waits, the next reply of
its environment. It ends with a value or stops with an error. When there is no reply left it stops
too, with an error for that, so a list of replies is a run up to some point, and what holds for all
lists of replies holds wherever a run is broken off. `Triple` is partial correctness, with a
condition for each way to end; its rules follow the forms of computations.
-/

namespace Process

/-- A computation with values in `α`, on states `S`, with errors `E` and replies `A`. -/
def Proc (A S E α : Type) : Type := S → List A → Except E α × S × List A

variable {A S E α β : Type}

namespace Proc

/-- The computation goes on with the value of another one, unless that stops. -/
def andThen (m : Proc A S E α) (f : α → Proc A S E β) : Proc A S E β := fun s replies =>
  match m s replies with
  | (.ok a, s', rest) => f a s' rest
  | (.error e, s', rest) => (.error e, s', rest)

instance : Monad (Proc A S E) where
  pure a := fun s replies => (.ok a, s, replies)
  bind := andThen

/-- The state. -/
def get : Proc A S E S := fun s replies => (.ok s, s, replies)

def modify (f : S → S) : Proc A S E Unit := fun s replies => (.ok (), f s, replies)

def throw (e : E) : Proc A S E α := fun s replies => (.error e, s, replies)

/-- The next reply. -/
def next (e : E) : Proc A S E A
  | s, [] => (.error e, s, [])
  | s, a :: rest => (.ok a, s, rest)

/-- The value of a computation, or the error with which it stopped. -/
def attempt (m : Proc A S E α) : Proc A S E (Except E α) := fun s replies =>
  match m s replies with
  | (result, s', rest) => (.ok result, s', rest)

def when (c : Prop) [Decidable c] (m : Proc A S E Unit) : Proc A S E Unit :=
  if c then m else pure ()

/-- A computation for each element of a list, in order. -/
def each (f : α → Proc A S E Unit) : List α → Proc A S E Unit
  | [] => pure ()
  | a :: rest => f a >>= fun _ => each f rest

/-- At most `n` rounds of a loop. -/
def rounds (e : E) (body : β → Proc A S E (β ⊕ α)) : Nat → β → Proc A S E α
  | 0, _ => throw e
  | n + 1, b => body b >>= fun
    | .inl b' => rounds e body n b'
    | .inr a => pure a

/-- A loop whose rounds each take a reply. There are no more rounds than replies, and one more in
which the replies are missed. -/
def loop (e : E) (body : β → Proc A S E (β ⊕ α)) (b : β) : Proc A S E α := fun s replies =>
  rounds e body (replies.length + 1) b s replies

end Proc

open Proc

/-- Started in a state with `P`, the computation ends in one with `Q` for its value, or in one with
`F` for its error. -/
def Triple (P : S → Prop) (m : Proc A S E α) (Q : α → S → Prop) (F : E → S → Prop) : Prop :=
  ∀ s replies, P s → match m s replies with
    | (.ok a, s', _) => Q a s'
    | (.error e, s', _) => F e s'

namespace Triple

variable {P P' : S → Prop} {Q Q' : α → S → Prop} {F F' G : E → S → Prop} {m : Proc A S E α}

protected theorem pure {a : α} (h : ∀ s, P s → Q a s) : Triple P (pure a : Proc A S E α) Q F :=
  fun s _ hs => h s hs

protected theorem bind {f : α → Proc A S E β} {R : β → S → Prop} (hm : Triple P m Q F)
    (hf : ∀ a, Triple (Q a) (f a) R F) : Triple P (m >>= f) R F := by
  intro s replies hs
  have h := hm s replies hs
  change match andThen m f s replies with | (.ok a, s', _) => R a s' | (.error e, s', _) => F e s'
  unfold andThen
  split at h
  · next a s' rest _ => exact hf a s' rest h
  · exact h

theorem mono (h : Triple P m Q F) (hP : ∀ s, P' s → P s) (hQ : ∀ a s, Q a s → Q' a s)
    (hF : ∀ e s, F e s → F' e s) : Triple P' m Q' F' := by
  intro s replies hs
  have h := h s replies (hP s hs)
  split at h
  · exact hQ _ _ h
  · exact hF _ _ h

theorem pre (h : Triple P m Q F) (hP : ∀ s, P' s → P s) : Triple P' m Q F :=
  h.mono hP (fun _ _ => id) fun _ _ => id

theorem post (h : Triple P m Q F) (hQ : ∀ a s, Q a s → Q' a s) : Triple P m Q' F :=
  h.mono (fun _ => id) hQ fun _ _ => id

/-- What does not speak of the state can be assumed. -/
theorem assume {p : Prop} (h : p → Triple P m Q F) : Triple (fun s => p ∧ P s) m Q F :=
  fun s replies hs => h hs.1 s replies hs.2

/-- What the start state has some of can be assumed of one. -/
theorem exists_ {γ : Type} {P : γ → S → Prop} (h : ∀ c, Triple (P c) m Q F) :
    Triple (fun s => ∃ c, P c s) m Q F :=
  fun s replies ⟨c, hs⟩ => h c s replies hs

/-- The start state has a name. -/
theorem named (h : ∀ s₀, P s₀ → Triple (· = s₀) m Q F) : Triple P m Q F :=
  fun s replies hs => h s hs s replies rfl

/-- Two conditions can be followed apart. -/
protected theorem and {P₂ : S → Prop} {Q₂ : α → S → Prop} {F₂ : E → S → Prop} (h : Triple P m Q F)
    (h₂ : Triple P₂ m Q₂ F₂) :
    Triple (fun s => P s ∧ P₂ s) m (fun a s => Q a s ∧ Q₂ a s) (fun e s => F e s ∧ F₂ e s) := by
  intro s replies hs
  have h := h s replies hs.1
  have h₂ := h₂ s replies hs.2
  split at h
  · next heq =>
    rw [heq] at h₂
    exact ⟨h, h₂⟩
  · next heq =>
    rw [heq] at h₂
    exact ⟨h, h₂⟩

protected theorem get {Q : S → S → Prop} (h : ∀ s, P s → Q s s) :
    Triple P (Proc.get : Proc A S E S) Q F :=
  fun s _ hs => h s hs

protected theorem modify {f : S → S} {Q : Unit → S → Prop} (h : ∀ s, P s → Q () (f s)) :
    Triple P (Proc.modify f : Proc A S E Unit) Q F :=
  fun s _ hs => h s hs

protected theorem throw {e : E} (h : ∀ s, P s → F e s) :
    Triple P (Proc.throw e : Proc A S E α) Q F :=
  fun s _ hs => h s hs

protected theorem next {e : E} {Q : A → S → Prop} (hF : ∀ s, P s → F e s)
    (hQ : ∀ a s, P s → Q a s) : Triple P (Proc.next e) Q F := by
  intro s replies hs
  cases replies with
  | nil => exact hF s hs
  | cons a rest => exact hQ a s hs

protected theorem attempt (hm : Triple P m Q G) {R : Except E α → S → Prop}
    (hok : ∀ a s, Q a s → R (.ok a) s) (herror : ∀ e s, G e s → R (.error e) s) :
    Triple P (Proc.attempt m) R F := by
  intro s replies hs
  have h := hm s replies hs
  change match m s replies with | (result, s', _) => R result s'
  split at h
  · next heq =>
    rw [heq]
    exact hok _ _ h
  · next heq =>
    rw [heq]
    exact herror _ _ h

protected theorem ite {c : Prop} [Decidable c] {m₁ m₂ : Proc A S E α}
    (h₁ : c → Triple P m₁ Q F) (h₂ : ¬c → Triple P m₂ Q F) :
    Triple P (if c then m₁ else m₂) Q F := by
  split
  · next h => exact h₁ h
  · next h => exact h₂ h

protected theorem when {c : Prop} [Decidable c] {m : Proc A S E Unit} {Q : Unit → S → Prop}
    (h₁ : c → Triple P m Q F) (h₂ : ¬c → ∀ s, P s → Q () s) : Triple P (Proc.when c m) Q F :=
  Triple.ite h₁ fun hc => .pure (h₂ hc)

/-- The condition speaks of what is still to be done. -/
protected theorem each {I : List α → S → Prop} {f : α → Proc A S E Unit}
    (h : ∀ a rest, Triple (I (a :: rest)) (f a) (fun _ => I rest) F) (items : List α) :
    Triple (I items) (Proc.each f items) (fun _ => I []) F := by
  induction items with
  | nil => exact .pure fun _ hs => hs
  | cons a rest ih => exact .bind (h a rest) fun _ => ih

protected theorem rounds {e : E} {body : β → Proc A S E (β ⊕ α)} {I : β → S → Prop}
    (hlost : ∀ b s, I b s → F e s)
    (hbody : ∀ b, Triple (I b) (body b) (fun r s => Sum.elim (I · s) (Q · s) r) F) (n : Nat)
    (b : β) : Triple (I b) (Proc.rounds e body n b) Q F := by
  induction n generalizing b with
  | zero => exact .throw fun s hs => hlost b s hs
  | succ n ih =>
    refine .bind (hbody b) fun r => ?_
    cases r with
    | inl b' => exact ih b'
    | inr a => exact .pure fun _ hs => hs

/-- The invariant of a loop holds whenever a round begins. -/
protected theorem loop {e : E} {body : β → Proc A S E (β ⊕ α)} {I : β → S → Prop}
    (hlost : ∀ b s, I b s → F e s)
    (hbody : ∀ b, Triple (I b) (body b) (fun r s => Sum.elim (I · s) (Q · s) r) F) (b : β) :
    Triple (I b) (Proc.loop e body b) Q F :=
  fun s replies hs => Triple.rounds hlost hbody (replies.length + 1) b s replies hs

end Triple

end Process

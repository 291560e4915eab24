import Nakode.Activation.Journal
import Nakode.Lib.Retention

/-!
# The journals of an attempt

Each journal that is written starts an attempt or goes on with the one before: it has the next
revision, at most one more record, and a key that is new or a key that is refused
(`Written`). What the journal keeps of an attempt are windows of the last records and of the last
keys (`Written.history`, `Written.keys`), so that a key is accepted again only after
`idempotencyLimit` others, and the refusals it keeps belong each to one of its keys.
-/

namespace Nakode.ActivationJournal

open Retention (Spaced window push)

/-! ## One write -/

/-- The number of the next record. -/
def nextSequence (history : List CheckRecord) : Nat :=
  history.getLast?.elim 1 fun entry => saturatingAdd entry.sequence 1

/-- The refusals that are left once a key was added. -/
def kept (keys : List String) (rejections : List IdempotencyRejection) :
    List IdempotencyRejection :=
  if idempotencyLimit < keys.length then
    rejections.filter fun rejection => (trim idempotencyLimit keys).contains rejection.key
  else rejections

/-- The history is left, or a record is added to it; `records` are all of them, the newest first. -/
inductive Recorded : List CheckRecord → List CheckRecord → List CheckRecord → List CheckRecord → Prop
  | same {history records : List CheckRecord} : Recorded history records history records
  | added {history records : List CheckRecord} {entry : CheckRecord} :
      entry.sequence = nextSequence history →
      Recorded history records (trim historyLimit (history ++ [entry])) (entry :: records)

/-- The keys with their refusals. -/
structure Keys where
  keys : List String
  rejections : List IdempotencyRejection

def Journal.keys (journal : Journal) : Keys :=
  ⟨journal.idempotencyKeys, journal.idempotencyRejections⟩

/-- A new key is added. -/
def Keys.add (ks : Keys) (key : String) : Keys :=
  ⟨trim idempotencyLimit (ks.keys ++ [key]), kept (ks.keys ++ [key]) ks.rejections⟩

/-- A refusal is added. -/
def Keys.reject (ks : Keys) (rejection : IdempotencyRejection) : Keys :=
  ⟨ks.keys, ks.rejections ++ [rejection]⟩

/-- What a write does to the keys; `accepted` are all of them, the newest first. -/
inductive Keyed : Keys → List String → Keys → List String → Prop
  | same {ks : Keys} {accepted : List String} : Keyed ks accepted ks accepted
  | accepted {ks : Keys} {accepted : List String} {key : String} :
      key ≠ "" → key ∉ ks.keys → Keyed ks accepted (ks.add key) (key :: accepted)
  | refused {ks : Keys} {accepted : List String} {rejection : IdempotencyRejection} :
      rejection.key ≠ "" → rejection.key ∉ ks.keys →
      Keyed ks accepted ((ks.add rejection.key).reject rejection) (rejection.key :: accepted)
  | settled {ks : Keys} {accepted : List String} {rejection : IdempotencyRejection} :
      rejection.key ∈ ks.keys → (∀ r ∈ ks.rejections, r.key ≠ rejection.key) →
      Keyed ks accepted (ks.reject rejection) accepted

/-- The journal that goes on with an attempt, with its records and its keys. -/
structure Follows (p : Journal) (records : List CheckRecord) (accepted : List String)
    (j : Journal) (records' : List CheckRecord) (accepted' : List String) : Prop where
  attempt : j.attemptId = p.attemptId
  revision : j.revision = saturatingAdd p.revision 1
  history : Recorded p.history records j.history records'
  keys : Keyed p.keys accepted j.keys accepted'

/-- The journal that starts an attempt. -/
structure Starts (j : Journal) (records : List CheckRecord) : Prop where
  revision : j.revision = 1
  history : j.history = records
  records : records = [] ∨ ∃ entry, entry.sequence = 1 ∧ records = [entry]
  keys : j.keys = ⟨[], []⟩

/-- The journals that were written, the newest first, with the records and the keys of the newest
attempt. -/
inductive Written : List Journal → List CheckRecord → List String → Prop
  | nil : Written [] [] []
  | start {older : List Journal} {records records' : List CheckRecord} {accepted : List String}
      {j : Journal} : Written older records accepted →
      (∀ p ∈ older, p.attemptId ≠ j.attemptId) → Starts j records' →
      Written (j :: older) records' []
  | next {older : List Journal} {records records' : List CheckRecord}
      {accepted accepted' : List String} {p j : Journal} :
      Written (p :: older) records accepted →
      Follows p records accepted j records' accepted' →
      Written (j :: p :: older) records' accepted'

/-! ## Windows -/

theorem trim_append_singleton {α : Type} {limit : Nat} {xs : List α} (h : xs.length ≤ limit)
    (x : α) : trim limit (xs ++ [x]) = push limit xs x := by
  rw [Retention.push_eq_drop h, trim]
  split
  · rfl
  · next hroom => rw [Nat.sub_eq_zero_of_le (by omega), List.drop_zero]

theorem trim_window {α : Type} {limit : Nat} (hlimit : 0 < limit) (xs : List α) (x : α) :
    trim limit (window limit xs ++ [x]) = window limit (x :: xs) := by
  have hlen : (window limit xs).length ≤ limit := by
    rw [Retention.length_window]
    exact Nat.min_le_left _ _
  rw [trim_append_singleton hlen, Retention.window_cons hlimit]

theorem getLast?_window {α : Type} {limit : Nat} (hlimit : 0 < limit) (xs : List α) :
    (window limit xs).getLast? = xs.head? := by
  obtain ⟨n, rfl⟩ : ∃ n, limit = n + 1 := ⟨limit - 1, by omega⟩
  cases xs with
  | nil => rfl
  | cons x xs => rw [window, List.getLast?_reverse, List.take_succ_cons, List.head?_cons, List.head?_cons]

/-- The records are numbered from one on. -/
def Numbered : List CheckRecord → Prop
  | [] => True
  | entry :: older =>
    entry.sequence = (older.head?.elim 1 fun last => saturatingAdd last.sequence 1) ∧ Numbered older

/-- Each refusal belongs to one of the keys, and each key has one at most. -/
structure Keys.Sound (ks : Keys) : Prop where
  named : "" ∉ ks.keys
  nodup : (ks.rejections.map (·.key)).Nodup
  retained : ∀ rejection ∈ ks.rejections, rejection.key ∈ ks.keys

/-- What the newest journal shows of its attempt. -/
structure Shows (j : Journal) (records : List CheckRecord) (accepted : List String) : Prop where
  history : j.history = window historyLimit records
  numbered : Numbered records
  keys : j.idempotencyKeys = window idempotencyLimit accepted
  spaced : Spaced idempotencyLimit accepted
  sound : j.keys.Sound

namespace Keys.Sound

variable {ks : Keys} {key : String}

theorem mem_add (hlen : ks.keys.length ≤ idempotencyLimit) : key ∈ (ks.add key).keys := by
  rw [Keys.add, trim_append_singleton hlen]
  exact Retention.mem_push (by decide) _ _

theorem add (h : ks.Sound) (hkey : key ≠ "") : (ks.add key).Sound := by
  have hsub : (kept (ks.keys ++ [key]) ks.rejections).Sublist ks.rejections := by
    unfold kept
    split
    · exact List.filter_sublist
    · exact List.Sublist.refl _
  refine ⟨fun hmem => ?_, h.nodup.sublist (hsub.map _), fun rejection hrejection => ?_⟩
  · have hmem : "" ∈ ks.keys ++ [key] := by
      simp only [Keys.add, trim] at hmem
      split at hmem
      · exact List.mem_of_mem_drop hmem
      · exact hmem
    rcases List.mem_append.1 hmem with hmem | hmem
    · exact h.named hmem
    · exact hkey (List.mem_singleton.1 hmem).symm
  · simp only [Keys.add, kept] at hrejection ⊢
    split at hrejection
    · exact List.contains_iff_mem.1 (List.mem_filter.1 hrejection).2
    · next hroom =>
      rw [trim, if_neg hroom]
      exact List.mem_append_left _ (h.retained rejection hrejection)

theorem reject {rejection : IdempotencyRejection} (h : ks.Sound) (hkey : rejection.key ∈ ks.keys)
    (hnone : ∀ r ∈ ks.rejections, r.key ≠ rejection.key) : (ks.reject rejection).Sound := by
  refine ⟨h.named, ?_, fun r hr => ?_⟩
  · rw [Keys.reject, List.map_append, List.nodup_append]
    refine ⟨h.nodup, by simp, fun k hk k' hk' => ?_⟩
    obtain ⟨r, hr, rfl⟩ := List.mem_map.1 hk
    rw [List.map_singleton, List.mem_singleton] at hk'
    subst hk'
    exact hnone r hr
  · rcases List.mem_append.1 hr with hr | hr
    · exact h.retained r hr
    · rw [List.mem_singleton.1 hr]
      exact hkey

/-- A refusal of a key that is not there is among those that are left of no key. -/
theorem notMem_add {rejection : IdempotencyRejection} (h : ks.Sound) (hnew : key ∉ ks.keys)
    (hmem : rejection ∈ (ks.add key).rejections) : rejection.key ≠ key := by
  have hold : rejection ∈ ks.rejections := by
    simp only [Keys.add, kept] at hmem
    split at hmem
    · exact List.mem_of_mem_filter hmem
    · exact hmem
  rintro rfl
  exact hnew (h.retained rejection hold)

end Keys.Sound

namespace Shows

variable {p j : Journal} {records records' : List CheckRecord} {accepted accepted' : List String}

theorem of_starts (h : Starts j records) : Shows j records [] := by
  have hkeys : j.idempotencyKeys = [] := congrArg Keys.keys h.keys
  refine ⟨?_, ?_, hkeys.trans rfl, trivial, ?_⟩
  · rw [h.history]
    rcases h.records with rfl | ⟨entry, -, rfl⟩
    · rfl
    · rfl
  · rcases h.records with rfl | ⟨entry, hentry, rfl⟩
    · trivial
    · exact ⟨hentry, trivial⟩
  · rw [h.keys]
    exact ⟨by simp, by simp, by simp⟩

theorem next (h : Shows p records accepted)
    (hfollows : Follows p records accepted j records' accepted') : Shows j records' accepted' := by
  obtain ⟨-, -, hhistory, hkeys⟩ := hfollows
  obtain ⟨hshown, hnumbered⟩ : j.history = window historyLimit records' ∧ Numbered records' := by
    have hp := h.history
    generalize j.history = history' at hhistory ⊢
    generalize p.history = history at hhistory hp
    cases hhistory with
    | same => exact ⟨hp, h.numbered⟩
    | added hentry =>
      subst hp
      refine ⟨trim_window (by decide) _ _, ?_, h.numbered⟩
      rw [hentry, nextSequence, getLast?_window (by decide)]
  have hlen : p.keys.keys.length ≤ idempotencyLimit := by
    rw [Journal.keys, h.keys, Retention.length_window]
    exact Nat.min_le_left _ _
  obtain ⟨hkept, hspaced, hsound⟩ : j.keys.keys = window idempotencyLimit accepted' ∧
      Spaced idempotencyLimit accepted' ∧ j.keys.Sound := by
    have hp : p.keys.keys = window idempotencyLimit accepted := h.keys
    have hsound := h.sound
    have hspaced := h.spaced
    generalize j.keys = keys' at hkeys ⊢
    generalize p.keys = keys at hkeys hp hsound hlen
    have hadd : ∀ key, (keys.add key).keys = window idempotencyLimit (key :: accepted) := by
      intro key
      rw [Keys.add, hp]
      exact trim_window (by decide) _ _
    have hfresh : ∀ key, key ∉ keys.keys → Spaced idempotencyLimit (key :: accepted) := by
      intro key hnew
      rw [hp, Retention.mem_window] at hnew
      exact ⟨hnew, hspaced⟩
    cases hkeys with
    | same => exact ⟨hp, hspaced, hsound⟩
    | accepted hne hnew => exact ⟨hadd _, hfresh _ hnew, hsound.add hne⟩
    | refused hne hnew =>
      exact ⟨hadd _, hfresh _ hnew, (hsound.add hne).reject (Keys.Sound.mem_add hlen)
        fun r hr => hsound.notMem_add hnew hr⟩
    | settled hkey hnone => exact ⟨hp, hspaced, hsound.reject hkey hnone⟩
  exact ⟨hshown, hnumbered, hkept, hspaced, hsound⟩

end Shows

namespace Written

variable {older : List Journal} {j : Journal} {records : List CheckRecord}
  {accepted : List String}

theorem shows (h : Written (j :: older) records accepted) : Shows j records accepted := by
  generalize hjournals : j :: older = journals at h
  induction h generalizing j older with
  | nil => cases hjournals
  | start _ _ hstarts =>
    cases hjournals
    exact .of_starts hstarts
  | next _ hfollows ih =>
    cases hjournals
    exact (ih rfl).next hfollows

/-- Within an attempt the revision grows with each write, up to the largest number. -/
theorem revision_lt (h : Written (j :: older) records accepted) {p : Journal} (hp : p ∈ older)
    (hattempt : p.attemptId = j.attemptId) : p.revision < j.revision ∨ j.revision = u64Max := by
  generalize hjournals : j :: older = journals at h
  induction h generalizing j older with
  | nil => cases hjournals
  | start _ hnew _ =>
    cases hjournals
    exact absurd hattempt (hnew p hp)
  | next _ hfollows ih =>
    cases hjournals
    have hrevision := hfollows.revision
    simp only [saturatingAdd] at hrevision
    rcases List.mem_cons.1 hp with rfl | hp
    · omega
    · have hlt := ih hp (hattempt.trans hfollows.attempt) rfl
      omega

end Written

end Nakode.ActivationJournal

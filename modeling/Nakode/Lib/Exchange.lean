import Mathlib

/-!
# Requests that are answered at once

In a sequence of items some ask for a number of replies, by their keys, and some are replies. The
replies to an item stand directly behind it, one for each key and in the same order, and no reply
stands anywhere else (`Answered`). Reading the sequence from the left with the keys that are still
waited for (`waiting?`) decides this (`answered_iff`), and says of a sequence that stops in the
middle which replies are missing: appending them answers it (`waiting?_replies`), and whatever does
not begin with a reply can be cut off behind (`waiting?_of_append`).
-/

namespace Exchange

variable {α κ : Type}

/-- What an item does in an exchange. -/
inductive Role (κ : Type) where
  | plain
  | ask (keys : List κ)
  | reply (key : κ)
  deriving DecidableEq

/-- The keys that an item asks for. -/
def Role.keys : Role κ → List κ
  | .ask keys => keys
  | _ => []

/-- The key that an item replies to. -/
def Role.key? : Role κ → Option κ
  | .reply key => some key
  | _ => none

variable (role : α → Role κ)

/-- Every item that asks is directly followed by a reply to each of its keys, and there are no other
replies. -/
inductive Answered : List α → Prop
  | nil : Answered []
  | plain {item : α} {rest : List α} : role item = .plain → Answered rest → Answered (item :: rest)
  | ask {item : α} {keys : List κ} {replies rest : List α} : role item = .ask keys →
      replies.map role = keys.map .reply → Answered rest → Answered (item :: (replies ++ rest))

variable [DecidableEq κ]

/-- The keys that are waited for after one more item, if it may stand there. -/
def receive (waiting : List κ) (item : α) : Option (List κ) :=
  match role item, waiting with
  | .plain, [] => some []
  | .ask keys, [] => some keys
  | .reply key, first :: rest => if key = first then some rest else none
  | _, _ => none

/-- The keys that are waited for at the end, if every item may stand where it does. -/
def waiting? (items : List α) : Option (List κ) := items.foldlM (receive role) []

variable {role}

theorem receive_plain {item : α} (h : role item = .plain) : receive role [] item = some [] := by
  simp [receive, h]

theorem receive_ask {item : α} {keys : List κ} (h : role item = .ask keys) :
    receive role [] item = some keys := by
  simp [receive, h]

theorem receive_reply {item : α} {key : κ} {keys : List κ} (h : role item = .reply key) :
    receive role (key :: keys) item = some keys := by
  simp [receive, h]

/-- What is waited for is what was asked for and not replied to, in order. -/
theorem receive_keys {item : α} {waiting keys : List κ} (h : receive role waiting item = some keys) :
    waiting ++ (role item).keys = (role item).key?.toList ++ keys := by
  unfold receive at h
  split at h
  · next hrole =>
    rw [hrole]
    cases h
    rfl
  · next hrole =>
    rw [hrole]
    cases h
    simp [Role.keys, Role.key?]
  · next hrole =>
    rw [hrole]
    split at h
    · next hkey =>
      cases h
      simp [Role.keys, Role.key?, hkey]
    · cases h
  · cases h

/-- An item that is not a reply stands only where nothing is waited for. -/
theorem eq_nil_of_receive {item : α} {waiting keys : List κ} (hrole : ∀ key, role item ≠ .reply key)
    (h : receive role waiting item = some keys) : waiting = [] := by
  unfold receive at h
  split at h
  · rfl
  · rfl
  · next key _ _ hreply => exact absurd hreply (hrole key)
  · cases h

theorem waiting?_append {items more : List α} {waiting : List κ}
    (h : waiting? role items = some waiting) :
    waiting? role (items ++ more) = more.foldlM (receive role) waiting := by
  rw [waiting?] at h
  rw [waiting?, List.foldlM_append, h]
  rfl

@[simp] theorem waiting?_nil : waiting? role ([] : List α) = some ([] : List κ) := rfl

theorem foldlM_keys {items : List α} {waiting keys : List κ}
    (h : items.foldlM (receive role) waiting = some keys) :
    waiting ++ items.flatMap (fun item => (role item).keys)
      = items.filterMap (fun item => (role item).key?) ++ keys := by
  induction items generalizing waiting with
  | nil =>
    cases h
    simp
  | cons item items ih =>
    rw [List.foldlM_cons] at h
    obtain ⟨after, hitem, hrest⟩ := Option.bind_eq_some_iff.1 h
    rw [List.flatMap_cons, ← List.append_assoc, receive_keys hitem, List.append_assoc, ih hrest,
      List.filterMap_cons]
    cases (role item).key? <;> simp

/-- The keys that were asked for are those replied to and then those waited for. -/
theorem waiting?_keys {items : List α} {keys : List κ} (h : waiting? role items = some keys) :
    items.flatMap (fun item => (role item).keys)
      = items.filterMap (fun item => (role item).key?) ++ keys :=
  foldlM_keys h

theorem foldlM_replies {replies : List α} {keys : List κ}
    (h : replies.map role = keys.map .reply) (rest : List κ) :
    replies.foldlM (receive role) (keys ++ rest) = some rest := by
  induction replies generalizing keys with
  | nil =>
    obtain rfl := List.map_eq_nil_iff.1 h.symm
    rfl
  | cons item replies ih =>
    cases keys with
    | nil => cases h
    | cons key keys =>
      obtain ⟨hitem, hreplies⟩ := List.cons.inj h
      rw [List.cons_append, List.foldlM_cons, receive_reply hitem]
      exact ih hreplies

/-- The missing replies, or the first of them, are appended. -/
theorem waiting?_replies {items replies : List α} {keys rest : List κ}
    (h : waiting? role items = some (keys ++ rest)) (hreplies : replies.map role = keys.map .reply) :
    waiting? role (items ++ replies) = some rest := by
  rw [waiting?_append h]
  exact foldlM_replies hreplies rest

theorem waiting?_concat {items : List α} {item : α} {waiting keys : List κ}
    (h : waiting? role items = some waiting) (hitem : receive role waiting item = some keys) :
    waiting? role (items ++ [item]) = some keys := by
  rw [waiting?_append h, List.foldlM_cons, hitem]
  rfl

/-- Before an item that is not a reply nothing is waited for. -/
theorem waiting?_of_append {front back : List α} {item : α} {waiting : List κ}
    (hrole : ∀ key, role item ≠ .reply key)
    (h : waiting? role (front ++ item :: back) = some waiting) :
    waiting? role front = some [] ∧ waiting? role (item :: back) = some waiting := by
  rw [waiting?, List.foldlM_append] at h
  obtain ⟨before, hfront, hback⟩ := Option.bind_eq_some_iff.1 h
  rw [List.foldlM_cons] at hback
  obtain ⟨after, hitem, -⟩ := Option.bind_eq_some_iff.1 hback
  obtain rfl := eq_nil_of_receive hrole hitem
  exact ⟨hfront, by rwa [waiting?, List.foldlM_cons]⟩

/-- Reading from the left finds the replies that stand where they should. -/
theorem foldlM_eq_some {items : List α} {keys : List κ}
    (h : items.foldlM (receive role) keys = some []) :
    ∃ replies rest, items = replies ++ rest ∧ replies.map role = keys.map .reply
      ∧ waiting? role rest = some [] := by
  induction keys generalizing items with
  | nil => exact ⟨[], items, rfl, rfl, h⟩
  | cons key keys ih =>
    cases items with
    | nil => cases h
    | cons item items =>
      rw [List.foldlM_cons] at h
      obtain ⟨after, hitem, hrest⟩ := Option.bind_eq_some_iff.1 h
      have hreply : role item = .reply key ∧ after = keys := by
        unfold receive at hitem
        split at hitem
        · next hwaiting => cases hwaiting
        · next hwaiting => cases hwaiting
        · next key' first rest hreply hwaiting =>
          obtain ⟨rfl, rfl⟩ := List.cons.inj hwaiting
          split at hitem
          · next hkey => exact ⟨hkey ▸ hreply, (Option.some.inj hitem).symm⟩
          · cases hitem
        · cases hitem
      obtain ⟨hreply, rfl⟩ := hreply
      obtain ⟨replies, rest, rfl, hreplies, hrest⟩ := ih hrest
      exact ⟨item :: replies, rest, rfl, by rw [List.map_cons, hreply, hreplies]; rfl, hrest⟩

theorem Answered.waiting? {items : List α} (h : Answered role items) :
    waiting? role items = some [] := by
  induction h with
  | nil => rfl
  | plain hitem _ ih =>
    rw [Exchange.waiting?, List.foldlM_cons, receive_plain hitem]
    exact ih
  | ask hitem hreplies _ ih =>
    have hdone := foldlM_replies hreplies []
    rw [List.append_nil] at hdone
    rw [Exchange.waiting?, List.foldlM_cons, receive_ask hitem, Option.bind_eq_bind,
      Option.bind_some, List.foldlM_append, hdone]
    exact ih

theorem answered_iff {items : List α} : Answered role items ↔ waiting? role items = some [] := by
  refine ⟨Answered.waiting?, fun h => ?_⟩
  induction hn : items.length using Nat.strongRecOn generalizing items with
  | _ n ih =>
  cases items with
  | nil => exact .nil
  | cons item items =>
    rw [waiting?, List.foldlM_cons] at h
    obtain ⟨keys, hitem, hrest⟩ := Option.bind_eq_some_iff.1 h
    cases hrole : role item with
    | plain =>
      rw [receive_plain hrole] at hitem
      cases hitem
      exact .plain hrole (ih _ (by rw [← hn]; exact Nat.lt_succ_self _) hrest rfl)
    | ask asked =>
      rw [receive_ask hrole] at hitem
      cases hitem
      obtain ⟨replies, rest, rfl, hreplies, hwaiting⟩ := foldlM_eq_some hrest
      refine .ask hrole hreplies (ih _ ?_ hwaiting rfl)
      rw [← hn, List.length_cons, List.length_append]
      omega
    | reply key => simp [receive, hrole] at hitem

end Exchange

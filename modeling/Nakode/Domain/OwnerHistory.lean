import Nakode.Domain.State
import Nakode.Lib.Weave

/-!
# Reconciling the history with the owner's prompts

A provider returns the history of a session with its own user rows. The ledger of the owner's
prompts is the authority over what the owner said: `reconcileOwnerHistory` looks for the row of each
prompt (`promptByUser`), puts the prompts where their rows stand and the prompts without a row before
what follows them, and drops every other user row.
-/

namespace Nakode.Domain

inductive ItemKind where
  | user
  | assistant
  | reasoning
  | tool
  | diff
  | system
  deriving DecidableEq, Repr

inductive ItemStatus where
  | running
  | complete
  | failed
  | declined
  deriving DecidableEq, Repr

structure NormalizedItem where
  id : String
  kind : ItemKind
  title : String
  body : String
  status : ItemStatus
  toolAuditJson : Option String
  deriving DecidableEq, Repr

structure SessionHistoryItem where
  turnId : String
  providerId : Option String
  modelId : Option String
  attachments : List PromptAttachment
  item : NormalizedItem
  deriving DecidableEq, Repr

def SessionHistoryItem.isUser (item : SessionHistoryItem) : Bool := item.item.kind == .user

namespace OwnerHistory

/-! ## The rows of the prompts -/

/-- The prompt that was found for each user row, and the first row that a later prompt may have. -/
structure Search where
  promptByUser : List (Option Nat)
  nextUser : Nat
  deriving DecidableEq, Repr

/-- `item.turn_id == prompt_id || item.id == prompt_id || item.id == stable_user_id` -/
def identifies (prompt : PersistedOwnerPrompt) (row : SessionHistoryItem) : Bool :=
  row.turnId == prompt.promptId || row.item.id == prompt.promptId ||
    row.item.id == "user:" ++ prompt.promptId

/-- The body is the text of the prompt and further lines. -/
def projects (prompt : PersistedOwnerPrompt) (row : SessionHistoryItem) : Bool :=
  (prompt.rawText.toList ++ ['\n']).isPrefixOf row.item.body.toList

/-- The only candidate, of an unambiguous body. -/
def unambiguous (bodyMatchUnambiguous : Bool) (candidates : List Nat) : Option Nat :=
  if bodyMatchUnambiguous && candidates.length == 1 then candidates.head? else none

/-- The row of a prompt: by its identity, by its body, or by a body that the provider appended to. -/
def matchedSlot (ledger : List PersistedOwnerPrompt) (users : List SessionHistoryItem)
    (nextUser promptIndex : Nat) (prompt : PersistedOwnerPrompt) : Option Nat :=
  let bodyMatchUnambiguous := ledger.countP (·.rawText == prompt.rawText) == 1
  let slots := List.range' nextUser (users.length - nextUser)
  let identified := slots.find? fun slot => users[slot]?.any (identifies prompt)
  let exactCandidates := slots.filter fun slot =>
    users[slot]?.any (·.item.body == prompt.rawText)
  let projectedCandidates := slots.filter fun slot => users[slot]?.any fun row =>
    projects prompt row &&
      !(ledger.drop (promptIndex + 1)).any (·.rawText == row.item.body)
  identified.or ((unambiguous bodyMatchUnambiguous exactCandidates).or
    (unambiguous bodyMatchUnambiguous projectedCandidates))

/-- One prompt of the search. -/
def searchPrompt (ledger : List PersistedOwnerPrompt) (users : List SessionHistoryItem)
    (s : Search) (entry : PersistedOwnerPrompt × Nat) : Search :=
  if entry.1.rawText.isEmpty then s
  else match matchedSlot ledger users s.nextUser entry.2 entry.1 with
    | some slot => ⟨s.promptByUser.set slot (some entry.2), slot + 1⟩
    | none => s

def search (ledger : List PersistedOwnerPrompt) (users : List SessionHistoryItem) : Search :=
  ledger.zipIdx.foldl (searchPrompt ledger users) ⟨List.replicate users.length none, 0⟩

def promptByUser (ledger : List PersistedOwnerPrompt) (history : List SessionHistoryItem) :
    List (Option Nat) :=
  (search ledger (history.filter (·.isUser))).promptByUser

/-! ## The reconciled history -/

/-- `owner_item` -/
def ownerItem (backendProvider : String) (prompt : PersistedOwnerPrompt) : SessionHistoryItem :=
  { turnId := prompt.promptId
    providerId := some backendProvider
    modelId := none
    attachments := []
    item :=
      { id := "user:" ++ prompt.promptId
        kind := .user
        title := "YOU · " ++ prompt.promptId
        body := prompt.rawText
        status := .complete
        toolAuditJson := none } }

/-- The row of the provider with the identity and the text of the prompt. -/
def claimItem (row : SessionHistoryItem) (prompt : PersistedOwnerPrompt) : SessionHistoryItem :=
  { row with
    item :=
      { row.item with
        id := "user:" ++ prompt.promptId
        title := "YOU · " ++ prompt.promptId
        body := prompt.rawText } }

/-- `while next_prompt < until` -/
def ownerItems (backendProvider : String) (ledger : List PersistedOwnerPrompt)
    (nextPrompt until_ : Nat) : List SessionHistoryItem :=
  ((ledger.take until_).drop nextPrompt).map (ownerItem backendProvider)

/-- The walk over the history, with the prompts of the user rows that are left
(`prompt_by_user[user_slot..]`). -/
def reconcileFrom (backendProvider : String) (ledger : List PersistedOwnerPrompt) :
    List (Option Nat) → Nat → List SessionHistoryItem → List SessionHistoryItem
  | _, nextPrompt, [] => ownerItems backendProvider ledger nextPrompt ledger.length
  | slots, nextPrompt, row :: history =>
    if !row.isUser then
      let upcomingPrompt := (slots.findSome? id).getD
        (if slots.isEmpty then ledger.length else nextPrompt)
      ownerItems backendProvider ledger nextPrompt upcomingPrompt ++
        row :: reconcileFrom backendProvider ledger slots (max nextPrompt upcomingPrompt) history
    else match slots.head?.join with
      | none =>
        match ledger[nextPrompt]? with
        | some prompt =>
          if row.item.body == prompt.rawText then
            ownerItem backendProvider prompt ::
              reconcileFrom backendProvider ledger slots.tail (nextPrompt + 1) history
          else reconcileFrom backendProvider ledger slots.tail nextPrompt history
        | none => reconcileFrom backendProvider ledger slots.tail nextPrompt history
      | some promptIndex =>
        ownerItems backendProvider ledger nextPrompt promptIndex ++
          (ledger[promptIndex]?.map (claimItem row)).toList ++
          reconcileFrom backendProvider ledger slots.tail (promptIndex + 1) history

def reconcileOwnerHistory (backendProvider : String) (ledger : List PersistedOwnerPrompt)
    (history : List SessionHistoryItem) : List SessionHistoryItem :=
  if ledger.isEmpty then history
  else reconcileFrom backendProvider ledger (promptByUser ledger history) 0 history

/-! ## The search -/

/-- Prompts were found in the order of the ledger, and no row from `nextUser` on is taken. -/
structure Search.Sound (total count : Nat) (s : Search) : Prop where
  length : s.promptByUser.length = total
  bound : s.nextUser ≤ total
  free : s.promptByUser.drop s.nextUser = List.replicate (total - s.nextUser) none
  pairwise : ((s.promptByUser.take s.nextUser).filterMap id).Pairwise (· < ·)
  found : ∀ k ∈ (s.promptByUser.take s.nextUser).filterMap id, k < count

theorem matchedSlot_bounds {ledger : List PersistedOwnerPrompt} {users : List SessionHistoryItem}
    {nextUser promptIndex slot : Nat} {prompt : PersistedOwnerPrompt}
    (h : matchedSlot ledger users nextUser promptIndex prompt = some slot) :
    nextUser ≤ slot ∧ slot < users.length := by
  have hfilter : ∀ {ok : Bool} {p : Nat → Bool}, unambiguous ok
      ((List.range' nextUser (users.length - nextUser)).filter p) = some slot →
      slot ∈ List.range' nextUser (users.length - nextUser) := by
    intro ok p hp
    unfold unambiguous at hp
    split at hp
    · exact List.mem_of_mem_filter (List.mem_of_mem_head? hp)
    · cases hp
  have hmem : slot ∈ List.range' nextUser (users.length - nextUser) := by
    rcases Option.or_eq_some_iff.1 h with h | ⟨-, h⟩
    · exact List.mem_of_find?_eq_some h
    · rcases Option.or_eq_some_iff.1 h with h | ⟨-, h⟩
      · exact hfilter h
      · exact hfilter h
  rw [List.mem_range'_1] at hmem
  omega

/-- A row from `n` on is taken, and the rows before it stay as they are. -/
theorem take_set_of_free {l : List (Option Nat)} {n slot total k : Nat}
    (hlength : l.length = total) (hfree : l.drop n = List.replicate (total - n) none)
    (hn : n ≤ slot) (hslot : slot < total) :
    ((l.set slot (some k)).take (slot + 1)).filterMap id = (l.take n).filterMap id ++ [k] := by
  have hfront : (l.take slot).filterMap id = (l.take n).filterMap id := by
    have hsplit : l.take slot = l.take n ++ (l.drop n).take (slot - n) := by
      conv_lhs => rw [← Nat.add_sub_cancel' hn, List.take_add]
    rw [hsplit, hfree, List.take_replicate, List.filterMap_append, List.filterMap_replicate_of_none
      (show id none = none from rfl), List.append_nil]
  rw [List.take_add_one, List.take_set_of_le (Nat.le_refl slot),
    List.getElem?_set_self (by omega), List.filterMap_append, hfront]
  rfl

theorem Search.Sound.searchPrompt {ledger : List PersistedOwnerPrompt}
    {users : List SessionHistoryItem} {s : Search} {count : Nat} (h : s.Sound users.length count)
    (prompt : PersistedOwnerPrompt) :
    (OwnerHistory.searchPrompt ledger users s (prompt, count)).Sound users.length (count + 1) := by
  have hkeep : s.Sound users.length (count + 1) :=
    { h with found := fun k hk => Nat.lt_succ_of_lt (h.found k hk) }
  unfold OwnerHistory.searchPrompt
  split
  · exact hkeep
  split
  · next slot hslot =>
    obtain ⟨hnext, hslot⟩ := matchedSlot_bounds hslot
    have htaken := take_set_of_free (k := count) h.length h.free hnext hslot
    constructor
    · exact List.length_set.trans h.length
    · exact hslot
    · have hdrop : s.promptByUser.drop (slot + 1) =
          (s.promptByUser.drop s.nextUser).drop (slot + 1 - s.nextUser) := by
        rw [List.drop_drop]
        congr 1
        omega
      dsimp only
      rw [List.drop_set_of_lt (Nat.lt_succ_self slot), hdrop, h.free, List.drop_replicate]
      congr 1
      omega
    · rw [htaken, List.pairwise_append]
      refine ⟨h.pairwise, List.pairwise_singleton _ _, fun k hk j hj => ?_⟩
      rw [List.mem_singleton.1 hj]
      exact h.found k hk
    · rw [htaken]
      intro k hk
      rcases List.mem_append.1 hk with hk | hk
      · exact Nat.lt_succ_of_lt (h.found k hk)
      · rw [List.mem_singleton.1 hk]
        exact Nat.lt_succ_self count
  · exact hkeep

theorem Search.Sound.foldl (ledger rest : List PersistedOwnerPrompt)
    {users : List SessionHistoryItem} {s : Search} {count : Nat}
    (h : s.Sound users.length count) :
    ((rest.zipIdx count).foldl (OwnerHistory.searchPrompt ledger users) s).Sound users.length
      (count + rest.length) := by
  induction rest generalizing s count with
  | nil => exact h
  | cons prompt rest ih =>
    rw [List.zipIdx_cons, List.foldl_cons, List.length_cons, Nat.add_comm rest.length,
      ← Nat.add_assoc]
    exact ih (h.searchPrompt prompt)

theorem sound_search (ledger : List PersistedOwnerPrompt) (users : List SessionHistoryItem) :
    (search ledger users).Sound users.length ledger.length := by
  have hinit : Search.Sound users.length 0 ⟨List.replicate users.length none, 0⟩ :=
    { length := List.length_replicate
      bound := Nat.zero_le _
      free := rfl
      pairwise := List.Pairwise.nil
      found := fun k hk => by cases hk }
  have h := hinit.foldl ledger ledger
  rwa [Nat.zero_add] at h

theorem Search.Sound.filterMap {total count : Nat} {s : Search} (h : s.Sound total count) :
    s.promptByUser.filterMap id = (s.promptByUser.take s.nextUser).filterMap id := by
  conv_lhs => rw [← List.take_append_drop s.nextUser s.promptByUser, List.filterMap_append, h.free,
    List.filterMap_replicate_of_none (show id none = none from rfl), List.append_nil]

theorem length_promptByUser (ledger : List PersistedOwnerPrompt)
    (history : List SessionHistoryItem) :
    (promptByUser ledger history).length = (history.filter (·.isUser)).length :=
  (sound_search ledger _).length

/-- The rows that prompts were found for stand in the order of the ledger. -/
theorem pairwise_promptByUser (ledger : List PersistedOwnerPrompt)
    (history : List SessionHistoryItem) :
    ((promptByUser ledger history).filterMap id).Pairwise (· < ·) ∧
      ∀ k ∈ (promptByUser ledger history).filterMap id, k < ledger.length := by
  have h := sound_search ledger (history.filter (·.isUser))
  rw [promptByUser, h.filterMap]
  exact ⟨h.pairwise, h.found⟩

/-- What makes a row the row of a prompt. -/
def Matches (ledger : List PersistedOwnerPrompt) (users : List SessionHistoryItem)
    (slot k : Nat) : Prop :=
  ∃ prompt row, ledger[k]? = some prompt ∧ users[slot]? = some row ∧ prompt.rawText ≠ "" ∧
    (identifies prompt row = true ∨ ledger.countP (·.rawText == prompt.rawText) = 1 ∧
      (row.item.body = prompt.rawText ∨ projects prompt row = true))

theorem matches_of_matchedSlot {ledger : List PersistedOwnerPrompt}
    {users : List SessionHistoryItem} {nextUser k slot : Nat} {prompt : PersistedOwnerPrompt}
    (hprompt : ledger[k]? = some prompt) (htext : prompt.rawText ≠ "")
    (h : matchedSlot ledger users nextUser k prompt = some slot) : Matches ledger users slot k := by
  have hcandidate : ∀ {p : Nat → Bool}, unambiguous
      (ledger.countP (·.rawText == prompt.rawText) == 1)
      ((List.range' nextUser (users.length - nextUser)).filter p) = some slot →
      ledger.countP (·.rawText == prompt.rawText) = 1 ∧ p slot = true := by
    intro p hp
    unfold unambiguous at hp
    split at hp
    · next hone =>
      have hslot := List.mem_of_mem_head? hp
      exact ⟨by simpa using (Bool.and_eq_true_iff.1 hone).1, (List.mem_filter.1 hslot).2⟩
    · cases hp
  rcases Option.or_eq_some_iff.1 h with h | ⟨-, h⟩
  · have hslot : users[slot]?.any (identifies prompt) = true := by
      simpa using List.find?_some h
    obtain ⟨row, hrow, hid⟩ := (Option.any_eq_true _ _).1 hslot
    exact ⟨prompt, row, hprompt, hrow, htext, .inl hid⟩
  rcases Option.or_eq_some_iff.1 h with h | ⟨-, h⟩
  · obtain ⟨hone, hslot⟩ := hcandidate h
    obtain ⟨row, hrow, hbody⟩ := (Option.any_eq_true _ _).1 hslot
    exact ⟨prompt, row, hprompt, hrow, htext, .inr ⟨hone, .inl (by simpa using hbody)⟩⟩
  · obtain ⟨hone, hslot⟩ := hcandidate h
    obtain ⟨row, hrow, hbody⟩ := (Option.any_eq_true _ _).1 hslot
    exact ⟨prompt, row, hprompt, hrow, htext,
      .inr ⟨hone, .inr (Bool.and_eq_true_iff.1 hbody).1⟩⟩

/-- Every match has a reason. -/
theorem matches_promptByUser {ledger : List PersistedOwnerPrompt}
    {history : List SessionHistoryItem} {slot k : Nat}
    (h : (promptByUser ledger history)[slot]? = some (some k)) :
    Matches ledger (history.filter (·.isUser)) slot k := by
  have hinvariant : ∀ slot k,
      (search ledger (history.filter (·.isUser))).promptByUser[slot]? = some (some k) →
      Matches ledger (history.filter (·.isUser)) slot k := by
    refine List.foldlRecOn (motive := fun s : Search => ∀ slot k, s.promptByUser[slot]? =
      some (some k) → Matches ledger (history.filter (·.isUser)) slot k) ledger.zipIdx _ ?_ ?_
    · intro slot k hslot
      have hmem := List.mem_of_getElem? hslot
      cases List.eq_of_mem_replicate hmem
    · rintro s hs ⟨prompt, j⟩ hentry slot k hslot
      have hprompt : ledger[j]? = some prompt := List.mem_zipIdx_iff_getElem?.1 hentry
      unfold searchPrompt at hslot
      split at hslot
      · exact hs slot k hslot
      next htext =>
      split at hslot
      · next found hfound =>
        rcases eq_or_ne found slot with rfl | hne
        · rw [List.getElem?_set] at hslot
          obtain rfl : j = k := by
            split at hslot
            · split at hslot
              · simpa using hslot
              · cases hslot
            · next hself => exact absurd rfl hself
          exact matches_of_matchedSlot hprompt (by simpa using htext) hfound
        · rw [List.getElem?_set_ne hne] at hslot
          exact hs slot k hslot
      · exact hs slot k hslot
  exact hinvariant slot k h

/-! ## The walk is a weaving -/

/-- The rows of the history, with the prompts of the user rows. -/
def mark : List (Option Nat) → List SessionHistoryItem → List (Weave.Row SessionHistoryItem String)
  | _, [] => []
  | slots, row :: history =>
    if !row.isUser then .other row :: mark slots history
    else match slots.head?.join with
      | none => .free row.item.body :: mark slots.tail history
      | some promptIndex => .matched row promptIndex :: mark slots.tail history

/-- The row that a piece is. -/
def render (backendProvider : String) (ledger : List PersistedOwnerPrompt) :
    Weave.Piece SessionHistoryItem → Option SessionHistoryItem
  | .own k => ledger[k]?.map (ownerItem backendProvider)
  | .keep row => some row
  | .claim row k => ledger[k]?.map (claimItem row)

theorem mark_cons_other {slots : List (Option Nat)} {row : SessionHistoryItem}
    {history : List SessionHistoryItem} (h : row.isUser = false) :
    mark slots (row :: history) = .other row :: mark slots history := by
  rw [mark, h]
  rfl

theorem mark_cons_free {slots : List (Option Nat)} {row : SessionHistoryItem}
    {history : List SessionHistoryItem} (h : row.isUser = true) :
    mark (none :: slots) (row :: history) = .free row.item.body :: mark slots history := by
  rw [mark, h]
  rfl

theorem mark_cons_matched {slots : List (Option Nat)} {row : SessionHistoryItem}
    {history : List SessionHistoryItem} {k : Nat} (h : row.isUser = true) :
    mark (some k :: slots) (row :: history) = .matched row k :: mark slots history := by
  rw [mark, h]
  rfl

/-- There is a slot for each user row. -/
def Slotted (slots : List (Option Nat)) (history : List SessionHistoryItem) : Prop :=
  slots.length = (history.filter (·.isUser)).length

/-- Rows are other rows, or user rows with what was found for them. -/
theorem Slotted.rows_induction
    {P : ∀ slots history, Slotted slots history → Prop} (nil : P [] [] rfl)
    (other : ∀ slots row history (h : Slotted slots history) (h' : Slotted slots (row :: history)),
      row.isUser = false → P slots history h → P slots (row :: history) h')
    (user : ∀ found slots row history (h : Slotted slots history)
      (h' : Slotted (found :: slots) (row :: history)),
      row.isUser = true → P slots history h → P (found :: slots) (row :: history) h')
    (slots : List (Option Nat)) (history : List SessionHistoryItem)
    (h : Slotted slots history) : P slots history h := by
  induction history generalizing slots with
  | nil =>
    obtain rfl := List.eq_nil_of_length_eq_zero h
    exact nil
  | cons row history ih =>
    have hlength := h
    unfold Slotted at hlength
    cases hrow : row.isUser with
    | false =>
      rw [List.filter_cons_of_neg (by simp [hrow])] at hlength
      exact other slots row history hlength h hrow (ih slots hlength)
    | true =>
      rw [List.filter_cons_of_pos hrow] at hlength
      cases slots with
      | nil => cases hlength
      | cons found slots =>
        have hrest : Slotted slots history := Nat.succ.inj hlength
        exact user found slots row history hrest h hrow (ih slots hrest)

theorem numbers_mark (slots : List (Option Nat)) (history : List SessionHistoryItem)
    (h : Slotted slots history) :
    (mark slots history).filterMap Weave.Row.number? = slots.filterMap id := by
  induction slots, history, h using Slotted.rows_induction with
  | nil => rfl
  | other slots row history _ _ hrow ih =>
    rw [mark_cons_other hrow, ← ih]
    rfl
  | user found slots row history _ _ hrow ih =>
    cases found with
    | none =>
      rw [mark_cons_free hrow]
      exact ih
    | some k =>
      rw [mark_cons_matched hrow]
      exact congrArg (k :: ·) ih

theorem others_mark (slots : List (Option Nat)) (history : List SessionHistoryItem)
    (h : Slotted slots history) :
    (mark slots history).filterMap Weave.Row.other? = history.filter (!·.isUser) := by
  induction slots, history, h using Slotted.rows_induction with
  | nil => rfl
  | other slots row history _ _ hrow ih =>
    rw [mark_cons_other hrow, List.filter_cons_of_pos (by simp [hrow]), ← ih]
    rfl
  | user found slots row history _ _ hrow ih =>
    rw [List.filter_cons_of_neg (by simp [hrow]), ← ih]
    cases found with
    | none => rw [mark_cons_free hrow]; rfl
    | some k => rw [mark_cons_matched hrow]; rfl

/-- There are user rows as long as there are slots. -/
theorem any_mark (slots : List (Option Nat)) (history : List SessionHistoryItem)
    (h : Slotted slots history) :
    (mark slots history).any (·.other?.isNone) = !slots.isEmpty := by
  induction slots, history, h using Slotted.rows_induction with
  | nil => rfl
  | other slots row history _ _ hrow ih =>
    rw [mark_cons_other hrow]
    exact ih
  | user found slots row history _ _ hrow ih =>
    cases found with
    | none => rw [mark_cons_free hrow]; rfl
    | some k => rw [mark_cons_matched hrow]; rfl

theorem isUser_of_mem_mark (slots : List (Option Nat)) (history : List SessionHistoryItem)
    (h : Slotted slots history) {row : SessionHistoryItem} {k : Nat}
    (hrow : .matched row k ∈ mark slots history) : row.isUser = true := by
  induction slots, history, h using Slotted.rows_induction with
  | nil => cases hrow
  | other slots r history _ _ hr ih =>
    rw [mark_cons_other hr] at hrow
    exact ih ((List.mem_cons.1 hrow).resolve_left (by simp))
  | user found slots r history _ _ hr ih =>
    cases found with
    | none =>
      rw [mark_cons_free hr] at hrow
      exact ih ((List.mem_cons.1 hrow).resolve_left (by simp))
    | some j =>
      rw [mark_cons_matched hr] at hrow
      rcases List.mem_cons.1 hrow with heq | hrow
      · cases heq
        exact hr
      · exact ih hrow

theorem upcoming_mark {slots : List (Option Nat)} {history : List SessionHistoryItem}
    (h : Slotted slots history) (total n : Nat) :
    Weave.upcoming total n (mark slots history) =
      (slots.findSome? id).getD (if slots.isEmpty then total else n) := by
  have hfirst : slots.findSome? id = (slots.filterMap id).head? := List.head?_filterMap.symm
  rw [Weave.upcoming, Weave.findSome?_number?, numbers_mark slots history h, any_mark slots history h,
    hfirst]
  cases slots <;> rfl

/-- The prompts between two numbers are what stands in the ledger there. -/
theorem render_owns (backendProvider : String) (ledger : List PersistedOwnerPrompt) (n k : Nat) :
    (Weave.owns n k).filterMap (render backendProvider ledger) =
      ownerItems backendProvider ledger n k := by
  have hget : ∀ m, (List.range' n m).filterMap (ledger[·]?) = (ledger.take (n + m)).drop n := by
    intro m
    induction m with
    | zero => rw [Nat.add_zero, List.drop_eq_nil_of_le (List.length_take_le _ _)]; rfl
    | succ m ih =>
      rw [List.range'_concat, List.filterMap_append, ih, ← Nat.add_assoc, List.take_add_one,
        Nat.one_mul]
      rcases Nat.lt_or_ge (n + m) ledger.length with hlt | hge
      · rw [List.drop_append_of_le_length (by rw [List.length_take]; omega),
          List.filterMap_cons, List.getElem?_eq_getElem hlt]
        rfl
      · rw [List.getElem?_eq_none hge]
        simp [List.getElem?_eq_none hge]
  have hrender : (Weave.owns n k).filterMap (render backendProvider ledger) =
      ((List.range' n (k - n)).filterMap (ledger[·]?)).map (ownerItem backendProvider) := by
    rw [Weave.owns, List.filterMap_map, List.map_filterMap]
    rfl
  rw [hrender, hget, ownerItems]
  rcases Nat.le_total n k with hle | hle
  · rw [Nat.add_sub_cancel' hle]
  · rw [Nat.sub_eq_zero_of_le hle, Nat.add_zero, List.drop_eq_nil_of_le (List.length_take_le _ _),
      List.drop_eq_nil_of_le (Nat.le_trans (List.length_take_le _ _) hle)]

theorem render_cons (backendProvider : String) (ledger : List PersistedOwnerPrompt)
    (piece : Weave.Piece SessionHistoryItem) (pieces : List (Weave.Piece SessionHistoryItem)) :
    (piece :: pieces).filterMap (render backendProvider ledger) =
      (render backendProvider ledger piece).toList ++
        pieces.filterMap (render backendProvider ledger) := by
  cases h : render backendProvider ledger piece with
  | none => rw [List.filterMap_cons_none h]; rfl
  | some row => rw [List.filterMap_cons_some h]; rfl

/-- The walk over the history weaves the ledger into it. -/
theorem reconcileFrom_eq (backendProvider : String) (ledger : List PersistedOwnerPrompt)
    (slots : List (Option Nat)) (history : List SessionHistoryItem) (h : Slotted slots history)
    (n : Nat) : reconcileFrom backendProvider ledger slots n history =
      (Weave.weave (ledger.map (·.rawText)) n (mark slots history)).filterMap
        (render backendProvider ledger) := by
  induction slots, history, h using Slotted.rows_induction generalizing n with
  | nil => rw [reconcileFrom, mark, Weave.weave, List.length_map, render_owns]
  | other slots row history h _ hrow ih =>
    rw [reconcileFrom, hrow, mark_cons_other hrow, Weave.weave, upcoming_mark h, List.length_map,
      List.filterMap_append, render_owns, render_cons, ← ih]
    rfl
  | user found slots row history h _ hrow ih =>
    rw [reconcileFrom, hrow]
    cases found with
    | none =>
      rw [mark_cons_free hrow, Weave.weave, List.getElem?_map]
      cases hprompt : ledger[n]? with
      | none => exact ih n
      | some prompt =>
        have hsome : (some prompt).map (·.rawText) = some row.item.body ↔
            row.item.body = prompt.rawText := by
          rw [Option.map_some, Option.some.injEq, eq_comm]
        by_cases hbody : row.item.body = prompt.rawText
        · rw [if_pos (hsome.2 hbody), render_cons, render, hprompt, ← ih]
          simp [hbody]
        · rw [if_neg (mt hsome.1 hbody), ← ih]
          simp [hbody]
    | some k =>
      rw [mark_cons_matched hrow, Weave.weave, List.filterMap_append, render_owns, render_cons,
        ← ih, ← List.append_assoc]
      rfl

/-! ## The rows of the reconciled history -/

variable {backendProvider : String} {ledger : List PersistedOwnerPrompt}

/-- A user row with the identity and the text of a prompt. -/
structure Shows (row : SessionHistoryItem) (prompt : PersistedOwnerPrompt) : Prop where
  user : row.isUser = true
  id : row.item.id = "user:" ++ prompt.promptId
  body : row.item.body = prompt.rawText

/-- The piece is a prompt of the ledger, or a row that is not a user row. -/
def Renders (ledger : List PersistedOwnerPrompt) : Weave.Piece SessionHistoryItem → Prop
  | .own k => k < ledger.length
  | .keep row => row.isUser = false
  | .claim row k => k < ledger.length ∧ row.isUser = true

theorem shows_ownerItem (backendProvider : String) (prompt : PersistedOwnerPrompt) :
    Shows (ownerItem backendProvider prompt) prompt := ⟨rfl, rfl, rfl⟩

theorem shows_claimItem {row : SessionHistoryItem} (h : row.isUser = true)
    (prompt : PersistedOwnerPrompt) : Shows (claimItem row prompt) prompt := ⟨h, rfl, rfl⟩

/-- The user rows are those of the numbers, and the other rows are those that were kept. -/
theorem users_render (backendProvider : String) {pieces : List (Weave.Piece SessionHistoryItem)}
    (h : ∀ piece ∈ pieces, Renders ledger piece) :
    List.Forall₂ (fun row k => ∃ prompt, ledger[k]? = some prompt ∧ Shows row prompt)
        ((pieces.filterMap (render backendProvider ledger)).filter (·.isUser))
        (Weave.numbers pieces) ∧
      (pieces.filterMap (render backendProvider ledger)).filter (!·.isUser) =
        Weave.keeps pieces := by
  induction pieces with
  | nil => exact ⟨.nil, rfl⟩
  | cons piece pieces ih =>
    obtain ⟨hpiece, hpieces⟩ := List.forall_mem_cons.1 h
    obtain ⟨husers, hothers⟩ := ih hpieces
    cases piece with
    | own k =>
      have hk : ledger[k]? = some ledger[k] := List.getElem?_eq_getElem hpiece
      have hshows := shows_ownerItem backendProvider ledger[k]
      rw [render_cons, render, hk, Option.map_some, Option.toList_some, List.singleton_append,
        List.filter_cons_of_pos hshows.user, List.filter_cons_of_neg (by simp [hshows.user])]
      exact ⟨.cons ⟨_, hk, hshows⟩ husers, hothers⟩
    | keep row =>
      have hrow : row.isUser = false := hpiece
      rw [render_cons, render, Option.toList_some, List.singleton_append,
        List.filter_cons_of_neg (by simp [hrow]), List.filter_cons_of_pos (by simp [hrow]), hothers]
      exact ⟨husers, rfl⟩
    | claim row k =>
      obtain ⟨hlt, hrow⟩ : k < ledger.length ∧ row.isUser = true := hpiece
      have hk : ledger[k]? = some ledger[k] := List.getElem?_eq_getElem hlt
      have hshows := shows_claimItem hrow ledger[k]
      rw [render_cons, render, hk, Option.map_some, Option.toList_some, List.singleton_append,
        List.filter_cons_of_pos hshows.user, List.filter_cons_of_neg (by simp [hshows.user])]
      exact ⟨.cons ⟨_, hk, hshows⟩ husers, hothers⟩

/-- The history with the prompts of its user rows, and the ledger woven into it. -/
def rows (ledger : List PersistedOwnerPrompt) (history : List SessionHistoryItem) :
    List (Weave.Row SessionHistoryItem String) :=
  mark (promptByUser ledger history) history

def woven (ledger : List PersistedOwnerPrompt) (history : List SessionHistoryItem) :
    List (Weave.Piece SessionHistoryItem) :=
  Weave.weave (ledger.map (·.rawText)) 0 (rows ledger history)

theorem slotted_promptByUser (ledger : List PersistedOwnerPrompt)
    (history : List SessionHistoryItem) : Slotted (promptByUser ledger history) history :=
  length_promptByUser ledger history

theorem ascending_rows (ledger : List PersistedOwnerPrompt) (history : List SessionHistoryItem) :
    Weave.Ascending (ledger.map (·.rawText)).length 0 (rows ledger history) := by
  obtain ⟨hpairwise, hlt⟩ := pairwise_promptByUser ledger history
  constructor
  · rw [rows, numbers_mark _ _ (slotted_promptByUser ledger history)]
    exact hpairwise
  · rw [rows, numbers_mark _ _ (slotted_promptByUser ledger history), List.length_map]
    exact fun k hk => ⟨Nat.zero_le k, hlt k hk⟩

theorem renders_woven (ledger : List PersistedOwnerPrompt) (history : List SessionHistoryItem) :
    ∀ piece ∈ woven ledger history, Renders ledger piece := by
  intro piece hpiece
  have hfrom := Weave.from_of_mem_weave (fun k hk => ((ascending_rows ledger history).bounds k hk).2)
    (Nat.zero_le _) hpiece
  rw [List.length_map] at hfrom
  cases piece with
  | own k => exact hfrom
  | keep row =>
    have hother : row ∈ history.filter (!·.isUser) := by
      rw [← others_mark _ _ (slotted_promptByUser ledger history)]
      exact List.mem_filterMap.2 ⟨.other row, hfrom, rfl⟩
    have hkept := (List.mem_filter.1 hother).2
    show row.isUser = false
    simpa using hkept
  | claim row k =>
    exact ⟨hfrom.1, isUser_of_mem_mark _ _ (slotted_promptByUser ledger history) hfrom.2⟩

theorem reconcileOwnerHistory_eq (backendProvider : String) (history : List SessionHistoryItem)
    (hledger : ledger ≠ []) : reconcileOwnerHistory backendProvider ledger history =
      (woven ledger history).filterMap (render backendProvider ledger) := by
  rw [reconcileOwnerHistory, if_neg (by simpa using hledger),
    reconcileFrom_eq _ _ _ _ (slotted_promptByUser ledger history)]
  rfl

/-- What comes before a user row is marked before it. -/
theorem mark_append (slots : List (Option Nat)) (before after : List SessionHistoryItem)
    (row : SessionHistoryItem) {k : Nat} (hrow : row.isUser = true)
    (hk : slots[(before.filter (·.isUser)).length]? = some (some k)) :
    ∃ front back, mark slots (before ++ row :: after) = front ++ .matched row k :: back ∧
      front.filterMap Weave.Row.other? = before.filter (!·.isUser) := by
  induction before generalizing slots with
  | nil =>
    cases slots with
    | nil => cases hk
    | cons found slots =>
      obtain rfl : found = some k := by simpa using hk
      exact ⟨[], mark slots after, mark_cons_matched hrow, rfl⟩
  | cons r before ih =>
    cases hr : r.isUser with
    | false =>
      rw [List.filter_cons_of_neg (by simp [hr])] at hk
      obtain ⟨front, back, hmark, hothers⟩ := ih slots hk
      refine ⟨.other r :: front, back, ?_, ?_⟩
      · rw [List.cons_append, mark_cons_other hr, hmark, List.cons_append]
      · rw [List.filter_cons_of_pos (by simp [hr]), ← hothers]
        rfl
    | true =>
      rw [List.filter_cons_of_pos hr, List.length_cons] at hk
      cases slots with
      | nil => cases hk
      | cons found slots =>
        obtain ⟨front, back, hmark, hothers⟩ := ih slots (by simpa using hk)
        cases found with
        | none =>
          refine ⟨.free r.item.body :: front, back, ?_, ?_⟩
          · rw [List.cons_append, mark_cons_free hr, hmark, List.cons_append]
          · rw [List.filter_cons_of_neg (by simp [hr]), ← hothers]
            rfl
        | some j =>
          refine ⟨.matched r j :: front, back, ?_, ?_⟩
          · rw [List.cons_append, mark_cons_matched hr, hmark, List.cons_append]
          · rw [List.filter_cons_of_neg (by simp [hr]), ← hothers]
            rfl

/-! ## Reconciliation -/

/-- The user rows are the ledger, the other rows stay, and a prompt stands where the row stood that
was found for it, for a reason. -/
structure Reconciled (ledger : List PersistedOwnerPrompt)
    (history reconciled : List SessionHistoryItem) : Prop where
  owners : List.Forall₂ Shows (reconciled.filter (·.isUser)) ledger
  others : reconciled.filter (!·.isUser) = history.filter (!·.isUser)
  reasons : ∀ slot k, (promptByUser ledger history)[slot]? = some (some k) →
    Matches ledger (history.filter (·.isUser)) slot k
  placed : ∀ before row after k, history = before ++ row :: after → row.isUser = true →
    (promptByUser ledger history)[(before.filter (·.isUser)).length]? = some (some k) →
    ∃ front claimed back, reconciled = front ++ claimed :: back ∧ claimed.isUser = true ∧
      (front.filter (·.isUser)).length = k ∧
      front.filter (!·.isUser) = before.filter (!·.isUser)

/-- Between the rows of two prompts, an unmatched user row has the text of the second one, and it
stands behind another row or behind unmatched rows with the texts of the prompts between the two. -/
def Overtaken (ledger : List PersistedOwnerPrompt) (history : List SessionHistoryItem) : Prop :=
  Weave.Overtaken (ledger.map (·.rawText)) 0 (rows ledger history)

theorem forall₂_range_iff {users : List SessionHistoryItem} :
    List.Forall₂ (fun row k => ∃ prompt, ledger[k]? = some prompt ∧ Shows row prompt) users
      (List.range ledger.length) ↔ List.Forall₂ Shows users ledger := by
  rw [List.forall₂_iff_get, List.forall₂_iff_get]
  constructor
  · rintro ⟨hlength, h⟩
    refine ⟨hlength.trans List.length_range, fun i hi hj => ?_⟩
    obtain ⟨prompt, hprompt, hshows⟩ := h i hi (by rwa [List.length_range])
    rw [List.get_eq_getElem, List.getElem_range] at hprompt
    obtain ⟨_, rfl⟩ := List.getElem?_eq_some_iff.1 hprompt
    exact hshows
  · rintro ⟨hlength, h⟩
    refine ⟨hlength.trans List.length_range.symm, fun i hi hj => ?_⟩
    have hlt : i < ledger.length := hlength ▸ hi
    refine ⟨ledger[i], ?_, h i hi hlt⟩
    rw [List.get_eq_getElem, List.getElem_range, List.getElem?_eq_getElem hlt]

/-- Rows that show the prompts of numbers show the ledger only if the numbers are the positions. -/
theorem numbers_eq_range {users : List SessionHistoryItem} {numbers : List Nat}
    (hids : (ledger.map (·.promptId)).Nodup)
    (hnumbers : List.Forall₂ (fun row k => ∃ prompt, ledger[k]? = some prompt ∧ Shows row prompt)
      users numbers) (hledger : List.Forall₂ Shows users ledger) :
    numbers = List.range ledger.length := by
  have hrange := forall₂_range_iff.2 hledger
  have hlength : numbers.length = (List.range ledger.length).length :=
    hnumbers.length_eq.symm.trans hrange.length_eq
  refine List.ext_getElem hlength fun i hi hj => ?_
  have hrow : i < users.length := hnumbers.length_eq ▸ hi
  obtain ⟨p, hp, hshows⟩ := hnumbers.get hrow hi
  obtain ⟨q, hq, hshows'⟩ := hrange.get hrow hj
  have hid : p.promptId = q.promptId :=
    (String.append_right_inj "user:").1 (hshows.id.symm.trans hshows'.id)
  rw [List.get_eq_getElem] at hp hq
  have hlt : numbers[i] < (ledger.map (·.promptId)).length := by
    rw [List.length_map]
    exact (List.getElem?_eq_some_iff.1 hp).1
  rw [List.getElem_range]
  rw [List.getElem_range] at hq
  refine (List.getElem?_inj hlt hids).1 ?_
  rw [List.getElem?_map, List.getElem?_map, hp, hq, Option.map_some, Option.map_some, hid]

/-- A matched prompt stands where its row stood. -/
theorem exists_claimed {history before after : List SessionHistoryItem} {row : SessionHistoryItem}
    {k : Nat} (hnumbers : Weave.numbers (woven ledger history) = List.range ledger.length)
    (hhistory : history = before ++ row :: after) (hrow : row.isUser = true)
    (hk : (promptByUser ledger history)[(before.filter (·.isUser)).length]? = some (some k)) :
    ∃ front claimed back, (woven ledger history).filterMap (render backendProvider ledger) =
        front ++ claimed :: back ∧ claimed.isUser = true ∧
      (front.filter (·.isUser)).length = k ∧
      front.filter (!·.isUser) = before.filter (!·.isUser) := by
  obtain ⟨front, back, hrows, hfront⟩ := mark_append _ before after row hrow hk
  obtain ⟨pieces, rest, hweave, hkeeps⟩ := Weave.weave_matched
    (ledger.map (·.rawText)) front back row k 0
  rw [← hrows, ← hhistory] at hweave
  have hwoven : woven ledger history = pieces ++ .claim row k :: rest := hweave
  have hpieces := renders_woven ledger history
  rw [hwoven] at hnumbers hpieces
  rw [hwoven, List.filterMap_append, render_cons]
  obtain ⟨hpieces, hclaims⟩ := List.forall_mem_append.1 hpieces
  obtain ⟨hlt, -⟩ : k < ledger.length ∧ row.isUser = true := (List.forall_mem_cons.1 hclaims).1
  obtain ⟨hfrontUsers, hfrontOthers⟩ := users_render backendProvider hpieces
  have hprompt : ledger[k]? = some ledger[k] := List.getElem?_eq_getElem hlt
  refine ⟨pieces.filterMap (render backendProvider ledger), claimItem row ledger[k],
    rest.filterMap (render backendProvider ledger), ?_, hrow, ?_, ?_⟩
  · rw [render, hprompt]
    rfl
  · have hget := congrArg (·[(Weave.numbers pieces).length]?) hnumbers
    simp only [Weave.numbers_append, Weave.numbers_claim] at hget
    rw [List.getElem?_append_right (Nat.le_refl _), Nat.sub_self, List.getElem?_cons_zero] at hget
    obtain ⟨_, hindex⟩ := List.getElem?_eq_some_iff.1 hget.symm
    rw [hfrontUsers.length_eq, ← hindex, List.getElem_range]
  · rw [hfrontOthers, hkeeps, hfront]

def said (id turn : String) (kind : ItemKind) (body : String) : SessionHistoryItem :=
  ⟨turn, none, none, [], ⟨id, kind, id, body, .complete, none⟩⟩

end OwnerHistory

end Nakode.Domain

import Nakode.Domain.Held

/-!
# The place of a reserved prompt

A queued prompt that is redirected is taken out of the queue while its turn starts, with the ids of
its neighbours (`beginPendingRedirect`). The queue goes on changing (`QueueEdit`), and if the turn
does not start the prompt goes back behind its predecessors and in front of its successors, of which
any may be gone (`restoreRedirectStart`). What a client sees meanwhile is the queue with the prompt
at that place (`queueViews`). A prompt that is appended under the id of a neighbour that was removed
is taken for this neighbour.
-/

namespace Nakode.Domain

open Transition

/-! ## The view -/

structure QueueItemView where
  id : String
  summary : String
  text : String
  attachmentCount : Nat
  redirecting : Bool
  deriving DecidableEq, Repr

/-- `first_line` -/
def summaryLine (text : String) : String :=
  let line := Text.trim (Text.firstLine text)
  if line.isEmpty then "New session" else line

def QueuedPrompt.view (prompt : QueuedPrompt) (redirecting : Bool) : QueueItemView :=
  { id := prompt.id
    summary := summaryLine prompt.text
    text := prompt.text
    attachmentCount := min (2 ^ 32 - 1) prompt.attachments.length
    redirecting }

/-- Where the view shows the prompt that is reserved. -/
def viewIndex (pending : RedirectStart) (queue : List QueueItemView) : Nat :=
  let position (id : String) := queue.findIdx? (·.id == id)
  (pending.successorIds.findSome? position).getD
    ((pending.predecessorIds.reverse.findSome? fun id => (position id).map (· + 1)).getD 0)

namespace DomainState

variable (s : DomainState)

def queueViews : List QueueItemView :=
  let nativeSteer := s.pendingSteer.bind fun pending => pending.queuedOrigin.map (·.promptId)
  let fallback := s.pendingRedirect.map (·.promptId)
  let queue := s.queue.map fun prompt =>
    prompt.view (nativeSteer == some prompt.id || fallback == some prompt.id)
  match s.redirectStart with
  | none => queue
  | some pending => queue.insertIdx (viewIndex pending queue) (pending.prompt.view true)

end DomainState

/-! ## What happens to the queue meanwhile -/

inductive QueueEdit
  | append (prompt : QueuedPrompt)
  | remove (promptId : String)
  deriving DecidableEq, Repr

namespace QueueEdit

def apply (s : DomainState) : QueueEdit → DomainState
  | append prompt => { s with queue := s.queue ++ [prompt] }
  | remove promptId => { s with queue := s.queue.eraseP (·.id == promptId) }

/-- The commands refuse a prompt under an id that is queued or reserved, and the removal of the
reserved one. -/
def Admitted (r : RedirectStart) (s : DomainState) : QueueEdit → Prop
  | append prompt => prompt.id ∉ s.queuedIds ∧ prompt.id ≠ r.prompt.id
  | remove promptId => promptId ≠ r.prompt.id

/-- Not the id of a neighbour that the reserved prompt had. -/
def Unused (r : RedirectStart) : QueueEdit → Prop
  | append prompt => prompt.id ∉ r.predecessorIds ∧ prompt.id ∉ r.successorIds
  | remove _ => True

def removed? : QueueEdit → Option String
  | append _ => none
  | remove promptId => some promptId

/-- The edits of a queue while a prompt is reserved. -/
def system (r : RedirectStart) : System DomainState QueueEdit where
  next s edit s' := edit.Admitted r s ∧ s' = edit.apply s

end QueueEdit

/-! ## The commands -/

namespace DomainState

variable {s : DomainState}

/-- While an engine is busy, a new prompt is appended. -/
theorem enqueuePromptWithId_busy {promptId text : String} {attachments : List PromptAttachment}
    (hid : validatePromptOperationId promptId = .ok ())
    (hvalid : s.validatePrompt text (!attachments.isEmpty) = .ok ())
    (hblocked : s.blockedReplay promptId = none)
    (hnew : s.promptIdentityMatches promptId text attachments = none) (hbusy : s.isBusy = true) :
    (s.enqueuePromptWithId promptId text attachments).2 =
      { QueueEdit.apply s (.append ⟨false, promptId, text, attachments, none⟩) with
        recoverablePrompt := none } := by
  simp [enqueuePromptWithId, hid, hvalid, hblocked, hnew, hbusy, QueueEdit.apply]

/-- While an engine is busy, a prompt that is not redirected is removed and nothing else happens. -/
theorem removeQueuedPrompt_busy {promptId : String} (hbusy : s.isBusy = true)
    (hredirecting : s.isRedirecting promptId = false) :
    (s.removeQueuedPrompt promptId).2 = QueueEdit.apply s (.remove promptId) := by
  have hstill : { s with queue := s.queue.eraseP (·.id == promptId) }.isBusy = true := hbusy
  unfold removeQueuedPrompt
  rw [if_neg (by simp [hredirecting])]
  split
  · simp [drainQueue, hstill, QueueEdit.apply]
  · next hmissing =>
    have hkept : s.queue.eraseP (·.id == promptId) = s.queue :=
      List.eraseP_of_forall_not (by simpa using hmissing)
    simp only [QueueEdit.apply, hkept]

end DomainState

/-! ## The place among neighbours -/

open DomainState

variable {s : DomainState} {before after queue : List QueuedPrompt}

/-- The first neighbour that is still queued decides. -/
theorem findSome?_neighbours {β : Type} {f : String → Option β} (kept : QueuedPrompt → Bool)
    {l : List QueuedPrompt} (hgone : ∀ q ∈ l, kept q = false → f q.id = none)
    (hthere : ∀ q ∈ l, kept q = true → (f q.id).isSome) :
    (l.map QueuedPrompt.id).findSome? f = (l.filter kept).head?.bind fun q => f q.id := by
  induction l with
  | nil => rfl
  | cons q l ih =>
    have ih := ih (fun q hq => hgone q (List.mem_cons_of_mem _ hq))
      (fun q hq => hthere q (List.mem_cons_of_mem _ hq))
    rw [List.map_cons, List.findSome?_cons]
    cases hq : kept q with
    | false =>
      rw [hgone q List.mem_cons_self hq, ih, List.filter_cons_of_neg (by simp [hq])]
    | true =>
      obtain ⟨b, hb⟩ := Option.isSome_iff_exists.1 (hthere q List.mem_cons_self hq)
      rw [List.filter_cons_of_pos hq, List.head?_cons, Option.bind_some, hb]

/-- A prompt of a queue with distinct ids is where its id is found. -/
theorem findIdx?_id {front back : List QueuedPrompt} {q : QueuedPrompt}
    (hids : ((front ++ q :: back).map QueuedPrompt.id).Nodup) :
    (front ++ q :: back).findIdx? (·.id == q.id) = some front.length := by
  rw [List.findIdx?_eq_some_iff_getElem]
  refine ⟨by simp, by simp, ?_⟩
  intro j hj
  rw [List.getElem_append_left hj]
  rw [List.map_append, List.nodup_append] at hids
  have hne := hids.2.2 front[j].id (List.mem_map_of_mem (List.getElem_mem hj)) q.id (by simp)
  simpa using hne

theorem findIdx?_id_eq_none {id : String} (h : id ∉ queue.map QueuedPrompt.id) :
    queue.findIdx? (·.id == id) = none := by
  rw [List.findIdx?_eq_none_iff]
  intro q hq
  have : q.id ≠ id := fun heq => h (heq ▸ List.mem_map_of_mem hq)
  simpa using this

/-- The neighbours that are left surround the place of the reserved prompt. -/
theorem redirectIndex_eq {p : QueuedPrompt} {appended : List QueuedPrompt}
    {kept : QueuedPrompt → Bool}
    (hids : ((before.filter kept ++ after.filter kept ++ appended).map QueuedPrompt.id).Nodup)
    (hgone : ∀ q ∈ before ++ after, kept q = false →
      q.id ∉ (before.filter kept ++ after.filter kept ++ appended).map QueuedPrompt.id) :
    redirectIndex ⟨p, before.map QueuedPrompt.id, after.map QueuedPrompt.id⟩
        (before.filter kept ++ after.filter kept ++ appended)
      = (before.filter kept).length := by
  generalize hqueue : before.filter kept ++ after.filter kept ++ appended = queue at hids hgone
  have hmissing : ∀ q ∈ before ++ after, kept q = false →
      queue.findIdx? (·.id == q.id) = none :=
    fun q hq hkept => findIdx?_id_eq_none (hgone q hq hkept)
  have hfound : ∀ q ∈ before ++ after, kept q = true →
      (queue.findIdx? (·.id == q.id)).isSome := by
    intro q hq hkept
    rw [List.findIdx?_isSome, List.any_eq_true]
    refine ⟨q, ?_, beq_self_eq_true _⟩
    rw [← hqueue]
    rcases List.mem_append.1 hq with hq | hq <;> simp [hq, hkept]
  unfold redirectIndex
  dsimp only
  rw [findSome?_neighbours kept (fun q hq => hmissing q (List.mem_append_right _ hq))
    (fun q hq => hfound q (List.mem_append_right _ hq))]
  cases hsuccs : after.filter kept with
  | cons first rest =>
    have hsplit : queue = before.filter kept ++ first :: (rest ++ appended) := by
      rw [← hqueue, hsuccs, List.append_assoc, List.cons_append]
    rw [List.head?_cons, Option.bind_some, hsplit, findIdx?_id (hsplit ▸ hids), Option.getD_some]
  | nil =>
    rw [List.head?_nil, Option.bind_none, Option.getD_none, ← List.map_reverse,
      findSome?_neighbours kept
        (f := fun id => (queue.findIdx? (·.id == id)).map (· + 1))
        (fun q hq hkept => by
          rw [hmissing q (List.mem_append_left _ (List.mem_reverse.1 hq)) hkept, Option.map_none])
        (fun q hq hkept => by
          rw [Option.isSome_map]
          exact hfound q (List.mem_append_left _ (List.mem_reverse.1 hq)) hkept),
      List.filter_reverse]
    cases hpreds : (before.filter kept).reverse with
    | nil =>
      rw [List.reverse_eq_nil_iff.1 hpreds]
      rfl
    | cons last rest =>
      have hfilter : before.filter kept = rest.reverse ++ [last] := by
        rw [← List.reverse_reverse (before.filter kept), hpreds, List.reverse_cons]
      have hsplit : queue = rest.reverse ++ last :: appended := by
        rw [← hqueue, hsuccs, hfilter]
        simp
      rw [List.head?_cons, Option.bind_some, hsplit, findIdx?_id (hsplit ▸ hids), hfilter]
      simp

/-! ## What is seen -/

theorem viewIndex_eq (pending : RedirectStart) (queue : List QueuedPrompt)
    (flag : QueuedPrompt → Bool) :
    viewIndex pending (queue.map fun q => q.view (flag q)) = redirectIndex pending queue := by
  simp only [viewIndex, redirectIndex, List.findIdx?_map, Function.comp_def]
  rfl

/-- While a prompt is reserved, a client sees the queue that it would go back to. -/
theorem queueViews_reserved {r : RedirectStart} (hr : s.redirectStart = some r)
    (hnew : r.prompt.id ∉ s.queuedIds) :
    s.queueViews =
      (s.restoreRedirectStart r).queue.map fun q => q.view (s.isRedirecting q.id) := by
  have hflags : (s.queue.map fun prompt => prompt.view
      ((s.pendingSteer.bind fun pending => pending.queuedOrigin.map (·.promptId)) == some prompt.id
        || s.pendingRedirect.map (·.promptId) == some prompt.id)) =
      s.queue.map fun q => q.view (s.isRedirecting q.id) := by
    refine List.map_congr_left fun q hq => ?_
    have hne : r.prompt.id ≠ q.id := fun heq => hnew (heq ▸ List.mem_map_of_mem hq)
    congr 1
    have hsteer : s.pendingSteer.any (fun pending => pending.queuedOrigin.any (·.promptId == q.id))
        = ((s.pendingSteer.bind fun pending => pending.queuedOrigin.map (·.promptId))
          == some q.id) := by
      cases s.pendingSteer with
      | none => rfl
      | some pending =>
        obtain ⟨_, _, _, origin⟩ := pending
        cases origin <;> rfl
    have hfallback : s.pendingRedirect.any (·.promptId == q.id)
        = (s.pendingRedirect.map (·.promptId) == some q.id) := by
      cases s.pendingRedirect <;> rfl
    rw [isRedirecting, isRedirected, hr, hsteer, hfallback, Option.any_some, beq_false_of_ne hne,
      Bool.false_or, Bool.or_comm]
  have hself : s.isRedirecting r.prompt.id = true := by
    simp [isRedirecting, isRedirected, hr]
  have hqueue : s.queue.any (·.id == r.prompt.id) = false := by
    simpa [queuedIds] using hnew
  rw [queueViews, hr, hflags, restoreRedirectStart, hqueue]
  dsimp only
  rw [viewIndex_eq, if_neg Bool.false_ne_true, List.map_insertIdx, hself]

/-! ## The reservation -/

/-- A reservation that was made takes the prompt out and remembers its neighbours. -/
theorem beginPendingRedirect_reserves {p : QueuedPrompt} {r : RedirectStart}
    (hqueue : s.queue = before ++ p :: after) (hids : s.queuedIds.Nodup)
    (hr : (s.beginPendingRedirect ⟨p.id⟩).1.redirectStart = some r) :
    r = ⟨p, before.map QueuedPrompt.id, after.map QueuedPrompt.id⟩ ∧
      (s.beginPendingRedirect ⟨p.id⟩).1.queue = before ++ after := by
  have hbefore : ∀ q ∈ before, (q.id == p.id) = false := by
    intro q hq
    rw [queuedIds, hqueue, List.map_append, List.nodup_append] at hids
    have := hids.2.2 q.id (List.mem_map_of_mem hq) p.id (by simp)
    simpa using this
  have hfind : s.queue.find? (·.id == p.id) = some p := by
    rw [hqueue, List.find?_append, List.find?_eq_none.2 (by simpa using hbefore)]
    simp
  have hidx : s.queue.findIdx (·.id == p.id) = before.length := by
    have hfirst := findIdx?_id (show ((before ++ p :: after).map QueuedPrompt.id).Nodup by
      rw [← hqueue]
      exact hids)
    rw [hqueue]
    exact (List.findIdx?_eq_some_iff_findIdx_eq.1 hfirst).2
  have herase : s.queue.eraseP (·.id == p.id) = before ++ after := by
    rw [hqueue, List.eraseP_append_right _ (by simpa using hbefore)]
    simp
  have htake : s.queue.take before.length = before := by
    rw [hqueue, List.take_left]
  have hdrop : s.queue.drop (before.length + 1) = after := by
    rw [hqueue, List.drop_append]
    simp
  rw [beginPendingRedirect, hfind] at hr ⊢
  dsimp only at hr ⊢
  rw [hidx, herase, htake, hdrop] at hr ⊢
  generalize hreserved : { s with
    queue := before ++ after
    redirectStart := some
      { prompt := p
        predecessorIds := before.map QueuedPrompt.id
        successorIds := after.map QueuedPrompt.id } } = t at hr ⊢
  have ht : t.queue = before ++ after ∧ t.redirectStart = some
      ⟨p, before.map QueuedPrompt.id, after.map QueuedPrompt.id⟩ := by
    rw [← hreserved]
    exact ⟨rfl, rfl⟩
  have hswitches := t.switches_prepareSelectedProviderTransition
  unfold beginPrompt at hr ⊢
  cases hprepare : t.prepareSelectedProviderTransition with
  | mk ready u =>
    rw [hprepare] at hswitches hr
    have hstart : u.redirectStart = t.redirectStart := hswitches.redirectStart
    have hkept : u.queue = t.queue := hswitches.queue
    cases ready with
    | false =>
      have hredirected : u.isRedirected p.id = true := by
        simp [isRedirected, hstart, ht.2]
      dsimp only at hr
      rw [putBack, if_pos hredirected, takeRedirectStart, hstart, ht.2] at hr
      dsimp only at hr
      rw [restoreRedirectStart] at hr
      split at hr <;> cases hr
    | true =>
      have hdispatch : ∀ prompt, (u.dispatchPrompt prompt).1.queue = u.queue ∧
          (u.dispatchPrompt prompt).1.redirectStart = u.redirectStart := by
        intro prompt
        unfold dispatchPrompt
        dsimp only
        split <;> exact ⟨rfl, rfl⟩
      dsimp only at hr ⊢
      rw [(hdispatch _).2, hstart, ht.2] at hr
      rw [(hdispatch _).1, hkept, ht.1]
      exact ⟨(Option.some.inj hr).symm, rfl⟩

/-! ## Every run -/

/-- The ids that edits remove. -/
def removedIds (edits : List QueueEdit) : List String := edits.filterMap QueueEdit.removed?

/-- The queue while a prompt is reserved: the neighbours that were not removed, and what was
appended. -/
structure Reserved (r : RedirectStart) (before after : List QueuedPrompt) (removed : List String)
    (appended : List QueuedPrompt) (s : DomainState) : Prop where
  start : s.redirectStart = some r
  queue : s.queue = before.filter (fun q => q.id ∉ removed)
    ++ after.filter (fun q => q.id ∉ removed) ++ appended
  distinct : s.queuedIds.Nodup
  outside : r.prompt.id ∉ s.queuedIds
  unused : ∀ q ∈ appended, q.id ∉ r.predecessorIds ∧ q.id ∉ r.successorIds

/-- With distinct ids, one prompt leaves the queue at most. -/
theorem eraseP_id_eq_filter {queue : List QueuedPrompt}
    (hids : (queue.map QueuedPrompt.id).Nodup) (id : String) :
    queue.eraseP (·.id == id) = queue.filter (·.id != id) := by
  induction queue with
  | nil => rfl
  | cons q queue ih =>
    rw [List.map_cons, List.nodup_cons] at hids
    by_cases hq : q.id = id
    · have hrest : ∀ q' ∈ queue, (q'.id != id) = true := by
        intro q' hq'
        have : q'.id ≠ id := fun heq => hids.1 (hq ▸ heq ▸ List.mem_map_of_mem hq')
        simpa using this
      rw [List.eraseP_cons_of_pos (by simpa using hq), List.filter_cons_of_neg (by simpa using hq),
        List.filter_eq_self.2 hrest]
    · rw [List.eraseP_cons_of_neg (by simpa using hq), List.filter_cons_of_pos (by simpa using hq),
        ih hids.2]

theorem Reserved.next {r : RedirectStart} {removed : List String} {appended : List QueuedPrompt}
    {edit : QueueEdit} (h : Reserved r before after removed appended s)
    (hadmits : edit.Admitted r s) (hunused : edit.Unused r) :
    ∃ appended', Reserved r before after (removed ++ edit.removed?.toList) appended'
        (edit.apply s) ∧
      ∀ q ∈ appended', q ∈ appended ∨ edit = .append q := by
  cases edit with
  | append prompt =>
    have hids : (QueueEdit.apply s (.append prompt)).queuedIds = s.queuedIds ++ [prompt.id] := by
      simp [QueueEdit.apply, queuedIds]
    refine ⟨appended ++ [prompt], ⟨h.start, ?_, ?_, ?_, ?_⟩, ?_⟩
    · simp only [QueueEdit.apply, QueueEdit.removed?, Option.toList_none, List.append_nil, h.queue,
        List.append_assoc]
    · rw [hids, List.nodup_append]
      refine ⟨h.distinct, List.nodup_singleton _, ?_⟩
      rintro id hid _ hmem rfl
      exact hadmits.1 (List.mem_singleton.1 hmem ▸ hid)
    · rw [hids, List.mem_append, List.mem_singleton]
      rintro (hid | hid)
      · exact h.outside hid
      · exact hadmits.2 hid.symm
    · intro q hq
      rcases List.mem_append.1 hq with hq | hq
      · exact h.unused q hq
      · exact List.mem_singleton.1 hq ▸ hunused
    · intro q hq
      rcases List.mem_append.1 hq with hq | hq
      · exact .inl hq
      · exact .inr (by rw [List.mem_singleton.1 hq])
  | remove id =>
    have hqueue : (QueueEdit.apply s (.remove id)).queue = s.queue.filter (·.id != id) :=
      eraseP_id_eq_filter h.distinct id
    have hsub : (QueueEdit.apply s (.remove id)).queuedIds.Sublist s.queuedIds := by
      rw [queuedIds, hqueue]
      exact List.filter_sublist.map _
    have hfilter : ∀ l : List QueuedPrompt,
        (l.filter fun q => q.id ∉ removed).filter (·.id != id)
          = l.filter fun q => q.id ∉ removed ++ [id] := by
      intro l
      rw [List.filter_filter]
      refine List.filter_congr fun q _ => ?_
      by_cases hq : q.id = id <;> simp [hq]
    refine ⟨appended.filter (·.id != id), ⟨h.start, ?_, h.distinct.sublist hsub,
      fun hmem => h.outside (hsub.subset hmem), fun q hq => h.unused q (List.mem_of_mem_filter hq)⟩,
      fun q hq => .inl (List.mem_of_mem_filter hq)⟩
    rw [hqueue, h.queue, List.filter_append, List.filter_append, hfilter, hfilter]
    rfl

theorem Reserved.run {r : RedirectStart} {edits : List QueueEdit} {t : DomainState}
    (hrun : ((QueueEdit.system r).restrict fun _ edit => edit.Unused r).Run s edits t)
    {removed : List String} {appended : List QueuedPrompt}
    (h : Reserved r before after removed appended s) :
    ∃ appended', Reserved r before after (removed ++ removedIds edits) appended' t ∧
      ∀ q ∈ appended', q ∈ appended ∨ .append q ∈ edits := by
  induction hrun generalizing removed appended with
  | nil => exact ⟨appended, by rwa [removedIds, List.filterMap_nil, List.append_nil], fun q hq => .inl hq⟩
  | @cons s s' t edit edits hstep _ ih =>
    obtain ⟨hunused, hadmits, rfl⟩ := hstep
    obtain ⟨mid, hmid, hfrom⟩ := h.next hadmits hunused
    obtain ⟨appended', hlast, hfrom'⟩ := ih hmid
    refine ⟨appended', ?_, ?_⟩
    · have hremoved : removedIds (edit :: edits) = edit.removed?.toList ++ removedIds edits := by
        cases edit <;> rfl
      rwa [hremoved, ← List.append_assoc]
    · intro q hq
      rcases hfrom' q hq with hq | hq
      · refine (hfrom q hq).imp_right ?_
        rintro rfl
        exact List.mem_cons_self
      · exact .inr (List.mem_cons_of_mem _ hq)

theorem insertIdx_append_length {α : Type} (l m : List α) (a : α) :
    (l ++ m).insertIdx l.length a = l ++ a :: m := by
  induction l with
  | nil => rw [List.nil_append, List.length_nil, List.insertIdx_zero, List.nil_append]
  | cons b l ih => rw [List.cons_append, List.length_cons, List.insertIdx_succ_cons, ih, List.cons_append]

/-- The place of the reserved prompt is between the neighbours that are left. -/
theorem Reserved.restored {p : QueuedPrompt} {removed : List String}
    {appended : List QueuedPrompt}
    (h : Reserved ⟨p, before.map QueuedPrompt.id, after.map QueuedPrompt.id⟩ before after removed
      appended s) :
    (s.restoreRedirectStart ⟨p, before.map QueuedPrompt.id, after.map QueuedPrompt.id⟩).queue =
      before.filter (fun q => q.id ∉ removed)
        ++ p :: (after.filter (fun q => q.id ∉ removed) ++ appended) := by
  have hqueue : s.queue.any (·.id == p.id) = false := by
    simpa [queuedIds] using h.outside
  have hgone : ∀ q ∈ before ++ after, decide (q.id ∉ removed) = false →
      q.id ∉ s.queue.map QueuedPrompt.id := by
    intro q hq hkept hmem
    have hremoved : q.id ∈ removed := by simpa using hkept
    rw [h.queue, List.map_append, List.mem_append] at hmem
    rcases hmem with hmem | hmem
    · rw [← List.filter_append] at hmem
      obtain ⟨q', hq', heq⟩ := List.mem_map.1 hmem
      have := (List.mem_filter.1 hq').2
      simp [heq, hremoved] at this
    · obtain ⟨q', hq', heq⟩ := List.mem_map.1 hmem
      have hunused := h.unused q' hq'
      rw [heq] at hunused
      rcases List.mem_append.1 hq with hq | hq
      · exact hunused.1 (List.mem_map_of_mem hq)
      · exact hunused.2 (List.mem_map_of_mem hq)
  have hdistinct := h.distinct
  rw [queuedIds] at hdistinct
  rw [h.queue] at hgone hdistinct
  rw [restoreRedirectStart, hqueue, if_neg Bool.false_ne_true]
  dsimp only
  rw [h.queue, redirectIndex_eq hdistinct hgone, List.append_assoc,
    insertIdx_append_length]

/-- While no prompt is appended under the id of a former neighbour, the reserved prompt goes back
once, behind the predecessors and in front of the successors that are left and of all that was
appended, and this is what a client sees. -/
theorem redirect_keeps_place {p : QueuedPrompt} {r : RedirectStart} {edits : List QueueEdit}
    {t : DomainState} (hqueue : s.queue = before ++ p :: after) (hids : s.queuedIds.Nodup)
    (hr : (s.beginPendingRedirect ⟨p.id⟩).1.redirectStart = some r)
    (hrun : ((QueueEdit.system r).restrict fun _ edit => edit.Unused r).Run
      (s.beginPendingRedirect ⟨p.id⟩).1 edits t) :
    ∃ appended : List QueuedPrompt,
      (∀ q ∈ appended, .append q ∈ edits) ∧
      t.queue = before.filter (fun q => q.id ∉ removedIds edits)
        ++ after.filter (fun q => q.id ∉ removedIds edits) ++ appended ∧
      (t.restoreRedirectStart r).queue = before.filter (fun q => q.id ∉ removedIds edits)
        ++ p :: (after.filter (fun q => q.id ∉ removedIds edits) ++ appended) ∧
      (t.restoreRedirectStart r).queuedIds.Nodup ∧
      t.queueViews =
        (t.restoreRedirectStart r).queue.map fun q => q.view (t.isRedirecting q.id) := by
  obtain ⟨rfl, hreserved⟩ := beginPendingRedirect_reserves hqueue hids hr
  rw [queuedIds, hqueue, List.map_append, List.map_cons, List.nodup_middle, List.nodup_cons,
    ← List.map_append] at hids
  have hbegun : Reserved ⟨p, before.map QueuedPrompt.id, after.map QueuedPrompt.id⟩ before after []
      [] (s.beginPendingRedirect ⟨p.id⟩).1 := by
    refine ⟨hr, ?_, ?_, ?_, fun _ hq => by cases hq⟩
    · rw [hreserved]
      simp
    · rw [queuedIds, hreserved]
      exact hids.2
    · rw [queuedIds, hreserved]
      exact hids.1
  obtain ⟨appended, hlast, hfrom⟩ := hbegun.run hrun
  rw [List.nil_append] at hlast
  have hback := queuedIds_restoreRedirectStart hlast.outside
  exact ⟨appended, fun q hq => (hfrom q hq).resolve_left List.not_mem_nil, hlast.queue,
    hlast.restored, hback.nodup_iff.2 (List.nodup_cons.2 ⟨hlast.outside, hlast.distinct⟩),
    queueViews_reserved hlast.start hlast.outside⟩

/-- The second prompt is reserved between no prompt and two others. -/
def reserving : List Action :=
  [.say "first", .native (.sessionCreated "thread" ""), .native (.turnStarted "turn-1"),
    .enqueue "second" "look here" [⟨"notes", some "notes.md", none⟩],
    .enqueue "third" "and there" [], .enqueue "fourth" "then stop" [],
    .steerQueued "second" "steer", .native (.turnCompleted "turn-1" .interrupted)]

/-- A successor is removed and a prompt is appended under its id. -/
def reappending : List Action :=
  reserving ++ [.remove "third", .enqueue "third" "and there" []]

/-- The reserved prompt goes back behind a successor that was never removed. -/
theorem reserved_prompt_displaced :
    (Reachable (native.after reserving) ∧
      (native.after reserving).queuedIds = ["third", "fourth"] ∧
      (native.after reserving).redirectStart.map (·.successorIds) = some ["third", "fourth"]) ∧
    (native.after reappending).queuedIds = ["fourth", "third"] ∧
    ((native.after reappending).step (.native (.disconnected "gone"))).1.queuedIds
      = ["fourth", "second", "third"] := by
  refine ⟨⟨.after native_fresh _, ?_, ?_⟩, ?_, ?_⟩ <;> decide +kernel

/-- A queue of three prompts whose middle one is to be redirected. -/
def threeQueued : DomainState :=
  { native with
    providerSessionId := some "thread"
    queue := [⟨false, "a", "one", [], none⟩, ⟨false, "b", "two", [], none⟩,
      ⟨false, "c", "three", [], none⟩] }

/-- Its predecessor is removed and a prompt is appended. -/
theorem redirect_keeps_place_three :
    (QueueEdit.apply (QueueEdit.apply (threeQueued.beginPendingRedirect ⟨"b"⟩).1 (.remove "a"))
      (.append ⟨false, "d", "four", [], none⟩)).queueViews.map (·.id) = ["b", "c", "d"] := by
  obtain ⟨appended, -, -, -, -, hviews⟩ := @redirect_keeps_place threeQueued
    [⟨false, "a", "one", [], none⟩] [⟨false, "c", "three", [], none⟩]
    ⟨false, "b", "two", [], none⟩ ⟨⟨false, "b", "two", [], none⟩, ["a"], ["c"]⟩
    [.remove "a", .append ⟨false, "d", "four", [], none⟩] _ rfl (by decide +kernel)
    (by decide +kernel)
    (.cons ⟨trivial, by simp [QueueEdit.Admitted], rfl⟩
      (.cons ⟨⟨by decide, by decide⟩, ⟨by decide +kernel, by decide⟩, rfl⟩ (.nil _)))
  rw [hviews]
  decide +kernel

end Nakode.Domain

import Nakode.Bridges.Sends
import Nakode.Lib.Retention

/-!
# The ledger of decided events

An event is recorded for a session only while the ledger has no row for it, and a session keeps its
newest rows and the one of the prompt that waits. While the clock does not go back, the newest
`maxBridgeReplayEventsPerSession` decisions of a session are all in the ledger, in their order
(`Ledger.newest`), so that an event is decided again only after that many others
(`Ledger.spaced`).
-/

namespace Nakode.Bridges

open Relational (Table)

/-- Of a list whose keys are distinct, the front is spared when as many elements are spared. -/
theorem notMem_drop_filter {α κ : Type} {key : α → κ} {p : α → Bool} {n : Nat}
    {front back : List α} (hnodup : ((front ++ back).map key).Nodup) (hlen : front.length ≤ n)
    {x : α} (hx : x ∈ front) : key x ∉ (((front ++ back).filter p).drop n).map key := by
  have hfront : (front.filter p).length ≤ n := (List.length_filter_le _ _).trans hlen
  have hdrop : ((front ++ back).filter p).drop n =
      (back.filter p).drop (n - (front.filter p).length) := by
    rw [List.filter_append, List.drop_append, List.drop_of_length_le hfront, List.nil_append]
  rw [List.map_append, List.nodup_append] at hnodup
  intro hmem
  rw [hdrop] at hmem
  obtain ⟨y, hy, hkey⟩ := List.mem_map.1 hmem
  have hy' : y ∈ back := List.mem_of_mem_filter (List.mem_of_mem_drop hy)
  exact hnodup.2.2 _ (List.mem_map_of_mem hx) _ (List.mem_map_of_mem hy') hkey.symm

/-- A row as the claim it was recorded for. -/
def claimOf (row : (String × String) × InboundEventRow) : Claim :=
  ⟨row.1.1, row.1.2, row.2.disposition⟩

/-- The rows of a session, the newest first. -/
def sessionRows (events : Table (String × String) InboundEventRow) (s : String) :
    List ((String × String) × InboundEventRow) :=
  (events.rows.filter (·.1.1 == s)).reverse

theorem keys_sessionRows (events : Table (String × String) InboundEventRow) (s : String) :
    ((sessionRows events s).map Prod.fst).Nodup := by
  rw [sessionRows, List.map_reverse, List.nodup_reverse]
  exact events.keys.sublist (List.filter_sublist.map _)

namespace Installation

variable {ι ε : Type}

/-- The decisions on events of a session, the newest first. -/
def decisions (i : Installation ι) (s : String) : List Claim :=
  i.decided.filter (·.sessionId == s)

/-- What the ledger has of the decisions of a session. -/
structure Ledger (s : String) (i : Installation ι) : Prop where
  spaced : Retention.Spaced maxBridgeReplayEventsPerSession
    ((i.decisions s).map (·.externalEventId))
  newest : (i.decisions s).take maxBridgeReplayEventsPerSession <+:
    (sessionRows i.store.inboundEvents s).map claimOf
  timed : (i.store.inboundEvents.rows.map (·.2.recordedAtMs)).Pairwise (· ≤ ·)
  recorded : ∀ row ∈ i.store.inboundEvents.rows, row.1.1 = s → claimOf row ∈ i.decided

/-- The rows of a session that may go, the newest first, without sorting them. -/
theorem prunable_eq {events : Table (String × String) InboundEventRow}
    (htimed : (events.rows.map (·.2.recordedAtMs)).Pairwise (· ≤ ·)) (s : String)
    (pendingEvent : Option String) :
    prunable events s pendingEvent =
      (sessionRows events s).filter fun row => some row.1.2 != pendingEvent := by
  rw [prunable, List.mergeSort_of_pairwise]
  · rw [sessionRows, List.filter_reverse, List.filter_filter]
    simp only [Bool.and_comm]
  · rw [List.pairwise_reverse]
    refine List.Pairwise.filter _ ?_
    simpa [List.pairwise_map] using htimed

theorem rows_saveBridgeInboundEventOn {events events' : Table (String × String) InboundEventRow}
    {bridges : List SessionBridgeRecord} {claim : Claim} {recordedAtMs : Int}
    (h : saveBridgeInboundEventOn events bridges claim recordedAtMs = some events') :
    events.find? claim.key = none ∧
      events' = (events.insertOrIgnore claim.key ⟨claim.disposition, recordedAtMs⟩).delete
        fun key _ => key ∈ ((prunable
          (events.insertOrIgnore claim.key ⟨claim.disposition, recordedAtMs⟩) claim.sessionId
          (protectedPendingEvent bridges claim.sessionId)).drop
            maxBridgeReplayEventsPerSession).map Prod.fst := by
  unfold saveBridgeInboundEventOn at h
  split at h
  · obtain ⟨inserted, hinsert, rfl⟩ := Option.map_eq_some_iff.1 h
    obtain ⟨hfree, rfl⟩ := Table.insert?_eq_some_iff.1 hinsert
    exact ⟨hfree, rfl⟩
  · cases h

/-- The rows are in the order of their times after a row is added now. -/
theorem timed_insert {events : Table (String × String) InboundEventRow}
    (htimed : (events.rows.map (·.2.recordedAtMs)).Pairwise (· ≤ ·))
    {key : String × String} (hfree : events.find? key = none) (row : InboundEventRow)
    (hclock : ∀ r ∈ events.rows, r.2.recordedAtMs ≤ row.recordedAtMs) :
    ((events.insertOrIgnore key row).rows.map (·.2.recordedAtMs)).Pairwise (· ≤ ·) := by
  rw [Table.rows_insertOrIgnore hfree, List.map_append, List.pairwise_append]
  refine ⟨htimed, List.pairwise_singleton _ _, fun t ht t' ht' => ?_⟩
  obtain ⟨r, hr, rfl⟩ := List.mem_map.1 ht
  rw [List.mem_map] at ht'
  obtain ⟨r', hr', rfl⟩ := ht'
  rw [List.mem_singleton.1 hr']
  exact hclock r hr

theorem sessionRows_insert_self {events : Table (String × String) InboundEventRow}
    {key : String × String} (hfree : events.find? key = none) (row : InboundEventRow) :
    sessionRows (events.insertOrIgnore key row) key.1 = (key, row) :: sessionRows events key.1 := by
  rw [sessionRows, Table.rows_insertOrIgnore hfree, List.filter_append, List.reverse_append]
  simp [sessionRows]

theorem sessionRows_insert_of_ne {events : Table (String × String) InboundEventRow}
    {key : String × String} {s : String} (hfree : events.find? key = none) (hs : key.1 ≠ s)
    (row : InboundEventRow) :
    sessionRows (events.insertOrIgnore key row) s = sessionRows events s := by
  rw [sessionRows, Table.rows_insertOrIgnore hfree, List.filter_append]
  simp [sessionRows, hs]

theorem sessionRows_delete (events : Table (String × String) InboundEventRow)
    (gone : List (String × String)) (s : String) :
    sessionRows (events.delete fun key _ => key ∈ gone) s =
      (sessionRows events s).filter fun row => row.1 ∉ gone := by
  rw [sessionRows, sessionRows, List.filter_reverse, Table.delete, List.filter_filter,
    List.filter_filter]
  simp only [Bool.and_comm, decide_not]

/-- The newest decisions are in front of the rows after a further one is recorded and the rows that
are too many go. -/
theorem newest_prune {rows : List ((String × String) × InboundEventRow)} {claims : List Claim}
    {n : Nat} {p : (String × String) × InboundEventRow → Bool}
    (hnodup : (rows.map Prod.fst).Nodup) (hnewest : claims.take n <+: rows.map claimOf) :
    claims.take n <+:
      (rows.filter fun row => row.1 ∉ ((rows.filter p).drop n).map Prod.fst).map claimOf := by
  have hfront : (rows.take (claims.take n).length).map claimOf = claims.take n := by
    rw [List.map_take]
    exact (List.prefix_iff_eq_take.1 hnewest).symm
  have hlen : (rows.take (claims.take n).length).length ≤ n := by
    rw [List.length_take, List.length_take]
    omega
  have hrows : rows = rows.take (claims.take n).length ++ rows.drop (claims.take n).length :=
    (List.take_append_drop _ _).symm
  rw [hrows] at hnodup
  have hspared : (rows.take (claims.take n).length).filter
      (fun row => row.1 ∉ ((rows.filter p).drop n).map Prod.fst) =
        rows.take (claims.take n).length := by
    refine List.filter_eq_self.2 fun row hrow => decide_eq_true ?_
    have hnot := notMem_drop_filter (p := p) hnodup hlen hrow
    rwa [← hrows] at hnot
  conv_rhs => rw [hrows]
  rw [List.filter_append, ← hrows, hspared, List.map_append, hfront]
  exact List.prefix_append _ _

theorem Ledger.saveClaim {s : String} {i i' : Installation ι} (h : Ledger s i)
    {bridges : List SessionBridgeRecord} {claim : Claim} {recordedAtMs : Int}
    (hclock : ∀ row ∈ i.store.inboundEvents.rows, row.2.recordedAtMs ≤ recordedAtMs)
    (hsave : i.saveClaim bridges recordedAtMs claim = some i') : Ledger s i' := by
  obtain ⟨events, hevents, rfl⟩ := Option.map_eq_some_iff.1 hsave
  obtain ⟨hfree, rfl⟩ := rows_saveBridgeInboundEventOn hevents
  have hrows := Table.rows_insertOrIgnore hfree ⟨claim.disposition, recordedAtMs⟩
  have htimed := timed_insert h.timed hfree ⟨claim.disposition, recordedAtMs⟩ hclock
  refine ⟨?_, ?_, ?_, ?_⟩
  · by_cases hs : claim.sessionId = s
    · subst hs
      rw [decisions, List.filter_cons_of_pos (by simp), List.map_cons]
      refine ⟨fun hmem => ?_, h.spaced⟩
      rw [← List.map_take] at hmem
      obtain ⟨old, hold, hevent⟩ := List.mem_map.1 hmem
      obtain ⟨row, hrow, rfl⟩ := List.mem_map.1 (h.newest.mem hold)
      have hmem := List.mem_of_mem_filter (List.mem_reverse.1 hrow)
      have hsession : row.1.1 = claim.sessionId := by
        simpa using (List.mem_filter.1 (List.mem_reverse.1 hrow)).2
      have hkey : row.1 = claim.key := Prod.ext hsession hevent
      exact Table.find?_eq_none_iff.1 hfree row.2 (hkey ▸ hmem)
    · rw [decisions, List.filter_cons_of_neg (by simpa using hs)]
      exact h.spaced
  · rw [sessionRows_delete, prunable_eq htimed]
    by_cases hs : claim.sessionId = s
    · subst hs
      refine newest_prune (keys_sessionRows _ _) ?_
      have hself : sessionRows (i.store.inboundEvents.insertOrIgnore claim.key
          ⟨claim.disposition, recordedAtMs⟩) claim.sessionId =
            (claim.key, ⟨claim.disposition, recordedAtMs⟩) ::
              sessionRows i.store.inboundEvents claim.sessionId :=
        sessionRows_insert_self hfree _
      rw [hself, decisions, List.filter_cons_of_pos (by simp), List.map_cons]
      obtain ⟨n, hn⟩ : ∃ n, maxBridgeReplayEventsPerSession = n + 1 := ⟨4095, rfl⟩
      have hnewest := h.newest
      rw [hn] at hnewest ⊢
      rw [List.take_succ_cons]
      refine List.cons_prefix_cons.2 ⟨rfl, List.IsPrefix.trans ?_ hnewest⟩
      exact List.take_prefix_take_left (Nat.le_succ n)
    · have hne : claim.key.1 ≠ s := hs
      rw [sessionRows_insert_of_ne hfree hne, decisions,
        List.filter_cons_of_neg (by simpa using hs)]
      have hall : ∀ row ∈ sessionRows i.store.inboundEvents s,
          decide (row.1 ∉ ((((sessionRows (i.store.inboundEvents.insertOrIgnore claim.key
            ⟨claim.disposition, recordedAtMs⟩) claim.sessionId).filter fun row =>
              some row.1.2 != protectedPendingEvent bridges claim.sessionId).drop
                maxBridgeReplayEventsPerSession).map Prod.fst)) = true := by
        intro row hrow
        refine decide_eq_true fun hmem => hs ?_
        obtain ⟨other, hother, hkey⟩ := List.mem_map.1 hmem
        have hother := List.mem_reverse.1 (List.mem_of_mem_filter (List.mem_of_mem_drop hother))
        have hclaim : other.1.1 = claim.sessionId := by simpa using (List.mem_filter.1 hother).2
        have hrow : row.1.1 = s := by simpa using (List.mem_filter.1 (List.mem_reverse.1 hrow)).2
        rw [← hclaim, hkey, hrow]
      rw [List.filter_eq_self.2 hall]
      exact h.newest
  · exact htimed.sublist (List.filter_sublist.map _)
  · intro row hrow hs
    have hrow := List.mem_of_mem_filter hrow
    rw [hrows] at hrow
    rcases List.mem_append.1 hrow with hrow | hrow
    · exact List.mem_cons_of_mem _ (h.recorded row hrow hs)
    · rw [List.mem_singleton.1 hrow]
      exact List.mem_cons_self

end Installation

end Nakode.Bridges

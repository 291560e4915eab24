import Nakode.Delegation.RunOrder
import Nakode.Lib.Greedy
import Nakode.Lib.Json
import Nakode.Lib.Utf8

/-!
# Pages of a session's runs

A client reads the newest page of a session's runs and then the page before the first run of each,
until a page says that there is none earlier (`readRuns`). A page ends at the run that it is asked
for with and holds the runs before it, up to a number of them and to a budget for their JSON; a
single run may exceed the budget (`IsPage`). The read ends, and its pages are the session's runs
(`run_pages_lossless`).
-/

namespace Nakode.Delegation

open Text

def maxSessionRuns : Nat := 64

def maxSessionRunsBytes : Nat := 4 * 1024 * 1024

/-- A run as a client sees it: its id, and what else is made of it. -/
structure RunView (ν : Type) where
  id : String
  rest : ν
  deriving DecidableEq, Repr

structure RunPage (ν : Type) where
  runs : List (RunView ν)
  hasEarlier : Bool
  deriving DecidableEq, Repr

/-- What is made of a run, and its JSON where it has one. -/
structure RunProjection (ν : Type) where
  rest : DelegatedRuns → ObservedRun → ν
  toJson : RunView ν → Option Json

namespace RunProjection

variable {ν : Type} (P : RunProjection ν) (s : DelegatedRuns)

def projectRun (run : ObservedRun) : RunView ν := ⟨run.id, P.rest s run⟩

/-- `serde_json::to_vec` of a view: how many bytes it is. -/
def encodedBytes (view : RunView ν) : Option Nat :=
  (P.toJson view).map fun json => len json.render

/-- A view is taken while its bytes fit what is left of the budget, and in any case as the first. -/
def fits (page : Nat × Bool) (view : RunView ν) : Bool :=
  !((P.encodedBytes view).getD page.1 > page.1 && page.2)

/-- What is left of the budget behind a view. -/
def spend (page : Nat × Bool) (view : RunView ν) : Nat × Bool :=
  (page.1 - (P.encodedBytes view).getD page.1, true)

/-- The index of the run that a page ends before. -/
def runStop : Option String → Option Nat
  | none => some s.subagents.length
  | some before => s.subagents.findIdx? (·.id == before)

/-- `projected_run_page` -/
def projectedRunPage (before : Option String) (limit : Nat) : Option (RunPage ν) :=
  (runStop s before).map fun stop =>
    let runs := Greedy.greedy P.fits P.spend (maxSessionRunsBytes, false)
      (((s.subagents.take stop).reverse.take limit).map (P.projectRun s))
    { hasEarlier := runs.length < stop, runs := runs.reverse }

/-- The newest page and the ones before it, in the order of reading. -/
def readRuns (limit : Nat) : Nat → Option String → Option (List (RunPage ν))
  | 0, _ => none
  | fuel + 1, before => do
    let page ← P.projectedRunPage s before limit
    if page.hasEarlier then
      let first ← page.runs.head?
      return page :: (← readRuns limit fuel (some first.id))
    else return [page]

/-! ## One page -/

def bytes (view : RunView ν) : Nat := (P.encodedBytes view).getD 0

/-- A page of the runs of a session that come behind some and before others. -/
structure IsPage (limit : Nat) (earlier shown later : List ObservedRun) (page : RunPage ν) :
    Prop where
  runs : s.subagents = earlier ++ shown ++ later
  views : page.runs = shown.map (P.projectRun s)
  hasEarlier : page.hasEarlier = true ↔ earlier ≠ []
  length_le : page.runs.length ≤ limit
  nonempty : earlier ++ shown ≠ [] → page.runs ≠ []
  /-- Only a single run exceeds the budget. -/
  budget : maxSessionRunsBytes < (page.runs.map P.bytes).sum → page.runs.length = 1

variable {P s}

theorem pos_bytes (hjson : ∀ view, (P.toJson view).isSome) (view : RunView ν) :
    P.encodedBytes view = some (P.bytes view) ∧ 0 < P.bytes view := by
  obtain ⟨json, hview⟩ := Option.isSome_iff_exists.1 (hjson view)
  obtain ⟨c, cs, hrender, -⟩ := render_cons json
  have hbytes : P.encodedBytes view = some (len json.render) := by
    rw [encodedBytes, hview, Option.map_some]
  refine ⟨by rw [bytes, hbytes, Option.getD_some], ?_⟩
  rw [bytes, hbytes, Option.getD_some, len_eq, hrender, String.utf8Len_cons]
  exact Nat.add_pos_right _ c.utf8Size_pos

/-- Behind its first view, a page holds no more than what is left of the budget. -/
theorem sum_bytes_le (hjson : ∀ view, (P.toJson view).isSome) (remaining : Nat)
    (views : List (RunView ν)) :
    ((Greedy.greedy P.fits P.spend (remaining, true) views).map P.bytes).sum ≤ remaining := by
  refine (Greedy.sum_greedy_le (Q := fun page => page.2 = true) ?_ rfl views :
    _ ≤ Prod.fst (remaining, true))
  intro page view hpage hfits
  rw [fits, hpage, (pos_bytes hjson view).1, Option.getD_some, Bool.and_true, Bool.not_eq_true',
    decide_eq_false_iff_not] at hfits
  refine ⟨rfl, ?_⟩
  rw [spend, (pos_bytes hjson view).1, Option.getD_some]
  omega

/-- The first view is taken in any case, and exceeds the budget only if it is the only one. -/
theorem greedy_spec (hjson : ∀ view, (P.toJson view).isSome) (views : List (RunView ν)) :
    (views ≠ [] → Greedy.greedy P.fits P.spend (maxSessionRunsBytes, false) views ≠ []) ∧
      (maxSessionRunsBytes
          < ((Greedy.greedy P.fits P.spend (maxSessionRunsBytes, false) views).map P.bytes).sum →
        (Greedy.greedy P.fits P.spend (maxSessionRunsBytes, false) views).length = 1) := by
  cases views with
  | nil => exact ⟨fun h => absurd rfl h, fun h => absurd h (Nat.not_lt_zero _)⟩
  | cons view views =>
    have hfits : P.fits (maxSessionRunsBytes, false) view = true := by
      rw [fits, Bool.and_false, Bool.not_false]
    rw [Greedy.greedy, if_pos hfits, spend, (pos_bytes hjson view).1, Option.getD_some]
    refine ⟨fun _ => List.cons_ne_nil _ _, ?_⟩
    have hrest := sum_bytes_le hjson (maxSessionRunsBytes - P.bytes view) views
    generalize Greedy.greedy P.fits P.spend (maxSessionRunsBytes - P.bytes view, true) views = taken
      at hrest ⊢
    intro hlarge
    rw [List.map_cons, List.sum_cons] at hlarge
    cases taken with
    | nil => rfl
    | cons next taken =>
      have hpos := (pos_bytes hjson next).2
      rw [List.map_cons, List.sum_cons] at hrest hlarge
      omega

theorem runStop_some (hids : (s.subagents.map (·.id)).Nodup) {earlier later : List ObservedRun}
    {run : ObservedRun} (hruns : s.subagents = earlier ++ run :: later) :
    runStop s (some run.id) = some earlier.length := by
  have hlt : earlier.length < s.subagents.length := by rw [hruns]; simp
  have hat : s.subagents[earlier.length] = run := by simp [hruns]
  rw [runStop, List.findIdx?_eq_some_iff_getElem]
  refine ⟨hlt, by rw [hat]; exact beq_self_eq_true _, fun j hj heq => ?_⟩
  have hsame : s.subagents[j] = s.subagents[earlier.length] :=
    Keyed.eq_of_mem hids (List.getElem_mem _) (List.getElem_mem _) (by simpa [hat] using heq)
  exact absurd ((List.Nodup.of_map _ hids).getElem_inj_iff.1 hsame) (Nat.ne_of_lt hj)

theorem exists_isPage (hjson : ∀ view, (P.toJson view).isSome) {before : Option String}
    {stop limit : Nat} (hstop : runStop s before = some stop) (hle : stop ≤ s.subagents.length)
    (hlimit : 1 ≤ limit) :
    ∃ page earlier shown later, P.projectedRunPage s before limit = some page ∧
      IsPage P s limit earlier shown later page ∧ earlier.length + shown.length = stop := by
  generalize htaken : Greedy.greedy P.fits P.spend (maxSessionRunsBytes, false)
    (((s.subagents.take stop).reverse.take limit).map (P.projectRun s)) = taken
  have hprefix := Greedy.greedy_isPrefix P.fits P.spend (maxSessionRunsBytes, false)
    (((s.subagents.take stop).reverse.take limit).map (P.projectRun s))
  obtain ⟨hnonempty, hbudget⟩ := greedy_spec hjson
    (((s.subagents.take stop).reverse.take limit).map (P.projectRun s))
  rw [htaken] at hprefix hnonempty hbudget
  -- what is taken are the views of the last runs, in reverse
  obtain ⟨shown, hshown, htaken'⟩ : ∃ shown : List ObservedRun,
      shown.reverse <+: (s.subagents.take stop).reverse.take limit ∧
        taken = shown.reverse.map (P.projectRun s) := by
    obtain ⟨runs, hruns, rfl⟩ := List.prefix_map_iff.1 hprefix
    exact ⟨runs.reverse, by rwa [List.reverse_reverse], by rw [List.reverse_reverse]⟩
  obtain ⟨earlier, hearlier⟩ := List.reverse_prefix.1 (hshown.trans (List.take_prefix _ _))
  have hlength : earlier.length + shown.length = stop := by
    have hlen := congrArg List.length hearlier
    rwa [List.length_append, List.length_take, Nat.min_eq_left hle] at hlen
  have htakenlen : taken.length = shown.length := by simp [htaken']
  refine ⟨{ hasEarlier := taken.length < stop, runs := taken.reverse }, earlier, shown,
    s.subagents.drop stop, ?_, ⟨?_, ?_, ?_, ?_, ?_, ?_⟩, hlength⟩
  · rw [projectedRunPage, hstop, Option.map_some, htaken]
  · rw [hearlier, List.take_append_drop]
  · simp [htaken']
  · rw [decide_eq_true_iff, htakenlen, ← List.length_pos_iff]
    omega
  · have hcount := hshown.length_le
    rw [List.length_reverse, List.length_take] at hcount
    rw [List.length_reverse, htakenlen]
    omega
  · intro hne
    rw [hearlier] at hne
    refine List.reverse_ne_nil_iff.2 (hnonempty ?_)
    rw [ne_eq, List.map_eq_nil_iff, List.take_eq_nil_iff, List.reverse_eq_nil_iff, not_or]
    exact ⟨by omega, hne⟩
  · intro hlarge
    rw [List.map_reverse, List.sum_reverse] at hlarge
    rw [List.length_reverse]
    exact hbudget hlarge

/-! ## Reading back -/

variable (P s) in
/-- The pages of a read of the runs before a position, in its order. -/
structure Paged (limit stop : Nat) (pages : List (RunPage ν)) : Prop where
  /-- Oldest page first, the views are those of the runs, each once and in order. -/
  views : pages.reverse.flatMap (·.runs) = (s.subagents.take stop).map (P.projectRun s)
  isPage : ∀ page ∈ pages, ∃ earlier shown later, IsPage P s limit earlier shown later page

theorem exists_read (hids : (s.subagents.map (·.id)).Nodup)
    (hjson : ∀ view, (P.toJson view).isSome) {limit : Nat} (hlimit : 1 ≤ limit)
    {before : Option String} {stop : Nat} (hstop : runStop s before = some stop)
    (hle : stop ≤ s.subagents.length) :
    ∃ pages, (∀ fuel, stop < fuel → P.readRuns s limit fuel before = some pages) ∧
      Paged P s limit stop pages := by
  induction stop using Nat.strong_induction_on generalizing before with
  | h stop ih =>
    obtain ⟨page, earlier, shown, later, hpage, hat, hlength⟩ := exists_isPage hjson hstop hle hlimit
    have htake : s.subagents.take stop = earlier ++ shown := by
      rw [hat.runs, List.take_left' (by rw [List.length_append, hlength])]
    cases hmore : page.hasEarlier with
    | false =>
      have hearlier : earlier = [] := by
        by_contra hne
        rw [hat.hasEarlier.2 hne] at hmore
        cases hmore
      refine ⟨[page], fun fuel hfuel => ?_, ?_, ?_⟩
      · cases fuel with
        | zero => omega
        | succ fuel =>
          rw [readRuns, hpage, Option.bind_eq_bind, Option.bind_some, hmore]
          rfl
      · rw [List.reverse_singleton, List.flatMap_singleton, hat.views, htake, hearlier,
          List.nil_append]
      · intro page' hpage'
        obtain rfl := List.mem_singleton.1 hpage'
        exact ⟨earlier, shown, later, hat⟩
    | true =>
      have hne : page.runs ≠ [] := hat.nonempty fun hnil =>
        hat.hasEarlier.1 hmore (List.append_eq_nil_iff.1 hnil).1
      obtain ⟨first, rest, hshown⟩ : ∃ first rest, shown = first :: rest := by
        cases shown with
        | nil => exact absurd hat.views hne
        | cons first rest => exact ⟨first, rest, rfl⟩
      have hhead : page.runs.head? = some (P.projectRun s first) := by
        rw [hat.views, hshown]
        rfl
      have hlt : earlier.length < stop := by
        rw [← hlength, hshown, List.length_cons]
        omega
      have hbefore : runStop s (some first.id) = some earlier.length :=
        runStop_some hids (show s.subagents = earlier ++ first :: (rest ++ later) by
          rw [hat.runs, hshown]
          simp)
      obtain ⟨pages, hread, hpaged⟩ := ih earlier.length hlt hbefore (by omega)
      refine ⟨page :: pages, fun fuel hfuel => ?_, ?_, ?_⟩
      · cases fuel with
        | zero => omega
        | succ fuel =>
          rw [readRuns, hpage, Option.bind_eq_bind, Option.bind_some, if_pos hmore, hhead]
          change (P.readRuns s limit fuel (some first.id)).bind _ = _
          rw [hread fuel (by omega)]
          rfl
      · rw [List.reverse_cons, List.flatMap_append, hpaged.views, List.flatMap_singleton,
          hat.views, htake, List.map_append, hat.runs, List.append_assoc, List.take_left]
      · intro page' hpage'
        rcases List.mem_cons.1 hpage' with rfl | hpage'
        · exact ⟨earlier, shown, later, hat⟩
        · exact hpaged.isPage page' hpage'

/-- Reading back from the newest page ends with the pages of all runs; and whatever is done with a
session's runs, they stay in order. -/
theorem run_pages_lossless (P : RunProjection ν) (hjson : ∀ view, (P.toJson view).isSome)
    (env : RunSession) :
    (∀ (s : DelegatedRuns) (limit : Nat), (s.subagents.map (·.id)).Nodup → 1 ≤ limit →
        ∃ pages,
          (∀ fuel, s.subagents.length < fuel → P.readRuns s limit fuel none = some pages) ∧
          pages.reverse.flatMap (·.runs) = s.subagents.map (P.projectRun s) ∧
          ∀ page ∈ pages, ∃ earlier shown later, IsPage P s limit earlier shown later page) ∧
      (∀ (s t : DelegatedRuns) (ops : List DelegatedRuns.RunOp), s.Ordered →
        (DelegatedRuns.system env).Run s ops t → t.Ordered) ∧
      ∀ sessionId backendProvider, DelegatedRuns.Ordered ⟨sessionId, backendProvider, [], []⟩ := by
  refine ⟨fun s limit hids hlimit => ?_, fun s t ops hs hrun => hs.of_run hrun, ?_⟩
  · obtain ⟨pages, hread, hpaged⟩ :=
      exists_read hids hjson hlimit (show runStop s none = some s.subagents.length from rfl)
        (Nat.le_refl s.subagents.length)
    have hviews := hpaged.views
    rw [List.take_length] at hviews
    exact ⟨pages, hread, hviews, hpaged.isPage⟩
  · intro sessionId backendProvider
    exact ⟨.nil, List.nodup_nil, fun e he => absurd he List.not_mem_nil⟩

end RunProjection

/-! ## Two runs of one millisecond -/

/-- A finished run. -/
def finishedRun (id : String) (startedAtMs : Nat) : ObservedRun where
  id
  agent := "reviewer"
  provider := "codex"
  model := none
  providerSessionId := none
  objective := "Map persistence"
  status := .completed
  latestActivity := "Completed"
  title := some "Map persistence"
  parentRunId := none
  policyJson := "{}"
  remainingDelegationDepth := 0
  startedAtMs
  endedAtMs := none
  terminationKind := some "completed"
  terminationDetail := none
  salvage := none
  continuedFromRunId := none
  continuedByRunId := none
  continuationDepth := 0
  additionalTurns := none

/-- Views that show the objective of a run. -/
def objectives : RunProjection String where
  rest _ run := run.objective
  toJson view := some (.obj [("id", .str view.id), ("objective", .str view.rest)])

/-- A session without agents. -/
def noAgents : RunSession where
  find _ := none
  validateCloudAgentExecution _ := .ok ()
  validateValidator _ _ := .ok ()
  resolveDelegatedImages _ references := .ok references.length
  modelSupportsImages _ _ := false
  policyJson _ := "{}"
  readPolicy _ := .error "missing field"
  summarizeActivity activity fallback := if activity.isEmpty then fallback else activity
  buildSubagentSalvage run _ := ⟨[], [], run.objective⟩
  ending _ _ := ⟨.failed, "Failed", some "failed", none, none⟩

/-- The runs of a session that was restored. -/
def restoredRuns : DelegatedRuns :=
  ((⟨none, "codex", [], []⟩ : DelegatedRuns).installSubagents noAgents
    [⟨finishedRun "agent-b" 7, "s"⟩, ⟨finishedRun "agent-c" 3, "s"⟩, ⟨finishedRun "agent-a" 7, "s"⟩]
    9).1

theorem run_pages_lossless_restored :
    restoredRuns.subagents.map (·.id) = ["agent-c", "agent-a", "agent-b"] ∧ restoredRuns.Ordered ∧
      ∃ pages, (∀ fuel, 3 < fuel → objectives.readRuns restoredRuns 2 fuel none = some pages) ∧
        pages.reverse.flatMap (·.runs)
          = restoredRuns.subagents.map (objectives.projectRun restoredRuns) := by
  obtain ⟨hpages, hordered, hnew⟩ :=
    RunProjection.run_pages_lossless objectives (fun _ => rfl) noAgents
  refine ⟨by decide +kernel, ?_, ?_⟩
  · refine hordered _ _ [.install
      [⟨finishedRun "agent-b" 7, "s"⟩, ⟨finishedRun "agent-c" 3, "s"⟩,
        ⟨finishedRun "agent-a" 7, "s"⟩] 9] (hnew none "codex") ?_
    have hdistinct : (["agent-b", "agent-c", "agent-a"] : List String).Nodup := by decide
    exact .single ⟨hdistinct, rfl⟩
  · obtain ⟨pages, hread, hviews, -⟩ := hpages restoredRuns 2 (by decide +kernel) (by decide)
    exact ⟨pages, hread, hviews⟩

end Nakode.Delegation

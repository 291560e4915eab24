import Nakode.Domain.State
import Nakode.Lib.Grouping
import Nakode.Lib.Outcome

/-!
# Groups of questions

Questions that were asked together wait and are answered together. The projection shows each group
as one interaction (`interactions`); an answer to it is checked as a whole before any question is
taken away (`resolveQuestionInteraction`). Identities are made by UUIDs by name, and texts name ids
in their debug form; both are parameters.
-/

namespace Nakode.Questions

open Domain (ActiveTurn ApprovalRequest DomainCommandError)
open Outcome (mapM_eq_ok_iff)

structure QuestionOption where
  label : String
  description : Option String
  deriving DecidableEq, Repr

structure QuestionRequest where
  /-- The identity of the waiter at the provider. -/
  id : String
  /-- The identity that the tool gave the item. -/
  logicalId : String
  groupId : String
  order : Nat
  title : String
  question : String
  options : List QuestionOption
  multi : Bool
  recommended : Option Nat
  deriving DecidableEq, Repr

inductive QuestionAnswer where
  | options (labels : List String)
  | text (text : String)
  deriving DecidableEq, Repr

structure QuestionResponse where
  questionId : String
  optionIds : List String
  text : Option String
  deriving DecidableEq, Repr

inductive InteractionResolution where
  | approveOnce
  | approveForSession
  | decline
  | answer (optionIds : List String)
  | answerQuestions (answers : List QuestionResponse)
  deriving DecidableEq, Repr

/-- `BackendCommand::ResolveQuestion` -/
structure ResolveQuestion where
  id : String
  answer : QuestionAnswer
  deriving DecidableEq, Repr

/-- What questions depend on in the state of a session. -/
structure State where
  nakodeSessionId : String
  activeTurn : Option ActiveTurn
  approvals : List ApprovalRequest
  questions : List QuestionRequest
  statusMessage : String
  deriving DecidableEq, Repr

/-- UUIDs by name, and the debug form of a text. -/
structure Names where
  uuidV5 : String → String
  debug : String → String

namespace Names

variable (N : Names)

def scopedId (kind value : String) : String := N.uuidV5 (kind ++ ":" ++ value)

/-- The id of an approval is the JSON text of the provider's id. -/
def approvalInteractionId (sessionId providerId : String) : String :=
  N.scopedId "interaction" (sessionId ++ ":approval:" ++ providerId)

def questionInteractionId (sessionId groupId : String) : String :=
  N.scopedId "interaction" (sessionId ++ ":question:" ++ groupId)

end Names

/-! ## The view -/

inductive InteractionKind where
  | approval
  | question
  deriving DecidableEq, Repr

inductive InteractionStatus where
  | pending
  | resolved
  | declined
  | cancelled
  deriving DecidableEq, Repr

structure InteractionOptionView where
  id : String
  label : String
  description : Option String
  recommended : Bool
  deriving DecidableEq, Repr

structure InteractionQuestionView where
  id : String
  title : String
  detail : String
  options : List InteractionOptionView
  multiple : Bool
  deriving DecidableEq, Repr

structure InteractionView where
  id : String
  revision : Nat
  kind : InteractionKind
  status : InteractionStatus
  title : String
  detail : String
  options : List InteractionOptionView
  multiple : Bool
  questions : List InteractionQuestionView
  deriving DecidableEq, Repr

def questionOptions (request : QuestionRequest) : List InteractionOptionView :=
  request.options.zipIdx.map fun (option, index) =>
    { id := toString index
      label := option.label
      description := option.description
      recommended := request.recommended == some index }

def interactionQuestion (request : QuestionRequest) : InteractionQuestionView :=
  { id := request.logicalId
    title := request.title
    detail := request.question
    options := questionOptions request
    multiple := request.multi }

def interactionOption (id label : String) : InteractionOptionView := ⟨id, label, none, false⟩

/-- `sort_by_key(order)` -/
def sortByOrder (prompts : List QuestionRequest) : List QuestionRequest :=
  prompts.insertionSort (·.order ≤ ·.order)

def interactions (N : Names) (s : State) (revision : Nat) : List InteractionView :=
  s.approvals.map (fun approval =>
    { id := N.approvalInteractionId s.nakodeSessionId approval.id
      revision
      kind := .approval
      status := .pending
      title := approval.title
      detail := approval.detail
      options := [interactionOption "approve_once" "Approve once",
        interactionOption "approve_session" "Approve for session",
        interactionOption "decline" "Decline"]
      multiple := false
      questions := [] }) ++
  (Grouping.groups QuestionRequest.groupId s.questions).filterMap fun (groupId, prompts) =>
    let prompts := sortByOrder prompts
    prompts.head?.map fun first =>
      { id := N.questionInteractionId s.nakodeSessionId groupId
        revision
        kind := .question
        status := .pending
        title := first.title
        detail := first.question
        options := questionOptions first
        multiple := first.multi
        questions := prompts.map interactionQuestion }

/-! ## The answer -/

/-- `str::parse::<usize>` -/
def parseUsize (s : String) : Option Nat :=
  let digits := match s.toList with
    | '+' :: rest => rest
    | cs => cs
  if digits.isEmpty || !digits.all (fun c => '0' ≤ c && c ≤ '9') then none
  else
    let n := digits.foldl (fun n c => 10 * n + (c.toNat - 48)) 0
    if n < 2 ^ 64 then some n else none

/-- A question that an answer was found for: its position, its waiter, the answer, and the text of
the answer. -/
structure Resolved where
  position : Nat
  id : String
  answer : QuestionAnswer
  shown : String

/-- `sort_unstable` and `dedup` -/
def sortDedup (indexes : List Nat) : List Nat :=
  (indexes.insertionSort (· ≤ ·)).destutter (· ≠ ·)

/-- The index that an option id denotes. -/
def optionIndex (N : Names) (question : QuestionRequest) (optionId : String) :
    Except DomainCommandError Nat :=
  match (parseUsize optionId).filter (· < question.options.length) with
  | some index => .ok index
  | none =>
    .error (.invalid ("question " ++ N.debug question.logicalId ++ " has unknown option "
      ++ N.debug optionId))

/-- The answer by options. -/
def optionsAnswer (N : Names) (question : QuestionRequest) (optionIds : List String) :
    Except DomainCommandError (QuestionAnswer × String) :=
  let named := "question " ++ N.debug question.logicalId
  if optionIds.isEmpty then
    .error (.invalid (named ++ " requires an option or free-text answer"))
  else if !question.multi && optionIds.length != 1 then
    .error (.invalid (named ++ " accepts exactly one option"))
  else do
    let indexes ← optionIds.mapM (optionIndex N question)
    let sorted := sortDedup indexes
    if sorted.length != optionIds.length then
      .error (.invalid (named ++ " option IDs must be unique"))
    else
      let labels := sorted.filterMap fun index => question.options[index]?.map (·.label)
      .ok (.options labels, ", ".intercalate labels)

/-- The answer of one question, or what is wrong with it. -/
def questionAnswer (N : Names) (question : QuestionRequest) (response : QuestionResponse) :
    Except DomainCommandError (QuestionAnswer × String) :=
  let named := "question " ++ N.debug question.logicalId
  if response.text.any fun text => (Text.trim text).isEmpty then
    .error (.invalid (named ++ " has a blank free-text answer"))
  else if response.text.isSome && !response.optionIds.isEmpty then
    .error (.invalid (named ++ " must use option labels or free text, not both"))
  else match response.text with
    | some text => .ok (.text (Text.trim text), Text.trim text)
    | none => optionsAnswer N question response.optionIds

def buildQuestionResolutions (N : Names) (group : List (QuestionRequest × Nat))
    (responses : List QuestionResponse) : Except DomainCommandError (List Resolved) :=
  group.mapM fun (question, position) =>
    match responses.find? (·.questionId == question.logicalId) with
    | none =>
      .error (.invalid ("question " ++ N.debug question.logicalId ++ " is unanswered"))
    | some response => do
      let (answer, shown) ← questionAnswer N question response
      return { position, id := question.id, answer, shown }

/-- The checks on the ids of responses, with the ids that came before. -/
def checkResponseIds (N : Names) (group : List (QuestionRequest × Nat)) :
    List String → List QuestionResponse → Except DomainCommandError Unit
  | _, [] => .ok ()
  | seen, response :: rest =>
    if seen.contains response.questionId then
      .error (.invalid ("duplicate answer for question " ++ N.debug response.questionId))
    else if !group.any (fun (question, _) => question.logicalId == response.questionId) then
      .error (.invalid ("unknown question " ++ N.debug response.questionId))
    else checkResponseIds N group (response.questionId :: seen) rest

/-- The responses of a resolution to a group. -/
def groupResponses (group : List (QuestionRequest × Nat)) :
    InteractionResolution → Except DomainCommandError (List QuestionResponse)
  | .answer optionIds =>
    match group with
    | [(question, _)] => .ok [⟨question.logicalId, optionIds, none⟩]
    | _ => .error (.invalid ("this interaction contains multiple questions; submit one " ++
        "structured answer for each question"))
  | .answerQuestions answers => .ok answers
  | _ => .error (.invalid "a question interaction must be answered")

/-- Everything that is checked before a question is taken away. -/
def resolvedQuestions (N : Names) (s : State) (interactionId : String)
    (resolution : InteractionResolution) : Except DomainCommandError (List Resolved) :=
  if s.activeTurn.any (·.cancelling) then
    .error (.conflict "the question's turn is being cancelled")
  else match (s.questions.map (·.groupId)).find? fun groupId =>
      N.questionInteractionId s.nakodeSessionId groupId == interactionId with
    | none => .error (.notFound interactionId)
    | some groupId => do
      let group := (s.questions.zipIdx.filter (·.1.groupId == groupId)).insertionSort
        (·.1.order ≤ ·.1.order)
      let responses ← groupResponses group resolution
      if responses.length != group.length then
        .error (.invalid ("expected answers for " ++ toString group.length
          ++ " questions, received " ++ toString responses.length
          ++ "; every question must be answered"))
      else
        checkResponseIds N group [] responses
        buildQuestionResolutions N group responses

def resolveQuestionInteraction (N : Names) (s : State) (interactionId : String)
    (resolution : InteractionResolution) :
    Except DomainCommandError (List ResolveQuestion) × State :=
  match resolvedQuestions N s interactionId resolution with
  | .error e => (.error e, s)
  | .ok resolved =>
    let positions := (resolved.map (·.position)).insertionSort (· ≥ ·)
    (.ok (resolved.map fun r => ⟨r.id, r.answer⟩),
      { s with
        questions := Grouping.eraseAll s.questions positions
        statusMessage := "Answered: " ++ "; ".intercalate (resolved.map (·.shown)) })

/-! ## What an answer is -/

/-- A response answers a question as it is shown: with a text, or with different options that were
listed. -/
inductive Answers (v : InteractionQuestionView) (r : QuestionResponse) : QuestionAnswer → Prop
  | text {text : String} (htext : r.text = some text) (hblank : Text.trim text ≠ "")
      (hoptions : r.optionIds = []) : Answers v r (.text (Text.trim text))
  | options {indexes : List Nat} (htext : r.text = none) (hsome : r.optionIds ≠ [])
      (hdenote : r.optionIds.map parseUsize = indexes.map some)
      (hlisted : ∀ i ∈ indexes, i < v.options.length) (hdistinct : indexes.Nodup)
      (hone : v.multiple = false → r.optionIds.length = 1) :
      Answers v r (.options
        (((v.options.map (·.label)).zipIdx.filter fun x => x.2 ∈ indexes).map Prod.fst))

/-- The responses that a resolution gives to what a view shows. -/
inductive Gives (view : InteractionView) : InteractionResolution → List QuestionResponse → Prop
  | one {v : InteractionQuestionView} {optionIds : List String} (h : view.questions = [v]) :
      Gives view (.answer optionIds) [⟨v.id, optionIds, none⟩]
  | each {answers : List QuestionResponse} : Gives view (.answerQuestions answers) answers

/-- Each question of a view gets one response, which answers it, and there is no other. -/
structure Answered (view : InteractionView) (resolution : InteractionResolution)
    (responses : List QuestionResponse) : Prop where
  gives : Gives view resolution responses
  each : (responses.map (·.questionId)).Perm (view.questions.map (·.id))
  valid : ∀ v ∈ view.questions, ∀ r ∈ responses, r.questionId = v.id → ∃ a, Answers v r a

/-! ## One question -/

/-- The sorted indexes without repetitions are as many as the indexes exactly when none is
repeated. -/
theorem length_sortDedup_iff {indexes : List Nat} :
    (sortDedup indexes).length = indexes.length ↔ indexes.Nodup := by
  have hperm := List.perm_insertionSort (· ≤ ·) indexes
  have hsorted := List.pairwise_insertionSort (· ≤ ·) indexes
  have hchain : (indexes.insertionSort (· ≤ ·)).IsChain (· ≠ ·) ↔ indexes.Nodup := by
    rw [← hperm.nodup_iff]
    constructor
    · intro h
      have hlt : (indexes.insertionSort (· ≤ ·)).IsChain (· < ·) :=
        List.isChain_iff_getElem.2 fun i hi =>
          Nat.lt_of_le_of_ne (hsorted.isChain.getElem i hi) (h.getElem i hi)
      exact hlt.pairwise.imp Nat.ne_of_lt
    · intro h
      exact h.isChain
  rw [← hchain, ← List.destutter_eq_self_iff, sortDedup, ← hperm.length_eq]
  constructor
  · intro h
    exact (List.destutter_sublist _ _).eq_of_length h
  · intro h
    rw [h]

theorem sortDedup_of_nodup {indexes : List Nat} (h : indexes.Nodup) :
    (sortDedup indexes).Pairwise (· < ·) ∧ (sortDedup indexes).Perm indexes := by
  have hperm := List.perm_insertionSort (· ≤ ·) indexes
  have heq : sortDedup indexes = indexes.insertionSort (· ≤ ·) := by
    refine (List.destutter_sublist _ _).eq_of_length ?_
    rw [hperm.length_eq]
    exact length_sortDedup_iff.2 h
  rw [heq]
  refine ⟨?_, hperm⟩
  have hne : (indexes.insertionSort (· ≤ ·)).Nodup := hperm.nodup_iff.2 h
  exact ((List.pairwise_insertionSort (· ≤ ·) indexes).and hne).imp fun h =>
    Nat.lt_of_le_of_ne h.1 h.2

/-- Looking up increasing positions gives the elements at these positions. -/
theorem filterMap_getElem? {α : Type} {l : List α} {is : List Nat}
    (hsorted : is.Pairwise (· < ·)) (hlt : ∀ i ∈ is, i < l.length) :
    is.filterMap (l[·]?) = (l.zipIdx.filter fun x => x.2 ∈ is).map Prod.fst := by
  have hpositions : (l.zipIdx.filter fun x => x.2 ∈ is).map Prod.snd = is := by
    have hindexes : (l.zipIdx.map Prod.snd).Pairwise (· < ·) := by
      rw [List.zipIdx_map_snd]
      exact List.pairwise_lt_range' ..
    have hmapped := (hindexes.sublist (List.filter_sublist.map Prod.snd) :
      ((l.zipIdx.filter fun x => x.2 ∈ is).map Prod.snd).Pairwise (· < ·))
    refine List.Perm.eq_of_pairwise (fun a b _ _ hab hba => absurd hba (Nat.lt_asymm hab))
      hmapped hsorted ?_
    refine (List.perm_ext_iff_of_nodup (hmapped.imp Nat.ne_of_lt) (hsorted.imp Nat.ne_of_lt)).2 ?_
    intro i
    simp only [List.mem_map, List.mem_filter, decide_eq_true_eq, Prod.exists, exists_eq_right]
    constructor
    · rintro ⟨a, -, hi⟩
      exact hi
    · intro hi
      exact ⟨l.get ⟨i, hlt i hi⟩,
        List.mem_zipIdx_iff_getElem?.2 (List.getElem?_eq_getElem (hlt i hi)), hi⟩
  conv_lhs => rw [← hpositions, List.filterMap_map]
  rw [← List.filterMap_eq_map]
  refine List.filterMap_congr fun x hx => ?_
  exact List.mem_zipIdx_iff_getElem?.1 (List.mem_of_mem_filter hx)

theorem length_questionOptions (request : QuestionRequest) :
    (questionOptions request).length = request.options.length := by
  rw [questionOptions, List.length_map, List.length_zipIdx]

theorem labels_questionOptions (request : QuestionRequest) :
    (questionOptions request).map (·.label) = request.options.map (·.label) := by
  have hzip : (request.options.zipIdx.map Prod.fst).map (·.label) = request.options.map (·.label) := by
    rw [List.zipIdx_map_fst]
  rw [questionOptions, List.map_map, ← hzip, List.map_map]
  rfl

theorem optionIndex_eq_ok_iff {N : Names} {question : QuestionRequest} {optionId : String}
    {i : Nat} : optionIndex N question optionId = .ok i ↔
      parseUsize optionId = some i ∧ i < question.options.length := by
  unfold optionIndex
  cases hparse : parseUsize optionId with
  | none => simp
  | some n =>
    by_cases hn : n < question.options.length
    · simp only [Option.filter_some, hn, decide_true, if_true, Except.ok.injEq, Option.some.injEq]
      constructor
      · rintro rfl
        exact ⟨rfl, hn⟩
      · exact And.left
    · simp only [Option.filter_some, hn, decide_false, Bool.false_eq_true, if_false,
        reduceCtorEq, Option.some.injEq, false_iff, not_and]
      rintro rfl
      exact hn

theorem mapM_optionIndex_iff {N : Names} {question : QuestionRequest} {optionIds : List String}
    {indexes : List Nat} : optionIds.mapM (optionIndex N question) = .ok indexes ↔
      optionIds.map parseUsize = indexes.map some ∧ ∀ i ∈ indexes, i < question.options.length := by
  rw [mapM_eq_ok_iff]
  induction optionIds generalizing indexes with
  | nil => cases indexes <;> simp
  | cons optionId optionIds ih =>
    cases indexes with
    | nil => simp
    | cons i indexes =>
      rw [List.forall₂_cons, ih, optionIndex_eq_ok_iff, List.map_cons, List.map_cons,
        List.cons.injEq, List.forall_mem_cons]
      tauto

/-- Options answer a question when they were listed and none is chosen twice. -/
theorem optionsAnswer_eq_ok_iff {N : Names} {question : QuestionRequest} {optionIds : List String}
    {a : QuestionAnswer} :
    (∃ shown, optionsAnswer N question optionIds = .ok (a, shown)) ↔
      optionIds ≠ [] ∧ (question.multi = false → optionIds.length = 1) ∧
      ∃ indexes : List Nat, optionIds.map parseUsize = indexes.map some ∧
        (∀ i ∈ indexes, i < question.options.length) ∧ indexes.Nodup ∧
        a = .options (((question.options.map (·.label)).zipIdx.filter
          fun x => x.2 ∈ indexes).map Prod.fst) := by
  have hlabels : ∀ {indexes : List Nat}, indexes.Nodup →
      (∀ i ∈ indexes, i < question.options.length) →
      (sortDedup indexes).filterMap (fun i => question.options[i]?.map (·.label)) =
        ((question.options.map (·.label)).zipIdx.filter fun x => x.2 ∈ indexes).map Prod.fst := by
    intro indexes hnodup hlt
    obtain ⟨hsorted, hperm⟩ := sortDedup_of_nodup hnodup
    have hget := filterMap_getElem? (l := question.options.map (·.label)) hsorted
      (fun i hi => by simpa using hlt i (hperm.mem_iff.1 hi))
    simp only [List.getElem?_map, hperm.mem_iff] at hget
    exact hget
  unfold optionsAnswer
  dsimp only
  split
  · next hempty => simp [List.isEmpty_iff.1 hempty]
  next hempty =>
  split
  · next hmany =>
    have hmulti : question.multi = false ∧ optionIds.length ≠ 1 := by simpa using hmany
    simp [hmulti]
  next hmany =>
  have hone : question.multi = false → optionIds.length = 1 := by
    intro hmulti
    simpa [hmulti] using hmany
  have hne : optionIds ≠ [] := mt List.isEmpty_iff.2 hempty
  constructor
  · rintro ⟨shown, h⟩
    obtain ⟨indexes, hindexes, h⟩ := Outcome.bind_eq_ok.1 h
    obtain ⟨hparse, hlt⟩ := mapM_optionIndex_iff.1 hindexes
    have hlength : optionIds.length = indexes.length := by
      simpa using congrArg List.length hparse
    split at h
    · cases h
    · next hunique =>
      have hnodup : indexes.Nodup := length_sortDedup_iff.1 (by
        rw [← hlength]
        simpa using hunique)
      cases h
      exact ⟨hne, hone, indexes, hparse, hlt, hnodup, by rw [hlabels hnodup hlt]⟩
  · rintro ⟨-, -, indexes, hparse, hlt, hnodup, rfl⟩
    have hlength : optionIds.length = indexes.length := by
      simpa using congrArg List.length hparse
    rw [mapM_optionIndex_iff.2 ⟨hparse, hlt⟩, Outcome.ok_bind, ← hlabels hnodup hlt,
      if_neg (by simp [hlength, length_sortDedup_iff.2 hnodup])]
    exact ⟨_, rfl⟩

/-- A question accepts exactly the responses that answer it as it is shown. -/
theorem questionAnswer_eq_ok_iff {N : Names} {question : QuestionRequest}
    {response : QuestionResponse} {a : QuestionAnswer} :
    (∃ shown, questionAnswer N question response = .ok (a, shown)) ↔
      Answers (interactionQuestion question) response a := by
  unfold questionAnswer
  dsimp only
  split
  · next hblank =>
    constructor
    · rintro ⟨_, h⟩
      cases h
    · intro h
      cases h with
      | text htext hne => simp [htext, hne] at hblank
      | options htext => simp [htext] at hblank
  next hblank =>
  split
  · next hboth =>
    constructor
    · rintro ⟨_, h⟩
      cases h
    · intro h
      cases h with
      | text _ _ hoptions => simp [hoptions] at hboth
      | options htext => simp [htext] at hboth
  next hboth =>
  cases htext : response.text with
  | some text =>
    rw [htext] at hblank hboth
    have hoptions : response.optionIds = [] := by simpa using hboth
    have hne : Text.trim text ≠ "" := by simpa using hblank
    constructor
    · rintro ⟨_, h⟩
      cases h
      exact .text htext hne hoptions
    · intro h
      cases h with
      | text htext' =>
        cases htext.symm.trans htext'
        exact ⟨_, rfl⟩
      | options hnone => cases htext.symm.trans hnone
  | none =>
    dsimp only
    rw [optionsAnswer_eq_ok_iff]
    have hcount : (interactionQuestion question).options.length = question.options.length :=
      length_questionOptions question
    have hviews := labels_questionOptions question
    constructor
    · rintro ⟨hne, hone, indexes, hparse, hlt, hnodup, rfl⟩
      rw [← hviews]
      exact .options htext hne hparse (by rwa [hcount]) hnodup hone
    · intro h
      cases h with
      | text htext' => cases htext.symm.trans htext'
      | @options indexes _ hne hparse hlt hnodup hone =>
        rw [hcount] at hlt
        exact ⟨hne, hone, indexes, hparse, hlt, hnodup, by rw [← hviews]; rfl⟩

/-! ## One group -/

variable {N : Names} {s : State} {groupId interactionId : String}

/-- The questions of a group with their positions, in their order. -/
def members (s : State) (groupId : String) : List (QuestionRequest × Nat) :=
  (s.questions.zipIdx.filter (·.1.groupId == groupId)).insertionSort (·.1.order ≤ ·.1.order)

/-- The questions of a group in their order. -/
def prompts (s : State) (groupId : String) : List QuestionRequest :=
  sortByOrder (s.questions.filter fun q => q.groupId = groupId)

theorem map_fst_members (s : State) (groupId : String) :
    (members s groupId).map Prod.fst = prompts s groupId := by
  have hfilter : (s.questions.zipIdx.filter (·.1.groupId == groupId)).map Prod.fst =
      s.questions.filter fun q => q.groupId = groupId := by
    have hzip := List.zipIdx_map_fst 0 s.questions
    conv_rhs => rw [← hzip, List.filter_map]
    rfl
  rw [members, prompts, sortByOrder, ← hfilter]
  exact List.map_insertionSort _ _ Prod.fst _ fun _ _ _ _ => Iff.rfl

theorem perm_prompts (s : State) (groupId : String) :
    (prompts s groupId).Perm (s.questions.filter fun q => q.groupId = groupId) :=
  List.perm_insertionSort _ _

/-- Taking out the members of a group leaves the other questions. -/
theorem eraseAll_members (s : State) (groupId : String) :
    Grouping.eraseAll s.questions (((members s groupId).map Prod.snd).insertionSort (· ≥ ·)) =
      s.questions.filter fun q => q.groupId ≠ groupId := by
  have hpositions : ((members s groupId).map Prod.snd).insertionSort (· ≥ ·) =
      (Grouping.positions (fun q => q.groupId == groupId) s.questions).reverse := by
    have hdesc := List.pairwise_reverse.2
      (Grouping.pairwise_positions (fun q => q.groupId == groupId) s.questions)
    refine List.Perm.eq_of_pairwise (fun a b _ _ hab hba => Nat.le_antisymm hba hab)
      (List.pairwise_insertionSort _ _) (hdesc.imp Nat.le_of_lt) ?_
    refine (List.perm_insertionSort _ _).trans
      (((List.perm_insertionSort _ _).map Prod.snd).trans ?_)
    exact (List.reverse_perm _).symm
  rw [hpositions, Grouping.eraseAll_positions]
  refine List.filter_congr fun q _ => ?_
  by_cases hq : q.groupId = groupId <;> simp [hq]

/-- The interactions that are questions are the groups. -/
theorem mem_interactions_question_iff {revision : Nat} {view : InteractionView} :
    view ∈ interactions N s revision ∧ view.kind = .question ↔
      ∃ groupId ∈ s.questions.map (·.groupId), ∃ first ∈ (prompts s groupId).head?, view =
        { id := N.questionInteractionId s.nakodeSessionId groupId
          revision
          kind := .question
          status := .pending
          title := first.title
          detail := first.question
          options := questionOptions first
          multiple := first.multi
          questions := (prompts s groupId).map interactionQuestion } := by
  rw [interactions, List.mem_append, List.mem_map, List.mem_filterMap]
  constructor
  · rintro ⟨⟨approval, -, rfl⟩ | ⟨⟨groupId, group⟩, hgroup, hview⟩, hkind⟩
    · cases hkind
    · obtain ⟨rfl, q, hq, hqid⟩ := Grouping.mem_groups_iff.1 hgroup
      obtain ⟨first, hfirst, rfl⟩ := Option.map_eq_some_iff.1 hview
      exact ⟨groupId, List.mem_map.2 ⟨q, hq, hqid⟩, first, hfirst, rfl⟩
  · rintro ⟨groupId, hgroupId, first, hfirst, rfl⟩
    obtain ⟨q, hq, hqid⟩ := List.mem_map.1 hgroupId
    refine ⟨.inr ⟨(groupId, s.questions.filter fun q => q.groupId = groupId),
      Grouping.mem_groups_iff.2 ⟨rfl, q, hq, hqid⟩, ?_⟩, rfl⟩
    exact Option.map_eq_some_iff.2 ⟨first, hfirst, rfl⟩

/-- What is checked of the ids of responses. -/
theorem checkResponseIds_eq_ok_iff {group : List (QuestionRequest × Nat)} {seen : List String}
    {responses : List QuestionResponse} :
    checkResponseIds N group seen responses = .ok () ↔
      (responses.map (·.questionId)).Nodup ∧ (∀ r ∈ responses, r.questionId ∉ seen) ∧
      ∀ r ∈ responses, r.questionId ∈ group.map (·.1.logicalId) := by
  induction responses generalizing seen with
  | nil => simp [checkResponseIds]
  | cons r responses ih =>
    have hknown : (group.any fun x => x.1.logicalId == r.questionId) = true ↔
        r.questionId ∈ group.map (·.1.logicalId) := by
      simp
    rw [checkResponseIds, List.map_cons, List.nodup_cons, List.forall_mem_cons,
      List.forall_mem_cons]
    split
    · next hseen =>
      have : r.questionId ∈ seen := by simpa using hseen
      simp [this]
    next hseen =>
    have hnew : r.questionId ∉ seen := by simpa using hseen
    split
    · next hunknown =>
      have : r.questionId ∉ group.map (·.1.logicalId) := by
        rw [← hknown]
        simpa using hunknown
      simp [this]
    next hfound =>
    have hin : r.questionId ∈ group.map (·.1.logicalId) := hknown.1 (by simpa using hfound)
    have hsplit : (∀ x ∈ responses, x.questionId ∉ r.questionId :: seen) ↔
        r.questionId ∉ responses.map (·.questionId) ∧ ∀ x ∈ responses, x.questionId ∉ seen := by
      simp only [List.mem_cons, not_or, List.mem_map, not_exists, not_and]
      constructor
      · intro h
        exact ⟨fun x hx heq => (h x hx).1 heq, fun x hx => (h x hx).2⟩
      · rintro ⟨hne, hold⟩ x hx
        exact ⟨fun heq => hne x hx heq, hold x hx⟩
    rw [ih, hsplit]
    tauto

theorem groupResponses_eq_ok_iff {group : List (QuestionRequest × Nat)} {view : InteractionView}
    (hview : view.questions = (group.map Prod.fst).map interactionQuestion)
    {resolution : InteractionResolution} {responses : List QuestionResponse} :
    groupResponses group resolution = .ok responses ↔ Gives view resolution responses := by
  cases resolution with
  | answer optionIds =>
    unfold groupResponses
    dsimp only
    constructor
    · intro h
      split at h
      · next q _ =>
        cases h
        exact .one (by simpa using hview)
      · cases h
    · intro h
      cases h with
      | @one v _ hone =>
        rw [hview, List.map_map] at hone
        match group, hone with
        | [(q, _)], hone =>
          obtain rfl : interactionQuestion q = v := by simpa using hone
          rfl
  | answerQuestions answers =>
    rw [groupResponses]
    constructor
    · intro h
      cases h
      exact .each
    · intro h
      cases h
      rfl
  | approveOnce | approveForSession | decline =>
    constructor
    · intro h
      cases h
    · intro h
      cases h

/-- As many responses as questions, each for a known question and no two for one, are one for each
question. -/
theorem perm_ids_iff {ids known : List String} (hknown : known.Nodup) :
    ids.length = known.length ∧ ids.Nodup ∧ (∀ id ∈ ids, id ∈ known) ↔ ids.Perm known := by
  constructor
  · rintro ⟨hlength, hnodup, hsub⟩
    exact (List.subperm_of_subset hnodup hsub).perm_of_length_le (Nat.le_of_eq hlength.symm)
  · intro h
    exact ⟨h.length_eq, h.nodup_iff.2 hknown, fun id hid => h.mem_iff.1 hid⟩

/-- A question that was found an answer for. -/
def ResolvedBy (responses : List QuestionResponse) (m : QuestionRequest × Nat) (r : Resolved) :
    Prop :=
  r.position = m.2 ∧ r.id = m.1.id ∧ ∃ response ∈ responses,
    response.questionId = m.1.logicalId ∧ Answers (interactionQuestion m.1) response r.answer

theorem resolvedBy_of_buildQuestionResolutions {group : List (QuestionRequest × Nat)}
    {responses : List QuestionResponse} {resolved : List Resolved}
    (h : buildQuestionResolutions N group responses = .ok resolved) :
    List.Forall₂ (ResolvedBy responses) group resolved := by
  refine (mapM_eq_ok_iff.1 h).imp fun m r hstep => ?_
  dsimp only at hstep
  split at hstep
  · cases hstep
  · next response hfind =>
    obtain ⟨⟨a, shown⟩, hanswer, hr⟩ := Outcome.bind_eq_ok.1 hstep
    cases hr
    exact ⟨rfl, rfl, response, List.mem_of_find?_eq_some hfind,
      by simpa using List.find?_some hfind, questionAnswer_eq_ok_iff.1 ⟨shown, hanswer⟩⟩

theorem exists_of_forall₂ {α β : Type} {R : α → β → Prop} {l : List α} {m : List β}
    (h : List.Forall₂ R l m) {a : α} (ha : a ∈ l) : ∃ b ∈ m, R a b := by
  induction h with
  | nil => cases ha
  | cons hb _ ih =>
    rcases List.mem_cons.1 ha with rfl | ha
    · exact ⟨_, List.mem_cons_self, hb⟩
    · obtain ⟨b, hmem, hrel⟩ := ih ha
      exact ⟨b, List.mem_cons_of_mem _ hmem, hrel⟩

theorem exists_forall₂ {α β : Type} {R : α → β → Prop} {l : List α} (h : ∀ a ∈ l, ∃ b, R a b) :
    ∃ m, List.Forall₂ R l m := by
  induction l with
  | nil => exact ⟨[], .nil⟩
  | cons a l ih =>
    obtain ⟨b, hb⟩ := h a List.mem_cons_self
    obtain ⟨m, hm⟩ := ih fun a ha => h a (List.mem_cons_of_mem _ ha)
    exact ⟨b :: m, .cons hb hm⟩

theorem exists_buildQuestionResolutions {group : List (QuestionRequest × Nat)}
    {responses : List QuestionResponse}
    (heach : ∀ m ∈ group, m.1.logicalId ∈ responses.map (·.questionId))
    (hvalid : ∀ m ∈ group, ∀ r ∈ responses, r.questionId = m.1.logicalId →
      ∃ a, Answers (interactionQuestion m.1) r a) :
    ∃ resolved, buildQuestionResolutions N group responses = .ok resolved := by
  obtain ⟨resolved, h⟩ := exists_forall₂ (l := group) (R := fun m r =>
    (match responses.find? (·.questionId == m.1.logicalId) with
    | none => .error (.invalid ("question " ++ N.debug m.1.logicalId ++ " is unanswered"))
    | some response => do
      let (answer, shown) ← questionAnswer N m.1 response
      return { position := m.2, id := m.1.id, answer, shown } :
        Except DomainCommandError Resolved) = .ok r) (by
    intro m hm
    cases hfind : responses.find? (·.questionId == m.1.logicalId) with
    | none =>
      obtain ⟨r, hr, hid⟩ := List.mem_map.1 (heach m hm)
      have := List.find?_eq_none.1 hfind r hr
      simp [hid] at this
    | some response =>
      obtain ⟨a, ha⟩ := hvalid m hm response (List.mem_of_find?_eq_some hfind)
        (by simpa using List.find?_some hfind)
      obtain ⟨shown, hshown⟩ := (questionAnswer_eq_ok_iff (N := N)).2 ha
      exact ⟨⟨m.2, m.1.id, a, shown⟩, by dsimp only; rw [hshown]; rfl⟩)
  exact ⟨resolved, mapM_eq_ok_iff.2 h⟩

/-! ## The interaction -/

theorem resolvedQuestions_eq_ok {resolution : InteractionResolution} {resolved : List Resolved}
    (h : resolvedQuestions N s interactionId resolution = .ok resolved) :
    s.activeTurn.any (·.cancelling) = false ∧ ∃ groupId ∈ s.questions.map (·.groupId),
      N.questionInteractionId s.nakodeSessionId groupId = interactionId ∧
      ∃ responses, groupResponses (members s groupId) resolution = .ok responses ∧
        responses.length = (members s groupId).length ∧
        checkResponseIds N (members s groupId) [] responses = .ok () ∧
        buildQuestionResolutions N (members s groupId) responses = .ok resolved := by
  unfold resolvedQuestions at h
  split at h
  · cases h
  next hcancelling =>
  split at h
  · cases h
  next groupId hgroup =>
  obtain ⟨responses, hresponses, h⟩ := Outcome.bind_eq_ok.1 h
  split at h
  · cases h
  next hlength =>
  obtain ⟨_, hcheck, hbuild⟩ := Outcome.bind_eq_ok.1 h
  have hlength : responses.length = (members s groupId).length := by
    by_contra hne
    exact hlength (bne_iff_ne.2 hne)
  exact ⟨by simpa using hcancelling, groupId, List.mem_of_find?_eq_some hgroup,
    by simpa using List.find?_some hgroup, responses, hresponses, hlength, hcheck, hbuild⟩

theorem resolvedQuestions_of_group {resolution : InteractionResolution} {resolved : List Resolved}
    {responses : List QuestionResponse}
    (hids : ∀ q ∈ s.questions, ∀ q' ∈ s.questions,
      N.questionInteractionId s.nakodeSessionId q.groupId =
        N.questionInteractionId s.nakodeSessionId q'.groupId → q.groupId = q'.groupId)
    (hcancelling : s.activeTurn.any (·.cancelling) = false)
    (hgroup : groupId ∈ s.questions.map (·.groupId))
    (hid : N.questionInteractionId s.nakodeSessionId groupId = interactionId)
    (hresponses : groupResponses (members s groupId) resolution = .ok responses)
    (hlength : responses.length = (members s groupId).length)
    (hcheck : checkResponseIds N (members s groupId) [] responses = .ok ())
    (hbuild : buildQuestionResolutions N (members s groupId) responses = .ok resolved) :
    resolvedQuestions N s interactionId resolution = .ok resolved := by
  unfold resolvedQuestions
  rw [if_neg (by simp [hcancelling])]
  cases hfind : (s.questions.map (·.groupId)).find? fun groupId =>
      N.questionInteractionId s.nakodeSessionId groupId == interactionId with
  | none =>
    have := List.find?_eq_none.1 hfind groupId hgroup
    simp [hid] at this
  | some found =>
    have hfound : N.questionInteractionId s.nakodeSessionId found = interactionId := by
      simpa using List.find?_some hfind
    obtain ⟨q, hq, rfl⟩ := List.mem_map.1 hgroup
    obtain ⟨q', hq', rfl⟩ := List.mem_map.1 (List.mem_of_find?_eq_some hfind)
    rw [hids q' hq' q hq (hfound.trans hid.symm)]
    dsimp only
    rw [← members, hresponses, Outcome.ok_bind, if_neg (by simpa using hlength), hcheck,
      Outcome.ok_bind, hbuild]

theorem nodup_members
    (hlogical : ∀ groupId,
      ((s.questions.filter fun q => q.groupId = groupId).map (·.logicalId)).Nodup)
    (groupId : String) : ((members s groupId).map (·.1.logicalId)).Nodup := by
  have hmap : (members s groupId).map (·.1.logicalId) = (prompts s groupId).map (·.logicalId) := by
    rw [← map_fst_members, List.map_map]
    rfl
  rw [hmap, ((perm_prompts s groupId).map _).nodup_iff]
  exact hlogical groupId

theorem map_id_interactionQuestion (s : State) (groupId : String) :
    ((prompts s groupId).map interactionQuestion).map (·.id) =
      (members s groupId).map (·.1.logicalId) := by
  rw [← map_fst_members, List.map_map, List.map_map]
  rfl

/-- What the resolver accepts answers the view of the group. -/
theorem answered_of_resolvedQuestions (revision : Nat) {resolution : InteractionResolution}
    {resolved : List Resolved}
    (hlogical : ∀ groupId,
      ((s.questions.filter fun q => q.groupId = groupId).map (·.logicalId)).Nodup)
    (h : resolvedQuestions N s interactionId resolution = .ok resolved) :
    s.activeTurn.any (·.cancelling) = false ∧ ∃ groupId responses,
      (∃ view ∈ interactions N s revision, view.kind = .question ∧ view.id = interactionId ∧
        view.questions = (prompts s groupId).map interactionQuestion ∧
        Answered view resolution responses) ∧
      List.Forall₂ (ResolvedBy responses) (members s groupId) resolved := by
  obtain ⟨hcancelling, groupId, hgroup, hid, responses, hresponses, hlength, hcheck, hbuild⟩ :=
    resolvedQuestions_eq_ok h
  have hresolved := resolvedBy_of_buildQuestionResolutions hbuild
  obtain ⟨hnodup, -, hin⟩ := checkResponseIds_eq_ok_iff.1 hcheck
  obtain ⟨q, hq, hqid⟩ := List.mem_map.1 hgroup
  obtain ⟨first, rest, hprompts⟩ : ∃ first rest, prompts s groupId = first :: rest := by
    refine List.exists_cons_of_ne_nil fun hnil => ?_
    have hmem := (perm_prompts s groupId).mem_iff.2
      (List.mem_filter.2 ⟨hq, decide_eq_true hqid⟩)
    rw [hnil] at hmem
    cases hmem
  obtain ⟨hview, hkind⟩ := mem_interactions_question_iff.2
    ⟨groupId, hgroup, first, by rw [hprompts]; rfl, rfl⟩
  refine ⟨hcancelling, groupId, responses, ⟨_, hview, hkind, hid, rfl, ?_, ?_, ?_⟩, hresolved⟩
  · exact (groupResponses_eq_ok_iff (by rw [map_fst_members])).1 hresponses
  · dsimp only
    rw [map_id_interactionQuestion, ← perm_ids_iff (nodup_members hlogical groupId),
      List.length_map, List.length_map]
    exact ⟨hlength, hnodup, by simpa using hin⟩
  · intro v hv r hr hrid
    dsimp only at hv
    rw [← map_fst_members, List.map_map] at hv
    obtain ⟨m, hm, rfl⟩ := List.mem_map.1 hv
    obtain ⟨res, -, -, -, response, hresponse, hresponseId, hanswers⟩ :=
      exists_of_forall₂ hresolved hm
    obtain rfl : r = response :=
      List.inj_on_of_nodup_map hnodup hr hresponse (hrid.trans hresponseId.symm)
    exact ⟨_, hanswers⟩

/-- The resolver and the projection agree on what each group is and what answers it. -/
theorem exists_resolved_iff (revision : Nat) {resolution : InteractionResolution}
    (hlogical : ∀ groupId,
      ((s.questions.filter fun q => q.groupId = groupId).map (·.logicalId)).Nodup)
    (hids : ∀ q ∈ s.questions, ∀ q' ∈ s.questions,
      N.questionInteractionId s.nakodeSessionId q.groupId =
        N.questionInteractionId s.nakodeSessionId q'.groupId → q.groupId = q'.groupId) :
    (∃ resolved, resolvedQuestions N s interactionId resolution = .ok resolved) ↔
      s.activeTurn.any (·.cancelling) = false ∧ ∃ view responses,
        view ∈ interactions N s revision ∧ view.kind = .question ∧ view.id = interactionId ∧
          Answered view resolution responses := by
  constructor
  · rintro ⟨resolved, h⟩
    obtain ⟨hcancelling, groupId, responses, ⟨view, hview, hkind, hid, -, hanswered⟩, -⟩ :=
      answered_of_resolvedQuestions revision hlogical h
    exact ⟨hcancelling, view, responses, hview, hkind, hid, hanswered⟩
  · rintro ⟨hcancelling, view, responses, hview, hkind, hid, hgives, heach, hvalid⟩
    obtain ⟨groupId, hgroup, first, -, rfl⟩ := mem_interactions_question_iff.1 ⟨hview, hkind⟩
    dsimp only at hid heach hvalid
    have hknown := nodup_members hlogical groupId
    rw [map_id_interactionQuestion, ← perm_ids_iff hknown, List.length_map,
      List.length_map] at heach
    obtain ⟨hlength, hnodup, hin⟩ := heach
    have heach := (perm_ids_iff hknown).1 ⟨by simpa using hlength, hnodup, hin⟩
    obtain ⟨resolved, hbuild⟩ := exists_buildQuestionResolutions (N := N)
      (fun m (hm : m ∈ members s groupId) => heach.mem_iff.2 (List.mem_map_of_mem hm))
      (fun m hm => hvalid _ (List.mem_map_of_mem
        (map_fst_members s groupId ▸ List.mem_map_of_mem hm)))
    exact ⟨resolved, resolvedQuestions_of_group hids hcancelling hgroup hid
      ((groupResponses_eq_ok_iff (by rw [map_fst_members])).2 hgives) hlength
      (checkResponseIds_eq_ok_iff.2 ⟨hnodup, fun _ _ => List.not_mem_nil, by simpa using hin⟩)
      hbuild⟩

theorem map_position_of_forall₂ {responses : List QuestionResponse}
    {group : List (QuestionRequest × Nat)} {resolved : List Resolved}
    (h : List.Forall₂ (ResolvedBy responses) group resolved) :
    resolved.map (·.position) = group.map Prod.snd := by
  induction h with
  | nil => rfl
  | cons hr _ ih => rw [List.map_cons, List.map_cons, ih, hr.1]

theorem resolveQuestionInteraction_of_error {resolution : InteractionResolution}
    {e : DomainCommandError}
    (h : resolvedQuestions N s interactionId resolution = .error e) :
    resolveQuestionInteraction N s interactionId resolution = (.error e, s) := by
  rw [resolveQuestionInteraction, h]

theorem resolveQuestionInteraction_of_ok {resolution : InteractionResolution}
    {responses : List QuestionResponse} {resolved : List Resolved}
    (hgroup : List.Forall₂ (ResolvedBy responses) (members s groupId) resolved)
    (h : resolvedQuestions N s interactionId resolution = .ok resolved) :
    resolveQuestionInteraction N s interactionId resolution =
      (.ok (resolved.map fun r => ⟨r.id, r.answer⟩),
        { s with
          questions := s.questions.filter fun q => q.groupId ≠ groupId
          statusMessage := "Answered: " ++ "; ".intercalate (resolved.map (·.shown)) }) := by
  rw [resolveQuestionInteraction, h]
  dsimp only
  rw [map_position_of_forall₂ hgroup, eraseAll_members]

theorem exists_effects_iff {resolution : InteractionResolution} :
    (∃ effects, (resolveQuestionInteraction N s interactionId resolution).1 = .ok effects) ↔
      ∃ resolved, resolvedQuestions N s interactionId resolution = .ok resolved := by
  unfold resolveQuestionInteraction
  split
  · next e h => simp [h]
  · next resolved h => simp [h]

/-- An answer to a group of questions changes nothing, or it takes away the questions of the group
and no other, with one resolution each. It is accepted exactly when it answers what is shown. -/
theorem question_group_answered (N : Names) (s : State) (interactionId : String)
    (resolution : InteractionResolution) (revision : Nat)
    (hlogical : ∀ groupId,
      ((s.questions.filter fun q => q.groupId = groupId).map (·.logicalId)).Nodup)
    (hids : ∀ q ∈ s.questions, ∀ q' ∈ s.questions,
      N.questionInteractionId s.nakodeSessionId q.groupId =
        N.questionInteractionId s.nakodeSessionId q'.groupId → q.groupId = q'.groupId) :
    (∀ e, (resolveQuestionInteraction N s interactionId resolution).1 = .error e →
      (resolveQuestionInteraction N s interactionId resolution).2 = s) ∧
    ((∃ effects, (resolveQuestionInteraction N s interactionId resolution).1 = .ok effects) ↔
      s.activeTurn.any (·.cancelling) = false ∧ ∃ view responses,
        view ∈ interactions N s revision ∧ view.kind = .question ∧ view.id = interactionId ∧
          Answered view resolution responses) ∧
    ∀ effects, (resolveQuestionInteraction N s interactionId resolution).1 = .ok effects →
      ∃ groupId asked responses,
        asked.Perm (s.questions.filter fun q => q.groupId = groupId) ∧
        (∃ view ∈ interactions N s revision, view.kind = .question ∧ view.id = interactionId ∧
          view.questions = asked.map interactionQuestion ∧ Answered view resolution responses) ∧
        (∃ shown, (resolveQuestionInteraction N s interactionId resolution).2 =
          { s with
            questions := s.questions.filter fun q => q.groupId ≠ groupId
            statusMessage := "Answered: " ++ shown }) ∧
        List.Forall₂ (fun q effect => effect.id = q.id ∧ ∃ response ∈ responses,
          response.questionId = q.logicalId ∧ Answers (interactionQuestion q) response effect.answer)
          asked effects := by
  refine ⟨?_, exists_effects_iff.trans (exists_resolved_iff revision hlogical hids), ?_⟩
  · intro e he
    cases h : resolvedQuestions N s interactionId resolution with
    | error e' => rw [resolveQuestionInteraction_of_error h]
    | ok resolved =>
      unfold resolveQuestionInteraction at he
      rw [h] at he
      cases he
  · intro effects heffects
    obtain ⟨resolved, h⟩ := exists_effects_iff.1 ⟨effects, heffects⟩
    obtain ⟨-, groupId, responses, hview, hgroup⟩ :=
      answered_of_resolvedQuestions revision hlogical h
    rw [resolveQuestionInteraction_of_ok hgroup h] at heffects ⊢
    cases heffects
    refine ⟨groupId, prompts s groupId, responses, perm_prompts s groupId, hview, ⟨_, rfl⟩, ?_⟩
    rw [← map_fst_members, List.forall₂_map_left_iff, List.forall₂_map_right_iff]
    exact hgroup.imp fun m r hr => hr.2

/-- A question with two options, of which several can be chosen. -/
def asking : State :=
  { nakodeSessionId := "s"
    activeTurn := none
    approvals := []
    questions := [⟨"w", "q", "g", 0, "Colour", "Which?", [⟨"red", none⟩, ⟨"blue", none⟩], true, none⟩]
    statusMessage := "Waiting" }

theorem question_group_answered_asking :
    (resolveQuestionInteraction ⟨id, id⟩ asking "interaction:s:question:g" (.answer ["7"])).2 =
      asking ∧
    ∃ view responses, view ∈ interactions ⟨id, id⟩ asking 0 ∧ view.kind = .question ∧
      view.id = "interaction:s:question:g" ∧ Answered view (.answer ["1", "0"]) responses := by
  have hlogical : ∀ groupId,
      ((asking.questions.filter fun q => q.groupId = groupId).map (·.logicalId)).Nodup := by
    intro groupId
    by_cases h : "g" = groupId <;> simp [asking, h]
  have hids : ∀ q ∈ asking.questions, ∀ q' ∈ asking.questions,
      (⟨id, id⟩ : Names).questionInteractionId asking.nakodeSessionId q.groupId =
        (⟨id, id⟩ : Names).questionInteractionId asking.nakodeSessionId q'.groupId →
      q.groupId = q'.groupId := by
    intro q hq q' hq' _
    rw [List.mem_singleton.1 hq, List.mem_singleton.1 hq']
  constructor
  · exact (question_group_answered ⟨id, id⟩ asking "interaction:s:question:g" (.answer ["7"]) 0
      hlogical hids).1 (.invalid "question q has unknown option 7") (by decide +kernel)
  · exact ((question_group_answered ⟨id, id⟩ asking "interaction:s:question:g"
      (.answer ["1", "0"]) 0 hlogical hids).2.1.1
        ⟨[⟨"w", .options ["red", "blue"]⟩], by decide +kernel⟩).2

/-- Two spellings of one option are different ids of options that the view lists, but they are not
an answer. -/
theorem option_spelled_twice_refused :
    asking.activeTurn = none ∧
    (interactions ⟨id, id⟩ asking 0).map (fun view =>
      (view.id, view.questions.map fun q => (q.id, q.options.map (·.id), q.multiple))) =
      [("interaction:s:question:g", [("q", ["0", "1"], true)])] ∧
    ["1", "01"].Nodup ∧ ["1", "01"].map parseUsize = [some 1, some 1] ∧
    resolveQuestionInteraction ⟨id, id⟩ asking "interaction:s:question:g" (.answer ["1", "01"]) =
      (.error (.invalid "question q option IDs must be unique"), asking) := by
  decide +kernel

end Nakode.Questions

import Nakode.Lib.Boundary
import Nakode.Lib.Newest
import Nakode.Transcript.Projection

/-!
# The package that goes to another provider

When a session continues on another provider, the visible dialogue goes along (`HandoffPackage`).
`fromTranscript` takes the entries of the user, the guidance and the assistant's answers, and drops
from the front until the bodies fit into 48 000 bytes. A last message that alone is larger is cut to
its end.
-/

namespace Nakode

def maxHandoffCharacters : Nat := 48000

inductive HandoffRole where
  | user
  | assistant
  deriving DecidableEq, Repr

def HandoffRole.label : HandoffRole → String
  | .user => "USER"
  | .assistant => "ASSISTANT"

structure HandoffMessage where
  role : HandoffRole
  body : String
  deriving DecidableEq, Repr

structure HandoffPackage where
  sourceProvider : String
  sourceModel : Option String
  sourceSession : Option String
  targetProvider : String
  messages : List HandoffMessage
  omittedMessages : Nat
  deriving DecidableEq, Repr

def EntryKind.handoffRole : EntryKind → Option HandoffRole
  | .user | .steering => some .user
  | .assistant => some .assistant
  | .system | .reasoning | .tool | .diff | .warning | .error => none

namespace HandoffPackage

/-- The messages of the entries with a role that are not blank. -/
def dialogue (entries : List TranscriptEntry) : List HandoffMessage :=
  entries.filterMap fun entry =>
    entry.kind.handoffRole.bind fun role =>
      if (Text.trim entry.body).isEmpty then none else some { role, body := entry.body }

def bodyLen (message : HandoffMessage) : Nat := Text.len message.body

/-- Cuts a body that is too large to its end, from the first character that begins there. -/
def cutBody (body : String) : String :=
  if maxHandoffCharacters < Text.len body then
    let split := Text.nextBoundary body maxHandoffCharacters (Text.len body - maxHandoffCharacters)
    "[earlier content omitted]\n" ++ ((Text.splitAt? body split).map (·.2)).getD ""
  else
    body

/-- Cuts the first message. -/
def cutFirst : List HandoffMessage → List HandoffMessage
  | [] => []
  | message :: messages => { message with body := cutBody message.body } :: messages

def fromTranscript (sourceProvider : String) (sourceModel sourceSession : Option String)
    (targetProvider : String) (entries : List TranscriptEntry) : Option HandoffPackage :=
  let messages := dialogue entries
  if messages.isEmpty then
    none
  else
    let originalCount := messages.length
    let messages := Newest.newest bodyLen maxHandoffCharacters
      (Newest.total bodyLen messages) messages
    let messages := cutFirst messages
    some
      { sourceProvider, sourceModel, sourceSession, targetProvider
        omittedMessages := originalCount - messages.length
        messages }

/-- The sections of the messages, numbered from 1. -/
def renderMessages : Nat → List HandoffMessage → String
  | _, [] => ""
  | number, message :: messages =>
    "\n### " ++ message.role.label ++ " " ++ toString number ++ "\n" ++ message.body ++ "\n" ++
      renderMessages (number + 1) messages

def renderWithPrompt (package : HandoffPackage) (prompt : String) : String :=
  "# Nakode continuity handoff\n\n" ++
  "You are continuing work from another provider-native agent session. Use the prior " ++
  "visible dialogue below as conversation context. The source provider's hidden context " ++
  "and tool state were not transferred. Do not claim otherwise.\n\n" ++
  "Source provider: " ++ package.sourceProvider ++ "\n" ++
  "Target provider: " ++ package.targetProvider ++ "\n" ++
  (package.sourceModel.elim "" fun model => "Source model: " ++ model ++ "\n") ++
  (package.sourceSession.elim "" fun session => "Source native session: " ++ session ++ "\n") ++
  (if package.omittedMessages > 0 then
    "Earlier dialogue entries omitted to fit the handoff: " ++ toString package.omittedMessages ++
      "\n"
  else "") ++
  "\n## Prior visible dialogue\n" ++
  renderMessages 1 package.messages ++
  "\n## Current user message\n\n" ++
  prompt

/-! ## What a package holds -/

/-- The end of a text that fits, with nothing left out that could stay. -/
def NewestPart (body tail : String) : Prop :=
  (∃ before, body = before ++ tail) ∧ Text.len tail ≤ maxHandoffCharacters ∧
    ∀ before other, body = before ++ other → Text.len other ≤ maxHandoffCharacters →
      Text.len other ≤ Text.len tail

theorem dialogue_eq_nil_iff {entries : List TranscriptEntry} :
    dialogue entries = [] ↔
      ∀ entry ∈ entries, entry.kind.handoffRole = none ∨ Text.trim entry.body = "" := by
  rw [dialogue, List.filterMap_eq_nil_iff]
  refine forall₂_congr fun entry _ => ?_
  cases entry.kind.handoffRole <;> simp

/-- The first boundary from where the allowed bytes begin cuts off the longest end that fits. -/
theorem cutBody_of_large {body : String} (h : maxHandoffCharacters < Text.len body) :
    ∃ tail, cutBody body = "[earlier content omitted]\n" ++ tail ∧ NewestPart body tail := by
  obtain ⟨hlow, hhigh, hboundary, hnone⟩ := @Text.nextBoundary_spec body
    maxHandoffCharacters (Text.len body - maxHandoffCharacters)
    (by rw [Nat.sub_add_cancel h.le]; exact Text.isCharBoundary_len body)
  obtain ⟨before, tail, hbody, hlen⟩ := Text.isCharBoundary_iff.1 hboundary
  have hsplit := Text.splitAt?_eq_some_iff.2 ⟨hbody, hlen⟩
  have htotal : Text.len body = Text.len before + Text.len tail := by
    rw [hbody, Text.len_append]
  refine ⟨tail, ?_, ⟨before, hbody⟩, by omega, fun earlier other hother hfits => ?_⟩
  · simp only [cutBody, if_pos h, hsplit, Option.map_some, Option.getD_some]
  · have hcut : Text.len body = Text.len earlier + Text.len other := by
      rw [hother, Text.len_append]
    by_contra hlonger
    have hbad := hnone (Text.len earlier) (by omega) (by omega)
    rw [Text.isCharBoundary_iff.2 ⟨earlier, other, hother, rfl⟩] at hbad
    cases hbad

theorem cutBody_of_fits {body : String} (h : Text.len body ≤ maxHandoffCharacters) :
    cutBody body = body := by
  rw [cutBody, if_neg (by omega)]

theorem length_cutFirst (messages : List HandoffMessage) :
    (cutFirst messages).length = messages.length := by
  cases messages <;> rfl

theorem cutFirst_of_fits {messages : List HandoffMessage}
    (h : Newest.total bodyLen messages ≤ maxHandoffCharacters) : cutFirst messages = messages := by
  cases messages with
  | nil => rfl
  | cons message messages =>
    rw [Newest.total_cons] at h
    have hfits : Text.len message.body ≤ maxHandoffCharacters :=
      (Nat.le_add_right _ _).trans h
    rw [cutFirst, cutBody_of_fits hfits]

/-- The messages of a package: the newest that fit, or the end of the last one. -/
def Kept (messages : List HandoffMessage) (package : HandoffPackage) : Prop :=
  (Newest.IsNewest bodyLen maxHandoffCharacters messages package.messages ∧
    package.messages ≠ [] ∧ messages.length = package.omittedMessages + package.messages.length) ∨
  ∃ dropped message tail, messages = dropped ++ [message] ∧
    maxHandoffCharacters < Text.len message.body ∧ NewestPart message.body tail ∧
    package.messages = [{ message with body := "[earlier content omitted]\n" ++ tail }] ∧
    package.omittedMessages = dropped.length

theorem fromTranscript_eq_none_iff {sourceProvider : String}
    {sourceModel sourceSession : Option String} {targetProvider : String}
    {entries : List TranscriptEntry} :
    fromTranscript sourceProvider sourceModel sourceSession targetProvider entries = none ↔
      dialogue entries = [] := by
  simp [fromTranscript]

/-- A package holds the newest of the dialogue. -/
theorem kept_of_fromTranscript {sourceProvider : String} {sourceModel sourceSession : Option String}
    {targetProvider : String} {entries : List TranscriptEntry} {package : HandoffPackage}
    (h : fromTranscript sourceProvider sourceModel sourceSession targetProvider entries =
      some package) : Kept (dialogue entries) package := by
  unfold fromTranscript at h
  generalize dialogue entries = messages at h ⊢
  dsimp only at h
  split at h
  · cases h
  · next hsome =>
    cases h
    have hne : messages ≠ [] := by simpa using hsome
    have hsuffix : Newest.newest bodyLen maxHandoffCharacters (Newest.total bodyLen messages)
      messages <:+ messages := Newest.newest_suffix _ _
    have hlength := hsuffix.length_le
    rcases @Newest.isNewest_or _ bodyLen maxHandoffCharacters messages with
      hnewest | ⟨message, hlast, hlarge⟩
    · refine .inl ?_
      dsimp only
      rw [cutFirst_of_fits hnewest.fits]
      exact ⟨hnewest, Newest.newest_ne_nil _ hne, by omega⟩
    · obtain ⟨tail, hcut, htail⟩ := cutBody_of_large hlarge
      rw [hlast] at hsuffix
      obtain ⟨dropped, rfl⟩ := hsuffix
      refine .inr ⟨dropped, message, tail, rfl, hlarge, htail, ?_, ?_⟩
      · dsimp only
        rw [hlast, cutFirst, hcut]
      · dsimp only
        rw [hlast, length_cutFirst, List.length_append]
        exact Nat.add_sub_cancel _ _

end HandoffPackage

end Nakode

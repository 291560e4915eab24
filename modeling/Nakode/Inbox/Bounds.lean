import Nakode.Lib.Escaping
import Nakode.Lib.Greedy
import Nakode.Operations.Inbox

/-!
# The bounds of a batch

A batch is the longest prefix of the waiting messages whose composed prompt stays within the bounds
(`claimed_prefix_longest`): what the loop measures is what `combine` writes, header by header. A
message that was admitted fits a batch of its own, whatever its identities are made of
(`no_poison_head`), so the head of an inbox is never too large to be claimed.
-/

namespace Nakode

open Relational Transition Outcome

variable {δ : Type}

/-! ## An admitted message fits -/

theorem len_batchPreamble_le : Text.len batchPreamble ≤ 4096 := by decide +kernel

theorem Origin.len_quote_text_le (kind : Origin) : Text.len (Text.quote kind.text) ≤ 24 := by
  cases kind <;> decide +kernel

/-- What the inbox and the columns of its tables bound in a message. -/
structure StoredMessage.Bounded (m : StoredMessage) : Prop where
  id : Text.len m.id ≤ 200
  sender : Text.len m.sender ≤ 200
  sourceSession : Text.len m.source.sessionId ≤ 200
  sourceTitle : m.source.title.toList.length ≤ 120
  sequence : m.sequence < 2 ^ 63
  received : -2 ^ 63 ≤ m.received ∧ m.received < 2 ^ 63
  text : Text.len (Text.quote m.input.text) ≤ 96 * 1024
  attachments : m.input.attachments.length ≤ 8
  images : m.imageBytes ≤ 20 * 1024 * 1024

/-- The attribution of a bounded message that comes first. -/
theorem StoredMessage.Bounded.len_header_le {m : StoredMessage} (h : m.Bounded) :
    Text.len (m.header 0) ≤ 5000 := by
  have hkeys : Text.len (Text.quote "attachment_count") = 18 ∧
      Text.len (Text.quote "attachment_start_index") = 24 ∧
      Text.len (Text.quote "message_id") = 12 ∧ Text.len (Text.quote "origin") = 8 ∧
      Text.len (Text.quote "received_at_ms") = 16 ∧ Text.len (Text.quote "sequence") = 10 ∧
      Text.len (Text.quote "source_session_id") = 19 ∧
      Text.len (Text.quote "source_title") = 14 ∧
      Text.len (Text.quote "submitted_by_client") = 21 := by decide +kernel
  have hends : Text.len "\n--- Follow-up " = 15 ∧ Text.len " ---\n" = 5 := by decide +kernel
  have hcount := Text.len_render_int_le (n := m.input.attachments.length) (by omega)
    (by have := h.attachments; omega)
  have hindex := Text.len_render_int_le (n := (0 : Nat)) (by omega) (by omega)
  have hsequence := Text.len_render_int_le (n := m.sequence) (by omega)
    (by have := h.sequence; omega)
  have hreceived := Text.len_render_int_le h.received.1 (by have := h.received.2; omega)
  have hid := Text.len_quote_le m.id
  have hsender := Text.len_quote_le m.sender
  have hsession := Text.len_quote_le m.source.sessionId
  have htitle := Text.len_quote_le_length m.source.title
  have hkind := m.source.kind.len_quote_text_le
  have hobj := Text.len_render_obj_le
    [("attachment_count", .int m.input.attachments.length),
      ("attachment_start_index", .int (0 : Nat)),
      ("message_id", .str m.id),
      ("origin", .str m.source.kind.text),
      ("received_at_ms", .int m.received),
      ("sequence", .int m.sequence),
      ("source_session_id", .str m.source.sessionId),
      ("source_title", .str m.source.title),
      ("submitted_by_client", .str m.sender)]
  simp only [List.map_cons, List.map_nil, List.sum_cons, List.sum_nil, Text.render_str, hkeys]
    at hobj
  have := h.id
  have := h.sender
  have := h.sourceSession
  have := h.sourceTitle
  rw [StoredMessage.header, Text.len_append, Text.len_append, hends.1, hends.2]
  omega

/-- A bounded message is the first of a batch. -/
theorem StoredMessage.Bounded.fits {m : StoredMessage} (h : m.Bounded) :
    m.fits (Text.len batchPreamble) 0 0 = true := by
  have hheader := h.len_header_le
  have hpreamble := len_batchPreamble_le
  have htext := h.text
  have himages := h.images
  have hattachments := h.attachments
  have htotal : Text.len batchPreamble + m.textBytes 0 ≤ 128 * 1024 := by
    rw [StoredMessage.textBytes]
    omega
  simp only [StoredMessage.fits, Bool.not_eq_true', Bool.or_eq_false_iff, decide_eq_false_iff_not]
  omega

/-- The refusal of a claim whose first message fits no batch. -/
def oldestExceedsBounds : ServiceError :=
  refuse "oldest follow-up exceeds batch bounds; it remains pending"

theorem authorize_ne_oldest {db : Db δ} {session : String} {requireOpen : Bool} :
    authorize db session requireOpen ≠ .error oldestExceedsBounds := by
  simp [authorize, bind_eq_error, oldestExceedsBounds, refuse]

theorem relaySource_ne_oldest {db : Db δ} {source target call : String} {ownerChat : Bool} :
    relaySource db source target call ownerChat ≠ .error oldestExceedsBounds := by
  intro h
  simp only [relaySource, bind_eq_error, need_eq_error, pure_eq_error] at h
  rcases h with h | ⟨_, -, ⟨-, h⟩ | ⟨_, -, h⟩⟩
  · exact authorize_ne_oldest h
  · simp [oldestExceedsBounds, refuse] at h
  · exact h

/-- Reading a row fails for the reasons of its payload and its source only. -/
theorem readMessage_ne_oldest {db : Db δ} {session : String} {row : Nat × Message δ} :
    readMessage db session row ≠ .error oldestExceedsBounds := by
  intro h
  simp only [readMessage, bind_eq_error, need_eq_error, pure_eq_error] at h
  rcases h with ⟨-, h⟩ | ⟨_, -, h | ⟨_, -, h⟩⟩
  · simp [oldestExceedsBounds, refuse] at h
  · unfold revalidate at h
    split at h
    · cases h
    · split at h
      · simp only [bind_eq_error, ensure_eq_error] at h
        rcases h with h | ⟨_, -, -, h⟩
        · exact relaySource_ne_oldest h
        · simp [oldestExceedsBounds, refuse] at h
      · cases h
  · exact h

theorem readMessages_ne_oldest {db : Db δ} {session : String} {batch : Option String} :
    readMessages db session batch ≠ .error oldestExceedsBounds := by
  unfold readMessages
  generalize List.take batchLimit _ = rows
  induction rows with
  | nil => intro h; cases h
  | cons row rest ih =>
    intro h
    simp only [readEach, bind_eq_error, pure_eq_error] at h
    rcases h with h | ⟨_, -, h | ⟨_, -, h⟩⟩
    · exact readMessage_ne_oldest h
    · exact ih h
    · exact h

/-- A claim is refused for its oldest message only when that message fits no batch. -/
theorem claim_ne_oldest {db : Db δ} {session uuid : String}
    (h : ∀ pending, readMessages db session none = .ok pending → pending ≠ [] →
      boundedPrefix pending ≠ []) :
    claim db session uuid ≠ .error oldestExceedsBounds := by
  intro herror
  simp only [claim, bind_eq_error, ensure_eq_error] at herror
  rcases herror with herror | ⟨_, -, ⟨-, herror⟩ | ⟨_, -, herror⟩⟩
  · exact authorize_ne_oldest herror
  · simp [oldestExceedsBounds, refuse] at herror
  split at herror
  · cases herror
  split at herror
  · split at herror
    · cases herror
    · rcases bind_eq_error.1 herror with herror | ⟨_, -, herror⟩
      · exact readMessages_ne_oldest herror
      · cases herror
  · rcases bind_eq_error.1 herror with herror | ⟨pending, hread, herror⟩
    · exact readMessages_ne_oldest herror
    split at herror
    · cases herror
    next hpending =>
    simp only [bind_eq_error, need_eq_error, ensure_eq_error, List.getLast?_eq_none_iff,
      pure_eq_error] at herror
    rcases herror with ⟨herror, -⟩ | ⟨_, -, ⟨-, herror⟩ | ⟨_, -, ⟨-, herror⟩ | ⟨_, -, herror⟩⟩⟩
    · exact h pending hread (by simpa using hpending) herror
    · simp [oldestExceedsBounds, refuse, failure] at herror
    · simp [oldestExceedsBounds, refuse, failure] at herror
    · exact herror

theorem boundedPrefix_cons {m : StoredMessage} (h : m.fits (Text.len batchPreamble) 0 0 = true)
    (rest : List StoredMessage) : ∃ rest', boundedPrefix (m :: rest) = m :: rest' := by
  rw [boundedPrefix, boundedFrom, if_pos h]
  exact ⟨_, rfl⟩

/-- What admission checks of a prompt. -/
theorem validatePrompt_eq_ok {deps : Deps δ} {prompt : PromptInput} {bytes : Nat}
    (h : validatePrompt deps prompt = .ok bytes) :
    Text.len prompt.text ≤ maxTextBytes ∧ Text.len (Text.quote prompt.text) ≤ 96 * 1024 ∧
      prompt.attachments.length ≤ 8 ∧ bytes ≤ 20 * 1024 * 1024 + maxTextBytes := by
  simp only [validatePrompt, bind_eq_ok, ensure_eq_ok, pure_eq_ok, Bool.not_eq_true',
    Bool.or_eq_false_iff, decide_eq_false_iff_not, decide_eq_true_eq, Nat.not_lt] at h
  obtain ⟨_, ⟨htext, -⟩, _, hquote, _, hcount, bytes', -, _, hbytes, rfl⟩ := h
  exact ⟨htext, hquote, hcount, hbytes⟩

/-- An admitted message is the first of a batch, whatever waits behind it, and its session's claims
are never refused for its size. -/
theorem no_poison_head {deps : Deps δ} {db after : Db δ} {session messageId sender : String}
    {prompt : PromptInput} {nowMs : Int} {digest : δ}
    (h : admitMessage deps db session messageId prompt sender nowMs digest = .ok after)
    (hid : Text.len messageId ≤ 200) (hsender : Text.len sender ≤ 200)
    (himages : (prompt.attachments.map (·.imageBytes)).sum ≤ 20 * 1024 * 1024)
    (hnow : -2 ^ 63 ≤ nowMs ∧ nowMs < 2 ^ 63) {m : StoredMessage} (hsequence : m.sequence < 2 ^ 63)
    (hcolumns : m.id = messageId ∧ m.sender = sender ∧ m.received = nowMs ∧ m.input = prompt)
    (hsource : Text.len m.source.sessionId ≤ 200 ∧ m.source.title.toList.length ≤ 120) :
    (∀ rest, ∃ rest', boundedPrefix (m :: rest) = m :: rest') ∧
      ∀ (later : Db δ) (inbox uuid : String) (rest : List StoredMessage),
        readMessages later inbox none = .ok (m :: rest) →
        claim later inbox uuid ≠ .error oldestExceedsBounds := by
  obtain ⟨rfl, rfl, rfl, rfl⟩ := hcolumns
  simp only [admitMessage, bind_eq_ok] at h
  obtain ⟨bytes, hprompt, -⟩ := h
  obtain ⟨-, hquote, hcount, -⟩ := validatePrompt_eq_ok hprompt
  have hbounded : m.Bounded := ⟨hid, hsender, hsource.1, hsource.2, hsequence, hnow, hquote, hcount,
    himages⟩
  have hhead := boundedPrefix_cons hbounded.fits
  refine ⟨hhead, fun later inbox uuid rest hread => claim_ne_oldest fun pending hpending _ => ?_⟩
  cases hread.symm.trans hpending
  obtain ⟨rest', hrest⟩ := hhead rest
  rw [hrest]
  exact List.cons_ne_nil _ _

/-- A relayed message at the head of an inbox. -/
def relayedHead : StoredMessage where
  sequence := 1
  id := "m"
  sender := "client"
  received := 0
  input := ⟨"hi", []⟩
  source := ⟨.peerContext, "peer", "Peer", some "call", none, false⟩
  displayText := "hi"

theorem no_poison_head_relayed :
    (∀ rest, ∃ rest', boundedPrefix (relayedHead :: rest) = relayedHead :: rest') ∧
      ∀ (later : Db Command) (inbox uuid : String) (rest : List StoredMessage),
        readMessages later inbox none = .ok (relayedHead :: rest) →
        claim later inbox uuid ≠ .error oldestExceedsBounds :=
  have hadmitted : admitMessage Deps.verbatim ∅ "s" "m" ⟨"hi", []⟩ "client" 0
      (.removeFollowup "s" "m") = .ok _ := rfl
  no_poison_head hadmitted (by decide +kernel) (by decide +kernel) (by decide) (by decide)
    (by decide) ⟨rfl, rfl, rfl, rfl⟩ ⟨by decide +kernel, by decide +kernel⟩

/-! ## What a batch is composed of -/

open Greedy

/-- The attachments of the messages before a position of a batch. -/
def attachmentsBefore (messages : List StoredMessage) (i : Nat) : List PromptAttachment :=
  (messages.take i).flatMap (·.input.attachments)

/-- A message as it stands in the text of a batch. -/
def StoredMessage.passage (m : StoredMessage) (attachmentOffset : Nat) : String :=
  m.header attachmentOffset ++ Text.quote m.input.text ++ "\n"

theorem StoredMessage.len_passage (m : StoredMessage) (attachmentOffset : Nat) :
    Text.len (m.passage attachmentOffset) = m.textBytes attachmentOffset := by
  have : Text.len "\n" = 1 := by decide
  rw [StoredMessage.passage, Text.len_append, Text.len_append, StoredMessage.textBytes, this]

theorem combineFrom_append (messages : List StoredMessage) (m : StoredMessage)
    (prompt : PromptInput) :
    combineFrom (messages ++ [m]) prompt =
      { text := (combineFrom messages prompt).text
          ++ m.passage (combineFrom messages prompt).attachments.length
        attachments := (combineFrom messages prompt).attachments ++ m.input.attachments } := by
  induction messages generalizing prompt with
  | nil => simp [combineFrom, StoredMessage.passage, String.append_assoc]
  | cons first rest ih => exact ih _

theorem combineFrom_attachments (messages : List StoredMessage) (prompt : PromptInput) :
    (combineFrom messages prompt).attachments
      = prompt.attachments ++ messages.flatMap (·.input.attachments) := by
  induction messages generalizing prompt with
  | nil => simp [combineFrom]
  | cons m rest ih => simp [combineFrom, ih]

theorem combineFrom_text (messages : List StoredMessage) (prompt : PromptInput) :
    (combineFrom messages prompt).text = prompt.text ++ String.join
      (runningFrom (fun m : StoredMessage => m.input.attachments.length)
        (fun offset m => m.passage offset) prompt.attachments.length messages) := by
  induction messages generalizing prompt with
  | nil => simp [combineFrom, runningFrom]
  | cons m rest ih =>
    simp [combineFrom, ih, runningFrom, StoredMessage.passage, String.append_assoc]

theorem combine_text (messages : List StoredMessage) :
    (combine messages).text = batchPreamble ++ String.join
      (messages.mapIdx fun i m => m.passage (attachmentsBefore messages i).length) := by
  rw [combine, combineFrom_text, runningFrom_eq]
  simp [attachmentsBefore, List.length_flatMap]

theorem combine_attachments (messages : List StoredMessage) :
    (combine messages).attachments = messages.flatMap (·.input.attachments) := by
  simp [combine, combineFrom_attachments]

/-! ## What the loop measures -/

/-- What the loop has taken so far: bytes of text and of images, and attachments. -/
structure Taken where
  textBytes : Nat
  imageBytes : Nat
  attachmentCount : Nat

def Taken.add (t : Taken) (m : StoredMessage) : Taken where
  textBytes := t.textBytes + m.textBytes t.attachmentCount
  imageBytes := t.imageBytes + m.imageBytes
  attachmentCount := t.attachmentCount + m.input.attachments.length

def Taken.none : Taken := ⟨Text.len batchPreamble, 0, 0⟩

/-- What a prompt takes of the bounds of a batch. -/
def PromptInput.size (prompt : PromptInput) : Taken where
  textBytes := Text.len prompt.text
  imageBytes := (prompt.attachments.map (·.imageBytes)).sum
  attachmentCount := prompt.attachments.length

def Taken.Within (t : Taken) : Prop :=
  t.textBytes ≤ 128 * 1024 ∧ t.imageBytes ≤ 20 * 1024 * 1024 ∧ t.attachmentCount ≤ 8

theorem fits_iff {t : Taken} {m : StoredMessage} :
    m.fits t.textBytes t.imageBytes t.attachmentCount = true ↔ (t.add m).Within := by
  simp only [StoredMessage.fits, Bool.not_eq_true', Bool.or_eq_false_iff, decide_eq_false_iff_not,
    Taken.add, Taken.Within]
  omega

theorem boundedFrom_eq_greedy (t : Taken) (messages : List StoredMessage) :
    boundedFrom t.textBytes t.imageBytes t.attachmentCount messages
      = greedy (fun t m => m.fits t.textBytes t.imageBytes t.attachmentCount) Taken.add t
        messages := by
  induction messages generalizing t with
  | nil => rfl
  | cons m rest ih => rw [boundedFrom, greedy, ← ih (t.add m)]; rfl

/-- What the loop has measured when it has taken some messages is the size of the prompt they are
combined to. -/
theorem foldl_add_eq_size (messages : List StoredMessage) :
    messages.foldl Taken.add Taken.none = (combine messages).size := by
  induction messages using List.reverseRecOn with
  | nil => rfl
  | append_singleton messages m ih =>
    have hcombine : combine (messages ++ [m]) = _ := combineFrom_append messages m _
    rw [List.foldl_concat, ih, hcombine]
    simp [PromptInput.size, Taken.add, StoredMessage.imageBytes, StoredMessage.len_passage,
      Text.len_append, combine]

/-- A prefix of what a batch takes is one whose every prefix is composed to a prompt within the
bounds. -/
theorem isPrefix_boundedPrefix_iff {messages p : List StoredMessage} :
    p <+: boundedPrefix messages ↔
      p <+: messages ∧ ∀ q, q <+: p → (combine q).size.Within := by
  have hloop : boundedPrefix messages
      = greedy (fun t m => m.fits t.textBytes t.imageBytes t.attachmentCount) Taken.add Taken.none
        messages := boundedFrom_eq_greedy Taken.none messages
  have hstep : ∀ q m, (q.foldl Taken.add Taken.none).add m = (combine (q ++ [m])).size := by
    intro q m
    rw [← foldl_add_eq_size, List.foldl_concat]
  rw [hloop, isPrefix_greedy_iff]
  refine and_congr_right fun _ => ⟨fun h q hq => ?_, fun h q m hq => ?_⟩
  · rcases List.eq_nil_or_concat' q with rfl | ⟨q', m, rfl⟩
    · have := len_batchPreamble_le
      exact ⟨by show Text.len batchPreamble ≤ _; omega, Nat.zero_le _, Nat.zero_le _⟩
    · rw [← hstep]
      exact fits_iff.1 (h q' m hq)
  · rw [fits_iff, hstep]
    exact h _ hq

/-! ## What is shown of a batch -/

/-- The attachments of a message that become image artifacts of the transcript. -/
def StoredMessage.images (m : StoredMessage) : List PromptAttachment :=
  m.input.attachments.filter (·.path?.isNone)

/-- The images of the messages before a position of a batch. -/
def imagesBefore (messages : List StoredMessage) (i : Nat) : List PromptAttachment :=
  (messages.take i).flatMap (·.images)

/-- What is shown of a message whose images start at an offset. -/
def StoredMessage.displayRow (m : StoredMessage) (imageOffset : Nat) : Text.Json :=
  .obj
    [("attachmentCount", .int m.images.length), ("attachmentStartIndex", .int imageOffset),
      ("filePaths", .arr ((m.input.attachments.filterMap (·.path?)).map .str)),
      ("messageId", .str m.id), ("receivedAtMs", .int m.received), ("sequence", .int m.sequence),
      ("source", m.source.json), ("text", .str m.displayText)]

theorem StoredMessage.images_length (m : StoredMessage) :
    m.images.length
      = m.input.attachments.length - (m.input.attachments.filterMap (·.path?)).length := by
  have hcount := List.length_eq_countP_add_countP (fun a : PromptAttachment => a.path?.isSome)
    (l := m.input.attachments)
  rw [StoredMessage.images, List.length_filterMap_eq_countP, ← List.countP_eq_length_filter]
  simp only [Bool.not_eq_true, Option.isSome_eq_false_iff, Bool.decide_eq_true] at hcount
  omega

theorem displayRows_eq (messages : List StoredMessage) :
    displayRows messages 0
      = messages.mapIdx fun i m => m.displayRow (imagesBefore messages i).length := by
  have hrunning : ∀ n, displayRows messages n
      = runningFrom (fun m : StoredMessage => m.images.length)
        (fun offset m => m.displayRow offset) n messages := by
    induction messages with
    | nil => intro n; rfl
    | cons m rest ih =>
      intro n
      rw [displayRows, runningFrom, ih, StoredMessage.displayRow, StoredMessage.images_length]
  rw [hrunning, runningFrom_eq]
  simp [imagesBefore, List.length_flatMap]

/-! ## A batch -/

/-- The messages read of an inbox come in the order of their sequences, at most 32 of them. -/
theorem readMessages_ordered {db : Db δ} {session : String} {messages : List StoredMessage}
    (h : readMessages db session none = .ok messages) :
    messages.length ≤ 32 ∧ messages.Pairwise (·.sequence < ·.sequence) := by
  have hmap := readEach_sequences h
  constructor
  · rw [← List.length_map (fun m : StoredMessage => m.sequence), hmap, List.length_map,
      List.length_take]
    exact Nat.min_le_left _ _
  · have hrows : ((db.inbox.pending session).take batchLimit).Pairwise fun a b => a.1 < b.1 :=
      (db.inbox.messages.ordered.sublist List.filter_sublist).sublist (List.take_sublist _ _)
    rw [← List.pairwise_map (f := fun m : StoredMessage => m.sequence), hmap, List.pairwise_map]
    exact hrows

/-- A batch is the longest prefix of what waits whose every prefix is composed to a prompt within
the bounds, measured exactly as it is composed: a header above each message in order, with where its
attachments are among all of them, and where its images are among the images. -/
theorem claimed_prefix_longest (pending : List StoredMessage) :
    let selected := boundedPrefix pending
    let prompt := combine selected
    -- the longest prefix whose prefixes are within the bounds
    (∀ p, p <+: selected ↔ p <+: pending ∧ ∀ q, q <+: p → (combine q).size.Within) ∧
    -- what the loop measured is what is composed
    selected.foldl Taken.add Taken.none = prompt.size ∧ prompt.size.Within ∧
    -- one header a message, in order, with the place of its attachments
    prompt.text = batchPreamble ++ String.join
      (selected.mapIdx fun i m => m.passage (attachmentsBefore selected i).length) ∧
    prompt.attachments = selected.flatMap (·.input.attachments) ∧
    (∀ i m, selected[i]? = some m →
      (prompt.attachments.drop (attachmentsBefore selected i).length).take
        m.input.attachments.length = m.input.attachments) ∧
    (∀ (db : Db δ) session, readMessages db session none = .ok pending →
      selected.length ≤ 32 ∧ selected.Pairwise (·.sequence < ·.sequence)) ∧
    -- what is shown of it, with the place of its images
    displayJson selected = (Text.Json.obj [("messages", .arr (selected.mapIdx fun i m =>
      m.displayRow (imagesBefore selected i).length)), ("version", .int 1)]).render ∧
    ∀ i m, selected[i]? = some m →
      ((prompt.attachments.filter (·.path?.isNone)).drop (imagesBefore selected i).length).take
        m.images.length = m.images := by
  intro selected prompt
  have hattachments : prompt.attachments = selected.flatMap (·.input.attachments) :=
    combine_attachments selected
  have himages : prompt.attachments.filter (·.path?.isNone) = selected.flatMap (·.images) := by
    rw [hattachments, List.filter_flatMap]
    rfl
  refine ⟨fun p => isPrefix_boundedPrefix_iff, foldl_add_eq_size selected,
    (isPrefix_boundedPrefix_iff.1 List.prefix_rfl).2 _ List.prefix_rfl, combine_text selected,
    hattachments, fun i m hm => ?_, fun db session hread => ?_, ?_, fun i m hm => ?_⟩
  · rw [hattachments]
    exact slice_flatMap (fun m : StoredMessage => m.input.attachments) _ hm
  · obtain ⟨hlength, hordered⟩ := readMessages_ordered hread
    have hprefix := boundedPrefix_isPrefix pending
    exact ⟨Nat.le_trans hprefix.length_le hlength, hordered.sublist hprefix.sublist⟩
  · rw [displayJson, displayRows_eq]
  · rw [himages]
    exact slice_flatMap (fun m : StoredMessage => m.images) _ hm

end Nakode

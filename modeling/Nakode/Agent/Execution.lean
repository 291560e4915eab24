import Nakode.Agent.Inference

/-!
# Execution of tool calls

What the runtime does with the calls of an assistant message: one after another, read-only ones
together (`executeToolCalls`). A call is executed by a builtin tool (`executeBuiltinTool`), by the
client (`executeExternalTool`) or as a program that makes calls of its own (`executeCodeMode`), or
it is answered at once. Its result is appended to the session when it is recorded; the results of a
program's calls are not.
-/

namespace Nakode.Agent

open Text (Json)
open Process Process.Proc
open Native

/-! ## Returned images -/

/-- `MAX_IMAGES_PER_TURN`. -/
def maxImagesPerTurn : Nat := 8

/-- `MAX_BYTES_PER_TURN`. -/
def maxBytesPerTurn : Nat := 20 * 1024 * 1024

def returnedImagesOutput (count : Nat) : String :=
  if count = 1 then "Image attached to the assistant transcript."
  else toString count ++ " images attached to the assistant transcript."

def numberedImages (first last : Nat) : String :=
  if first = last then "image " ++ toString first
  else "images " ++ toString first ++ "–" ++ toString last

def keptImagesNote (kept total : Nat) : String :=
  let limit := "a turn keeps at most 8 images and 20 MiB"
  if kept = 0 then
    "None of this result's " ++ toString total ++ (if total = 1 then " image was" else " images were")
      ++ " kept in the transcript: " ++ limit ++ ", and this turn has reached it. They are only in "
      ++ "this result and cannot be retrieved later."
  else
    "Kept " ++ toString kept ++ " of this result's " ++ toString total
      ++ " images in the transcript, as Tool " ++ numberedImages 1 kept ++ "; "
      ++ numberedImages (kept + 1) total ++ " not kept: " ++ limit ++ ". The kept images stay in the "
      ++ "session history. The others are only in this result and cannot be retrieved later."

namespace ReturnedImage

def attachments (image : ReturnedImage) : List PromptAttachment :=
  image.attachment :: image.moreAttachments

def imageCount (image : ReturnedImage) : Nat := 1 + image.moreAttachments.length

def imageBytes (image : ReturnedImage) : Nat :=
  (image.attachments.filterMap fun attachment => attachment.image.map (·.data.length)).sum

end ReturnedImage

namespace RuntimeSession

/-- The images that a call has returned are kept, under its id. -/
def retainImages (session : RuntimeSession) (turnId callId : String) (attachment : PromptAttachment)
    (moreAttachments : List PromptAttachment) : RuntimeSession :=
  let image : ReturnedImage :=
    { id := turnId ++ ":image:" ++ callId
      turnId := turnId
      providerId := session.providerId
      modelId := session.model
      attachment := attachment
      moreAttachments := moreAttachments
      historyIndex := session.historyPosition
      sequence := session.returnedImages.rows.length }
  { session with returnedImages := session.returnedImages.upsert callId image fun _ => image }

/-- The images that a turn has returned. -/
def turnImages (session : RuntimeSession) (turnId : String) : List ReturnedImage :=
  (session.returnedImages.rows.map (·.2)).filter (·.turnId == turnId)

end RuntimeSession

/-- Images that a call has returned are kept. -/
def World.retain (w : World) (turnId callId : String) (attachment : PromptAttachment)
    (moreAttachments : List PromptAttachment) : World :=
  (w.emit (.retained w.kept.session callId)).update
    (·.retainImages turnId callId attachment moreAttachments)

/-- How many images fit into what is left of a turn's bounds. -/
def keptImages : Nat → Nat → List PromptImage → Nat
  | _, _, [] => 0
  | count, bytes, image :: rest =>
    if count ≥ maxImagesPerTurn || bytes + image.data.length > maxBytesPerTurn then 0
    else keptImages (count + 1) (bytes + image.data.length) rest + 1

def toolImageAttachments (images : List PromptImage) : List PromptAttachment :=
  images.mapIdx fun index image =>
    { label := "Tool image " ++ toString (index + 1), image := some image }

/-- Keeps those of an external tool's images that fit, and says how many. -/
def retainExternalToolImages (turnId callId : String) (images : List PromptImage) : Native Nat := do
  let w ← Proc.get
  let earlier := w.kept.session.turnImages turnId
  let kept := keptImages (earlier.map (·.imageCount)).sum (earlier.map (·.imageBytes)).sum images
  match toolImageAttachments (images.take kept) with
  | [] => pure 0
  | first :: rest =>
    send "session event receiver closed"
    modify (·.retain turnId callId first rest)
    pure kept

/-! ## One call -/

variable (R : AgentRuntime)

/-- The output for a model that has seen the images, and the images to keep on the result. -/
def showToolImagesToModel (images : List PromptImage) (output : String) :
    Native (String × List PromptAttachment) :=
  if R.directImageInput then pure (output, toolImageAttachments images)
  else if R.vision && R.visionEnabled then
    wait >>= fun reply =>
      let description := match reply.description with
        | .ok description => "Vision add-on analysis of the tool images:\n" ++ description
        | .error error => "The tool images could not be described: " ++ error
      pure (output ++ "\n\n" ++ description, [])
  else pure (output ++ "\n\n" ++ "This model cannot view the tool images.", [])

/-- What an external tool's result says of its images. -/
def imagesNote (total : Nat) : Except String Nat → String
  | .ok kept => if kept = total then returnedImagesOutput kept else keptImagesNote kept total
  | .error error => "Its images were not attached: " ++ error

/-- An external tool is executed by the client. -/
def executeExternalTool (site : Site) (toolCall : ToolCall) : Native ExecutedTool := do
  send
  send
  emit (.request site toolCall)
  let reply ← wait
  check (reply.failure.map fun _ => "external tool result was dismissed")
  let (result, images) := if reply.cancelled then
      (ToolResult.failure "external tool call interrupted", [])
    else (reply.result, reply.images)
  emit (.finished site result)
  if images.isEmpty then
    pure (.new (runtimeToolKind toolCall.name true) toolCall toolCall.name result reply.clock)
  else
    let retained ← Native.result (retainExternalToolImages site.turnId toolCall.id images)
    let (output, modelImages) ← showToolImagesToModel R images
      (result.output ++ "\n\n" ++ imagesNote images.length retained)
    pure { ExecutedTool.new (runtimeToolKind toolCall.name true) toolCall toolCall.name
        { result with output := output } reply.clock with images := modelImages }

/-- What a call is executed with, once it is announced. -/
def launch (site : Site) (toolCall : ToolCall) (tool : Tool) : Native (Except ExecutedTool Tool) :=
  match tool.prepareAndValidate toolCall.arguments with
  | .ok _ => emit (.execute site toolCall) >>= fun _ => pure (.ok tool)
  | .error error => consult >>= fun reply =>
    pure (.error (.new (runtimeToolKind toolCall.name false) toolCall
      (toolCall.name ++ " · " ++ tool.summarize toolCall.arguments) (.failure error) reply.clock))

/-- A builtin tool has ended. -/
def finish (site : Site) (toolCall : ToolCall) (tool : Tool) (reply : Reply) : Native ExecutedTool :=
  emit (.finished site reply.result) >>= fun _ =>
    pure (.new (runtimeToolKind toolCall.name false) toolCall
      (toolCall.name ++ " · " ++ tool.summarize toolCall.arguments) reply.result reply.clock)

/-- The images that a tool has attached are kept, unless its session was its own. -/
def keepReturned (isolated : Bool) (site : Site) (toolCall : ToolCall)
    (returned : Option (PromptAttachment × List PromptAttachment)) : Native Unit :=
  match isolated, returned with
  | false, some (first, rest) => modify (·.retain site.turnId toolCall.id first rest)
  | _, _ => pure ()

/-- A builtin tool is executed, on a session of its own when it is read-only. -/
def executeBuiltinTool (isolated : Bool) (site : Site) (toolCall : ToolCall) :
    Native ExecutedTool := do
  let reply ← consult
  match R.builtinTool reply.clock.startedAtMs toolCall with
  | .error executed => pure executed
  | .ok tool =>
    send
    match ← launch site toolCall tool with
    | .error executed => pure executed
    | .ok tool =>
      let reply ← wait
      keepReturned isolated site toolCall reply.returned
      finish site toolCall tool reply

def executeReadOnlyTool (site : Site) (toolCall : ToolCall) : Native ExecutedTool :=
  executeBuiltinTool R true site toolCall

def executeUnderlyingExclusiveTool (site : Site) (toolCall : ToolCall) : Native ExecutedTool :=
  if R.isExternalTool toolCall.name then executeExternalTool R site toolCall
  else executeBuiltinTool R false site toolCall

/-! ## Results -/

/-- A successful read of a skill is reported. -/
def invokesSkill (executed : ExecutedTool) : Bool :=
  !executed.failed && executed.name == "read_skill" && executed.invocationIdentity.isSome
    && ((field? executed.arguments "name").bind asStr?).isSome

/-- A result is reported and measured. -/
def noteToolResult (site : Site) (toolCall : ToolCall) (executed : ExecutedTool) : Native Unit := do
  Proc.when (invokesSkill executed) send
  modify (·.update (·.pushTool (executed.metric site.turnId)))
  emit (.answered site toolCall executed.item)

def retainToolResult (site : Site) (toolCall : ToolCall) (executed : ExecutedTool)
    (addToModelHistory : Bool) : Native Unit := do
  noteToolResult site toolCall executed
  Proc.when addToModelHistory (modify (·.push (.toolResult executed.item)))

def recordToolResult (site : Site) (toolCall : ToolCall) (executed : ExecutedTool) : Native Unit :=
  send >>= fun _ => retainToolResult site toolCall executed true

def recordNestedToolResult (site : Site) (toolCall : ToolCall) (executed : ExecutedTool) :
    Native Unit :=
  send >>= fun _ => retainToolResult site toolCall executed false

/-! ## Programs -/

/-- A call that a program makes, the `sequence`-th of it. -/
def executeNestedTool (catalogue : List ToolDefinition) (sequence : Nat) (site : Site)
    (toolCall : ToolCall) : Native ExecutedTool := do
  let reply ← consult
  match nestedRefusal reply.clock.startedAtMs toolCall catalogue sequence with
  | some executed => pure executed
  | none =>
    if R.isReadOnly toolCall.name then executeReadOnlyTool R site toolCall
    else executeUnderlyingExclusiveTool R site toolCall

/-- How far a program is: how many calls it has made, and the images that they returned, which
travel on the program's result. -/
structure Program where
  sequence : Nat := 0
  images : List PromptAttachment := []

/-- A program's next message is read and, when it is a call, answered. -/
def programStep (site : Site) (toolCall : ToolCall) (catalogue : List ToolDefinition)
    (program : Program) : Native (Program ⊕ (ToolResult × List PromptAttachment)) := do
  match ← guarded wait with
  | .error failure => pure (.inr (failure, program.images))
  | .ok reply =>
    check reply.failure
    match reply.frame with
    | .error failure => pure (.inr (failure, program.images))
    | .ok message =>
      match (field? message "type").bind asStr? with
      | some "invoke" =>
        let sequence := program.sequence + 1
        let nested : ToolCall :=
          { id := toolCall.id ++ "/" ++ toString sequence
            parentCallId := some toolCall.id
            name := ((field? message "name").bind asStr?).getD ""
            arguments := (field? message "arguments").getD (.obj []) }
        let site := { site with slot := { site.slot with sequence := some sequence } }
        match ← guarded (executeNestedTool R catalogue sequence site nested) with
        | .error failure => pure (.inr (failure, program.images))
        | .ok executed =>
          recordNestedToolResult site nested executed
          let reply ← wait
          check reply.failure
          pure (.inl ⟨sequence, program.images ++ executed.images⟩)
      | some "complete" =>
        pure (.inr (.success ((field? message "value").getD .null).pretty, program.images))
      | some "failed" =>
        pure (.inr (.failure (((field? message "message").bind asStr?).getD
          "codemode execution failed"), program.images))
      | _ => pure (.inr (.failure "codemode worker sent an unknown message", program.images))

/-- The source of a program, or why there is none. -/
def programSource (arguments : Json) : Except String String :=
  match arguments with
  | .obj [("code", .str source)] =>
    if Text.len source > maxSourceBytes then .error "codemode source exceeds the 32 KiB limit"
    else .ok source
  | _ => .error "codemode requires exactly one string argument named code"

def executeCodeMode (site : Site) (toolCall : ToolCall) (catalogue : List ToolDefinition) :
    Native ExecutedTool := do
  send
  match programSource toolCall.arguments with
  | .error error =>
    let reply ← consult
    pure (.new "codemode" toolCall "codemode · confined JavaScript" (.failure error) reply.clock)
  | .ok _ =>
    let reply ← wait
    check reply.failure
    emit (.execute site toolCall)
    let (result, images) ← loop .lost (programStep R site toolCall catalogue) {}
    emit (.finished site result)
    pure { ExecutedTool.new "codemode" toolCall "codemode · confined JavaScript" result reply.clock
      with images := images }

def executeExclusiveTool (site : Site) (toolCall : ToolCall) : Native ExecutedTool :=
  match R.codeModeCatalogue with
  | some catalogue =>
    if toolCall.name == "codemode" then executeCodeMode R site toolCall catalogue
    else consult >>= fun reply => pure (.refused reply.clock.startedAtMs toolCall)
  | none => executeUnderlyingExclusiveTool R site toolCall

/-! ## Calls that run together -/

/-- How far a call that runs beside others is. -/
inductive ReadState where
  | waiting
  | announced (tool : Tool)
  | running (tool : Tool)
  | publishing (executed : ExecutedTool)
  | settled (outcome : Except TurnError ExecutedTool)

structure Read where
  toolCall : ToolCall
  state : ReadState

/-- A call goes on until it waits again. -/
def advanceRead (site : Site) (toolCall : ToolCall) (reply : Reply) :
    ReadState → Native ReadState
  | .waiting =>
    match R.builtinTool reply.clock.startedAtMs toolCall with
    | .error executed => pure (.publishing executed)
    | .ok tool => pure (.announced tool)
  | .announced tool =>
    if reply.received then
      launch site toolCall tool >>= fun
        | .ok tool => pure (.running tool)
        | .error executed => pure (.publishing executed)
    else pure (.settled (.error (.failed "backend event receiver closed")))
  | .running tool => finish site toolCall tool reply >>= fun executed => pure (.publishing executed)
  | .publishing executed =>
    if reply.received then pure (.settled (.ok executed))
    else pure (.settled (.error (.failed "backend event receiver closed")))
  | .settled outcome => pure (.settled outcome)

/-- What calls that run together are answered, once all are. -/
def outcomes? (reads : List Read) : Option (List (ToolCall × Except TurnError ExecutedTool)) :=
  reads.mapM fun read => match read.state with
    | .settled outcome => some (read.toolCall, outcome)
    | _ => none

/-- Where the call with an index among those that run together stands. -/
def Site.at (site : Site) (index : Nat) : Site :=
  { site with slot := { site.slot with position := site.slot.position + index } }

/-- One of the calls that run together goes on, until all are answered. -/
def batchStep (site : Site) (reads : List Read) :
    Native (List Read ⊕ List (ToolCall × Except TurnError ExecutedTool)) :=
  match outcomes? reads with
  | some outcomes => pure (.inr outcomes)
  | none => wait >>= fun reply =>
    match reads[reply.index]? with
    | none => pure (.inl reads)
    | some read =>
      advanceRead R (site.at reply.index) read.toolCall reply read.state >>= fun state =>
        pure (.inl (reads.set reply.index { read with state := state }))

/-- The result of one of the calls that ran together is recorded. -/
def retainOutcome (turnId : String) (round : Nat)
    (outcome : ToolCall × Except TurnError ExecutedTool) : Native Unit := do
  match outcome.2 with
  | .error error => throw (.failed error)
  | .ok executed =>
    let w ← Proc.get
    retainToolResult ⟨turnId, round, ⟨w.kept.session.historyPosition, none⟩⟩ outcome.1 executed true
    checkpoint

/-- A part of a message's calls is executed. -/
def executeWork (turnId : String) (round : Nat) (work : Work) : Native Unit := do
  let w ← Proc.get
  let site : Site := ⟨turnId, round, ⟨w.kept.session.historyPosition, none⟩⟩
  match work with
  | .exclusive toolCall =>
    let executed ← executeExclusiveTool R site toolCall
    recordToolResult site toolCall executed
    checkpoint
  | .batch toolCalls =>
    let outcomes ← loop .lost (batchStep R site) (toolCalls.map fun toolCall => ⟨toolCall, .waiting⟩)
    each (retainOutcome turnId round) outcomes

def executeToolCalls (turnId : String) (round : Nat) (toolCalls : List ToolCall) : Native Unit :=
  each (executeWork R turnId round) (R.schedule toolCalls)

end Nakode.Agent

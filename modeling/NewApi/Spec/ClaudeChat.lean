import Mathlib.Data.Nat.Notation

/-!
# Claude messages as chat completions

`relaykit/relayconvert/internal/claude_messages/to_oai_chat_resp.go`: a message of Claude is turned into an answer of
the chat completions API as a whole (`ResponseClaude2OpenAI`) or event by event (`StreamResponseClaude2OpenAI`).
`ChatAnswer.add` is what a client of that API does with the chunks.
-/

namespace NewApi

/-- The JSON package, on values that it has decoded. -/
structure JsonCodec (J : Type) where
  marshal : Option J → String
  unmarshal : String → Option J
  unmarshal_marshal (input : J) : unmarshal (marshal (some input)) = some input

variable {J : Type}

inductive ClaudeMediaType
  | text | thinking | toolUse | textDelta | inputJsonDelta | signatureDelta | thinkingDelta
  | other (type : String)
  deriving DecidableEq, Repr

structure ClaudeMedia (J : Type) where
  type : ClaudeMediaType := .other ""
  text : Option String := none
  model : String := ""
  stopReason : Option String := none
  partialJson : Option String := none
  thinking : Option String := none
  id : String := ""
  name : String := ""
  input : Option J := none

def ClaudeMedia.getText (m : ClaudeMedia J) : String := m.text.getD ""

inductive ClaudeEventType
  | messageStart | contentBlockStart | contentBlockDelta | messageDelta | messageStop
  | other (type : String)
  deriving DecidableEq, Repr

structure ClaudeResponse (J : Type) where
  id : String := ""
  type : ClaudeEventType
  content : List (ClaudeMedia J) := []
  stopReason : String := ""
  model : String := ""
  index : Option ℕ := none
  contentBlock : Option (ClaudeMedia J) := none
  delta : Option (ClaudeMedia J) := none
  message : Option (ClaudeMedia J) := none

structure ChatToolCall where
  index : Option ℕ
  (id name arguments : String)
  deriving DecidableEq, Repr

structure ChatChunk where
  id : String := ""
  model : String
  role : String := ""
  content : Option String := none
  reasoningContent : Option String := none
  toolCalls : List ChatToolCall := []
  finishReason : Option String := none

structure ChatResponse where
  (id model content : String)
  reasoningContent : Option String
  toolCalls : List ChatToolCall
  finishReason : String

def claudeStopReasonToOpenAIFinishReason (stopReason : String) : String :=
  match stopReason.toLower with
  | "stop_sequence" => "stop"
  | "end_turn" => "stop"
  | "max_tokens" => "length"
  | "tool_use" => "tool_calls"
  | "refusal" => "content_filter"
  | _ => stopReason

/-- The chunk for an event, if it has one; `none` outside when the function panics, on a delta of the arguments without
them. -/
def streamResponseClaude2OpenAI (r : ClaudeResponse J) : Option (Option ChatChunk) :=
  let fcIdx := r.index.getD 0
  let chunk : ChatChunk := { model := r.model }
  match r.type with
  | .messageStart =>
    match r.message with
    | some m => some (some { chunk with id := m.id, model := m.model, content := some "", role := "assistant" })
    | none => some (some { chunk with content := some "", role := "assistant" })
  | .contentBlockStart =>
    match r.contentBlock with
    | none => some none
    | some block =>
      match block.type with
      | .text => some (some { chunk with content := block.text })
      | .toolUse => some (some { chunk with toolCalls := [⟨some fcIdx, block.id, block.name, ""⟩] })
      | _ => some (some chunk)
  | .contentBlockDelta =>
    match r.delta with
    | none => some (some chunk)
    | some delta =>
      match delta.type with
      -- a chunk with tool calls has no content
      | .inputJsonDelta => delta.partialJson.map fun json =>
        some { chunk with toolCalls := [⟨some fcIdx, "", "", json⟩] }
      | .signatureDelta => some (some { chunk with content := delta.text, reasoningContent := some "\n" })
      | .thinkingDelta => some (some { chunk with content := delta.text, reasoningContent := delta.thinking })
      | _ => some (some { chunk with content := delta.text })
  | .messageDelta =>
    match r.delta.bind (·.stopReason) with
    | none => some (some chunk)
    | some stopReason =>
      let finishReason := claudeStopReasonToOpenAIFinishReason stopReason
      some (some { chunk with finishReason := if finishReason = "null" then none else some finishReason })
  | _ => some none

structure ClaudeLoop where
  responseText : String
  tools : List ChatToolCall
  thinkingContent : String

def ClaudeLoop.next (codec : JsonCodec J) (v : ClaudeLoop) (message : ClaudeMedia J) : ClaudeLoop :=
  match message.type with
  | .toolUse => { v with tools := v.tools ++ [⟨none, message.id, message.name, codec.marshal message.input⟩] }
  | .thinking => { v with thinkingContent := message.thinking.getD v.thinkingContent }
  | .text => { v with responseText := message.getText }
  | _ => v

def responseClaude2OpenAI (codec : JsonCodec J) (r : ClaudeResponse J) : ChatResponse :=
  let responseText := (r.content.head?.map ClaudeMedia.getText).getD ""
  let responseThinking := (r.content.head?.bind (·.thinking)).getD ""
  let v := r.content.foldl (ClaudeLoop.next codec) ⟨responseText, [], ""⟩
  { id := r.id
    model := r.model
    content := v.responseText
    reasoningContent :=
      if v.thinkingContent ≠ "" then some v.thinkingContent
      else if responseThinking ≠ "" then some responseThinking
      else none
    toolCalls := v.tools
    finishReason := claudeStopReasonToOpenAIFinishReason r.stopReason }

structure ChatAnswer where
  text : String
  calls : List ChatToolCall
  finish : Option String

/-- A part of a tool call goes to the call with its index. -/
def addCall (calls : List ChatToolCall) (part : ChatToolCall) : List ChatToolCall :=
  if calls.any (·.index = part.index) then
    calls.map fun call =>
      if call.index = part.index then { call with arguments := call.arguments ++ part.arguments } else call
  else calls ++ [part]

def ChatAnswer.add (answer : ChatAnswer) (chunk : ChatChunk) : ChatAnswer where
  text := answer.text ++ chunk.content.getD ""
  calls := chunk.toolCalls.foldl addCall answer.calls
  finish := chunk.finishReason.or answer.finish

def ChatAnswer.event (answer : ChatAnswer) (r : ClaudeResponse J) : Option ChatAnswer :=
  (streamResponseClaude2OpenAI r).map fun chunk => (chunk.map answer.add).getD answer

/-- A block, and how it is split: its `content_block_start` and the deltas. The fragments of the arguments and the input
are what the upstream sends in a stream and in a whole message. -/
inductive ClaudeBlock (codec : JsonCodec J)
  | text (start : Option String) (pieces : List String)
  /-- the thinking, and signatures where there is `none` -/
  | thinking (pieces : List (Option String))
  | toolUse (id name : String) (start : Option J) (fragments : List String) (input : J)

variable {codec : JsonCodec J}

def ClaudeBlock.media : ClaudeBlock codec → ClaudeMedia J
  | .text start pieces => { type := .text, text := some (start.getD "" ++ String.join pieces) }
  | .thinking pieces => { type := .thinking, thinking := some (String.join (pieces.map (·.getD ""))) }
  | .toolUse id name _ _ input => { type := .toolUse, id := id, name := name, input := some input }

def ClaudeBlock.start : ClaudeBlock codec → ClaudeMedia J
  | .text start _ => { type := .text, text := start }
  | .thinking _ => { type := .thinking, thinking := some "" }
  | .toolUse id name start _ _ => { type := .toolUse, id := id, name := name, input := start }

def ClaudeBlock.deltas : ClaudeBlock codec → List (ClaudeMedia J)
  | .text _ pieces => pieces.map fun piece => { type := .textDelta, text := some piece }
  | .thinking pieces => pieces.map fun piece =>
    { type := if piece.isSome then .thinkingDelta else .signatureDelta, thinking := piece }
  | .toolUse _ _ _ fragments _ => fragments.map fun json => { type := .inputJsonDelta, partialJson := some json }

def ClaudeMedia.deltaEvent (index : ℕ) (delta : ClaudeMedia J) : ClaudeResponse J :=
  { type := .contentBlockDelta, index := some index, delta := some delta }

def ClaudeBlock.events (index : ℕ) (block : ClaudeBlock codec) : List (ClaudeResponse J) :=
  { type := .contentBlockStart, index := some index, contentBlock := some block.start } ::
    block.deltas.map (ClaudeMedia.deltaEvent index)

def blockEvents (index : ℕ) : List (ClaudeBlock codec) → List (ClaudeResponse J)
  | [] => []
  | block :: rest => block.events index ++ blockEvents (index + 1) rest

structure ClaudeMessage (codec : JsonCodec J) where
  (id model stopReason : String)
  blocks : List (ClaudeBlock codec)

def ClaudeMessage.response (m : ClaudeMessage codec) : ClaudeResponse J :=
  { id := m.id, type := .other "message", content := m.blocks.map ClaudeBlock.media, stopReason := m.stopReason
    model := m.model }

def ClaudeMessage.events (m : ClaudeMessage codec) : List (ClaudeResponse J) :=
  { type := .messageStart, message := some { id := m.id, model := m.model } } :: blockEvents 0 m.blocks ++
    [{ type := .messageDelta, delta := some { stopReason := some m.stopReason } }]

end NewApi

import NewApi.Spec.ClaudeChat

/-!
# Chat completions as Gemini's answers

`relaykit/relayconvert/internal/oai_chat/to_gemini_chat_resp.go`, for an answer with one choice; an empty list of tool
calls is a missing one.
-/

namespace NewApi

structure ArgsCodec (M : Type) where
  unmarshal : String → Option M
  empty : M
  /-- the object with this text under `arguments` -/
  wrapped : String → M
  unmarshal_empty : unmarshal "" = none

inductive AnswerPart (M : Type)
  | text (text : String)
  | functionCall (functionName : String) (arguments : M)
  deriving DecidableEq

structure AnswerCandidate (M : Type) where
  parts : List (AnswerPart M)
  finishReason : Option String

variable {M : Type} (codec : ArgsCodec M)

def AnswerPart.call? : AnswerPart M → Option (String × M)
  | text _ => none
  | functionCall name arguments => some (name, arguments)

def openAIFinishReasonToGemini (finishReason : String) : String :=
  match finishReason with
  | "length" => "MAX_TOKENS"
  | "content_filter" => "SAFETY"
  | _ => "STOP"

def textParts (text : String) : List (AnswerPart M) := if text ≠ "" then [.text text] else []

def toolCallPart (call : ChatToolCall) : AnswerPart M :=
  .functionCall call.name <|
    if call.arguments ≠ "" then (codec.unmarshal call.arguments).getD (codec.wrapped call.arguments) else codec.empty

def responseOpenAI2Gemini (r : ChatResponse) : AnswerCandidate M where
  parts := textParts r.content ++ r.toolCalls.map (toolCallPart codec)
  finishReason := some (openAIFinishReasonToGemini r.finishReason)

def streamResponseOpenAI2Gemini (chunk : ChatChunk) : Option (AnswerCandidate M) :=
  if chunk.content.getD "" = "" ∧ chunk.toolCalls = [] ∧ chunk.finishReason = none then none
  else some
    { parts := if chunk.toolCalls ≠ [] then chunk.toolCalls.map (toolCallPart codec)
        else textParts (chunk.content.getD "")
      finishReason := chunk.finishReason.map openAIFinishReasonToGemini }

def streamedCalls (chunks : List ChatChunk) : List (String × M) :=
  (chunks.filterMap (streamResponseOpenAI2Gemini codec)).flatMap fun candidate => candidate.parts.filterMap (·.call?)

def assembled (chunks : List ChatChunk) : ChatResponse :=
  let answer := chunks.foldl ChatAnswer.add ⟨"", [], none⟩
  ⟨"", "", answer.text, none, answer.calls, answer.finish.getD ""⟩

/-- The stream has one call for each of the message, with its arguments, as the message itself is converted. -/
def CallsReproduced (chunks : List ChatChunk) (args : ChatToolCall → M) : Prop :=
  streamedCalls codec chunks = (assembled chunks).toolCalls.map (fun call => (call.name, args call)) ∧
    streamedCalls codec chunks = (responseOpenAI2Gemini codec (assembled chunks)).parts.filterMap (·.call?)

end NewApi

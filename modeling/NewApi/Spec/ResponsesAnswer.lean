import NewApi.Spec.ResponsesRequest
import NewApi.Spec.Wss

/-!
# Chat answers in the Responses format and back

`relaykit/relayconvert/internal/oai_chat/to_oai_responses_resp.go` and `oai_responses/to_oai_chat_resp.go`, for an
answer with one choice. Arguments are texts, which their encoding keeps.
-/

namespace NewApi

structure TokenUsage where
  (promptTokens completionTokens totalTokens inputTokens outputTokens : ℤ := 0)
  promptTokensDetails : InputTokenDetails := {}
  completionTokenDetails : OutputTokenDetails := {}
  inputTokensDetails : Option InputTokenDetails := none

structure ChatCompletion where
  (content reasoning finishReason : String)
  toolCalls : List CallRequest := []
  usage : TokenUsage := {}

/-- An output item; the parts of its content have a type and a text. -/
structure ResponsesOutput where
  type : String
  (role id callId name arguments : String := "")
  content : List (String × String) := []

structure ResponsesAnswer where
  /-- with the reason of `IncompleteDetails` -/
  status : String × Option String
  output : List ResponsesOutput
  usage : TokenUsage

def usageFromChatUsage (src : TokenUsage) : TokenUsage where
  promptTokens := src.promptTokens
  inputTokens := src.promptTokens
  completionTokens := src.completionTokens
  outputTokens := src.completionTokens
  totalTokens := if src.totalTokens ≠ 0 then src.totalTokens else src.promptTokens + src.completionTokens
  inputTokensDetails := if src.promptTokensDetails = {} then none else some src.promptTokensDetails
  completionTokenDetails := src.completionTokenDetails

def usageFromResponsesUsage (src : TokenUsage) : TokenUsage where
  promptTokens := src.inputTokens
  inputTokens := src.inputTokens
  completionTokens := src.outputTokens
  outputTokens := src.outputTokens
  totalTokens := if src.totalTokens ≠ 0 then src.totalTokens else src.inputTokens + src.outputTokens
  promptTokensDetails := src.inputTokensDetails.getD {}
  completionTokenDetails := src.completionTokenDetails

def responsesStatusFromChatFinishReason (finishReason : String) : String × Option String :=
  match trimSpace finishReason with
  | "length" => ("incomplete", some "max_output_tokens")
  | "content_filter" => ("incomplete", some "content_filter")
  | _ => ("completed", none)

def chatToolCallToResponsesOutput (responseID : String) (index : ℕ) (call : CallRequest) : ResponsesOutput :=
  let callID := if trimSpace call.id = "" then responseID ++ "_call_" ++ toString index else trimSpace call.id
  match call.type with
  | .function =>
    { type := "function_call", id := callID, callId := callID, name := call.name, arguments := call.arguments }
  | .custom => { type := "custom", id := callID, callId := callID, arguments := call.custom }

def chatCompletionsResponseToResponsesResponse (r : ChatCompletion) (id : String) : ResponsesAnswer where
  status := responsesStatusFromChatFinishReason r.finishReason
  output :=
    (if r.content = "" then [] else
      [{ type := "message", id := id ++ "_msg_0", role := "assistant", content := [("output_text", r.content)] }]) ++
    (if r.reasoning = "" then [] else
      [{ type := "reasoning", id := id ++ "_reasoning_0", content := [("summary_text", r.reasoning)] }]) ++
    r.toolCalls.mapIdx (chatToolCallToResponsesOutput id)
  usage := usageFromChatUsage r.usage

def extractOutputText (output : List ResponsesOutput) : String :=
  let messages := output.filter fun out => out.type = "message" ∧ (out.role = "" ∨ out.role = "assistant")
  let text := String.join (messages.flatMap fun out => (out.content.filter (·.1 = "output_text")).map (·.2))
  if text ≠ "" then text else String.join (output.flatMap (·.content.map (·.2)))

def extractReasoningText (output : List ResponsesOutput) : String :=
  String.join ((output.filter (·.type = "reasoning")).flatMap (·.content.map (·.2)))

def ResponsesOutput.toolCall? (out : ResponsesOutput) : Option CallRequest :=
  if out.type ≠ "function_call" ∧ out.type ≠ "custom_tool_call" ∨ trimSpace out.name = "" then none
  else some
    { id := if trimSpace out.callId = "" then trimSpace out.id else trimSpace out.callId
      type := .function, name := trimSpace out.name, arguments := out.arguments }

def responsesFinishReasonFromStatus (status : String × Option String) : Option String :=
  if trimSpace status.1 ≠ "incomplete" then none
  else if trimSpace (status.2.getD "") = "content_filter" then some "content_filter" else some "length"

def responsesResponseToChatCompletionsResponse (resp : ResponsesAnswer) : ChatCompletion where
  content := extractOutputText resp.output
  reasoning := extractReasoningText resp.output
  toolCalls := resp.output.filterMap (·.toolCall?)
  finishReason := (responsesFinishReasonFromStatus resp.status).getD
    (if resp.output.filterMap (·.toolCall?) = [] then "stop" else "tool_calls")
  usage := usageFromResponsesUsage resp.usage

/-- There and back, everything is the same but for the counts that a chat answer does not have. -/
def RoundTrips (r : ChatCompletion) (id : String) : Prop :=
  let back := responsesResponseToChatCompletionsResponse (chatCompletionsResponseToResponsesResponse r id)
  { back with usage.inputTokens := 0, usage.outputTokens := 0, usage.inputTokensDetails := none } =
    { r with usage.inputTokens := 0, usage.outputTokens := 0, usage.inputTokensDetails := none }

end NewApi

import NewApi.Spec.ResponsesRequest

/-!
# Chat messages as items of a Responses request

`relaykit/relayconvert/internal/oai_chat/to_oai_responses_req.go`, the loop over the messages. What becomes of a content
is a parameter; the instructions, which system messages become, are left out.
-/

namespace NewApi

inductive RequestItem (D : Type)
  | message (role : String) (content : D)
  | functionCall (callID name arguments : String)
  | functionCallOutput (callID output : String)
  deriving DecidableEq

structure ContentLib (C D : Type) where
  /-- by the role -/
  content : String → Option C → D
  output : Option C → String
  text : String → D

/-- The loop over the tool calls, of which the source has three copies. A call without a type is a function call. -/
def CallRequest.item? {D : Type} (call : CallRequest) : Option (RequestItem D) :=
  if trimSpace call.id = "" ∨ call.type ≠ .function ∨ trimSpace call.name = "" then none
  else some (.functionCall call.id (trimSpace call.name) call.arguments)

variable {C D : Type}

def RequestMessage.isAnswer (m : RequestMessage C) : Bool := trimSpace m.role = "tool" ∨ trimSpace m.role = "function"

variable (lib : ContentLib C D)

def RequestMessage.items (m : RequestMessage C) : List (RequestItem D) :=
  let role := trimSpace m.role
  if role = "" then []
  else if m.isAnswer then
    if trimSpace m.toolCallId = "" then
      [.message "user" (lib.text ("[tool_output_missing_call_id] " ++ lib.output m.content))]
    else [.functionCallOutput (trimSpace m.toolCallId) (lib.output m.content)]
  else if role = "system" ∨ role = "developer" then []
  else .message role (lib.content role m.content) ::
    if role = "assistant" then m.toolCalls.filterMap (·.item?) else []

def chatInputItems (messages : List (RequestMessage C)) : List (RequestItem D) := messages.flatMap (·.items lib)

/-- The calls of an assistant message follow its item, an answer is one output, and an output has its call before it. -/
def ExchangesKept (messages : List (RequestMessage C)) : Prop :=
  ∀ before m after, messages = before ++ m :: after →
    (trimSpace m.role = "assistant" → ∃ content, m.items lib = .message "assistant" content ::
      m.toolCalls.map fun call => .functionCall call.id (trimSpace call.name) call.arguments) ∧
    (m.isAnswer = true → ∃ callID output, m.items lib = [.functionCallOutput callID output]) ∧
    ∀ callID output, .functionCallOutput callID output ∈ m.items lib →
      ∃ name arguments, .functionCall callID name arguments ∈ chatInputItems lib before

end NewApi

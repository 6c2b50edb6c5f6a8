import NewApi.Spec.Basic

/-!
# A Responses request as chat messages

`relaykit/relayconvert/internal/oai_responses/to_oai_chat_req.go`: the items of the input are folded into a list of
messages (`responsesRequestMessagesToChat`). Calls go to the last assistant message.
-/

namespace NewApi

abbrev InputItem (V : Type) := String → Option V

/-- What is done with JSON values, `V`, and with contents of messages, `C`. -/
structure ItemLib (V C : Type) where
  interface2String : Option V → String
  /-- `responsesArgumentsString`: a string, or JSON -/
  responsesArgumentsString : Option V → String
  text : String → C
  responsesInputContentToChatContent : Option V → C
  marshal : InputItem V → String

inductive CallType
  | function | custom
  deriving DecidableEq

structure CallRequest where
  id : String
  type : CallType
  custom : String := ""
  (name arguments : String)
  deriving DecidableEq

/-- `Message`; its tool calls are kept as JSON, which gives back the same calls. -/
structure RequestMessage (C : Type) where
  role : String
  content : Option C := none
  toolCallId : String := ""
  toolCalls : List CallRequest := []

inductive RequestInput (V : Type)
  | missing | text (input : String) | array (items : List (InputItem V)) | other

variable {V C : Type} (lib : ItemLib V C)

namespace ItemLib

def field (item : InputItem V) (key : String) : String := trimSpace (lib.interface2String (item key))

def responsesCallID (item : InputItem V) : String :=
  if lib.field item "call_id" ≠ "" then lib.field item "call_id" else lib.field item "id"

def functionCall (item : InputItem V) : CallRequest where
  id := lib.responsesCallID item
  type := .function
  name := lib.field item "name"
  arguments := lib.responsesArgumentsString (item "arguments")

def customToolCall (item : InputItem V) : CallRequest where
  id := lib.responsesCallID item
  type := .custom
  custom := lib.marshal item
  name := lib.field item "name"
  arguments := lib.responsesArgumentsString (item "input")

end ItemLib

def RequestMessage.addCall (m : RequestMessage C) (call : CallRequest) : RequestMessage C :=
  { m with toolCalls := m.toolCalls ++ [call] }

def appendToolCallToLastAssistant (messages : List (RequestMessage C)) (call : CallRequest) : List (RequestMessage C) :=
  match messages.getLast? with
  | some last =>
    if last.role = "assistant" then messages.dropLast ++ [last.addCall call]
    else messages ++ [RequestMessage.addCall { role := "assistant" } call]
  | none => [RequestMessage.addCall { role := "assistant" } call]

/-- `none` for an error: a function call without a name. -/
def responsesInputItemToChatMessages (messages : List (RequestMessage C)) (item : InputItem V) :
    Option (List (RequestMessage C)) :=
  match lib.field item "type" with
  | "function_call" =>
    if lib.field item "name" = "" then none
    else some (appendToolCallToLastAssistant messages (lib.functionCall item))
  | "custom_tool_call" => some (appendToolCallToLastAssistant messages (lib.customToolCall item))
  | "function_call_output" =>
    some (messages ++ [{ role := "tool", toolCallId := lib.field item "call_id"
                         content := some (lib.text (lib.responsesArgumentsString (item "output"))) }])
  | _ =>
    let role := lib.field item "role"
    some (messages ++ [{ role := if role = "" then "user" else role
                         content := some (lib.responsesInputContentToChatContent (item "content")) }])

def responsesRequestMessagesToChat (instructions : Option String) (input : RequestInput V) :
    Option (List (RequestMessage C)) :=
  let messages := match instructions with
    | some s => if trimSpace s ≠ "" then [{ role := "system", content := some (lib.text s) }] else []
    | none => []
  match input with
  | .missing => some messages
  | .text s => some (messages ++ [{ role := "user", content := some (lib.text s) }])
  | .array items => items.foldlM (responsesInputItemToChatMessages lib) messages
  | .other => none

/-- What the messages say one after the other: tool calls, outputs of tools and contents. -/
inductive Utterance (C : Type)
  | call (call : CallRequest)
  | output (callID : String) (content : C)
  | message (role : String) (content : C)
  deriving DecidableEq

def RequestMessage.utterances (m : RequestMessage C) : List (Utterance C) :=
  if m.role = "tool" then (m.content.map (.output m.toolCallId)).toList
  else (m.content.map (.message m.role)).toList ++
    if m.role = "assistant" then m.toolCalls.map .call else []

/-- What an item is there for, read off its fields -/
def ItemLib.utterance (item : InputItem V) : Utterance C :=
  let role := lib.field item "role"
  let callID := lib.field item "call_id"
  let id := if callID = "" then lib.field item "id" else callID
  let name := lib.field item "name"
  match lib.field item "type" with
  | "function_call" => .call ⟨id, .function, "", name, lib.responsesArgumentsString (item "arguments")⟩
  | "custom_tool_call" => .call ⟨id, .custom, lib.marshal item, name, lib.responsesArgumentsString (item "input")⟩
  | "function_call_output" | "custom_tool_call_output" =>
    .output callID (lib.text (lib.responsesArgumentsString (item "output")))
  | _ =>
    let content := lib.responsesInputContentToChatContent (item "content")
    if role = "tool" then .output "" content else .message (if role = "" then "user" else role) content

/-- The messages say what the instructions and the items do, in order. -/
def ItemsKept (instructions : Option String) (items : List (InputItem V)) (messages : List (RequestMessage C)) : Prop :=
  ∃ start, responsesRequestMessagesToChat lib instructions .missing = some start ∧
    messages.flatMap (·.utterances) = start.flatMap (·.utterances) ++ items.map lib.utterance

end NewApi

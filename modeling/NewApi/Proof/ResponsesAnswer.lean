import NewApi.Spec.ResponsesAnswer

/-!
# The round trip of an answer

An answer without a content gets the text of its other items as one (`texts_back`), so a reasoning without a content
becomes the content as well (`reasoning_becomes_content`). Everything else comes back (`answer_round_trips_iff`).
-/

namespace NewApi

open List

/-- A function call with a name and an id that have no white space around them -/
structure CallRequest.Regular (call : CallRequest) : Prop where
  function : call.type = .function ∧ call.custom = ""
  id : trimSpace call.id = call.id ∧ call.id ≠ ""
  name : trimSpace call.name = call.name ∧ call.name ≠ ""

variable {r : ChatCompletion} {calls : List CallRequest}

theorem toolCall_back {call : CallRequest} (h : call.Regular) (responseID : String) (index : ℕ) :
    (chatToolCallToResponsesOutput responseID index call).toolCall? = some call := by
  obtain ⟨id, type, custom, name, arguments⟩ := call
  obtain ⟨⟨rfl, rfl⟩, ⟨hid, hid'⟩, hname, hname'⟩ := h
  simp only at hid hid' hname hname'
  simp [chatToolCallToResponsesOutput, ResponsesOutput.toolCall?, hid, hid', hname, hname']

section

variable (h : ∀ call ∈ calls, call.Regular)
include h

theorem toolCalls_back (responseID : String) :
    (calls.mapIdx (chatToolCallToResponsesOutput responseID)).filterMap (·.toolCall?) = calls := by
  rw [mapIdx_eq_zipIdx_map, filterMap_map]
  calc calls.zipIdx.filterMap _ = calls.zipIdx.filterMap (some ∘ Prod.fst) :=
        filterMap_congr fun p hp => toolCall_back (h p.1 (fst_mem_of_mem_zipIdx hp)) responseID p.2
    _ = calls := by rw [filterMap_eq_map, zipIdx_map_fst]

theorem calls_contents (responseID : String) :
    ∀ out ∈ calls.mapIdx (chatToolCallToResponsesOutput responseID), out.type = "function_call" ∧ out.content = [] := by
  intro out hout
  obtain ⟨i, hi, rfl⟩ := mem_mapIdx.1 hout
  have hfunction := (h _ (getElem_mem hi)).function.1
  simp [chatToolCallToResponsesOutput, hfunction]

end

theorem usage_back {u : TokenUsage} (h : u.totalTokens = u.promptTokens + u.completionTokens) :
    { usageFromResponsesUsage (usageFromChatUsage u) with
      inputTokens := 0, outputTokens := 0, inputTokensDetails := none } =
      { u with inputTokens := 0, outputTokens := 0, inputTokensDetails := none } := by
  simp only [usageFromResponsesUsage, usageFromChatUsage, ← h, ite_self, TokenUsage.mk.injEq, true_and, and_true]
  split_ifs with hdetails
  · exact hdetails.symm
  · rfl

theorem texts_back (hcalls : ∀ call ∈ r.toolCalls, call.Regular) (id : String) :
    extractOutputText (chatCompletionsResponseToResponsesResponse r id).output =
        (if r.content = "" then r.reasoning else r.content) ∧
      extractReasoningText (chatCompletionsResponseToResponsesResponse r id).output = r.reasoning := by
  have hitems := calls_contents hcalls id
  unfold extractOutputText extractReasoningText chatCompletionsResponseToResponsesResponse
  generalize r.toolCalls.mapIdx (chatToolCallToResponsesOutput id) = items at hitems
  have hmessages : items.filter (fun out => out.type = "message" ∧ (out.role = "" ∨ out.role = "assistant")) = [] :=
    filter_eq_nil_iff.2 fun out hout => by simp [(hitems out hout).1]
  have hreasoning : items.filter (fun out => out.type = "reasoning") = [] :=
    filter_eq_nil_iff.2 fun out hout => by simp [(hitems out hout).1]
  have hcontents : items.flatMap (fun out => out.content.map (·.2)) = [] :=
    flatMap_eq_nil_iff.2 fun out hout => by simp [(hitems out hout).2]
  simp only [filter_append, flatMap_append, hmessages, hreasoning, hcontents, append_nil]
  by_cases hc : r.content = "" <;> by_cases hr : r.reasoning = "" <;> simp_all

/-- **There and back**, an answer is the same exactly if it has a content or no reasoning. -/
theorem answer_round_trips_iff (r : ChatCompletion) (id : String) (hcalls : ∀ call ∈ r.toolCalls, call.Regular)
    (hfinish : r.finishReason = "stop" ∧ r.toolCalls = [] ∨ r.finishReason = "tool_calls" ∧ r.toolCalls ≠ [] ∨
      r.finishReason = "length" ∨ r.finishReason = "content_filter")
    (htotal : r.usage.totalTokens = r.usage.promptTokens + r.usage.completionTokens) :
    RoundTrips r id ↔ r.content ≠ "" ∨ r.reasoning = "" := by
  have hback : (chatCompletionsResponseToResponsesResponse r id).output.filterMap (·.toolCall?) = r.toolCalls := by
    simp only [chatCompletionsResponseToResponsesResponse, filterMap_append, toolCalls_back hcalls]
    split_ifs <;> rfl
  have htexts := texts_back hcalls id
  have hreason : (responsesFinishReasonFromStatus (responsesStatusFromChatFinishReason r.finishReason)).getD
      (if r.toolCalls = [] then "stop" else "tool_calls") = r.finishReason := by
    rcases hfinish with ⟨h, hnone⟩ | ⟨h, hsome⟩ | h | h
    · rw [h, if_pos hnone]
      decide
    · rw [h, if_neg hsome]
      decide
    all_goals
      have hback : responsesFinishReasonFromStatus (responsesStatusFromChatFinishReason r.finishReason) =
          some r.finishReason := by
        rw [h]
        decide
      rw [hback, Option.getD_some]
  unfold RoundTrips responsesResponseToChatCompletionsResponse
  have husage := usage_back htotal
  have hsame : (if r.content = "" then r.reasoning else r.content) = r.content ↔ r.content ≠ "" ∨ r.reasoning = "" := by
    by_cases hempty : r.content = "" <;> simp [hempty]
  simp only [hback, htexts, hsame, ChatCompletion.mk.injEq, true_and]
  exact ⟨And.left, fun h => ⟨h, hreason, husage⟩⟩

def reasonedAnswer (content : String) : ChatCompletion :=
  { content, reasoning := "b", finishReason := "tool_calls", toolCalls := [⟨"1", .function, "", "f", ""⟩] }

theorem answer_round_trips_sample : RoundTrips (reasonedAnswer "a") "r" :=
  (answer_round_trips_iff _ _ (by simpa [reasonedAnswer] using ⟨by decide, by decide, by decide⟩) (by decide) rfl).2
    (by decide)

theorem reasoning_becomes_content : ¬RoundTrips (reasonedAnswer "") "r" := by
  intro h
  exact absurd (congrArg ChatCompletion.content h) (by decide)

end NewApi

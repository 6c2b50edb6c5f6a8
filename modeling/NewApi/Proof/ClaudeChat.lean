import NewApi.Spec.ClaudeChat

/-!
# A message that is streamed and a whole one

A client gets the texts of all text blocks one after the other and a call for each tool block, since the index of a
block is the index of its call (`blockEvents_answer`). The whole message has the text of the last text block only, so
the two answers are the same exactly if there is no other text and the arguments are sent (`conversions_agree_iff`).
-/

namespace NewApi

open ChatAnswer List ClaudeBlock
open ClaudeMedia (deltaEvent getText)

variable {J : Type} {codec : JsonCodec J} {answer : ChatAnswer} {had : List ChatToolCall} {index : ℕ}

attribute [simp] ChatAnswer.event ChatAnswer.add streamResponseClaude2OpenAI ClaudeMedia.deltaEvent ClaudeMedia.getText
  media start deltas ClaudeLoop.next

@[simp]
def ClaudeBlock.text? : ClaudeBlock codec → Option String
  | .text start pieces => some (start.getD "" ++ String.join pieces)
  | _ => none

@[simp]
def ClaudeBlock.calls (index : ℕ) : ClaudeBlock codec → List ChatToolCall
  | .toolUse id name _ fragments _ => [⟨some index, id, name, String.join fragments⟩]
  | _ => []

def blockCalls (index : ℕ) : List (ClaudeBlock codec) → List ChatToolCall
  | [] => []
  | block :: rest => block.calls index ++ blockCalls (index + 1) rest

def CallsBefore (index : ℕ) (calls : List ChatToolCall) : Prop := ∀ call ∈ calls, ∀ k, call.index = some k → k < index

theorem CallsBefore.append (h : CallsBefore index had) (block : ClaudeBlock codec) :
    CallsBefore (index + 1) (had ++ block.calls index) := by
  intro call hcall k hk
  rcases mem_append.1 hcall with hold | hnew
  · exact Nat.lt_succ_of_lt (h call hold k hk)
  cases block with
  | toolUse =>
    rw [mem_singleton.1 hnew] at hk
    cases hk
    exact Nat.lt_succ_self _
  | text | thinking => cases hnew

theorem CallsBefore.ne (h : CallsBefore index had) : ∀ call ∈ had, call.index ≠ some index :=
  fun call hcall heq => Nat.lt_irrefl _ (h call hcall index heq)

theorem addCall_new {part : ChatToolCall} (h : ∀ call ∈ had, call.index ≠ part.index) :
    addCall had part = had ++ [part] := by
  rw [addCall, if_neg]
  simpa using h

theorem addCall_last {call part : ChatToolCall} (h : ∀ other ∈ had, other.index ≠ part.index)
    (hcall : call.index = part.index) :
    addCall (had ++ [call]) part = had ++ [{ call with arguments := call.arguments ++ part.arguments }] := by
  rw [addCall, if_pos (by simp [hcall]), map_append, map_singleton, if_pos hcall]
  congr 1
  exact (map_congr_left fun other hother => if_neg (h other hother)).trans (map_id' had)

theorem text_answer (index : ℕ) (pieces : List String) (answer : ChatAnswer) :
    (pieces.map fun piece => deltaEvent (J := J) index { type := .textDelta, text := some piece }).foldlM
      event answer = some { answer with text := answer.text ++ String.join pieces } := by
  induction pieces generalizing answer with
  | nil => simp
  | cons piece rest ih =>
    rw [map_cons, foldlM_cons, String.join_cons, ← String.append_assoc]
    exact ih { answer with text := answer.text ++ piece }

theorem thinking_answer (index : ℕ) (pieces : List (Option String)) (answer : ChatAnswer) :
    ((thinking pieces : ClaudeBlock codec).deltas.map (deltaEvent index)).foldlM event answer = some answer := by
  induction pieces with
  | nil => rfl
  | cons piece rest ih =>
    have hsame : answer.event (deltaEvent (J := J) index
        { type := if piece.isSome then .thinkingDelta else .signatureDelta, thinking := piece }) = some answer := by
      cases piece <;> simp
    rw [deltas, map_cons, map_cons, foldlM_cons, hsame]
    exact ih

theorem fragments_answer (hbefore : CallsBefore index had) (fragments : List String) (call : ChatToolCall)
    (hcall : call.index = some index) :
    (fragments.map fun json => deltaEvent (J := J) index
        { type := .inputJsonDelta, partialJson := some json }).foldlM event
        { answer with calls := had ++ [call] } = some { answer with
      calls := had ++ [{ call with arguments := call.arguments ++ String.join fragments }] } := by
  induction fragments generalizing call with
  | nil => simp
  | cons json rest ih =>
    have hadd : addCall (had ++ [call]) ⟨some index, "", "", json⟩ =
        had ++ [{ call with arguments := call.arguments ++ json }] := addCall_last hbefore.ne hcall
    rw [map_cons, foldlM_cons, String.join_cons, ← String.append_assoc]
    simp only [event, streamResponseClaude2OpenAI, deltaEvent, add, Option.map_some,
      Option.getD_some, Option.getD_none, foldl_cons, foldl_nil, hadd, Option.none_or, String.append_empty]
    exact ih { call with arguments := call.arguments ++ json } hcall

theorem events_answer (block : ClaudeBlock codec) (hbefore : CallsBefore index answer.calls) :
    (block.events index).foldlM event answer = some { answer with
      text := answer.text ++ block.text?.getD "", calls := answer.calls ++ block.calls index } := by
  unfold events
  rw [foldlM_cons]
  cases block with
  | text start pieces =>
    have hrest := text_answer (J := J) index pieces { answer with text := answer.text ++ start.getD "" }
    simpa [String.append_assoc, Function.comp_def] using hrest
  | thinking pieces => simpa using @thinking_answer J codec index pieces answer
  | toolUse id name start fragments input =>
    have hadd : addCall answer.calls ⟨some index, id, name, ""⟩ = answer.calls ++ [⟨some index, id, name, ""⟩] :=
      addCall_new hbefore.ne
    have hrest := @fragments_answer J answer _ _ hbefore fragments ⟨some index, id, name, ""⟩ rfl
    simpa [hadd, Function.comp_def] using hrest

def blockTexts (blocks : List (ClaudeBlock codec)) : List String := blocks.filterMap ClaudeBlock.text?

theorem blockEvents_answer (blocks : List (ClaudeBlock codec)) (hbefore : CallsBefore index answer.calls) :
    (blockEvents index blocks).foldlM event answer = some { answer with
      text := answer.text ++ String.join (blockTexts blocks), calls := answer.calls ++ blockCalls index blocks } := by
  induction blocks generalizing index answer with
  | nil => simp [blockEvents, blockTexts, blockCalls]
  | cons block rest ih =>
    have htexts : String.join (blockTexts (block :: rest)) = block.text?.getD "" ++ String.join (blockTexts rest) := by
      cases block <;> simp [blockTexts, filterMap_cons, String.join_cons]
    rw [blockEvents, foldlM_append, events_answer block hbefore, htexts, blockCalls, ← String.append_assoc,
      ← append_assoc]
    exact ih (hbefore.append block)

theorem ClaudeLoop.next_texts (blocks : List (ClaudeBlock codec)) (v : ClaudeLoop) :
    ((blocks.map media).foldl (next codec) v).responseText = (blockTexts blocks).getLast?.getD v.responseText := by
  induction blocks generalizing v with
  | nil => rfl
  | cons block rest ih =>
    rw [map_cons, foldl_cons, ih]
    cases block <;> simp [blockTexts, filterMap_cons, getLast?_cons]

def ChatToolCall.decoded (codec : JsonCodec J) (call : ChatToolCall) : String × String × Option J :=
  (call.id, call.name, codec.unmarshal call.arguments)

/-- The calls of the whole message -/
def ClaudeBlock.call? : ClaudeBlock codec → Option (String × String × Option J)
  | .toolUse id name _ _ input => some (id, name, some input)
  | _ => none

theorem ClaudeLoop.next_calls (blocks : List (ClaudeBlock codec)) (v : ClaudeLoop) :
    ((blocks.map media).foldl (next codec) v).tools.map (ChatToolCall.decoded codec) =
      v.tools.map (ChatToolCall.decoded codec) ++ blocks.filterMap call? := by
  induction blocks generalizing v with
  | nil => simp
  | cons block rest ih =>
    rw [map_cons, foldl_cons, ih]
    cases block <;> simp [filterMap_cons, call?, ChatToolCall.decoded, codec.unmarshal_marshal]

/-- The fragments of the arguments are a JSON text of the input. -/
def ClaudeBlock.Decodes : ClaudeBlock codec → Prop
  | .toolUse _ _ _ fragments input => codec.unmarshal (String.join fragments) = some input
  | _ => True

theorem blockCalls_decoded (index : ℕ) {blocks : List (ClaudeBlock codec)} :
    (blockCalls index blocks).map (ChatToolCall.decoded codec) = blocks.filterMap call? ↔
      ∀ block ∈ blocks, block.Decodes := by
  induction blocks generalizing index with
  | nil => simp [blockCalls]
  | cons block rest ih =>
    rw [forall_mem_cons, ← ih (index + 1)]
    cases block <;> simp [filterMap_cons, blockCalls, call?, Decodes, ChatToolCall.decoded]

abbrev ChatContent (J : Type) := String × List (String × String × Option J) × Option String

def ClaudeMessage.streamed (m : ClaudeMessage codec) : Option (ChatContent J) :=
  (m.events.foldlM event ⟨"", [], none⟩).map fun answer =>
    (answer.text, answer.calls.map (ChatToolCall.decoded codec), answer.finish)

def ClaudeMessage.converted (m : ClaudeMessage codec) : ChatContent J :=
  let r := responseClaude2OpenAI codec m.response
  (r.content, r.toolCalls.map (ChatToolCall.decoded codec), some r.finishReason)

theorem ClaudeMessage.streamed_eq (m : ClaudeMessage codec) :
    let finishReason := claudeStopReasonToOpenAIFinishReason m.stopReason
    m.streamed = some (String.join (blockTexts m.blocks), (blockCalls 0 m.blocks).map (ChatToolCall.decoded codec),
      if finishReason = "null" then none else some finishReason) := by
  have hnone : CallsBefore 0 [] := fun _ hcall => absurd hcall not_mem_nil
  have hblocks := @blockEvents_answer _ _ ⟨"", [], none⟩ _ m.blocks hnone
  simp only [streamed, events, cons_append, foldlM_cons, foldlM_append]
  simp [hblocks]

theorem ClaudeMessage.converted_eq (m : ClaudeMessage codec) :
    m.converted = ((blockTexts m.blocks).getLast?.getD "", m.blocks.filterMap call?,
      some (claudeStopReasonToOpenAIFinishReason m.stopReason)) := by
  -- the text at the start is the one of the first block
  have hstart : (blockTexts m.blocks).getLast?.getD (((m.blocks.map media).head?.map
      getText).getD "") = (blockTexts m.blocks).getLast?.getD "" := by
    cases hblocks : m.blocks with
    | nil => rfl
    | cons block rest => cases block <;> simp [blockTexts, filterMap_cons, getLast?_cons]
  simp only [converted, responseClaude2OpenAI, response, ClaudeLoop.next_texts,
    ClaudeLoop.next_calls, hstart, map_nil, nil_append]

/-- **The conversions agree** exactly if only the last text block has a text, the fragments of every call are a text of
its input, and the finish reason is not the text `null`. -/
theorem conversions_agree_iff (m : ClaudeMessage codec) :
    m.streamed = some m.converted ↔
      String.join (blockTexts m.blocks) = (blockTexts m.blocks).getLast?.getD "" ∧
        (∀ block ∈ m.blocks, block.Decodes) ∧
        claudeStopReasonToOpenAIFinishReason m.stopReason ≠ "null" := by
  rw [m.streamed_eq, m.converted_eq, ← blockCalls_decoded 0]
  simp

def rawCodec : JsonCodec String := ⟨fun input => input.getD "null", some, fun _ => rfl⟩

def sampleClaudeMessage : ClaudeMessage rawCodec :=
  ⟨"i", "m", "tool_use", [.text none ["a"], .toolUse "t" "f" none ["[", "]"] "[]", .text (some "b") []]⟩

theorem first_text_dropped :
    sampleClaudeMessage.streamed = some ("ab", [("t", "f", some "[]")], some "tool_calls") ∧
      sampleClaudeMessage.converted = ("b", [("t", "f", some "[]")], some "tool_calls") := by
  refine ⟨?_, ?_⟩ <;> decide +kernel

end NewApi

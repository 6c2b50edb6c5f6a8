import Mathlib.Tactic.SplitIfs
import NewApi.Proof.ClaudeChat
import NewApi.Spec.ChatGemini

/-!
# Tool calls in a stream for Gemini

Each part of a tool call becomes a function call of its own (`streamedCalls_eq`), so the calls are those of the message
exactly if each comes as a whole (`stream_reproduces_calls_iff`).
-/

namespace NewApi

open List

variable {M : Type} {codec : ArgsCodec M}

def callPair (codec : ArgsCodec M) (call : ChatToolCall) : String × M :=
  (call.name,
    if call.arguments ≠ "" then (codec.unmarshal call.arguments).getD (codec.wrapped call.arguments) else codec.empty)

@[simp]
theorem calls_textParts (text : String) : (textParts (M := M) text).filterMap (·.call?) = [] := by
  unfold textParts
  split_ifs <;> rfl

@[simp]
theorem calls_toolCalls (calls : List ChatToolCall) :
    (calls.map (toolCallPart codec)).filterMap (·.call?) = calls.map (callPair codec) := by
  rw [filterMap_map, ← filterMap_eq_map]
  rfl

theorem streamedCalls_eq (chunks : List ChatChunk) :
    streamedCalls codec chunks = (chunks.flatMap (·.toolCalls)).map (callPair codec) := by
  induction chunks with
  | nil => rfl
  | cons chunk chunks ih =>
    rw [flatMap_cons, map_append, ← ih]
    by_cases h : chunk.toolCalls = [] <;> by_cases hnone : chunk.content.getD "" = "" ∧ chunk.finishReason = none <;>
      simp [streamedCalls, streamResponseOpenAI2Gemini, h, hnone, -filterMap_map]

theorem addCalls_distinct {had parts : List ChatToolCall} (h : (had ++ parts).Pairwise (·.index ≠ ·.index)) :
    parts.foldl addCall had = had ++ parts := by
  induction parts generalizing had with
  | nil => simp
  | cons part parts ih =>
    have hnew : ∀ call ∈ had, call.index ≠ part.index := fun call hcall =>
      (pairwise_append.1 h).2.2 call hcall part mem_cons_self
    rw [append_cons] at h ⊢
    rw [foldl_cons, addCall_new hnew, ih h]

theorem assembled_calls (answer : ChatAnswer) (chunks : List ChatChunk) :
    (chunks.foldl ChatAnswer.add answer).calls = (chunks.flatMap (·.toolCalls)).foldl addCall answer.calls := by
  induction chunks generalizing answer with
  | nil => rfl
  | cons chunk chunks ih => rw [foldl_cons, ih, flatMap_cons, foldl_append, ChatAnswer.add]

theorem addCall_length_le (had : List ChatToolCall) (part : ChatToolCall) :
    (addCall had part).length ≤ had.length + 1 := by
  unfold addCall
  split_ifs <;> simp

theorem addCall_length_new {had : List ChatToolCall} {part : ChatToolCall}
    (h : (addCall had part).length = had.length + 1) : ∀ call ∈ had, call.index ≠ part.index := by
  intro call hcall heq
  unfold addCall at h
  rw [if_pos (any_eq_true.2 ⟨call, hcall, by simpa using heq⟩)] at h
  simp at h

theorem addCalls_length_le (had parts : List ChatToolCall) :
    (parts.foldl addCall had).length ≤ had.length + parts.length := by
  induction parts generalizing had with
  | nil => simp
  | cons part parts ih =>
    have hfirst := addCall_length_le had part
    have hrest := ih (addCall had part)
    rw [foldl_cons, length_cons]
    omega

/-- A part that belongs to an earlier call makes the message one call shorter than the stream. -/
theorem addCalls_length_eq {had parts : List ChatToolCall} (hhad : had.Pairwise (·.index ≠ ·.index))
    (h : (parts.foldl addCall had).length = had.length + parts.length) :
    (had ++ parts).Pairwise (·.index ≠ ·.index) := by
  induction parts generalizing had with
  | nil => simpa using hhad
  | cons part parts ih =>
    have hfirst := addCall_length_le had part
    have hrest := addCalls_length_le (addCall had part) parts
    rw [foldl_cons, length_cons] at h
    have hnew := addCall_length_new (by omega : (addCall had part).length = had.length + 1)
    rw [append_cons]
    have hadded : (had ++ [part]).Pairwise (·.index ≠ ·.index) := by
      refine pairwise_append.2 ⟨hhad, pairwise_singleton _ _, fun call hcall other hother => ?_⟩
      rw [mem_singleton.1 hother]
      exact hnew call hcall
    rw [addCall_new hnew] at h
    exact ih hadded (by simp at h ⊢; omega)

/-- **Streamed tool calls.** A stream has the calls of its message exactly if each of them is sent in one piece. -/
theorem stream_reproduces_calls_iff (chunks : List ChatChunk) (args : ChatToolCall → M)
    (hargs : ∀ call ∈ (assembled chunks).toolCalls, codec.unmarshal call.arguments = some (args call)) :
    CallsReproduced codec chunks args ↔ (chunks.flatMap (·.toolCalls)).Pairwise (·.index ≠ ·.index) := by
  constructor
  · rintro ⟨hcalls, -⟩
    have hlength := congrArg length hcalls
    rw [streamedCalls_eq, length_map, length_map] at hlength
    refine @addCalls_length_eq [] (chunks.flatMap (·.toolCalls)) .nil ?_
    rw [length_nil, Nat.zero_add, hlength]
    exact congrArg length (assembled_calls ⟨"", [], none⟩ chunks).symm
  · intro hwhole
    have hcalls : (assembled chunks).toolCalls = chunks.flatMap (·.toolCalls) :=
      (assembled_calls _ chunks).trans (addCalls_distinct hwhole)
    rw [CallsReproduced, streamedCalls_eq, ← hcalls, responseOpenAI2Gemini, filterMap_append, calls_textParts,
      calls_toolCalls]
    refine ⟨map_congr_left fun call hcall => ?_, rfl⟩
    have hne : call.arguments ≠ "" := by
      intro h
      simpa [h, codec.unmarshal_empty] using hargs call hcall
    simp [callPair, hne, hargs call hcall]

def textCodec : ArgsCodec String := ⟨fun s => if s = "" then none else some s, "\x7b\x7d", id, rfl⟩

theorem stream_reproduces_two_calls : CallsReproduced textCodec
    [{ model := "", toolCalls := [⟨some 0, "1", "f", "\x7b\x7d"⟩, ⟨some 1, "2", "g", "\x7b\x7d"⟩] }] (·.arguments) :=
  (stream_reproduces_calls_iff _ _ (by decide)).2 (by decide)

/-- A name and then its arguments become two function calls. -/
theorem call_in_two_pieces : ¬CallsReproduced textCodec [{ model := "", toolCalls := [⟨some 0, "1", "f", ""⟩] },
    { model := "", toolCalls := [⟨some 0, "", "", "\x7b\x7d"⟩] }] (·.arguments) := by
  intro h
  exact absurd h.1 (by decide)

end NewApi

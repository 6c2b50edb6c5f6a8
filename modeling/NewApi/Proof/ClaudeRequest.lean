import NewApi.Spec.ClaudeRequest

/-!
# The blocks of a Claude request

Texts and images are attached to a message only if it has no tool calls, so beside a call they are lost
(`text_beside_call_lost`). The content of a result loses what `ClaudeMediaMessage` has no field for.
-/

namespace NewApi

open List ClaudeTurn ChatEntry

variable {J : Type} {lib : BlockLib J} {m : ClaudeTurn J} {turns : List (ClaudeTurn J)}

theorem entries_split (entries : List ChatEntry) : ((entries.filterMap message?).flatMap RequestMessage.entries ++
      ((entries.filterMap media?).map media ++ (entries.filterMap call?).map call)).Perm entries := by
  induction entries with
  | nil => rfl
  | cons e entries ih =>
    cases e with
    | media part => exact perm_middle.trans (ih.cons _)
    | call c =>
      refine Perm.trans ?_ (ih.cons _)
      simp only [filterMap_cons, message?, media?, call?, map_cons, ← append_assoc]
      exact perm_middle
    | result callID content => exact ih.cons _

theorem ClaudeTurn.openAIMessage_role (m : ClaudeTurn J) (lib : BlockLib J) :
    (m.openAIMessage lib).role ≠ "tool" := by
  show (if m.isAssistant then "assistant" else "user") ≠ "tool"
  split <;> decide

theorem entries_openAIMessage (h : m.toolCalls lib = [] ∨ m.mediaMessages lib = []) :
    (m.openAIMessages lib).flatMap (·.entries) = ((m.entries lib).filterMap (·.message?)).flatMap (·.entries) ++
        ((m.mediaMessages lib).map .media ++ (m.toolCalls lib).map .call) := by
  have hrole := m.openAIMessage_role lib
  have hentries : (m.openAIMessage lib).entries =
      (m.mediaMessages lib).map .media ++ (m.toolCalls lib).map .call := by
    unfold RequestMessage.entries
    rw [if_neg hrole]
    rcases h with h | h <;> by_cases hmedia : m.mediaMessages lib = [] <;> simp [openAIMessage, h, hmedia]
  have hshown : (m.openAIMessage lib).content.getD [] = [] → (m.openAIMessage lib).toolCalls = [] →
      (m.openAIMessage lib).entries = [] := by
    intro hcontent hcalls
    rw [RequestMessage.entries, hcontent, hcalls]
    rfl
  rw [openAIMessages, flatMap_append, ← hentries]
  split_ifs with hnot
  · rw [flatMap_singleton]
  push Not at hnot
  rw [hshown hnot.1 hnot.2]
  rfl

/-- The second turn has no call that a result of the first answers. -/
def NoneAnswered (m m' : ClaudeTurn J) : Prop :=
  ∀ callID content name input, .toolResult callID content ∈ m.content → .toolUse callID name input ∉ m'.content

theorem mem_toolMessages {a : RequestMessage (List ChatPart)} (h : a ∈ (m.entries lib).filterMap (·.message?)) :
    a.toolCalls = [] ∧ ∃ content, .toolResult a.toolCallId content ∈ m.content := by
  obtain ⟨_, he, ha⟩ := mem_filterMap.1 h
  obtain ⟨block, hblock, rfl⟩ := mem_map.1 he
  cases block with
  | toolResult callID content =>
    cases ha
    exact ⟨rfl, content, hblock⟩
  | text | image | toolUse => cases ha

theorem mem_toolCalls {call : CallRequest} (h : call ∈ m.toolCalls lib) :
    ∃ name input, .toolUse call.id name input ∈ m.content := by
  obtain ⟨_, he, hcall⟩ := mem_filterMap.1 h
  obtain ⟨block, hblock, rfl⟩ := mem_map.1 he
  cases block with
  | toolUse id name input =>
    cases hcall
    exact ⟨name, input, hblock⟩
  | text | image | toolResult => cases hcall

theorem mem_openAIMessages {a : RequestMessage (List ChatPart)} (h : a ∈ m.openAIMessages lib) :
    a ∈ (m.entries lib).filterMap (·.message?) ∨ a = m.openAIMessage lib := by
  rcases mem_append.1 h with h | h
  · exact .inl h
  split at h
  · exact .inr (mem_singleton.1 h)
  · cases h

theorem callsFirst_messages {m' : ClaudeTurn J} (h : NoneAnswered m m') {a b : RequestMessage (List ChatPart)}
    (ha : a ∈ m.openAIMessages lib) (hb : b ∈ m'.openAIMessages lib) (hrole : a.role = "tool") :
    ∀ call ∈ b.toolCalls, call.id ≠ a.toolCallId := by
  intro call hcall heq
  rcases mem_openAIMessages ha with ha | rfl
  · obtain ⟨-, content, hresult⟩ := mem_toolMessages ha
    rcases mem_openAIMessages hb with hb | rfl
    · rw [(mem_toolMessages hb).1] at hcall
      cases hcall
    · obtain ⟨name, input, huse⟩ := mem_toolCalls hcall
      exact h _ content name input hresult (heq ▸ huse)
  · exact m.openAIMessage_role lib hrole

/-- What is sent is, in any order, what is said. If of the elements that change none is sent as another is said, then
none changes. -/
theorem forall_eq_of_perm {α β : Type} [DecidableEq β] {sent said : α → β} {l : List α}
    (h : (l.map sent).Perm (l.map said))
    (hsent : ∀ x y, sent x ≠ said x → sent y ≠ said y → sent y ≠ said x) : ∀ x ∈ l, sent x = said x := by
  -- What is the same on both sides cancels.
  have hchanged :
      ((l.filter fun x => sent x ≠ said x).map sent).Perm ((l.filter fun x => sent x ≠ said x).map said) := by
    have hsplit (f : α → β) := (filter_append_perm (fun x => decide (sent x ≠ said x)) l).map f
    simp only [map_append] at hsplit
    have hsame : (l.filter fun x => !decide (sent x ≠ said x)).map sent =
        (l.filter fun x => !decide (sent x ≠ said x)).map said :=
      map_congr_left fun x hx => by simpa using (mem_filter.1 hx).2
    have hperm := ((hsplit sent).trans h).trans (hsplit said).symm
    rw [hsame] at hperm
    exact (perm_append_right_iff _).1 hperm
  intro x hx
  by_contra hne
  have hmem : said x ∈ (l.filter fun x => sent x ≠ said x).map sent :=
    hchanged.mem_iff.2 (mem_map_of_mem (mem_filter.2 ⟨hx, by simpa using hne⟩))
  obtain ⟨y, hy, heq⟩ := mem_map.1 hmem
  exact hsent x y hne (by simpa using (mem_filter.1 hy).2) heq

/-- The typed decoding keeps the content of the block, if it is a result. -/
def RequestBlock.Typed (lib : BlockLib J) : RequestBlock J → Prop
  | toolResult _ (.inr c) => lib.parseMediaContent c = c
  | _ => True

theorem entry_eq_said {block : RequestBlock J} : block.entry lib = block.said lib ↔ block.Typed lib := by
  rcases block with _ | _ | _ | ⟨callID, s | c⟩
  case toolResult.inr =>
    simp only [RequestBlock.entry, RequestBlock.said, RequestBlock.Typed, Sum.elim_inr, result.injEq, true_and,
      ChatPart.text.injEq]
    exact ⟨fun h => lib.marshal_inj _ _ h, fun h => by rw [h]⟩
  all_goals exact iff_of_true rfl trivial

/-- What is sent for a content that changes is JSON of the type, and decoding keeps that. -/
theorem entry_ne_said {a b : RequestBlock J} (ha : a.entry lib ≠ a.said lib) (hb : b.entry lib ≠ b.said lib) :
    b.entry lib ≠ a.said lib := by
  rcases a with _ | _ | _ | ⟨callID, s | c⟩
  case toolResult.inr =>
    rcases b with _ | _ | _ | ⟨callID', s' | c'⟩
    case toolResult.inr =>
      simp only [RequestBlock.entry, RequestBlock.said, Sum.elim_inr, ne_eq, result.injEq, ChatPart.text.injEq, not_and]
      rintro - heq
      refine ha (entry_eq_said.2 ?_)
      rw [RequestBlock.Typed, ← lib.marshal_inj _ _ heq, lib.parse_parse]
    all_goals exact absurd rfl hb
  all_goals exact absurd rfl ha

theorem entries_perm (h : m.toolCalls lib = [] ∨ m.mediaMessages lib = []) :
    ((m.openAIMessages lib).flatMap (·.entries)).Perm (m.entries lib) := by
  rw [entries_openAIMessage h]
  exact entries_split _

/-- Beside a call the media are gone, so that the entries are too few. -/
theorem entries_length_lt (hcalls : m.toolCalls lib ≠ []) (hmedia : m.mediaMessages lib ≠ []) :
    ((m.openAIMessages lib).flatMap (·.entries)).length < (m.entries lib).length := by
  have hsplit : (((m.entries lib).filterMap (·.message?)).flatMap (·.entries)).length +
      ((m.mediaMessages lib).length + (m.toolCalls lib).length) = (m.entries lib).length := by
    have := (entries_split (m.entries lib)).length_eq
    rwa [length_append, length_append, length_map, length_map] at this
  have hmessage : (m.openAIMessage lib).entries = (m.toolCalls lib).map .call := by
    simp [RequestMessage.entries, openAIMessage, hcalls]
  have hshown : (m.openAIMessage lib).toolCalls ≠ [] := hcalls
  have hpos := length_pos_of_ne_nil hmedia
  rw [openAIMessages, if_pos (.inr hshown), flatMap_append, flatMap_singleton, hmessage, length_append, length_map]
  omega

theorem entries_perm_said : ((m.openAIMessages lib).flatMap (·.entries)).Perm (m.content.map (·.said lib)) ↔
    (m.toolCalls lib = [] ∨ m.mediaMessages lib = []) ∧ ∀ block ∈ m.content, block.Typed lib := by
  constructor
  · intro h
    have hunmixed : m.toolCalls lib = [] ∨ m.mediaMessages lib = [] := by
      by_contra hmixed
      push Not at hmixed
      have hless := entries_length_lt hmixed.1 hmixed.2
      rw [h.length_eq, entries, length_map, length_map] at hless
      exact lt_irrefl _ hless
    have hsent := forall_eq_of_perm ((entries_perm hunmixed).symm.trans h) fun a b => entry_ne_said
    exact ⟨hunmixed, fun block hblock => entry_eq_said.1 (hsent block hblock)⟩
  · rintro ⟨hunmixed, htyped⟩
    have hsame : m.entries lib = m.content.map (·.said lib) :=
      map_congr_left fun block hblock => entry_eq_said.2 (htyped block hblock)
    exact hsame ▸ entries_perm hunmixed

def RequestBlock.isMedia : RequestBlock J → Bool
  | text _ | image _ _ => true
  | _ => false

def RequestBlock.isCall : RequestBlock J → Bool
  | toolUse _ _ _ => true
  | _ => false

theorem toolCalls_eq_nil : m.toolCalls lib = [] ↔ ∀ block ∈ m.content, block.isCall = false := by
  rw [toolCalls, entries, filterMap_map, filterMap_eq_nil_iff]
  refine forall₂_congr fun block _ => ?_
  cases block <;> simp [RequestBlock.entry, call?, RequestBlock.isCall]

theorem mediaMessages_eq_nil : m.mediaMessages lib = [] ↔ ∀ block ∈ m.content, block.isMedia = false := by
  rw [mediaMessages, entries, filterMap_map, filterMap_eq_nil_iff]
  refine forall₂_congr fun block _ => ?_
  cases block <;> simp [RequestBlock.entry, media?, RequestBlock.isMedia]

/-- A result and its call are in the messages of their turns, the call in the last one. -/
theorem noneAnswered_of_messages (lib : BlockLib J) {m' : ClaudeTurn J}
    (h : ∀ a ∈ (m.entries lib).filterMap (·.message?), a.role = "tool" →
      ∀ call ∈ (m'.openAIMessage lib).toolCalls, call.id ≠ a.toolCallId) : NoneAnswered m m' := by
  intro callID content name input hresult huse
  refine h _ (mem_filterMap.2 ⟨_, mem_map_of_mem hresult, rfl⟩) rfl _
    (mem_filterMap.2 ⟨_, mem_map_of_mem huse, rfl⟩) rfl

theorem openAIMessage_mem (h : m.toolCalls lib ≠ []) : m.openAIMessage lib ∈ m.openAIMessages lib := by
  have hshown : (m.openAIMessage lib).toolCalls ≠ [] := h
  rw [openAIMessages, if_pos (.inr hshown)]
  exact mem_append_right _ (mem_singleton_self _)

theorem callsFirst_iff : CallsFirst (claudeMessagesToChat lib turns) ↔
    (∀ m ∈ turns, NoneAnswered m m) ∧ turns.Pairwise NoneAnswered := by
  rw [CallsFirst, claudeMessagesToChat, pairwise_flatMap]
  refine and_congr ⟨fun h m hm => ?_, fun h m hm => ?_⟩ ⟨fun h => ?_, fun h => ?_⟩
  · refine noneAnswered_of_messages lib fun a ha hrole call hcall => ?_
    have hshown : (m.openAIMessage lib).toolCalls ≠ [] := ne_nil_of_mem hcall
    have hpair := h m hm
    rw [openAIMessages, if_pos (.inr hshown), pairwise_append] at hpair
    exact hpair.2.2 a ha _ (mem_singleton_self _) hrole call hcall
  · exact pairwise_of_forall_mem_list fun a ha b hb => callsFirst_messages (h m hm) ha hb
  · refine h.imp fun {m m'} h => noneAnswered_of_messages lib fun a ha hrole call hcall => ?_
    exact h a (mem_append_left _ ha) _ (openAIMessage_mem (ne_nil_of_mem hcall)) hrole call hcall
  · exact h.imp fun h a ha b hb => callsFirst_messages h ha hb

def callTurn (blocks : List (RequestBlock String)) : ClaudeTurn String := ⟨true, blocks ++ [.toolUse "1" "f" ""]⟩

def textBlockLib : BlockLib String := ⟨id, id, fun _ _ h => h, fun _ => rfl⟩

end NewApi

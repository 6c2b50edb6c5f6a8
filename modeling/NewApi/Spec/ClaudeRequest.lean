import NewApi.Spec.ResponsesRequest

/-!
# A Claude request as chat messages

`relaykit/relayconvert/internal/claude_messages/to_oai_chat_req.go`, the loop over the messages. A content that is a
text counts as one text block. JSON values, `J`, are a parameter (`BlockLib`).
-/

namespace NewApi

/-- The JSON library, as far as the converter uses it -/
structure BlockLib (J : Type) where
  marshal : J → String
  /-- `ParseMediaContent`, as JSON again: of a value that is no `[]ClaudeMediaMessage` `null` is left, of any other what
  the type has a field for. -/
  parseMediaContent : J → J
  marshal_inj : ∀ a b, marshal a = marshal b → a = b
  parse_parse : ∀ a, parseMediaContent (parseMediaContent a) = parseMediaContent a

inductive RequestBlock (J : Type)
  | text (text : String)
  | image (mediaType data : String)
  | toolUse (id name : String) (input : J)
  | toolResult (toolUseId : String) (content : String ⊕ J)

structure ClaudeTurn (J : Type) where
  isAssistant : Bool
  content : List (RequestBlock J)

inductive ChatPart
  | text (text : String)
  | imageUrl (url : String)
  deriving DecidableEq

inductive ChatEntry
  | media (part : ChatPart)
  | call (call : CallRequest)
  | result (callID : String) (content : ChatPart)
  deriving DecidableEq

def ChatEntry.media? : ChatEntry → Option ChatPart
  | media part => some part
  | _ => none

def ChatEntry.call? : ChatEntry → Option CallRequest
  | call c => some c
  | _ => none

def ChatEntry.message? : ChatEntry → Option (RequestMessage (List ChatPart))
  | result callID content => some { role := "tool", toolCallId := callID, content := some [content] }
  | _ => none

variable {J : Type} (lib : BlockLib J)

/-- The cases of the loop over the blocks -/
def RequestBlock.entry : RequestBlock J → ChatEntry
  | text s => .media (.text s)
  | image mediaType data => .media (.imageUrl ("data:" ++ mediaType ++ ";base64," ++ data))
  | toolUse id name input => .call { id, name, type := .function, arguments := lib.marshal input }
  | toolResult callID content =>
    .result callID (.text (content.elim id fun c => lib.marshal (lib.parseMediaContent c)))

namespace ClaudeTurn

variable (m : ClaudeTurn J)

def entries : List ChatEntry := m.content.map (·.entry lib)

def toolCalls : List CallRequest := (m.entries lib).filterMap (·.call?)

def mediaMessages : List ChatPart := (m.entries lib).filterMap (·.media?)

def openAIMessage : RequestMessage (List ChatPart) where
  role := if m.isAssistant then "assistant" else "user"
  toolCalls := m.toolCalls lib
  content := if m.mediaMessages lib ≠ [] ∧ m.toolCalls lib = [] then some (m.mediaMessages lib) else none

def openAIMessages : List (RequestMessage (List ChatPart)) :=
  (m.entries lib).filterMap (·.message?) ++
    if (m.openAIMessage lib).content.getD [] ≠ [] ∨ (m.openAIMessage lib).toolCalls ≠ [] then
      [m.openAIMessage lib]
    else []

end ClaudeTurn

def claudeMessagesToChat (turns : List (ClaudeTurn J)) : List (RequestMessage (List ChatPart)) :=
  turns.flatMap (·.openAIMessages lib)

def RequestMessage.entries (m : RequestMessage (List ChatPart)) : List ChatEntry :=
  (m.content.getD []).map (if m.role = "tool" then .result m.toolCallId else .media) ++ m.toolCalls.map .call

def CallsFirst (messages : List (RequestMessage (List ChatPart))) : Prop :=
  messages.Pairwise fun m m' => m.role = "tool" → ∀ call ∈ m'.toolCalls, call.id ≠ m.toolCallId

/-- What a message has to say for a block: the text, the image as a URL of data, the call with its input as JSON, the
result with its content, as JSON if it is no text. -/
def RequestBlock.said : RequestBlock J → ChatEntry
  | text s => .media (.text s)
  | image mediaType data => .media (.imageUrl ("data:" ++ mediaType ++ ";base64," ++ data))
  | toolUse id name input => .call ⟨id, .function, "", name, lib.marshal input⟩
  | toolResult callID (.inl s) => .result callID (.text s)
  | toolResult callID (.inr c) => .result callID (.text (lib.marshal c))

/-- The messages of a turn have each of its blocks once, and results follow their calls. -/
def BlocksKept (turns : List (ClaudeTurn J)) : Prop :=
  (∀ m ∈ turns, ((m.openAIMessages lib).flatMap (·.entries)).Perm (m.content.map (·.said lib))) ∧
    CallsFirst (claudeMessagesToChat lib turns)

end NewApi

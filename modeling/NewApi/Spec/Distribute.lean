import NewApi.Spec.RelayLoop

/-!
# From the request to the retry loop

`middleware/distributor.go` checks the models of the API token and chooses the first channel,
`controller/model_tag.go` takes the routing tags off the model's name, and `Relay` enters its loop under the name that
is left. `FormatMatchingModelName` (`setting/ratio_setting/model_ratio.go`) is the name that is compared with the
token's models. A Gemini request without thinking gets a name of its own in the attempt (`relay/gemini_handler.go`).
-/

namespace NewApi

def hasPrefix (s start : String) : Bool := start.toList.isPrefixOf s.toList

def hasSuffix (s ending : String) : Bool := ending.toList.isSuffixOf s.toList

def splitText (sep : Char) (s : String) : List String := (s.toList.splitOn sep).map String.ofList

theorem splitText_ne_nil (sep : Char) (s : String) : splitText sep s ≠ [] := by
  unfold splitText
  rw [ne_eq, List.map_eq_nil_iff]
  exact List.splitOn_ne_nil sep s.toList

def handleThinkingBudgetModel (name start wildcard : String) : String :=
  if hasPrefix name start && containsText name "-thinking-" then wildcard else name

def formatMatchingModelName (name : String) : String :=
  let name :=
    if hasPrefix name "gemini-2.5-flash-lite" then
      handleThinkingBudgetModel name "gemini-2.5-flash-lite" "gemini-2.5-flash-lite-thinking-*"
    else if hasPrefix name "gemini-2.5-flash" then
      handleThinkingBudgetModel name "gemini-2.5-flash" "gemini-2.5-flash-thinking-*"
    else if hasPrefix name "gemini-2.5-pro" then
      handleThinkingBudgetModel name "gemini-2.5-pro" "gemini-2.5-pro-thinking-*"
    else name
  let name := if hasPrefix name "gpt-4-gizmo" then "gpt-4-gizmo-*" else name
  if hasPrefix name "gpt-4o-gizmo" then "gpt-4o-gizmo-*" else name

structure ModelTagRouting where
  base : String
  (floor nitro online : Bool)
  deriving DecidableEq, Repr

def dropTag (base tag : String) : String := trimSpace (String.ofList (base.toList.rdrop tag.length))

/-- The loop of `parseModelTagRouting`; the length of the name is enough rounds. -/
def stripTags : ℕ → ModelTagRouting → ModelTagRouting
  | 0, r => r
  | n + 1, r =>
    if hasSuffix r.base.toLower ":floor" then stripTags n { r with floor := true, base := dropTag r.base ":floor" }
    else if hasSuffix r.base.toLower ":nitro" then stripTags n { r with nitro := true, base := dropTag r.base ":nitro" }
    else if hasSuffix r.base.toLower ":online" then
      stripTags n { r with online := true, base := dropTag r.base ":online" }
    else r

def parseModelTagRouting (raw : String) : ModelTagRouting :=
  let r := stripTags raw.length ⟨trimSpace raw, false, false, false⟩
  if r.base = "" then ⟨trimSpace raw, false, false, false⟩ else r

/-- What `GeminiHelper` reads to rename a request. -/
structure NoThinking where
  applies : Bool
  hasModelBillingConfig : String → Bool

def NoThinking.originModelName (nt : NoThinking) (model : String) : String :=
  if nt.applies && !containsText model "-nothinking" && nt.hasModelBillingConfig (model ++ "-nothinking") then
    model ++ "-nothinking"
  else model

structure DistributeRequest where
  model : String
  /-- the token's `ModelLimits`; `none` when they are not enabled -/
  modelLimits : Option String
  specificChannel : Option ℕ
  preferredChannel : Option ℕ
  /-- `TryHandleByogRelay` has served the request -/
  byogServed : Bool

def modelLimitsMap (limits : String) : List String := if limits = "" then [] else splitText ',' limits

def DistributeRequest.allows (req : DistributeRequest) (model : String) : Bool :=
  match req.modelLimits with
  | none => true
  | some limits => (modelLimitsMap limits).contains (formatMatchingModelName model)

/-- The channel and the index of the automatic groups; `none` when the request is answered without `Relay`. -/
def distribute (cfg : RelayConfig) (env : RelayEnv) (req : DistributeRequest) : Option (ℕ × ℕ) :=
  match req.specificChannel with
  | some id => some (id, 0)
  | none =>
    if !req.allows req.model then none
    else if req.model = "" then none
    else if req.byogServed then none
    else match req.preferredChannel with
      | some id => some (id, 0)
      | none =>
        match cacheGetRandomSatisfiedChannel cfg env
            ⟨req.model, 0, [], false, 0, ⟨req.model, [], List.nodup_singleton _, 0, false⟩⟩ with
        | (s, some id, false) => some (id, s.autoGroupIndex)
        | _ => none

/-- What is fixed for the loop once the request has its first channel and its tags are read. -/
def relayConfig (cfg : RelayConfig) (req : DistributeRequest) (channel : ℕ) : RelayConfig :=
  { cfg with
    contextChannel := channel
    specificChannel := req.specificChannel.isSome
    useFloor := (parseModelTagRouting req.model).floor
    useNitro := (parseModelTagRouting req.model).nitro }

end NewApi

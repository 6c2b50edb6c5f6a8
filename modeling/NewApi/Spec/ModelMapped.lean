import Mathlib.Data.Nat.Notation

/-!
# Redirected models

`relay/helper/model_mapped.go`: a channel maps models to other models, which it may map again.
-/

namespace NewApi

inductive ModelMapErr
  | unmarshalModelMappingFailed
  | modelMappingContainsCycle
  deriving DecidableEq, Repr

structure ModelInfo where
  (originModelName upstreamModelName : String)
  isModelMapped : Bool
  requestModel : String
  deriving DecidableEq, Repr

def ModelInfo.fresh (originModelName requestModel : String) : ModelInfo :=
  ⟨originModelName, originModelName, false, requestModel⟩

abbrev ModelMap := List (String × String)

def mappedModel (modelMap : ModelMap) (model : String) : Option String := (modelMap.lookup model).filter (· ≠ "")

def ModelInfo.setModelName (info : ModelInfo) : ModelInfo := { info with requestModel := info.upstreamModelName }

/-- The loop, from `currentModel`; `none` when it is still running after `fuel` rounds. -/
def followMapping (modelMap : ModelMap) : ℕ → List String → String → ModelInfo → Option (Except ModelMapErr ModelInfo)
  | 0, _, _, _ => none
  | fuel + 1, visitedModels, currentModel, info =>
    let leave (info : ModelInfo) : Option (Except ModelMapErr ModelInfo) :=
      some (.ok (if info.isModelMapped then { info with upstreamModelName := currentModel } else info).setModelName)
    match mappedModel modelMap currentModel with
    | none => leave info
    | some mappedModel =>
      if mappedModel ∈ visitedModels then
        if mappedModel = currentModel then
          if currentModel = info.originModelName then some (.ok { info with isModelMapped := false })
          else leave { info with isModelMapped := true }
        else some (.error .modelMappingContainsCycle)
      else followMapping modelMap fuel (mappedModel :: visitedModels) mappedModel { info with isModelMapped := true }

def modelMappedHelper (unmarshal : String → Option ModelMap) (modelMapping : String)
    (info : ModelInfo) : Option (Except ModelMapErr ModelInfo) :=
  if modelMapping ≠ "" ∧ modelMapping ≠ "\x7b\x7d" then
    match unmarshal modelMapping with
    | none => some (.error .unmarshalModelMappingFailed)
    | some modelMap =>
      -- a round visits a model that the mapping leads to, and the last one leaves the loop
      followMapping modelMap (modelMap.length + 1) [info.originModelName] info.originModelName info
  else some (.ok info.setModelName)

end NewApi

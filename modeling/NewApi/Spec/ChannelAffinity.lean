import NewApi.Spec.Distribute

/-!
# Sticky channels

`service/channel_affinity.go`: requests of one identity, a model, a group and a value of the request, go to the channel
that has served them. The channels are cached under a text that is made of the identity. Entries do not expire here.
-/

namespace NewApi

structure AffinityRule where
  name : String
  (includeRuleName includeModelName includeUsingGroup : Bool)

structure AffinityIdentity where
  (modelName usingGroup affinityValue : String)
  deriving DecidableEq

def buildChannelAffinityCacheKeySuffix (rule : AffinityRule) (i : AffinityIdentity) : String :=
  ":".intercalate ((if rule.includeRuleName ∧ rule.name ≠ "" then [rule.name] else []) ++
    (if rule.includeModelName ∧ i.modelName ≠ "" then [i.modelName] else []) ++
    (if rule.includeUsingGroup ∧ i.usingGroup ≠ "" then [i.usingGroup] else []) ++ [i.affinityValue])

/-- `channelAffinityCacheNamespace` with a colon -/
def affinityNamespace : String := "new-api:channel_affinity:v1:"

/-- `FullKey` (`pkg/cachex/namespace.go`) -/
def affinityFullKey (key : String) : String :=
  let key := trimSpace key
  if key = "" then ""
  else if hasPrefix key affinityNamespace then key
  else affinityNamespace ++ String.ofList (key.toList.dropWhile (· = ':'))

abbrev AffinityCache := String → Option ℤ

def getPreferredChannelByAffinity (rule : AffinityRule) (i : AffinityIdentity) (cache : AffinityCache) : Option ℤ :=
  let key := affinityFullKey (buildChannelAffinityCacheKeySuffix rule i)
  if i.affinityValue = "" ∨ key = "" then none else cache key

def recordChannelAffinity (rule : AffinityRule) (i : AffinityIdentity) (channelID : ℤ) (cache : AffinityCache) :
    AffinityCache :=
  let key := affinityFullKey (affinityNamespace ++ buildChannelAffinityCacheKeySuffix rule i)
  if channelID ≤ 0 ∨ i.affinityValue = "" ∨ key = "" then cache else Function.update cache key (some channelID)

end NewApi

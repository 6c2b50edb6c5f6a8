import NewApi.Trace.Run
import NewApi.Spec.RelayLoop

/-!
# The retry loop of `Relay` ends

A round that goes on has used up a channel that was not used for the model yet, a retry of a request with a specific
channel, or a fallback model. `Continues` says so once for all rounds, and the bounds follow from it. Only a
serverless channel breaks this, since the loop does not look whether it was used.
-/

namespace NewApi

open Trace List Option RoundEvent FallbackState

section Selection

variable {tbl : ChannelTable} {env : SelectEnv} {group model path : String} {ignored : List ℕ} {id : ℕ} {ch : Channel}
  {rand : ℕ}

def groupCandidates (tbl : ChannelTable) (group model : String) : List ℕ :=
  tbl.group2model2channels group model ++
    tbl.group2model2channels group (tbl.formatMatchingModelName model) ++ tbl.abilities.map Ability.channelId

theorem mem_of_mem_filterChannels {channels : List ℕ} (h : id ∈ filterChannels tbl channels path model) :
    id ∈ channels := by
  unfold filterChannels at h
  split at h
  · exact h
  · exact mem_of_mem_filter h

section

variable (h : id ∈ satisfying tbl group model path)
include h

theorem listed_of_mem_satisfying : id ∈ tbl.group2model2channels group model ∨
      id ∈ tbl.group2model2channels group (tbl.formatMatchingModelName model) := by
  unfold satisfying at h
  dsimp only at h
  split at h
  · exact .inr (mem_of_mem_filterChannels h)
  · exact .inl (mem_of_mem_filterChannels h)

theorem mem_of_mem_satisfying : id ∈ groupCandidates tbl group model := by
  rcases listed_of_mem_satisfying h with h | h
  · exact mem_append_left _ (mem_append_left _ h)
  · exact mem_append_left _ (mem_append_right _ h)

end

theorem pickWeighted_mem {factor adjustment : ℕ} :
    ∀ {channels : List Channel} {r : ℕ}, pickWeighted factor adjustment channels r = some ch → ch ∈ channels
  | [], _, h => by cases h
  | first :: rest, r, h => by
    unfold pickWeighted at h
    split at h
    · cases h
      exact mem_cons_self
    · exact mem_cons_of_mem _ (pickWeighted_mem h)

theorem pickTarget_mem {channels : List Channel} (h : pickTarget rand channels = some ch) : ch ∈ channels := by
  unfold pickTarget at h
  dsimp only at h
  split_ifs at h
  · exact pickWeighted_mem h
  · exact pickWeighted_mem h
  · exact pickWeighted_mem h

section

variable (h : (cachedChannel tbl rand group model ignored path).1 = some id)
include h

theorem cachedChannel_mem : id ∉ ignored ∧ id ∈ satisfying tbl group model path := by
  have hvalid : ∀ x ∈ (satisfying tbl group model path).filter (fun id => !ignored.contains id),
      x ∉ ignored ∧ x ∈ satisfying tbl group model path := by
    intro x hx
    obtain ⟨hmem, hnot⟩ := mem_filter.1 hx
    exact ⟨by simpa using hnot, hmem⟩
  unfold cachedChannel at h
  split at h
  · cases h
  · rename_i x heq
    rw [heq] at hvalid
    split at h
    · obtain rfl := some.inj h
      exact hvalid x mem_cons_self
    · cases h
  split at h
  · split at h
    · rename_i ch hpick
      cases h
      -- the weighted choice is one of the valid channels, under its own id
      obtain ⟨x, hx, hch⟩ := mem_filterMap.1 (mem_of_mem_filter (pickTarget_mem hpick))
      rw [tbl.channelsIDM_id x ch hch]
      exact hvalid x hx
    · cases h
  · cases h

theorem cachedChannel_fresh : id ∉ ignored ∧ id ∈ groupCandidates tbl group model :=
  (cachedChannel_mem h).imp_right mem_of_mem_satisfying

end

theorem pickAbility_mem : ∀ {abilities : List Ability} {r : ℕ},
    pickAbility abilities r = some id → ∃ a ∈ abilities, a.channelId = id
  | [], _, h => by cases h
  | first :: rest, r, h => by
    unfold pickAbility at h
    split at h
    · exact ⟨first, mem_cons_self, some.inj h⟩
    · obtain ⟨a, ha, hid⟩ := pickAbility_mem h
      exact ⟨a, mem_cons_of_mem _ ha, hid⟩

theorem mem_of_mem_topAbilities {found : List Ability} {a : Ability} (h : a ∈ topAbilities found) : a ∈ found := by
  unfold topAbilities at h
  dsimp only at h
  split at h
  · cases h
  obtain ⟨row, hrow, rfl⟩ := mem_map.1 h
  have hmem := fst_mem_of_mem_zipIdx ((takeWhile_sublist _).subset hrow)
  rwa [mem_insertionSort] at hmem

theorem getChannelFromDB_fresh (h : (getChannelFromDB tbl env group model ignored path).1 = some id) :
    id ∉ ignored ∧ id ∈ groupCandidates tbl group model := by
  unfold getChannelFromDB at h
  dsimp only at h
  split at h
  · cases h
  split at h
  · rename_i x hpick
    cases h
    obtain ⟨a, ha, rfl⟩ := pickAbility_mem hpick
    obtain ⟨hmem, hcond⟩ := mem_filter.1 (mem_of_mem_topAbilities ha)
    simp only [Bool.and_eq_true, Bool.not_eq_true'] at hcond
    refine ⟨by simpa using hcond.1.2, mem_append_right _ (mem_map.2 ⟨a, hmem, rfl⟩)⟩
  · cases h

theorem select_fresh (h : (getRandomSatisfiedChannel tbl env group model ignored path).1 = some id) :
    id ∉ ignored ∧ id ∈ groupCandidates tbl group model := by
  unfold getRandomSatisfiedChannel at h
  split at h
  · exact cachedChannel_fresh h
  · exact getChannelFromDB_fresh h

theorem getSatisfiedChannels_mem (h : ch ∈ getSatisfiedChannels tbl group model ignored path) :
    ch.id ∉ ignored ∧ ch.id ∈ tbl.group2model2channels group model := by
  unfold getSatisfiedChannels at h
  split at h
  · obtain ⟨x, hx, hch⟩ := mem_filterMap.1 h
    obtain ⟨hcand, hnot⟩ := mem_filter.1 hx
    rw [tbl.channelsIDM_id x ch hch]
    exact ⟨by simpa using hnot, mem_of_mem_filterChannels hcand⟩
  · cases h

theorem foldl_mem {α : Type*} {f : α → α → α} (hf : ∀ a b, f a b = a ∨ f a b = b) :
    ∀ (l : List α) (a : α), l.foldl f a ∈ a :: l
  | [], a => mem_cons_self
  | b :: l, a => by
    rw [foldl_cons]
    rcases mem_cons.1 (foldl_mem hf l (f a b)) with h | h
    · rw [h]
      rcases hf a b with h' | h' <;> rw [h'] <;> simp
    · exact mem_cons_of_mem _ (mem_cons_of_mem _ h)

theorem pickTagged_fresh {useFloor useNitro : Bool} {best : Channel}
    (h : pickTaggedChannel tbl group model ignored path useFloor useNitro = some best) :
    best.id ∉ ignored ∧ best.id ∈ groupCandidates tbl group model := by
  have hmem : best ∈ getSatisfiedChannels tbl group model ignored path := by
    unfold pickTaggedChannel at h
    split at h
    · cases h
    rename_i first rest heq
    rw [heq, ← some.inj h]
    -- the fold keeps the best so far or takes the next one
    refine foldl_mem (fun a b => ?_) rest first
    cases useFloor <;> simp only [Bool.false_eq_true, if_false, if_true] <;> split <;> simp
  obtain ⟨hnot, hlisted⟩ := getSatisfiedChannels_mem hmem
  exact ⟨hnot, mem_append_left _ (mem_append_left _ hlisted)⟩

end Selection

variable {cfg : RelayConfig} {env : RelayEnv} {s s' : RelayState} {id : ℕ} {m : String} {s₁ : RelayState}
  {a : Option (String × ℕ)} {o o' : Option RelayState} {l : RoundEvent}

def RelayConfig.groups (cfg : RelayConfig) : List String :=
  if cfg.tokenGroup = "auto" then cfg.autoGroups else [cfg.tokenGroup]

def RelayConfig.candidates (cfg : RelayConfig) (model : String) : List ℕ :=
  cfg.groups.flatMap fun group => groupCandidates cfg.table group model

def Fresh (cfg : RelayConfig) (s : RelayState) (id : ℕ) : Prop :=
  id ∉ s.ignoredChannelIds ∧ id ∈ cfg.candidates s.modelName

theorem Fresh.of_tokenGroup (hauto : cfg.tokenGroup ≠ "auto")
    (h : id ∉ s.ignoredChannelIds ∧ id ∈ groupCandidates cfg.table cfg.tokenGroup s.modelName) : Fresh cfg s id := by
  refine ⟨h.1, mem_flatMap.2 ⟨cfg.tokenGroup, ?_, h.2⟩⟩
  rw [RelayConfig.groups, if_neg hauto]
  exact mem_cons_self

def Serverless (cfg : RelayConfig) (model : String) : Prop :=
  serverlessFirst cfg model ≠ none ∨ serverlessLast cfg model ≠ none

theorem searchGroups_spec (cfg : RelayConfig) (env : RelayEnv) (model : String) (ignored : List ℕ) :
    ∀ (groups : List String) (i : ℕ),
    i ≤ (searchGroups cfg env model ignored groups i).2 ∧
      (searchGroups cfg env model ignored groups i).2 ≤ i + groups.length ∧
      ∀ id, (searchGroups cfg env model ignored groups i).1 = some id →
        id ∉ ignored ∧ ∃ group ∈ groups, id ∈ groupCandidates cfg.table group model
  | [], i => by simp [searchGroups]
  | group :: rest, i => by
    unfold searchGroups
    split
    · rename_i id hid
      refine ⟨le_rfl, by simp, fun id' hid' => ?_⟩
      cases hid'
      obtain ⟨hnot, hcand⟩ := select_fresh hid
      exact ⟨hnot, group, mem_cons_self, hcand⟩
    obtain ⟨hle, hlen, hfresh⟩ := searchGroups_spec cfg env model ignored rest (i + 1)
    refine ⟨by omega, by simp only [length_cons]; omega, fun id hid => ?_⟩
    obtain ⟨hnot, g, hg, hcand⟩ := hfresh id hid
    exact ⟨hnot, g, mem_cons_of_mem _ hg, hcand⟩

/-- What a choice changes: an automatic group that is used up resets the retry count. -/
structure Selected (cfg : RelayConfig) (s s' : RelayState) : Prop where
  modelName : s'.modelName = s.modelName
  ignored : s'.ignoredChannelIds = s.ignoredChannelIds
  channelMeta : s'.channelMeta = s.channelMeta
  fallback : s'.fallback = s.fallback
  group : s'.autoGroupIndex = s.autoGroupIndex ∧ s'.retry = s.retry ∨
    cfg.tokenGroup = "auto" ∧ s.autoGroupIndex < s'.autoGroupIndex ∧ s'.autoGroupIndex ≤ cfg.autoGroups.length

theorem Selected.refl (cfg : RelayConfig) (s : RelayState) : Selected cfg s s := ⟨rfl, rfl, rfl, rfl, .inl ⟨rfl, rfl⟩⟩

theorem cacheGet_spec {sel : Selection} (h : cacheGetRandomSatisfiedChannel cfg env s = (s', sel)) :
    Selected cfg s s' ∧ ∀ id, sel.1 = some id → Fresh cfg s id := by
  unfold cacheGetRandomSatisfiedChannel at h
  split at h
  · rename_i hauto
    split at h
    · cases h
      exact ⟨.refl cfg s, fun id hid => by cases hid⟩
    cases h
    obtain ⟨hle, hlen, hfresh⟩ := searchGroups_spec cfg env s.modelName s.ignoredChannelIds
      (cfg.autoGroups.drop s.autoGroupIndex) s.autoGroupIndex
    rw [length_drop] at hlen
    refine ⟨⟨rfl, rfl, rfl, rfl, ?_⟩, fun id hid => ?_⟩
    · dsimp only
      split_ifs with hsame
      · exact .inl ⟨hsame, rfl⟩
      · exact .inr ⟨hauto, by omega, by omega⟩
    obtain ⟨hnot, group, hgroup, hcand⟩ := hfresh id hid
    refine ⟨hnot, mem_flatMap.2 ⟨group, ?_, hcand⟩⟩
    rw [RelayConfig.groups, if_pos hauto]
    exact mem_of_mem_drop hgroup
  · rename_i hauto
    split at h
    · cases h
      exact ⟨.refl cfg s, fun id hid => by cases hid⟩
    rename_i channel heq
    cases h
    exact ⟨.refl cfg s, fun id hid => .of_tokenGroup hauto (select_fresh (by rw [heq]; exact hid))⟩

theorem tagged_fresh (h : Fresh cfg s id) : Fresh cfg s (tagged cfg s id) := by
  unfold tagged
  split_ifs with hcond
  · simp only [Bool.and_eq_true, decide_eq_true_eq] at hcond
    split
    · exact .of_tokenGroup hcond.2 (pickTagged_fresh ‹_›)
    · exact h
  · exact h

theorem routeChannel_spec {r : Option ℕ} (h : routeChannel cfg env s = (s', r)) :
    Selected cfg s s' ∧ (¬ Serverless cfg s.modelName → ∀ id, r = some id → Fresh cfg s id) := by
  unfold routeChannel at h
  split at h
  · rename_i id hfirst
    cases h
    exact ⟨.refl cfg s, fun hno => absurd (.inl (by rw [hfirst]; exact some_ne_none id)) hno⟩
  split at h
  · rename_i heq
    cases h
    exact ⟨(cacheGet_spec heq).1, fun _ id hid => by cases hid⟩
  · rename_i s₁ id heq
    obtain ⟨rfl, rfl⟩ := Prod.mk.inj h
    obtain ⟨hsel, hfresh⟩ := cacheGet_spec heq
    refine ⟨hsel, fun _ id' hid' => ?_⟩
    -- the tags look at the state after the choice, which ignores the same channels
    have hnew : Fresh cfg s₁ id := by
      have := hfresh id rfl
      rwa [Fresh, ← hsel.ignored, ← hsel.modelName] at this
    have htag := tagged_fresh hnew
    rw [some.inj hid', Fresh, hsel.ignored, hsel.modelName] at htag
    exact htag
  · rename_i s₁ heq
    cases h
    refine ⟨(cacheGet_spec heq).1, fun hno id hid => ?_⟩
    obtain ⟨x, hx, -⟩ := map_eq_some_iff.1 hid
    exact absurd (.inr (by rw [hx]; exact some_ne_none x)) hno

theorem getChannel_cases {r : Except ErrorCode ℕ} (h : getChannel cfg env s = (s', r)) :
    (s.channelMeta = false ∧ s' = s ∧ r = .ok cfg.contextChannel) ∨
    (s.channelMeta = true ∧ ∃ s₁, Selected cfg s s₁ ∧ ((s' = s₁ ∧ r = .error .getChannelFailed) ∨
        ∃ id, (¬ Serverless cfg s.modelName → Fresh cfg s id) ∧
          ((s' = { s₁ with ignoredChannelIds := s₁.ignoredChannelIds ++ [id] } ∧ ∃ code, r = .error code) ∨
            (s' = s₁ ∧ r = .ok id)))) := by
  unfold getChannel at h
  split_ifs at h with hmeta
  · cases h
    exact .inl ⟨by simpa using hmeta, rfl, rfl⟩
  refine .inr ⟨by simpa using hmeta, ?_⟩
  split at h
  · rename_i s₁ heq
    obtain ⟨rfl, rfl⟩ := Prod.mk.inj h
    exact ⟨s₁, (routeChannel_spec heq).1, .inl ⟨rfl, rfl⟩⟩
  rename_i s₁ id heq
  obtain ⟨hsel, hfresh⟩ := routeChannel_spec heq
  refine ⟨s₁, hsel, .inr ⟨id, fun hno => hfresh hno id rfl, ?_⟩⟩
  split at h
  · rename_i code hcode
    cases h
    exact .inl ⟨rfl, code, rfl⟩
  · cases h
    exact .inr ⟨rfl, rfl⟩

theorem findModel_spec {switchErr : String → Bool} {j : ℕ} :
    ∀ {models : List String} {i : ℕ}, findModel switchErr models i = some (m, j) →
      i < j ∧ m ≠ "" ∧ ∃ skipped, models = skipped ++ m :: models.drop (j - i)
  | [], i, h => by cases h
  | cand :: rest, i, h => by
    unfold findModel at h
    split_ifs at h with hcand
    · obtain ⟨hlt, hname, skipped, heq⟩ := findModel_spec h
      refine ⟨by omega, hname, cand :: skipped, ?_⟩
      have hdrop : j - i = (j - (i + 1)) + 1 := by omega
      rw [hdrop, drop_succ_cons, cons_append, ← heq]
    cases h
    exact ⟨by omega, fun hname => hcand (.inl hname), [], by simp⟩

structure Advanced (s s' : RelayState) : Prop where
  named : s'.modelName ≠ ""
  remaining : ∃ skipped, s.fallback.remaining = skipped ++ s'.modelName :: s'.fallback.remaining
  idx : s.fallback.idx < s'.fallback.idx
  retry : s'.retry = 0
  ignored : s'.ignoredChannelIds = []
  group : s.autoGroupIndex ≤ s'.autoGroupIndex

theorem advance_spec (h : advanceFallbackModel env s = some s') : Advanced s s' := by
  unfold advanceFallbackModel at h
  split at h
  · cases h
  obtain ⟨⟨m, j⟩, hfind, rfl⟩ := map_eq_some_iff.1 h
  obtain ⟨hlt, hname, skipped, heq⟩ := findModel_spec hfind
  refine ⟨hname, ⟨skipped, ?_⟩, hlt, rfl, rfl, le_rfl⟩
  -- the models after the new one are those from its index on
  have hdrop : s.fallback.remaining.drop (j - s.fallback.idx) = s.fallback.models.drop j := by
    rw [remaining, drop_drop]
    congr 1
    omega
  rw [hdrop] at heq
  exact heq

theorem Selected.group_le (h : Selected cfg s s₁) : s.autoGroupIndex ≤ s₁.autoGroupIndex := by
  rcases h.group with ⟨heq, -⟩ | ⟨-, hlt, -⟩
  · exact heq.ge
  · exact hlt.le

theorem Advanced.of_fallback_eq (h : Advanced s₁ s') (hfb : s₁.fallback = s.fallback)
    (hgroup : s.autoGroupIndex ≤ s₁.autoGroupIndex) : Advanced s s' where
  named := h.named
  remaining := by rw [← hfb]; exact h.remaining
  idx := by rw [← hfb]; exact h.idx
  retry := h.retry
  ignored := h.ignored
  group := hgroup.trans h.group

theorem afterFailure_some {err : NewAPIError} (h : afterFailure cfg env err s = some s') :
    (cfg.specificChannel = false ∧ (s' = { s with retry := 0 } ∨ Advanced s s')) ∨
    (cfg.specificChannel = true ∧ (s.retry : ℤ) < cfg.retryTimes ∧ s' = { s with retry := s.retry + 1 }) := by
  unfold afterFailure at h
  split at h
  · cases h
  split at h
  · rename_i hother
    have hp : cfg.specificChannel = false := by
      simp only [shouldRetryOtherChannel, Bool.and_eq_true, Bool.not_eq_true'] at hother
      exact hother.1.1.2
    exact .inl ⟨hp, .inl (some.inj h).symm⟩
  split at h
  · rename_i hp
    split at h
    · cases h
    · exact .inl ⟨by simpa using hp, .inr (advance_spec h)⟩
  rename_i hp
  split_ifs at h with _ hlt
  · exact .inr ⟨by simpa using hp, not_le.1 hlt, (some.inj h).symm⟩

/-- What a round that goes on has used up: a fallback model, a channel, or a retry. -/
inductive Continues (cfg : RelayConfig) (s : RelayState) (a : Option (String × ℕ)) (s' : RelayState) : Prop
  | nextModel (h : Advanced s s') (hspecific : cfg.specificChannel = true → a = none)
  | nextChannel (id : ℕ) (hspecific : cfg.specificChannel = false) (hmodel : s'.modelName = s.modelName)
      (hfallback : s'.fallback = s.fallback) (hretry : s'.retry = 0) (hmeta : s'.channelMeta = true)
      (hignored : s'.ignoredChannelIds = s.ignoredChannelIds ++ [id])
      (hnew : ¬ Serverless cfg s.modelName → s.channelMeta = false ∨ Fresh cfg s id)
      (ha : a = none ∨ a = some (s.modelName, id))
  | retried (r : ℕ) (hspecific : cfg.specificChannel = true) (hmodel : s'.modelName = s.modelName)
      (hfallback : s'.fallback = s.fallback) (hretry : s'.retry = r + 1) (hlt : (r : ℤ) < cfg.retryTimes)
      (hmeta : s'.channelMeta = true)
      (hgroup : s'.autoGroupIndex = s.autoGroupIndex ∧ r = s.retry ∨
        cfg.tokenGroup = "auto" ∧ s.autoGroupIndex < s'.autoGroupIndex ∧ s'.autoGroupIndex ≤ cfg.autoGroups.length)

theorem tryChannel_continues (hsel : Selected cfg s s₁)
    (hnew : ¬ Serverless cfg s.modelName → s.channelMeta = false ∨ Fresh cfg s id)
    (h : tryChannel cfg env id s₁ = (a, some s')) : Continues cfg s a s' := by
  unfold tryChannel at h
  split_ifs at h
  · obtain ⟨rfl, hadv⟩ := Prod.mk.inj h
    exact .nextModel ((advance_spec hadv).of_fallback_eq hsel.fallback hsel.group_le) fun _ => rfl
  · cases (Prod.mk.inj h).2
  obtain ⟨rfl, hnext⟩ := Prod.mk.inj h
  obtain ⟨err, -, hafter⟩ := bind_eq_some_iff.1 hnext
  rcases afterFailure_some hafter with ⟨hp, rfl | hadv⟩ | ⟨hp, hlt, rfl⟩
  · exact .nextChannel id hp hsel.modelName hsel.fallback rfl rfl (by rw [← hsel.ignored]) hnew
      (.inr (by rw [← hsel.modelName]))
  · exact .nextModel (hadv.of_fallback_eq hsel.fallback hsel.group_le) fun h => absurd h (by simp [hp])
  refine .retried s₁.retry hp hsel.modelName hsel.fallback rfl hlt rfl ?_
  rcases hsel.group with ⟨hsame, hretry⟩ | hauto
  · exact .inl ⟨hsame, hretry⟩
  · exact .inr hauto

theorem round_continues (h : relayRound cfg env s = (a, some s')) : Continues cfg s a s' := by
  unfold relayRound at h
  rcases hget : getChannel cfg env s with ⟨s₁, r⟩
  rw [hget] at h
  rcases getChannel_cases hget with ⟨hmeta, rfl, rfl⟩ | ⟨hmeta, s2, hsel, hcase⟩
  · exact tryChannel_continues (.refl cfg s₁) (fun _ => .inl hmeta) h
  rcases hcase with ⟨rfl, rfl⟩ | ⟨id, hfresh, ⟨rfl, code, rfl⟩ | ⟨rfl, rfl⟩⟩
  · dsimp only at h
    split_ifs at h with hcond
    · simp at hcond
    · obtain ⟨rfl, hadv⟩ := Prod.mk.inj h
      exact .nextModel ((advance_spec hadv).of_fallback_eq hsel.fallback hsel.group_le) fun _ => rfl
  · -- the channel could not be set up: it is ignored from here on
    dsimp only at h
    split_ifs at h with hcond
    · obtain ⟨rfl, hnext⟩ := Prod.mk.inj h
      cases hnext
      simp only [Bool.and_eq_true, Bool.not_eq_true'] at hcond
      exact .nextChannel id hcond.1 hsel.modelName hsel.fallback rfl (hsel.channelMeta.trans hmeta)
        (by rw [← hsel.ignored]) (fun hno => .inr (hfresh hno)) (.inl rfl)
    · obtain ⟨rfl, hadv⟩ := Prod.mk.inj h
      exact .nextModel ((advance_spec hadv).of_fallback_eq hsel.fallback hsel.group_le) fun _ => rfl
  · exact tryChannel_continues hsel (fun hno => .inr (hfresh hno)) h

theorem round_attempt (h : (relayRound cfg env s).1 = some (m, id)) :
    m = s.modelName ∧ (¬ Serverless cfg s.modelName → s.channelMeta = false ∨ Fresh cfg s id) := by
  unfold relayRound at h
  have htry : ∀ {s₁ : RelayState} {id' : ℕ}, (tryChannel cfg env id' s₁).1 = some (m, id) →
      m = s₁.modelName ∧ id' = id := by
    intro s₁ id' htry
    unfold tryChannel at htry
    split_ifs at htry
    · cases htry
      exact ⟨rfl, rfl⟩
  rcases hget : getChannel cfg env s with ⟨s₁, r⟩
  rw [hget] at h
  rcases getChannel_cases hget with ⟨hmeta, rfl, rfl⟩ | ⟨hmeta, s2, hsel, hcase⟩
  · exact ⟨(htry h).1, fun _ => .inl hmeta⟩
  rcases hcase with ⟨rfl, rfl⟩ | ⟨id', hfresh, ⟨rfl, code, rfl⟩ | ⟨rfl, rfl⟩⟩
  · dsimp only at h
    split at h <;> cases h
  · dsimp only at h
    split at h <;> cases h
  · obtain ⟨hm, rfl⟩ := htry h
    exact ⟨hm.trans hsel.modelName, fun hno => .inr (hfresh hno)⟩

def LoopStep (cfg : RelayConfig) : Option RelayState → RoundEvent → Option RelayState → Prop
  | none, _, _ => False
  | some s, l, r => ∃ env, relayRound cfg env s = (l.attempt, r) ∧ l.entered = enteredModel s r

theorem LoopStep.round (h : LoopStep cfg o l o') :
    ∃ s env, o = some s ∧ relayRound cfg env s = (l.attempt, o') ∧ l.entered = enteredModel s o' := by
  cases o with
  | none => exact h.elim
  | some s =>
    obtain ⟨env, hround, hentered⟩ := h
    exact ⟨s, env, rfl, hround, hentered⟩

theorem relayLoop_run (cfg : RelayConfig) : ∀ (n : ℕ) (envs : ℕ → RelayEnv) (s : RelayState),
    Run (LoopStep cfg) (some s) (relayLoop cfg n envs s).1 (relayLoop cfg n envs s).2
  | 0, _, s => .nil _
  | n + 1, envs, s => by
    have hstep : LoopStep cfg (some s) ⟨(relayRound cfg (envs 0) s).1,
        enteredModel s (relayRound cfg (envs 0) s).2⟩ (relayRound cfg (envs 0) s).2 := ⟨envs 0, rfl, rfl⟩
    unfold relayLoop
    dsimp only
    split
    · rename_i hend
      exact .cons ((congrArg (LoopStep cfg (some s) _) hend).mp hstep) (.nil _)
    · rename_i s' hnext
      exact .cons ((congrArg (LoopStep cfg (some s) _) hnext).mp hstep) (relayLoop_run cfg n _ s')

theorem relayLoop_length (cfg : RelayConfig) : ∀ (n : ℕ) (envs : ℕ → RelayEnv) (s s' : RelayState),
    (relayLoop cfg n envs s).2 = some s' → (relayLoop cfg n envs s).1.length = n
  | 0, _, _, _, _ => rfl
  | n + 1, envs, s, s', h => by
    unfold relayLoop at h ⊢
    dsimp only at h ⊢
    split at h
    · cases h
    · rw [length_cons, relayLoop_length cfg n _ _ s' h]

structure LoopInv (cfg : RelayConfig) (s : RelayState) : Prop where
  nodup : (s.modelName :: s.fallback.remaining).Nodup
  noServerless : cfg.specificChannel = false → ∀ m ∈ s.modelName :: s.fallback.remaining, ¬ Serverless cfg m
  unused : s.channelMeta = false → s.ignoredChannelIds = []
  retry : s.retry ≤ cfg.retryTimes.toNat

def LoopOK (cfg : RelayConfig) : Option RelayState → Prop
  | none => True
  | some s => LoopInv cfg s

theorem Advanced.sublist (h : Advanced s s') :
    (s'.modelName :: s'.fallback.remaining).Sublist s.fallback.remaining := by
  obtain ⟨skipped, heq⟩ := h.remaining
  rw [heq]
  exact sublist_append_right _ _

theorem LoopInv.of_same (hI : LoopInv cfg s)
    (hmodel : s'.modelName = s.modelName) (hfallback : s'.fallback = s.fallback)
    (hmeta : s'.channelMeta = true) (hretry : s'.retry ≤ cfg.retryTimes.toNat) : LoopInv cfg s' := by
  refine ⟨by rw [hmodel, hfallback]; exact hI.nodup, by rw [hmodel, hfallback]; exact hI.noServerless, ?_, hretry⟩
  intro hno
  rw [hmeta] at hno
  cases hno

theorem Continues.inv (hI : LoopInv cfg s) (h : Continues cfg s a s') : LoopInv cfg s' := by
  cases h with
  | nextModel h _ =>
    have hsub := h.sublist
    refine ⟨(nodup_cons.1 hI.nodup).2.sublist hsub, ?_, fun _ => h.ignored, by rw [h.retry]; exact Nat.zero_le _⟩
    exact fun hp m hm => hI.noServerless hp m (mem_cons_of_mem _ (hsub.subset hm))
  | nextChannel id hp hmodel hfb hretry hmeta => exact hI.of_same hmodel hfb hmeta (by omega)
  | retried r hp hmodel hfb hretry hlt hmeta => exact hI.of_same hmodel hfb hmeta (by omega)

theorem loopOK_step (hI : LoopOK cfg o) (hst : LoopStep cfg o l o') : LoopOK cfg o' := by
  obtain ⟨s, env, rfl, hround, -⟩ := hst.round
  cases o' with
  | none => trivial
  | some => exact (round_continues hround).inv hI

def modelCost (cfg : RelayConfig) (m : String) : ℕ :=
  if cfg.specificChannel then cfg.retryTimes.toNat + 1 else (cfg.candidates m).length + 2

/-- What is left of the current model: the retries and those to be given back, or the unused candidates and the
distributor's channel. -/
def slack (cfg : RelayConfig) (s : RelayState) : ℕ :=
  if cfg.specificChannel then
    (cfg.retryTimes.toNat - s.retry) + (cfg.autoGroups.length - s.autoGroupIndex) * cfg.retryTimes.toNat
  else (cfg.candidates s.modelName).countP (fun id => !s.ignoredChannelIds.contains id) +
    (!s.channelMeta).toNat

def rounds (cfg : RelayConfig) (s : RelayState) : ℕ := slack cfg s + (s.fallback.remaining.map (modelCost cfg)).sum + 1

def roundsLeft (cfg : RelayConfig) : Option RelayState → ℕ
  | none => 0
  | some s => rounds cfg s

theorem countP_unused_le (candidates ignored : List ℕ) (id : ℕ) :
    candidates.countP (fun x => !(ignored ++ [id]).contains x) ≤ candidates.countP (fun x => !ignored.contains x) := by
  apply countP_mono_left
  intro x _ hx
  simp only [Bool.not_eq_true', contains_eq_mem, mem_append, decide_eq_false_iff_not, not_or] at hx ⊢
  exact hx.1

theorem countP_unused_lt {candidates ignored : List ℕ} (hid : id ∈ candidates) (hnot : id ∉ ignored) :
    candidates.countP (fun x => !(ignored ++ [id]).contains x) < candidates.countP (fun x => !ignored.contains x) := by
  obtain ⟨before, after, rfl⟩ := append_of_mem hid
  have hbefore := countP_unused_le before ignored id
  have hafter := countP_unused_le after ignored id
  rw [countP_append, countP_append, countP_cons_of_neg (by simp), countP_cons_of_pos (by simpa using hnot)]
  omega

theorem Advanced.slack_lt (h : Advanced s s') : slack cfg s' < slack cfg s + modelCost cfg s'.modelName := by
  unfold slack modelCost
  split
  · have hgroup : (cfg.autoGroups.length - s'.autoGroupIndex) * cfg.retryTimes.toNat ≤
        (cfg.autoGroups.length - s.autoGroupIndex) * cfg.retryTimes.toNat :=
      Nat.mul_le_mul_right _ (Nat.sub_le_sub_left h.group _)
    rw [h.retry]
    omega
  have hle : (cfg.candidates s'.modelName).countP (fun id => !s'.ignoredChannelIds.contains id) ≤
      (cfg.candidates s'.modelName).length := countP_le_length
  have hbool := Bool.toNat_le (!s'.channelMeta)
  omega

/-- **A round that goes on is one round less.** -/
theorem Continues.rounds_lt (hI : LoopInv cfg s) (h : Continues cfg s a s') : rounds cfg s' < rounds cfg s := by
  unfold rounds
  cases h with
  | nextModel h =>
    obtain ⟨skipped, heq⟩ := h.remaining
    have hslack : slack cfg s' < slack cfg s + modelCost cfg s'.modelName := h.slack_lt
    -- the new model's cost is no longer part of the sum, and covers its slack
    rw [heq, map_append, map_cons, sum_append, sum_cons]
    omega
  | nextChannel id hp hmodel hfb _ hmeta hign hnew _ =>
    suffices slack cfg s' < slack cfg s by rw [hfb]; omega
    unfold slack
    rw [hp, hmodel, hign, hmeta]
    simp only [Bool.false_eq_true, if_false, Bool.not_true, Bool.toNat_false]
    rcases hnew (hI.noServerless hp _ mem_cons_self) with hfirst | ⟨hnot, hcand⟩
    · -- the distributor's channel need not be a candidate; it is used up with `ChannelMeta`
      have hle := countP_unused_le (cfg.candidates s.modelName) s.ignoredChannelIds id
      rw [hfirst]
      simp only [Bool.not_false, Bool.toNat_true]
      omega
    · have hlt := countP_unused_lt hcand hnot
      omega
  | retried r hp hmodel hfb hretry hlt _ hgroup =>
    suffices slack cfg s' < slack cfg s by rw [hfb]; omega
    unfold slack
    rw [hp, hretry]
    simp only [if_true]
    rcases hgroup with ⟨hsame, rfl⟩ | ⟨-, hnext, hlen⟩
    · rw [hsame]
      omega
    -- a group that is used up pays for the retries that it gives back
    have hpay : (cfg.autoGroups.length - s'.autoGroupIndex) * cfg.retryTimes.toNat + cfg.retryTimes.toNat ≤
        (cfg.autoGroups.length - s.autoGroupIndex) * cfg.retryTimes.toNat := by
      rw [← Nat.succ_mul]
      exact Nat.mul_le_mul_right _ (by omega)
    omega

theorem roundsLeft_step (hI : LoopOK cfg o) (hst : LoopStep cfg o l o') : roundsLeft cfg o' + 1 ≤ roundsLeft cfg o := by
  obtain ⟨s, env, rfl, hround, -⟩ := hst.round
  cases o' with
  | none => exact Nat.succ_le_succ (Nat.zero_le _)
  | some => exact (round_continues hround).rounds_lt hI

theorem run_length_le {ls : List RoundEvent} (h : Run (LoopStep cfg) o ls o')
    (hI : LoopOK cfg o) : ls.length + roundsLeft cfg o' ≤ roundsLeft cfg o := by
  have hpay := h.countP_le_budget (I := LoopOK cfg) (p := fun _ => true) (roundsLeft cfg)
    (fun _ _ _ => loopOK_step) (fun _ _ _ => roundsLeft_step) hI
  rwa [countP_true] at hpay

/-- An attempt that can still be made: on an unused channel of the model, or of a model that has not
been entered. -/
def Untried : Option RelayState → String × ℕ → Prop
  | none, _ => False
  | some s, (m, id) => (m = s.modelName ∧ id ∉ s.ignoredChannelIds) ∨ m ∈ s.fallback.remaining

def Unentered : Option RelayState → String → Prop
  | none, _ => False
  | some s, m => m ∈ s.fallback.remaining

theorem untried_emit {a : String × ℕ} (hp : cfg.specificChannel = false) (hI : LoopOK cfg o) (hst : LoopStep cfg o l o')
    (ha : l.attempt = some a) : Untried o a ∧ ¬ Untried o' a := by
  obtain ⟨s, env, rfl, hround, -⟩ := hst.round
  obtain ⟨m, id⟩ := a
  rw [ha] at hround
  obtain ⟨rfl, hnew⟩ := round_attempt (congrArg Prod.fst hround)
  have hself : s.modelName ∉ s.fallback.remaining := (nodup_cons.1 hI.nodup).1
  have hunused : id ∉ s.ignoredChannelIds := by
    rcases hnew (hI.noServerless hp _ mem_cons_self) with hfirst | hfresh
    · rw [hI.unused hfirst]
      exact not_mem_nil
    · exact hfresh.1
  refine ⟨.inl ⟨rfl, hunused⟩, ?_⟩
  cases o' with
  | none => exact not_false
  | some s' =>
    cases round_continues hround with
    | nextModel h _ =>
      -- neither the new model nor those after it are the one of the attempt
      have hother : s.modelName ∉ s'.modelName :: s'.fallback.remaining := fun hmem => hself (h.sublist.subset hmem)
      rintro (⟨hm, -⟩ | hm)
      · exact hother (hm ▸ mem_cons_self)
      · exact hother (mem_cons_of_mem _ hm)
    | nextChannel id' _ _ hfb _ _ hign _ hatt =>
      obtain rfl : id = id' := by
        rcases hatt with hnone | hsome
        · cases hnone
        · exact (Prod.mk.inj (some.inj hsome)).2
      rintro (⟨-, hnot⟩ | hm)
      · exact hnot (by rw [hign]; simp)
      · exact hself (hfb ▸ hm)
    | retried r hp' => rw [hp] at hp'; cases hp'

theorem untried_shrink {a : String × ℕ}
    (hp : cfg.specificChannel = false) (hst : LoopStep cfg o l o') (h : Untried o' a) : Untried o a := by
  obtain ⟨s, env, rfl, hround, -⟩ := hst.round
  obtain ⟨m, id⟩ := a
  cases o' with
  | none => exact h.elim
  | some =>
    cases round_continues hround with
    | nextModel hadv _ =>
      have hsub := hadv.sublist
      rcases h with ⟨rfl, -⟩ | hm
      · exact .inr (hsub.subset mem_cons_self)
      · exact .inr (hsub.subset (mem_cons_of_mem _ hm))
    | nextChannel id' _ hmodel hfb _ _ hign _ _ =>
      rcases h with ⟨hm, hnot⟩ | hm
      · refine .inl ⟨hm.trans hmodel, fun hmem => hnot ?_⟩
        rw [hign]
        exact mem_append_left _ hmem
      · exact .inr (hfb ▸ hm)
    | retried r hp' => rw [hp] at hp'; cases hp'

theorem unentered_emit (hI : LoopOK cfg o)
    (hst : LoopStep cfg o l o') (hm : l.entered = some m) : Unentered o m ∧ ¬ Unentered o' m := by
  obtain ⟨s, env, rfl, hround, hentered⟩ := hst.round
  rw [hm] at hentered
  cases o' with
  | none => cases hentered
  | some s' =>
    have hinv := (round_continues hround).inv hI
    dsimp only [enteredModel] at hentered
    split_ifs at hentered with hidx
    cases hentered
    refine ⟨?_, (nodup_cons.1 hinv.nodup).1⟩
    cases round_continues hround with
    | nextModel h => exact h.sublist.subset mem_cons_self
    | nextChannel _ _ _ hfb | retried _ _ _ hfb => exact absurd (congrArg idx hfb) hidx

theorem unentered_shrink (hst : LoopStep cfg o l o') (h : Unentered o' m) : Unentered o m := by
  obtain ⟨s, env, rfl, hround, -⟩ := hst.round
  cases o' with
  | none => exact h.elim
  | some =>
    cases round_continues hround with
    | nextModel hadv _ => exact hadv.sublist.subset (mem_cons_of_mem _ h)
    | nextChannel _ _ _ hfb | retried _ _ _ hfb =>
      change m ∈ s.fallback.remaining
      rw [← hfb]
      exact h

def attemptsLeft (cfg : RelayConfig) (m : String) : Option RelayState → ℕ
  | none => 0
  | some s =>
    if s.modelName = m then cfg.retryTimes.toNat + 1 - s.retry
    else if m ∈ s.fallback.remaining then cfg.retryTimes.toNat + 1 else 0

def RoundEvent.tries (m : String) (l : RoundEvent) : Bool :=
  match l.attempt with
  | some (m', _) => decide (m' = m)
  | none => false

theorem tries_modelName {r : Option RelayState}
    (hround : relayRound cfg env s = (l.attempt, r)) (h : l.tries m = true) : s.modelName = m := by
  unfold tries at h
  split at h
  · rename_i m' id hatt
    rw [hatt] at hround
    exact (round_attempt (congrArg Prod.fst hround)).1.symm.trans (of_decide_eq_true h)
  · cases h

theorem Advanced.attemptsLeft_le (hself : s.modelName ∉ s.fallback.remaining) (h : Advanced s s') (m : String) :
    attemptsLeft cfg m (some s') ≤ attemptsLeft cfg m (some s) := by
  have hleft : m ∈ s'.modelName :: s'.fallback.remaining → attemptsLeft cfg m (some s) = cfg.retryTimes.toNat + 1 := by
    intro hmem
    have hrem := h.sublist.subset hmem
    have hne : s.modelName ≠ m := fun heq => hself (heq ▸ hrem)
    rw [attemptsLeft, if_neg hne, if_pos hrem]
  dsimp only [attemptsLeft] at hleft ⊢
  split
  · rename_i heq
    rw [hleft (heq ▸ mem_cons_self)]
    exact Nat.sub_le _ _
  split
  · rename_i hmem
    rw [hleft (mem_cons_of_mem _ hmem)]
  · exact Nat.zero_le _

theorem attemptsLeft_step (hp : cfg.specificChannel = true) (hg : cfg.tokenGroup ≠ "auto") (hI : LoopOK cfg o)
    (hst : LoopStep cfg o l o') : attemptsLeft cfg m o' + (l.tries m).toNat ≤ attemptsLeft cfg m o := by
  obtain ⟨s, env, rfl, hround, -⟩ := hst.round
  have hmodel := tries_modelName (m := m) hround
  have hbool := Bool.toNat_le (l.tries m)
  have hretry := hI.retry
  have hself : s.modelName ∉ s.fallback.remaining := (nodup_cons.1 hI.nodup).1
  cases o' with
  | none =>
    dsimp only [attemptsLeft]
    split
    · omega
    rename_i hne
    rw [Bool.eq_false_iff.2 fun h => hne (hmodel h)]
    exact Nat.zero_le _
  | some =>
    cases round_continues hround with
    | nextModel h hnone =>
      -- a round that changes the model of such a request has made no attempt
      have hno : l.tries m = false := by rw [tries, hnone hp]
      rw [hno]
      exact h.attemptsLeft_le hself m
    | nextChannel _ hp' => rw [hp] at hp'; cases hp'
    | retried r _ hname hfb hretry' hlt _ hgroup =>
      rcases hgroup with ⟨-, rfl⟩ | ⟨hauto, -⟩
      · dsimp only [attemptsLeft]
        rw [hname, hfb, hretry']
        by_cases heq : s.modelName = m
        · rw [if_pos heq, if_pos heq]
          omega
        · rw [if_neg heq, if_neg heq, Bool.eq_false_iff.2 fun h => heq (hmodel h)]
          exact le_rfl
      · exact absurd hauto hg

/-- A cache that `SyncServerlessCache` has written holds placeholders only, of which no channel is made. -/
theorem synced_not_serverless {deployments : List Deployment}
    (h : cfg.serverless.activeDeployments = syncedDeployments deployments) (m : String) :
    ¬ Serverless cfg m := by
  have hplaceholder : ∀ (m' endpoint : String), syncedDeployments deployments m' = some endpoint →
      constructServerlessChannel cfg.serverless.apiKey endpoint = none := by
    intro m' endpoint hsome
    obtain ⟨d, -, rfl⟩ := map_eq_some_iff.1 hsome
    have hpre : placeholderEndpoint.toList.isPrefixOf (placeholderEndpoint ++ d.id).toList = true := by
      rw [String.toList_append, isPrefixOf_iff_prefix]
      exact prefix_append _ _
    rw [constructServerlessChannel, hpre, Bool.true_or, if_pos rfl]
  have hnone : cfg.serverless.activeChannel m = none := by
    unfold ServerlessCache.activeChannel
    rw [h]
    split
    · exact hplaceholder _ _ ‹_›
    split
    · exact hplaceholder _ _ ‹_›
    · rfl
  rintro (hfirst | hlast)
  · exact hfirst (by rw [serverlessFirst, hnone, ite_self])
  · exact hlast (by rw [serverlessLast, hnone, ite_self])

theorem start_inv {fb : FallbackState} {group : ℕ} (hidx : fb.idx = 0)
    (hs : cfg.specificChannel = false → ∀ m ∈ fb.orig :: fb.models, ¬ Serverless cfg m) :
    LoopInv cfg (.start fb group) := by
  have hrem : fb.remaining = fb.models := by rw [remaining, hidx, drop_zero]
  refine ⟨?_, ?_, fun _ => rfl, Nat.zero_le _⟩
  · rw [RelayState.start, hrem]
    exact fb.nodup
  · rw [RelayState.start, hrem]
    exact hs

/-- **The retry loop ends** within `rounds`, if no model of the request has a serverless channel that can be picked.
No channel is tried twice for one model, and each fallback model is entered at most once. -/
theorem relay_loop_ends (cfg : RelayConfig) (setting : FallbackSetting) (kind : FallbackKind) (orig : String)
    (hs : cfg.specificChannel = false →
      ∀ m ∈ orig :: (newFallbackState setting kind orig).models, ¬ Serverless cfg m) (group : ℕ)
    (envs : ℕ → RelayEnv) :
    (∀ n, rounds cfg (.start (newFallbackState setting kind orig) group) ≤ n →
      (relayLoop cfg n envs (.start (newFallbackState setting kind orig) group)).2 = none) ∧
    ∀ n, let events := (relayLoop cfg n envs (.start (newFallbackState setting kind orig) group)).1
      events.length ≤ rounds cfg (.start (newFallbackState setting kind orig) group) ∧
      (cfg.specificChannel = false → (events.filterMap RoundEvent.attempt).Nodup) ∧
      (cfg.specificChannel = true → cfg.tokenGroup ≠ "auto" → ∀ m, events.countP (tries m) ≤ cfg.retryTimes.toNat + 1) ∧
      (events.filterMap entered).Nodup := by
  have hI : LoopOK cfg (some (.start (newFallbackState setting kind orig) group)) := start_inv rfl hs
  refine ⟨fun n hn => ?_, fun n => ?_⟩
  · have hlen := run_length_le (relayLoop_run cfg n envs (.start (newFallbackState setting kind orig) group)) hI
    cases hend : (relayLoop cfg n envs (.start (newFallbackState setting kind orig) group)).2 with
    | none => rfl
    | some s' =>
      exfalso
      rw [relayLoop_length cfg n envs _ s' hend, hend] at hlen
      -- a loop that still runs would have made more rounds than there are
      have hpos : 1 ≤ roundsLeft cfg (some s') := Nat.le_add_left 1 _
      have hstart : roundsLeft cfg (some (.start (newFallbackState setting kind orig) group)) ≤ n := hn
      omega
  · have hrun := relayLoop_run cfg n envs (.start (newFallbackState setting kind orig) group)
    refine ⟨?_, fun hp => ?_, fun hp hg m => ?_, ?_⟩
    · exact (Nat.le_add_right _ _).trans (run_length_le hrun hI)
    · refine (Run.nodup_filterMap (F := Untried) ?_ ?_ ?_ hrun hI).1
      · exact fun _ _ _ => loopOK_step
      · exact fun _ _ _ _ => untried_emit hp
      · exact fun _ _ _ _ _ => untried_shrink hp
    · have hpay := hrun.countP_le_budget (I := LoopOK cfg) (p := tries m) (attemptsLeft cfg m)
        (fun _ _ _ => loopOK_step) (fun _ _ _ => attemptsLeft_step hp hg) hI
      have hstart : attemptsLeft cfg m (some (.start (newFallbackState setting kind orig) group)) ≤
          cfg.retryTimes.toNat + 1 := by
        dsimp only [attemptsLeft]
        split_ifs
        · exact Nat.sub_le _ _
        · exact le_rfl
        · exact Nat.zero_le _
      omega
    · refine (Run.nodup_filterMap (F := Unentered) ?_ ?_ ?_ hrun hI).1
      · exact fun _ _ _ => loopOK_step
      · exact fun _ _ _ _ => unentered_emit
      · exact fun _ _ _ _ _ => unentered_shrink

/-! ### A model with two channels, all of them down -/

def plainTable : ChannelTable where
  memoryCacheEnabled := true
  group2model2channels group _ := if group = "vip" then [2, 3] else []
  channelsIDM id := some ⟨id, 0, 0, 0, fun _ => 1, false⟩
  channelsIDM_id id ch h := by rw [← some.inj h]
  supportsPath _ _ _ := true
  formatMatchingModelName := fun m => m
  abilities := []

def plainCfg : RelayConfig where
  table := plainTable
  serverless := ⟨fun _ => none, fun _ => none, ""⟩
  tokenGroup := "vip"
  autoGroups := []
  requestPath := ""
  contextChannel := 2
  specificChannel := false
  useFloor := false
  useNitro := false
  retryTimes := 1
  chatCompletions := true

def noFallback : FallbackSetting := ⟨false, fun _ => [], []⟩

def gptStart : RelayState := .start (newFallbackState noFallback .chat "gpt") 0

def upstreamDown : RelayEnv := { answer := some { statusCode := 500, code := .other "do_request_failed" } }

def badKey : RelayEnv := { answer := some { statusCode := 500, code := .channel "invalid_key" } }

theorem relay_loop_ends_two_channels :
    (∀ n, rounds plainCfg gptStart ≤ n → (relayLoop plainCfg n (fun _ => upstreamDown) gptStart).2 = none) ∧
      (relayLoop plainCfg 9 (fun _ => upstreamDown) gptStart).1.filterMap RoundEvent.attempt =
        [("gpt", 2), ("gpt", 3)] :=
  ⟨(relay_loop_ends plainCfg noFallback .chat "gpt"
      (fun _ m _ => synced_not_serverless (show _ = syncedDeployments [] from rfl) m) 0 fun _ => upstreamDown).1, rfl⟩

def serverlessCfg : RelayConfig :=
  { plainCfg with serverless := ⟨fun _ => some "https://deployment.example", fun _ => some 1, "key"⟩ }

def specificCfg : RelayConfig :=
  { plainCfg with tokenGroup := "auto", autoGroups := ["free", "vip"], contextChannel := 1, specificChannel := true }

theorem serverless_rounds : ∀ (n retry group : ℕ) (ignored : List ℕ) (fb : FallbackState),
    (relayLoop serverlessCfg n (fun _ => upstreamDown) ⟨"gpt", retry, ignored, true, group, fb⟩).2 ≠ none ∧
      (relayLoop serverlessCfg n (fun _ => upstreamDown) ⟨"gpt", retry, ignored, true, group, fb⟩).1.filterMap
        RoundEvent.attempt = replicate n ("gpt", serverlessChannelId)
  | 0, _, _, _, _ => ⟨some_ne_none _, rfl⟩
  | n + 1, retry, group, ignored, fb => by
    obtain ⟨hgoes, hattempts⟩ := serverless_rounds n 0 group (ignored ++ [serverlessChannelId]) fb
    rw [relayLoop]
    exact ⟨hgoes, congrArg (cons ("gpt", serverlessChannelId)) hattempts⟩

/-- A deployment that is down is tried again and again. A request for a specific channel, with one retry allowed,
makes three attempts. -/
theorem relay_loop_runs_on :
    (∀ n, (relayLoop serverlessCfg n (fun _ => upstreamDown) gptStart).2 ≠ none ∧
      (relayLoop serverlessCfg (n + 1) (fun _ => upstreamDown) gptStart).1.filterMap RoundEvent.attempt =
        ("gpt", 2) :: List.replicate n ("gpt", serverlessChannelId)) ∧
    specificCfg.retryTimes = 1 ∧ (relayLoop specificCfg 9 (fun _ => badKey) gptStart).1.countP (tries "gpt") = 3 := by
  refine ⟨fun n => ⟨?_, ?_⟩, rfl, rfl⟩
  · cases n with
    | zero => exact some_ne_none _
    | succ n =>
      rw [relayLoop]
      exact (serverless_rounds n 0 0 [2] gptStart.fallback).1
  rw [relayLoop]
  exact congrArg (cons ("gpt", 2)) (serverless_rounds n 0 0 [2] gptStart.fallback).2

end NewApi

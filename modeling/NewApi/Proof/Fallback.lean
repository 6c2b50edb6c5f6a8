import NewApi.Proof.RelayLoop

/-!
# Fallback models in the automatic groups

`CacheGetRandomSatisfiedChannel` searches the automatic groups forwards only, from an index in the request's context
that `advanceFallbackModel` does not set back. When the channels of the requested model are used up the index has
passed the last group (`routeChannel_none`), so only a serverless deployment can serve a fallback model
(`usedUp_round`).
-/

namespace NewApi

open Trace List

variable {cfg : RelayConfig} {env : RelayEnv} {s s' : RelayState} {envs : ℕ → RelayEnv}

def TriesFallback (cfg : RelayConfig) (envs : ℕ → RelayEnv) (orig : String) (s : RelayState) : Prop :=
  ∃ n, ∃ l ∈ (relayLoop cfg n envs s).1, ∃ m id, l.attempt = some (m, id) ∧ m ≠ orig

theorem triesFallback_iff {orig : String} {a : Option (String × ℕ)} {r : Option RelayState}
    (h : relayRound cfg (envs 0) s = (a, r)) :
    TriesFallback cfg envs orig s ↔ (∃ m id, a = some (m, id) ∧ m ≠ orig) ∨
        ∃ s', r = some s' ∧ TriesFallback cfg (fun k => envs (k + 1)) orig s' := by
  constructor
  · rintro ⟨n, l, hl, m, id, hatt, hne⟩
    cases n with
    | zero => simp [relayLoop] at hl
    | succ n =>
      unfold relayLoop at hl
      rw [h] at hl
      cases r with
      | none =>
        rw [mem_singleton.1 hl] at hatt
        exact .inl ⟨m, id, hatt, hne⟩
      | some s' =>
        rcases mem_cons.1 hl with rfl | hl
        · exact .inl ⟨m, id, hatt, hne⟩
        · exact .inr ⟨s', rfl, n, l, hl, m, id, hatt, hne⟩
  · rintro (⟨m, id, rfl, hne⟩ | ⟨s', rfl, n, l, hl, hatt⟩)
    · refine ⟨1, ⟨some (m, id), enteredModel s r⟩, ?_, m, id, rfl, hne⟩
      unfold relayLoop
      rw [h]
      cases r <;> exact mem_cons_self
    refine ⟨n + 1, l, ?_, hatt⟩
    unfold relayLoop
    rw [h]
    exact mem_cons_of_mem _ hl

structure RelayEnv.Calm (env : RelayEnv) : Prop where
  setup : env.setupErr = none
  billing : env.billingErr = false
  body : env.bodyErr = false
  switch : ∀ m, env.switchErr m = false

structure UsedUp (cfg : RelayConfig) (s : RelayState) : Prop where
  channelMeta : s.channelMeta = true
  groups : cfg.autoGroups.length ≤ s.autoGroupIndex

theorem searchGroups_none (cfg : RelayConfig) (env : RelayEnv) (model : String) (ignored : List ℕ) :
    ∀ (groups : List String) (i : ℕ), (searchGroups cfg env model ignored groups i).1 = none →
      (searchGroups cfg env model ignored groups i).2 = i + groups.length
  | [], i, _ => rfl
  | group :: rest, i, h => by
    unfold searchGroups at h ⊢
    split at h
    · cases h
    have hrest := searchGroups_none cfg env model ignored rest (i + 1) h
    rw [length_cons]
    omega

theorem cacheGet_auto (hauto : cfg.tokenGroup = "auto") (hgroups : cfg.autoGroups ≠ []) (env : RelayEnv)
    (s : RelayState) :
    ∃ r, searchGroups cfg env s.modelName s.ignoredChannelIds (cfg.autoGroups.drop s.autoGroupIndex)
        s.autoGroupIndex = r ∧
      cacheGetRandomSatisfiedChannel cfg env s =
        ({ s with autoGroupIndex := r.2, retry := if r.2 = s.autoGroupIndex then s.retry else 0 }, r.1, false) := by
  refine ⟨_, rfl, ?_⟩
  rw [cacheGetRandomSatisfiedChannel, if_pos hauto, if_neg hgroups]

theorem routeChannel_none (hauto : cfg.tokenGroup = "auto") (hgroups : cfg.autoGroups ≠ [])
    (h : routeChannel cfg env s = (s', none)) :
    cfg.autoGroups.length ≤ s'.autoGroupIndex ∧ Selected cfg s s' := by
  refine ⟨?_, (routeChannel_spec h).1⟩
  obtain ⟨r, hsearch, hget⟩ := cacheGet_auto hauto hgroups env s
  unfold routeChannel at h
  rw [hget] at h
  split at h
  · cases (Prod.mk.inj h).2
  split at h
  · cases ‹_ = (_, _, true)›
  · cases (Prod.mk.inj h).2
  rename_i s1 hnone
  obtain ⟨rfl, hr⟩ := Prod.mk.inj hnone
  obtain ⟨hr, -⟩ := Prod.mk.inj hr
  obtain ⟨rfl, -⟩ := Prod.mk.inj h
  have hlen := searchGroups_none cfg env s.modelName s.ignoredChannelIds
    (cfg.autoGroups.drop s.autoGroupIndex) s.autoGroupIndex (by rw [hsearch]; exact hr)
  rw [hsearch, length_drop] at hlen
  dsimp only
  omega

theorem routeChannel_none_round (hmeta : s.channelMeta = true) (h : routeChannel cfg env s = (s', none)) :
    relayRound cfg env s = (none, advanceFallbackModel env s') := by
  have hget : getChannel cfg env s = (s', .error .getChannelFailed) := by simp [getChannel, hmeta, h]
  rw [relayRound, hget]
  simp

theorem usedUp_route (hauto : cfg.tokenGroup = "auto") (hgroups : cfg.autoGroups ≠ []) (hu : UsedUp cfg s) :
    routeChannel cfg env s = (s, (serverlessFirst cfg s.modelName).or (serverlessLast cfg s.modelName)) := by
  obtain ⟨r, hsearch, hget⟩ := cacheGet_auto hauto hgroups env s
  rw [drop_eq_nil_of_le hu.groups] at hsearch
  obtain rfl := hsearch
  simp only [searchGroups, if_true] at hget
  have htag : ∀ id, tagged cfg s id = id := by
    intro id
    rw [tagged, hauto]
    simp
  unfold routeChannel
  cases hfirst : serverlessFirst cfg s.modelName with
  | some => rfl
  | none =>
    rw [hget]
    cases hlast : serverlessLast cfg s.modelName with
    | none => rfl
    | some => simp [htag]

theorem serverless_iff (cfg : RelayConfig) (m : String) :
    Serverless cfg m ↔ ∃ id, (serverlessFirst cfg m).or (serverlessLast cfg m) = some id := by
  unfold Serverless
  cases serverlessFirst cfg m <;> cases serverlessLast cfg m <;> simp

theorem usedUp_round (hauto : cfg.tokenGroup = "auto") (hgroups : cfg.autoGroups ≠ []) (hu : UsedUp cfg s)
    (hcalm : env.Calm) :
    (Serverless cfg s.modelName ∧ ∃ id r, relayRound cfg env s = (some (s.modelName, id), r)) ∨
      (¬ Serverless cfg s.modelName ∧ relayRound cfg env s = (none, advanceFallbackModel env s)) := by
  have hroute : routeChannel cfg env s = _ := usedUp_route hauto hgroups hu
  rw [serverless_iff]
  cases hid : (serverlessFirst cfg s.modelName).or (serverlessLast cfg s.modelName) with
  | none =>
    rw [hid] at hroute
    exact .inr ⟨by simp, routeChannel_none_round hu.channelMeta hroute⟩
  | some id =>
    rw [hid] at hroute
    have hget : getChannel cfg env s = (s, .ok id) := by simp [getChannel, hu.channelMeta, hroute, hcalm.setup]
    refine .inl ⟨⟨id, rfl⟩, id, ?_⟩
    rw [relayRound, hget]
    simp only [tryChannel, hcalm.billing, hcalm.body, Bool.false_eq_true, if_false]
    exact ⟨_, rfl⟩

theorem findModel_calm {switchErr : String → Bool} (h : ∀ m, switchErr m = false) :
    ∀ (models : List String) (i : ℕ), (findModel switchErr models i = none ∧ ∀ m ∈ models, m = "") ∨
        ∃ skipped m rest, models = skipped ++ m :: rest ∧ (∀ x ∈ skipped, x = "") ∧ m ≠ "" ∧
          findModel switchErr models i = some (m, i + skipped.length + 1)
  | [], i => .inl ⟨rfl, by simp⟩
  | cand :: rest, i => by
    unfold findModel
    by_cases hcand : cand = ""
    · rw [if_pos (.inl hcand)]
      rcases findModel_calm h rest (i + 1) with ⟨hnone, hall⟩ | ⟨skipped, m, rest', rfl, hskip, hm, hfind⟩
      · refine .inl ⟨hnone, fun m hm => ?_⟩
        rcases mem_cons.1 hm with rfl | hm
        · exact hcand
        · exact hall m hm
      refine .inr ⟨cand :: skipped, m, rest', rfl, fun x hx => ?_, hm, ?_⟩
      · rcases mem_cons.1 hx with rfl | hx
        · exact hcand
        · exact hskip x hx
      rw [hfind, length_cons]
      congr 2
      omega
    · refine .inr ⟨[], cand, rest, rfl, by simp, hcand, ?_⟩
      rw [if_neg (by simp [hcand, h])]
      rfl

theorem advance_calm (hon : s.fallback.on = true) (hcalm : env.Calm) :
    (advanceFallbackModel env s = none ∧ ∀ m ∈ s.fallback.remaining, m = "") ∨
      ∃ skipped s', advanceFallbackModel env s = some s' ∧ (∀ x ∈ skipped, x = "") ∧
        s'.modelName ≠ "" ∧ s.fallback.remaining = skipped ++ s'.modelName :: s'.fallback.remaining ∧
        s'.fallback.on = true ∧ s'.channelMeta = s.channelMeta ∧ s'.autoGroupIndex = s.autoGroupIndex := by
  rw [advanceFallbackModel, hon, Bool.not_true, if_neg Bool.false_ne_true]
  rcases findModel_calm hcalm.switch s.fallback.remaining s.fallback.idx with
    ⟨hnone, hall⟩ | ⟨skipped, m, rest, hrem, hskip, hm, hfind⟩
  · exact .inl ⟨by rw [hnone]; rfl, hall⟩
  refine .inr ⟨skipped, { s with
    modelName := m, retry := 0, ignoredChannelIds := []
    fallback := { s.fallback with idx := s.fallback.idx + skipped.length + 1 } },
    by rw [hfind]; rfl, hskip, hm, ?_, hon, rfl, rfl⟩
  -- the models after the new one are those from its index on
  have hdrop : s.fallback.models.drop (s.fallback.idx + skipped.length + 1) = rest := by
    rw [add_assoc, ← drop_drop]
    have : s.fallback.models.drop s.fallback.idx = skipped ++ m :: rest := hrem
    rw [this, ← drop_drop, drop_left]
    rfl
  rw [hrem]
  show _ = skipped ++ m :: s.fallback.models.drop (s.fallback.idx + skipped.length + 1)
  rw [hdrop]

theorem advance_exists_iff {T : RelayState → Prop} (hu : UsedUp cfg s) (hon : s.fallback.on = true) (hcalm : env.Calm)
    (hT : ∀ s', UsedUp cfg s' → s'.fallback.on = true → s'.fallback.remaining.length < s.fallback.remaining.length →
      (∀ m ∈ s'.modelName :: s'.fallback.remaining, m ∈ s.fallback.remaining) →
      (T s' ↔ Serverless cfg s'.modelName ∨ ∃ m ∈ s'.fallback.remaining, m ≠ "" ∧ Serverless cfg m)) :
    (∃ s', advanceFallbackModel env s = some s' ∧ T s') ↔ ∃ m ∈ s.fallback.remaining, m ≠ "" ∧ Serverless cfg m := by
  rcases advance_calm hon hcalm with
    ⟨hnone, hall⟩ | ⟨skipped, s', hsome, hskip, hname, hrem, hon', hmeta, hgroup⟩
  · -- only models without a name are left
    rw [hnone]
    constructor
    · rintro ⟨s', hs', -⟩
      cases hs'
    · rintro ⟨m, hm, hne, -⟩
      exact absurd (hall m hm) hne
  · have hsub : ∀ m ∈ s'.modelName :: s'.fallback.remaining, m ∈ s.fallback.remaining := by
      intro m hm
      rw [hrem]
      exact mem_append_right _ hm
    have hlen : s'.fallback.remaining.length < s.fallback.remaining.length := by
      rw [hrem, length_append, length_cons]
      omega
    have hu' : UsedUp cfg s' := ⟨hmeta.trans hu.channelMeta, by rw [hgroup]; exact hu.groups⟩
    simp only [hsome, Option.some.injEq, exists_eq_left', hT s' hu' hon' hlen hsub]
    constructor
    · rintro (hserv | ⟨m, hm, hne, hserv⟩)
      · exact ⟨s'.modelName, hsub _ mem_cons_self, hname, hserv⟩
      · exact ⟨m, hsub _ (mem_cons_of_mem _ hm), hne, hserv⟩
    rintro ⟨m, hm, hne, hserv⟩
    rw [hrem] at hm
    rcases mem_append.1 hm with hm | hm
    · exact absurd (hskip m hm) hne
    rcases mem_cons.1 hm with rfl | hm
    · exact .inl hserv
    · exact .inr ⟨m, hm, hne, hserv⟩

theorem usedUp_tries (hauto : cfg.tokenGroup = "auto") (hgroups : cfg.autoGroups ≠ []) {orig : String} :
    ∀ (k : ℕ) {s : RelayState} {envs : ℕ → RelayEnv}, s.fallback.remaining.length = k → UsedUp cfg s →
      s.fallback.on = true → (∀ i, (envs i).Calm) → (∀ m ∈ s.modelName :: s.fallback.remaining, m ≠ orig) →
      (TriesFallback cfg envs orig s ↔ Serverless cfg s.modelName ∨
        ∃ m ∈ s.fallback.remaining, m ≠ "" ∧ Serverless cfg m) := by
  intro k
  -- the models left get fewer with every round that makes no attempt
  induction k using Nat.strong_induction_on with
  | _ k ih =>
    intro s envs hk hu hon hcalm horig
    rcases usedUp_round hauto hgroups hu (hcalm 0) with ⟨hserv, id, r, hround⟩ | ⟨hno, hround⟩
    · have htries : TriesFallback cfg envs orig s :=
        (triesFallback_iff hround).2 (.inl ⟨_, id, rfl, horig _ mem_cons_self⟩)
      exact ⟨fun _ => .inl hserv, fun _ => htries⟩
    rw [triesFallback_iff hround, advance_exists_iff hu hon (hcalm 0)]
    · simp [hno]
    intro s' hu' hon' hlen hsub
    exact ih _ (hk ▸ hlen) rfl hu' hon' (fun i => hcalm (i + 1)) fun m hm => horig m (mem_cons_of_mem _ (hsub m hm))

/-- On the requested model the loop has not touched the fallback models; after that it is on one of them for good. -/
def OnFallback (fb : FallbackState) : Option RelayState → Prop
  | none => True
  | some s => (s.modelName = fb.orig ∧ s.fallback = fb) ∨
      s.modelName ≠ "" ∧ ∀ m ∈ s.modelName :: s.fallback.remaining, m ∈ fb.models

theorem onFallback_step {fb : FallbackState} (hidx : fb.idx = 0) {o o' : Option RelayState} {l : RoundEvent}
    (h : OnFallback fb o) (hst : LoopStep cfg o l o') : OnFallback fb o' := by
  obtain ⟨s, env, rfl, hround, -⟩ := hst.round
  have hrem : ∀ m ∈ s.fallback.remaining, m ∈ fb.models := by
    rcases h with ⟨-, hfb⟩ | ⟨-, hsub⟩
    · rw [hfb, FallbackState.remaining, hidx]
      simp
    · exact fun m hm => hsub m (mem_cons_of_mem _ hm)
  cases o' with
  | none => trivial
  | some =>
    cases round_continues hround with
    | nextModel hadv => exact .inr ⟨hadv.named, fun m hm => hrem m (hadv.sublist.subset hm)⟩
    | nextChannel _ _ hmodel hfb | retried _ _ hmodel hfb =>
      rw [OnFallback, hmodel, hfb]
      exact h

def Offers (tbl : ChannelTable) (group model requestPath : String) : Prop :=
  tbl.memoryCacheEnabled = true ∧ satisfying tbl group model requestPath ≠ [] ∨
    tbl.memoryCacheEnabled = false ∧ foundAbilities tbl { rand := 0 } group model [] requestPath ≠ []

instance (tbl : ChannelTable) (group model requestPath : String) :
    Decidable (Offers tbl group model requestPath) := inferInstanceAs (Decidable (_ ∨ _))

/-- **A fallback model is tried** after the automatic groups are used up only on a serverless channel. -/
theorem fallback_tried_iff (cfg : RelayConfig) (setting : FallbackSetting) (kind : FallbackKind) (orig : String)
    (group : ℕ) (hauto : cfg.tokenGroup = "auto") {ls : List RoundEvent} {s : RelayState}
    (hrun : Run (LoopStep cfg) (some (.start (newFallbackState setting kind orig) group)) ls (some s))
    (horig : s.modelName = orig) (envs : ℕ → RelayEnv) (hmeta : s.channelMeta = true)
    (hused : (routeChannel cfg (envs 0) s).2 = none) (hcalm : ∀ i, (envs i).Calm)
    (hoffers : ∃ m ∈ (newFallbackState setting kind orig).models, m ≠ "" ∧
      ∃ g ∈ cfg.autoGroups, Offers cfg.table g m cfg.requestPath) :
    TriesFallback cfg envs orig s ↔ ∃ m ∈ (newFallbackState setting kind orig).models, m ≠ "" ∧ Serverless cfg m := by
  set fb := newFallbackState setting kind orig with hfbdef
  obtain ⟨m0, hm0, -, g, hg, -⟩ := hoffers
  have hgroups : cfg.autoGroups ≠ [] := ne_nil_of_mem hg
  have hnew : orig ∉ fb.models := (nodup_cons.1 fb.nodup).1
  have hon : fb.on = true := by
    by_contra hoff
    have hnone : fb.models = [] := if_neg hoff
    rw [hnone] at hm0
    cases hm0
  -- the loop is still on the requested model
  have hfb : s.fallback = fb := by
    rcases hrun.inv (fun _ _ _ h hst => onFallback_step rfl h hst) (.inl ⟨rfl, rfl⟩) with
      ⟨-, hfb⟩ | ⟨-, hsub⟩
    · exact hfb
    · exact absurd (horig ▸ hsub _ mem_cons_self) hnew
  -- its last search has passed every group
  obtain ⟨s1, r, hroute⟩ : ∃ s1 r, routeChannel cfg (envs 0) s = (s1, r) := ⟨_, _, rfl⟩
  obtain rfl : r = none := by rw [hroute] at hused; exact hused
  obtain ⟨hlen, hsel⟩ := routeChannel_none hauto hgroups hroute
  have hu : UsedUp cfg s1 := ⟨hsel.channelMeta.trans hmeta, hlen⟩
  have hfb1 : s1.fallback = fb := hsel.fallback.trans hfb
  have hrem : s1.fallback.remaining = fb.models := by
    rw [hfb1]
    exact drop_zero
  rw [triesFallback_iff (routeChannel_none_round hmeta hroute), advance_exists_iff hu (hfb1 ▸ hon) (hcalm 0), hrem]
  · simp
  intro s' hu' hon' _ hsub
  refine usedUp_tries hauto hgroups _ rfl hu' hon' (fun i => hcalm (i + 1)) fun m hm heq => hnew ?_
  rw [← heq, ← hrem]
  exact hsub m hm

def autoTable : ChannelTable :=
  { plainTable with
    group2model2channels := fun group model =>
      if group = "default" then (if model = "gpt" then [2] else if model = "backup" then [3] else []) else [] }

def autoCfg : RelayConfig :=
  { plainCfg with table := autoTable, tokenGroup := "auto", autoGroups := ["default"] }

def backupSetting : FallbackSetting := ⟨true, fun _ => ["backup"], []⟩

def backupStart : RelayState := .start (newFallbackState backupSetting .chat "gpt") 0

def backupUsed : RelayState := ⟨"gpt", 0, [2], true, 0, newFallbackState backupSetting .chat "gpt"⟩

theorem upstreamDown_calm : upstreamDown.Calm := ⟨rfl, rfl, rfl, fun _ => rfl⟩

def deployedCfg : RelayConfig :=
  { autoCfg with
    serverless := ⟨fun m => if m = "backup" then some "https://deployment.example" else none, fun _ => none, "key"⟩ }

theorem fallback_tried_iff_deployed :
    Offers deployedCfg.table "default" "backup" deployedCfg.requestPath ∧
      TriesFallback deployedCfg (fun _ => upstreamDown) "gpt" backupUsed := by
  have hoffers : Offers deployedCfg.table "default" "backup" deployedCfg.requestPath := by decide
  have hmem : "backup" ∈ (newFallbackState backupSetting .chat "gpt").models := by decide
  have hfirst : LoopStep deployedCfg (some backupStart) ⟨some ("gpt", 2), none⟩ (some backupUsed) :=
    ⟨upstreamDown, rfl, rfl⟩
  refine ⟨hoffers, (fallback_tried_iff deployedCfg backupSetting .chat "gpt" 0 rfl (.cons hfirst (.nil _)) rfl
    (fun _ => upstreamDown) rfl (by decide +kernel) (fun _ => upstreamDown_calm)
    ⟨"backup", hmem, by decide, "default", by decide, hoffers⟩).2 ⟨"backup", hmem, by decide, .inr ?_⟩⟩
  decide

/-- Channel 2 is down, and the group has channel 3 for `backup`: the loop ends without trying it. -/
theorem fallback_not_tried :
    "backup" ∈ (newFallbackState backupSetting .chat "gpt").models ∧
      Offers autoCfg.table "default" "backup" autoCfg.requestPath ∧
      (relayLoop autoCfg 9 (fun _ => upstreamDown) backupStart).2 = none ∧
      (relayLoop autoCfg 9 (fun _ => upstreamDown) backupStart).1.filterMap RoundEvent.attempt = [("gpt", 2)] ∧
      ¬ TriesFallback autoCfg (fun _ => upstreamDown) "gpt" backupStart := by
  refine ⟨by decide, by decide, rfl, rfl, ?_⟩
  have hfirst : relayRound autoCfg upstreamDown backupStart = (some ("gpt", 2), some backupUsed) := rfl
  obtain ⟨s2, hsecond, hthird⟩ : ∃ s2, relayRound autoCfg upstreamDown backupUsed = (none, some s2) ∧
      relayRound autoCfg upstreamDown s2 = (none, none) := ⟨_, rfl, rfl⟩
  have h1 : TriesFallback autoCfg (fun _ => upstreamDown) "gpt" backupStart ↔ _ := triesFallback_iff hfirst
  have h2 : TriesFallback autoCfg (fun _ => upstreamDown) "gpt" backupUsed ↔ _ := triesFallback_iff hsecond
  have h3 : TriesFallback autoCfg (fun _ => upstreamDown) "gpt" s2 ↔ _ := triesFallback_iff hthird
  simp [h1, h2, h3]

end NewApi

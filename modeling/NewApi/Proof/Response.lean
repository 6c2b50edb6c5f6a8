import NewApi.Proof.Fallback
import NewApi.Spec.Response

/-!
# One request, one response

The loop asks whether something was written only before it takes another channel, not before it changes to a fallback
model or retries a specific channel; and it never asks whether the session was settled. So an attempt with an answer
is the last one if its error ends the loop by itself (`Ends`), and if a cross-modality attempt that settles is used
for the reply.
-/

namespace NewApi

open Trace ServeEvent

variable {cfg : RelayConfig} {taken : Bool} {s : ServeState} {before after : List UpstreamAttempt}

theorem relayRound_attempt {env : RelayEnv} {s : RelayState} {a : String × ℕ} {r : Option RelayState}
    (h : relayRound cfg env s = (some a, r)) :
    ∃ s1, s1.fallback = s.fallback ∧ r = env.answer.bind fun err => afterFailure cfg env err s1 := by
  have htry : ∀ {s1 : RelayState} {id : ℕ}, s1.fallback = s.fallback → tryChannel cfg env id s1 = (some a, r) →
      ∃ s1, s1.fallback = s.fallback ∧ r = env.answer.bind fun err => afterFailure cfg env err s1 := by
    intro s1 id hfb htry
    unfold tryChannel at htry
    split_ifs at htry
    · cases htry
    · cases htry
    · exact ⟨{ s1 with ignoredChannelIds := s1.ignoredChannelIds ++ [id], channelMeta := true }, hfb,
        (Prod.mk.inj htry).2.symm⟩
  unfold relayRound at h
  rcases hget : getChannel cfg env s with ⟨s1, res⟩
  rw [hget] at h
  rcases getChannel_cases hget with ⟨-, rfl, rfl⟩ | ⟨-, s2, hsel, hcase⟩
  · exact htry rfl h
  rcases hcase with ⟨rfl, rfl⟩ | ⟨id, -, ⟨rfl, code, rfl⟩ | ⟨rfl, rfl⟩⟩
  · dsimp only at h
    split at h <;> cases h
  · dsimp only at h
    split at h <;> cases h
  · exact htry hsel.fallback h

theorem findModel_none {switchErr : String → Bool} :
    ∀ {models : List String} {i : ℕ}, (∀ m ∈ models, m = "" ∨ switchErr m = true) → findModel switchErr models i = none
  | [], _, _ => rfl
  | cand :: rest, i, h => by
    rw [findModel, if_pos (h cand List.mem_cons_self)]
    exact findModel_none fun m hm => h m (List.mem_cons_of_mem _ hm)

def NoFallback (env : RelayEnv) (s : RelayState) : Prop :=
  s.fallback.on = false ∨ ∀ m ∈ s.fallback.remaining, m = "" ∨ env.switchErr m = true

theorem NoFallback.advance {env : RelayEnv} {s : RelayState} (h : NoFallback env s) :
    advanceFallbackModel env s = none := by
  unfold advanceFallbackModel
  rcases h with hoff | hmodels
  · rw [hoff]
    rfl
  split
  · rfl
  · rw [findModel_none hmodels]
    rfl

/-- The loop ends with the error of an attempt: the client's fault, a specific channel that is not retried, or nothing
else is left to try. -/
def Ends (cfg : RelayConfig) (taken : Bool) (s : RelayState) (env : ServeEnv) (err : NewAPIError) : Prop :=
  isUserFacingNoRetryError err = true ∨
  (cfg.specificChannel = true ∧ (env.relay.affinitySkip = true ∨ err.code.isChannel = false ∨ cfg.retryTimes ≤ 0)) ∨
  (cfg.specificChannel = false ∧ NoFallback env.relay s ∧ (taken = true ∨ env.writes = true ∨
      env.relay.affinitySkip = true ∧ (err.statusCode = 400 → cfg.chatCompletions = true → env.hasPrompt = false)))

theorem Ends.last {env : ServeEnv} {err : NewAPIError} {r s1 : RelayState} {written : Bool}
    (h : Ends cfg taken r env err) (hw : env.writes = true → written = true) (hfb : s1.fallback = r.fallback)
    (hans : env.relay.answer = some err) (model : String) (channel : ℕ) :
    crossAttempts cfg taken written env model channel = [] ∧
      afterFailure cfg (env.seen taken written) err s1 = none := by
  have hcross : crossAttempts cfg taken written env model channel =
      if reachesCrossModality cfg (env.seen taken written) err then
        crossModalityAttempts env (taken || written) model channel else [] := by
    rw [crossAttempts, hans]
  rw [hcross]
  rcases h with huser | ⟨hspec, hno⟩ | ⟨hspec, hfall, hquiet⟩
  · simp [reachesCrossModality, afterFailure, huser]
  · -- a specific channel that is not retried
    have hother : shouldRetryOtherChannel cfg (env.seen taken written) err = false := by
      simp [shouldRetryOtherChannel, hspec]
    refine ⟨by simp [reachesCrossModality, hspec], ?_⟩
    simp only [afterFailure, hother, hspec, Bool.not_true, Bool.false_eq_true, if_false]
    rcases hno with hskip | hcode | hretry
    · simp [shouldRetry, ServeEnv.seen, hskip]
    · simp [shouldRetry, hcode]
    · have : cfg.retryTimes ≤ s1.retry := hretry.trans (Int.natCast_nonneg _)
      simp [this]
  · have hadv : advanceFallbackModel (env.seen taken written) s1 = none := by
      apply NoFallback.advance
      unfold NoFallback FallbackState.remaining
      rw [hfb]
      exact hfall
    have hother : shouldRetryOtherChannel cfg (env.seen taken written) err = false := by
      rcases hquiet with ht | hwr | ⟨hskip, -⟩
      · simp [shouldRetryOtherChannel, ServeEnv.seen, ht]
      · simp [shouldRetryOtherChannel, ServeEnv.seen, hw hwr]
      · simp [shouldRetryOtherChannel, ServeEnv.seen, hskip]
    constructor
    · split_ifs with hreach
      · -- nothing is tried once something was written, or without a text
        rcases hquiet with ht | hwr | ⟨-, hprompt⟩
        · simp [crossModalityAttempts, ht]
        · simp [crossModalityAttempts, hw hwr]
        · simp only [reachesCrossModality, Bool.and_eq_true, decide_eq_true_eq] at hreach
          simp [crossModalityAttempts, hprompt hreach.1.2 hreach.2]
      · rfl
    · simp [afterFailure, hother, hspec, hadv]

/-- An attempt that writes or settles, and fails, ends the loop, and a cross-modality attempt that settles is used for
the reply. -/
def Final (cfg : RelayConfig) (taken : Bool) (o : Option ServeState) (e : ServeEvent) : Prop :=
  ∀ s, o = some s → ((e.env.writes || e.env.settles) = true → ∀ err, e.env.relay.answer = some err →
      Ends cfg taken s.relay e.env err) ∧
    (e.env.image.settles = true → e.env.image.answered = true) ∧
    (e.env.speech.settles = true → e.env.speech.answered = true)

def OneResponse (attempts : List UpstreamAttempt) : Prop :=
  ∀ before a after, attempts = before ++ a :: after → a.delivers = true → after = []

theorem eq_of_singleton {x a : UpstreamAttempt}
    (h : [x] = before ++ a :: after) : x = a ∧ before = [] ∧ after = [] := by
  cases before with
  | nil => simpa [eq_comm] using h
  | cons => simp at h

theorem crossAttempts_last {env : ServeEnv} {written : Bool} {model : String} {channel : ℕ} {s1 : RelayState}
    {err : NewAPIError} (hans : env.relay.answer = some err)
    (himage : env.image.settles = true → env.image.answered = true)
    (hspeech : env.speech.settles = true → env.speech.answered = true)
    {a : UpstreamAttempt} (h : crossAttempts cfg taken written env model channel = before ++ a :: after)
    (hd : a.delivers = true) :
    after = [] ∧ afterFailure cfg (env.seen taken written) err s1 = none := by
  rw [crossAttempts, hans] at h
  dsimp only at h
  split at h
  swap
  · cases before <;> cases h
  rename_i hreach
  unfold crossModalityAttempts at h
  split at h
  · cases before <;> cases h
  rename_i htry
  simp only [Bool.or_eq_true, Bool.not_eq_true', not_or, Bool.not_eq_true, Bool.not_eq_false] at htry
  -- an answer ends the loop
  have hnext : env.image.answered = true ∨ env.speech.answered = true →
      afterFailure cfg (env.seen taken written) err s1 = none := by
    intro hanswered
    simp only [reachesCrossModality, Bool.and_eq_true, Bool.not_eq_true', decide_eq_true_eq] at hreach
    obtain ⟨⟨⟨⟨huser, hother⟩, hspec⟩, hstatus⟩, hchat⟩ := hreach
    have hcross : (env.seen taken written).crossModality = true := by
      rcases hanswered with h | h <;> simp [ServeEnv.seen, tryCrossModalityFallback, htry, h]
    simp [afterFailure, huser, hother, hspec, hstatus, hchat, hcross]
  cases before with
  | nil =>
    obtain ⟨rfl, hrest⟩ := List.cons.inj h
    have hanswered : env.image.answered = true := himage (by simpa [UpstreamAttempt.delivers] using hd)
    rw [if_pos hanswered] at hrest
    exact ⟨hrest.symm, hnext (.inl hanswered)⟩
  | cons =>
    have hrest := (List.cons.inj h).2
    split at hrest
    · simp at hrest
    obtain ⟨rfl, -, hafter⟩ := eq_of_singleton hrest
    have hsettles : env.speech.settles = true := by simpa [UpstreamAttempt.delivers] using hd
    exact ⟨hafter, hnext (.inr (hspeech hsettles))⟩

theorem serveStep_last {o o' : Option ServeState} {e : ServeEvent} (hst : ServeStep cfg taken o e o')
    (hfinal : Final cfg taken o e) {a : UpstreamAttempt}
    (h : e.attempts = before ++ a :: after) (hd : a.delivers = true) : after = [] ∧ o' = none := by
  obtain ⟨s, rfl, hround⟩ := hst
  obtain ⟨hmain, himage, hspeech⟩ := hfinal s rfl
  obtain ⟨attempt, next, hr⟩ : ∃ attempt next,
      relayRound cfg (e.env.seen taken (s.written || e.env.writes)) s.relay = (attempt, next) := ⟨_, _, rfl⟩
  simp only [serveRound, hr] at hround
  cases attempt with
  | none =>
    -- no attempt was made
    have hnil := (Prod.mk.inj hround).1
    rw [h] at hnil
    simp at hnil
  | some attempt =>
    obtain ⟨model, channel⟩ := attempt
    obtain ⟨hattempts, rfl⟩ := Prod.mk.inj hround
    obtain ⟨s1, hfb, rfl⟩ := relayRound_attempt hr
    rw [h] at hattempts
    have hseen : (e.env.seen taken (s.written || e.env.writes)).answer = e.env.relay.answer := rfl
    rw [hseen]
    cases hans : e.env.relay.answer with
    | none =>
      have hcross : crossAttempts cfg taken (s.written || e.env.writes) e.env model channel = [] := by
        rw [crossAttempts, hans]
      rw [hcross] at hattempts
      exact ⟨(eq_of_singleton hattempts).2.2, rfl⟩
    | some err =>
      rw [Option.bind_some]
      cases before with
      | nil =>
        obtain ⟨rfl, hafter⟩ := List.cons.inj hattempts
        have hwritten : e.env.writes = true → (s.written || e.env.writes) = true := by
          intro hw
          rw [hw, Bool.or_true]
        obtain ⟨hcross, hend⟩ := (hmain hd err hans).last hwritten hfb hans model channel
        rw [hend]
        exact ⟨hafter.symm.trans hcross, rfl⟩
      | cons =>
        obtain ⟨hafter, hend⟩ := crossAttempts_last hans himage hspeech (List.cons.inj hattempts).2 hd
        rw [hend]
        exact ⟨hafter, rfl⟩

theorem run_ended {C : Option ServeState → ServeEvent → Prop} {es : List ServeEvent} {o : Option ServeState}
    (h : Run (within (ServeStep cfg taken) C) none es o) : es = [] := by
  cases h with
  | nil => rfl
  | cons hst =>
    obtain ⟨s, hs, -⟩ := hst.1
    cases hs

/-- **One response**: no attempt follows one that has written or settled, if the rounds are final in this sense. -/
theorem one_response (cfg : RelayConfig) (taken : Bool) (fb : FallbackState) (group : ℕ) {es : List ServeEvent}
    {o : Option ServeState}
    (h : Run (within (ServeStep cfg taken) (Final cfg taken)) (some (.start fb group)) es o) :
    OneResponse (es.flatMap attempts) := by
  generalize some (ServeState.start fb group) = o0 at h
  induction h with
  | nil =>
    intro before a after h
    simp at h
  | @cons o1 o2 o3 e es hst hrest ih =>
    intro before a after h hd
    rw [List.flatMap_cons, List.append_eq_append_iff] at h
    rcases h with ⟨skipped, rfl, hin⟩ | ⟨mine, hmine, hin⟩
    · exact ih skipped a after hin hd
    cases mine with
    | nil => exact ih [] a after hin.symm hd
    | cons =>
      -- the attempt is one of this round, after which there is no other
      obtain ⟨rfl, rfl⟩ := List.cons.inj hin
      obtain ⟨hlast, rfl⟩ := serveStep_last hst.1 hst.2 hmine hd
      rw [hlast, run_ended hrest]
      rfl

def brokenStream : ServeEnv := { relay := upstreamDown, writes := true }

def served : ServeEnv := { relay := { answer := none }, writes := true, settles := true }

theorem one_response_served :
    ∃ es o, Run (within (ServeStep plainCfg false) (Final plainCfg false))
        (some (.start (newFallbackState backupSetting .chat "gpt") 0)) es o ∧
      es.flatMap attempts = [⟨.relay, "gpt", 2, false, false⟩, ⟨.relay, "gpt", 3, true, true⟩] ∧
      OneResponse (es.flatMap attempts) := by
  have hquiet : ∀ o as, Final plainCfg false o ⟨{ relay := upstreamDown }, as⟩ := by
    intro o as s _
    refine ⟨fun h => ?_, fun h => ?_, fun h => ?_⟩ <;> cases h
  have hlast : ∀ o as, Final plainCfg false o ⟨served, as⟩ := by
    intro o as s _
    refine ⟨fun _ err h => ?_, fun h => ?_, fun h => ?_⟩ <;> cases h
  obtain ⟨s1, hfirst⟩ : ∃ s1, serveRound plainCfg false { relay := upstreamDown }
      (.start (newFallbackState backupSetting .chat "gpt") 0) = ([⟨.relay, "gpt", 2, false, false⟩], some s1) ∧
      serveRound plainCfg false served s1 = ([⟨.relay, "gpt", 3, true, true⟩], none) := ⟨_, rfl, rfl⟩
  have hrun : Run (within (ServeStep plainCfg false) (Final plainCfg false))
      (some (.start (newFallbackState backupSetting .chat "gpt") 0))
      [⟨{ relay := upstreamDown }, [⟨.relay, "gpt", 2, false, false⟩]⟩,
        ⟨served, [⟨.relay, "gpt", 3, true, true⟩]⟩] none :=
    .cons ⟨⟨_, rfl, hfirst.1⟩, hquiet _ _⟩ (.cons ⟨⟨_, rfl, hfirst.2⟩, hlast _ _⟩ (.nil _))
  exact ⟨_, _, hrun, rfl, one_response plainCfg false _ 0 hrun⟩

/-- A stream of `gpt` breaks off when the client has part of it, and the request goes to `backup`. -/
theorem second_response :
    ∃ es o, Run (ServeStep plainCfg false) (some (.start (newFallbackState backupSetting .chat "gpt") 0)) es o ∧
      es.flatMap attempts = [⟨.relay, "gpt", 2, true, false⟩, ⟨.relay, "backup", 2, true, true⟩] ∧
      ¬ OneResponse (es.flatMap attempts) := by
  obtain ⟨s1, hfirst, hsecond⟩ : ∃ s1, serveRound plainCfg false brokenStream
      (.start (newFallbackState backupSetting .chat "gpt") 0) = ([⟨.relay, "gpt", 2, true, false⟩], some s1) ∧
      serveRound plainCfg false served s1 = ([⟨.relay, "backup", 2, true, true⟩], none) := ⟨_, rfl, rfl⟩
  have hrun : Run (ServeStep plainCfg false) (some (.start (newFallbackState backupSetting .chat "gpt") 0))
      [⟨brokenStream, [⟨.relay, "gpt", 2, true, false⟩]⟩, ⟨served, [⟨.relay, "backup", 2, true, true⟩]⟩] none :=
    .cons ⟨_, rfl, hfirst⟩ (.cons ⟨_, rfl, hsecond⟩ (.nil _))
  refine ⟨_, _, hrun, rfl, fun hone => ?_⟩
  have hnone := hone [] _ _ rfl rfl
  cases hnone

end NewApi

import NewApi.Proof.Fallback
import NewApi.Spec.Distribute

/-!
# The models of an API token

`Distribute` compares the requested name with the models of the token, once. The loop of `Relay` then runs under other
names: without the tags, the fallback models, all enabled models, and the name of a Gemini request without thinking.
So the list holds only if it contains every name that the loop can come to (`attempts_allowed_iff`).
-/

namespace NewApi

open Trace List

variable {cfg : RelayConfig} {envs : ℕ → RelayEnv} {fb : FallbackState} {group : ℕ} {m : String}

theorem attempt_model (hidx : fb.idx = 0) {n : ℕ} {l : RoundEvent} {id : ℕ}
    (hl : l ∈ (relayLoop cfg n envs (.start fb group)).1) (hatt : l.attempt = some (m, id)) :
    m = fb.orig ∨ m ∈ fb.models ∧ m ≠ "" := by
  have hrun := relayLoop_run cfg n envs (.start fb group)
  have hstep : ∀ o l o', OnFallback fb o → LoopStep cfg o l o' →
      OnFallback fb o' ∧ ∀ m id, l.attempt = some (m, id) → m = fb.orig ∨ m ∈ fb.models ∧ m ≠ "" := by
    intro o l o' hon hst
    refine ⟨onFallback_step hidx hon hst, fun m id hatt => ?_⟩
    obtain ⟨s, env, rfl, hround, -⟩ := hst.round
    rw [hatt] at hround
    have hm := (round_attempt (congrArg Prod.fst hround)).1
    rcases hon with ⟨horig, -⟩ | ⟨hname, hsub⟩
    · exact .inl (hm.trans horig)
    · rw [hm]
      exact .inr ⟨hsub _ mem_cons_self, hname⟩
  exact hrun.each hstep (.inl ⟨rfl, rfl⟩) l hl m id hatt

theorem orig_attempted (cfg : RelayConfig) (fb : FallbackState) (group : ℕ) :
    ∃ envs n, ∃ l ∈ (relayLoop cfg n envs (.start fb group)).1, ∃ id, l.attempt = some (fb.orig, id) :=
  ⟨fun _ => { answer := none }, 1, ⟨some (fb.orig, cfg.contextChannel), none⟩, mem_cons_self, cfg.contextChannel, rfl⟩

theorem findModel_only (hname : m ≠ "") :
    ∀ {models : List String} {i : ℕ}, m ∈ models → ∃ j, findModel (fun x => !decide (x = m)) models i = some (m, j)
  | cand :: rest, i, hm => by
    unfold findModel
    by_cases hcand : cand = m
    · subst hcand
      exact ⟨i + 1, by simp [hname]⟩
    have hrest := (mem_cons.1 hm).resolve_left (Ne.symm hcand)
    obtain ⟨j, hj⟩ := findModel_only hname (i := i + 1) hrest
    exact ⟨j, by simp [hcand, hj]⟩

/-- **Every fallback model can be attempted**, after a billing error in the first round. -/
theorem fallback_attempted (cfg : RelayConfig) (group : ℕ) (hon : fb.on = true) (hidx : fb.idx = 0)
    (hm : m ∈ fb.models) (hname : m ≠ "") :
    ∃ envs n, ∃ l ∈ (relayLoop cfg n envs (.start fb group)).1, ∃ id, l.attempt = some (m, id) := by
  let first : RelayEnv := { billingErr := true, answer := none, switchErr := fun x => !decide (x = m) }
  let envs : ℕ → RelayEnv := fun k => if k = 0 then first else { answer := none }
  have hrem : fb.remaining = fb.models := by rw [FallbackState.remaining, hidx, drop_zero]
  obtain ⟨j, hfind⟩ := findModel_only hname (i := fb.idx) hm
  let s' : RelayState := ⟨m, 0, [], false, group, { fb with idx := j }⟩
  have hround : relayRound cfg first (.start fb group) = (none, some s') := by
    have hadv : ∀ ignored, advanceFallbackModel first { RelayState.start fb group with
        ignoredChannelIds := ignored } = some s' := by
      intro ignored
      simp only [advanceFallbackModel, RelayState.start, hon, hrem]
      simp [first, hfind, s', hon]
    exact Prod.ext rfl (hadv _)
  refine ⟨envs, 2, ⟨some (m, cfg.contextChannel), none⟩, ?_, cfg.contextChannel, rfl⟩
  rw [relayLoop]
  simp only [show envs 0 = first from rfl, hround]
  exact mem_cons_of_mem _ mem_cons_self

/-- **A token is served only by its models** iff the requested model, when served under another name, and all named
fallback models are among them. -/
theorem attempts_allowed_iff (cfg : RelayConfig) (req : DistributeRequest) (nt : NoThinking)
    (setting : FallbackSetting) (kind : FallbackKind) {env : RelayEnv} {channel group : ℕ}
    (hpin : req.specificChannel = none) (hdist : distribute cfg env req = some (channel, group)) :
    (∀ envs n, ∀ l ∈ (relayLoop (relayConfig cfg req channel) n envs
        (.start (newFallbackState setting kind (parseModelTagRouting req.model).base) group)).1,
      ∀ m id, l.attempt = some (m, id) → req.allows (nt.originModelName m) = true) ↔
    (nt.originModelName (parseModelTagRouting req.model).base ≠ req.model →
        req.allows (nt.originModelName (parseModelTagRouting req.model).base) = true) ∧
      ∀ m ∈ (newFallbackState setting kind (parseModelTagRouting req.model).base).models, m ≠ "" →
        req.allows (nt.originModelName m) = true := by
  set fb := newFallbackState setting kind (parseModelTagRouting req.model).base
  have hrequested : req.allows req.model = true := by
    unfold distribute at hdist
    rw [hpin] at hdist
    dsimp only at hdist
    split_ifs at hdist with hallowed
    · simpa using hallowed
  constructor
  · intro hall
    refine ⟨fun _ => ?_, fun m hm hname => ?_⟩
    · obtain ⟨envs, n, l, hl, id, hatt⟩ := orig_attempted (relayConfig cfg req channel) fb group
      exact hall envs n l hl _ id hatt
    have hon : fb.on = true := by
      by_contra hoff
      have hnone : fb.models = [] := if_neg hoff
      rw [hnone] at hm
      cases hm
    obtain ⟨envs, n, l, hl, id, hatt⟩ := fallback_attempted (relayConfig cfg req channel) group hon rfl hm hname
    exact hall envs n l hl m id hatt
  · rintro ⟨hbase, hmodels⟩ envs n l hl m id hatt
    rcases attempt_model rfl hl hatt with rfl | ⟨hm, hname⟩
    · show req.allows (nt.originModelName (parseModelTagRouting req.model).base) = true
      by_cases hsame : nt.originModelName (parseModelTagRouting req.model).base = req.model
      · rw [hsame]
        exact hrequested
      · exact hbase hsame
    · exact hmodels m hm hname

def gptToken (models : String) : DistributeRequest := ⟨"gpt", some models, none, none, false⟩

def thinking : NoThinking := ⟨false, fun _ => false⟩

def toBackup : FallbackSetting := ⟨true, fun _ => [], ["backup"]⟩

theorem attempts_allowed_iff_gpt :
    let req := gptToken "gpt,backup"
    distribute plainCfg upstreamDown req = some (2, 0) ∧
      ∀ envs n, ∀ l ∈ (relayLoop (relayConfig plainCfg req 2) n envs
          (.start (newFallbackState toBackup .chat (parseModelTagRouting "gpt").base) 0)).1,
        ∀ m id, l.attempt = some (m, id) → req.allows (thinking.originModelName m) = true := by
  intro req
  have hdist : distribute plainCfg upstreamDown req = some (2, 0) := by decide +kernel
  refine ⟨hdist, (attempts_allowed_iff plainCfg req thinking toBackup .chat rfl hdist).2 ⟨?_, ?_⟩⟩
  · intro hother
    exact absurd (by decide +kernel) hother
  · decide +kernel

/-- With the model `backup` enabled, a request that fails on both channels of `gpt` goes to it. -/
theorem other_model_attempted :
    let req := gptToken "gpt"
    distribute plainCfg upstreamDown req = some (2, 0) ∧ req.allows (thinking.originModelName "backup") = false ∧
      ((relayLoop (relayConfig plainCfg req 2) 9 (fun _ => upstreamDown)
        (.start (newFallbackState toBackup .chat (parseModelTagRouting "gpt").base) 0)).1.filterMap
          RoundEvent.attempt) = [("gpt", 2), ("gpt", 3), ("backup", 2), ("backup", 3)] := by
  refine ⟨by decide +kernel, by decide +kernel, by decide +kernel⟩

end NewApi

import NewApi.Spec.ByogHub

/-!
# Reconnects and bans

A tunnel that ends takes out of the hub whatever session is stored for its node, so the end of an old connection
removes the session of a new one (`old_tunnel_removes_new`). If a tunnel only ends while the session of the node is
its own, and none registers while another is on its way out, the last session stays in the hub (`TunnelInv`,
`reconnected_stays`).

A ban is the status of the row, which the ban itself, every later registration and every heartbeat overwrite.
`banned_stays_iff` says when nothing does.
-/

namespace NewApi

open Trace Function HubState List Option HubCall NodeRow NodeStatus ByogState

section Tunnels

variable {ι : Type} [DecidableEq ι] {nodeOf : ι → String} {i j t : ι} {e : TunnelEnv} {p p' : TunnelPhase ι}
variable {m m' : HubState ι} {n : String}

namespace TunnelPhase

def serves : TunnelPhase ι → Bool
  | .serving | .beating _ => true
  | _ => false

def live : TunnelPhase ι → Bool
  | .stored | .serving | .beating _ | .ended => true
  | _ => false

def leaving : TunnelPhase ι → Bool
  | .removing _ | .closing => true
  | _ => false

end TunnelPhase

/-- The session is open as long as its tunnel is, and a tunnel removes its own. -/
def TunnelFits (i : ι) (m : HubState ι) : TunnelPhase ι → Prop
  | .connected | .stored | .serving | .ended => (m.session i).closed = false
  | .beating row => (m.session i).closed = false ∧ row.status ≠ .offline
  | .removing t => t = i
  | .idle | .closing | .done => True

def HubState.status (n : String) (m : HubState ι) : Option NodeStatus := (m.rows n).map fun row => row.status

omit [DecidableEq ι] in
theorem HubState.status_updateRow {k : String} (f : NodeRow → NodeRow) (m : HubState ι) :
    (m.updateRow n f).status k = if k = n then (m.rows n).map fun row => (f row).status else m.status k := by
  unfold HubState.status HubState.updateRow
  by_cases hk : k = n
  · subst hk
    simp only [update_self, Option.map_map, if_true]
    rfl
  · simp [update_of_ne hk, if_neg hk]

inductive TunnelStep (nodeOf : ι → String) (i : ι) (e : TunnelEnv) (m : HubState ι) :
    TunnelPhase ι → TunnelPhase ι → HubState ι → Prop
  | refused : TunnelStep nodeOf i e m .idle .done m
  | connected {row} (hrow : m.rows (nodeOf i) = some row) :
      TunnelStep nodeOf i e m .idle .connected (m.updateSession i fun _ => .ofRow row)
  | stored : TunnelStep nodeOf i e m .connected .stored (m.store nodeOf i)
  | registered {m' : HubState ι} (hm' : m' = m ∧ e.fails = true ∨ m' = m.markOnline (nodeOf i) e.now) :
      TunnelStep nodeOf i e m .stored .serving m'
  | read : TunnelStep nodeOf i e m .serving .serving m
  | beating {p' : TunnelPhase ι} {f} (hf : ∀ session, (f session).closed = session.closed)
      (hp' : p' = .serving ∨ ∃ row telemetry now, p' = .beating (heartbeat telemetry now row)) :
      TunnelStep nodeOf i e m .serving p' (m.updateSession i f)
  | saved {row m'}
      (hm' : m' = m ∨ m' = { m with rows := Function.update m.rows (nodeOf i) (some row) }) :
      TunnelStep nodeOf i e m (.beating row) .serving m'
  | ended : TunnelStep nodeOf i e m .serving .ended m
  | absent (hnone : m.stored (nodeOf i) = none) : TunnelStep nodeOf i e m .ended .done m
  | removing {s} (hsome : m.stored (nodeOf i) = some s) :
      TunnelStep nodeOf i e m .ended (.removing s) (m.delete (nodeOf i))
  | closing {s} : TunnelStep nodeOf i e m (.removing s) .closing (m.closeSession s)
  | gone {m' : HubState ι} (hm' : m' = m ∨ m' = m.markOffline (nodeOf i)) :
      TunnelStep nodeOf i e m .closing .done m'

theorem tunnelStmt_step (h : tunnelStmt nodeOf i e p m = some (p', m')) : TunnelStep nodeOf i e m p p' m' := by
  cases p with
  | idle =>
    simp only [tunnelStmt] at h
    split at h
    · cases h
      exact .refused
    split at h
    · cases h
      exact .refused
    rename_i hrow
    cases h
    exact .connected hrow
  | connected =>
    cases h
    exact .stored
  | stored =>
    cases h
    cases hfails : e.fails with
    | true => exact .registered (.inl ⟨rfl, hfails⟩)
    | false => exact .registered (.inr rfl)
  | serving =>
    simp only [tunnelStmt] at h
    split at h
    · cases h
      exact .ended
    split at h
    · cases h
      exact .ended
    · cases h
      exact .read
    · cases h
      exact .read
    rename_i telemetry hframe
    cases h
    refine .beating (fun _ => rfl) ?_
    cases (if e.fails then none else m.rows (nodeOf i) : Option NodeRow) with
    | none => exact .inl rfl
    | some row => exact .inr ⟨row, telemetry, e.now, rfl⟩
  | beating =>
    cases h
    cases e.fails with
    | true => exact .saved (.inl rfl)
    | false => exact .saved (.inr rfl)
  | ended =>
    simp only [tunnelStmt] at h
    split at h
    · rename_i hnone
      cases h
      exact .absent hnone
    rename_i s hsome
    cases h
    exact .removing hsome
  | removing =>
    cases h
    exact .closing
  | closing =>
    cases h
    cases e.fails with
    | true => exact .gone (.inl rfl)
    | false => exact .gone (.inr rfl)
  | done => cases h

theorem NodeRow.heartbeat_status (telemetry : Telemetry) (now : ℤ) (row : NodeRow) :
    (row.heartbeat telemetry now).status ≠ .offline ∧ (row.heartbeat telemetry now).status ≠ .banned := by
  have hreported : telemetry.status ≠ .offline ∧ telemetry.status ≠ .banned := by
    unfold Telemetry.status
    split
    · decide
    split <;> decide
  have hthrottled : throttled ≠ .offline ∧ throttled ≠ .banned := by decide
  have hpaused : paused ≠ .offline ∧ paused ≠ .banned := by decide
  unfold heartbeat
  simp only
  split_ifs
  · exact hthrottled
  · exact hpaused
  · exact hreported

namespace TunnelStep

variable (h : TunnelStep nodeOf i e m p p' m')
include h

theorem stored_cases : m'.stored = m.stored ∨
    (p = .connected ∧ p' = .stored ∧ m'.stored = update m.stored (nodeOf i) (some i)) ∨
    (p = .ended ∧ ∃ s, p' = .removing s ∧ m.stored (nodeOf i) = some s ∧
      m'.stored = update m.stored (nodeOf i) none) := by
  cases h with
  | stored => exact .inr (.inl ⟨rfl, rfl, rfl⟩)
  | removing hsome => exact .inr (.inr ⟨rfl, _, rfl, hsome, rfl⟩)
  | registered hm' => rcases hm' with ⟨rfl, -⟩ | rfl <;> exact .inl rfl
  | saved hm' | gone hm' => rcases hm' with rfl | rfl <;> exact .inl rfl
  | refused | connected | read | beating | ended | absent | closing => exact .inl rfl

theorem live_before (hlive : p'.live = true) : p.live = true ∨ p = .connected ∧ p' = .stored := by
  cases h with
  | stored => exact .inr ⟨rfl, rfl⟩
  | registered | read | beating | saved | ended => exact .inl rfl
  | refused | connected | absent | removing | closing | gone => cases hlive

theorem leaving_before (hleaving : p'.leaving = true) : p.leaving = true ∨ p = .ended ∧ ∃ t, p' = .removing t := by
  cases h with
  | removing => exact .inr ⟨rfl, _, rfl⟩
  | closing => exact .inl rfl
  | beating hf hp' => rcases hp' with rfl | ⟨row, telemetry, now, rfl⟩ <;> cases hleaving
  | refused | connected | stored | registered | read | saved | ended | absent | gone => cases hleaving

theorem fits (hfit : TunnelFits i m p) (hown : ∀ t, p = .ended → m.stored (nodeOf i) = some t → t = i) :
    TunnelFits i m' p' := by
  cases h with
  | connected => simp [TunnelFits, updateSession, NodeSession.ofRow]
  | registered hm' => rcases hm' with ⟨rfl, -⟩ | rfl <;> exact hfit
  | @beating _ f hf hp' =>
    have hopen : ((m.updateSession i f).session i).closed = false := by
      simp only [updateSession, update_self, hf]
      exact hfit
    rcases hp' with rfl | ⟨row, telemetry, now, rfl⟩
    · exact hopen
    · exact ⟨hopen, (heartbeat_status telemetry now row).1⟩
  | saved hm' => rcases hm' with rfl | rfl <;> exact hfit.1
  | removing hsome => exact hown _ rfl hsome
  | stored | read | ended => exact hfit
  | refused | absent | closing | gone => trivial

theorem fits_other (hfit : TunnelFits i m p) (hne : j ≠ i) {q : TunnelPhase ι} (hq : TunnelFits j m q) :
    TunnelFits j m' q := by
  have hsame : (m'.session j).closed = (m.session j).closed := by
    cases h with
    | connected | beating => simp [updateSession, update_of_ne hne]
    | closing =>
      obtain rfl := hfit
      simp [closeSession, updateSession, update_of_ne hne]
    | registered hm' => rcases hm' with ⟨rfl, -⟩ | rfl <;> rfl
    | saved hm' | gone hm' => rcases hm' with rfl | rfl <;> rfl
    | refused | stored | read | ended | absent | removing => rfl
  cases q with
  | connected | stored | serving | ended => exact hsame.trans hq
  | beating => exact ⟨hsame.trans hq.1, hq.2⟩
  | removing => exact hq
  | idle | closing | done => trivial

theorem offline_before (hfit : TunnelFits i m p) (hoffline : m'.status n = some .offline) :
    m.status n = some .offline ∨ p = .closing ∧ n = nodeOf i := by
  cases h with
  | registered hm' =>
    rcases hm' with ⟨rfl, -⟩ | rfl
    · exact .inl hoffline
    rw [markOnline, status_updateRow] at hoffline
    split at hoffline
    · obtain ⟨row, -, hstatus⟩ := map_eq_some_iff.1 hoffline
      cases hstatus
    · exact .inl hoffline
  | @saved row m' hm' =>
    rcases hm' with rfl | rfl
    · exact .inl hoffline
    by_cases hn : n = nodeOf i
    · subst hn
      simp only [HubState.status, update_self, map_some, some.injEq] at hoffline
      exact absurd hoffline hfit.2
    · simp only [HubState.status, update_of_ne hn] at hoffline
      exact .inl hoffline
  | gone hm' =>
    rcases hm' with rfl | rfl
    · exact .inl hoffline
    rw [markOffline, status_updateRow] at hoffline
    split_ifs at hoffline with hn
    · exact .inr ⟨rfl, hn⟩
    · exact .inl hoffline
  | refused | connected | stored | read | beating | ended | absent | removing | closing => exact .inl hoffline

theorem registered_status (hp : p = .stored) (hwrites : e.fails = false) : m'.status (nodeOf i) ≠ some .offline := by
  cases h with
  | registered hm' =>
    rcases hm' with ⟨-, hfails⟩ | rfl
    · rw [hwrites] at hfails
      cases hfails
    rw [markOnline, status_updateRow, if_pos rfl]
    intro hoffline
    obtain ⟨row, -, hstatus⟩ := map_eq_some_iff.1 hoffline
    cases hstatus
  | refused | connected | stored | read | beating | saved | ended | absent | removing | closing | gone => cases hp

end TunnelStep

section Runs

variable {s s' : Shared ι (TunnelPhase ι) (HubState ι)} {last : String → Option ι}

abbrev TunnelMove (ι : Type) : Type :=
  Shared ι (TunnelPhase ι) (HubState ι) × SharedEvent ι TunnelEnv Empty × Shared ι (TunnelPhase ι) (HubState ι)

def registers (nodeOf : ι → String) (last : String → Option ι) (mv : TunnelMove ι) : String → Option ι :=
  match mv.2.1 with
  | .call i _ => if mv.1.phase i = .connected then Function.update last (nodeOf i) (some i) else last
  | .env _ => last

/-- A tunnel ends only while no other session is stored for its node, registers only while no other one of its node is
on its way out, and marks the node online. -/
def TunnelCareful (nodeOf : ι → String) (s : Shared ι (TunnelPhase ι) (HubState ι)) :
    SharedEvent ι TunnelEnv Empty → Prop
  | .call i e =>
    match s.phase i with
    | .connected => ∀ j, nodeOf j = nodeOf i → (s.phase j).leaving = false
    | .stored => e.fails = false
    | .ended => ∀ t, s.mem.stored (nodeOf i) = some t → t = i
    | _ => True
  | .env _ => True

structure TunnelInv (nodeOf : ι → String) (s : Shared ι (TunnelPhase ι) (HubState ι)) (last : String → Option ι) :
    Prop where
  node : ∀ n i, last n = some i → nodeOf i = n
  kept : ∀ n i, last n = some i → (s.phase i).live = true → s.mem.stored n = some i
  fits : ∀ i, TunnelFits i s.mem (s.phase i)
  alone : ∀ n i j, last n = some i → (s.phase i).live = true → nodeOf j = n → (s.phase j).leaving = false
  status : ∀ n i, last n = some i → (s.phase i).live = true → s.phase i ≠ .stored → s.mem.status n ≠ some .offline

omit [DecidableEq ι] in
theorem TunnelCareful.own (h : TunnelCareful nodeOf s (.call i e)) (hp : s.phase i = .ended)
    (hsome : s.mem.stored (nodeOf i) = some t) : t = i := by
  simp only [TunnelCareful, hp] at h
  exact h t hsome

namespace TunnelInv

variable (h : TunnelInv nodeOf s last) (hstep : TunnelStep nodeOf i e s.mem (s.phase i) p' m')
  (hcareful : TunnelCareful nodeOf s (.call i e))

include h hstep hcareful

section Last

variable {k : ι}
  (hlast : (if s.phase i = .connected then update last (nodeOf i) (some i) else last) n = some k)
  (hlive : (update s.phase i p' k).live = true)

include hlast hlive

theorem live_call : (last n = some k ∧ (s.phase k).live = true ∧ (s.phase i = .connected → n ≠ nodeOf i)) ∨
      (k = i ∧ n = nodeOf i ∧ s.phase i = .connected ∧ p' = .stored) := by
  split_ifs at hlast with hconnected
  · have hstored : p' = .stored := by
      rw [hconnected] at hstep
      cases hstep
      rfl
    by_cases hn : n = nodeOf i
    · subst hn
      rw [update_self] at hlast
      exact .inr ⟨(some.inj hlast).symm, rfl, hconnected, hstored⟩
    rw [update_of_ne hn] at hlast
    have hk : k ≠ i := by
      rintro rfl
      exact hn (h.node n k hlast).symm
    rw [update_of_ne hk] at hlive
    exact .inl ⟨hlast, hlive, fun _ => hn⟩
  · refine .inl ⟨hlast, ?_, fun hp => absurd hp hconnected⟩
    by_cases hk : k = i
    · subst hk
      rw [update_self] at hlive
      rcases hstep.live_before hlive with hbefore | ⟨hp, -⟩
      · exact hbefore
      · exact absurd hp hconnected
    · rwa [update_of_ne hk] at hlive

theorem kept_call : m'.stored n = some k := by
  rcases h.live_call hstep hcareful hlast hlive with ⟨hold, hbefore, hother⟩ | ⟨rfl, rfl, hp, rfl⟩
  · have hkept := h.kept n k hold hbefore
    rcases hstep.stored_cases with hsame | ⟨hp, -, hstored⟩ | ⟨hp, t, hp', hsome, hstored⟩
    · rw [hsame]
      exact hkept
    · rw [hstored, update_of_ne (hother hp)]
      exact hkept
    -- only the session of the tunnel itself is removed, and that is not live any more
    rw [hstored]
    by_cases hn : n = nodeOf i
    · subst hn
      obtain rfl := hcareful.own hp hkept
      rw [update_self, hp'] at hlive
      cases hlive
    · rw [update_of_ne hn]
      exact hkept
  · rw [hp] at hstep
    cases hstep
    exact update_self ..

theorem alone_call (hj : nodeOf j = n) : (update s.phase i p' j).leaving = false := by
  rcases h.live_call hstep hcareful hlast hlive with ⟨hold, hbefore, -⟩ | ⟨rfl, rfl, hp, rfl⟩
  · by_cases hji : j = i
    · subst hji
      rw [update_self, Bool.eq_false_iff]
      intro hleaving
      rcases hstep.leaving_before hleaving with hwas | ⟨hp, t, hp'⟩
      · rw [h.alone n k j hold hbefore hj] at hwas
        cases hwas
      -- a tunnel that removes a session removes its own, which was the live one
      have hkept := h.kept n k hold hbefore
      rw [← hj] at hkept
      obtain rfl := hcareful.own hp hkept
      rw [update_self, hp'] at hlive
      cases hlive
    · rw [update_of_ne hji]
      exact h.alone n k j hold hbefore hj
  · by_cases hji : j = k
    · subst hji
      rw [update_self]
      rfl
    rw [update_of_ne hji]
    simp only [TunnelCareful, hp] at hcareful
    exact hcareful j hj

theorem status_call (hne : update s.phase i p' k ≠ .stored) : m'.status n ≠ some .offline := by
  rcases h.live_call hstep hcareful hlast hlive with ⟨hold, hbefore, -⟩ | ⟨rfl, rfl, hp, rfl⟩
  · by_cases hregisters : k = i ∧ s.phase i = .stored
    · obtain ⟨rfl, hp⟩ := hregisters
      rw [← h.node n k hold]
      simp only [TunnelCareful, hp] at hcareful
      exact hstep.registered_status hp hcareful
    have hphase : s.phase k ≠ .stored := by
      by_cases hk : k = i
      · subst hk
        exact fun hp => hregisters ⟨rfl, hp⟩
      · rwa [update_of_ne hk] at hne
    intro hoffline
    rcases hstep.offline_before (h.fits i) hoffline with hwas | ⟨hp, hn⟩
    · exact h.status n k hold hbefore hphase hwas
    have halone := h.alone n k i hold hbefore hn.symm
    rw [hp] at halone
    cases halone
  · rw [update_self] at hne
    exact absurd rfl hne

end Last

theorem call : TunnelInv nodeOf ⟨m', update s.phase i p'⟩
    (if s.phase i = .connected then update last (nodeOf i) (some i) else last) := by
  refine ⟨?_, ?_, ?_, ?_, ?_⟩
  · intro n k hlast
    split at hlast
    · rw [update_apply] at hlast
      split_ifs at hlast with hn
      · rw [hn, some.inj hlast]
      · exact h.node n k hlast
    · exact h.node n k hlast
  · intro n k hlast hlive
    exact h.kept_call hstep hcareful hlast hlive
  · refine (forall_update_iff s.phase fun k p => TunnelFits k m' p).2 ⟨?_, ?_⟩
    · exact hstep.fits (h.fits i) fun _ => hcareful.own
    · exact fun k hk => hstep.fits_other (h.fits i) hk (h.fits k)
  · intro n k j hlast hlive hj
    exact h.alone_call hstep hcareful hlast hlive hj
  · intro n k hlast hlive hne
    exact h.status_call hstep hcareful hlast hlive hne

end TunnelInv

theorem TunnelInv.next {ev : SharedEvent ι TunnelEnv Empty} (h : TunnelInv nodeOf s last)
    (hcareful : TunnelCareful nodeOf s ev) :
    TunnelInv nodeOf ((tunnelProgram nodeOf).next s ev)
      (registers nodeOf last (s, ev, (tunnelProgram nodeOf).next s ev)) := by
  cases ev with
  | call i e =>
    cases hst : tunnelStmt nodeOf i e (s.phase i) s.mem with
    | none =>
      have hnone : (tunnelProgram nodeOf).stmt i e (s.phase i) s.mem = none := hst
      rw [Program.next_none hnone]
      have hdone : s.phase i ≠ .connected := by
        intro hp
        rw [hp] at hst
        cases hst
      simp only [registers, if_neg hdone]
      exact h
    | some pm =>
      have hsome : (tunnelProgram nodeOf).stmt i e (s.phase i) s.mem = some (pm.1, pm.2) := hst
      rw [Program.next_some hsome]
      exact h.call (tunnelStmt_step hst) hcareful
  | env v => exact v.elim

structure TunnelStart (s : Shared ι (TunnelPhase ι) (HubState ι)) : Prop where
  idle : ∀ i, s.phase i = .idle
  empty : ∀ n, s.mem.stored n = none

omit [DecidableEq ι] in
theorem TunnelStart.inv (h : TunnelStart s) : TunnelInv nodeOf s fun _ => none := by
  refine ⟨nofun, nofun, ?_, nofun, nofun⟩
  intro i
  rw [h.idle i]
  trivial

/-- **A reconnected worker stays connected**, if the tunnels are careful: until the connection of the last session of
a node ends, the hub returns it, open, and the node is not offline. -/
theorem reconnected_stays {ms : List (TunnelMove ι)} (hstart : TunnelStart s)
    (hrun : Run (moves (within (tunnelProgram nodeOf).step (TunnelCareful nodeOf))) s ms s')
    (hlast : ms.foldl (registers nodeOf) (fun _ => none) n = some i) (hserves : (s'.phase i).serves = true) :
    s'.mem.getSession n = some i ∧ (s'.mem.session i).closed = false ∧ s'.mem.status n ≠ some .offline := by
  have hend : TunnelInv nodeOf s' (ms.foldl (registers nodeOf) fun _ => none) := by
    apply hrun.simulates _ hstart.inv
    rintro s ⟨a, ev, b⟩ s' last hs ⟨ha, ⟨hnext, hcareful⟩, hb⟩
    obtain rfl := ha
    obtain rfl := hb
    obtain rfl : b = (tunnelProgram nodeOf).next a ev := hnext
    exact hs.next hcareful
  obtain ⟨hlive, hne, hopen⟩ : (s'.phase i).live = true ∧ s'.phase i ≠ .stored ∧ (s'.mem.session i).closed = false := by
    have hfit := hend.fits i
    cases hp : s'.phase i with
    | serving =>
      rw [hp] at hfit
      exact ⟨rfl, nofun, hfit⟩
    | beating =>
      rw [hp] at hfit
      exact ⟨rfl, nofun, hfit.1⟩
    | idle | connected | stored | ended | removing | closing | done =>
      rw [hp] at hserves
      cases hserves
  exact ⟨hend.kept n i hlast hlive, hopen, hend.status n i hlast hlive hne⟩

end Runs

end Tunnels

def sampleNode : NodeRow where
  userId := 1
  deviceType := "desktop"
  status := .offline
  pingMs := 20
  physicalRamMB := 16384
  allocatedRamGB := 8
  batteryPercent := 100
  batteryTemp := 30
  batteryCutoffEnabled := false
  batteryCutoffPercent := 20
  batteryTempSupported := true
  maxBatteryTemp := 50
  installedModels := ["m"]
  totalTokensProcessed := 0
  totalEarnedCredits := 0
  reputationScore := 50
  lastHeartbeatAt := 0

def sampleHub (σ : Type) : HubState σ := ⟨fun _ => none, fun _ => .ofRow sampleNode, fun _ => some sampleNode⟩

def sampleTunnels : Shared (Fin 2) (TunnelPhase (Fin 2)) (HubState (Fin 2)) := ⟨sampleHub (Fin 2), fun _ => .idle⟩

def sampleTunnelCalls (is : List (Fin 2)) : List (SharedEvent (Fin 2) TunnelEnv Empty) :=
  is.map (.call · ⟨false, 0, .other⟩)

def sampleTunnelEnd (i : Fin 2) : SharedEvent (Fin 2) TunnelEnv Empty := .call i ⟨false, 0, .closed⟩

section Decidable

variable {ι : Type} [DecidableEq ι] [Fintype ι]

instance (nodeOf : ι → String) (s : Shared ι (TunnelPhase ι) (HubState ι)) (ev : SharedEvent ι TunnelEnv Empty) :
    Decidable (TunnelCareful nodeOf s ev) := by
  unfold TunnelCareful
  split
  · split <;> infer_instance
  · infer_instance

end Decidable

local instance neZero_tunnels : NeZero 2 := ⟨Nat.succ_ne_zero 1⟩

def sampleTunnelsInTurn : List (SharedEvent (Fin 2) TunnelEnv Empty) :=
  sampleTunnelCalls [0, 0, 0] ++ [sampleTunnelEnd 0] ++ sampleTunnelCalls [1, 0, 0, 0, 1, 1]

theorem reconnected_stays_in_turn :
    let s' := sampleTunnelsInTurn.foldl (tunnelProgram fun _ => "n").next sampleTunnels
    s'.mem.getSession "n" = some 1 ∧ (s'.mem.session 1).closed = false ∧ s'.mem.status "n" ≠ some .offline := by
  have hstart : TunnelStart sampleTunnels := ⟨fun _ => rfl, fun _ => rfl⟩
  exact reconnected_stays hstart (Run.of_trail sampleTunnelsInTurn (by decide +kernel)) (by decide +kernel)
    (by decide +kernel)

def sampleTunnelOverlap : List (SharedEvent (Fin 2) TunnelEnv Empty) :=
  sampleTunnelCalls [0, 0, 0, 1, 1, 1] ++ [sampleTunnelEnd 0] ++ sampleTunnelCalls [0, 0, 0]

theorem old_tunnel_removes_new :
    let s' := sampleTunnelOverlap.foldl (tunnelProgram fun _ => "n").next sampleTunnels
    Run (tunnelProgram fun _ => "n").step sampleTunnels sampleTunnelOverlap s' ∧ TunnelStart sampleTunnels ∧
      (trail (tunnelProgram fun _ => "n").next sampleTunnels sampleTunnelOverlap).foldl (registers fun _ => "n")
        (fun _ => none) "n" = some 1 ∧
      s'.phase 1 = .serving ∧ s'.mem.getSession "n" = none ∧ (s'.mem.session 1).closed = true ∧
      s'.mem.status "n" = some .offline := by
  refine ⟨Run.of_foldl _ _ _, ⟨fun _ => rfl, fun _ => rfl⟩, ?_, ?_, ?_, ?_, ?_⟩ <;> decide +kernel

section Bans

variable {σ : Type} [DecidableEq σ] {nodeOf : σ → String} {w : RouterWorld} {st : ByogState σ} {n : String}

def HubState.Keyed (nodeOf : σ → String) (st : HubState σ) : Prop := ∀ n s, st.stored n = some s → nodeOf s = n

structure HubState.Banned (nodeOf : σ → String) (n : String) (st : HubState σ) : Prop where
  keyed : st.Keyed nodeOf
  absent : st.stored n = none
  status : st.status n = some .banned

def HubCall.revives (nodeOf : σ → String) (n : String) : HubCall σ → Bool
  | .register s _ _ => nodeOf s == n
  | .heartbeat s telemetry _ => nodeOf s == n && telemetry.isSome
  | .unregister _ | .penalize _ | .dispatch .. => false

section Select

omit [DecidableEq σ]

theorem HubState.better_mem (st : HubState σ) (sessions : List σ) (best : ℤ × Option σ) :
    (sessions.foldl (st.better nodeOf) best).2 = best.2 ∨
      ∃ s ∈ sessions, (sessions.foldl (st.better nodeOf) best).2 = some s := by
  induction sessions generalizing best with
  | nil => exact .inl rfl
  | cons s rest ih =>
    rw [foldl_cons]
    have hstep : st.better nodeOf best s = best ∨ (st.better nodeOf best s).2 = some s := by
      unfold better
      split
      · exact .inl rfl
      split
      · exact .inr rfl
      · exact .inl rfl
    rcases ih (st.better nodeOf best s) with hsame | ⟨t, ht, heq⟩
    · rcases hstep with hbest | hs
      · left
        rw [hsame, hbest]
      · exact .inr ⟨s, mem_cons_self, hsame.trans hs⟩
    · exact .inr ⟨t, mem_cons_of_mem _ ht, heq⟩

theorem HubState.candidates_sub {modelId : String} {sessions : List σ} {s : σ} (st : HubState σ)
    (h : s ∈ st.candidates nodeOf w modelId sessions) : s ∈ sessions := by
  unfold candidates at h
  simp only at h
  split at h
  · exact mem_of_mem_filter h
  · exact mem_of_mem_filter (mem_of_mem_filter h)

variable {order : List String}

theorem HubState.online_stored {s : σ} (st : HubState σ)
    (h : s ∈ st.getAllOnlineNodes order) : ∃ n, st.stored n = some s := by
  obtain ⟨n, -, hn⟩ := mem_filterMap.1 (mem_of_mem_filter h)
  exact ⟨n, hn⟩

theorem select_stored {request : InferenceRequest} {s : σ} {st' : ByogState σ}
    (h : selectNodeForRequest nodeOf w order request st = .ok (s, st')) :
    (∃ n, st.stored n = some s) ∧ st'.toHubState = st.toHubState := by
  unfold selectNodeForRequest at h
  split at h
  · cases h
  split at h
  · cases h
  rename_i online _
  have hfound : ∀ {t : σ}, t ∈ st.candidates nodeOf w request.modelId (st.getAllOnlineNodes order) →
      ∃ n, st.stored n = some t := fun ht => st.online_stored (st.candidates_sub ht)
  split at h
  · cases h
  · rename_i t heq
    cases h
    exact ⟨hfound (by rw [heq]; exact mem_cons_self), rfl⟩
  rename_i t rest _ heq
  simp only at h
  split at h
  · -- the sticky session
    rename_i found hsticky
    cases h
    unfold sticky at hsticky
    split at hsticky
    · cases hsticky
    · obtain ⟨target, -, hfind⟩ := bind_eq_some_iff.1 hsticky
      exact ⟨hfound (by rw [heq]; exact mem_of_find?_eq_some hfind), rfl⟩
  split at h
  · cases h
    exact ⟨hfound (by rw [heq]; exact mem_cons_self), rfl⟩
  rename_i best hbest
  cases h
  refine ⟨hfound ?_, by split <;> rfl⟩
  rw [heq]
  rcases st.better_mem (t :: rest) (999999, none) with hnone | ⟨u, hu, heq'⟩
  · rw [hbest] at hnone
    cases hnone
  rw [hbest] at heq'
  rw [some.inj heq']
  exact hu

end Select

omit [DecidableEq σ] in
theorem HubState.Banned.not_selected (h : st.Banned nodeOf n) {order : List String} {request : InferenceRequest}
    {s : σ} {st' : ByogState σ} (hselect : selectNodeForRequest nodeOf w order request st = .ok (s, st')) :
    nodeOf s ≠ n := by
  intro hn
  obtain ⟨⟨k, hk⟩, -⟩ := select_stored hselect
  have hkey : n = k := hn.symm.trans (h.keyed k s hk)
  rw [← hkey, h.absent] at hk
  cases hk

theorem HubState.unregister_stored (k : String) (st : HubState σ) (n : String) :
    (st.unregister k).stored n = if n = k then none else st.stored n := by
  unfold unregister
  cases hk : st.stored k with
  | none =>
    split_ifs with hn
    · rw [hn]
      exact hk
    · rfl
  | some s =>
    have hstored : ((st.delete k).closeSession s |>.markOffline k).stored = update st.stored k none := rfl
    simp [hstored, update_apply]

theorem HubState.unregister_keyed {st : HubState σ} (h : st.Keyed nodeOf) (k : String) :
    (st.unregister k).Keyed nodeOf := by
  intro n s hs
  rw [unregister_stored] at hs
  split_ifs at hs
  exact h n s hs

theorem HubState.unregister_status (k : String) (st : HubState σ) (n : String) : (st.unregister k).status n =
      if n = k ∧ (st.stored k).isSome then (st.rows n).map fun _ => .offline else st.status n := by
  unfold unregister
  cases hk : st.stored k with
  | none => simp
  | some s =>
    simp only [markOffline, status_updateRow, isSome_some, and_true]
    split_ifs with hn
    · rw [hn]
      rfl
    · rfl

theorem HubState.penalize_status {st : HubState σ} {s : σ} (hrow : (st.rows (nodeOf s)).isSome = true) (n : String) :
    (st.penalizeNode nodeOf s).status n =
      if n = nodeOf s then some (if (st.stored (nodeOf s)).isSome then .offline else .banned) else st.status n := by
  obtain ⟨row, hrow⟩ := isSome_iff_exists.1 hrow
  simp only [penalizeNode, hrow, unregister_status]
  by_cases hn : n = nodeOf s
  · subst hn
    simp only [updateRow, update_self, hrow, status, map_some, if_true, true_and]
    split <;> rfl
  · simp [hn, status_updateRow]

theorem HubState.penalize_stored {st : HubState σ} {s : σ} (hrow : (st.rows (nodeOf s)).isSome = true) (n : String) :
    (st.penalizeNode nodeOf s).stored n = if n = nodeOf s then none else st.stored n := by
  obtain ⟨row, hrow⟩ := isSome_iff_exists.1 hrow
  simp only [penalizeNode, hrow, unregister_stored]
  rfl

theorem HubState.penalize_keyed {st : HubState σ} (h : st.Keyed nodeOf) (s : σ) :
    (st.penalizeNode nodeOf s).Keyed nodeOf := by
  unfold penalizeNode
  split
  · exact h
  · apply unregister_keyed
    exact h

omit [DecidableEq σ] in
theorem ByogState.dispatch_eq (order : List String) (request : InferenceRequest) (generated : ℤ) (credit : ℚ)
    (st : ByogState σ) (n : String) :
    (st.dispatch nodeOf w order request generated credit).stored n = st.stored n ∧
      (st.dispatch nodeOf w order request generated credit).status n = st.status n := by
  unfold dispatch
  split
  · exact ⟨rfl, rfl⟩
  rename_i s st' hselect
  obtain ⟨-, hsame⟩ := select_stored hselect
  refine ⟨by rw [← hsame]; rfl, ?_⟩
  simp only [status_updateRow]
  rw [hsame]
  split_ifs with hn
  · rw [hn]
    rfl
  · rfl

theorem HubState.Banned.call (h : st.Banned nodeOf n) {c : HubCall σ} (hc : c.revives nodeOf n = false) :
    (st.call nodeOf w c).Banned nodeOf n := by
  obtain ⟨hkeyed, habsent, hstatus⟩ := h
  cases c with
  | register s session now =>
    have hn : n ≠ nodeOf s := by
      rintro rfl
      simp [revives] at hc
    refine ⟨?_, ?_, ?_⟩
    · intro k t hk
      have hstored : (update st.stored (nodeOf s) (some s)) k = some t := hk
      rw [update_apply] at hstored
      split_ifs at hstored with hks
      · rw [hks, some.inj hstored]
      · exact hkeyed k t hstored
    · have hsame : (update st.stored (nodeOf s) (some s)) n = st.stored n := update_of_ne hn _ _
      exact hsame.trans habsent
    · have hsame : (st.call nodeOf w (.register s session now)).status n = st.status n := by
        simp only [ByogState.call, register, markOnline, status_updateRow, if_neg hn]
        rfl
      exact hsame.trans hstatus
  | unregister k =>
    refine ⟨unregister_keyed hkeyed k, ?_, ?_⟩
    · simp [ByogState.call, unregister_stored, habsent]
    have hother : ¬ (n = k ∧ (st.stored k).isSome = true) := by
      rintro ⟨rfl, hsome⟩
      rw [habsent] at hsome
      cases hsome
    simp [ByogState.call, unregister_status, if_neg hother, hstatus]
  | heartbeat s telemetry now =>
    cases telemetry with
    | none => exact ⟨hkeyed, habsent, hstatus⟩
    | some telemetry =>
      have hn : n ≠ nodeOf s := by
        rintro rfl
        simp [revives] at hc
      refine ⟨hkeyed, habsent, ?_⟩
      have hsame : (st.call nodeOf w (.heartbeat s (some telemetry) now)).status n = st.status n := by
        simp only [ByogState.call, handleHeartbeat, status_updateRow, if_neg hn]
        rfl
      exact hsame.trans hstatus
  | penalize s =>
    by_cases hrow : (st.rows (nodeOf s)).isSome = true
    · refine ⟨penalize_keyed hkeyed s, ?_, ?_⟩
      · simp [ByogState.call, penalize_stored hrow, habsent]
      simp only [ByogState.call, penalize_status hrow]
      split
      · rename_i hn
        rw [← hn, habsent]
        rfl
      · exact hstatus
    · have hnone : st.rows (nodeOf s) = none := by simpa using hrow
      simp only [ByogState.call, penalizeNode, hnone]
      exact ⟨hkeyed, habsent, hstatus⟩
  | dispatch order request generated credit =>
    refine ⟨?_, ?_, ?_⟩
    · intro k t hk
      rw [ByogState.call, (st.dispatch_eq order request generated credit k).1] at hk
      exact hkeyed k t hk
    · exact (st.dispatch_eq order request generated credit n).1.trans habsent
    · exact (st.dispatch_eq order request generated credit n).2.trans hstatus

theorem HubCall.revived {c : HubCall σ} (hc : c.revives nodeOf n = true) :
    (st.call nodeOf w c).status n ≠ some .banned := by
  cases c with
  | register s =>
    obtain rfl : nodeOf s = n := by simpa [revives] using hc
    intro hbanned
    simp only [ByogState.call, HubState.register, HubState.markOnline, status_updateRow, if_true] at hbanned
    obtain ⟨row, -, hstatus⟩ := map_eq_some_iff.1 hbanned
    cases hstatus
  | heartbeat s telemetry now =>
    obtain ⟨hn, hsome⟩ : nodeOf s = n ∧ telemetry.isSome = true := by simpa [revives] using hc
    obtain ⟨telemetry, rfl⟩ := isSome_iff_exists.1 hsome
    subst hn
    intro hbanned
    simp only [ByogState.call, HubState.handleHeartbeat, status_updateRow, if_true] at hbanned
    obtain ⟨row, -, hstatus⟩ := map_eq_some_iff.1 hbanned
    exact (heartbeat_status telemetry now row).2 hstatus
  | unregister | penalize | dispatch => cases hc

def BanHolds (nodeOf : σ → String) (w : RouterWorld) (n : String) (st : ByogState σ) (cs : List (HubCall σ)) : Prop :=
  ∀ before after, cs = before ++ after → (before.foldl (ByogState.call nodeOf w) st).status n = some .banned ∧
      ∀ order request s st', selectNodeForRequest nodeOf w order request
        (before.foldl (ByogState.call nodeOf w) st) = .ok (s, st') → nodeOf s ≠ n

/-- **When a banned worker stays banned**: exactly if the node had no session then, and never registers or reports
again. -/
theorem banned_stays_iff {s : σ} (hkeyed : st.Keyed nodeOf) (hrow : (st.rows (nodeOf s)).isSome = true)
    (cs : List (HubCall σ)) :
    BanHolds nodeOf w (nodeOf s) (st.call nodeOf w (.penalize s)) cs ↔
      st.stored (nodeOf s) = none ∧ ∀ c ∈ cs, c.revives nodeOf (nodeOf s) = false := by
  constructor
  · intro hholds
    refine ⟨?_, ?_⟩
    · have hfirst := (hholds [] cs rfl).1
      simp only [foldl_nil, call, penalize_status hrow, if_true] at hfirst
      by_contra hsome
      have hsome' : (st.stored (nodeOf s)).isSome = true := isSome_iff_ne_none.2 hsome
      rw [hsome'] at hfirst
      cases hfirst
    intro c hc
    obtain ⟨before, after, rfl⟩ := append_of_mem hc
    have hthen := (hholds (before ++ [c]) after (by simp)).1
    rw [foldl_append, foldl_cons, foldl_nil] at hthen
    rw [Bool.eq_false_iff]
    intro hrevives
    exact revived hrevives hthen
  · rintro ⟨habsent, hquiet⟩ before after rfl
    have hbanned : (st.call nodeOf w (.penalize s)).Banned nodeOf (nodeOf s) := by
      refine ⟨penalize_keyed hkeyed s, ?_, ?_⟩
      · simp [call, penalize_stored hrow]
      · simp only [call, penalize_status hrow, if_true, habsent]
        rfl
    have hend : (before.foldl (call nodeOf w) (st.call nodeOf w (.penalize s))).Banned nodeOf (nodeOf s) := by
      have hcalls : ∀ c ∈ before, c.revives nodeOf (nodeOf s) = false := fun c hc => hquiet c (mem_append_left _ hc)
      clear hquiet
      generalize st.call nodeOf w (.penalize s) = st1 at hbanned
      induction before generalizing st1 with
      | nil => exact hbanned
      | cons c before ih =>
        rw [foldl_cons]
        exact ih (fun c hc => hcalls c (mem_cons_of_mem _ hc)) _ (hbanned.call (hcalls c mem_cons_self))
    exact ⟨hend.status, fun order request t st' hselect => hend.not_selected hselect⟩

end Bans

def sampleRouter : RouterWorld := ⟨fun _ => some ⟨"chat", "7B"⟩, fun _ => none⟩

def sampleByog : ByogState (Fin 2) := ⟨sampleHub (Fin 2), fun _ => none⟩

theorem banned_stays_iff_gone :
    BanHolds (fun _ => "n") sampleRouter "n" (sampleByog.call (fun _ => "n") sampleRouter (.penalize (0 : Fin 2)))
      [.dispatch ["n"] ⟨"m", "", ""⟩ 5 0, .penalize 0, .unregister "n"] := by
  refine (@banned_stays_iff _ _ _ sampleRouter sampleByog 0 nofun rfl _).2 ⟨rfl, ?_⟩
  intro c hc
  simp only [mem_cons, not_mem_nil, or_false] at hc
  rcases hc with rfl | rfl | rfl <;> rfl

/-- The worker is connected when it is banned, and connects again. -/
theorem banned_worker_returns :
    let register := fun s : Fin 2 => HubCall.register s (.ofRow sampleNode) 0
    let st := sampleByog.call (fun _ => "n") sampleRouter (register 0)
    let banned := st.call (fun _ => "n") sampleRouter (.penalize 0)
    let back := banned.call (fun _ => "n") sampleRouter (register 1)
    st.Keyed (fun _ => "n") ∧ (st.rows "n").isSome = true ∧ banned.status "n" = some .offline ∧
      back.status "n" = some .online ∧
      ∃ st', selectNodeForRequest (fun _ => "n") sampleRouter ["n"] ⟨"m", "", ""⟩ back = .ok (1, st') := by
  intro register st banned back
  refine ⟨?_, rfl, by decide +kernel, by decide +kernel, _, rfl⟩
  intro n s hs
  by_contra hn
  have hnone : (update sampleByog.stored "n" (some 0)) n = some s := hs
  rw [update_of_ne fun h => hn h.symm] at hnone
  cases hnone

end NewApi

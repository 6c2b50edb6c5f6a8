import NewApi.Spec.StreamScanner

/-!
# What the goroutines of a stream keep

Each field of `StreamInv` relates the phases of the goroutines to what they share: who was started, what `wg` counts,
who holds `writeMutex`, and who has closed which channel. It holds in every run (`StreamInv.of_run`), also in those that
are cut off by a timer, the client or a failed call.
-/

namespace NewApi

open Trace Function

def Goroutine.index : Goroutine → ℕ
  | .timer => 0
  | .ping => 1
  | .handler => 2
  | .scanner => 3

namespace MainPhase

def started (g : Goroutine) : MainPhase → Bool
  | .starting g' => decide (g.index < g'.index)
  | _ => true

def hasStopped : MainPhase → Bool
  | .closing | .waiting | .returned => true
  | _ => false

def hasClosed : MainPhase → Bool
  | .waiting | .returned => true
  | _ => false

def cleaning : MainPhase → Bool
  | .starting _ | .selecting => false
  | _ => true

end MainPhase

namespace GoPhase

def live : GoPhase → ℕ
  | .idle | .done => 0
  | _ => 1

def owner : GoPhase → Option Goroutine
  | .locking c | .calling c => some c.owner
  | .checking _ | .sending _ | .closing => some .scanner
  | _ => none

def call : GoPhase → Option StreamCall
  | .calling c => some c
  | _ => none

def isOver : GoPhase → Bool
  | .stopping | .exiting | .done => true
  | _ => false

def hasStopped : GoPhase → Bool
  | .exiting | .done => true
  | _ => false

def goes (g : Goroutine) (q p : GoPhase) : Bool :=
  q.live == 1 && p.live == 1 && q.call == none && p.call == none && (p.owner == none || p.owner == some g) &&
    (g != .scanner || p.isOver == q.isOver) && (!p.hasStopped || g == .timer || g == .ping)

theorem ne_idle {p : GoPhase} (h : p.live = 1) : p ≠ .idle := by
  rintro rfl
  exact nomatch h

end GoPhase

def total (f : GoPhase → ℕ) (phase : Goroutine → GoPhase) : ℕ :=
  f (phase .timer) + f (phase .ping) + f (phase .handler) + f (phase .scanner)

theorem total_update (f : GoPhase → ℕ) (phase : Goroutine → GoPhase) (g : Goroutine) (p : GoPhase) :
    total f (update phase g p) + f (phase g) = total f phase + f p := by
  unfold total
  cases g <;> simp <;> omega

theorem le_total (f : GoPhase → ℕ) (phase : Goroutine → GoPhase) (g : Goroutine) : f (phase g) ≤ total f phase := by
  unfold total
  cases g <;> omega

structure GoInv (main : MainPhase) (writeMutex : Option StreamCall) (dataClosed stopped : Bool) (g : Goroutine)
    (p : GoPhase) : Prop where
  idle : main.started g = false → p = .idle
  started : g ≠ .ping → main.started g = true → p ≠ .idle
  own : ∀ g', p.owner = some g' → g' = g
  mutex : ∀ c, p.call = some c ↔ g = c.owner ∧ writeMutex = some c
  closed : g = .scanner → dataClosed = p.isOver
  stopped : g = .handler ∨ g = .scanner → p.hasStopped = true → stopped = true

def Stream.GoInv (s : Stream) : Goroutine → GoPhase → Prop := NewApi.GoInv s.main s.writeMutex s.dataClosed s.stopped

structure StreamInv (s : Stream) : Prop where
  each : ∀ g, s.GoInv g (s.phase g)
  wg : s.wg = total GoPhase.live s.phase
  main : s.main.hasStopped = true → s.stopped = true
  body : s.main.hasClosed = true → s.bodyClosed = true

variable {cfg : StreamConfig} {s s' : Stream} {a : StreamAction} {g : Goroutine} {p q : GoPhase}

theorem Stream.set_phase_self : (s.set g p).phase g = p := update_self ..

theorem Stream.set_phase_of_ne {g' : Goroutine} (hne : g' ≠ g) : (s.set g p).phase g' = s.phase g' :=
  update_of_ne hne ..

theorem StreamInv.start : StreamInv (.start cfg) where
  each g := ⟨fun _ => rfl, fun _ h => (by cases g <;> cases h), fun _ => nofun, fun _ => ⟨nofun, nofun⟩, fun _ => rfl,
    fun _ => nofun⟩
  wg := rfl
  main := nofun
  body := nofun

theorem Stream.GoInv.move (h : s.GoInv g q) (hgoes : GoPhase.goes g q p = true) : s.GoInv g p := by
  simp only [GoPhase.goes, Bool.and_eq_true, Bool.or_eq_true, beq_iff_eq, bne_iff_ne, Bool.not_eq_true'] at hgoes
  obtain ⟨⟨⟨⟨⟨⟨hq, hp⟩, hqcall⟩, hpcall⟩, hown⟩, hover⟩, hstopped⟩ := hgoes
  refine ⟨?_, fun _ _ => GoPhase.ne_idle hp, ?_, ?_, ?_, ?_⟩
  · exact fun hnot => absurd (h.idle hnot) (GoPhase.ne_idle hq)
  · intro g' hg'
    rcases hown with hnone | hsome
    · exact nomatch hnone.symm.trans hg'
    · exact Option.some.inj (hg'.symm.trans hsome)
  · intro c
    rw [← h.mutex c, hqcall, hpcall]
  · intro heq
    rw [h.closed heq, hover.resolve_left (not_not.2 heq)]
  intro hg hyes
  rcases hstopped with (hnot | rfl) | rfl
  · exact absurd (hnot.symm.trans hyes) (by decide)
  · exact nomatch hg
  · exact nomatch hg

namespace StreamInv

theorem idle_of_starting (h : StreamInv s) (hmain : s.main = .starting g) : s.phase g = .idle :=
  (h.each g).idle (by rw [hmain]; cases g <;> rfl)

theorem of_set (h : StreamInv s) (hphase : s'.phase = update s.phase g p) (hgo : s'.GoInv g p)
    (hothers : ∀ g' ≠ g, s.GoInv g' (s.phase g') → s'.GoInv g' (s.phase g'))
    (hwg : s'.wg + (s.phase g).live = s.wg + p.live) (hmain : s'.main.hasStopped = true → s'.stopped = true)
    (hbody : s'.main.hasClosed = true → s'.bodyClosed = true) : StreamInv s' where
  each g' := by
    rw [hphase]
    by_cases heq : g' = g
    · subst heq
      rw [update_self]
      exact hgo
    · rw [update_of_ne heq]
      exact hothers g' heq (h.each g')
  wg := by
    have htotal := total_update GoPhase.live s.phase g p
    have hbefore := h.wg
    rw [hphase]
    omega
  main := hmain
  body := hbody

theorem set (h : StreamInv s) (hphase : s.phase g = q) (hgoes : GoPhase.goes g q p = true) : StreamInv (s.set g p) := by
  have hlive : q.live = 1 ∧ p.live = 1 := by
    simp only [GoPhase.goes, Bool.and_eq_true, beq_iff_eq] at hgoes
    exact hgoes.1.1.1.1.1
  have hgo : s.GoInv g q := hphase ▸ h.each g
  exact h.of_set rfl (hgo.move hgoes) (fun _ _ => id) (by rw [hphase, hlive.1, hlive.2]; rfl) h.main h.body

variable {c : StreamCall}

section

variable (h : StreamInv s)
include h

theorem call (hphase : s.phase c.owner = .locking c) (hfree : s.writeMutex = none) :
    StreamInv { s.set c.owner (.calling c) with writeMutex := some c } := by
  have hover : c.owner ≠ .scanner := by cases c <;> nofun
  have hgo : s.GoInv c.owner (.locking c) := hphase ▸ h.each c.owner
  refine h.of_set rfl ?_ ?_ (by rw [hphase]; rfl) h.main h.body
  · refine ⟨fun hnot => (nomatch hgo.idle hnot), fun _ _ => nofun, fun g' hg' => (Option.some.inj hg').symm,
      fun c' => ?_, fun heq => absurd heq hover, fun _ => nofun⟩
    refine ⟨fun hc => ?_, fun hc => hc.2⟩
    cases hc
    exact ⟨rfl, rfl⟩
  intro g' hne hg'
  refine { hg' with mutex := fun c' => ?_ }
  rw [hg'.mutex c', hfree]
  refine ⟨nofun, ?_⟩
  rintro ⟨rfl, hc⟩
  cases hc
  exact absurd rfl hne

theorem ends (hphase : s.phase c.owner = .calling c) (hp : p.live = 1)
    (hcall : p.call = none) (hown : p.owner = none) (hstopped : c.owner = .handler → p.hasStopped = false) :
    StreamInv { s.set c.owner p with writeMutex := none } := by
  have hover : c.owner ≠ .scanner := by cases c <;> nofun
  have hgo : s.GoInv c.owner (.calling c) := hphase ▸ h.each c.owner
  have hheld : s.writeMutex = some c := ((hgo.mutex c).1 rfl).2
  refine h.of_set rfl ?_ ?_ (by rw [hphase, hp]; rfl) h.main h.body
  · refine ⟨fun hnot => (nomatch hgo.idle hnot), fun _ _ => GoPhase.ne_idle hp,
      fun g' hg' => (nomatch hown.symm.trans hg'), fun c' => ⟨fun hc => (nomatch hcall.symm.trans hc), nofun⟩,
      fun heq => absurd heq hover, ?_⟩
    rintro (heq | heq) hyes
    · exact absurd ((hstopped heq).symm.trans hyes) (by decide)
    · exact absurd heq hover
  intro g' hne hg'
  refine { hg' with mutex := fun c' => ⟨fun hc => ?_, nofun⟩ }
  rw [hg'.mutex c', hheld] at hc
  obtain ⟨rfl, hc⟩ := hc
  cases hc
  exact absurd rfl hne

theorem stop (hphase : s.phase g = .stopping) : StreamInv { s.set g .exiting with stopped := true } := by
  have hgo : s.GoInv g .stopping := hphase ▸ h.each g
  refine h.of_set rfl ⟨fun hnot => (nomatch hgo.idle hnot), fun _ _ => nofun, fun _ => nofun, hgo.mutex, hgo.closed,
    fun _ _ => rfl⟩ (fun _ _ hg' => { hg' with stopped := fun _ _ => rfl }) (by rw [hphase]; rfl) (fun _ => rfl) h.body

theorem exit (hphase : s.phase g = .exiting) : StreamInv { s.set g .done with wg := s.wg - 1 } := by
  have hgo : s.GoInv g .exiting := hphase ▸ h.each g
  have hlive : (s.phase g).live ≤ s.wg := h.wg ▸ le_total GoPhase.live s.phase g
  rw [hphase] at hlive
  refine h.of_set rfl ⟨fun hnot => (nomatch hgo.idle hnot), fun _ _ => nofun, fun _ => nofun, hgo.mutex, hgo.closed,
    hgo.stopped⟩ (fun _ _ => id) ?_ h.main h.body
  rw [hphase]
  exact Nat.sub_add_cancel hlive

theorem close (hphase : s.phase .scanner = .closing) :
    StreamInv { s.set .scanner .stopping with dataClosed := true } := by
  have hgo : s.GoInv .scanner .closing := hphase ▸ h.each .scanner
  exact h.of_set rfl ⟨fun hnot => (nomatch hgo.idle hnot), fun _ _ => nofun, fun _ => nofun, hgo.mutex, fun _ => rfl,
    fun _ => nofun⟩ (fun _ hne hg' => { hg' with closed := fun heq => absurd heq hne }) (by rw [hphase]; rfl)
    h.main h.body

theorem with_main {p : MainPhase} (hstarted : ∀ g, s.main.started g = p.started g)
    (hstopped : p.hasStopped = true → s.stopped = true) (hclosed : p.hasClosed = true → s.bodyClosed = true) :
    StreamInv { s with main := p } where
  each g := { h.each g with
    idle := fun hnot => (h.each g).idle ((hstarted g).trans hnot)
    started := fun hne hyes => (h.each g).started hne ((hstarted g).trans hyes) }
  wg := h.wg
  main := hstopped
  body := hclosed

end

theorem started_next (g g' : Goroutine) :
    g.next.started g' = (decide (g' = g) || (MainPhase.starting g).started g') := by
  cases g <;> cases g' <;> rfl

section

variable (h : StreamInv s)
include h

theorem startNext (hmain : s.main = .starting g) : StreamInv (s.mainNext cfg (.start g)) := by
  have hidle := h.idle_of_starting hmain
  have hgo : s.GoInv g .idle := hidle ▸ h.each g
  have hnew : g.next.hasStopped = false ∧ g.next.hasClosed = false := by cases g <;> exact ⟨rfl, rfl⟩
  have hstopped : g.next.hasStopped = true → s.stopped = true := fun hyes => absurd (hnew.1.symm.trans hyes) (by decide)
  have hclosed : g.next.hasClosed = true → s.bodyClosed = true :=
    fun hyes => absurd (hnew.2.symm.trans hyes) (by decide)
  -- the others are as far as they were
  have hothers : ∀ g' ≠ g, s.main.started g' = g.next.started g' := by
    intro g' hne
    rw [started_next, decide_eq_false hne, hmain, Bool.false_or]
  simp only [Stream.mainNext]
  split
  case isTrue hoff =>
    obtain ⟨rfl, -⟩ := hoff
    refine ⟨fun g' => ?_, h.wg, hstopped, hclosed⟩
    by_cases hping : g' = .ping
    · subst hping
      exact { h.each .ping with idle := fun _ => hidle, started := fun hne => absurd rfl hne }
    exact { h.each g' with
      idle := fun hnot => (h.each g').idle ((hothers g' hping).trans hnot)
      started := fun hne hyes => (h.each g').started hne ((hothers g' hping).trans hyes) }
  case isFalse =>
    refine h.of_set rfl ⟨fun hnot => ?_, fun _ _ => GoPhase.ne_idle rfl, fun _ heq => (by cases heq), hgo.mutex,
      hgo.closed, fun _ heq => (by cases heq)⟩
      (fun g' hne hg' => { hg' with
        idle := fun hnot => hg'.idle ((hothers g' hne).trans hnot)
        started := fun hnp hyes => hg'.started hnp ((hothers g' hne).trans hyes) })
      (by rw [hidle]; rfl) hstopped hclosed
    have hself := started_next g g
    rw [decide_eq_true rfl, Bool.true_or] at hself
    exact absurd (hself.symm.trans hnot) (by decide)

theorem mainNext {a : MainAct} (ha : s.MainEnabled a) : StreamInv (s.mainNext cfg a) := by
  cases a with
  | start => exact h.startNext ha
  | wake w =>
    have hmain : s.main = .selecting := by
      cases w with
      | stopped | clientGone => exact ha.1
      | timeout => exact ha
    have hnext := h.with_main (p := .cancelling) (by rw [hmain]; exact fun _ => rfl) nofun nofun
    cases w <;> exact { hnext with }
  | cancel =>
    have hmain : s.main = .cancelling := ha
    have hnext := h.with_main (p := .stopping) (by rw [hmain]; exact fun _ => rfl) nofun nofun
    exact { hnext with }
  | stop =>
    have hmain : s.main = .stopping := ha
    have hstopped : StreamInv { s with stopped := true } :=
      { h with each := fun g => { h.each g with stopped := fun _ _ => rfl }, main := fun _ => rfl }
    exact hstopped.with_main (by rw [hmain]; exact fun _ => rfl) (fun _ => rfl) nofun
  | closeBody =>
    have hmain : s.main = .closing := ha
    have hstopped : s.stopped = true := h.main (by rw [hmain]; rfl)
    have hclosed : StreamInv { s with bodyClosed := true, firstTokenStopped := true } := { h with body := fun _ => rfl }
    exact hclosed.with_main (by rw [hmain]; exact fun _ => rfl) (fun _ => hstopped) fun _ => rfl
  | returns =>
    have hmain : s.main = .waiting := ha.1
    have hstopped : s.stopped = true := h.main (by rw [hmain]; rfl)
    have hbody : s.bodyClosed = true := h.body (by rw [hmain]; rfl)
    exact h.with_main (by rw [hmain]; exact fun _ => rfl) (fun _ => hstopped) (fun _ => hbody)

theorem checked {line : String} (hphase : s.phase .scanner = .checking line) : StreamInv (s.checked line) := by
  unfold Stream.checked
  split
  · exact h.set hphase rfl
  split
  case _ => exact h.set hphase rfl
  case _ data _ => exact { h.set hphase rfl with }
  case _ => exact { h.set hphase rfl with }

theorem ended {e : CallEnd} (hphase : s.phase c.owner = .calling c) (he : e.Of c) : StreamInv (s.ended c e) := by
  cases e with
  | returns => exact { h.ends hphase rfl rfl rfl (fun _ => rfl) with }
  | fails =>
    have hping : c.owner ≠ .handler := by
      cases c with
      | pingData => nofun
      | dataHandler => exact he.elim
    exact { h.ends hphase rfl rfl rfl (fun heq => absurd heq hping) with }
  | stops | panics => exact { h.ends hphase rfl rfl rfl (fun _ => rfl) with }

end

end StreamInv

theorem StreamInv.next (h : StreamInv s) (hstep : streamStep cfg s a s') : StreamInv s' := by
  obtain ⟨rfl, ha⟩ := hstep
  cases a with
  | main => exact h.mainNext ha
  | clientLeaves => exact { h with }
  | call => exact h.call ha.1 ha.2
  | ends => exact h.ended ha.1 ha.2
  | stop => exact h.stop ha
  | exit => exact h.exit ha
  | leaves =>
    obtain ⟨hphase, ⟨rfl | rfl, -⟩ | ⟨rfl, -⟩⟩ := ha
    all_goals exact h.set hphase rfl
  | timerExpires =>
    simp only [Stream.next]
    split
    · exact { h.set ha.1 rfl with }
    · exact h.set ha.1 rfl
  | pingTick | pingTimeout => exact h.set ha rfl
  | receive data => exact { h.set ha.1 rfl with }
  | drained | unsent => exact h.set ha.1 rfl
  | scan line => exact { h.set ha.1 rfl with }
  | tooLong | eof => exact { h.set ha.1 rfl with }
  | readFails => exact { h.set ha rfl with }
  | check => exact h.checked ha
  | send => exact { h.set (p := .waiting) ha.1 rfl with }
  | close => exact h.close ha

theorem StreamInv.of_run {ls : List StreamAction} (hrun : Run (streamStep cfg) (.start cfg) ls s) : StreamInv s :=
  hrun.inv (fun _ _ _ h hstep => h.next hstep) start

end NewApi

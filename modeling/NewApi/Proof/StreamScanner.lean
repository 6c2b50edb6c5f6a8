import NewApi.Proof.StreamInv

/-!
# Every payload is handled once

In every run calls of `PingData` and `dataHandler` do not overlap (`calls_serial`), none is made after
`StreamScannerHandler` has returned (`no_call_after_return`), `dataHandler` is called with the first payloads in their
order (`handled_prefix`), and `StreamScannerHandler` returns: until then a goroutine can move (`can_move`), and only
pings give it more to do (`Stream.todo_next`).

A payload is lost if the scanner leaves early (`Loses`). Without disturbances `stopChan` is closed only after
`dataChan`, and the data handler empties `dataChan` (`QuietStream`), so every payload is handled
(`stream_delivers_all`).
-/

namespace NewApi

open Trace List MainPhase StreamAction

def linePayload (line : String) : Option String :=
  if hasPrefix line "data:" then
    let data := trimSpace (String.ofList (line.toList.drop 5))
    if data = "" then none else some data
  else none

def payloads (lines : List String) : List String :=
  (lines.filterMap linePayload).takeWhile fun data => !hasPrefix data "[DONE]"

/-- A line that starts with `data:`, or one that is short or does not start with `[DONE]`. -/
def PlainLine (line : String) : Prop :=
  hasPrefix line "data:" = true ∨ line.utf8ByteSize < 6 ∨ hasPrefix line "[DONE]" = false

instance (line : String) : Decidable (PlainLine line) := inferInstanceAs (Decidable (_ ∨ _ ∨ _))

def scanned : List String → List String
  | [] => []
  | line :: lines => match parseLine line with
    | .skip => scanned lines
    | .data data => data :: scanned lines
    | .done => []

theorem hasPrefix_iff {s start : String} : hasPrefix s start = true ↔ ∃ rest, s = start ++ rest := by
  unfold hasPrefix
  rw [List.isPrefixOf_iff_prefix]
  constructor
  · rintro ⟨rest, hrest⟩
    refine ⟨String.ofList rest, ?_⟩
    rw [← String.toList_inj, String.toList_append, String.toList_ofList, hrest]
  rintro ⟨rest, rfl⟩
  rw [String.toList_append]
  exact prefix_append _ _

theorem linePayload_short {line : String} (hshort : line.utf8ByteSize < 6) : linePayload line = none := by
  unfold linePayload
  split
  case isFalse => rfl
  case isTrue hdata =>
    obtain ⟨rest, rfl⟩ := hasPrefix_iff.1 hdata
    have hsize : "data:".utf8ByteSize = 5 := by decide
    rw [String.utf8ByteSize_append, hsize] at hshort
    have hempty : rest = "" := String.utf8ByteSize_eq_zero_iff.1 (by omega)
    subst hempty
    decide

theorem parseLine_eq {line : String} (hplain : PlainLine line) : parseLine line =
    match linePayload line with
    | none => .skip
    | some data => if hasPrefix data "[DONE]" then .done else .data data := by
  unfold parseLine
  by_cases hshort : line.utf8ByteSize < 6
  · rw [if_pos hshort, linePayload_short hshort]
  rw [if_neg hshort]
  cases hdata : hasPrefix line "data:" with
  | false =>
    have hdone : hasPrefix line "[DONE]" = false := by
      rcases hplain with h | h | h
      · rw [hdata] at h
        exact absurd h Bool.false_ne_true
      · exact absurd h hshort
      · exact h
    have hnone : linePayload line = none := by
      unfold linePayload
      rw [hdata]
      rfl
    rw [hdone, hnone]
    rfl
  | true =>
    unfold linePayload
    simp only [hdata, Bool.not_true, Bool.false_and, Bool.false_eq_true, if_false, if_true]
    generalize trimSpace (String.ofList (line.toList.drop 5)) = data
    by_cases hempty : data = ""
    · rw [if_pos hempty, if_pos hempty]
    rw [if_neg hempty, if_neg hempty]
    cases hdone : hasPrefix data "[DONE]" with
    | true => simp [hdone]
    | false => simp [hdone]

theorem scanned_eq {lines : List String} (hplain : ∀ line ∈ lines, PlainLine line) :
    scanned lines = payloads lines := by
  induction lines with
  | nil => rfl
  | cons line lines ih =>
    have hrest := ih fun l hl => hplain l (mem_cons_of_mem _ hl)
    unfold payloads at hrest ⊢
    unfold scanned
    rw [parseLine_eq (hplain line mem_cons_self)]
    cases hpayload : linePayload line with
    | none =>
      rw [filterMap_cons_none hpayload]
      exact hrest
    | some data =>
      rw [filterMap_cons_some hpayload, takeWhile_cons]
      cases hdone : hasPrefix data "[DONE]" with
      | true => simp [hdone]
      | false =>
        simp only [hdone, Bool.not_false, Bool.false_eq_true, if_false, if_true]
        rw [hrest]

variable {cfg : StreamConfig} {s s' : Stream} {a : StreamAction} {g : Goroutine} {p : GoPhase} {ls : List StreamAction}

theorem mainNext_frame (s : Stream) (a : MainAct) : (s.mainNext cfg a).writeMutex = s.writeMutex ∧
    (s.mainNext cfg a).lines = s.lines ∧ (s.mainNext cfg a).dataChan = s.dataChan ∧
    (s.mainNext cfg a).clientGone = s.clientGone := by
  cases a with
  | start =>
    simp only [Stream.mainNext]
    split <;> exact ⟨rfl, rfl, rfl, rfl⟩
  | wake w => cases w <;> exact ⟨rfl, rfl, rfl, rfl⟩
  | _ => exact ⟨rfl, rfl, rfl, rfl⟩

theorem checked_frame (s : Stream) (line : String) : (s.checked line).writeMutex = s.writeMutex ∧
    (s.checked line).lines = s.lines ∧ (s.checked line).dataChan = s.dataChan ∧ (s.checked line).main = s.main ∧
    (s.checked line).clientGone = s.clientGone := by
  unfold Stream.checked
  split
  · exact ⟨rfl, rfl, rfl, rfl, rfl⟩
  · split <;> exact ⟨rfl, rfl, rfl, rfl, rfl⟩

theorem StreamInv.callStep (h : StreamInv s) (hstep : streamStep cfg s a s') :
    CallStep a.callEvent s.writeMutex s'.writeMutex := by
  obtain ⟨rfl, ha⟩ := hstep
  cases a with
  | main a => exact (mainNext_frame s a).1
  | call => exact ⟨ha.2, rfl⟩
  | ends c e =>
    have hcall : (s.phase c.owner).call = some c := by rw [ha.1]; rfl
    refine ⟨(((h.each c.owner).mutex c).1 hcall).2, ?_⟩
    cases e <;> rfl
  | timerExpires =>
    simp only [Stream.next]
    split <;> rfl
  | check line => exact (checked_frame s line).1
  | _ => rfl

/-- **No two calls overlap**, in any run. -/
theorem calls_serial (hrun : Run (streamStep cfg) (.start cfg) ls s) : Serial none (ls.filterMap callEvent) :=
  hrun.serial _ Stream.writeMutex (fun _ _ _ h hstep => ⟨h.next hstep, h.callStep hstep⟩) StreamInv.start

structure HasReturned (s : Stream) : Prop where
  inv : StreamInv s
  main : s.main = .returned
  wg : s.wg = 0

theorem HasReturned.enabled (h : HasReturned s) (ha : s.Enabled cfg a) : a = .clientLeaves := by
  have hdead {g : Goroutine} {p : GoPhase} (hphase : s.phase g = p) (hp : p.live = 1) : False := by
    have hlive := le_total GoPhase.live s.phase g
    rw [hphase, hp, ← h.inv.wg, h.wg] at hlive
    omega
  cases a with
  | main a =>
    have hmain := h.main
    cases a with
    | wake w =>
      cases w with
      | timeout => exact nomatch hmain.symm.trans ha
      | _ => exact nomatch hmain.symm.trans ha.1
    | returns => exact nomatch hmain.symm.trans ha.1
    | _ => exact nomatch hmain.symm.trans ha
  | clientLeaves => rfl
  | stop | exit | pingTick | pingTimeout | readFails | check | close => exact (hdead ha rfl).elim
  | _ => exact (hdead ha.1 rfl).elim

theorem HasReturned.next (h : HasReturned s) (hstep : streamStep cfg s a s') : HasReturned s' ∧ a.callEvent = none := by
  have hinv := h.inv.next hstep
  obtain ⟨rfl, ha⟩ := hstep
  obtain rfl := h.enabled ha
  exact ⟨⟨hinv, h.main, h.wg⟩, rfl⟩

/-- **No call is made after the return**, in any run. -/
theorem no_call_after_return (hrun : Run (streamStep cfg) (.start cfg) ls s) {before after : List StreamAction}
    (hls : ls = before ++ .main .returns :: after) : ∀ a ∈ after, a.callEvent = none := by
  obtain ⟨b, c, hbefore, hmove, hafter⟩ := hrun.split hls
  have hinv : StreamInv b := .of_run hbefore
  have hreturned : HasReturned c := by
    have hinv' := hinv.next hmove
    obtain ⟨rfl, -, hwg⟩ := hmove
    exact ⟨hinv', rfl, hwg⟩
  exact hafter.each (fun _ _ _ h hstep => h.next hstep) hreturned

def GoPhase.pending : GoPhase → List String
  | .locking (.dataHandler data) => [data]
  | _ => []

def GoPhase.unsent (lines : List String) : GoPhase → List String
  | .idle | .waiting => scanned lines
  | .checking line => scanned (line :: lines)
  | .sending data => data :: scanned lines
  | _ => []

theorem GoPhase.pending_of_over (hover : p.isOver = true) : p.pending = [] := by
  cases p <;> first | rfl | exact nomatch hover

theorem GoPhase.unsent_of_over {lines : List String} (hover : p.isOver = true) : p.unsent lines = [] := by
  cases p <;> first | rfl | exact nomatch hover

def Stream.flow (s : Stream) : List String :=
  (s.phase .handler).pending ++ (s.dataChan ++ (s.phase .scanner).unsent s.lines)

def Loses (s : Stream) : StreamAction → Prop
  | .tooLong _ => True
  | .readFails => True
  | .unsent _ => True
  | .check _ => s.stopped = true ∨ s.cancelled = true
  | _ => False

theorem flow_set (hhandler : g = .handler → p.pending = (s.phase g).pending)
    (hscanner : g = .scanner → p.unsent s.lines = (s.phase g).unsent s.lines) : (s.set g p).flow = s.flow := by
  unfold Stream.flow Stream.set
  cases g with
  | handler => simp [hhandler]
  | scanner => simp [hscanner]
  | _ => rfl

/-- **A move hands on the payloads** unless it loses some. -/
theorem StreamInv.flow_next (h : StreamInv s) (hstep : streamStep cfg s a s') (hkeeps : ¬ Loses s a) :
    s.flow = a.payload.toList ++ s'.flow := by
  obtain ⟨rfl, ha⟩ := hstep
  have hset {g : Goroutine} {q p : GoPhase} (hphase : s.phase g = q) (hhandler : g = .handler → p.pending = q.pending)
      (hscanner : g = .scanner → p.unsent s.lines = q.unsent s.lines) : s.flow = (s.set g p).flow := by
    subst hphase
    exact (flow_set hhandler hscanner).symm
  cases a with
  | main a =>
    cases a with
    | start g =>
      simp only [Stream.next, Stream.mainNext]
      split
      · rfl
      · exact hset (h.idle_of_starting ha) (fun _ => rfl) (fun _ => rfl)
    | wake w => cases w <;> rfl
    | _ => rfl
  | clientLeaves => rfl
  | call c =>
    cases c with
    | pingData => exact hset (g := .ping) (p := .calling .pingData) ha.1 (by simp) (by simp)
    | dataHandler =>
      unfold Stream.flow
      rw [show s.phase .handler = _ from ha.1]
      rfl
  | ends c e =>
    have hends (p : GoPhase) (hp : p.pending = []) : s.flow = (s.set c.owner p).flow := by
      refine hset ha.1 (fun _ => hp) (fun heq => ?_)
      cases c <;> cases heq
    cases e with
    | returns => exact hends .waiting rfl
    | fails => exact hends .exiting rfl
    | stops | panics => exact hends .stopping rfl
  | stop => exact hset (p := .exiting) ha (fun _ => rfl) (fun _ => rfl)
  | exit => exact hset (p := .done) ha (fun _ => rfl) (fun _ => rfl)
  | leaves =>
    obtain ⟨hphase, ⟨rfl | rfl, -⟩ | ⟨rfl, -⟩⟩ := ha
    all_goals exact hset hphase (by simp) (by simp)
  | timerExpires =>
    simp only [Stream.next]
    split
    · exact hset ha.1 (by simp) (by simp)
    · exact hset ha.1 (by simp) (by simp)
  | pingTick | pingTimeout => exact hset ha (by simp) (by simp)
  | receive =>
    obtain ⟨hphase, hhead⟩ := ha
    unfold Stream.flow
    rw [hphase, ← cons_head?_tail hhead]
    rfl
  | drained => exact hset ha.1 (fun _ => rfl) (by simp)
  | scan line =>
    obtain ⟨hphase, hhead, -⟩ := ha
    unfold Stream.flow
    rw [hphase]
    change _ ++ (_ ++ scanned s.lines) = _ ++ (_ ++ (_ ++ scanned (line :: s.lines.tail)))
    rw [cons_head?_tail hhead]
    rfl
  | tooLong | readFails | unsent => exact absurd trivial hkeeps
  | eof =>
    obtain ⟨hphase, hlines⟩ := ha
    exact hset (p := .closing) hphase (by simp) (fun _ => by rw [hlines]; rfl)
  | check line =>
    have hphase : s.phase .scanner = .checking line := ha
    have hon : ¬ (s.stopped = true ∨ s.cancelled = true) := hkeeps
    simp only [Stream.next, Stream.checked, if_neg hon]
    split
    all_goals rename_i hparse
    · exact hset hphase (by simp) (fun _ => by simp [GoPhase.unsent, scanned, hparse])
    · refine hset (p := .sending _) hphase (by simp) (fun _ => ?_)
      simp [GoPhase.unsent, scanned, hparse]
    · refine hset (p := .closing) hphase (by simp) (fun _ => ?_)
      simp [GoPhase.unsent, scanned, hparse]
  | send data =>
    unfold Stream.flow
    rw [ha.1]
    change _ = _ ++ ((s.dataChan ++ [data]) ++ scanned s.lines)
    rw [append_assoc]
    rfl
  | close => exact hset ha (by simp) (fun _ => rfl)

theorem flow_of_loses (hstep : streamStep cfg s a s') (hloses : Loses s a) : a.payload = none ∧ s'.flow <+: s.flow := by
  have hprefix : (s.set .scanner .closing).flow <+: s.flow := by
    exact (prefix_append_right_inj _).2 ((prefix_append_right_inj _).2 nil_prefix)
  obtain ⟨rfl, ha⟩ := hstep
  cases a with
  | tooLong | readFails | unsent => exact ⟨rfl, hprefix⟩
  | check =>
    have hoff : s.stopped = true ∨ s.cancelled = true := hloses
    simp only [Stream.next, Stream.checked, if_pos hoff]
    exact ⟨rfl, hprefix⟩
  | _ => exact hloses.elim

/-- **In their order.** In any run `dataHandler` is called with the first payloads of the upstream. -/
theorem handled_prefix (hrun : Run (streamStep cfg) (.start cfg) ls s) :
    ls.filterMap payload <+: scanned cfg.lines := by
  have hflow := hrun.emits_prefix payload Stream.flow (I := StreamInv) ?_ .start
  · exact (prefix_append _ _).trans hflow
  intro s a s' h hstep
  refine ⟨h.next hstep, ?_⟩
  by_cases hloses : Loses s a
  · obtain ⟨hnone, hprefix⟩ := flow_of_loses hstep hloses
    rw [hnone]
    exact hprefix
  · have hsame := h.flow_next hstep hloses
    exact hsame ▸ prefix_rfl

def MainPhase.todo : MainPhase → ℕ
  | .starting g => 9 - g.index
  | .selecting => 5
  | .cancelling => 4
  | .stopping => 3
  | .closing => 2
  | .waiting => 1
  | .returned => 0

def GoPhase.todo : GoPhase → ℕ
  | .checking _ => 9
  | .sending _ => 8
  | .locking _ => 6
  | .calling _ => 5
  | .idle | .waiting => 4
  | .closing => 3
  | .stopping => 2
  | .exiting => 1
  | .done => 0

def Stream.todo (s : Stream) : ℕ :=
  s.main.todo + total GoPhase.todo s.phase + 6 * s.lines.length + 3 * s.dataChan.length + (!s.clientGone).toNat

theorem todo_set (s : Stream) (g : Goroutine) (p : GoPhase) (lines dataChan : List String) :
    { s.set g p with lines, dataChan }.todo + (s.phase g).todo + 6 * s.lines.length + 3 * s.dataChan.length =
      s.todo + p.todo + 6 * lines.length + 3 * dataChan.length := by
  have htotal := total_update GoPhase.todo s.phase g p
  simp only [Stream.todo, Stream.set]
  omega

theorem StreamInv.todo_next (h : StreamInv s) (hstep : streamStep cfg s a s') :
    s'.todo + 1 ≤ s.todo + if a.isTick then 2 + 1 else 0 := by
  obtain ⟨rfl, ha⟩ := hstep
  -- a goroutine that gets to a phase with less to do
  have hset {g : Goroutine} {q p : GoPhase} (hphase : s.phase g = q) (hless : p.todo + 1 ≤ q.todo) :
      (s.set g p).todo + 1 ≤ s.todo := by
    have htodo : (s.set g p).todo + _ + _ + _ = _ := todo_set s g p s.lines s.dataChan
    rw [hphase] at htodo
    omega
  cases a with
  | main a =>
    unfold Stream.todo
    cases a with
    | start g =>
      have hmain : s.main = .starting g := ha
      have hidle := h.idle_of_starting hmain
      have hless : g.next.todo + 1 = (starting g).todo := by cases g <;> rfl
      have htotal := total_update GoPhase.todo s.phase g .waiting
      rw [hidle] at htotal
      simp only [Stream.next, Stream.mainNext, hmain]
      split <;> simp only [Stream.set, GoPhase.todo] at htotal ⊢ <;> omega
    | wake w =>
      have hmain : s.main = .selecting := by
        cases w with
        | timeout => exact ha
        | _ => exact ha.1
      cases w <;> simp only [hmain, Stream.next, Stream.mainNext, Stream.setEndReason, todo] <;> omega
    | returns =>
      simp only [ha.1, Stream.next, Stream.mainNext, todo]
      omega
    | _ =>
      simp only [show s.main = _ from ha, Stream.next, Stream.mainNext, todo]
      omega
  | clientLeaves =>
    unfold Stream.todo
    simp only [show s.clientGone = _ from ha, Stream.next, Bool.not_false, Bool.not_true, Bool.toNat_false,
      Bool.toNat_true]
    omega
  | call c => exact hset ha.1 (by decide : 6 ≤ 6)
  | ends c e =>
    cases e with
    | returns => exact hset (p := .waiting) ha.1 (by decide : 5 ≤ 5)
    | fails => exact hset (p := .exiting) ha.1 (by decide : 2 ≤ 5)
    | stops | panics => exact hset ha.1 (by decide : 3 ≤ 5)
  | stop => exact hset (p := .exiting) ha (by decide)
  | exit => exact hset (p := .done) ha (by decide)
  | leaves | drained => exact hset ha.1 (by decide)
  | timerExpires =>
    simp only [Stream.next]
    split
    · exact hset ha.1 (by decide)
    · exact hset ha.1 (by decide)
  | pingTick =>
    have htodo : (s.next cfg .pingTick).todo + _ + _ + _ = _ := todo_set s .ping _ s.lines s.dataChan
    rw [show s.phase .ping = _ from ha] at htodo
    simp only [isTick, decide_true, if_true, GoPhase.todo] at htodo ⊢
    omega
  | pingTimeout => exact hset ha (by decide)
  | receive data =>
    obtain ⟨hphase, hhead⟩ := ha
    have hlength : s.dataChan.length = s.dataChan.tail.length + 1 := by
      rw [← cons_head?_tail hhead]
      rfl
    have htodo : (s.next cfg (.receive data)).todo + _ + _ + _ = _ := todo_set s .handler _ s.lines _
    rw [hphase, hlength] at htodo
    simp only [GoPhase.todo] at htodo
    omega
  | scan line =>
    obtain ⟨hphase, hhead, -⟩ := ha
    have hlength : s.lines.length = s.lines.tail.length + 1 := by
      rw [← cons_head?_tail hhead]
      rfl
    have htodo : (s.next cfg (.scan line)).todo + _ + _ + _ = _ := todo_set s .scanner _ _ s.dataChan
    rw [hphase, hlength] at htodo
    simp only [GoPhase.todo] at htodo
    omega
  | tooLong | eof => exact hset (p := .closing) ha.1 (by decide)
  | readFails => exact hset (p := .closing) ha (by decide)
  | check line =>
    have hphase : s.phase .scanner = .checking line := ha
    simp only [Stream.next, Stream.checked]
    split
    · exact hset hphase (by decide : 4 ≤ 9)
    split
    case _ => exact hset hphase (by decide : 5 ≤ 9)
    case _ data _ => exact hset hphase (by decide : 9 ≤ 9)
    case _ => exact hset (p := .closing) hphase (by decide : 4 ≤ 9)
  | send data =>
    have htodo : (s.next cfg (.send data)).todo + _ + _ + _ = _ := todo_set s .scanner .waiting s.lines _
    rw [ha.1] at htodo
    simp only [GoPhase.todo, length_append, length_singleton] at htodo
    omega
  | unsent => exact hset ha.1 (by decide : 4 ≤ 8)
  | close => exact hset ha (by decide)

def CanMove (cfg : StreamConfig) (s : Stream) : Prop := ∃ a, s.Enabled cfg a ∧ Undisturbed s a ∧ a.isTick = false

namespace StreamInv

variable (h : StreamInv s)
include h

theorem call_moves {c : StreamCall} (hphase : s.phase g = .locking c) : CanMove cfg s := by
  have hg : c.owner = g := (h.each g).own _ (by rw [hphase]; rfl)
  cases hmutex : s.writeMutex with
  | none => exact ⟨.call c, ⟨hg ▸ hphase, hmutex⟩, trivial, rfl⟩
  | some c' =>
    have hcall := ((h.each c'.owner).mutex c').2 ⟨rfl, hmutex⟩
    cases hholder : s.phase c'.owner with
    | calling =>
      rw [hholder] at hcall
      cases hcall
      exact ⟨.ends c' .returns, ⟨hholder, by cases c' <;> trivial⟩, rfl, rfl⟩
    | _ => rw [hholder] at hcall; exact nomatch hcall

theorem moves (hlive : (s.phase g).live = 1) (hwaits : s.phase g = .waiting → CanMove cfg s)
    (hsends : ∀ data, g = .scanner → s.phase g = .sending data → CanMove cfg s) : CanMove cfg s := by
  have hown {p : GoPhase} (hphase : s.phase g = p) (hp : p.owner = some .scanner) :
      g = .scanner ∧ s.phase .scanner = p := by
    have hg : .scanner = g := (h.each g).own _ (by rw [hphase, hp])
    exact ⟨hg.symm, hg ▸ hphase⟩
  cases hphase : s.phase g with
  | waiting => exact hwaits hphase
  | locking => exact h.call_moves hphase
  | calling c =>
    have hg : c.owner = g := (h.each g).own _ (by rw [hphase]; rfl)
    exact ⟨.ends c .returns, ⟨hg ▸ hphase, by cases c <;> trivial⟩, rfl, rfl⟩
  | checking line => exact ⟨.check line, (hown hphase rfl).2, trivial, rfl⟩
  | sending data => exact hsends data (hown hphase rfl).1 hphase
  | closing => exact ⟨.close, (hown hphase rfl).2, trivial, rfl⟩
  | stopping => exact ⟨.stop g, hphase, trivial, rfl⟩
  | exiting => exact ⟨.exit g, hphase, trivial, rfl⟩
  | idle | done => rw [hphase] at hlive; exact nomatch hlive

theorem handler_moves (hlive : (s.phase .handler).live = 1)
    (hready : s.dataChan ≠ [] ∨ s.dataClosed = true) : CanMove cfg s := by
  refine h.moves hlive (fun hphase => ?_) nofun
  cases hchan : s.dataChan with
  | nil => exact ⟨.drained, ⟨hphase, hchan, hready.resolve_left (not_not.2 hchan)⟩, trivial, rfl⟩
  | cons data => exact ⟨.receive data, ⟨hphase, by rw [hchan]; rfl⟩, trivial, rfl⟩

theorem scanner_moves (hlive : (s.phase .scanner).live = 1)
    (hready : s.dataChan.length < 10 ∨ s.stopped = true) : CanMove cfg s := by
  refine h.moves hlive (fun hphase => ?_) (fun data _ hphase => ?_)
  · cases hlines : s.lines with
    | nil => exact ⟨.eof, ⟨hphase, hlines⟩, trivial, rfl⟩
    | cons line =>
      have hhead : s.lines.head? = some line := by rw [hlines]; rfl
      by_cases hsize : line.utf8ByteSize < cfg.maxTokenSize
      · exact ⟨.scan line, ⟨hphase, hhead, hsize⟩, trivial, rfl⟩
      · exact ⟨.tooLong line, ⟨hphase, hhead, by omega⟩, trivial, rfl⟩
  · rcases hready with hroom | hstopped
    · exact ⟨.send data, ⟨hphase, hroom⟩, trivial, rfl⟩
    · exact ⟨.unsent data, ⟨hphase, .inr hstopped⟩, trivial, rfl⟩

theorem others_move (hlive : (s.phase g).live = 1) (hg : g = .timer ∨ g = .ping)
    (hstopped : s.stopped = true) : CanMove cfg s := by
  refine h.moves hlive (fun hphase => ⟨.leaves g, ⟨hphase, .inl ⟨hg, .inr hstopped⟩⟩, trivial, rfl⟩) ?_
  rintro data rfl
  exact nomatch hg

end StreamInv

theorem GoPhase.isOver_of_dead {p : GoPhase} (hstarted : p ≠ .idle) (hdead : p.live = 0) : p.isOver = true := by
  cases p <;> first | rfl | exact absurd rfl hstarted | exact nomatch hdead

theorem GoPhase.live_of_started {p : GoPhase} (hstarted : p ≠ .idle) (hnot : p.hasStopped = false) : p.live = 1 := by
  cases p <;> first | rfl | exact absurd rfl hstarted | exact nomatch hnot

theorem GoPhase.live_le (p : GoPhase) : p.live ≤ 1 := by cases p <;> exact Nat.le_of_ble_eq_true rfl

/-- **It does not get stuck**, in any run. -/
theorem StreamInv.can_move (h : StreamInv s) (hnot : s.main ≠ .returned) : CanMove cfg s := by
  cases hmain : s.main with
  | starting g => exact ⟨.main (.start g), hmain, trivial, rfl⟩
  | selecting =>
    cases hstopped : s.stopped with
    | true => exact ⟨.main (.wake .stopped), ⟨hmain, hstopped⟩, trivial, rfl⟩
    | false =>
      -- nobody has closed `stopChan`, so the scanner and the data handler are still there
      have hlive : ∀ g, g = .handler ∨ g = .scanner → (s.phase g).live = 1 := by
        intro g hg
        have hstarted := (h.each g).started (by rcases hg with rfl | rfl <;> nofun) (by rw [hmain]; rfl)
        cases hyes : (s.phase g).hasStopped with
        | false => exact GoPhase.live_of_started hstarted hyes
        | true => exact absurd (((h.each g).stopped hg hyes).symm.trans hstopped) (by decide)
      by_cases hroom : s.dataChan.length < 10
      · exact h.scanner_moves (hlive .scanner (.inr rfl)) (.inl hroom)
      refine h.handler_moves (hlive .handler (.inl rfl)) (.inl ?_)
      intro hnil
      rw [hnil, length_nil] at hroom
      omega
  | cancelling => exact ⟨.main .cancel, hmain, trivial, rfl⟩
  | stopping => exact ⟨.main .stop, hmain, trivial, rfl⟩
  | closing => exact ⟨.main .closeBody, hmain, trivial, rfl⟩
  | waiting =>
    have hstopped : s.stopped = true := h.main (by rw [hmain]; rfl)
    by_cases htimer : (s.phase .timer).live = 1
    · exact h.others_move htimer (.inl rfl) hstopped
    by_cases hping : (s.phase .ping).live = 1
    · exact h.others_move hping (.inr rfl) hstopped
    by_cases hscanner : (s.phase .scanner).live = 1
    · exact h.scanner_moves hscanner (.inr hstopped)
    have hle : ∀ g, (s.phase g).live ≤ 1 := fun g => GoPhase.live_le _
    have hle1 := hle .timer
    have hle2 := hle .ping
    have hle3 := hle .scanner
    have hle4 := hle .handler
    by_cases hhandler : (s.phase .handler).live = 1
    · -- the scanner is done, so it has closed `dataChan`
      have hover := GoPhase.isOver_of_dead ((h.each .scanner).started nofun (by rw [hmain]; rfl)) (by omega)
      exact h.handler_moves hhandler (.inr (((h.each .scanner).closed rfl).trans hover))
    have hwg := h.wg
    unfold total at hwg
    exact ⟨.main .returns, ⟨hmain, by omega⟩, trivial, rfl⟩
  | returned => exact absurd hmain hnot

/-- Without disturbances `stopChan` is closed after `dataChan`, and the data handler is done only when `dataChan` is
empty. -/
structure QuietStream (cfg : StreamConfig) (s : Stream) : Prop where
  stopped : s.stopped = true → (s.phase .scanner).isOver = true
  cancelled : s.cancelled = true → s.stopped = true
  cleaning : s.main.cleaning = true → s.stopped = true
  body : s.bodyClosed = true → s.stopped = true
  drained : (s.phase .handler).isOver = true → (s.phase .scanner).isOver = true ∧ s.dataChan = []
  client : s.clientGone = false
  quiet : ∀ g, g = .timer ∨ g = .ping → s.phase g ≠ .stopping
  fits : ∀ line ∈ s.lines, line.utf8ByteSize < cfg.maxTokenSize

theorem QuietStream.start (hsize : ∀ line ∈ cfg.lines, line.utf8ByteSize < cfg.maxTokenSize) :
    QuietStream cfg (.start cfg) where
  stopped := nofun
  cancelled := nofun
  cleaning := nofun
  body := nofun
  drained := nofun
  client := rfl
  quiet _ _ := nofun
  fits := hsize

/-- The move ends no loop of the data handler, and the timer and the ping do not stop the others. -/
def GoPhase.quietly (g : Goroutine) (q p : GoPhase) : Bool :=
  (g != .handler || !p.isOver || q.isOver) && (g != .scanner || !q.isOver || p.isOver) &&
    (g != .timer && g != .ping || p != .stopping)

namespace QuietStream

variable (h : QuietStream cfg s)
include h

theorem working (hworks : (s.phase .scanner).isOver = false) :
    s.stopped = false ∧ (s.phase .handler).isOver = false := by
  refine ⟨?_, ?_⟩
  · cases hstopped : s.stopped with
    | false => rfl
    | true => exact absurd ((h.stopped hstopped).symm.trans hworks) (by decide)
  cases hhandler : (s.phase .handler).isOver with
  | false => rfl
  | true => exact absurd ((h.drained hhandler).1.symm.trans hworks) (by decide)

theorem set {g : Goroutine} {q p : GoPhase} (hphase : s.phase g = q) (hmove : q.quietly g p = true) :
    QuietStream cfg (s.set g p) := by
  obtain ⟨hhandler, hscanner, hquiet⟩ : (g = .handler → p.isOver = true → q.isOver = true) ∧
      (g = .scanner → q.isOver = true → p.isOver = true) ∧ (g = .timer ∨ g = .ping → p ≠ .stopping) := by
    unfold GoPhase.quietly at hmove
    grind
  have hover : (s.phase .scanner).isOver = true → ((s.set g p).phase .scanner).isOver = true := by
    by_cases heq : .scanner = g
    · subst heq
      rw [hphase, Stream.set_phase_self]
      exact hscanner rfl
    · rw [Stream.set_phase_of_ne heq]
      exact id
  refine { h with stopped := fun hon => hover (h.stopped hon), drained := ?_, quiet := ?_ }
  · intro hdone
    have hbefore : (s.phase .handler).isOver = true := by
      by_cases heq : .handler = g
      · subst heq
        rw [Stream.set_phase_self] at hdone
        rw [hphase]
        exact hhandler rfl hdone
      · rw [Stream.set_phase_of_ne heq] at hdone
        exact hdone
    exact ⟨hover (h.drained hbefore).1, (h.drained hbefore).2⟩
  · intro g' hg'
    by_cases heq : g' = g
    · subst heq
      rw [Stream.set_phase_self]
      exact hquiet hg'
    · rw [Stream.set_phase_of_ne heq]
      exact h.quiet g' hg'

theorem mainNext {a : MainAct} (hinv : StreamInv s) (ha : s.MainEnabled a) (hundisturbed : Undisturbed s (.main a)) :
    QuietStream cfg (s.mainNext cfg a) := by
  have hstopped {q : MainPhase} (hmain : s.main = q) (hq : q.cleaning = true) : s.stopped = true :=
    h.cleaning (hmain ▸ hq)
  cases a with
  | start g =>
    have hidle : s.phase g = .idle := hinv.idle_of_starting ha
    have hcleaning : g.next.cleaning = true → s.stopped = true := by cases g <;> intro heq <;> cases heq
    simp only [Stream.mainNext]
    split
    · exact { h with cleaning := hcleaning }
    · exact { h.set hidle (by cases g <;> rfl) with cleaning := hcleaning }
  | wake w =>
    cases w with
    | stopped => exact { h with cleaning := fun _ => ha.2 }
    | timeout => exact hundisturbed.elim
    | clientGone => exact absurd (ha.2.symm.trans h.client) (by decide)
  | cancel => exact { h with cleaning := fun _ => hstopped ha rfl, cancelled := fun _ => hstopped ha rfl }
  | stop =>
    exact { h with
      cleaning := fun _ => rfl
      stopped := fun _ => h.stopped (hstopped ha rfl)
      cancelled := fun _ => rfl
      body := fun _ => rfl }
  | closeBody => exact { h with cleaning := fun _ => hstopped ha rfl, body := fun _ => hstopped ha rfl }
  | returns => exact { h with cleaning := fun _ => hstopped ha.1 rfl }

theorem keeps (ha : s.Enabled cfg a) (hundisturbed : Undisturbed s a) : ¬ Loses s a := by
  intro hloses
  have hoff {q : GoPhase} (hphase : s.phase .scanner = q) (hq : q.isOver = false) (hstopped : s.stopped = true) :
      False := absurd (hstopped.symm.trans (h.working (by rw [hphase, hq])).1) (by decide)
  cases a with
  | tooLong line =>
    obtain ⟨-, hhead, hsize⟩ := ha
    have hfits := h.fits line (mem_of_mem_head? hhead)
    omega
  | readFails => exact hoff ha rfl (h.body hundisturbed)
  | unsent =>
    obtain ⟨hphase, hcancelled | hstopped⟩ := ha
    · exact hoff hphase rfl (h.cancelled hcancelled)
    · exact hoff hphase rfl hstopped
  | check =>
    rcases hloses with hstopped | hcancelled
    · exact hoff ha rfl hstopped
    · exact hoff ha rfl (h.cancelled hcancelled)
  | _ => exact hloses

theorem with_chan {dataChan : List String} (hworks : (s.phase .scanner).isOver = false) :
    QuietStream cfg { s with dataChan := dataChan } :=
  { h with drained := fun hover => absurd (hover.symm.trans (h.working hworks).2) (by decide) }

theorem stop (hphase : s.phase g = .stopping) : QuietStream cfg { s.set g .exiting with stopped := true } := by
  have hover : (s.phase .scanner).isOver = true := by
    cases g with
    | timer => exact absurd hphase (h.quiet .timer (.inl rfl))
    | ping => exact absurd hphase (h.quiet .ping (.inr rfl))
    | handler => exact (h.drained (by rw [hphase]; rfl)).1
    | scanner => rw [hphase]; rfl
  have hnext : QuietStream cfg { s with stopped := true } := { h with
    stopped := fun _ => hover, cancelled := fun _ => rfl, cleaning := fun _ => rfl, body := fun _ => rfl }
  exact hnext.set hphase (by cases g <;> rfl)

theorem next (hinv : StreamInv s) (hstep : within (streamStep cfg) Undisturbed s a s') : QuietStream cfg s' := by
  obtain ⟨⟨rfl, ha⟩, hundisturbed⟩ := hstep
  have hkeeps : ¬ Loses s a := h.keeps ha hundisturbed
  cases a with
  | main => exact h.mainNext hinv ha hundisturbed
  | clientLeaves | timerExpires | pingTimeout => exact hundisturbed.elim
  | call c => exact { h.set ha.1 (by cases c <;> rfl) with }
  | ends c e =>
    cases e with
    | returns => exact { h.set ha.1 (by cases c <;> rfl) with }
    | _ => cases hundisturbed
  | stop => exact h.stop ha
  | exit g => exact { h.set ha (by cases g <;> rfl) with }
  | leaves =>
    obtain ⟨hphase, ⟨rfl | rfl, -⟩ | ⟨rfl, -⟩⟩ := ha
    all_goals exact h.set hphase rfl
  | pingTick => exact h.set ha rfl
  | receive data =>
    have hnext : QuietStream cfg (s.set .handler (.locking (.dataHandler data))) := h.set ha.1 rfl
    exact { hnext with drained := fun heq => by cases heq }
  | drained =>
    obtain ⟨hphase, hempty, hclosed⟩ := ha
    exact { h with
      drained := fun _ => ⟨((hinv.each .scanner).closed rfl).symm.trans hclosed, hempty⟩
      quiet := fun g hg => by rcases hg with rfl | rfl <;> exact h.quiet _ (by simp) }
  | scan line =>
    have hnext : QuietStream cfg (s.set .scanner (.checking line)) := h.set ha.1 rfl
    exact { hnext with fits := fun l hl => h.fits l (mem_of_mem_tail hl) }
  | tooLong | readFails | unsent => exact absurd trivial hkeeps
  | eof => exact { h.set ha.1 rfl with }
  | check =>
    have hnext (p : GoPhase) : QuietStream cfg (s.set .scanner p) := h.set ha rfl
    simp only [Stream.next, Stream.checked]
    split
    · exact hnext .closing
    split
    case _ => exact hnext .waiting
    case _ data _ => exact { hnext (.sending data) with }
    case _ => exact { hnext .closing with }
  | send data =>
    have hnext : QuietStream cfg { s with dataChan := s.dataChan ++ [data] } := h.with_chan (by rw [ha.1]; rfl)
    exact hnext.set ha.1 rfl
  | close => exact { h.set ha rfl with }

end QuietStream

theorem next_returned (hstep : streamStep cfg s a s') (hreturned : s'.main = .returned) :
    s.main = .returned ∨ s'.wg = 0 := by
  obtain ⟨rfl, ha⟩ := hstep
  cases a with
  | main a =>
    cases a with
    | start g =>
      have hnext : (s.mainNext cfg (.start g)).main = g.next := by
        simp only [Stream.mainNext]
        split <;> rfl
      cases g <;> cases hnext.symm.trans hreturned
    | wake w => cases w <;> cases hreturned
    | returns => exact .inr ha.2
    | _ => cases hreturned
  | ends c e => cases e <;> exact .inl hreturned
  | timerExpires =>
    simp only [Stream.next] at hreturned
    split at hreturned <;> exact .inl hreturned
  | check line => exact .inl ((checked_frame s line).2.2.2.1.symm.trans hreturned)
  | _ => exact .inl hreturned

theorem HasReturned.of_run (hrun : Run (streamStep cfg) (.start cfg) ls s) (hmain : s.main = .returned) :
    HasReturned s := by
  have hboth : StreamInv s ∧ (s.main = .returned → s.wg = 0) := by
    refine hrun.inv (I := fun s => StreamInv s ∧ (s.main = .returned → s.wg = 0)) ?_ ⟨.start, nofun⟩
    intro s a s' h hstep
    have hinv := h.1.next hstep
    refine ⟨hinv, ?_⟩
    intro hreturned
    rcases next_returned hstep hreturned with hbefore | hwg
    · exact ((next ⟨h.1, hbefore, h.2 hbefore⟩ hstep).1).wg
    · exact hwg
  exact ⟨hboth.1, hmain, hboth.2 hmain⟩

theorem QuietStream.flow_eq_nil (h : QuietStream cfg s) (hreturned : HasReturned s) : s.flow = [] := by
  have hstarted : s.phase .handler ≠ .idle := (hreturned.inv.each .handler).started nofun (by rw [hreturned.main]; rfl)
  have hlive := le_total GoPhase.live s.phase .handler
  rw [← hreturned.inv.wg, hreturned.wg] at hlive
  have hdone : (s.phase .handler).isOver = true := GoPhase.isOver_of_dead hstarted (by omega)
  obtain ⟨hover, hempty⟩ := h.drained hdone
  unfold Stream.flow
  rw [hempty, GoPhase.pending_of_over hdone, GoPhase.unsent_of_over hover]
  rfl

/-- **Every payload is handled once**, without disturbances: in order, all of them before `StreamScannerHandler`
returns, without overlap; and it returns, as a run has only so many moves besides ticks of the ping timer. -/
theorem stream_delivers_all (hsize : ∀ line ∈ cfg.lines, line.utf8ByteSize < cfg.maxTokenSize)
    (hplain : ∀ line ∈ cfg.lines, PlainLine line)
    (hrun : Run (within (streamStep cfg) Undisturbed) (.start cfg) ls s) :
    ls.filterMap StreamAction.payload <+: payloads cfg.lines ∧
      (s.main = .returned → ls.filterMap StreamAction.payload = payloads cfg.lines) ∧
      Serial none (ls.filterMap StreamAction.callEvent) ∧
      (∀ before after, ls = before ++ .main .returns :: after → ∀ a ∈ after, a.callEvent = none) ∧
      (s.main ≠ .returned → ∃ a s', within (streamStep cfg) Undisturbed s a s' ∧ a.isTick = false) ∧
      ls.length ≤ 6 * cfg.lines.length + 26 + 3 * ls.countP StreamAction.isTick := by
  have hany := hrun.of_within
  have hinv : StreamInv s := .of_run hany
  have hscanned : scanned cfg.lines = payloads cfg.lines := scanned_eq hplain
  have hquiet : StreamInv s ∧ QuietStream cfg s := by
    refine hrun.inv (I := fun s => StreamInv s ∧ QuietStream cfg s) ?_ ⟨.start, .start hsize⟩
    intro s a s' h hstep
    exact ⟨h.1.next hstep.1, h.2.next h.1 hstep⟩
  have hflow := hrun.emits payload Stream.flow (I := fun s => StreamInv s ∧ QuietStream cfg s) ?_ ⟨.start, .start hsize⟩
  · refine ⟨?_, ?_, calls_serial hany, ?_, ?_, ?_⟩
    · rw [← hscanned]
      exact handled_prefix hany
    · intro hmain
      have hnil := hquiet.2.flow_eq_nil (.of_run hany hmain)
      rw [hnil, append_nil] at hflow
      exact hflow.symm.trans hscanned
    · intro before after hls
      exact no_call_after_return hany hls
    · intro hnot
      obtain ⟨a, ha, hundisturbed, htick⟩ := hinv.can_move hnot
      exact ⟨a, s.next cfg a, ⟨⟨rfl, ha⟩, hundisturbed⟩, htick⟩
    have hlength := hany.length_le (p := isTick) (I := StreamInv) Stream.todo
      (fun _ _ _ h hstep => ⟨h.next hstep, h.todo_next hstep⟩) .start
    have htodo : (Stream.start cfg).todo = 6 * cfg.lines.length + 26 := by
      simp only [Stream.todo, Stream.start, todo, total, Goroutine.index, GoPhase.todo, length_nil,
        Bool.not_false, Bool.toNat_true]
      omega
    omega
  · intro s a s' h hstep
    have hkeeps : ¬ Loses s a := h.2.keeps hstep.1.2 hstep.2
    exact ⟨⟨h.1.next hstep.1, h.2.next h.1 hstep⟩, h.1.flow_next hstep.1 hkeeps⟩

/-- **Whatever disturbs it**, payloads are handled in their order, calls neither overlap nor come after the return, and
until then a goroutine can move. -/
theorem stream_safe (hrun : Run (streamStep cfg) (.start cfg) ls s) :
    ls.filterMap StreamAction.payload <+: scanned cfg.lines ∧ Serial none (ls.filterMap StreamAction.callEvent) ∧
      (∀ before after, ls = before ++ .main .returns :: after → ∀ a ∈ after, a.callEvent = none) ∧
      (s.main ≠ .returned → CanMove cfg s) := by
  refine ⟨?_, calls_serial hrun, ?_, (StreamInv.of_run hrun).can_move⟩
  · exact handled_prefix hrun
  · intro before after hls
    exact no_call_after_return hrun hls

def sampleStream : StreamConfig where
  lines := ["data: a", ": note", "data: b", "data: [DONE]"]
  maxTokenSize := 64
  pingEnabled := true
  receivedResponseCount := 0
  isFirstResponse := true
  hasSendResponse := false

def sampleSchedule : List StreamAction :=
  [.main (.start .timer), .main (.start .ping), .main (.start .handler), .main (.start .scanner),
    .scan "data: a", .check "data: a", .send "a", .receive "a",
    .pingTick, .call .pingData, .ends .pingData .returns, .call (.dataHandler "a"),
    .scan ": note", .check ": note", .ends (.dataHandler "a") .returns,
    .scan "data: b", .check "data: b", .send "b", .scan "data: [DONE]", .check "data: [DONE]", .close,
    .receive "b", .call (.dataHandler "b"), .stop .scanner, .main (.wake .stopped), .main .cancel, .main .stop,
    .main .closeBody, .leaves .timer, .exit .timer, .leaves .ping, .exit .ping, .exit .scanner,
    .ends (.dataHandler "b") .returns, .drained, .stop .handler, .exit .handler, .main .returns]

theorem sampleSchedule_run : Run (within (streamStep sampleStream) Undisturbed) (.start sampleStream) sampleSchedule
    (sampleSchedule.foldl (Stream.next sampleStream) (.start sampleStream)) := by
  apply Run.within_and
  apply Run.of_allowed
  decide +kernel

theorem stream_safe_client_leaves :
    let ls := sampleSchedule.take 12 ++ [.clientLeaves]
    CanMove sampleStream (ls.foldl (Stream.next sampleStream) (.start sampleStream)) := by
  intro ls
  have hrun : Run (streamStep sampleStream) (.start sampleStream) ls _ := Run.of_allowed (by decide +kernel)
  exact (stream_safe hrun).2.2.2 (by decide +kernel)

theorem stream_delivers_all_two :
    sampleSchedule.filterMap StreamAction.payload = ["a", "b"] ∧
      sampleSchedule.filterMap StreamAction.payload = payloads sampleStream.lines :=
  ⟨by decide +kernel,
    (stream_delivers_all (by decide +kernel) (by decide +kernel) sampleSchedule_run).2.1 (by decide +kernel)⟩

end NewApi

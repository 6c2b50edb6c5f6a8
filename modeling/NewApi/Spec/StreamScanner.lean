import NewApi.Spec.Distribute
import NewApi.Trace.Calls

/-!
# Reading the stream of an upstream

`StreamScannerHandler` starts up to four goroutines and waits until one of them closes `stopChan`: the scanner sends
the payloads of the upstream through `dataChan`, the data handler calls `dataHandler` for each, the ping goroutine
writes to the client from time to time, and a timer waits for the first payload. Calls that write hold `writeMutex`.

A goroutine makes one move at a time between two accesses to what they share. Each case of a `select` is a move, and
so are a timer that expires, a client that leaves, and calls that fail, stop or panic.
-/

namespace NewApi

open Trace

inductive LineKind
  | skip
  | data (payload : String)
  | done
  deriving DecidableEq, Repr

def parseLine (line : String) : LineKind :=
  if line.utf8ByteSize < 6 then .skip
  else if !hasPrefix line "data:" && !hasPrefix line "[DONE]" then .skip
  else
    let data := trimSpace (String.ofList (line.toList.drop 5))
    if data = "" then .skip
    else if !hasPrefix data "[DONE]" then .data data
    else .done

/-- What `StreamScannerHandler` is given. -/
structure StreamConfig where
  lines : List String
  maxTokenSize : ℕ
  pingEnabled : Bool
  receivedResponseCount : ℕ
  (isFirstResponse hasSendResponse : Bool)

inductive StreamEndReason
  | done | timeout | clientGone | scannerErr | handlerStop | eof | panic | pingFail
  deriving DecidableEq, Repr

inductive Goroutine
  | timer | ping | handler | scanner
  deriving DecidableEq, Repr

inductive StreamCall
  | pingData
  | dataHandler (data : String)
  deriving DecidableEq, Repr

def StreamCall.owner : StreamCall → Goroutine
  | pingData => .ping
  | dataHandler _ => .handler

/-- `StreamScannerHandler` itself; `cancelling` to `waiting` are the statements of `cleanup`. -/
inductive MainPhase
  | starting (g : Goroutine)
  | selecting | cancelling | stopping | closing | waiting | returned
  deriving DecidableEq, Repr

/-- Where a goroutine is; the phases from `closing` on are its deferred calls. -/
inductive GoPhase
  | idle
  | waiting
  | locking (call : StreamCall)
  | calling (call : StreamCall)
  | checking (line : String)
  | sending (data : String)
  | closing | stopping | exiting | done
  deriving DecidableEq, Repr

structure Stream where
  main : MainPhase
  phase : Goroutine → GoPhase
  /-- what the upstream has still to send -/
  (lines dataChan : List String)
  dataClosed : Bool
  /-- `stopChan` is closed -/
  stopped : Bool
  /-- `ctx` is done -/
  (cancelled bodyClosed clientGone : Bool)
  /-- the call that holds it -/
  writeMutex : Option StreamCall
  wg : ℕ
  firstTokenStopped : Bool
  receivedResponseCount : ℕ
  (isFirstResponse hasSendResponse : Bool)
  endReason : Option StreamEndReason

namespace Stream

def start (cfg : StreamConfig) : Stream where
  main := .starting .timer
  phase _ := .idle
  lines := cfg.lines
  dataChan := []
  dataClosed := false
  stopped := false
  cancelled := false
  bodyClosed := false
  clientGone := false
  writeMutex := none
  wg := 0
  firstTokenStopped := false
  receivedResponseCount := cfg.receivedResponseCount
  isFirstResponse := cfg.isFirstResponse
  hasSendResponse := cfg.hasSendResponse
  endReason := none

def set (g : Goroutine) (p : GoPhase) (s : Stream) : Stream := { s with phase := Function.update s.phase g p }

/-- The first reason stays. -/
def setEndReason (reason : StreamEndReason) (s : Stream) : Stream :=
  { s with endReason := s.endReason.or (some reason) }

end Stream

inductive Wake
  | stopped | timeout | clientGone
  deriving DecidableEq, Repr

inductive MainAct
  | start (g : Goroutine)
  | wake (w : Wake)
  | cancel | stop | closeBody | returns
  deriving DecidableEq, Repr

/-- How a call ends. `PingData` may fail, and `dataHandler` may call `Stop` or `Done`, each with its reason. -/
inductive CallEnd
  | returns
  | fails
  | stops (reason : StreamEndReason)
  | panics
  deriving DecidableEq, Repr

inductive StreamAction
  | main (a : MainAct)
  | clientLeaves
  | call (c : StreamCall)
  | ends (c : StreamCall) (e : CallEnd)
  | stop (g : Goroutine)
  | exit (g : Goroutine)
  /-- the timer or the ping goroutine is told to leave its `select` -/
  | leaves (g : Goroutine)
  | timerExpires | pingTick | pingTimeout
  | receive (data : String)
  | drained
  | scan (line : String)
  | tooLong (line : String)
  | eof
  | readFails
  | check (line : String)
  | send (data : String)
  | unsent (data : String)
  | close
  deriving DecidableEq, Repr

def CallEnd.Of : CallEnd → StreamCall → Prop
  | fails, .dataHandler _ => False
  | stops _, .pingData => False
  | stops reason, .dataHandler _ => reason = .handlerStop ∨ reason = .done
  | _, _ => True

def Goroutine.next : Goroutine → MainPhase
  | timer => .starting .ping
  | ping => .starting .handler
  | handler => .starting .scanner
  | scanner => .selecting

namespace Stream

def MainEnabled (s : Stream) : MainAct → Prop
  | .start g => s.main = .starting g
  | .wake .stopped => s.main = .selecting ∧ s.stopped = true
  | .wake .timeout => s.main = .selecting
  | .wake .clientGone => s.main = .selecting ∧ s.clientGone = true
  | .cancel => s.main = .cancelling
  | .stop => s.main = .stopping
  | .closeBody => s.main = .closing
  | .returns => s.main = .waiting ∧ s.wg = 0

def mainNext (cfg : StreamConfig) (s : Stream) : MainAct → Stream
  | .start g =>
    if g = .ping ∧ cfg.pingEnabled = false then { s with main := g.next }
    else { s.set g .waiting with main := g.next, wg := s.wg + 1 }
  | .wake .stopped => { s with main := .cancelling }
  | .wake .timeout => { s.setEndReason .timeout with main := .cancelling }
  | .wake .clientGone => { s.setEndReason .clientGone with main := .cancelling }
  | .cancel => { s with main := .stopping, cancelled := true }
  | .stop => { s with main := .closing, stopped := true }
  | .closeBody => { s with main := .waiting, firstTokenStopped := true, bodyClosed := true }
  | .returns => { s with main := .returned }

/-- `dataChan` has room for ten payloads. -/
def Enabled (cfg : StreamConfig) (s : Stream) : StreamAction → Prop
  | .main a => s.MainEnabled a
  | .clientLeaves => s.clientGone = false
  | .call c => s.phase c.owner = .locking c ∧ s.writeMutex = none
  | .ends c e => s.phase c.owner = .calling c ∧ e.Of c
  | .stop g => s.phase g = .stopping
  | .exit g => s.phase g = .exiting
  | .leaves g => s.phase g = .waiting ∧ ((g = .timer ∨ g = .ping) ∧ (s.cancelled = true ∨ s.stopped = true) ∨
      g = .ping ∧ s.clientGone = true)
  | .timerExpires => s.phase .timer = .waiting ∧ s.firstTokenStopped = false
  | .pingTick => s.phase .ping = .waiting
  | .pingTimeout => s.phase .ping = .waiting
  | .receive data => s.phase .handler = .waiting ∧ s.dataChan.head? = some data
  | .drained => s.phase .handler = .waiting ∧ s.dataChan = [] ∧ s.dataClosed = true
  | .scan line => s.phase .scanner = .waiting ∧ s.lines.head? = some line ∧ line.utf8ByteSize < cfg.maxTokenSize
  | .tooLong line => s.phase .scanner = .waiting ∧ s.lines.head? = some line ∧ cfg.maxTokenSize ≤ line.utf8ByteSize
  | .eof => s.phase .scanner = .waiting ∧ s.lines = []
  | .readFails => s.phase .scanner = .waiting
  | .check line => s.phase .scanner = .checking line
  | .send data => s.phase .scanner = .sending data ∧ s.dataChan.length < 10
  | .unsent data => s.phase .scanner = .sending data ∧ (s.cancelled = true ∨ s.stopped = true)
  | .close => s.phase .scanner = .closing

def checked (s : Stream) (line : String) : Stream :=
  if s.stopped = true ∨ s.cancelled = true then s.set .scanner .closing
  else match parseLine line with
    | .skip => s.set .scanner .waiting
    | .data data =>
      { s.set .scanner (.sending data) with
        isFirstResponse := false
        hasSendResponse := s.hasSendResponse || s.isFirstResponse
        receivedResponseCount := s.receivedResponseCount + 1
        firstTokenStopped := true }
    | .done => (s.setEndReason .done).set .scanner .closing

/-- A failed ping ends its goroutine, and whatever ends the data handler or panics closes `stopChan` first. -/
def ended (s : Stream) (c : StreamCall) (e : CallEnd) : Stream :=
  let s := { s with writeMutex := none }
  match e with
  | .returns => s.set c.owner .waiting
  | .fails => (s.setEndReason .pingFail).set c.owner .exiting
  | .stops reason => (s.setEndReason reason).set c.owner .stopping
  | .panics => (s.setEndReason .panic).set c.owner .stopping

def next (cfg : StreamConfig) (s : Stream) : StreamAction → Stream
  | .main a => s.mainNext cfg a
  | .clientLeaves => { s with clientGone := true }
  | .call c => { s.set c.owner (.calling c) with writeMutex := some c }
  | .ends c e => s.ended c e
  | .stop g => { s.set g .exiting with stopped := true }
  | .exit g => { s.set g .done with wg := s.wg - 1 }
  | .leaves g => s.set g .exiting
  | .timerExpires =>
    if s.receivedResponseCount = 0 ∧ s.hasSendResponse = false then (s.setEndReason .timeout).set .timer .stopping
    else s.set .timer .exiting
  | .pingTick => s.set .ping (.locking .pingData)
  | .pingTimeout => s.set .ping .exiting
  | .receive data => { s.set .handler (.locking (.dataHandler data)) with dataChan := s.dataChan.tail }
  | .drained => s.set .handler .stopping
  | .scan line => { s.set .scanner (.checking line) with lines := s.lines.tail }
  | .tooLong _ => (s.setEndReason .scannerErr).set .scanner .closing
  | .eof => (s.setEndReason .eof).set .scanner .closing
  | .readFails => (s.setEndReason .scannerErr).set .scanner .closing
  | .check line => s.checked line
  | .send data => { s.set .scanner .waiting with dataChan := s.dataChan ++ [data] }
  | .unsent _ => s.set .scanner .closing
  | .close => { s.set .scanner .stopping with dataClosed := true }

end Stream

instance (e : CallEnd) (c : StreamCall) : Decidable (e.Of c) := by
  unfold CallEnd.Of
  split <;> infer_instance

instance (s : Stream) (a : MainAct) : Decidable (s.MainEnabled a) := by
  unfold Stream.MainEnabled
  split <;> infer_instance

instance (cfg : StreamConfig) (s : Stream) (a : StreamAction) : Decidable (s.Enabled cfg a) := by
  unfold Stream.Enabled
  split <;> infer_instance

def streamStep (cfg : StreamConfig) : Stream → StreamAction → Stream → Prop :=
  within (fun s a s' => s' = s.next cfg a) fun s a => s.Enabled cfg a

namespace StreamAction

def payload : StreamAction → Option String
  | .call (.dataHandler data) => some data
  | _ => none

def callEvent : StreamAction → Option (CallEvent StreamCall)
  | .call c => some (.started c)
  | .ends c _ => some (.ended c)
  | _ => none

def isTick (a : StreamAction) : Bool := a = .pingTick

end StreamAction

/-- No timer expires, the client stays, calls succeed, and the upstream can be read until its body is closed. -/
def Undisturbed (s : Stream) : StreamAction → Prop
  | .main (.wake .timeout) => False
  | .clientLeaves => False
  | .ends _ e => e = .returns
  | .timerExpires => False
  | .pingTimeout => False
  | .readFails => s.bodyClosed = true
  | _ => True

instance (s : Stream) (a : StreamAction) : Decidable (Undisturbed s a) := by
  unfold Undisturbed
  split <;> infer_instance

end NewApi

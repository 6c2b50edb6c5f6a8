import NewApi.Spec.AuthFlow

/-!
# One-time flows are one-time

The transaction that has set `consumed_at` holds the row until it ends, and a consumed row stays so until it is
deleted (`FlowSpent`). An assertion is recorded by a row under its hash, which is deleted only when the assertion has
expired, since it was not accepted long before its own date (`Guarded`).
-/

namespace NewApi

open Trace FlowMem FlowOp Function List Option FlowWork

variable {ι : Type} [DecidableEq ι] {w : FlowWorld} {op : FlowOp} {i j : ι} {e : FlowEnv} {p p' : FlowPhase}
variable {m m' : FlowMem ι}

def FlowOp.token : FlowOp → String
  | .create _ token | .consume token _ | .bind token _ => token
  | .login _ | .cleanup => ""

def FlowOp.params : FlowOp → Option UrlValues
  | .bind _ params | .login params => some params
  | .create .. | .consume .. | .cleanup => none

def assertionRow (w : FlowWorld) (m : FlowMem ι) (assertion : String) (expiresAt : ℤ) : AuthFlow :=
  ⟨m.nextId, w.tokenHash ("external:" ++ trimSpace authFlowPurposeTelegramAssertion ++ ":" ++ trimSpace assertion),
    trimSpace authFlowPurposeTelegramAssertion, "", "", 0, "", "", expiresAt, some m.now⟩

inductive FlowStep (w : FlowWorld) (op : FlowOp) (i : ι) (m : FlowMem ι) : FlowPhase → FlowPhase → FlowMem ι → Prop
  | created {flow} (hid : flow.id = m.nextId) (hfresh : flow.consumedAt = none) :
      FlowStep w op i m .idle (.done (.ok (.created flow)))
        { m with flows := m.flows ++ [flow], nextId := m.nextId + 1 }
  | verified {params id} (hop : op.params = some params)
      (hverify : verifyTelegramAuthorization w params w.telegramBotToken m.now = .ok id) :
      FlowStep w op i m .idle .verified m
  | pending {flow} : FlowStep w op i m .verified (.pending flow) m
  | claiming {params assertion expiresAt} (hop : op.params = some params)
      (hclaim : telegramAuthorizationClaim params m.now = .ok (assertion, expiresAt)) :
      FlowStep w op i m .verified (.claiming assertion expiresAt) m
  | consuming {params assertion expiresAt flow matching}
      (hop : op.params = some params) (hnot : ∀ token matching', op ≠ .consume token matching')
      (hclaim : telegramAuthorizationClaim params m.now = .ok (assertion, expiresAt)) :
      FlowStep w op i m (.pending flow) (.consuming matching (some (assertion, expiresAt))) m
  | read {p : FlowPhase} {m' matching flow claim}
      (hp : p = .idle ∧ claim = none ∧ op = .consume op.token matching ∨ p = .consuming matching claim)
      (hmem : flow ∈ m.flows) (hfits : matching.fits w op.token flow = true) (hfresh : flow.consumedAt = none)
      (hm' : m' = m ∨ m.rowHeldByOther i flow.id = false ∧ m' = m.lockRow i flow.id) :
      FlowStep w op i m p (.read matching flow claim) m'
  | updated {matching flow claim}
      (hnow : m.now < flow.expiresAt) (hfree : m.rowHeldByOther i flow.id = false)
      (hrow : ∃ row ∈ m.flows, row.id = flow.id ∧ row.consumedAt = none) :
      FlowStep w op i m (.read matching flow claim) (.consumed matching { flow with consumedAt := some m.now } claim)
        (m.lockRow i flow.id)
  | acted {matching flow} :
      FlowStep w op i m (.consumed matching flow none) (.acted ⟨some (matching, flow), none⟩) m
  | claimed {p : FlowPhase} {consumes assertion expiresAt}
      (hp : p = .claiming assertion expiresAt ∧ consumes = none ∨
        ∃ matching flow, p = .consumed matching flow (some (assertion, expiresAt)) ∧ consumes = some (matching, flow))
      (hnow : m.now < expiresAt) (hfree : m.keyLocks (assertionRow w m assertion expiresAt).tokenHash = none)
      (hnone : ∀ row ∈ m.flows, row.tokenHash ≠ (assertionRow w m assertion expiresAt).tokenHash) :
      FlowStep w op i m p (.acted ⟨consumes, some (assertionRow w m assertion expiresAt)⟩)
        { m with
          nextId := m.nextId + 1
          keyLocks := Function.update m.keyLocks (assertionRow w m assertion expiresAt).tokenHash (some i) }
  | committed {work} :
      FlowStep w op i m (.acted work) (.done (.ok (.committed work))) (m.commit i work)
  | timed : FlowStep w op i m .idle (.cleaning m.now) m
  | cleaned {now} (hfree : ∀ row ∈ m.flows, row.outdated now = true → m.rowLocks row.id = none) :
      FlowStep w op i m (.cleaning now) (.done (.ok .cleaned))
        { m with flows := m.flows.filter fun row => !row.outdated now }
  | failed {p : FlowPhase} {m'} (err : FlowErr) (hm' : m' = m ∨ m' = m.release i) :
      FlowStep w op i m p (.done (.error err)) m'

namespace FlowStep

theorem of_abort {err : FlowErr} (h : some (m.abort i err) = some (p', m')) : FlowStep w op i m p p' m' := by
  cases h
  exact .failed err (.inr rfl)

theorem of_error {err : FlowErr} (h : some (FlowPhase.done (.error err), m) = some (p', m')) :
    FlowStep w op i m p p' m' := by
  cases h
  exact .failed err (.inl rfl)

variable {matching : AuthFlowMatch} {claim : Option (String × ℤ)} {flow : AuthFlow} {params : UrlValues}

theorem of_read (hp : p = .idle ∧ claim = none ∧ op = .consume op.token matching ∨ p = .consuming matching claim)
    (h : consumeRead w i e m op.token matching claim = some (p', m')) : FlowStep w op i m p p' m' := by
  unfold consumeRead at h
  split at h
  · exact of_error h
  split at h
  · exact of_abort h
  split at h
  · exact of_abort h
  rename_i flow hfind
  split at h
  · cases h
  rename_i hheld
  split at h
  · exact of_abort h
  rename_i hconsumed
  cases h
  refine .read hp (mem_of_find?_eq_some hfind) (find?_some hfind) (by simpa using hconsumed) ?_
  cases hlocks : w.rowLocks with
  | false => exact .inl rfl
  | true =>
    rw [hlocks, Bool.true_and, Bool.not_eq_true] at hheld
    exact .inr ⟨hheld, rfl⟩

theorem of_update (h : consumeUpdate i e m matching flow claim = some (p', m')) :
    FlowStep w op i m (.read matching flow claim) p' m' := by
  unfold consumeUpdate at h
  split_ifs at h with hnow _ hheld hany
  · exact of_abort h
  · exact of_abort h
  · cases h
    obtain ⟨row, hrow, hconsumable⟩ := any_eq_true.1 hany
    simp only [AuthFlow.consumable, Bool.and_eq_true, beq_iff_eq, isNone_iff_eq_none] at hconsumable
    exact .updated (by omega) (Bool.not_eq_true _ ▸ hheld) ⟨row, hrow, hconsumable.1.1, hconsumable.1.2⟩
  · exact of_abort h

theorem of_claim {consumes : Option (AuthFlowMatch × AuthFlow)} {assertion : String} {expiresAt : ℤ}
    (hp : p = .claiming assertion expiresAt ∧ consumes = none ∨
      ∃ matching flow, p = .consumed matching flow (some (assertion, expiresAt)) ∧ consumes = some (matching, flow))
    (h : claimExternalAuthAssertionWithTx w i e m consumes authFlowPurposeTelegramAssertion assertion expiresAt =
      some (p', m')) : FlowStep w op i m p p' m' := by
  simp only [claimExternalAuthAssertionWithTx] at h
  split_ifs at h with hvalid _ hfree hnone
  · exact of_abort h
  · exact of_abort h
  · exact of_abort h
  cases h
  have hnow : m.now < expiresAt := by
    by_contra hlate
    exact hvalid (.inr (.inr (by omega)))
  refine .claimed hp hnow (not_isSome_iff_eq_none.1 hfree) ?_
  intro row hrow heq
  exact hnone (any_eq_true.2 ⟨row, hrow, by rw [heq]; exact beq_self_eq_true _⟩)

theorem of_act (h : consumeAct w i e m matching flow claim = some (p', m')) :
    FlowStep w op i m (.consumed matching flow claim) p' m' := by
  unfold consumeAct at h
  split at h
  · split at h
    · exact of_abort h
    · cases h
      exact .acted
  · exact of_claim (.inr ⟨_, _, rfl, rfl⟩) h

theorem of_commit {work : FlowWork} (h : commitStmt i e m work = some (p', m')) :
    FlowStep w op i m (.acted work) p' m' := by
  unfold commitStmt at h
  split at h
  · exact of_abort h
  · cases h
    exact .committed

theorem of_verify (hop : op.params = some params) (h : verifyStmt w m params = some (p', m')) :
    FlowStep w op i m .idle p' m' := by
  unfold verifyStmt at h
  split at h
  · exact of_error h
  rename_i hverify
  cases h
  exact .verified hop hverify

theorem of_claimTelegram {next : String → ℤ → FlowPhase} (h : claimTelegramStmt e m params next = some (p', m'))
    (hnext : ∀ assertion expiresAt, telegramAuthorizationClaim params m.now = .ok (assertion, expiresAt) →
      FlowStep w op i m p (next assertion expiresAt) m) : FlowStep w op i m p p' m' := by
  unfold claimTelegramStmt at h
  split at h
  · exact of_error h
  split at h
  · exact of_error h
  rename_i hclaim
  cases h
  exact hnext _ _ hclaim

end FlowStep

variable {token : String} {matching : AuthFlowMatch} {params : UrlValues} {now : ℤ}

theorem createAuthFlowStmt_step {input : AuthFlowCreate}
    (h : createAuthFlowStmt w e m input token = some (p', m')) : FlowStep w op i m .idle p' m' := by
  simp only [createAuthFlowStmt] at h
  split_ifs at h
  · exact .of_error h
  · exact .of_error h
  · exact .of_error h
  · cases h
    exact .created rfl rfl

theorem consumeAuthFlowWithActionStmt_step
    (h : consumeAuthFlowWithActionStmt w i e m token matching p = some (p', m')) :
    FlowStep w (.consume token matching) i m p p' m' := by
  unfold consumeAuthFlowWithActionStmt at h
  split at h
  · exact .of_read (.inl ⟨rfl, rfl, rfl⟩) h
  · exact .of_update h
  · exact .of_act h
  · exact .of_commit h
  · cases h

theorem telegramBindStmt_step (h : telegramBindStmt w i e m token params p = some (p', m')) :
    FlowStep w (.bind token params) i m p p' m' := by
  unfold telegramBindStmt at h
  split at h
  · exact .of_verify rfl h
  · split at h
    · exact .of_error h
    · cases h
      exact .pending
  · exact .of_claimTelegram h fun _ _ hclaim => .consuming rfl (fun _ _ => nofun) hclaim
  · exact .of_read (.inr rfl) h
  · exact .of_update h
  · exact .of_act h
  · exact .of_commit h
  · cases h

theorem telegramLoginStmt_step (h : telegramLoginStmt w i e m params p = some (p', m')) :
    FlowStep w (.login params) i m p p' m' := by
  unfold telegramLoginStmt at h
  split at h
  · exact .of_verify rfl h
  · exact .of_claimTelegram h fun _ _ hclaim => .claiming rfl hclaim
  · exact .of_claim (.inl ⟨rfl, rfl⟩) h
  · exact .of_commit h
  · cases h

theorem deleteExpiredAuthFlowsStmt_step (h : deleteExpiredAuthFlowsStmt e m p = some (p', m')) :
    FlowStep w op i m p p' m' := by
  unfold deleteExpiredAuthFlowsStmt at h
  split at h
  · cases h
    exact .timed
  · split at h
    · exact .of_error h
    split_ifs at h with hheld
    cases h
    refine .cleaned ?_
    intro row hrow houtdated
    by_contra hlocked
    exact hheld (any_eq_true.2 ⟨row, hrow, by simpa [houtdated, isSome_iff_ne_none] using hlocked⟩)
  · cases h

theorem FlowOp.stmt_step (h : op.stmt w i e m p = some (p', m')) : FlowStep w op i m p p' m' := by
  cases op with
  | create =>
    simp only [stmt] at h
    split at h
    · exact createAuthFlowStmt_step h
    · cases h
  | consume => exact consumeAuthFlowWithActionStmt_step h
  | bind => exact telegramBindStmt_step h
  | login => exact telegramLoginStmt_step h
  | cleanup => exact deleteExpiredAuthFlowsStmt_step h

structure Assertion where
  hash : List UInt8
  date : ℤ
  deriving DecidableEq

namespace Assertion

variable (a : Assertion)

def earliest : ℤ := timeUnix a.date - telegramAuthorizationFutureSkew

def expiresAt : ℤ := timeUnix a.date + telegramAuthorizationMaxAge

def text : String := hexEncodeToString a.hash

def key (w : FlowWorld) : String :=
  w.tokenHash ("external:" ++ trimSpace authFlowPurposeTelegramAssertion ++ ":" ++ trimSpace a.text)

end Assertion

def FlowOp.assertion (op : FlowOp) : Option Assertion := do
  let params ← op.params
  let hash ← hexDecodeString (params.get "hash")
  let date ← parseInt64 (params.get "auth_date")
  return ⟨hash, date⟩

theorem FlowOp.assertion_eq {hash : List UInt8} {date : ℤ} (hop : op.params = some params)
    (hhash : hexDecodeString (params.get "hash") = some hash)
    (hdate : parseInt64 (params.get "auth_date") = some date) : op.assertion = some ⟨hash, date⟩ := by
  simp only [assertion, hop, bind_eq_bind, bind_some, hhash, hdate]
  rfl

theorem verified_earliest {id : String} (hop : op.params = some params)
    (h : verifyTelegramAuthorization w params w.telegramBotToken now = .ok id) :
    ∃ a, op.assertion = some a ∧ a.earliest ≤ now := by
  unfold verifyTelegramAuthorization at h
  split at h
  · cases h
  split at h
  · cases h
  split at h
  · cases h
  split at h
  · cases h
  rename_i authDate hdate
  split_ifs at h with hwindow hhash
  · refine ⟨_, assertion_eq hop hhash hdate, ?_⟩
    have hle : authDate ≤ Time.unix (now + telegramAuthorizationFutureSkew) := by
      by_contra hlate
      exact hwindow (.inr (by omega))
    simp only [Time.unix, unixSecond] at hle
    simp only [Assertion.earliest, timeUnix, unixSecond]
    omega

theorem claim_eq {text : String} {expiresAt now : ℤ} (hop : op.params = some params)
    (h : telegramAuthorizationClaim params now = .ok (text, expiresAt)) :
    ∃ a, op.assertion = some a ∧ text = a.text ∧ expiresAt = a.expiresAt := by
  unfold telegramAuthorizationClaim at h
  split at h
  · cases h
  rename_i authDate hdate
  split at h
  · cases h
  rename_i hashBytes hhash
  simp only at h
  split at h
  · cases h
  · cases h
    exact ⟨_, assertion_eq hop hhash hdate, rfl, rfl⟩

structure Assertion.RecordedBy (w : FlowWorld) (a : Assertion) (row : AuthFlow) : Prop where
  key : row.tokenHash = a.key w
  expiresAt : row.expiresAt = a.expiresAt
  time : ∃ now, row.consumedAt = some now ∧ a.earliest ≤ now

variable {a : Assertion} {row : AuthFlow}

theorem Assertion.RecordedBy.used (h : a.RecordedBy w row) : row.consumedAt ≠ none := by
  obtain ⟨now, htime, -⟩ := h.time
  rw [htime]
  exact some_ne_none _

/-- **The retention.** A row that shows the use of an assertion is deleted only when the assertion has expired. -/
theorem Assertion.RecordedBy.expired (h : a.RecordedBy w row)
    (houtdated : row.outdated now = true) : a.expiresAt ≤ now := by
  obtain ⟨time, htime, hle⟩ := h.time
  simp only [AuthFlow.outdated, htime, any_some, Bool.or_eq_true, decide_eq_true_eq, h.expiresAt] at houtdated
  simp only [Assertion.earliest, Assertion.expiresAt, telegramAuthorizationFutureSkew, telegramAuthorizationMaxAge,
    authFlowDefaultCleanupRetention, unixSecond] at hle houtdated ⊢
  omega

def FlowWork.write (work : FlowWork) (row : AuthFlow) : AuthFlow :=
  match work.consumes with
  | some (_, flow) =>
    flow.consumedAt.elim row fun now => if row.consumable flow.id now then { row with consumedAt := some now } else row
  | none => row

theorem FlowMem.commit_flows (i : ι) (work : FlowWork) (m : FlowMem ι) :
    (m.commit i work).flows = m.flows.map work.write ++ work.claims.toList := by
  obtain ⟨consumes, claims⟩ := work
  cases consumes with
  | none =>
    have hwrite : (FlowWork.mk none claims).write = id := rfl
    simp [commit, release, hwrite]
  | some c =>
    obtain ⟨matching, flow⟩ := c
    cases htime : flow.consumedAt with
    | none =>
      have hwrite : (FlowWork.mk (some (matching, flow)) claims).write = id := by
        funext row
        simp [write, htime]
      simp [commit, release, htime, hwrite]
    | some => simp [commit, release, setConsumed, write, htime]

theorem FlowMem.commit_locks (i : ι) (work : FlowWork) (m : FlowMem ι) :
    (m.commit i work).rowLocks = (m.release i).rowLocks ∧ (m.commit i work).keyLocks = (m.release i).keyLocks ∧
      (m.commit i work).nextId = m.nextId ∧ (m.commit i work).now = m.now := by
  obtain ⟨consumes, claims⟩ := work
  cases consumes with
  | none => exact ⟨rfl, rfl, rfl, rfl⟩
  | some c =>
    obtain ⟨matching, flow⟩ := c
    cases htime : flow.consumedAt with
    | none => simp [commit, release, htime]
    | some => simp [commit, release, setConsumed, htime]

namespace FlowWork

variable {work : FlowWork} {row : AuthFlow}

theorem write_cases (work : FlowWork) (row : AuthFlow) : work.write row = row ∨
    ∃ matching flow now, work.consumes = some (matching, flow) ∧ row.id = flow.id ∧ row.consumedAt = none ∧
      work.write row = { row with consumedAt := some now } := by
  obtain ⟨consumes, claims⟩ := work
  cases consumes with
  | none => exact .inl rfl
  | some c =>
    obtain ⟨matching, flow⟩ := c
    cases htime : flow.consumedAt with
    | none => exact .inl (by simp [write, htime, Option.elim])
    | some now =>
      simp only [write, htime, Option.elim]
      split_ifs with hcond
      · simp only [AuthFlow.consumable, Bool.and_eq_true, beq_iff_eq, isNone_iff_eq_none] at hcond
        exact .inr ⟨matching, flow, now, rfl, hcond.1.1, hcond.1.2, rfl⟩
      · exact .inl rfl

theorem write_of_consumed (h : row.consumedAt ≠ none) : work.write row = row := by
  rcases work.write_cases row with heq | ⟨_, _, _, _, _, hfresh, _⟩
  · exact heq
  · exact absurd hfresh h

theorem write_of_fresh (h : (work.write row).consumedAt = none) : work.write row = row := by
  rcases work.write_cases row with heq | ⟨_, _, _, _, _, _, heq⟩
  · exact heq
  · rw [heq] at h
    cases h

end FlowWork

structure FlowRely (j : ι) (m m' : FlowMem ι) : Prop where
  now : m.now ≤ m'.now
  nextId : m.nextId ≤ m'.nextId
  rowLock : ∀ id, m.rowLocks id = some j → m'.rowLocks id = some j
  keyLock : ∀ key, m.keyLocks key = some j → m'.keyLocks key = some j
  back : ∀ row ∈ m'.flows, row.consumedAt = none → row ∈ m.flows ∨ m.nextId ≤ row.id
  held : ∀ row ∈ m.flows, row.consumedAt = none → m.rowLocks row.id = some j → row ∈ m'.flows
  used : ∀ row ∈ m.flows, row.consumedAt ≠ none → row ∈ m'.flows ∨ ∃ now, now ≤ m'.now ∧ row.outdated now = true

def AssertionFits (op : FlowOp) (now : ℤ) (claim : Option (String × ℤ)) : Prop :=
  match claim with
  | none => op.params = none
  | some (text, expiresAt) => ∃ a, op.assertion = some a ∧ text = a.text ∧ expiresAt = a.expiresAt ∧ a.earliest ≤ now

structure Asked (w : FlowWorld) (op : FlowOp) (matching : AuthFlowMatch) (flow : AuthFlow) : Prop where
  fits : matching.fits w op.token flow = true
  given : ∀ token matching', op = .consume token matching' → matching = matching'

/-- A flow that was read without being consumed: its row is as it was, or was consumed or deleted. -/
structure ReadFits (w : FlowWorld) (op : FlowOp) (m : FlowMem ι) (matching : AuthFlowMatch) (flow : AuthFlow) :
    Prop where
  asked : Asked w op matching flow
  fresh : flow.consumedAt = none
  id : flow.id < m.nextId
  same : ∀ row ∈ m.flows, row.id = flow.id → row.consumedAt = none → row = flow

/-- A flow that the transaction of the call has consumed, and whose row it holds. -/
structure Holding (i : ι) (m : FlowMem ι) (flow : AuthFlow) : Prop where
  lock : m.rowLocks flow.id = some i
  row : { flow with consumedAt := none } ∈ m.flows
  id : flow.id < m.nextId
  time : ∃ now, flow.consumedAt = some now ∧ now < flow.expiresAt

structure FlowSpent (flow : AuthFlow) (m : FlowMem ι) : Prop where
  id : flow.id < m.nextId
  rows : ∀ row ∈ m.flows, row.id = flow.id → row.consumedAt ≠ none

/-- No call can claim the assertion any more: a row shows its use, or it has expired. -/
def Guarded (w : FlowWorld) (a : Assertion) (m : FlowMem ι) : Prop :=
  (∃ row ∈ m.flows, a.RecordedBy w row) ∨ a.expiresAt ≤ m.now

/-- An assertion that the transaction of the call has recorded, and whose key it holds. -/
structure Recording (w : FlowWorld) (op : FlowOp) (i : ι) (m : FlowMem ι) (row : AuthFlow) : Prop where
  lock : m.keyLocks row.tokenHash = some i
  row : ∃ a, op.assertion = some a ∧ a.RecordedBy w row

def FlowFits (w : FlowWorld) (op : FlowOp) (i : ι) (m : FlowMem ι) : FlowPhase → Prop
  | .idle => True
  | .verified | .pending _ => ∃ a, op.assertion = some a ∧ a.earliest ≤ m.now
  | .claiming text expiresAt => AssertionFits op m.now (some (text, expiresAt))
  | .consuming _ claim => AssertionFits op m.now claim ∧ ∀ token matching', op ≠ .consume token matching'
  | .read matching flow claim => AssertionFits op m.now claim ∧ ReadFits w op m matching flow
  | .consumed _ flow claim => AssertionFits op m.now claim ∧ Holding i m flow
  | .acted work =>
    (∀ matching flow, work.consumes = some (matching, flow) → Holding i m flow) ∧
      (∀ row, work.claims = some row → Recording w op i m row) ∧ (work.claims = none → op.params = none)
  | .cleaning now => now ≤ m.now
  | .done result => ∀ work, result = .ok (.committed work) →
    (∀ matching flow, work.consumes = some (matching, flow) → FlowSpent flow m) ∧
      ∀ a, op.assertion = some a → work.claims.isSome = true ∧ Guarded w a m

section Rely

omit [DecidableEq ι]

variable {flow : AuthFlow} {matching : AuthFlowMatch} {claim : Option (String × ℤ)}

theorem AssertionFits.mono {now now' : ℤ} (h : AssertionFits op now claim) (hnow : now ≤ now') :
    AssertionFits op now' claim := by
  cases claim with
  | none => exact h
  | some =>
    obtain ⟨a, ha, htext, hexpires, hle⟩ := h
    exact ⟨a, ha, htext, hexpires, hle.trans hnow⟩

theorem ReadFits.rely (h : ReadFits w op m matching flow) (hrely : FlowRely j m m') :
    ReadFits w op m' matching flow := by
  refine ⟨h.asked, h.fresh, h.id.trans_le hrely.nextId, ?_⟩
  intro row hrow hid hfresh
  rcases hrely.back row hrow hfresh with hold | hnew
  · exact h.same row hold hid hfresh
  · have hlt := h.id
    omega

theorem Holding.rely (h : Holding j m flow) (hrely : FlowRely j m m') : Holding j m' flow :=
  ⟨hrely.rowLock _ h.lock, hrely.held _ h.row rfl h.lock, h.id.trans_le hrely.nextId, h.time⟩

theorem FlowSpent.rely (h : FlowSpent flow m) (hrely : FlowRely j m m') : FlowSpent flow m' := by
  refine ⟨h.id.trans_le hrely.nextId, ?_⟩
  intro row hrow hid hfresh
  rcases hrely.back row hrow hfresh with hold | hnew
  · exact h.rows row hold hid hfresh
  · have hlt := h.id
    omega

theorem Guarded.rely (h : Guarded w a m) (hrely : FlowRely j m m') : Guarded w a m' := by
  rcases h with ⟨row, hrow, hrec⟩ | hlate
  · rcases hrely.used row hrow hrec.used with hkept | ⟨now, hnow, houtdated⟩
    · exact .inl ⟨row, hkept, hrec⟩
    · exact .inr ((hrec.expired houtdated).trans hnow)
  · exact .inr (hlate.trans hrely.now)

theorem Recording.used (h : Recording w op j m row) : row.consumedAt ≠ none := by
  obtain ⟨a, -, hrec⟩ := h.row
  exact hrec.used

theorem Recording.rely (h : Recording w op j m row) (hrely : FlowRely j m m') : Recording w op j m' row :=
  ⟨hrely.keyLock _ h.lock, h.row⟩

theorem FlowFits.rely (h : FlowFits w op j m p) (hrely : FlowRely j m m') : FlowFits w op j m' p := by
  cases p with
  | idle => trivial
  | verified | pending =>
    obtain ⟨a, ha, hle⟩ := h
    exact ⟨a, ha, hle.trans hrely.now⟩
  | claiming text expiresAt =>
    have hclaim : AssertionFits op m.now (some (text, expiresAt)) := h
    exact hclaim.mono hrely.now
  | consuming => exact ⟨h.1.mono hrely.now, h.2⟩
  | read | consumed => exact ⟨h.1.mono hrely.now, h.2.rely hrely⟩
  | acted =>
    obtain ⟨hconsumes, hclaims, hnone⟩ := h
    exact ⟨fun matching flow hw => (hconsumes matching flow hw).rely hrely,
      fun row hw => (hclaims row hw).rely hrely, hnone⟩
  | cleaning now => exact le_trans h hrely.now
  | done =>
    intro work hresult
    obtain ⟨hspent, hguarded⟩ := h work hresult
    exact ⟨fun matching flow hw => (hspent matching flow hw).rely hrely,
      fun a ha => ⟨(hguarded a ha).1, (hguarded a ha).2.rely hrely⟩⟩

end Rely

structure FlowTables (m : FlowMem ι) : Prop where
  ids : ∀ row ∈ m.flows, row.consumedAt = none → row.id < m.nextId
  same : ∀ row ∈ m.flows, ∀ row' ∈ m.flows, row.consumedAt = none → row'.consumedAt = none → row.id = row'.id →
    row = row'

theorem released {κ : Type} {locks : κ → Option ι} {k : κ} (hne : j ≠ i) (h : locks k = some j) :
    (if locks k = some i then none else locks k) = some j := by
  have hother : locks k ≠ some i := by
    rw [h]
    exact fun heq => hne (some.inj heq)
  rw [if_neg hother, h]

theorem FlowMem.lockRow_rowLocks {id id' : ℕ} (hfree : m.rowHeldByOther i id = false) (hne : j ≠ i)
    (h : m.rowLocks id' = some j) : (m.lockRow i id).rowLocks id' = some j := by
  have hid : id' ≠ id := by
    rintro rfl
    simp [rowHeldByOther, h, hne] at hfree
  simp [lockRow, update_of_ne hid, h]

omit [DecidableEq ι] in
theorem FlowRely.refl (j : ι) (m : FlowMem ι) : FlowRely j m m :=
  ⟨le_rfl, le_rfl, fun _ h => h, fun _ h => h, fun _ h _ => .inl h, fun _ h _ _ => h, fun _ h _ => .inl h⟩

theorem FlowRely.of_release (hne : j ≠ i) : FlowRely j m (m.release i) :=
  ⟨le_rfl, le_rfl, fun _ => released hne, fun _ => released hne, fun _ h _ => .inl h, fun _ h _ _ => h,
    fun _ h _ => .inl h⟩

theorem FlowRely.of_lockRow {id : ℕ} (hfree : m.rowHeldByOther i id = false) (hne : j ≠ i) :
    FlowRely j m (m.lockRow i id) :=
  ⟨le_rfl, le_rfl, fun _ h => lockRow_rowLocks hfree hne h, fun _ h => h, fun _ h _ => .inl h,
    fun _ h _ _ => h, fun _ h _ => .inl h⟩

/-- Where the rows that are not consumed come from -/
theorem FlowStep.fresh_back (h : FlowStep w op i m p p' m') (hfits : FlowFits w op i m p)
    (hrow : row ∈ m'.flows) (hfresh : row.consumedAt = none) : row ∈ m.flows ∧ m.nextId ≤ m'.nextId ∨
      row.id = m.nextId ∧ m'.nextId = m.nextId + 1 ∧ m'.flows = m.flows ++ [row] := by
  cases h with
  | created hid =>
    rcases mem_append.1 hrow with hold | hnew
    · exact .inl ⟨hold, Nat.le_succ _⟩
    · obtain rfl := mem_singleton.1 hnew
      exact .inr ⟨hid, rfl, rfl⟩
  | committed =>
    rw [commit_flows] at hrow
    rcases mem_append.1 hrow with hold | hnew
    · obtain ⟨row, hmem, rfl⟩ := mem_map.1 hold
      rw [write_of_fresh hfresh]
      exact .inl ⟨hmem, (m.commit_locks i _).2.2.1.ge⟩
    · exact absurd hfresh (hfits.2.1 row (mem_toList.1 hnew)).used
  | claimed => exact .inl ⟨hrow, Nat.le_succ _⟩
  | cleaned => exact .inl ⟨mem_of_mem_filter hrow, le_rfl⟩
  | read hp hmem hasked hfresh hm' => rcases hm' with rfl | ⟨-, rfl⟩ <;> exact .inl ⟨hrow, le_rfl⟩
  | failed err hm' => rcases hm' with rfl | rfl <;> exact .inl ⟨hrow, le_rfl⟩
  | verified | pending | claiming | consuming | updated | acted | timed => exact .inl ⟨hrow, le_rfl⟩

theorem FlowStep.rely (h : FlowStep w op i m p p' m') (hfits : FlowFits w op i m p) (hne : j ≠ i) :
    FlowRely j m m' := by
  have hback := fun row (hrow : row ∈ m'.flows) hfresh => (h.fresh_back hfits hrow hfresh).imp And.left (·.1.ge)
  cases h with
  | created =>
    exact ⟨le_rfl, Nat.le_succ _, fun _ h => h, fun _ h => h, hback, fun _ h _ _ => mem_append_left _ h,
      fun _ h _ => .inl (mem_append_left _ h)⟩
  | verified | pending | claiming | consuming | acted | timed => exact .refl j m
  | read hp hmem hfits hfresh hm' =>
    rcases hm' with rfl | ⟨hfree, rfl⟩
    · exact .refl j m'
    · exact .of_lockRow hfree hne
  | updated hnow hfree => exact .of_lockRow hfree hne
  | @claimed _ consumes assertion expiresAt hp hnow hfree hnone =>
    refine ⟨le_rfl, Nat.le_succ _, fun _ h => h, ?_, fun _ h _ => .inl h, fun _ h _ _ => h, fun _ h _ => .inl h⟩
    intro key hkey
    have hother : key ≠ (assertionRow w m assertion expiresAt).tokenHash := by
      rintro rfl
      rw [hfree] at hkey
      cases hkey
    simp [update_of_ne hother, hkey]
  | @committed work =>
    obtain ⟨hrowLocks, hkeyLocks, hnextId, hnow⟩ := m.commit_locks i work
    refine ⟨hnow.ge, hnextId.ge, ?_, ?_, hback, ?_, ?_⟩
    · intro id hid
      rw [hrowLocks]
      exact released hne hid
    · intro key hkey
      rw [hkeyLocks]
      exact released hne hkey
    · intro row hrow hfresh hlock
      have hsame : work.write row = row := by
        rcases work.write_cases row with heq | ⟨matching, flow, now, hwork, hid, -⟩
        · exact heq
        · rw [hid, (hfits.1 matching flow hwork).lock] at hlock
          exact absurd (some.inj hlock).symm hne
      rw [commit_flows]
      exact mem_append_left _ (mem_map.2 ⟨row, hrow, hsame⟩)
    · intro row hrow hused
      rw [commit_flows]
      exact .inl (mem_append_left _ (mem_map.2 ⟨row, hrow, write_of_consumed hused⟩))
  | @cleaned now hfree =>
    refine ⟨le_rfl, le_rfl, fun _ h => h, fun _ h => h, fun _ h _ => .inl (mem_of_mem_filter h), ?_, ?_⟩
    · intro row hrow _ hlock
      refine mem_filter.2 ⟨hrow, ?_⟩
      by_contra houtdated
      rw [hfree row hrow (by simpa using houtdated)] at hlock
      cases hlock
    intro row hrow _
    cases houtdated : row.outdated now with
    | false => exact .inl (mem_filter.2 ⟨hrow, by rw [houtdated]; rfl⟩)
    | true => exact .inr ⟨now, hfits, houtdated⟩
  | failed err hm' =>
    rcases hm' with rfl | rfl
    · exact .refl j m'
    · exact .of_release hne

variable {flow : AuthFlow}

omit [DecidableEq ι] in
theorem ReadFits.of_mem (ht : FlowTables m) (hmem : flow ∈ m.flows)
    (hfresh : flow.consumedAt = none) (hasked : Asked w op matching flow) : ReadFits w op m matching flow := by
  refine ⟨hasked, hfresh, ht.ids flow hmem hfresh, ?_⟩
  intro row hrow hid hrowFresh
  exact ht.same row hrow flow hmem hrowFresh hfresh hid

omit [DecidableEq ι] in
theorem ReadFits.mem (h : ReadFits w op m matching flow)
    (hrow : ∃ row ∈ m.flows, row.id = flow.id ∧ row.consumedAt = none) : flow ∈ m.flows := by
  obtain ⟨row, hmem, hid, hfresh⟩ := hrow
  rw [← h.same row hmem hid hfresh]
  exact hmem

theorem AuthFlow.unconsumed (h : flow.consumedAt = none) :
    { ({ flow with consumedAt := some now } : AuthFlow) with consumedAt := none } = flow := by
  cases flow
  cases h
  rfl

theorem FlowMem.commit_spent {work : FlowWork} (ht : FlowTables m)
    (hwork : work.consumes = some (matching, flow)) (hholding : Holding i m flow)
    (hclaims : ∀ row, work.claims = some row → row.consumedAt ≠ none) : FlowSpent flow (m.commit i work) := by
  obtain ⟨now, htime, hbefore⟩ := hholding.time
  obtain ⟨-, -, hnextId, -⟩ := m.commit_locks i work
  refine ⟨hnextId ▸ hholding.id, ?_⟩
  intro row hrow hid hfresh
  rw [commit_flows] at hrow
  rcases mem_append.1 hrow with hold | hnew
  · obtain ⟨row, hmem, rfl⟩ := mem_map.1 hold
    have hsame := FlowWork.write_of_fresh hfresh
    rw [hsame] at hid hfresh
    -- the row is the one that the transaction holds, and the commit consumes it
    have hrow : row = { flow with consumedAt := none } := ht.same row hmem _ hholding.row hfresh rfl hid
    have hconsumable : row.consumable flow.id now = true := by
      rw [hrow]
      simp [AuthFlow.consumable, hbefore]
    have hwrite : work.write row = { row with consumedAt := some now } := by
      simp [FlowWork.write, hwork, htime, Option.elim, hconsumable]
    rw [hsame] at hwrite
    rw [hwrite] at hfresh
    cases hfresh
  · exact hclaims row (mem_toList.1 hnew) hfresh

theorem FlowOp.assertion_none (h : op.params = none) : op.assertion = none := by
  simp only [assertion, h]
  rfl

omit [DecidableEq ι] in
theorem FlowFits.claimed {consumes : Option (AuthFlowMatch × AuthFlow)} {assertion : String} {expiresAt : ℤ}
    (h : FlowFits w op i m p) (hp : p = .claiming assertion expiresAt ∧ consumes = none ∨
      ∃ matching flow, p = .consumed matching flow (some (assertion, expiresAt)) ∧ consumes = some (matching, flow)) :
    AssertionFits op m.now (some (assertion, expiresAt)) := by
  rcases hp with ⟨rfl, -⟩ | ⟨matching, flow, rfl, -⟩
  · exact h
  · exact h.1

theorem AssertionFits.of_claim {text : String} {expiresAt : ℤ} (hop : op.params = some params)
    (hclaim : telegramAuthorizationClaim params now = .ok (text, expiresAt))
    (hverified : ∃ a, op.assertion = some a ∧ a.earliest ≤ now) : AssertionFits op now (some (text, expiresAt)) := by
  obtain ⟨a, ha, htext, hexpires⟩ := claim_eq hop hclaim
  obtain ⟨a', ha', hle⟩ := hverified
  obtain rfl := some.inj (ha'.symm.trans ha)
  exact ⟨a', ha, htext, hexpires, hle⟩

theorem FlowStep.own (h : FlowStep w op i m p p' m') (ht : FlowTables m) (hfits : FlowFits w op i m p) :
    FlowFits w op i m' p' := by
  cases h with
  | created | cleaned =>
    intro work hwork
    cases Except.ok.inj hwork
  | verified hop hverify => exact verified_earliest hop hverify
  | pending => exact hfits
  | claiming hop hclaim => exact .of_claim hop hclaim hfits
  | consuming hop hnot hclaim => exact ⟨.of_claim hop hclaim hfits, hnot⟩
  | @read _ _ matching flow claim hp hmem hasked hfresh hm' =>
    have hread : AssertionFits op m.now claim ∧ ReadFits w op m matching flow := by
      rcases hp with ⟨-, hclaim, hop⟩ | hp
      · refine ⟨?_, .of_mem ht hmem hfresh ⟨hasked, ?_⟩⟩
        · rw [hclaim, hop]
          rfl
        intro token matching' hop'
        rw [hop'] at hop
        exact (consume.inj hop).2.symm
      rw [hp] at hfits
      exact ⟨hfits.1, .of_mem ht hmem hfresh ⟨hasked, fun token matching' hop => absurd hop (hfits.2 token matching')⟩⟩
    rcases hm' with rfl | ⟨-, rfl⟩
    · exact hread
    · exact ⟨hread.1, hread.2.asked, hread.2.fresh, hread.2.id, hread.2.same⟩
  | updated hnow hfree hrow =>
    obtain ⟨hclaim, hread⟩ := hfits
    refine ⟨hclaim, update_self .., ?_, hread.id, _, rfl, hnow⟩
    rw [AuthFlow.unconsumed hread.fresh]
    exact hread.mem hrow
  | acted =>
    obtain ⟨hclaim, hholding⟩ := hfits
    refine ⟨?_, nofun, fun _ => hclaim⟩
    intro matching' flow' hwork
    cases hwork
    exact hholding
  | @claimed p consumes assertion expiresAt hp hnow hfree hnone =>
    have hholding : ∀ matching flow, consumes = some (matching, flow) → Holding i m flow := by
      intro matching flow hconsumes
      rcases hp with ⟨-, hnothing⟩ | ⟨matching', flow', rfl, hsome⟩
      · rw [hnothing] at hconsumes
        cases hconsumes
      rw [hsome] at hconsumes
      cases hconsumes
      exact hfits.2
    obtain ⟨a, ha, htext, hexpires, hle⟩ := hfits.claimed hp
    refine ⟨?_, ?_, nofun⟩
    · intro matching flow hconsumes
      have hold := hholding matching flow hconsumes
      exact ⟨hold.lock, hold.row, hold.id.trans (Nat.lt_succ_self _), hold.time⟩
    intro row hrow
    cases hrow
    refine ⟨update_self .., a, ha, ?_, hexpires, _, rfl, hle⟩
    rw [htext]
    rfl
  | @committed work =>
    obtain ⟨hholding, hrecording, hnone⟩ := hfits
    intro work' hwork
    obtain rfl := FlowOut.committed.inj (Except.ok.inj hwork)
    refine ⟨?_, ?_⟩
    · intro matching flow hconsumes
      exact commit_spent ht hconsumes (hholding matching flow hconsumes) fun row hrow =>
        (hrecording row hrow).used
    intro a ha
    cases hclaims : work.claims with
    | none =>
      rw [assertion_none (hnone hclaims)] at ha
      cases ha
    | some row =>
      obtain ⟨a', ha', hrec⟩ := (hrecording row hclaims).row
      obtain rfl := some.inj (ha'.symm.trans ha)
      refine ⟨rfl, .inl ⟨row, ?_, hrec⟩⟩
      rw [commit_flows, hclaims]
      exact mem_append_right _ mem_cons_self
  | timed => exact le_rfl
  | failed =>
    intro work hwork
    cases hwork

theorem FlowStep.tables (h : FlowStep w op i m p p' m') (ht : FlowTables m) (hfits : FlowFits w op i m p) :
    FlowTables m' := by
  refine ⟨?_, ?_⟩
  · intro row hrow hfresh
    rcases h.fresh_back hfits hrow hfresh with ⟨hold, hle⟩ | ⟨hid, hnext, -⟩
    · exact (ht.ids row hold hfresh).trans_le hle
    · omega
  intro row hrow row' hrow' hfresh hfresh' hid
  rcases h.fresh_back hfits hrow hfresh with ⟨hold, -⟩ | ⟨hnew, -, hflows⟩
  · rcases h.fresh_back hfits hrow' hfresh' with ⟨hold', -⟩ | ⟨hnew', -⟩
    · exact ht.same row hold row' hold' hfresh hfresh' hid
    · have hlt := ht.ids row hold hfresh
      omega
  · rcases h.fresh_back hfits hrow' hfresh' with ⟨hold', -⟩ | ⟨-, -, hflows'⟩
    · have hlt := ht.ids row' hold' hfresh'
      omega
    · rw [hflows] at hflows'
      simpa using hflows'

/-- The flow that a call has consumed, in its transaction or for good, with what it has asked for. -/
def FlowPhase.consumes : FlowPhase → Option (AuthFlowMatch × AuthFlow)
  | .consumed matching flow _ => some (matching, flow)
  | .acted work | .done (.ok (.committed work)) => work.consumes
  | _ => none

def FlowPhase.claims : FlowPhase → Bool
  | .acted work | .done (.ok (.committed work)) => work.claims.isSome
  | _ => false

variable {c : AuthFlowMatch × AuthFlow}

theorem FlowStep.consumes_new (h : FlowStep w op i m p p' m') (hc : p'.consumes = some c) : p.consumes = some c ∨
      ∃ matching flow claim, p = .read matching flow claim ∧ c = (matching, { flow with consumedAt := some m.now }) ∧
        m.now < flow.expiresAt ∧ m.rowHeldByOther i flow.id = false ∧
        ∃ row ∈ m.flows, row.id = flow.id ∧ row.consumedAt = none := by
  cases h with
  | updated hnow hfree hrow => exact .inr ⟨_, _, _, rfl, (some.inj hc).symm, hnow, hfree, hrow⟩
  | acted => exact .inl hc
  | committed => exact .inl hc
  | claimed hp =>
    rcases hp with ⟨-, rfl⟩ | ⟨matching, flow, rfl, rfl⟩
    · cases hc
    · exact .inl hc
  | created | verified | pending | claiming | consuming | read | timed | cleaned | failed => cases hc

theorem FlowStep.claims_new (h : FlowStep w op i m p p' m') (hfits : FlowFits w op i m p)
    (ha : op.assertion = some a) (hp' : p'.claims = true) : p.claims = true ∨
      m.now < a.expiresAt ∧ m.keyLocks (a.key w) = none ∧ ∀ row ∈ m.flows, row.tokenHash ≠ a.key w := by
  cases h with
  | @claimed p consumes assertion expiresAt hp hnow hfree hnone =>
    obtain ⟨a', ha', htext, hexpires, -⟩ := hfits.claimed hp
    obtain rfl := some.inj (ha'.symm.trans ha)
    rw [htext] at hfree hnone
    rw [hexpires] at hnow
    exact .inr ⟨hnow, hfree, hnone⟩
  | committed => exact .inl hp'
  | created | verified | pending | claiming | consuming | read | updated | acted | timed | cleaned | failed => cases hp'

omit [DecidableEq ι] in
theorem FlowFits.consumed_row (h : FlowFits w op j m p) (hc : p.consumes = some c) :
    m.rowLocks c.2.id = some j ∨ FlowSpent c.2 m := by
  obtain ⟨matching, flow⟩ := c
  cases p with
  | consumed =>
    cases hc
    exact .inl h.2.lock
  | acted => exact .inl (h.1 matching flow hc).lock
  | done result =>
    cases result with
    | error => cases hc
    | ok out =>
      cases out with
      | committed work => exact .inr ((h work rfl).1 matching flow hc)
      | created | cleaned => cases hc
  | idle | verified | pending | claiming | consuming | read | cleaning => cases hc

omit [DecidableEq ι] in
theorem FlowFits.claimed_key (h : FlowFits w op j m p) (ha : op.assertion = some a)
    (hp : p.claims = true) : m.keyLocks (a.key w) = some j ∨ Guarded w a m := by
  cases p with
  | acted work =>
    obtain ⟨row, hrow⟩ := isSome_iff_exists.1 hp
    obtain ⟨hlock, a', ha', hrec⟩ := h.2.1 row hrow
    obtain rfl := some.inj (ha'.symm.trans ha)
    rw [hrec.key] at hlock
    exact .inl hlock
  | done result =>
    cases result with
    | error => cases hp
    | ok out =>
      cases out with
      | committed work => exact .inr ((h work rfl).2 a ha).2
      | created | cleaned => cases hp
  | idle | verified | pending | claiming | consuming | read | consumed | cleaning => cases hp

section Runs

variable {ops : ι → FlowOp} {s s' : Shared ι FlowPhase (FlowMem ι)} {ev : SharedEvent ι FlowEnv ℤ}

def ClockForward (s : Shared ι FlowPhase (FlowMem ι)) : SharedEvent ι FlowEnv ℤ → Prop
  | .call .. => True
  | .env now => s.mem.now ≤ now

instance (s : Shared ι FlowPhase (FlowMem ι)) (ev : SharedEvent ι FlowEnv ℤ) : Decidable (ClockForward s ev) := by
  unfold ClockForward
  split <;> infer_instance

/-- What holds of the tables and of all calls: no two of them have consumed one flow, or recorded one assertion. -/
structure FlowInv (w : FlowWorld) (ops : ι → FlowOp) (s : Shared ι FlowPhase (FlowMem ι)) : Prop where
  holds : s.Holds FlowTables fun i m p => FlowFits w (ops i) i m p
  flowOnce : s.Once fun _ p => p.consumes.map fun c => c.2.id
  assertionOnce : s.Once fun i p => if p.claims then (ops i).assertion else none

namespace FlowInv

variable (h : FlowInv w ops s) (hst : (ops i).stmt w i e s.mem (s.phase i) = some (p', m'))
include h hst

theorem holds_call : KeepsAt FlowTables (fun i m p => FlowFits w (ops i) i m p) i s.mem m' p' := by
  have hstep := stmt_step hst
  refine ⟨hstep.tables h.holds.mem (h.holds.phase i), hstep.own h.holds.mem (h.holds.phase i), ?_⟩
  intro j q hne hq
  exact hq.rely (hstep.rely (h.holds.phase i) hne)

theorem flowOnce_call : Shared.Once (fun _ p => p.consumes.map fun c => c.2.id)
    (⟨m', update s.phase i p'⟩ : Shared ι FlowPhase (FlowMem ι)) := by
  apply h.flowOnce.update
  intro id hid
  obtain ⟨c, hc, rfl⟩ := map_eq_some_iff.1 hid
  rcases (stmt_step hst).consumes_new hc with
    hold | ⟨matching, flow, claim, hp, rfl, -, hfree, row, hrow, hrowId, hfresh⟩
  · exact .inl (by rw [hold]; rfl)
  right
  intro j hne hj
  obtain ⟨c', hc', hsame⟩ := map_eq_some_iff.1 hj
  rcases (h.holds.phase j).consumed_row hc' with hlock | hspent
  · rw [hsame] at hlock
    simp [rowHeldByOther, hlock, hne] at hfree
  · exact hspent.rows row hrow (hrowId.trans hsame.symm) hfresh

theorem assertionOnce_call : Shared.Once (fun i p => if p.claims then (ops i).assertion else none)
    (⟨m', update s.phase i p'⟩ : Shared ι FlowPhase (FlowMem ι)) := by
  apply h.assertionOnce.update
  intro a ha
  obtain ⟨hclaims, hop⟩ := ite_none_right_eq_some.1 ha
  rcases (stmt_step hst).claims_new (h.holds.phase i) hop hclaims with hold | ⟨hnow, hfree, hnone⟩
  · exact .inl (ite_none_right_eq_some.2 ⟨hold, hop⟩)
  right
  intro j hne hj
  obtain ⟨hclaims', hop'⟩ := ite_none_right_eq_some.1 hj
  rcases (h.holds.phase j).claimed_key hop' hclaims' with hlock | ⟨row, hrow, hrec⟩ | hlate
  · rw [hfree] at hlock
    cases hlock
  · exact hnone row hrow hrec.key
  · omega

omit hst in
theorem next (hforward : ClockForward s ev) : FlowInv w ops ((flowProgram w ops).next s ev) := by
  refine ⟨?_, ?_, ?_⟩
  · apply h.holds.next
    · intro i e p' m' _ hst
      exact h.holds_call hst
    rintro now rfl
    have hrely : ∀ j, FlowRely j s.mem { s.mem with now := now } := fun j =>
      ⟨hforward, le_rfl, fun _ h => h, fun _ h => h, fun _ h _ => .inl h, fun _ h _ _ => h, fun _ h _ => .inl h⟩
    exact ⟨⟨h.holds.mem.ids, h.holds.mem.same⟩, fun j q hq => hq.rely (hrely j)⟩
  · apply Program.next_keeps h.flowOnce
    · rintro i e p m rfl hst
      exact h.flowOnce_call hst
    · rintro v rfl
      exact h.flowOnce
  · apply Program.next_keeps h.assertionOnce
    · rintro i e p m rfl hst
      exact h.assertionOnce_call hst
    · rintro v rfl
      exact h.assertionOnce

end FlowInv

structure FlowStart (s : Shared ι FlowPhase (FlowMem ι)) : Prop where
  idle : ∀ i, s.phase i = .idle
  tables : FlowTables s.mem

omit [DecidableEq ι] in
theorem FlowStart.inv (h : FlowStart s) : FlowInv w ops s := by
  refine ⟨⟨h.tables, ?_⟩, ?_, ?_⟩
  · intro i
    rw [h.idle i]
    trivial
  · intro i j id hi
    simp only [h.idle i, FlowPhase.consumes] at hi
    cases hi
  intro i j a hi
  simp only [h.idle i, FlowPhase.claims] at hi
  cases hi

structure AuthFlowMatch.Demands (w : FlowWorld) (token : String) (matching : AuthFlowMatch) (flow : AuthFlow) :
    Prop where
  token : flow.tokenHash = w.tokenHash token
  purpose : flow.purpose = matching.purpose
  provider : matching.provider ≠ "" → flow.provider = matching.provider
  intent : matching.intent ≠ "" → flow.intent = matching.intent
  userId : matching.userId ≠ 0 → flow.userId = matching.userId
  sessionId : matching.sessionId ≠ "" → flow.sessionId = matching.sessionId

theorem AuthFlowMatch.demands_of_fits (h : matching.fits w token flow = true) : matching.Demands w token flow := by
  simp only [fits, Bool.and_eq_true, Bool.or_eq_true, beq_iff_eq] at h
  obtain ⟨⟨⟨⟨⟨htoken, hpurpose⟩, hprovider⟩, hintent⟩, huserId⟩, hsessionId⟩ := h
  exact ⟨htoken, hpurpose, hprovider.resolve_left, hintent.resolve_left, huserId.resolve_left, hsessionId.resolve_left⟩

abbrev FlowMove (ι : Type) : Type :=
  Shared ι FlowPhase (FlowMem ι) × SharedEvent ι FlowEnv ℤ × Shared ι FlowPhase (FlowMem ι)

/-- The call has consumed this flow: before it expired, it found its row as asked for and not consumed. -/
structure ConsumedInTime (w : FlowWorld) (ops : ι → FlowOp) (ms : List (FlowMove ι)) (i : ι) (matching : AuthFlowMatch)
    (flow : AuthFlow) : Prop where
  demands : matching.Demands w (ops i).token flow
  given : ∀ token matching', ops i = .consume token matching' → matching = matching'
  time : ∃ mv ∈ ms, (∃ e, mv.2.1 = .call i e) ∧ flow.consumedAt = some mv.1.mem.now ∧
    mv.1.mem.now < flow.expiresAt ∧ { flow with consumedAt := none } ∈ mv.1.mem.flows

theorem consumed_in_time {ms : List (FlowMove ι)} (hstart : FlowStart s)
    (hrun : Run (moves (within (flowProgram w ops).step ClockForward)) s ms s')
    (hflow : (s'.phase i).consumes = some (matching, flow)) : ConsumedInTime w ops ms i matching flow := by
  have hbefore : ¬ (s.phase i).consumes = some (matching, flow) := by
    rw [hstart.idle i]
    exact nofun
  obtain ⟨mv, hmv, hinv, ⟨hnext, -⟩, hnot, hnow⟩ := hrun.exists_change
    (P := fun s => (s.phase i).consumes = some (matching, flow))
    (fun s ev s' hs hst => by obtain ⟨rfl, hforward⟩ := hst; exact hs.next hforward) hstart.inv hbefore hflow
  obtain ⟨a, ev, b⟩ := mv
  have hb : b = (flowProgram w ops).next a ev := hnext
  subst hb
  rcases (flowProgram w ops).next_cases a ev with heq | ⟨j, e, p, m, rfl, hst, heq⟩ | ⟨v, rfl, heq⟩
  · rw [heq] at hnow
    exact absurd hnow hnot
  · -- only a statement of the call itself moves it
    rw [heq] at hnow
    by_cases hij : i = j
    · subst hij
      simp only [update_self] at hnow
      have hstep : FlowStep w (ops i) i a.mem (a.phase i) p m := stmt_step hst
      rcases hstep.consumes_new hnow with hold | ⟨matching', read, claim, hp, hc, htime, -, hrow⟩
      · exact absurd hold hnot
      cases hc
      have hread := hinv.holds.phase i
      rw [hp] at hread
      obtain ⟨-, hread⟩ := hread
      have hdemands := AuthFlowMatch.demands_of_fits hread.asked.fits
      refine ⟨⟨hdemands.token, hdemands.purpose, hdemands.provider, hdemands.intent, hdemands.userId,
        hdemands.sessionId⟩, hread.asked.given, _, hmv, ⟨e, rfl⟩, rfl, htime, ?_⟩
      rw [AuthFlow.unconsumed hread.fresh]
      exact hread.mem hrow
    · simp only [update_of_ne hij] at hnow
      exact absurd hnow hnot
  · rw [heq] at hnow
    exact absurd hnow hnot

/-- **One-time tokens are one-time.** A flow takes effect in one call at most, before it expires, and an assertion of
Telegram is accepted in one call at most. -/
theorem auth_flow_once {ms : List (FlowMove ι)} (hstart : FlowStart s)
    (hrun : Run (moves (within (flowProgram w ops).step ClockForward)) s ms s') :
    (∀ i j work work' matching matching' flow flow', s'.phase i = .done (.ok (.committed work)) →
      s'.phase j = .done (.ok (.committed work')) → work.consumes = some (matching, flow) →
      work'.consumes = some (matching', flow') → flow.id = flow'.id → i = j) ∧
    (∀ i work matching flow, s'.phase i = .done (.ok (.committed work)) → work.consumes = some (matching, flow) →
      ConsumedInTime w ops ms i matching flow) ∧
    ∀ i j work work' a, s'.phase i = .done (.ok (.committed work)) → s'.phase j = .done (.ok (.committed work')) →
      (ops i).assertion = some a → (ops j).assertion = some a → i = j := by
  have hend : FlowInv w ops s' := by
    apply hrun.inv _ hstart.inv
    rintro s ⟨_, ev, _⟩ s' hs ⟨rfl, ⟨rfl, hforward⟩, -⟩
    exact hs.next hforward
  refine ⟨?_, ?_, ?_⟩
  · intro i j work work' matching matching' flow flow' hi hj hwork hwork' hid
    apply hend.flowOnce i j flow.id
    · rw [hi]
      simp [FlowPhase.consumes, hwork]
    · rw [hj]
      simp [FlowPhase.consumes, hwork', hid]
  · intro i work matching flow hi hwork
    apply consumed_in_time hstart hrun
    rw [hi]
    exact hwork
  have hclaims : ∀ i work a, s'.phase i = .done (.ok (.committed work)) → (ops i).assertion = some a →
      (if (s'.phase i).claims then (ops i).assertion else none) = some a := by
    intro i work a hi ha
    have hfits := hend.holds.phase i
    rw [hi] at hfits ⊢
    exact ite_none_right_eq_some.2 ⟨((hfits work rfl).2 a ha).1, ha⟩
  intro i j work work' a hi hj ha ha'
  exact hend.assertionOnce i j a (hclaims i work a hi ha) (hclaims j work' a hj ha')

end Runs

def sampleFlowWorld : FlowWorld := ⟨id, fun _ _ => [0xab], "bot", false⟩

def sampleAssertion : UrlValues := [("auth_date", ["1000"]), ("hash", ["AB"]), ("id", ["7"])]

def sampleFlowOps (i : Fin 5) : FlowOp :=
  if i = 0 then .create ⟨"telegram_bind", "", "", 3, "s", "", timeUnix 1300⟩ "t"
  else if i = 1 then .bind "t" sampleAssertion
  else if i = 3 then .cleanup
  else .login sampleAssertion

def sampleFlowStart : Shared (Fin 5) FlowPhase (FlowMem (Fin 5)) where
  mem := ⟨[], 1, fun _ => none, fun _ => none, timeUnix 1000⟩
  phase := fun _ => .idle

def sampleFlowCalls (is : List (Fin 5)) : List (SharedEvent (Fin 5) FlowEnv ℤ) := is.map (.call · ⟨false⟩)

def sampleFlowEvents : List (SharedEvent (Fin 5) FlowEnv ℤ) :=
  sampleFlowCalls [0, 1, 2, 1, 1, 1, 2, 1, 1, 1, 2] ++ [.env (timeUnix 90000)] ++ sampleFlowCalls [3, 3, 4]

theorem auth_flow_once_bind :
    let s' := sampleFlowEvents.foldl (flowProgram sampleFlowWorld sampleFlowOps).next sampleFlowStart
    s'.mem.flows = [] ∧ (s'.phase 1).claims = true ∧ ((s'.phase 1).consumes.map fun c => c.2.id) = some 1 ∧
      s'.phase 2 = .done (.error .consumed) ∧ s'.phase 4 = .done (.error (.telegram .expired)) ∧
      ∀ j work, s'.phase j = .done (.ok (.committed work)) → (sampleFlowOps j).assertion = some ⟨[0xab], 1000⟩ →
        j = 1 := by
  intro s'
  have hstart : FlowStart sampleFlowStart := ⟨fun _ => rfl, by decide, by decide⟩
  have hrun : Run (moves (within (flowProgram sampleFlowWorld sampleFlowOps).step ClockForward)) sampleFlowStart _ s' :=
    Run.of_trail sampleFlowEvents (by decide +kernel)
  refine ⟨by decide +kernel, by decide +kernel, by decide +kernel, by decide +kernel, by decide +kernel, ?_⟩
  intro j work hj hop
  have hbound : ∃ work, s'.phase 1 = .done (.ok (.committed work)) := ⟨_, rfl⟩
  obtain ⟨work', hwork'⟩ := hbound
  exact (auth_flow_once hstart hrun).2.2 j 1 work work' _ hj hwork' hop (by decide +kernel)

end NewApi

import NewApi.Trace.Run
import NewApi.Ledger.Hold
import NewApi.Spec.QuotaReserve
import Mathlib.Algebra.Order.BigOperators.Group.List

/-!
# Reservations and the balance

An amount that was taken from the hash is missing in the row until it is written: `WalletState.level` is what the row
comes to then. As long as neither the hash nor the row gives away more, no more is reserved than there was
(`WalletOK`). Two accesses may give away more: `populateUserCache` puts into the hash what the row was when it was
read, and `reserveUserQuotaDB` takes from the row. Both are right when the row lacks nothing, and the second only
without a hash.
-/

namespace NewApi

open Trace List Wallet ReserveCall WalletState

def Wallet.hashQuota (w : Wallet) : Option ℤ := w.hash.bind UserHash.quota

/-- What the row comes to when the store is written -/
def Wallet.level (w : Wallet) : ℤ := w.row + w.queue + w.flushing.getD 0

/-- What the call took from the hash and has not written yet -/
def ReserveCall.held (call : ReserveCall) : ℤ :=
  match call.stage with
  | .persist => call.amount
  | .compensate => call.amount
  | _ => 0

def WalletState.held (s : WalletState) : ℤ := (s.calls.map ReserveCall.held).sum

def WalletState.level (s : WalletState) : ℤ := s.wallet.level - s.held

/-- What is left of the balance -/
def WalletState.left (balance : ℤ) (s : WalletState) : ℤ := balance - s.granted - s.held

/-- Neither the hash nor the row gives away more than what is left. -/
structure InBounds (w : Wallet) (held left : ℤ) : Prop where
  hash : ∀ quota, w.hashQuota = some quota → quota ≤ left
  level : w.level - held ≤ left
  left : 0 ≤ left

/-- A hash without a quota gets one that is no more than what the row comes to. -/
def HydrateStage.Careful (w : Wallet) (level : ℤ) : HydrateStage → Prop
  | .populate quota => w.hashQuota = none → quota ≤ level
  | _ => True

/-- The same; and the row is taken from only if there is no quota in the hash and the row comes to the amount. -/
def ReserveStage.Careful (w : Wallet) (level amount : ℤ) : ReserveStage → Prop
  | .hydrate stage => stage.Careful w level
  | .fallback => amount ≤ w.row → w.hashQuota = none ∧ amount ≤ level
  | _ => True

/-- The conditions, and no statement of `batchUpdate` fails. -/
def WalletState.Careful (s : WalletState) : WalletEvent → Prop
  | .access i _ => ∀ call ∈ s.calls[i]?, call.stage.Careful s.wallet s.level call.amount
  | .hydrate i _ => ∀ stage ∈ s.hydrations[i]?, stage.Careful s.wallet s.level
  | .flush reply => reply ≠ .failed
  | _ => True

instance (w : Wallet) (level : ℤ) : (stage : HydrateStage) → Decidable (stage.Careful w level)
  | .populate quota => inferInstanceAs (Decidable (w.hashQuota = none → quota ≤ level))
  | .cached | .load | .done _ => inferInstanceAs (Decidable True)

instance (w : Wallet) (level amount : ℤ) : (stage : ReserveStage) → Decidable (stage.Careful w level amount)
  | .hydrate stage => inferInstanceAs (Decidable (stage.Careful w level))
  | .fallback => inferInstanceAs (Decidable (amount ≤ w.row → w.hashQuota = none ∧ amount ≤ level))
  | .first | .second | .persist | .compensate | .done _ => inferInstanceAs (Decidable True)

instance (s : WalletState) : (e : WalletEvent) → Decidable (s.Careful e)
  | .access i _ => inferInstanceAs (Decidable (∀ call ∈ s.calls[i]?, call.stage.Careful s.wallet s.level call.amount))
  | .hydrate i _ => inferInstanceAs (Decidable (∀ stage ∈ s.hydrations[i]?, stage.Careful s.wallet s.level))
  | .flush reply => inferInstanceAs (Decidable (reply ≠ .failed))
  | .reserve _ | .getUserCache | .expire | .swap => inferInstanceAs (Decidable True)

theorem reserveScript_cases (amount : ℤ) (hash : Option UserHash) :
    ((userQuotaReserveScript amount hash).1 ≠ .ok ∧ (userQuotaReserveScript amount hash).2 = hash) ∨
      ∃ quota, hash = some ⟨true, some quota⟩ ∧ amount ≤ quota ∧
        userQuotaReserveScript amount hash = (.ok, some ⟨true, some (quota - amount)⟩) := by
  unfold userQuotaReserveScript
  split
  · rename_i quota
    split_ifs with hless
    · exact .inl ⟨by simp, rfl⟩
    · exact .inr ⟨quota, rfl, by omega, rfl⟩
  · exact .inl ⟨by simp, rfl⟩

theorem cacheTryReserve_cases (env : AccessEnv) (amount : ℤ) (w : Wallet) :
    ((cacheTryReserve env amount w).1 ≠ some .ok ∧ (cacheTryReserve env amount w).2 = w) ∨
      ∃ quota, w.hashQuota = some quota ∧ amount ≤ quota ∧
        (cacheTryReserve env amount w).2 = { w with hash := some ⟨true, some (quota - amount)⟩ } ∧
        ((cacheTryReserve env amount w).1 = some .ok ∨ (cacheTryReserve env amount w).1 = none) := by
  unfold cacheTryReserve Reply.answer Reply.effect
  dsimp only
  rcases reserveScript_cases amount w.hash with ⟨hne, hsame⟩ | ⟨quota, hhash, hle, hscript⟩
  · refine .inl ⟨?_, by rw [hsame, ite_self]⟩
    split
    · exact fun heq => hne (Option.some.inj heq)
    · simp
  rw [hscript]
  cases env.reply with
  | ok => exact .inr ⟨quota, by unfold hashQuota; rw [hhash]; rfl, hle, rfl, .inl rfl⟩
  | failed => exact .inl ⟨by simp, rfl⟩
  | lost => exact .inr ⟨quota, by unfold hashQuota; rw [hhash]; rfl, hle, rfl, .inr rfl⟩

theorem deltaScript_cases (delta : ℤ) (hash : Option UserHash) :
    (userQuotaDeltaScript delta hash).2 = hash ∨ ∃ quota, hash = some ⟨true, some quota⟩ ∧
        (userQuotaDeltaScript delta hash).2 = some ⟨true, some (quota + delta)⟩ := by
  unfold userQuotaDeltaScript
  split
  · exact .inr ⟨_, rfl, rfl⟩
  · exact .inl rfl

def ReserveCall.Sane (call : ReserveCall) : Prop := call.stage = .done (.error .negativeQuota) ∨ 0 ≤ call.amount

variable {call : ReserveCall} {env : AccessEnv} {out : Wallet × ReserveStage} {batchUpdateEnabled : Bool}

theorem ReserveCall.Sane.held_nonneg (h : call.Sane) : 0 ≤ call.held := by
  obtain ⟨amount, stage⟩ := call
  rcases h with hstage | hamount
  · obtain rfl := hstage
    exact le_rfl
  cases stage with
  | persist | compensate => exact hamount
  | first | second | fallback | hydrate | done => exact le_rfl

theorem ReserveCall.Sane.step (h : call.Sane) {w : Wallet}
    (hout : tryReserveStep batchUpdateEnabled env call.amount w call.stage = out) :
    (mk call.amount out.2).Sane := by
  rcases h with hstage | hamount
  · rw [hstage] at hout
    subst hout
    exact .inl rfl
  · exact .inr hamount

section
variable {w : Wallet} {held left : ℤ} {amount : ℤ}

namespace InBounds

variable (h : InBounds w held left)
include h

theorem congr {held' left' : ℤ} (hheld : held = held') (hleft : left = left') : InBounds w held' left' := by
  rwa [← hheld, ← hleft]

theorem setHash {hash : Option UserHash} {held' left' : ℤ}
    (hhash : ∀ quota, hash.bind UserHash.quota = some quota → quota ≤ left') (hheld : left - held' ≤ left' - held)
    (hleft : 0 ≤ left') : InBounds { w with hash := hash } held' left' := by
  have hlevel := h.level
  refine ⟨hhash, ?_, hleft⟩
  change w.level - held' ≤ left'
  omega

theorem setRow {row queue held' left' : ℤ} (hhash : ∀ quota, w.hashQuota = some quota → quota ≤ left')
    (hheld : left + (row - w.row) + (queue - w.queue) - held' ≤ left' - held) (hleft : 0 ≤ left') :
    InBounds { w with row := row, queue := queue } held' left' := by
  have hlevel := h.level
  refine ⟨hhash, ?_, hleft⟩
  unfold Wallet.level at hlevel ⊢
  dsimp only
  omega

theorem hydrateStep (env : AccessEnv) {stage : HydrateStage}
    (hcareful : stage.Careful w (w.level - held)) : InBounds (hydrateStep env w stage).1 held left := by
  cases stage with
  | cached | load | done => exact h
  | populate quota =>
    refine h.setHash ?_ le_rfl h.left
    intro quota' hquota'
    split at hquota'
    · exact h.hash quota' hquota'
    unfold Reply.effect at hquota'
    split at hquota'
    · exact h.hash quota' hquota'
    -- the quota that was there, or the one that was read
    unfold writeUserCacheScript at hquota'
    cases hold : w.hash.bind UserHash.quota with
    | some old =>
      rw [hold] at hquota'
      obtain rfl : old = quota' := by simpa using hquota'
      exact h.hash old hold
    | none =>
      rw [hold] at hquota'
      obtain rfl : quota = quota' := by simpa using hquota'
      have hread := hcareful hold
      have hlevel := h.level
      omega

end InBounds

def ReserveCall.taken (call : ReserveCall) : ℤ := call.granted + call.held

theorem afterReserve_idle (amount : ℤ) {miss : ReserveStage} {result : Option CacheQuotaResult}
    (hmiss : miss = .hydrate .cached ∨ miss = .fallback) (hresult : result ≠ some .ok) :
    (mk amount (afterReserve miss result)).held = 0 ∧ (mk amount (afterReserve miss result)).taken = 0 := by
  cases result with
  | none => exact ⟨rfl, rfl⟩
  | some result =>
    cases result with
    | ok => exact absurd rfl hresult
    | insufficient => exact ⟨rfl, rfl⟩
    | miss => rcases hmiss with rfl | rfl <;> exact ⟨rfl, rfl⟩

theorem InBounds.tryReserve (h : InBounds w held left) (env : AccessEnv) (hamount : 0 ≤ amount)
    {miss : ReserveStage} (hmiss : miss = .hydrate .cached ∨ miss = .fallback) :
    InBounds (cacheTryReserve env amount w).2
      (held + (ReserveCall.mk amount (afterReserve miss (cacheTryReserve env amount w).1)).held)
      (left - (ReserveCall.mk amount (afterReserve miss (cacheTryReserve env amount w).1)).taken) := by
  rcases cacheTryReserve_cases env amount w with ⟨hresult, hsame⟩ | ⟨quota, hhash, hle, hwallet, hresult⟩
  · obtain ⟨hheld, htaken⟩ := afterReserve_idle amount hmiss hresult
    rw [hsame, hheld, htaken, add_zero, sub_zero]
    exact h
  -- the call holds all of the amount from now on, or nothing of it
  have hkept : ∀ x, 0 ≤ x → x ≤ amount →
      InBounds { w with hash := some ⟨true, some (quota - amount)⟩ } (held + x) (left - (0 + x)) := by
    intro x hx hxle
    have hquota := h.hash quota hhash
    refine h.setHash ?_ (by omega) (by omega)
    intro quota' hquota'
    cases hquota'
    omega
  rw [hwallet]
  rcases hresult with hok | hlost
  · rw [hok]
    exact hkept amount hamount le_rfl
  · rw [hlost]
    exact hkept 0 le_rfl hamount

theorem afterHydrate_idle (amount : ℤ) (stage : HydrateStage) :
    (mk amount (afterHydrate stage)).held = 0 ∧ (mk amount (afterHydrate stage)).taken = 0 := by
  cases stage with
  | done ok => cases ok <;> exact ⟨rfl, rfl⟩
  | cached | load | populate => exact ⟨rfl, rfl⟩

theorem InBounds.of_idle {call' : ReserveCall} (hheld : call.held = 0) (htaken : call.taken = 0)
    (h : InBounds w (held + call'.held) (left - call'.taken)) :
    InBounds w (held + (call'.held - call.held)) (left - (call'.taken - call.taken)) := by
  rwa [hheld, htaken, sub_zero, sub_zero]

namespace InBounds

variable (h : InBounds w held left)
include h

theorem fallback (reply : Reply) (hamount : 0 ≤ amount)
    (hcareful : amount ≤ w.row → w.hashQuota = none ∧ amount ≤ w.level - held) :
    InBounds { w with row := reply.effect w.row (if decide (amount ≤ w.row) then w.row - amount else w.row) } held
      (left - (ReserveCall.mk amount
        (.done (if reply = .ok then .ok (decide (amount ≤ w.row)) else .error .db))).taken) := by
  have hlevel := h.level
  have hleft := h.left
  by_cases hrow : amount ≤ w.row
  · obtain ⟨hnone, hle⟩ := hcareful hrow
    have hhash : ∀ left', ∀ quota, w.hashQuota = some quota → quota ≤ left' := by
      intro left' quota hquota
      rw [hnone] at hquota
      cases hquota
    simp only [decide_eq_true hrow, if_true]
    cases reply with
    | ok =>
      change InBounds { w with row := w.row - amount, queue := w.queue } held (left - (amount + 0))
      exact h.setRow (hhash _) (by omega) (by omega)
    | failed =>
      change InBounds w held (left - (0 + 0))
      rwa [add_zero, sub_zero]
    | lost =>
      change InBounds { w with row := w.row - amount, queue := w.queue } held (left - (0 + 0))
      exact h.setRow (hhash _) (by omega) (by omega)
  · simp only [decide_eq_false hrow, Bool.false_eq_true, if_false]
    cases reply <;>
    · change InBounds w held (left - (0 + 0))
      rwa [add_zero, sub_zero]

theorem persist (reply : Reply) (hamount : 0 ≤ amount) : InBounds { w with row := reply.effect w.row (w.row - amount) }
      (held + ((ReserveCall.mk amount (if reply = .ok then .done (.ok true) else .compensate)).held - amount))
      (left - ((ReserveCall.mk amount (if reply = .ok then .done (.ok true) else .compensate)).taken - amount)) := by
  have hleft := h.left
  cases reply with
  | ok =>
    change InBounds { w with row := w.row - amount, queue := w.queue } (held + (0 - amount))
      (left - (amount + 0 - amount))
    refine h.setRow (fun quota hquota => ?_) (by omega) (by omega)
    have hle := h.hash quota hquota
    omega
  | failed =>
    change InBounds w (held + (amount - amount)) (left - (0 + amount - amount))
    rwa [sub_self, zero_add, sub_self, add_zero, sub_zero]
  | lost =>
    change InBounds { w with row := w.row - amount, queue := w.queue } (held + (amount - amount))
      (left - (0 + amount - amount))
    refine h.setRow (fun quota hquota => ?_) (by omega) (by omega)
    have hle := h.hash quota hquota
    omega

theorem compensate (reply : Reply) (hamount : 0 ≤ amount) :
    InBounds { w with hash := reply.effect w.hash (userQuotaDeltaScript amount w.hash).2 } (held - amount)
      (left + amount) := by
  have hleft := h.left
  refine h.setHash (fun quota hquota => ?_) (by omega) (by omega)
  have hcases : reply.effect w.hash (userQuotaDeltaScript amount w.hash).2 = w.hash ∨
      ∃ quota, w.hash = some ⟨true, some quota⟩ ∧
        reply.effect w.hash (userQuotaDeltaScript amount w.hash).2 = some ⟨true, some (quota + amount)⟩ := by
    unfold Reply.effect
    split
    · exact .inl rfl
    · exact deltaScript_cases amount w.hash
  rcases hcases with hsame | ⟨old, hold, hnew⟩
  · rw [hsame] at hquota
    have hle := h.hash quota hquota
    omega
  rw [hnew] at hquota
  cases hquota
  have hle := h.hash old (by unfold hashQuota; rw [hold]; rfl)
  omega

theorem access (batchUpdateEnabled : Bool) (env : AccessEnv)
    (hsane : call.Sane) (hcareful : call.stage.Careful w (w.level - held) call.amount)
    (hout : tryReserveStep batchUpdateEnabled env call.amount w call.stage = out) :
    InBounds out.1 (held + ((ReserveCall.mk call.amount out.2).held - call.held))
      (left - ((ReserveCall.mk call.amount out.2).taken - call.taken)) := by
  obtain ⟨amount, stage⟩ := call
  subst hout
  cases stage with
  | first => exact of_idle rfl rfl (h.tryReserve env (hsane.resolve_left nofun) (.inl rfl))
  | second => exact of_idle rfl rfl (h.tryReserve env (hsane.resolve_left nofun) (.inr rfl))
  | hydrate stage =>
    obtain ⟨hheld, htaken⟩ := afterHydrate_idle amount (NewApi.hydrateStep env w stage).2
    refine of_idle rfl rfl ((h.hydrateStep env hcareful).congr ?_ ?_)
    · exact (hheld ▸ add_zero held).symm
    · exact (htaken ▸ sub_zero left).symm
  | fallback =>
    exact of_idle rfl rfl ((h.fallback env.reply (hsane.resolve_left nofun) hcareful).congr (add_zero held).symm rfl)
  | persist =>
    cases batchUpdateEnabled with
    | true =>
      -- the queue has what the call held
      have hleft := h.left
      change InBounds { w with row := w.row, queue := w.queue - amount } (held + (0 - amount))
        (left - (amount + 0 - (0 + amount)))
      refine h.setRow (fun quota hquota => ?_) (by omega) (by omega)
      have hle := h.hash quota hquota
      omega
    | false =>
      have htaken : (ReserveCall.mk amount .persist).taken = amount := zero_add amount
      rw [htaken]
      exact h.persist env.reply (hsane.resolve_left nofun)
  | compensate =>
    refine (h.compensate env.reply (hsane.resolve_left nofun)).congr ?_ ?_
    · change held - amount = held + (0 - amount)
      omega
    · change left + amount = left - (0 + 0 - (0 + amount))
      omega
  | done => exact h.congr (by rw [tryReserveStep, sub_self, add_zero]) (by rw [tryReserveStep, sub_self, sub_zero])

end InBounds

end

/-- **The invariant**: what is left of the balance covers what the hash and the row give away. -/
structure WalletOK (balance : ℤ) (s : WalletState) : Prop where
  bounds : InBounds s.wallet s.held (s.left balance)
  calls : ∀ call ∈ s.calls, call.Sane

theorem tryReserveStart_idle (amount : ℤ) : (mk amount (tryReserveStart amount)).held = 0 ∧
      (mk amount (tryReserveStart amount)).granted = 0 ∧
      (mk amount (tryReserveStart amount)).Sane := by
  unfold tryReserveStart
  split
  · exact ⟨rfl, rfl, .inl rfl⟩
  rename_i hnonneg
  have hsane : ∀ stage, (mk amount stage).Sane := fun stage => .inr (by change 0 ≤ amount; omega)
  split_ifs with hzero
  · exact ⟨rfl, hzero, hsane _⟩
  · exact ⟨rfl, rfl, hsane _⟩

section

variable (w : Wallet)
include w

theorem Wallet.level_swap : w.swap.level = w.level := by
  unfold swap level
  cases hflushing : w.flushing with
  | none => simp
  | some => simp [hflushing]

theorem Wallet.level_flush {reply : Reply} (hreply : reply ≠ .failed) : (w.flush reply).level = w.level := by
  unfold flush level Reply.effect
  cases hflushing : w.flushing with
  | none => simp [hflushing]
  | some =>
    simp only [if_neg hreply, Option.getD_none, Option.getD_some]
    omega

theorem Wallet.hash_swap : w.swap.hash = w.hash := by
  unfold swap
  split <;> rfl

theorem Wallet.hash_flush (reply : Reply) : (w.flush reply).hash = w.hash := by
  unfold flush
  split <;> rfl

end

theorem InBounds.of_eq {w w' : Wallet} {held left : ℤ} (h : InBounds w held left) (hhash : w'.hash = w.hash)
    (hlevel : w'.level = w.level) : InBounds w' held left := by
  refine ⟨fun quota hquota => h.hash quota ?_, by rw [hlevel]; exact h.level, h.left⟩
  unfold hashQuota at hquota ⊢
  rwa [← hhash]

section
variable {balance : ℤ} {s : WalletState}

section

variable (h : WalletOK balance s)
include h

theorem WalletOK.reserve (amount : ℤ) :
    WalletOK balance { s with calls := s.calls ++ [⟨amount, tryReserveStart amount⟩] } := by
  obtain ⟨hheld, hgranted, hsane⟩ := tryReserveStart_idle amount
  have hsum : ∀ f : ReserveCall → ℤ, f ⟨amount, tryReserveStart amount⟩ = 0 →
      ((s.calls ++ [ReserveCall.mk amount (tryReserveStart amount)]).map f).sum = (s.calls.map f).sum := by
    intro f hf
    rw [map_append, sum_append, map_singleton, sum_singleton, hf, add_zero]
  refine ⟨?_, fun call hcall => ?_⟩
  · have hbounds := h.bounds
    unfold WalletState.left WalletState.held WalletState.granted at hbounds ⊢
    rw [hsum _ hheld, hsum _ hgranted]
    exact hbounds
  rcases mem_append.1 hcall with hcall | hcall
  · exact h.calls call hcall
  · obtain rfl := mem_singleton.1 hcall
    exact hsane

theorem WalletOK.access (batchUpdateEnabled : Bool) {i : ℕ}
    (hcareful : s.Careful (.access i env)) : WalletOK balance (s.access batchUpdateEnabled i env) := by
  unfold WalletState.access
  cases hcall : s.calls[i]? with
  | none => exact h
  | some call =>
    have hsane := h.calls call (mem_of_getElem? hcall)
    dsimp only
    set out := tryReserveStep batchUpdateEnabled env call.amount s.wallet call.stage with hout
    have haccess := h.bounds.access batchUpdateEnabled env hsane (hcareful call hcall) hout.symm
    refine ⟨?_, fun call' hcall' => ?_⟩
    · -- the sums change by what the call holds and was granted
      have hleft : s.left balance - ((ReserveCall.mk call.amount out.2).taken - call.taken) =
          balance - (s.granted + ((ReserveCall.mk call.amount out.2).granted - call.granted)) -
            (s.held + ((ReserveCall.mk call.amount out.2).held - call.held)) := by
        unfold left taken
        omega
      rw [hleft] at haccess
      unfold WalletState.left WalletState.granted WalletState.held
      dsimp only
      rw [Ledger.sum_map_set _ hcall, Ledger.sum_map_set _ hcall]
      exact haccess
    · rcases mem_or_eq_of_mem_set hcall' with hold | rfl
      · exact h.calls call' hold
      · exact hsane.step hout.symm

theorem WalletOK.hydrate {i : ℕ} (hcareful : s.Careful (.hydrate i env)) : WalletOK balance (s.hydrate i env) := by
  unfold WalletState.hydrate
  cases hstage : s.hydrations[i]? with
  | none => exact h
  | some stage => exact ⟨h.bounds.hydrateStep env (hcareful stage hstage), h.calls⟩

end

theorem walletOK_step {s' : WalletState} {e : WalletEvent} (h : WalletOK balance s)
    (hstep : within (WalletStep batchUpdateEnabled) WalletState.Careful s e s') : WalletOK balance s' := by
  obtain ⟨rfl, hcareful⟩ := hstep
  cases e with
  | reserve amount => exact h.reserve amount
  | access => exact h.access batchUpdateEnabled hcareful
  | getUserCache => exact ⟨h.bounds, h.calls⟩
  | hydrate => exact h.hydrate hcareful
  | expire =>
    refine ⟨h.bounds.setHash (fun quota hquota => ?_) le_rfl h.bounds.left, h.calls⟩
    cases hquota
  | swap => exact ⟨h.bounds.of_eq s.wallet.hash_swap s.wallet.level_swap, h.calls⟩
  | flush reply => exact ⟨h.bounds.of_eq (s.wallet.hash_flush reply) (s.wallet.level_flush hcareful), h.calls⟩

theorem WalletOK.granted_le (h : WalletOK balance s) : s.granted ≤ balance := by
  have hheld : 0 ≤ s.held := by
    refine sum_nonneg fun x hx => ?_
    obtain ⟨call, hcall, rfl⟩ := mem_map.1 hx
    exact (h.calls call hcall).held_nonneg
  have hleft := h.bounds.left
  unfold left at hleft
  omega

end

theorem walletOK_start {balance : ℤ} {hash : Option UserHash} (hbalance : 0 ≤ balance)
    (hhash : ∀ quota, hash.bind UserHash.quota = some quota → quota ≤ balance) :
    WalletOK balance (.start hash balance) := by
  have hleft : (start hash balance).left balance = balance := by
    change balance - 0 - 0 = balance
    omega
  refine ⟨?_, fun call hcall => (by cases hcall)⟩
  rw [hleft]
  refine ⟨hhash, ?_, hbalance⟩
  change balance + 0 + 0 - 0 ≤ balance
  omega

/-- **No more is reserved than there was**, if a hash is made, and the row taken from, only when the row covers all
that was taken from the hash. -/
theorem reserved_le_balance (batchUpdateEnabled : Bool) {balance : ℤ} {hash : Option UserHash}
    (hbalance : 0 ≤ balance) (hhash : ∀ quota, hash.bind UserHash.quota = some quota → quota ≤ balance)
    {es : List WalletEvent} {s : WalletState}
    (hrun : Run (within (WalletStep batchUpdateEnabled) WalletState.Careful) (.start hash balance) es s) :
    s.granted ≤ balance :=
  (hrun.inv (fun _ _ _ h hstep => walletOK_step h hstep) (walletOK_start hbalance hhash)).granted_le

def reserving (call : ℕ) (amount : ℤ) (accesses : ℕ) : List WalletEvent :=
  .reserve amount :: List.replicate accesses (.access call {})

theorem reserved_le_balance_flushed :
    ∃ s, Run (WalletStep true) (.start none 10)
        (reserving 0 8 6 ++ [.swap, .flush .ok, .expire] ++ reserving 1 2 6) s ∧
      s.granted = 10 ∧ s.granted ≤ 10 := by
  have hrun : Run (within (WalletStep true) WalletState.Careful) (.start none 10)
      (reserving 0 8 6 ++ [.swap, .flush .ok, .expire] ++ reserving 1 2 6) _ := Run.of_allowed (by decide +kernel)
  refine ⟨_, hrun.of_within, by decide +kernel, reserved_le_balance true (by decide) ?_ hrun⟩
  intro quota hquota
  cases hquota

/-- Of a balance of 10 a call reserves 8; the hash expires before the row is written, and another call reserves 8 from
the new hash. -/
theorem reserved_over_balance :
    (∃ s, Run (WalletStep true) (.start none 10) (reserving 0 8 6 ++ [.expire] ++ reserving 1 8 6) s ∧
        s.granted = 16) ∧
      ∃ s, Run (WalletStep false) (.start none 10)
        (reserving 0 8 5 ++ [.expire] ++ reserving 1 8 6 ++ [.access 0 {}]) s ∧ s.granted = 16 := by
  refine ⟨⟨_, Run.of_foldl (next true) _ _, ?_⟩, ⟨_, Run.of_foldl (next false) _ _, ?_⟩⟩
  · decide +kernel
  · decide +kernel

end NewApi

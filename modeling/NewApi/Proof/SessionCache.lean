import NewApi.Proof.UserSession

/-!
# A revoked session stays revoked

An active snapshot lives until a deadline that was taken before its row was read, so once the row is revoked at the
time `c`, no snapshot on its way can be cached beyond `c + ttl` (`SessionFits`). A tombstone that is written later
lives at least as long and keeps active snapshots out (`Sealed`).

* `session_step`: what one statement does to the memory, and what the call holds after it.
* `SessionsFit.run`, `Sealed.run`: whole runs, before and after the tombstone.
-/

namespace NewApi

open Trace SessionMem SessionOp UserSession Option

def SessionMem.Snap (m : SessionMem) (expiresAt version : ℤ) : Prop :=
  ∃ r, m.row = some r ∧ r.expiresAt = expiresAt ∧ version ≤ r.version

def SessionMem.Closed (m : SessionMem) : Prop := ∃ r, m.row = some r ∧ r.status ≠ .active

structure SessionMem.Later (m m' : SessionMem) : Prop where
  clock : m.clock ≤ m'.clock
  row : ∀ r, m.row = some r → ∃ r', m'.row = some r' ∧ r'.expiresAt = r.expiresAt ∧ r.version ≤ r'.version ∧
    (r.status ≠ .active → r'.status ≠ .active)

structure EntryFits (ttl c : ℤ) (m : SessionMem) (entry : SessionEntry) (deadline : Option ℤ) : Prop where
  snap : m.Snap entry.expiresAt entry.version
  set : entry.status ≠ .unset
  deadline : entry.status = .active → ∀ d, deadline = some d → d ≤ c + ttl

structure ExpiryFits (ttl c : ℤ) (m : SessionMem) (entry : SessionEntry) (x : ℤ) : Prop where
  active : entry.status = .active → x ≤ c + ttl ∧ x ≤ entry.expiresAt * 1000
  deny : entry.status ≠ .active → 0 < x ∧ min (entry.expiresAt * 1000 - m.clock) ttl ≤ x

namespace SessionWriter

def IsFinal : SessionWriter → Prop
  | .reuseFinal | .revokeFinal | .hashFinal | .batchFinal _ => True
  | _ => False

def Fits (m : SessionMem) : SessionWriter → Prop
  | .reuseFence _ session | .revokeFence _ session | .hashFence _ session => m.Snap session.expiresAt session.version
  | .reuseFinal | .revokeFinal | .hashFinal | .batchFinal _ => m.Closed
  | _ => True

end SessionWriter

/-- What a call holds: snapshots of the row, and deadlines that were taken before these were read. -/
def SessionFits (ttl c : ℤ) (m : SessionMem) : SessionPhase → Prop
  | .publish entry deadline k => EntryFits ttl c m entry deadline ∧ k.Fits m ∧ (k.IsFinal → entry.status = .revoked)
  | .script entry deadline x k =>
    EntryFits ttl c m entry deadline ∧ k.Fits m ∧ (k.IsFinal → entry.status = .revoked) ∧ ExpiryFits ttl c m entry x
  | .written _ _ k => k.Fits m
  | .checked session => session.status = .active ∧ 0 < session.version
  | .insert session deadline => session.status = .active ∧ 0 < session.version ∧ deadline ≤ m.clock + ttl
  | .read deadline | .rotateRead _ _ deadline | .advance deadline | .advanceCommit deadline _ =>
    deadline ≤ m.clock + ttl
  | .found session deadline =>
    m.Snap session.expiresAt session.version ∧ (session.status = .active → deadline ≤ c + ttl)
  | .rotateUpdate _ _ deadline session =>
    m.Snap session.expiresAt session.version ∧ session.status = .active ∧ deadline ≤ c + ttl
  | .reuseUpdate _ session | .revokeCommit _ session | .hashCommit _ session => m.Snap session.expiresAt session.version
  | _ => True

section Mono

variable {ttl c c' : ℤ} {m m' m'' : SessionMem} {p : SessionPhase} {entry : SessionEntry} {k : SessionWriter}

theorem SessionMem.Later.refl (m : SessionMem) : m.Later m := ⟨le_rfl, fun r hr => ⟨r, hr, rfl, le_rfl, id⟩⟩

theorem SessionMem.Later.of_row (hclock : m'.clock = m.clock) (hrow : m'.row = m.row) : m.Later m' :=
  ⟨hclock.ge, fun r hr => ⟨r, hrow.trans hr, rfl, le_rfl, id⟩⟩

theorem SessionMem.Later.snap {x v : ℤ} (h : m.Later m') (hs : m.Snap x v) : m'.Snap x v := by
  obtain ⟨r, hr, hx, hv⟩ := hs
  obtain ⟨r', hr', hx', hv', -⟩ := h.row r hr
  exact ⟨r', hr', hx'.trans hx, hv.trans hv'⟩

theorem SessionMem.Later.closed (h : m.Later m') (hc : m.Closed) : m'.Closed := by
  obtain ⟨r, hr, hstatus⟩ := hc
  obtain ⟨r', hr', -, -, hkeeps⟩ := h.row r hr
  exact ⟨r', hr', hkeeps hstatus⟩

theorem EntryFits.mono {deadline : Option ℤ} (hc : c ≤ c') (hm : m.Later m')
    (h : EntryFits ttl c m entry deadline) : EntryFits ttl c' m' entry deadline := by
  refine ⟨hm.snap h.snap, h.set, ?_⟩
  intro hactive d hd
  have := h.deadline hactive d hd
  omega

theorem ExpiryFits.mono {x : ℤ} (hc : c ≤ c') (hm : m.Later m')
    (h : ExpiryFits ttl c m entry x) : ExpiryFits ttl c' m' entry x := by
  have := hm.clock
  refine ⟨?_, ?_⟩
  · intro hactive
    have := h.active hactive
    omega
  intro hdeny
  have := h.deny hdeny
  omega

theorem SessionWriter.Fits.mono (hm : m.Later m') (h : k.Fits m) : k.Fits m' := by
  cases k with
  | reuseFence | revokeFence | hashFence => exact hm.snap h
  | reuseFinal | revokeFinal | hashFinal | batchFinal => exact hm.closed h
  | _ => trivial

theorem SessionFits.mono (hc : c ≤ c') (hm : m.Later m') (h : SessionFits ttl c m p) : SessionFits ttl c' m' p := by
  have hclock := hm.clock
  cases p with
  | publish =>
    obtain ⟨hentry, hk, hfinal⟩ := h
    exact ⟨hentry.mono hc hm, hk.mono hm, hfinal⟩
  | script =>
    obtain ⟨hentry, hk, hfinal, hx⟩ := h
    exact ⟨hentry.mono hc hm, hk.mono hm, hfinal, hx.mono hc hm⟩
  | written => exact SessionWriter.Fits.mono hm h
  | checked => exact h
  | insert =>
    obtain ⟨hactive, hversion, hdeadline⟩ := h
    exact ⟨hactive, hversion, by omega⟩
  | read | rotateRead | advance | advanceCommit => exact le_trans h (by omega)
  | found =>
    obtain ⟨hsnap, hdeadline⟩ := h
    refine ⟨hm.snap hsnap, fun hactive => ?_⟩
    have := hdeadline hactive
    omega
  | rotateUpdate =>
    obtain ⟨hsnap, hactive, hdeadline⟩ := h
    exact ⟨hm.snap hsnap, hactive, by omega⟩
  | reuseUpdate | revokeCommit | hashCommit => exact hm.snap h
  | _ => trivial

theorem SessionWriter.Fits.resume (h : k.Fits m) (err : Option SessionErr) : SessionFits ttl c m (k.resume err) := by
  cases k with
  | create | get | rotated | advanced =>
    simp only [resume]
    split <;> trivial
  | reuseFence | revokeFence | hashFence =>
    cases err with
    | none => exact h
    | some => trivial
  | batchFence => cases err <;> trivial
  | _ => trivial

end Mono

inductive MemStep (m : SessionMem) : SessionPhase → SessionMem → Prop
  | same {p} : MemStep m p m
  | cached {entry deadline x k m'} :
      m.writeEntry entry x = some m' → MemStep m (.script entry deadline x k) m'
  | inserted {p session} : m.row = none → 0 < session.version →
      MemStep m p { m with row := some session }
  | updated {p r r'} : m.row = some r → r.status = .active →
      r'.expiresAt = r.expiresAt → r.version ≤ r'.version → MemStep m p { m with row := some r' }

section Step

variable {ttl c : ℤ} {op : SessionOp} {e : SessionEnv} {m m' : SessionMem} {p p' : SessionPhase} {session : UserSession}
  {now : ℤ} {r : UserSession} {entry : SessionEntry} {r session : UserSession}

theorem MemStep.later (h : MemStep m p m') : m.Later m' := by
  cases h with
  | same => exact .refl m
  | cached hwrite =>
    obtain ⟨hrow, hclock, -⟩ := writeEntry_some hwrite
    exact .of_row hclock hrow
  | inserted hnone =>
    refine ⟨le_rfl, fun r hr => ?_⟩
    rw [hnone] at hr
    cases hr
  | @updated _ r r' hrow hactive hexpires hversion =>
    refine ⟨le_rfl, fun r0 hr0 => ?_⟩
    obtain rfl := some.inj (hrow.symm.trans hr0)
    exact ⟨r', rfl, hexpires, hversion, fun hnot => absurd hactive hnot⟩

theorem MemStep.clock (h : MemStep m p m') : m'.clock = m.clock := by
  cases h with
  | cached hwrite => exact (writeEntry_some hwrite).2.1
  | _ => rfl

theorem UserSession.active_of_open (h : ¬ session.Inactive now) : session.status = .active := by
  by_contra hnot
  exact h (.inl hnot)

theorem recent (hc : c = m.clock ∨ m.Closed) (hrow : m.row = some r) (hactive : r.status = .active) : c = m.clock := by
  rcases hc with hc | ⟨r', hr', hnot⟩
  · exact hc
  · obtain rfl := some.inj (hrow.symm.trans hr')
    exact absurd hactive hnot

theorem redisExpiration_fits {deadline : Option ℤ} {x : ℤ}
    (h : EntryFits ttl c m entry deadline) (hx : redisExpiration ttl m.clock entry deadline = .ok x) :
    ExpiryFits ttl c m entry x := by
  unfold redisExpiration at hx
  by_cases hactive : entry.status = .active
  · refine ⟨fun _ => ?_, fun hdeny => absurd hactive hdeny⟩
    simp only [hactive, if_true] at hx
    split at hx
    · cases hx
    rename_i d
    have hd := h.deadline hactive d rfl
    split_ifs at hx <;> obtain rfl := Except.ok.inj hx <;> omega
  · refine ⟨fun hyes => absurd hyes hactive, fun _ => ?_⟩
    simp only [hactive, if_false] at hx
    split_ifs at hx <;> obtain rfl := Except.ok.inj hx <;> omega

theorem SessionMem.Snap.of_row (hrow : m.row = some r) : m.Snap r.expiresAt r.version := ⟨r, hrow, rfl, le_rfl⟩

theorem SessionMem.Snap.afterFind (hrow : m.row = some r) : m.Snap r.afterFind.expiresAt r.afterFind.version := by
  obtain ⟨hexpires, hversion, -⟩ := r.afterFind_fits
  rw [hexpires, hversion]
  exact .of_row hrow

theorem recent_afterFind (hc : c = m.clock ∨ m.Closed) (hrow : m.row = some r)
    (hactive : r.afterFind.status = .active) : c = m.clock :=
  recent hc hrow (r.afterFind_fits.2.2.symm.trans hactive)

theorem EntryFits.of_active {d : ℤ} (hsnap : m.Snap entry.expiresAt entry.version)
    (hactive : entry.status = .active) (hd : d ≤ c + ttl) : EntryFits ttl c m entry (some d) := by
  refine ⟨hsnap, ?_, ?_⟩
  · rw [hactive]
    exact nofun
  rintro - d' hd'
  cases hd'
  exact hd

theorem EntryFits.of_deny {deadline : Option ℤ} (hsnap : m.Snap entry.expiresAt entry.version)
    (hstatus : entry.status = .revoking ∨ entry.status = .revoked) : EntryFits ttl c m entry deadline := by
  refine ⟨hsnap, ?_, ?_⟩
  · rcases hstatus with hstatus | hstatus <;> rw [hstatus] <;> exact nofun
  · intro hactive
    rcases hstatus with hstatus | hstatus <;> rw [hstatus] at hactive <;> cases hactive

theorem EntryFits.fence {reason : String} (hsnap : m.Snap session.expiresAt session.version) :
    EntryFits ttl c m (session.denyEntry .revoking now reason) none :=
  .of_deny hsnap (.inl rfl)

theorem UserSession.toCreate_ok {session session' : UserSession}
    (h : session.toCreate now = .ok session') : session'.status = .active ∧ 0 < session'.version := by
  unfold toCreate at h
  simp only at h
  split at h
  · cases h
  split at h
  · cases h
  rename_i hactive
  push Not at hactive
  cases h
  refine ⟨hactive.1, ?_⟩
  simp only [withDefaults]
  split <;> omega

structure SessionStep (ttl c : ℤ) (m : SessionMem) (p p' : SessionPhase) (m' : SessionMem) : Prop where
  mem : MemStep m p m'
  fits : SessionFits ttl c m' p'

theorem SessionStep.same (h : SessionFits ttl c m p') : SessionStep ttl c m p p' m := ⟨.same, h⟩

theorem SessionStep.of_same {q : SessionPhase} (hst : some (q, m) = some (p', m')) (h : SessionFits ttl c m q) :
    SessionStep ttl c m p p' m' := by
  cases hst
  exact .same h

theorem SessionStep.of_done {reply : SessionReply} (hst : some (SessionPhase.done reply, m) = some (p', m')) :
    SessionStep ttl c m p p' m' := .of_same hst trivial

theorem SessionStep.done (reply : SessionReply) : SessionStep ttl c m p (.done reply) m := ⟨.same, trivial⟩

theorem RotateArgs.answer_sessionFits {a : RotateArgs} {n : ℕ} {now deadline : ℤ}
    (hsnap : m.Snap session.expiresAt session.version) (hrecent : session.status = .active → c = m.clock)
    (hdeadline : deadline ≤ m.clock + ttl) : SessionFits ttl c m (a.answer n now deadline session) := by
  unfold answer
  split_ifs with hinactive hcurrent hunknown hrace
  · trivial
  · have hactive : session.status = .active := active_of_open hinactive
    have hnow := hrecent hactive
    exact ⟨hsnap, hactive, by omega⟩
  · trivial
  · trivial
  · exact ⟨.fence hsnap, hsnap, False.elim⟩

theorem SessionStep.revoked {reason : String} {k : SessionWriter}
    (hrow : m.row = some r) (hactive : r.status = .active) (hsnap : m.Snap session.expiresAt session.version)
    (hk : ∀ m', SessionMem.Closed m' → k.Fits m') :
    SessionStep ttl c m p (.publish (session.revoke now reason).cacheEntry none k)
      { m with row := some (r.revoke now reason) } := by
  have hmem : MemStep m p { m with row := some (r.revoke now reason) } := .updated hrow hactive rfl le_rfl
  refine ⟨hmem, .of_deny (hmem.later.snap hsnap) (.inr rfl), hk _ ⟨_, rfl, nofun⟩, fun _ => rfl⟩

theorem SessionStep.advanced {userAuthVersion now deadline : ℤ} (hrow : m.row = some r) (hactive : r.status = .active)
    (hsession : session.expiresAt = r.expiresAt ∧ session.version = r.version ∧ session.status = r.status)
    (hdeadline : deadline ≤ c + ttl) :
    SessionStep ttl c m p (.publish (session.advance userAuthVersion now).cacheEntry (some deadline)
        (.advanced (session.advance userAuthVersion now)))
      { m with row := some (r.advance userAuthVersion now) } := by
  obtain ⟨hexpires, hversion, hstatus⟩ := hsession
  have hmem : MemStep m p { m with row := some (r.advance userAuthVersion now) } :=
    .updated hrow hactive rfl (Int.le_of_lt (Int.lt_succ _))
  refine ⟨hmem, .of_active ⟨_, rfl, hexpires.symm, ?_⟩ (hstatus.trans hactive) hdeadline, trivial, False.elim⟩
  exact (congrArg (· + 1) hversion).le

theorem session_step (hc : c = m.clock ∨ m.Closed) (h : SessionFits ttl c m p)
    (hst : op.stmt ttl e p m = some (p', m')) : SessionStep ttl c m p p' m' := by
  unfold stmt at hst
  -- one case per line of `stmt`
  split at hst
  · cases hst
    refine .same ?_
    cases op with
    | create =>
      simp only [start]
      split
      · trivial
      · exact toCreate_ok ‹_›
    | get =>
      simp only [start]
      split_ifs
      · trivial
      · split <;> trivial
    | rotate | revoke | revokeByHash | revokeAll =>
      simp only [start]
      split_ifs <;> trivial
    | advance =>
      simp only [start]
      split_ifs
      · trivial
      · exact le_rfl
  · obtain ⟨hentry, hk, hfinal⟩ := h
    split at hst <;> cases hst
    · exact .same (hk.resume _)
    · exact .same ⟨hentry, hk, hfinal, redisExpiration_fits hentry ‹_›⟩
  · obtain ⟨-, hk, -⟩ := h
    split at hst
    · exact .of_same hst (hk.resume _)
    split at hst <;> cases hst
    · exact .same (hk.resume _)
    rename_i hwrite
    obtain ⟨hrow, hclock, -⟩ := writeEntry_some hwrite
    have hkept := hk.mono (.of_row hclock hrow)
    refine ⟨.cached hwrite, ?_⟩
    split
    · exact hkept
    · exact hkept.resume _
  · exact .of_same hst (SessionWriter.Fits.resume h _)
  · split_ifs at hst <;> exact .of_same hst trivial
  · split_ifs at hst
    · exact .of_done hst
    split at hst
    · exact .of_done hst
    split_ifs at hst <;> exact .of_done hst
  -- `CreateUserSession`
  · exact .of_same hst ⟨h.1, h.2, le_rfl⟩
  · obtain ⟨hactive, hversion, hdeadline⟩ := h
    split_ifs at hst
    · exact .of_done hst
    split at hst <;> cases hst
    · exact .done _
    rename_i hnone
    have hrecent : c = m.clock := by
      rcases hc with hc | ⟨r, hr, -⟩
      · exact hc
      · rw [hnone] at hr
        cases hr
    exact ⟨.inserted hnone hversion, .of_active ⟨_, rfl, rfl, le_rfl⟩ hactive (by omega), trivial, False.elim⟩
  -- `GetUserSessionCached`
  · refine .of_same hst ?_
    unfold SessionEntry.check
    split_ifs <;> trivial
  · exact .of_same hst le_rfl
  · split_ifs at hst
    · exact .of_done hst
    split at hst <;> cases hst
    · exact .done _
    rename_i hrow
    refine .same ⟨.afterFind hrow, fun hactive => ?_⟩
    rw [recent_afterFind hc hrow hactive]
    exact h
  · obtain ⟨hsnap, hdeadline⟩ := h
    split_ifs at hst with hinactive <;> cases hst
    · exact .same ⟨.of_deny hsnap (.inr rfl), trivial, False.elim⟩
    · have hactive := active_of_open hinactive
      exact .same ⟨.of_active hsnap hactive (hdeadline hactive), trivial, False.elim⟩
  -- `RotateUserSessionRefresh`
  · exact .of_same hst le_rfl
  · split_ifs at hst
    · exact .of_done hst
    split at hst <;> cases hst
    · exact .done _
    rename_i hfind
    obtain ⟨r, hrow, -, rfl⟩ := find_some hfind
    exact .same (RotateArgs.answer_sessionFits (.afterFind hrow) (recent_afterFind hc hrow) h)
  · obtain ⟨hsnap, hactive, hdeadline⟩ := h
    split at hst
    · exact .of_done hst
    rcases update_cases (some.inj hst) with ⟨rfl, rfl⟩ | ⟨r, hrow, ⟨-, hopen, -⟩, rfl, rfl⟩
    · refine .same ?_
      split <;> trivial
    refine ⟨.updated hrow (active_of_open hopen) rfl le_rfl, .of_active ?_ hactive hdeadline, trivial, False.elim⟩
    obtain ⟨r', hr', hsnap⟩ := hsnap
    obtain rfl := some.inj (hrow.symm.trans hr')
    exact ⟨_, rfl, hsnap⟩
  · split at hst
    · exact .of_done hst
    rcases update_cases (some.inj hst) with ⟨rfl, rfl⟩ | ⟨r, hrow, ⟨-, hopen⟩, rfl, rfl⟩
    · exact .done _
    · exact .revoked hrow (active_of_open hopen) h fun _ => id
  -- `AdvanceUserSessionAuthVersion`
  · exact .of_same hst h
  · split at hst
    · exact .of_done hst
    split at hst
    · exact .of_done hst
    rename_i hfind
    obtain ⟨r0, hrow0, -, rfl⟩ := find_some hfind
    rcases update_cases (some.inj hst) with ⟨rfl, rfl⟩ | ⟨r, hrow, ⟨hactive, -⟩, rfl, rfl⟩
    · exact .done _
    obtain rfl := some.inj (hrow0.symm.trans hrow)
    exact .advanced hrow hactive r0.afterFind_fits (recent hc hrow hactive ▸ h)
  -- `RevokeUserSession`
  · split at hst
    · exact .of_done hst
    split at hst
    · exact .of_done hst
    rename_i hfind
    obtain ⟨r, hrow, -, rfl⟩ := find_some hfind
    split at hst <;> cases hst
    · exact .done _
    · exact .same ⟨.fence (.afterFind hrow), .afterFind hrow, False.elim⟩
  · split at hst
    · exact .of_done hst
    split at hst
    · exact .of_done hst
    rcases update_cases (some.inj hst) with ⟨rfl, rfl⟩ | ⟨r, hrow, hopen, rfl, rfl⟩
    · exact .done _
    · exact .revoked hrow (active_of_open hopen) h fun _ => id
  -- `RevokeUserSessionByRefreshHash`
  · split at hst
    · exact .of_done hst
    split at hst
    · exact .of_done hst
    rename_i hrow
    simp only at hst
    split at hst <;> cases hst
    · exact .done _
    · exact .same ⟨.fence (.afterFind hrow), .afterFind hrow, False.elim⟩
  · split at hst
    · exact .of_done hst
    rcases update_cases (some.inj hst) with ⟨rfl, rfl⟩ | ⟨r, hrow, hactive, rfl, rfl⟩
    · exact .done _
    · exact .revoked hrow hactive h fun _ => id
  -- `revokeUserSessions`
  · split_ifs at hst
    · exact .of_done hst
    · exact .of_same hst trivial
    split at hst
    · exact .of_done hst
    rename_i hfind
    obtain ⟨r, hrow, -, rfl⟩ := find_some hfind
    split at hst <;> cases hst
    · exact .same ⟨.fence (.afterFind hrow), trivial, False.elim⟩
    · exact .done _
  · split at hst
    · exact .of_done hst
    rcases update_cases (some.inj hst) with ⟨rfl, rfl⟩ | ⟨r, hrow, hactive, rfl, rfl⟩
    · exact .same trivial
    · exact .revoked hrow hactive (.afterFind hrow) fun _ => id
  · cases hst

end Step

/-- The row was closed by the time `c`, and a deny state is in the cache until the last active snapshot is too old. -/
structure Sealed (ttl c : ℤ) (m : SessionMem) : Prop where
  closed : m.Closed
  past : c ≤ m.clock
  denied : ∀ x, m.cached = some x → x.entry.status = .revoking ∨ x.entry.status = .revoked
  kept : ∀ r, m.row = some r → m.clock ≤ min (c + ttl) (r.expiresAt * 1000) →
    ∃ x, m.cached = some x ∧ min (c + ttl) (r.expiresAt * 1000) ≤ x.expireAt

section Tombstone

variable {ttl c : ℤ} {op : SessionOp} {e : SessionEnv} {m m' : SessionMem} {p p' : SessionPhase}
  {entry : SessionEntry} {deadline : Option ℤ} {x : ℤ}

theorem Sealed.of_deny (hclosed : m.Closed) (hpast : c ≤ m.clock) (hentry : EntryFits ttl c m entry deadline)
    (hx : ExpiryFits ttl c m entry x) (hdeny : entry.status ≠ .active) (hwrite : m.writeEntry entry x = some m') :
    Sealed ttl c m' := by
  obtain ⟨hpos, hlong⟩ := hx.deny hdeny
  have hexpire : m.expireAt entry x = m.clock + x := if_neg hdeny
  obtain ⟨-, rfl⟩ := writeEntry_eq hwrite
  rw [hexpire, if_neg (by omega)]
  refine ⟨hclosed, hpast, ?_, ?_⟩
  · intro y hy
    cases hy
    cases hstatus : entry.status with
    | unset => exact absurd hstatus hentry.set
    | active => exact absurd hstatus hdeny
    | revoking => exact .inl rfl
    | revoked => exact .inr rfl
  · intro r hr _
    refine ⟨_, rfl, ?_⟩
    obtain ⟨r', hr', hexpires, -⟩ := hentry.snap
    obtain rfl := some.inj (hr'.symm.trans hr)
    simp only
    omega

namespace Sealed

variable (h : Sealed ttl c m)
include h

theorem live {r : UserSession} (hrow : m.row = some r) (hclock : m.clock ≤ min (c + ttl) (r.expiresAt * 1000)) :
    m.live.map (·.status) = some .revoking ∨ m.live.map (·.status) = some .revoked := by
  obtain ⟨x, hx, hkept⟩ := h.kept r hrow hclock
  have hlive : m.live = some x.entry := by
    simp only [SessionMem.live, hx]
    exact if_pos (hclock.trans hkept)
  rcases h.denied x hx with hstatus | hstatus
  · left
    rw [hlive, ← hstatus]
    rfl
  right
  rw [hlive, ← hstatus]
  rfl

theorem writeEntry (hentry : EntryFits ttl c m entry deadline)
    (hx : ExpiryFits ttl c m entry x) (hwrite : m.writeEntry entry x = some m') : Sealed ttl c m' := by
  by_cases hactive : entry.status = .active
  · -- the deny state is gone, so the snapshot is too old
    obtain ⟨r, hr, hexpires, -⟩ := hentry.snap
    obtain ⟨hshort, hshort'⟩ := hx.active hactive
    obtain ⟨hrefused, rfl⟩ := writeEntry_eq hwrite
    have hlate : min (c + ttl) (r.expiresAt * 1000) < m.clock := by
      by_contra hearly
      exact hrefused ⟨hactive, h.live hr (not_lt.1 hearly)⟩
    have hexpire : m.expireAt entry x = x := if_pos hactive
    rw [hexpire, if_pos (by omega)]
    refine ⟨h.closed, h.past, fun y hy => (nomatch hy), ?_⟩
    intro r' hr' hearly
    obtain rfl := some.inj (hr.symm.trans hr')
    exact absurd hearly (not_le.2 hlate)
  · exact .of_deny h.closed h.past hentry hx hactive hwrite

theorem step (hfits : SessionFits ttl c m p) (hmem : MemStep m p m') : Sealed ttl c m' := by
  cases hmem with
  | same => exact h
  | cached hwrite =>
    obtain ⟨hentry, -, -, hx⟩ := hfits
    exact h.writeEntry hentry hx hwrite
  | inserted hnone =>
    obtain ⟨r, hr, -⟩ := h.closed
    rw [hnone] at hr
    cases hr
  | updated hrow hactive =>
    obtain ⟨r, hr, hnot⟩ := h.closed
    obtain rfl := some.inj (hrow.symm.trans hr)
    exact absurd hactive hnot

theorem tick (δ : ℕ) : Sealed ttl c { m with clock := m.clock + δ } := by
  refine ⟨h.closed, ?_, h.denied, ?_⟩
  · have := h.past
    simp only
    omega
  intro r hr hclock
  apply h.kept r hr
  simp only at hclock
  omega

end Sealed

def LateGet : SessionPhase → Prop
  | .idle | .missed | .read _ => True
  | .hit entry => entry.status ≠ .active
  | .found session _ => session.status ≠ .active
  | .publish _ _ k | .script _ _ _ k | .written _ _ k => k = .deny
  | .done reply => ∀ session, reply ≠ .session session
  | _ => False

theorem LateGet.failed (err : SessionErr) : LateGet (.done (.failed err)) := by
  intro session hreply
  cases hreply

theorem LateGet.stmt (hseal : Sealed ttl c m) (h : LateGet p)
    (hst : get.stmt ttl e p m = some (p', m')) : LateGet p' := by
  cases p with
  | idle =>
    cases hst
    simp only [start]
    split_ifs
    · trivial
    split
    · trivial
    rename_i entry hlive
    obtain ⟨x, hx, rfl, -⟩ := live_some hlive
    rcases hseal.denied x hx with hstatus | hstatus
    · exact fun hactive => absurd (hstatus.symm.trans hactive) (by decide)
    · exact fun hactive => absurd (hstatus.symm.trans hactive) (by decide)
  | missed =>
    cases hst
    trivial
  | read deadline =>
    simp only [stmt] at hst
    split at hst
    · cases hst
      exact .failed _
    split at hst <;> cases hst
    · exact .failed _
    rename_i r hrow
    obtain ⟨r', hr', hnot⟩ := hseal.closed
    obtain rfl := some.inj (hrow.symm.trans hr')
    exact fun hactive => hnot (r.afterFind_fits.2.2.symm.trans hactive)
  | hit =>
    cases hst
    unfold SessionEntry.check
    split_ifs with hschema hinactive
    · trivial
    · exact .failed _
    · exact absurd (.inl h) hinactive
  | found session =>
    have hinactive : session.Inactive m.unix := .inl h
    simp only [stmt, if_pos hinactive] at hst
    cases hst
    rfl
  | publish entry deadline k =>
    obtain rfl := h
    obtain ⟨rfl, ⟨err, -, rfl⟩ | ⟨x, -, rfl⟩⟩ := publish_cases hst
    · exact .failed _
    · rfl
  | script entry deadline x k =>
    obtain rfl := h
    rcases script_cases hst with ⟨rfl, -, err, rfl⟩ | ⟨-, rfl⟩
    · exact .failed _
    split
    · rfl
    · exact .failed _
  | written entry deadline k =>
    obtain rfl := h
    cases hst
    exact .failed _
  | done => cases hst
  | _ => exact h.elim

end Tombstone

section Runs

variable {ι : Type} [DecidableEq ι] {cacheSeconds c : ℤ} {ops : ι → SessionOp}
  {s s₁ s₂ : Shared ι SessionPhase SessionMem} {i j : ι} {ev : SharedEvent ι SessionEnv ℕ}
  {es es' : List (SharedEvent ι SessionEnv ℕ)}

theorem SessionMem.later_tick (m : SessionMem) (δ : ℕ) : m.Later { m with clock := m.clock + δ } := by
  refine ⟨?_, fun r hr => ⟨r, hr, rfl, le_rfl, id⟩⟩
  simp only
  omega

/-- All that the calls hold fits a time `c`: now, or before the row was closed. -/
def SessionsFit (cacheSeconds : ℤ) (s : Shared ι SessionPhase SessionMem) : Prop :=
  ∃ c ≤ s.mem.clock, (c = s.mem.clock ∨ s.mem.Closed) ∧
    ∀ i, SessionFits (userSessionCacheTTL cacheSeconds) c s.mem (s.phase i)

theorem fits_update {ttl : ℤ} {m' : SessionMem} {p' : SessionPhase} (h : ∀ j, SessionFits ttl c s.mem (s.phase j))
    (hstep : SessionStep ttl c s.mem (s.phase i) p' m') :
    ∀ j, SessionFits ttl c m' (Function.update s.phase i p' j) :=
  (Function.forall_update_iff s.phase fun _ p => SessionFits ttl c m' p).2
    ⟨hstep.fits, fun j _ => (h j).mono le_rfl hstep.mem.later⟩

theorem SessionsFit.next (h : SessionsFit cacheSeconds s) :
    SessionsFit cacheSeconds ((sessionProgram cacheSeconds ops).next s ev) := by
  obtain ⟨c, hc, hwhen, hfits⟩ := h
  apply Program.next_keeps ⟨c, hc, hwhen, hfits⟩
  · rintro i e p' m' - hst
    have hstep := session_step hwhen (hfits i) hst
    have hclock := hstep.mem.clock
    refine ⟨c, hclock ▸ hc, ?_, fits_update hfits hstep⟩
    rcases hwhen with hnow | hclosed
    · exact .inl (hnow.trans hclock.symm)
    · exact .inr (hstep.mem.later.closed hclosed)
  · rintro δ -
    have hlater := s.mem.later_tick δ
    by_cases hclosed : s.mem.Closed
    · exact ⟨c, hc.trans hlater.clock, .inr (hlater.closed hclosed), fun i => (hfits i).mono le_rfl hlater⟩
    · exact ⟨_, le_rfl, .inl rfl, fun i => (hfits i).mono (hc.trans hlater.clock) hlater⟩

theorem SessionsFit.run (hrun : Run (sessionProgram cacheSeconds ops).step s es s₁)
    (h : SessionsFit cacheSeconds s) : SessionsFit cacheSeconds s₁ := by
  apply hrun.inv _ h
  rintro s ev _ hs rfl
  exact hs.next

omit [DecidableEq ι] in
theorem SessionsFit.start (hidle : ∀ i, s.phase i = .idle) : SessionsFit cacheSeconds s := by
  refine ⟨_, le_rfl, .inl rfl, ?_⟩
  intro i
  rw [hidle i]
  trivial

structure SessionMem.VersionsOk (m : SessionMem) : Prop where
  row : ∀ r, m.row = some r → 0 < r.version
  cached : ∀ y, m.cached = some y → ∃ r, m.row = some r ∧ y.entry.version ≤ r.version

theorem SessionMem.VersionsOk.step {ttl : ℤ} {m m' : SessionMem} {p : SessionPhase} (h : m.VersionsOk)
    (hfits : SessionFits ttl c m p) (hmem : MemStep m p m') : m'.VersionsOk := by
  cases hmem with
  | same => exact h
  | cached hwrite =>
    obtain ⟨hrow, -, hcached⟩ := writeEntry_some hwrite
    refine ⟨fun r hr => h.row r (hrow ▸ hr), ?_⟩
    intro y hy
    obtain ⟨r, hr, -, hversion⟩ := hfits.1.snap
    rw [hcached y hy]
    exact ⟨r, hrow.trans hr, hversion⟩
  | inserted hnone hpos =>
    refine ⟨?_, ?_⟩
    · intro r hr
      cases hr
      exact hpos
    intro y hy
    obtain ⟨r, hr, -⟩ := h.cached y hy
    rw [hnone] at hr
    cases hr
  | @updated _ r r' hrow _ _ hversion =>
    refine ⟨?_, ?_⟩
    · intro r0 hr0
      cases hr0
      exact (h.row r hrow).trans_le hversion
    intro y hy
    obtain ⟨r0, hr0, hle⟩ := h.cached y hy
    obtain rfl := some.inj (hrow.symm.trans hr0)
    exact ⟨r', rfl, hle.trans hversion⟩

/-- **The cache never runs ahead of the row.** -/
theorem versions_run (hidle : ∀ i, s.phase i = .idle) (h : s.mem.VersionsOk)
    (hrun : Run (sessionProgram cacheSeconds ops).step s es s₁) : s₁.mem.VersionsOk := by
  have hboth := hrun.inv (I := fun s => SessionsFit cacheSeconds s ∧ s.mem.VersionsOk) ?_ ⟨.start hidle, h⟩
  · exact hboth.2
  rintro s ev _ ⟨hs, h⟩ rfl
  refine ⟨hs.next, ?_⟩
  obtain ⟨c, -, hwhen, hfits⟩ := hs
  apply Program.next_keeps (I := fun s => SessionMem.VersionsOk s.mem) h
  · rintro i e p' m' - hst
    exact h.step (hfits i) (session_step hwhen (hfits i) hst).mem
  · rintro δ -
    exact ⟨h.row, h.cached⟩

structure SealedRun (cacheSeconds c : ℤ) (j : ι) (s : Shared ι SessionPhase SessionMem) : Prop where
  mem : Sealed (userSessionCacheTTL cacheSeconds) c s.mem
  fits : ∀ i, SessionFits (userSessionCacheTTL cacheSeconds) c s.mem (s.phase i)
  late : LateGet (s.phase j)

theorem SealedRun.next (hget : ops j = .get) (h : SealedRun cacheSeconds c j s) :
    SealedRun cacheSeconds c j ((sessionProgram cacheSeconds ops).next s ev) := by
  apply Program.next_keeps h
  · rintro i e p' m' - hst
    have hstep := session_step (.inr h.mem.closed) (h.fits i) hst
    refine ⟨h.mem.step (h.fits i) hstep.mem, fits_update h.fits hstep, ?_⟩
    by_cases hj : j = i
    · subst hj
      simp only [Function.update_self]
      have hst' : get.stmt (userSessionCacheTTL cacheSeconds) e (s.phase j) s.mem = some (p', m') := by
        rw [← hget]
        exact hst
      exact h.late.stmt h.mem hst'
    · simp only [Function.update_of_ne hj]
      exact h.late
  · rintro δ -
    have hlater := s.mem.later_tick δ
    exact ⟨h.mem.tick δ, fun i => (h.fits i).mono le_rfl hlater, h.late⟩

theorem SealedRun.run (hget : ops j = .get) (hrun : Run (sessionProgram cacheSeconds ops).step s es s₁)
    (h : SealedRun cacheSeconds c j s) : SealedRun cacheSeconds c j s₁ := by
  apply hrun.inv _ h
  rintro s ev _ hs rfl
  exact hs.next hget

/-- **A revoked session stays revoked.** -/
theorem revoked_stays_revoked (hidle : ∀ i, s.phase i = .idle)
    (hrun : Run (sessionProgram cacheSeconds ops).step s es s₁)
    {e : SessionEnv} {entry : SessionEntry} {deadline : Option ℤ} {x : ℤ} {k : SessionWriter}
    (htombstone : s₁.phase i = .script entry deadline x k) (hfinal : k.IsFinal) (hok : e.fails = false)
    (hwritten : s₁.mem.writeEntry entry x ≠ none)
    (hafter : Run (sessionProgram cacheSeconds ops).step
      ((sessionProgram cacheSeconds ops).next s₁ (.call i e)) es' s₂)
    (hget : ops j = .get) (hlater : s₁.phase j = .idle) :
    (∃ r, s₂.mem.row = some r ∧ r.status ≠ .active) ∧ ∀ session, s₂.phase j ≠ .done (.session session) := by
  obtain ⟨c, hc, hwhen, hfits⟩ := (SessionsFit.start hidle).run hrun
  obtain ⟨m', hm'⟩ := ne_none_iff_exists'.1 hwritten
  have hphase := hfits i
  rw [htombstone] at hphase
  obtain ⟨hentry, hk, hrevoked, hx⟩ := hphase
  have hdeny : entry.status ≠ .active := by
    rw [hrevoked hfinal]
    exact nofun
  have hclosed : s₁.mem.Closed := by
    cases k with
    | reuseFinal | revokeFinal | hashFinal | batchFinal => exact hk
    | _ => exact hfinal.elim
  have hst : (sessionProgram cacheSeconds ops).stmt i e (s₁.phase i) s₁.mem = some (k.resume none, m') := by
    rw [htombstone]
    simp [sessionProgram, stmt, hok, hm', hdeny]
  have hij : j ≠ i := by
    rintro rfl
    rw [hlater] at htombstone
    cases htombstone
  have hsealed : SealedRun cacheSeconds c j ((sessionProgram cacheSeconds ops).next s₁ (.call i e)) := by
    rw [Program.next_some hst]
    refine ⟨.of_deny hclosed hc hentry hx hdeny hm', fits_update hfits (session_step hwhen (hfits i) hst), ?_⟩
    simp only [Function.update_of_ne hij, hlater]
    trivial
  have hend := hsealed.run hget hafter
  refine ⟨hend.mem.closed, ?_⟩
  intro session hdone
  have hlate := hend.late
  rw [hdone] at hlate
  exact hlate session rfl

end Runs

def sampleLogin : UserSession := ⟨7, 1, 1, .active, "a", "", 0, 0, 1000, 0, ""⟩

def sampleLoginStart : Shared (Fin 3) SessionPhase SessionMem := ⟨⟨some sampleLogin, none, 10000⟩, fun _ => .idle⟩

def sampleSessionOps : Fin 3 → SessionOp
  | 0 => .get
  | 1 => .revoke 7 "logout"
  | 2 => .get

theorem versions_run_login :
    let next := (sessionProgram 60 sampleSessionOps).next
    let s := (sampleStatements [0, 0, 1, 1, 1, 0, 0, 0, 1, 1, 1]).foldl next sampleLoginStart
    s.mem.VersionsOk := by
  intro next s
  have hrun : Run (sessionProgram 60 sampleSessionOps).step sampleLoginStart _ s := Run.of_foldl next _ _
  refine versions_run (fun _ => rfl) ?_ hrun
  constructor <;> rintro _ ⟨⟩
  decide

theorem revoked_stays_revoked_late_fill :
    let next := (sessionProgram 60 sampleSessionOps).next
    let s₁ := (sampleStatements [0, 0, 0, 0, 0, 1, 1, 1, 1, 1, 1]).foldl next sampleLoginStart
    let s₂ := (.env 61000 :: sampleStatements [0, 2, 2, 2, 2, 2, 2]).foldl next (next s₁ (.call 1 ⟨false, false⟩))
    s₂.mem.cached ≠ none ∧ ∀ session, s₂.phase 2 ≠ .done (.session session) := by
  intro next s₁ s₂
  have htombstone : s₁.phase 1 = .script (sampleLogin.revoke 10 "logout").cacheEntry none 60000 .revokeFinal := by
    decide +kernel
  have hwritten : s₁.mem.writeEntry (sampleLogin.revoke 10 "logout").cacheEntry 60000 ≠ none := by decide +kernel
  have hlater : s₁.phase 2 = .idle := by decide +kernel
  have hbefore : Run (sessionProgram 60 sampleSessionOps).step sampleLoginStart _ s₁ := Run.of_foldl next _ _
  have hafter : Run (sessionProgram 60 sampleSessionOps).step (next s₁ (.call 1 ⟨false, false⟩)) _ s₂ :=
    Run.of_foldl next _ _
  obtain ⟨-, hnever⟩ := revoked_stays_revoked (fun _ => rfl) hbefore htombstone trivial rfl hwritten hafter rfl hlater
  exact ⟨by decide +kernel, hnever⟩

end NewApi

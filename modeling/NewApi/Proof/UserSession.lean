import NewApi.Spec.UserSession

/-!
# Refresh tokens of a login session

Calls of `RotateUserSessionRefresh` on one session, in any order of their statements.

* `rotate_step`: a statement leaves the row, exchanges the presented hash for the next one, or revokes the session.
* `HashesFit.next`, `HashesFit.run`: a hash that has left the row never comes back, since the new ones are fresh.
* `Doomed.next`: a hash that was replaced, presented too late, is three statements away from the revocation.
-/

namespace NewApi

open Trace Function Option SessionMem SharedEvent UserSession SessionOp

theorem UserSession.afterFind_fits (r : UserSession) :
    r.afterFind.expiresAt = r.expiresAt ∧ r.afterFind.version = r.version ∧ r.afterFind.status = r.status := by
  exact ⟨rfl, rfl, rfl⟩

theorem UserSession.afterFind_hashes (r : UserSession) :
    r.afterFind.refreshHash = r.refreshHash ∧ r.afterFind.previousRefreshHash = trimSpace r.previousRefreshHash ∧
      r.afterFind.previousValidUntil = r.previousValidUntil := by
  exact ⟨rfl, rfl, rfl⟩

theorem UserSession.afterFind_inactive (now : ℤ) (r : UserSession) : r.afterFind.Inactive now ↔ r.Inactive now := by
  simp [UserSession.Inactive, afterFind]

variable {m m' : SessionMem} {entry : SessionEntry} {m : SessionMem} {session : UserSession}

theorem SessionMem.update_cases {C : UserSession → Prop} [DecidablePred C] {f : UserSession → UserSession}
    {hit : UserSession → SessionPhase} {miss p' : SessionPhase} (h : m.update C f hit miss = (p', m')) :
    (p' = miss ∧ m' = m) ∨ ∃ r, m.row = some r ∧ C r ∧ p' = hit r ∧ m' = { m with row := some (f r) } := by
  unfold update at h
  cases hrow : m.row with
  | none =>
    obtain ⟨rfl, rfl⟩ := Prod.mk.inj (by simpa only [hrow] using h)
    exact .inl ⟨rfl, rfl⟩
  | some r =>
    simp only [hrow] at h
    split_ifs at h with hC <;> cases h
    · exact .inr ⟨r, rfl, hC, rfl, rfl⟩
    · exact .inl ⟨rfl, rfl⟩

def SessionMem.expireAt (entry : SessionEntry) (x : ℤ) (m : SessionMem) : ℤ :=
  if entry.status = .active then x else m.clock + x

theorem SessionMem.writeEntry_eq {x : ℤ} (h : m.writeEntry entry x = some m') :
    ¬ (entry.status = .active ∧ (m.live.map (·.status) = some .revoking ∨ m.live.map (·.status) = some .revoked)) ∧
      m' = { m with
        cached := if m.expireAt entry x ≤ m.clock then none
          else some ⟨{ entry with cacheSchema := userSessionCacheSchema }, m.expireAt entry x⟩ } := by
  unfold writeEntry at h
  simp only at h
  split at h
  · cases h
  rename_i hnot
  split at h
  · cases h
  · exact ⟨hnot, (some.inj h).symm⟩

theorem SessionMem.writeEntry_some {x : ℤ} (h : m.writeEntry entry x = some m') : m'.row = m.row ∧ m'.clock = m.clock ∧
      ∀ c, m'.cached = some c → c = ⟨{ entry with cacheSchema := userSessionCacheSchema }, m.expireAt entry x⟩ := by
  obtain ⟨-, rfl⟩ := writeEntry_eq h
  refine ⟨rfl, rfl, ?_⟩
  intro c hc
  simp only at hc
  split at hc
  · cases hc
  · exact (some.inj hc).symm

theorem SessionMem.live_some (h : m.live = some entry) :
    ∃ c, m.cached = some c ∧ c.entry = entry ∧ m.clock ≤ c.expireAt := by
  unfold live at h
  cases hc : m.cached with
  | none => simp [hc] at h
  | some c =>
    simp only [hc] at h
    split_ifs at h with hlive
    exact ⟨c, rfl, some.inj h, hlive⟩

theorem SessionMem.find_some {userID : ℤ}
    (h : m.find userID = some session) : ∃ r, m.row = some r ∧ r.userID = userID ∧ session = r.afterFind := by
  obtain ⟨r, hr, rfl⟩ := map_eq_some_iff.1 h
  obtain ⟨hrow, huser⟩ := filter_eq_some_iff.1 hr
  exact ⟨r, hrow, of_decide_eq_true huser, rfl⟩

section Writes

variable {op : SessionOp} {ttl : ℤ} {e : SessionEnv} {m m' : SessionMem} {p' : SessionPhase} {entry : SessionEntry}
  {deadline : Option ℤ} {k : SessionWriter}

theorem publish_cases (h : op.stmt ttl e (.publish entry deadline k) m = some (p', m')) :
    m' = m ∧ ((∃ err, redisExpiration ttl m.clock entry deadline = .error err ∧ p' = k.resume (some err)) ∨
      ∃ x, redisExpiration ttl m.clock entry deadline = .ok x ∧ p' = .script entry deadline x k) := by
  simp only [stmt] at h
  split at h <;> cases h
  · exact ⟨rfl, .inl ⟨_, ‹_›, rfl⟩⟩
  · exact ⟨rfl, .inr ⟨_, ‹_›, rfl⟩⟩

theorem script_cases {x : ℤ} (h : op.stmt ttl e (.script entry deadline x k) m = some (p', m')) :
    (m' = m ∧ (e.fails = true ∨ m.writeEntry entry x = none) ∧ ∃ err, p' = k.resume (some err)) ∨
      (m.writeEntry entry x = some m' ∧
        p' = if entry.status = .active then .written entry deadline k else k.resume none) := by
  simp only [stmt] at h
  split at h
  · cases h
    exact .inl ⟨rfl, .inl ‹_›, _, rfl⟩
  split at h <;> cases h
  · exact .inl ⟨rfl, .inr ‹_›, _, rfl⟩
  · exact .inr ⟨‹_›, rfl⟩

theorem count_cases {now : ℤ} (h : op.stmt ttl e (.count session now k) m = some (p', m')) :
    m' = m ∧ (p' = .done k.confirmed ∨ ∃ err, p' = .done (.failed err)) := by
  simp only [stmt] at h
  split_ifs at h
  · cases h
    exact ⟨rfl, .inr ⟨_, rfl⟩⟩
  split at h
  · cases h
    exact ⟨rfl, .inr ⟨_, rfl⟩⟩
  split_ifs at h <;> cases h
  · exact ⟨rfl, .inl rfl⟩
  · exact ⟨rfl, .inr ⟨_, rfl⟩⟩

end Writes

namespace SessionPhase

def Waiting : SessionPhase → Prop
  | .idle | .round _ _ | .rotateRead _ _ _ | .rotateUpdate _ _ _ _ => True
  | _ => False

def Rotated : SessionPhase → Prop
  | .publish _ _ (.rotated _) | .script _ _ _ (.rotated _) | .written _ _ (.rotated _) => True
  | .confirm _ _ | .count _ _ _ | .done (.session _) => True
  | _ => False

end SessionPhase

open SessionPhase

def RotateWriter (v : ℤ) : SessionWriter → Prop
  | .rotated _ | .reuseFinal => True
  | .reuseFence _ session => session.version = v
  | _ => False

def RotateFits (a : RotateArgs) (v : ℤ) : SessionPhase → Prop
  | .idle | .done _ => True
  | .round _ _ | .rotateRead _ _ _ => a.presentedHash ≠ ""
  | .rotateUpdate _ _ _ session => a.presentedHash ≠ "" ∧ session.refreshHash = a.presentedHash ∧ session.version = v
  | .publish entry _ k | .script entry _ _ k => entry.version = v ∧ RotateWriter v k
  | .written _ _ k => RotateWriter v k
  | .confirm _ k | .count _ _ k => ∃ session, k = .rotated session
  | .reuseUpdate _ session => session.version = v
  | _ => False

structure Versions (v : ℤ) (m : SessionMem) : Prop where
  row : ∀ r, m.row = some r → r.version = v
  cached : ∀ c, m.cached = some c → c.entry.version ≤ v

inductive RowStep (a : RotateArgs) (m : SessionMem) : SessionPhase → SessionPhase → SessionMem → Prop
  | quiet {p p' m'} : m'.row = m.row → (p'.Rotated → p.Rotated) →
      (p'.Waiting → p.Waiting) → RowStep a m p p' m'
  | rotated {n now deadline session r p'} : m.row = some r →
      r.refreshHash = a.presentedHash → ¬ p'.Waiting →
      RowStep a m (.rotateUpdate n now deadline session) p'
        { m with row := some (r.rotate a.presentedHash a.nextHash now a.graceSeconds) }
  | revoked {now session r p'} : m.row = some r → ¬ r.Inactive now →
      ¬ p'.Rotated → ¬ p'.Waiting →
      RowStep a m (.reuseUpdate now session) p' { m with row := some (r.revoke now "refresh_reuse") }

structure RotateStep (a : RotateArgs) (v : ℤ) (m : SessionMem) (p p' : SessionPhase) (m' : SessionMem) : Prop where
  row : RowStep a m p p' m'
  fits : RotateFits a v p'
  versions : Versions v m'

section Step

variable {a : RotateArgs} {v ttl : ℤ} {e : SessionEnv} {m m' : SessionMem} {p p' : SessionPhase}

theorem RotateWriter.resume {k : SessionWriter} (h : RotateWriter v k) (err : Option SessionErr) :
    RotateFits a v (k.resume err) ∧ ¬ (k.resume err).Waiting ∧
      ((k.resume err).Rotated → ∃ session, k = .rotated session) := by
  cases k with
  | rotated session =>
    refine ⟨?_, ?_, fun _ => ⟨session, rfl⟩⟩
    · simp only [SessionWriter.resume]
      split
      · exact ⟨session, rfl⟩
      · trivial
      · trivial
    · simp only [SessionWriter.resume]
      split <;> exact id
  | reuseFence =>
    cases err with
    | none => exact ⟨h, id, False.elim⟩
    | some => exact ⟨trivial, id, False.elim⟩
  | reuseFinal => exact ⟨trivial, id, False.elim⟩
  | _ => exact h.elim

theorem RotateArgs.answer_fits (n : ℕ) (now deadline : ℤ) (hne : a.presentedHash ≠ "") (hv : session.version = v) :
    RotateFits a v (a.answer n now deadline session) ∧ ¬ (a.answer n now deadline session).Rotated := by
  unfold answer
  split_ifs with hinactive hcurrent hunknown hrace
  · exact ⟨trivial, id⟩
  · exact ⟨⟨hne, hcurrent, hv⟩, id⟩
  · exact ⟨trivial, id⟩
  · exact ⟨trivial, id⟩
  · exact ⟨⟨hv, hv⟩, id⟩

theorem RotateStep.same (hm : Versions v m) (hfits : RotateFits a v p') (hrot : p'.Rotated → p.Rotated)
    (hwait : p'.Waiting → p.Waiting) : RotateStep a v m p p' m :=
  ⟨.quiet rfl hrot hwait, hfits, hm⟩

theorem RotateStep.failed (hm : Versions v m) (err : SessionErr) : RotateStep a v m p (.done (.failed err)) m :=
  .same hm trivial False.elim False.elim

theorem RotateStep.resumed {k : SessionWriter} {err : Option SessionErr} (hm : Versions v m') (hrow : m'.row = m.row)
    (hk : RotateWriter v k) (hp : (∃ session, k = .rotated session) → p.Rotated) :
    RotateStep a v m p (k.resume err) m' := by
  obtain ⟨hfits, hwait, hrot⟩ := hk.resume err
  exact ⟨.quiet hrow (fun hr => hp (hrot hr)) fun hw => absurd hw hwait, hfits, hm⟩

theorem rotate_step (hm : Versions v m) (h : RotateFits a v p)
    (hst : (rotate a).stmt ttl e p m = some (p', m')) : RotateStep a v m p p' m' := by
  cases p with
  | idle =>
    cases hst
    simp only [start]
    split
    · exact .failed hm _
    rename_i hinvalid
    push Not at hinvalid
    split
    · exact .failed hm _
    · exact .same hm hinvalid.2.1 False.elim fun _ => trivial
  | publish entry deadline k =>
    obtain ⟨hentry, hk⟩ := h
    obtain ⟨rfl, ⟨err, -, rfl⟩ | ⟨x, -, rfl⟩⟩ := publish_cases hst
    · refine .resumed hm rfl hk ?_
      rintro ⟨session, rfl⟩
      trivial
    · refine .same hm ⟨hentry, hk⟩ ?_ False.elim
      cases k <;> exact id
  | script entry deadline x k =>
    obtain ⟨hentry, hk⟩ := h
    have hphase : (∃ session, k = .rotated session) → (script entry deadline x k).Rotated := by
      rintro ⟨session, rfl⟩
      trivial
    rcases script_cases hst with ⟨rfl, -, err, rfl⟩ | ⟨hwrite, rfl⟩
    · exact .resumed hm rfl hk hphase
    obtain ⟨hrow, -, hcached⟩ := writeEntry_some hwrite
    have hversions : Versions v m' := by
      refine ⟨fun r hr => hm.row r (hrow ▸ hr), ?_⟩
      intro c hc
      rw [hcached c hc]
      exact hentry.le
    split
    · refine ⟨.quiet hrow ?_ False.elim, hk, hversions⟩
      cases k <;> exact id
    · exact .resumed hversions hrow hk hphase
  | written =>
    cases hst
    refine .resumed hm rfl h ?_
    rintro ⟨session, rfl⟩
    trivial
  | confirm =>
    simp only [stmt] at hst
    split_ifs at hst <;> cases hst
    · exact .failed hm _
    · exact .same hm h (fun _ => trivial) False.elim
  | count =>
    obtain ⟨rfl, rfl | ⟨err, rfl⟩⟩ := count_cases hst
    · exact .same hm trivial (fun _ => trivial) False.elim
    · exact .failed hm _
  | round =>
    cases hst
    exact .same hm h False.elim fun _ => trivial
  | rotateRead n now deadline =>
    simp only [stmt] at hst
    split_ifs at hst
    · cases hst
      exact .failed hm _
    split at hst <;> cases hst
    · exact .failed hm _
    rename_i session hfind
    obtain ⟨r, hrow, -, rfl⟩ := find_some hfind
    have hv : r.afterFind.version = v := r.afterFind_fits.2.1.trans (hm.row r hrow)
    obtain ⟨hfits, hrot⟩ := RotateArgs.answer_fits n now deadline h hv
    exact .same hm hfits (fun hr => absurd hr hrot) fun _ => trivial
  | rotateUpdate =>
    obtain ⟨hne, hpresented, hv⟩ := h
    simp only [stmt] at hst
    split at hst
    · cases hst
      exact .failed hm _
    rcases update_cases (some.inj hst) with ⟨rfl, rfl⟩ | ⟨r, hrow, ⟨-, -, hcurrent⟩, rfl, rfl⟩
    · split
      · exact .same hm hne False.elim fun _ => trivial
      · exact .failed hm _
    rw [hpresented]
    refine ⟨.rotated hrow hcurrent id, ⟨hv, trivial⟩, ?_, hm.cached⟩
    intro r' hr'
    cases hr'
    exact hm.row r hrow
  | reuseUpdate =>
    simp only [stmt] at hst
    split at hst
    · cases hst
      exact .failed hm _
    rcases update_cases (some.inj hst) with ⟨rfl, rfl⟩ | ⟨r, hrow, ⟨-, hopen⟩, rfl, rfl⟩
    · exact .failed hm _
    refine ⟨.revoked hrow hopen id id, ⟨h, trivial⟩, ?_, hm.cached⟩
    intro r' hr'
    cases hr'
    exact hm.row r hrow
  | done => cases hst
  | _ => exact h.elim

theorem RowStep.keeps (h : RowStep a m p p' m') {r : UserSession} (hrow : m.row = some r) :
    ∃ r', m'.row = some r' ∧ r'.userID = r.userID ∧ r'.expiresAt = r.expiresAt ∧
      (r'.status = .revoked ∨ r'.status = r.status ∧ r'.revokedAt = r.revokedAt) := by
  cases h with
  | quiet hsame => exact ⟨r, hsame.trans hrow, rfl, rfl, .inr ⟨rfl, rfl⟩⟩
  | rotated hrow' =>
    obtain rfl := some.inj (hrow.symm.trans hrow')
    exact ⟨_, rfl, rfl, rfl, .inr ⟨rfl, rfl⟩⟩
  | revoked hrow' =>
    obtain rfl := some.inj (hrow.symm.trans hrow')
    exact ⟨_, rfl, rfl, rfl, .inl rfl⟩

end Step

section Rotations

variable {ι : Type} [DecidableEq ι] {cacheSeconds v : ℤ} {args : ι → RotateArgs}
  {s s' : Shared ι SessionPhase SessionMem} {i : ι} {ev : SharedEvent ι SessionEnv ℕ}

abbrev rotations (cacheSeconds : ℤ) (args : ι → RotateArgs) : Program ι SessionPhase SessionMem SessionEnv ℕ :=
  sessionProgram cacheSeconds fun i => .rotate (args i)

/-- Every call is somewhere in a rotation, and all sessions have the version of the row. -/
abbrev RotationsFit (args : ι → RotateArgs) (v : ℤ) : Shared ι SessionPhase SessionMem → Prop :=
  Shared.Holds (Versions v) fun i _ p => RotateFits (args i) v p

theorem RotationsFit.next (h : RotationsFit args v s) :
    RotationsFit args v ((rotations cacheSeconds args).next s ev) := by
  apply Shared.Holds.next h
  · intro i e p' m' _ hst
    have hstep := rotate_step h.mem (h.phase i) hst
    exact ⟨hstep.versions, hstep.fits, fun _ _ _ hq => hq⟩
  · intro δ _
    exact ⟨⟨h.mem.row, h.mem.cached⟩, fun _ _ hq => hq⟩

theorem rotations_cases (cacheSeconds : ℤ) (h : RotationsFit args v s) (ev : SharedEvent ι SessionEnv ℕ) :
    (((rotations cacheSeconds args).next s ev).mem.row = s.mem.row ∧
        ((rotations cacheSeconds args).next s ev).phase = s.phase) ∨
      ∃ i e p' m', ev = .call i e ∧ RowStep (args i) s.mem (s.phase i) p' m' ∧
        (rotations cacheSeconds args).next s ev = ⟨m', update s.phase i p'⟩ := by
  rcases (rotations cacheSeconds args).next_cases s ev with heq | ⟨i, e, p', m', hev, hst, heq⟩ | ⟨δ, -, heq⟩
  · exact .inl ⟨by rw [heq], by rw [heq]⟩
  · exact .inr ⟨i, e, p', m', hev, (rotate_step h.mem (h.phase i) hst).row, heq⟩
  · exact .inl ⟨by rw [heq]; rfl, by rw [heq]⟩

/-! ### Each hash once -/

structure Spent (args : ι → RotateArgs) (s : Shared ι SessionPhase SessionMem) (hash : String) : Prop where
  gone : ∀ r, s.mem.row = some r → r.refreshHash ≠ hash
  never : ∀ k, (args k).nextHash = hash → ¬ (s.phase k).Waiting

structure HashesFit (args : ι → RotateArgs) (s : Shared ι SessionPhase SessionMem) : Prop where
  /-- no call is about to put the hash of the row there again -/
  current : ∀ r, s.mem.row = some r → ∀ k, (args k).nextHash = r.refreshHash → ¬ (s.phase k).Waiting
  spent : ∀ i, (s.phase i).Rotated → Spent args s (args i).presentedHash
  once : ∀ i j, (s.phase i).Rotated → (s.phase j).Rotated → (args i).presentedHash = (args j).presentedHash → i = j

omit [DecidableEq ι] in
theorem HashesFit.mono (h : HashesFit args s)
    (hrow : ∀ r', s'.mem.row = some r' → ∃ r, s.mem.row = some r ∧ r.refreshHash = r'.refreshHash)
    (hwait : ∀ k, (s'.phase k).Waiting → (s.phase k).Waiting)
    (hrot : ∀ k, (s'.phase k).Rotated → (s.phase k).Rotated) : HashesFit args s' := by
  refine ⟨?_, ?_, fun i j hi hj => h.once i j (hrot i hi) (hrot j hj)⟩
  · intro r' hr' k hk hw
    obtain ⟨r, hr, heq⟩ := hrow r' hr'
    exact h.current r hr k (hk.trans heq.symm) (hwait k hw)
  intro i hi
  obtain ⟨hgone, hnever⟩ := h.spent i (hrot i hi)
  refine ⟨?_, fun k hk hw => hnever k hk (hwait k hw)⟩
  intro r' hr'
  obtain ⟨r, hr, heq⟩ := hrow r' hr'
  exact heq ▸ hgone r hr

theorem HashesFit.rotate (h : HashesFit args s) (hinj : Function.Injective fun i => (args i).nextHash)
    {r : UserSession} {p' : SessionPhase} {now : ℤ} (hrow : s.mem.row = some r) (hwaits : (s.phase i).Waiting)
    (hcurrent : r.refreshHash = (args i).presentedHash) (hp' : ¬ p'.Waiting) :
    HashesFit args ⟨{ s.mem with row := some (r.rotate (args i).presentedHash (args i).nextHash now
      (args i).graceSeconds) }, update s.phase i p'⟩ := by
  have hfresh : (args i).nextHash ≠ (args i).presentedHash := fun heq =>
    h.current r hrow i (heq.trans hcurrent.symm) hwaits
  -- who did not wait before does not wait now
  have hkept : ∀ k, ¬ (s.phase k).Waiting → ¬ (update s.phase i p' k).Waiting := by
    intro k hk
    have hki : k ≠ i := by
      rintro rfl
      exact hk hwaits
    rwa [update_of_ne hki]
  have hother : ∀ j, j ≠ i → (update s.phase i p' j).Rotated → (s.phase j).Rotated := by
    intro j hj hrot
    rwa [update_of_ne hj] at hrot
  refine ⟨?_, ?_, ?_⟩
  · rintro r' hr' k hk
    cases hr'
    obtain rfl := hinj hk
    simpa only [update_self] using hp'
  · intro j hj
    by_cases hji : j = i
    · subst hji
      refine ⟨?_, ?_⟩
      · intro r' hr'
        cases hr'
        exact hfresh
      · intro k hk
        exact hkept k (h.current r hrow k (hk.trans hcurrent.symm))
    · obtain ⟨-, hnever⟩ := h.spent j (hother j hji hj)
      refine ⟨?_, fun k hk => hkept k (hnever k hk)⟩
      intro r' hr' heq
      cases hr'
      exact hnever i heq hwaits
  · -- a hash that was exchanged before is not the one in the row
    have hdiffers : ∀ j, j ≠ i → (update s.phase i p' j).Rotated → (args j).presentedHash ≠ (args i).presentedHash := by
      intro j hj hrot heq
      exact (h.spent j (hother j hj hrot)).gone r hrow (hcurrent.trans heq.symm)
    intro j k hj hk heq
    by_cases hji : j = i <;> by_cases hki : k = i
    · rw [hji, hki]
    · exact absurd (hji ▸ heq.symm) (hdiffers k hki hk)
    · exact absurd (hki ▸ heq) (hdiffers j hji hj)
    · exact h.once j k (hother j hji hj) (hother k hki hk) heq

theorem SessionPhase.of_update {P : SessionPhase → Prop} {φ : ι → SessionPhase} {p' : SessionPhase}
    (h : P p' → P (φ i)) : ∀ k, P (update φ i p' k) → P (φ k) :=
  (forall_update_iff φ fun k p => P p → P (φ k)).2 ⟨h, fun _ _ => id⟩

theorem HashesFit.next (hinj : Function.Injective fun i => (args i).nextHash) (hfits : RotationsFit args v s)
    (h : HashesFit args s) : HashesFit args ((rotations cacheSeconds args).next s ev) := by
  rcases rotations_cases cacheSeconds hfits ev with ⟨hrow, hphase⟩ | ⟨i, e, p', m', -, hstep, heq⟩
  · apply h.mono
    · intro r' hr'
      exact ⟨r', hrow ▸ hr', rfl⟩
    · rw [hphase]
      exact fun _ => id
    · rw [hphase]
      exact fun _ => id
  · rw [heq]
    generalize hp : s.phase i = p at hstep
    cases hstep with
    | quiet hrow hrot hwait =>
      apply h.mono
      · intro r' hr'
        exact ⟨r', hrow ▸ hr', rfl⟩
      · exact of_update (hp ▸ hwait)
      · exact of_update (hp ▸ hrot)
    | rotated hrow hcurrent hwait =>
      apply h.rotate hinj hrow _ hcurrent hwait
      rw [hp]
      trivial
    | @revoked now session r p' hrow hopen hrot hwait =>
      apply h.mono
      · rintro r' hr'
        cases hr'
        exact ⟨r, hrow, rfl⟩
      · exact of_update fun hw => absurd hw hwait
      · exact of_update fun hr => absurd hr hrot

omit [DecidableEq ι] in
theorem HashesFit.start {row : UserSession} (hidle : ∀ i, s.phase i = .idle) (hrow : s.mem.row = some row)
    (hfresh : ∀ i, (args i).nextHash ≠ row.refreshHash) : HashesFit args s := by
  have hnone : ∀ i, ¬ (s.phase i).Rotated := by
    intro i
    rw [hidle i]
    exact id
  refine ⟨?_, fun i hi => absurd hi (hnone i), fun i j hi => absurd hi (hnone i)⟩
  intro r hr k hk
  obtain rfl := some.inj (hrow.symm.trans hr)
  exact absurd hk (hfresh k)

omit [DecidableEq ι] in
theorem RotationsFit.start {row : UserSession} (hidle : ∀ i, s.phase i = .idle) (hrow : s.mem.row = some row)
    (hcached : ∀ c, s.mem.cached = some c → c.entry.version ≤ row.version) : RotationsFit args row.version s := by
  refine ⟨⟨?_, hcached⟩, fun i => by rw [hidle i]; trivial⟩
  intro r hr
  obtain rfl := some.inj (hrow.symm.trans hr)
  rfl

variable {es : List (SharedEvent ι SessionEnv ℕ)} {n : ℕ} {e : SessionEnv} {a : RotateArgs} {now deadline : ℤ}
  {row : UserSession}
  {ms : List (Shared ι SessionPhase SessionMem × SharedEvent ι SessionEnv ℕ × Shared ι SessionPhase SessionMem)}

theorem HashesFit.run (hinj : Function.Injective fun i => (args i).nextHash)
    (hrun : Run (rotations cacheSeconds args).step s es s') (hfits : RotationsFit args v s) (h : HashesFit args s) :
    RotationsFit args v s' ∧ HashesFit args s' := by
  apply hrun.inv _ ⟨hfits, h⟩
  rintro s ev _ ⟨hfits, h⟩ rfl
  exact ⟨hfits.next, h.next hinj hfits⟩

/-! ### A success -/

theorem rotated_of_change (hfits : RotationsFit args v s) (hbefore : ¬ (s.phase i).Rotated)
    (hafter : (((rotations cacheSeconds args).next s ev).phase i).Rotated) :
    ∃ r now, s.mem.row = some r ∧ r.refreshHash = (args i).presentedHash ∧
      ((rotations cacheSeconds args).next s ev).mem.row =
        some (r.rotate (args i).presentedHash (args i).nextHash now (args i).graceSeconds) := by
  rcases rotations_cases cacheSeconds hfits ev with ⟨-, hphase⟩ | ⟨j, e, p', m', -, hstep, heq⟩
  · rw [hphase] at hafter
    exact absurd hafter hbefore
  rw [heq] at hafter ⊢
  by_cases hij : i = j
  · subst hij
    simp only [update_self] at hafter
    generalize hp : s.phase i = p at hstep
    cases hstep with
    | quiet _ hrot => exact absurd (hp ▸ hrot hafter) hbefore
    | rotated hrow hcurrent => exact ⟨_, _, hrow, hcurrent, rfl⟩
    | revoked _ _ hrot => exact absurd hafter hrot
  · simp only [update_of_ne hij] at hafter
    exact absurd hafter hbefore

/-! ### The previous hash, too late -/

/-- The phases from which a call revokes the session for the use of an old hash, with the statements to go. -/
inductive Reusing (now : ℤ) : SessionPhase → ℕ → Prop
  | publish {entry : SessionEntry} {deadline session} : entry.status = .revoking →
      Reusing now (.publish entry deadline (.reuseFence now session)) 3
  | script {entry : SessionEntry} {deadline x session} : entry.status = .revoking →
      Reusing now (.script entry deadline x (.reuseFence now session)) 2
  | update {session : UserSession} : Reusing now (.reuseUpdate now session) 1

theorem Reusing.pos {now : ℤ} {p : SessionPhase} (h : Reusing now p n) : 0 < n := by cases h <;> decide

/-- The session is revoked, or the call `i` does it within `n` statements. -/
def Doomed (a : RotateArgs) (now : ℤ) (i : ι) (n : ℕ) (s : Shared ι SessionPhase SessionMem) : Prop :=
  ∃ r, s.mem.row = some r ∧ (r.status = .revoked ∨
    r.userID = a.userID ∧ ¬ r.Inactive now ∧ ∃ k ≤ n, Reusing now (s.phase i) k)

theorem Versions.writeEntry_ne_none (h : Versions v m) (hv : 0 ≤ v) (x : ℤ)
    (hentry : entry.version = v) (hstatus : entry.status = .revoking) : m.writeEntry entry x ≠ none := by
  have hlive : (m.live.map (·.version)).getD 0 ≤ v := by
    cases hl : m.live with
    | none => exact hv
    | some =>
      obtain ⟨c, hc, rfl, -⟩ := live_some hl
      exact h.cached c hc
  unfold writeEntry
  simp [hstatus, hentry, not_lt.2 hlive]

theorem Reusing.stmt {p p' : SessionPhase} {now ttl : ℤ}
    {r : UserSession} (hm : Versions v m) (hv : 0 ≤ v) (hfits : RotateFits a v p) (h : Reusing now p n)
    (hrow : m.row = some r) (huser : r.userID = a.userID) (hopen : ¬ r.Inactive now) (hok : e.fails = false)
    (hst : (SessionOp.rotate a).stmt ttl e p m = some (p', m')) :
    (m'.row = some r ∧ Reusing now p' (n - 1)) ∨ m'.row = some (r.revoke now "refresh_reuse") := by
  cases h with
  | @publish entry deadline session hstatus =>
    obtain ⟨rfl, ⟨err, hexp, -⟩ | ⟨x, -, rfl⟩⟩ := publish_cases hst
    · unfold redisExpiration at hexp
      simp only [hstatus, reduceCtorEq, if_false] at hexp
    · exact .inl ⟨hrow, .script hstatus⟩
  | @script entry deadline x session hstatus =>
    rcases script_cases hst with ⟨-, hfails | hrefused, -⟩ | ⟨hwrite, rfl⟩
    · rw [hok] at hfails
      cases hfails
    · exact absurd hrefused (hm.writeEntry_ne_none hv x hfits.1 hstatus)
    · rw [if_neg (by rw [hstatus]; exact nofun)]
      exact .inl ⟨(writeEntry_some hwrite).1.trans hrow, .update⟩
  | update =>
    simp only [SessionOp.stmt, hok, Bool.false_eq_true, if_false, some.injEq, SessionMem.update, hrow, huser,
      hopen, not_false_eq_true, and_self, if_true, Prod.mk.injEq] at hst
    obtain ⟨-, rfl⟩ := hst
    exact .inr rfl

theorem Reusing.stmt_ne_none {p : SessionPhase} {now ttl : ℤ}
    (h : Reusing now p n) : (rotate a).stmt ttl e p m ≠ none := by
  intro hst
  cases h with
  | publish =>
    simp only [SessionOp.stmt] at hst
    split at hst <;> cases hst
  | script =>
    simp only [SessionOp.stmt] at hst
    split_ifs at hst <;> split at hst <;> cases hst
  | update =>
    simp only [SessionOp.stmt] at hst
    split_ifs at hst

theorem Doomed.next {now : ℤ} (hv : 0 ≤ v) (hfits : RotationsFit args v s) (h : Doomed (args i) now i n s)
    (hok : ∀ e, ev = .call i e → e.fails = false) :
    Doomed (args i) now i (n - (ev.isOf i).toNat) ((rotations cacheSeconds args).next s ev) := by
  obtain ⟨r, hrow, hrevoked | ⟨huser, hopen, k, hk, hreusing⟩⟩ := h
  · rcases rotations_cases cacheSeconds hfits ev with ⟨hsame, -⟩ | ⟨j, e, p', m', -, hstep, heq⟩
    · exact ⟨r, hsame.trans hrow, .inl hrevoked⟩
    obtain ⟨r', hrow', -, -, hstatus⟩ := hstep.keeps hrow
    rw [heq]
    refine ⟨r', hrow', .inl ?_⟩
    rcases hstatus with hstatus | ⟨hstatus, -⟩
    · exact hstatus
    · exact hstatus.trans hrevoked
  · -- an event of another call, or of the environment, leaves the phase alone
    have hothers : ev.isOf i = false → ((rotations cacheSeconds args).next s ev).phase i = s.phase i →
        Doomed (args i) now i (n - (ev.isOf i).toNat) ((rotations cacheSeconds args).next s ev) := by
      intro hev hphase
      rw [hev]
      rcases rotations_cases cacheSeconds hfits ev with ⟨hsame, -⟩ | ⟨j, e, p', m', -, hstep, heq⟩
      · exact ⟨r, hsame.trans hrow, .inr ⟨huser, hopen, k, hk, hphase ▸ hreusing⟩⟩
      obtain ⟨r', hrow', huser', hexpires, hstatus⟩ := hstep.keeps hrow
      rw [heq] at hphase ⊢
      refine ⟨r', hrow', ?_⟩
      rcases hstatus with hstatus | ⟨hstatus, hat⟩
      · exact .inl hstatus
      refine .inr ⟨huser'.trans huser, ?_, k, hk, ?_⟩
      · unfold UserSession.Inactive
        rw [hstatus, hat, hexpires]
        exact hopen
      · rw [hphase]
        exact hreusing
    cases ev with
    | env => exact hothers rfl rfl
    | call j e =>
      by_cases hj : j = i
      · subst hj
        cases hst : (rotations cacheSeconds args).stmt j e (s.phase j) s.mem with
        | none => exact absurd hst hreusing.stmt_ne_none
        | some pm =>
          obtain ⟨p', m'⟩ := pm
          rw [Program.next_some hst]
          rcases hreusing.stmt hfits.mem hv (hfits.phase j) hrow huser hopen (hok e rfl) hst with
            ⟨hrow', hnext⟩ | hrow'
          · refine ⟨r, hrow', .inr ⟨huser, hopen, k - 1, ?_, ?_⟩⟩
            · simp only [isOf, decide_true, Bool.toNat_true]
              omega
            · simpa only [update_self] using hnext
          · exact ⟨_, hrow', .inl rfl⟩
      · have hof : (call j e : SharedEvent ι SessionEnv ℕ).isOf i = false := decide_eq_false hj
        apply hothers hof
        cases hst : (rotations cacheSeconds args).stmt j e (s.phase j) s.mem with
        | none => rw [Program.next_none hst]
        | some =>
          rw [Program.next_some hst]
          simp [update_of_ne (Ne.symm hj)]

theorem Doomed.run {now : ℤ} (hv : 0 ≤ v)
    (hrun : Run (rotations cacheSeconds args).step s es s') (hfits : RotationsFit args v s)
    (h : Doomed (args i) now i n s) (hok : ∀ e, .call i e ∈ es → e.fails = false) :
    Doomed (args i) now i (n - es.countP (isOf i)) s' := by
  have hwithin := hrun.within_of (P := fun ev => ∀ e, ev = .call i e → e.fails = false)
    fun ev hev e heq => hok e (heq ▸ hev)
  have hboth := hwithin.countdown (D := fun n s => RotationsFit args v s ∧ Doomed (args i) now i n s)
    (p := isOf i) ?_ ⟨hfits, h⟩
  · exact hboth.2
  · rintro s ev _ n ⟨hfits, h⟩ ⟨rfl, hev⟩
    exact ⟨hfits.next, h.next hv hfits hev⟩

/-! ### A hash that the row does not know -/

def UserSession.Knows (hash : String) (r : UserSession) : Prop :=
  r.refreshHash = hash ∨ trimSpace r.previousRefreshHash = hash

def SessionPhase.Blank : SessionPhase → Prop
  | .idle | .round _ _ | .rotateRead _ _ _ | .done _ => True
  | _ => False

theorem RotateArgs.answer_blank
    (hcurrent : session.refreshHash ≠ a.presentedHash) (hprevious : session.previousRefreshHash ≠ a.presentedHash) :
    (a.answer n now deadline session).Blank := by
  unfold answer
  split_ifs with hinactive hunknown
  · trivial
  · trivial
  · trivial
  · exact absurd (.inr hprevious) hunknown

theorem blank_step {p p' : SessionPhase} {ttl : ℤ}
    (h : p.Blank) (hunknown : ∀ r, m.row = some r → ¬ r.Knows a.presentedHash)
    (hst : (rotate a).stmt ttl e p m = some (p', m')) : p'.Blank ∧ m' = m := by
  cases p with
  | idle =>
    cases hst
    refine ⟨?_, rfl⟩
    simp only [start]
    split_ifs <;> trivial
  | round =>
    cases hst
    exact ⟨trivial, rfl⟩
  | rotateRead n now deadline =>
    simp only [stmt] at hst
    split_ifs at hst
    · cases hst
      exact ⟨trivial, rfl⟩
    split at hst <;> cases hst
    · exact ⟨trivial, rfl⟩
    rename_i session hfind
    obtain ⟨r, hrow, -, rfl⟩ := find_some hfind
    obtain ⟨hcurrent, hprevious, -⟩ := r.afterFind_hashes
    have hnot := hunknown r hrow
    refine ⟨RotateArgs.answer_blank ?_ ?_, rfl⟩
    · exact fun heq => hnot (.inl (hcurrent.symm.trans heq))
    · exact fun heq => hnot (.inr (hprevious.symm.trans heq))
  | done => cases hst
  | _ => exact h.elim

theorem SessionPhase.Blank.next (h : (s.phase i).Blank)
    (hunknown : ev.isOf i = true → ∀ r, s.mem.row = some r → ¬ r.Knows (args i).presentedHash) :
    (((rotations cacheSeconds args).next s ev).phase i).Blank ∧
      (ev.isOf i = true → ((rotations cacheSeconds args).next s ev).mem = s.mem) := by
  rcases (rotations cacheSeconds args).next_cases s ev with heq | ⟨j, e, p', m', rfl, hst, heq⟩ | ⟨δ, rfl, heq⟩
  · rw [heq]
    exact ⟨h, fun _ => rfl⟩
  · rw [heq]
    by_cases hj : j = i
    · subst hj
      obtain ⟨hblank, rfl⟩ := blank_step h (hunknown (decide_eq_true rfl)) hst
      refine ⟨?_, fun _ => rfl⟩
      simpa only [update_self] using hblank
    · refine ⟨?_, fun hof => absurd (of_decide_eq_true hof) hj⟩
      simpa only [update_of_ne (Ne.symm hj)] using h
  · rw [heq]
    exact ⟨h, fun hof => nomatch hof⟩

structure PresentsPrevious (a : RotateArgs) (now : ℤ) (r : UserSession) : Prop where
  user : r.userID = a.userID
  isOpen : ¬ r.Inactive now
  replaced : r.refreshHash ≠ a.presentedHash
  previous : trimSpace r.previousRefreshHash = a.presentedHash

theorem PresentsPrevious.answer {r : UserSession} (h : PresentsPrevious a now r) (hne : a.presentedHash ≠ "") :
    a.answer n now deadline r.afterFind =
      if now ≤ r.previousValidUntil then .done (.raced r.afterFind)
      else .publish (r.afterFind.denyEntry .revoking now "refresh_reuse") none (.reuseFence now r.afterFind) := by
  obtain ⟨hcurrent, hprevious, huntil⟩ := r.afterFind_hashes
  have hopen : ¬ r.afterFind.Inactive now := mt (r.afterFind_inactive now).1 h.isOpen
  have hreplaced : r.afterFind.refreshHash ≠ a.presentedHash := by
    rw [hcurrent]
    exact h.replaced
  have hprevious : r.afterFind.previousRefreshHash = a.presentedHash := hprevious.trans h.previous
  unfold RotateArgs.answer
  rw [if_neg hopen, if_neg hreplaced, hprevious, if_neg (by simp [hne]), huntil]

theorem PresentsPrevious.next {r : UserSession}
    (hphase : s.phase i = .rotateRead n now deadline) (hok : e.fails = false)
    (hrow : s.mem.row = some r) (h : PresentsPrevious (args i) now r) :
    (rotations cacheSeconds args).next s (.call i e) =
      ⟨s.mem, update s.phase i ((args i).answer n now deadline r.afterFind)⟩ := by
  apply Program.next_some
  rw [hphase]
  have hfind : s.mem.find (args i).userID = some r.afterFind := by simp [find, hrow, h.user]
  simp [sessionProgram, stmt, hok, hfind]

theorem exchanged_of_session {x : UserSession} (hidle : ∀ i, s.phase i = .idle) (hfits : RotationsFit args v s)
    (hrun : Run (moves (rotations cacheSeconds args).step) s ms s') (hi : s'.phase i = .done (.session x)) :
    ∃ mv ∈ ms, ∃ r now, mv.1.mem.row = some r ∧ r.refreshHash = (args i).presentedHash ∧ mv.2.2.mem.row =
      some (r.rotate (args i).presentedHash (args i).nextHash now (args i).graceSeconds) := by
  have hkept : ∀ (s : Shared ι SessionPhase SessionMem) (ev : SharedEvent ι SessionEnv ℕ) (s' : _),
      RotationsFit args v s → (rotations cacheSeconds args).step s ev s' → RotationsFit args v s' := by
    rintro s ev _ hs rfl
    exact hs.next
  have hbefore : ¬ (s.phase i).Rotated := by
    rw [hidle i]
    exact id
  have hafter : (s'.phase i).Rotated := by
    rw [hi]
    trivial
  obtain ⟨mv, hmv, hfits', hstep, hnot, hrot⟩ := hrun.exists_change
    (P := fun s => (s.phase i).Rotated) hkept hfits hbefore hafter
  have hnext : mv.2.2 = (rotations cacheSeconds args).next mv.1 mv.2.1 := hstep
  rw [hnext] at hrot
  obtain ⟨r, now, hr, hcurrent, hrow⟩ := rotated_of_change hfits' hnot hrot
  exact ⟨mv, hmv, r, now, hr, hcurrent, hnext ▸ hrow⟩

theorem PresentsPrevious.revokes {r : UserSession} (h : PresentsPrevious (args i) now r) (hv : 0 ≤ v)
    (hfits : RotationsFit args v s) (hphase : s.phase i = .rotateRead n now deadline) (hok : e.fails = false)
    (hrow : s.mem.row = some r) (hne : (args i).presentedHash ≠ "") (hlate : r.previousValidUntil < now)
    (hrun : Run (rotations cacheSeconds args).step ((rotations cacheSeconds args).next s (.call i e)) es s')
    (hoks : ∀ e, .call i e ∈ es → e.fails = false) (hthree : 3 ≤ es.countP (isOf i)) :
    ∃ r', s'.mem.row = some r' ∧ r'.status = .revoked := by
  have hdoomed : Doomed (args i) now i 3 ((rotations cacheSeconds args).next s (.call i e)) := by
    rw [next hphase hok hrow h, h.answer hne, if_neg (not_le.2 hlate)]
    refine ⟨r, hrow, .inr ⟨h.user, h.isOpen, 3, le_rfl, ?_⟩⟩
    simp only [update_self]
    exact .publish rfl
  obtain ⟨r', hr', hrevoked | ⟨-, -, k, hk, hreusing⟩⟩ := hdoomed.run hv hrun hfits.next hoks
  · exact ⟨r', hr', hrevoked⟩
  · have hpos := hreusing.pos
    omega

theorem unknown_keeps (hidle : ∀ i, s.phase i = .idle) (hrun : Run (moves (rotations cacheSeconds args).step) s ms s')
    (hunknown : ∀ mv ∈ ms, mv.2.1.isOf i = true → ∀ r, mv.1.mem.row = some r → ¬ r.Knows (args i).presentedHash) :
    ∀ mv ∈ ms, mv.2.1.isOf i = true → mv.2.2.mem = mv.1.mem := by
  have hwithin := hrun.within_of hunknown
  apply hwithin.each (I := fun s => (s.phase i).Blank) (P := fun mv => mv.2.1.isOf i = true → mv.2.2.mem = mv.1.mem)
  · rintro a mv b hblank ⟨hmove, hmv⟩
    obtain ⟨ev, rfl, rfl⟩ := Program.eq_of_moves hmove
    exact hblank.next hmv
  · rw [hidle i]
    trivial

/-- **A refresh token is accepted at most once.** -/
theorem refresh_token_once (hidle : ∀ i, s.phase i = .idle) (hrow : s.mem.row = some row)
    (hversion : 0 < row.version)
    (hcached : ∀ c, s.mem.cached = some c → c.entry.version ≤ row.version)
    (hfresh : ∀ i, (args i).nextHash ≠ row.refreshHash) (hinj : Function.Injective fun i => (args i).nextHash)
    (hrun : Run (moves (rotations cacheSeconds args).step) s ms s') :
    (∀ i j x y, s'.phase i = .done (.session x) → s'.phase j = .done (.session y) →
      (args i).presentedHash = (args j).presentedHash → i = j) ∧
    (∀ i x, s'.phase i = .done (.session x) → ∃ mv ∈ ms, ∃ r now, mv.1.mem.row = some r ∧
      r.refreshHash = (args i).presentedHash ∧ mv.2.2.mem.row =
        some (r.rotate (args i).presentedHash (args i).nextHash now (args i).graceSeconds)) ∧
    (∀ i e n now deadline r, s'.phase i = .rotateRead n now deadline → e.fails = false → s'.mem.row = some r →
      PresentsPrevious (args i) now r →
      let read := (rotations cacheSeconds args).next s' (.call i e)
      (now ≤ r.previousValidUntil → read.phase i = .done (.raced r.afterFind) ∧ read.mem = s'.mem) ∧
      (r.previousValidUntil < now → ∀ es t, Run (rotations cacheSeconds args).step read es t →
        (∀ e, .call i e ∈ es → e.fails = false) → 3 ≤ es.countP (isOf i) →
        ∃ r', t.mem.row = some r' ∧ r'.status = .revoked)) ∧
    (∀ i, (∀ mv ∈ ms, mv.2.1.isOf i = true → ∀ r, mv.1.mem.row = some r → ¬ r.Knows (args i).presentedHash) →
      ∀ mv ∈ ms, mv.2.1.isOf i = true → mv.2.2.mem = mv.1.mem) := by
  have hstart : RotationsFit args row.version s := RotationsFit.start hidle hrow hcached
  obtain ⟨hfits, hhashes⟩ := HashesFit.run hinj hrun.of_moves hstart (HashesFit.start hidle hrow hfresh)
  refine ⟨?_, fun i x hi => exchanged_of_session hidle hstart hrun hi, ?_, fun i => unknown_keeps hidle hrun⟩
  · intro i j x y hi hj heq
    refine hhashes.once i j ?_ ?_ heq
    · rw [hi]
      trivial
    · rw [hj]
      trivial
  intro i e n now deadline r hphase hok hr hprevious read
  have hne : (args i).presentedHash ≠ "" := by
    have hfit := hfits.phase i
    rw [hphase] at hfit
    exact hfit
  refine ⟨?_, fun hlate es t hrest => hprevious.revokes hversion.le hfits hphase hok hr hne hlate hrest⟩
  intro hin
  have hread : read = _ := PresentsPrevious.next hphase hok hr hprevious
  rw [hread, hprevious.answer hne, if_pos hin]
  exact ⟨update_self .., rfl⟩

end Rotations

def sampleSession : UserSession := ⟨7, 1, 1, .active, "a", "", 0, 0, 100, 0, ""⟩

def sampleRotateStart : Shared (Fin 3) SessionPhase SessionMem := ⟨⟨some sampleSession, none, 10000⟩, fun _ => .idle⟩

def sampleRotations : Fin 3 → RotateArgs
  | 0 => ⟨7, "a", "b", 10, 5000000000⟩
  | 1 => ⟨7, "a", "c", 10, 5000000000⟩
  | 2 => ⟨7, "a", "d", 16, 5000000000⟩

def sampleStatements (is : List (Fin 3)) : List (SharedEvent (Fin 3) SessionEnv ℕ) := is.map (.call · ⟨false, false⟩)

theorem refresh_token_once_three_calls :
    let next := (rotations 60 sampleRotations).next
    let s' := (sampleStatements [0, 0, 0, 1, 1, 1, 0, 0, 0, 0, 1, 1, 1, 2, 2]).foldl next sampleRotateStart
    (∀ x, s'.phase 1 ≠ .done (.session x)) ∧
      ∃ r, ((List.replicate 4 (.call 2 ⟨false, false⟩)).foldl next s').mem.row = some r ∧ r.status = .revoked := by
  intro next s'
  have hrun : Run (moves (rotations 60 sampleRotations).step) sampleRotateStart _ s' :=
    Run.trail next sampleRotateStart _
  have hcached : ∀ c, sampleRotateStart.mem.cached = some c → c.entry.version ≤ sampleSession.version := by
    simp [sampleRotateStart]
  obtain ⟨honce, -, hprevious, -⟩ := refresh_token_once (fun _ => rfl) rfl (by decide) hcached (by decide)
    (by decide) hrun
  have hfirst : s'.phase 0 = .done (.session (sampleSession.rotate "a" "b" 10 5)) := by decide +kernel
  refine ⟨?_, ?_⟩
  · intro x hx
    exact absurd (honce 0 1 _ x hfirst hx (by decide)) (by decide)
  have hphase : s'.phase 2 = .rotateRead 1 16 70000 := by decide +kernel
  have hrow : s'.mem.row = some (sampleSession.rotate "a" "b" 10 5) := by decide +kernel
  have hpresents : PresentsPrevious (sampleRotations 2) 16 (sampleSession.rotate "a" "b" 10 5) :=
    ⟨by decide, by decide, by decide, by decide +kernel⟩
  obtain ⟨-, hlate⟩ := hprevious 2 ⟨false, false⟩ 1 16 70000 _ hphase rfl hrow hpresents
  rw [List.replicate_succ, List.foldl_cons]
  refine hlate (by decide) _ _ (Run.of_foldl next _ _) ?_ (by decide)
  intro e he
  cases List.eq_of_mem_replicate he
  rfl

end NewApi

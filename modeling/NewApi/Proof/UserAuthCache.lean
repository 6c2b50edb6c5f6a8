import NewApi.Spec.UserAuthCache

/-!
# Cached authorization never goes back

The committed version in Redis is only ever raised, and only to a version that the row has had (`AuthFits`). A reader
of the cache compares the hash with the floor after it has read the hash, and the row is at least as new as the floor.
So once the floor has reached `n`, no call that starts later answers with less (`authorization_never_goes_back`).
-/

namespace NewApi

open Trace AuthMem Option AuthKeys

variable {r r' : AuthKeys} {m m' : AuthMem} {p p' : AuthPhase} {userId : ℕ} {n : ℤ} {includeQuota fails : Bool}

theorem AuthKeys.accept_version {incoming : ℤ} (h : r.accept incoming = some r') :
    r'.version = max r.version incoming := by
  unfold accept at h
  simp only at h
  split at h
  · cases h
  cases h
  simp only
  split
  · omega
  · omega

theorem AuthKeys.write_version {user : UserBase} {includeQuota : Bool} (h : r.write user includeQuota = some r') :
    r'.version = max r.version user.authVersion := by
  obtain ⟨r1, hacc, rfl⟩ := map_eq_some_iff.1 h
  rw [← accept_version hacc]
  split <;> rfl

theorem AuthKeys.updateField_version {field : HashField} {value : String} {incoming : ℤ}
    (h : r.updateField field value incoming = some r') : r'.version = max r.version incoming := by
  obtain ⟨r1, hacc, rfl⟩ := map_eq_some_iff.1 h
  rw [← accept_version hacc]

theorem AuthKeys.publish_version (incoming : ℤ) (r : AuthKeys) :
    (r.publish incoming).version = max r.version incoming := by
  simp only [publish]
  split <;> omega

theorem AuthKeys.version_le_floor (r : AuthKeys) : r.version ≤ r.floor := (le_max_right _ _).trans (le_max_right _ _)

/-- The committed version is raised to `v`, and the row stays. -/
structure Publishes (v : ℤ) (m m' : AuthMem) : Prop where
  row : m'.row = m.row
  version : m'.redis.version = max m.redis.version v

theorem AuthMem.writeUserCache_ok {user : UserBase}
    (h : m.writeUserCache user includeQuota fails = .ok m') : Publishes user.authVersion m m' := by
  unfold writeUserCache at h
  split_ifs at h
  split at h
  · cases h
  rename_i redis hwrite
  cases h
  exact ⟨rfl, write_version hwrite⟩

section Statements

variable {ι : Type} {ops : ι → AuthOp} {i : ι} {e : AuthEnv} {row : UserRow}

/-- The version of `ToBaseUser` -/
def UserRow.baseVersion (row : UserRow) : ℤ := if row.authVersion ≤ 0 then 1 else row.authVersion

theorem UserRow.le_baseVersion (row : UserRow) : row.authVersion ≤ row.baseVersion := by
  unfold baseVersion
  split <;> omega

/-- What a statement can do -/
inductive AuthStep (userId : ℕ) (m : AuthMem) : AuthPhase → AuthPhase → AuthMem → Prop
  | failed {p : AuthPhase} {err} : AuthStep userId m p (.done (.error err)) m
  | snapshot {p : AuthPhase} : AuthStep userId m p (.snapshot m.row) m
  | versionRead {p : AuthPhase} {k version} : AuthStep userId m p (.versionRead k version) m
  | fenced {k version} : AuthStep userId m (.versionRead k version) (.fenced k version)
      { m with redis := m.redis.setFence (max version 1 + 1) }
  | raised {k version deleted} (hcurrent : m.row.authVersion = version) :
      AuthStep userId m (.fenced k version) (.committed (max version 1 + 1))
        { m with row := { m.row with authVersion := max version 1 + 1 }, deleted }
  | filled {row : UserRow} {m'} (h : Publishes row.baseVersion m m') :
      AuthStep userId m (.snapshot row) (.done (.ok none)) m'
  | published {next m'} (h : Publishes next m m') :
      AuthStep userId m (.committed next) (.done (.ok none)) m'
  | hashRead {p : AuthPhase} {user} : AuthStep userId m p (.hashRead user) m
  | missed {p : AuthPhase} : AuthStep userId m p .missed m
  | answered {user} (hfloor : m.redis.floor ≤ user.authVersion) :
      AuthStep userId m (.hashRead user) (.done (.ok (some user))) m
  | rowRead {p : AuthPhase} : AuthStep userId m p (.rowRead m.row) m
  | admitted {row : UserRow} : AuthStep userId m (.rowRead row) (.admitted row) m
  | returned {row : UserRow} {m'} (h : m' = m ∨ Publishes row.baseVersion m m') :
      AuthStep userId m (.admitted row) (.done (.ok (some (row.toBaseUser userId)))) m'

theorem AuthStep.of_failed {err : AuthErr} (h : some (AuthPhase.done (.error err), m) = some (p', m')) :
    AuthStep userId m p p' m' := by
  cases h
  exact .failed

theorem authStep_cacheFailed {op : AuthOp} {err : AuthErr} : AuthStep userId m p (op.cacheFailed err) m := by
  unfold AuthOp.cacheFailed
  split
  · exact .missed
  · exact .failed

theorem authStep_readRow {next : UserRow → AuthPhase} {fails : Bool} (hnext : AuthStep userId m p (next m.row) m)
    (h : m.readRow fails next = (p', m')) : AuthStep userId m p p' m' := by
  unfold readRow at h
  split_ifs at h
  · cases h
    exact .failed
  · cases h
    exact .failed
  · cases h
    exact hnext

theorem authStep_fill (h : m.finish (m.writeUserCache (row.toBaseUser userId) includeQuota fails) = (p', m')) :
    AuthStep userId m (.snapshot row) p' m' := by
  cases hwrite : m.writeUserCache (row.toBaseUser userId) includeQuota fails with
  | error =>
    rw [hwrite] at h
    cases h
    exact .failed
  | ok =>
    rw [hwrite] at h
    cases h
    exact .filled (writeUserCache_ok hwrite)

theorem AuthMem.checkHash_ok {user user' : UserBase} {fails : Bool} (h : m.checkHash userId user fails = .ok user') :
    user' = user ∧ m.redis.floor ≤ user.authVersion := by
  unfold checkHash at h
  split_ifs at h with _ _ hfloor
  · exact ⟨(Except.ok.inj h).symm, not_lt.1 hfloor⟩

theorem authStep_updateField {field : HashField} {value : String} {redis : AuthKeys} (hpos : ¬ row.authVersion ≤ 0)
    (h : m.redis.updateField field value row.authVersion = some redis) :
    AuthStep userId m (.snapshot row) (.done (.ok none)) { m with redis } :=
  .filled ⟨rfl, by rw [UserRow.baseVersion, if_neg hpos]; exact updateField_version h⟩

theorem authStmt_idle (h : authStmt userId ops i e .idle m = some (p', m')) : AuthStep userId m .idle p' m' := by
  simp only [authStmt] at h
  split at h
  · exact authStep_readRow .snapshot (some.inj h)
  · exact authStep_readRow .snapshot (some.inj h)
  -- a bump, a deletion
  iterate 2
    split at h
    · exact .of_failed h
    · cases h
      exact .versionRead
  -- the readers
  all_goals
    split at h
    · cases h
      exact authStep_cacheFailed
    split at h
    · cases h
      exact authStep_cacheFailed
    · cases h
      exact .hashRead

theorem authStmt_snapshot (h : authStmt userId ops i e (.snapshot row) m = some (p', m')) :
    AuthStep userId m (.snapshot row) p' m' := by
  simp only [authStmt] at h
  split at h
  · split at h
    · exact .of_failed h
    split at h
    · exact .of_failed h
    split at h
    · exact .of_failed h
    rename_i redis hupdate
    cases h
    exact authStep_updateField ‹_› hupdate
  · exact authStep_fill (some.inj h)
  · exact authStep_fill (some.inj h)

theorem authStmt_step (h : authStmt userId ops i e p m = some (p', m')) : AuthStep userId m p p' m' := by
  unfold authStmt at h
  split at h
  · exact authStmt_idle h
  · exact authStmt_snapshot h
  · split at h
    · exact .of_failed h
    · cases h
      exact .fenced
  · split_ifs at h with _ hcurrent
    · exact .of_failed h
    · cases h
      exact .raised hcurrent
    · cases h
      exact .versionRead
    · exact .of_failed h
  · split at h
    · split at h
      · exact .of_failed h
      · cases h
        exact .published ⟨rfl, m.redis.publish_version _⟩
    · exact authStep_readRow .snapshot (some.inj h)
  · -- the hash was read
    split at h
    · cases h
      exact authStep_cacheFailed
    rename_i user' hcheck
    obtain ⟨rfl, hfloor⟩ := checkHash_ok hcheck
    cases h
    exact .answered hfloor
  · exact authStep_readRow .rowRead (some.inj h)
  · split at h
    · exact .of_failed h
    · cases h
      exact .admitted
  · split at h
    · exact .of_failed h
    · cases h
      exact .returned (.inl rfl)
    rename_i m1 hwrite
    cases h
    exact .returned (.inr (writeUserCache_ok hwrite))
  · cases h

/-- What a call has read is no newer than the row. -/
def AuthFits (m : AuthMem) : AuthPhase → Prop
  | .snapshot row => row.baseVersion ≤ m.row.baseVersion
  | .rowRead row => row.baseVersion ≤ m.row.baseVersion
  | .admitted row => row.baseVersion ≤ m.row.baseVersion
  | .committed next => next ≤ m.row.baseVersion
  | _ => True

/-- A reader of the cache is not below `n`. -/
def AtLeast (n : ℤ) : AuthPhase → Prop
  | .rowRead row => n ≤ row.baseVersion
  | .admitted row => n ≤ row.baseVersion
  | .done (.ok (some user)) => n ≤ user.authVersion
  | _ => True

theorem AuthFits.mono (hle : m.row.baseVersion ≤ m'.row.baseVersion) (h : AuthFits m p) : AuthFits m' p := by
  cases p with
  | snapshot | rowRead | admitted | committed => exact le_trans h hle
  | idle | versionRead | fenced | hashRead | missed | done => trivial

theorem AuthStep.row_le (h : AuthStep userId m p p' m') : m.row.baseVersion ≤ m'.row.baseVersion := by
  cases h with
  | raised =>
    simp only [UserRow.baseVersion]
    split <;> split <;> omega
  | filled hpub => rw [hpub.row]
  | published hpub => rw [hpub.row]
  | returned hpub =>
    rcases hpub with rfl | hpub
    · exact le_rfl
    · rw [hpub.row]
  | _ => exact le_rfl

theorem AuthStep.version_le (h : AuthStep userId m p p' m') : m.redis.version ≤ m'.redis.version := by
  cases h with
  | filled hpub | published hpub => rw [hpub.version]; exact le_max_left _ _
  | returned hpub =>
    rcases hpub with rfl | hpub
    · exact le_rfl
    · rw [hpub.version]
      exact le_max_left _ _
  | _ => exact le_rfl

theorem Publishes.floor_le {v : ℤ} (h : Publishes v m m') (hv : v ≤ m.row.baseVersion)
    (hle : m.redis.version ≤ m.row.baseVersion) : m'.redis.version ≤ m'.row.baseVersion := by
  rw [h.version, h.row]
  exact max_le hle hv

namespace AuthStep

variable (h : AuthStep userId m p p' m')
include h

theorem floor_le (hfit : AuthFits m p)
    (hle : m.redis.version ≤ m.row.baseVersion) : m'.redis.version ≤ m'.row.baseVersion := by
  have hrow := h.row_le
  cases h with
  | raised => exact hle.trans hrow
  | filled hpub | published hpub => exact hpub.floor_le hfit hle
  | returned hpub =>
    rcases hpub with rfl | hpub
    · exact hle
    · exact hpub.floor_le hfit hle
  | _ => exact hle

theorem own (hfit : AuthFits m p) : AuthFits m' p' := by
  cases h with
  | admitted => exact hfit
  | snapshot | rowRead => exact le_refl m.row.baseVersion
  | raised => exact UserRow.le_baseVersion _
  | _ => trivial

theorem atLeast (hle : m.redis.version ≤ m.row.baseVersion)
    (hn : n ≤ m.redis.version) (hp : AtLeast n p) : AtLeast n p' := by
  cases h with
  | rowRead => exact hn.trans hle
  | admitted => exact hp
  | answered hfloor => exact hn.trans (m.redis.version_le_floor.trans hfloor)
  | returned => exact hp
  | _ => trivial

end AuthStep

end Statements

section Runs

variable {ι : Type} [DecidableEq ι] {ops : ι → AuthOp} {s₀ s₁ s₂ : Shared ι AuthPhase AuthMem}
variable {es es' : List (SharedEvent ι AuthEnv AuthMove)}

theorem AuthMove.keeps (v : AuthMove) (m : AuthMem) :
    (v.apply m).row.baseVersion = m.row.baseVersion ∧ (v.apply m).redis.version = m.redis.version := by
  cases v <;> exact ⟨rfl, rfl⟩

def FloorFrom (n : ℤ) (m : AuthMem) : Prop := n ≤ m.redis.version ∧ m.redis.version ≤ m.row.baseVersion

def LaterFits (later : ι → Prop) (n : ℤ) (i : ι) (m : AuthMem) (p : AuthPhase) : Prop :=
  AuthFits m p ∧ (later i → AtLeast n p)

theorem later_run (later : ι → Prop) (hrun : Run (authProgram userId ops).step s₁ es s₂)
    (h : s₁.Holds (FloorFrom n) (LaterFits later n)) : s₂.Holds (FloorFrom n) (LaterFits later n) := by
  refine Shared.Holds.run ?_ ?_ hrun h
  · intro i e p m p' m' hG hF hst
    have hstep := authStmt_step hst
    refine ⟨⟨hG.1.trans hstep.version_le, hstep.floor_le hF.1 hG.2⟩, ⟨hstep.own hF.1, ?_⟩, ?_⟩
    · intro hi
      exact hstep.atLeast hG.2 hG.1 (hF.2 hi)
    · intro j q _ hq
      exact ⟨hq.1.mono hstep.row_le, hq.2⟩
  · intro v m hG
    obtain ⟨hrow, hversion⟩ := v.keeps m
    refine ⟨?_, ?_⟩
    · show n ≤ (v.apply m).redis.version ∧ (v.apply m).redis.version ≤ (v.apply m).row.baseVersion
      rw [hrow, hversion]
      exact hG
    · intro j q hq
      exact ⟨hq.1.mono hrow.ge, hq.2⟩

theorem floor_run (hrun : Run (authProgram userId ops).step s₁ es s₂) :
    s₁.mem.redis.version ≤ s₂.mem.redis.version := by
  refine Program.mem_of_run (R := fun m m' : AuthMem => m.redis.version ≤ m'.redis.version) ?_ ?_ ?_ ?_ hrun
  · exact fun _ => le_rfl
  · exact fun _ _ _ => le_trans
  · intro i e p m p' m' hst
    exact (authStmt_step hst).version_le
  · intro v m
    exact (v.keeps m).2.ge

/-- **Cached authorization never goes back.** -/
theorem authorization_never_goes_back (hidle : ∀ i, s₀.phase i = .idle)
    (hstart : s₀.mem.redis.version ≤ s₀.mem.row.authVersion)
    (hrun : Run (authProgram userId ops).step s₀ es s₁) (hrun' : Run (authProgram userId ops).step s₁ es' s₂) :
    s₁.mem.redis.version ≤ s₂.mem.redis.version ∧
    ∀ n, n ≤ s₁.mem.redis.version → ∀ i user, s₁.phase i = .idle → s₂.phase i = .done (.ok (some user)) →
      n ≤ user.authVersion := by
  refine ⟨floor_run hrun', ?_⟩
  intro n hn i user hi huser
  have h0 : s₀.Holds (FloorFrom s₀.mem.redis.version) (LaterFits (fun _ => False) s₀.mem.redis.version) := by
    refine ⟨⟨le_rfl, hstart.trans s₀.mem.row.le_baseVersion⟩, ?_⟩
    intro j
    rw [hidle j]
    exact ⟨trivial, fun h => h.elim⟩
  have h1 := later_run _ hrun h0
  -- from here on the calls that have not started are watched
  have hlater : s₁.Holds (FloorFrom n) (LaterFits (fun j => s₁.phase j = .idle) n) := by
    refine ⟨⟨hn, h1.mem.2⟩, ?_⟩
    intro j
    refine ⟨(h1.phase j).1, ?_⟩
    intro hj
    rw [hj]
    trivial
  have h2 := (later_run _ hrun' hlater).phase i
  rw [huser] at h2
  exact h2.2 hi

end Runs

def sampleAuthOps : Fin 3 → AuthOp
  | 0 => .fill true
  | 1 => .bump
  | 2 => .getUserCache

def sampleAuth : Shared (Fin 3) AuthPhase AuthMem where
  mem := ⟨⟨"default", "", 100, 0, 0, 1, 1, "ada", "", 1⟩, false, ⟨none, 0, 0⟩⟩
  phase _ := .idle

def sampleAuthEvents (is : List (Fin 3)) : List (SharedEvent (Fin 3) AuthEnv AuthMove) := is.map (.call · ⟨false⟩)

theorem authorization_never_goes_back_late_fill :
    let next := (authProgram 7 sampleAuthOps).next
    let s₁ := (sampleAuthEvents [0, 1, 1, 1, 1, 1]).foldl next sampleAuth
    let s₂ := (.env .dropFence :: sampleAuthEvents [0, 2, 2, 2, 2]).foldl next s₁
    s₁.mem.redis.version = 2 ∧ s₂.phase 0 = .done (.error .pending) ∧
      ∃ user, s₂.phase 2 = .done (.ok (some user)) ∧ 2 ≤ user.authVersion := by
  intro next s₁ s₂
  have hrun : Run (authProgram 7 sampleAuthOps).step sampleAuth _ s₁ := Run.of_foldl next _ _
  have hrun' : Run (authProgram 7 sampleAuthOps).step s₁ _ s₂ := Run.of_foldl next _ _
  have h := authorization_never_goes_back (fun _ => rfl) (by decide) hrun hrun'
  have hversion : s₁.mem.redis.version = 2 := by decide +kernel
  have hanswer : s₂.phase 2 = .done (.ok (some ⟨7, "default", "", 100, 0, 0, 1, 1, "ada", "", 2, 2⟩)) := by
    decide +kernel
  exact ⟨hversion, by decide +kernel, _, hanswer, h.2 2 hversion.ge 2 _ (by decide +kernel) hanswer⟩

end NewApi

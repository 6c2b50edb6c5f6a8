import NewApi.Trace.Shared

/-!
# Two-factor authentication

`model/twofa.go`, for one enabled factor: a backup code is marked as used, and a failure is counted, by a
compare-and-swap; five failures lock the factor. Every statement and every reading of the clock, in nanoseconds, is a
step of `twoFAProgram`.
-/

namespace NewApi

open Trace

variable {H ι : Type}

structure TwoFABackupCode (H : Type) where
  id : ℕ
  codeHash : H
  isUsed : Bool

structure TwoFAMem (H : Type) where
  failedAttempts : ℕ
  lockedUntil : Option ℤ
  codes : List (TwoFABackupCode H)
  clock : ℤ

/-- `common.ValidateBackupCode`, and `ValidatePasswordAndHash` of the normalized code -/
structure BackupLib (H : Type) where
  valid : String → Bool
  verify : String → H → Bool

/-- The `LockedUntil` of the copy, and the backup code unless a code of the authenticator is checked -/
structure TwoFACall where
  lockedUntil : Option ℤ
  backup : Option String

structure TwoFAEnv where
  (totpValid dbErr : Bool)

inductive TwoFAPhase (H : Type)
  | idle | checking | unused (code : String) (codes : List (TwoFABackupCode H)) | valid (used : Option ℕ)
  | failing (retries : ℕ) | current (retries failedAttempts : ℕ) (lockedUntil : Option ℤ)
  | update (retries failedAttempts : ℕ) (lockedUntil : Option ℤ) (now : ℤ)
  | passed (used : Option ℕ) | rejected (counted : Bool)

def IsLocked (now : ℤ) (lockedUntil : Option ℤ) : Bool := lockedUntil.any (now < ·)

def TwoFAMem.isUnused (m : TwoFAMem H) (id : ℕ) : Bool := m.codes.any fun row => row.id = id ∧ ¬ row.isUsed

def TwoFAMem.use (m : TwoFAMem H) (id : ℕ) : TwoFAMem H :=
  { m with codes := m.codes.map fun row => if row.id = id then { row with isUsed := true } else row }

def twoFAStmt (lib : BackupLib H) (call : TwoFACall) (e : TwoFAEnv) (p : TwoFAPhase H) (m : TwoFAMem H) :
    Option (TwoFAPhase H × TwoFAMem H) :=
  match p with
  | .idle => some (if IsLocked m.clock call.lockedUntil then .rejected false else .checking, m)
  | .checking =>
    match call.backup with
    | none => some (if e.totpValid then .valid none else .failing 5, m)
    | some code =>
      if lib.valid code = false ∨ e.dbErr then some (.rejected false, m)
      else some (.unused code (m.codes.filter (!·.isUsed)), m)
  | .unused code codes =>
    match codes.find? fun row => lib.verify code row.codeHash with
    | none => some (.failing 5, m)
    | some row =>
      if e.dbErr then some (.rejected false, m)
      else if m.isUnused row.id then some (.valid (some row.id), m.use row.id)
      else some (.failing 5, m)
  -- `updateUsageState`, whose error is only logged
  | .valid used => some (.passed used, if e.dbErr then m else { m with failedAttempts := 0, lockedUntil := none })
  -- `IncrementFailedAttempts`, whose errors are only logged
  | .failing 0 => some (.rejected false, m)
  | .failing (retries + 1) =>
    some (if e.dbErr then .rejected false else .current retries m.failedAttempts m.lockedUntil, m)
  | .current retries n lockedUntil =>
    if IsLocked m.clock lockedUntil then some (.rejected false, m)
    else some (.update retries n lockedUntil m.clock, m)
  | .update retries n lockedUntil now =>
    if e.dbErr then some (.rejected false, m)
    else if m.failedAttempts = n ∧ ¬ IsLocked now m.lockedUntil then
      let lockedUntil := if n + 1 ≥ 5 then some (now + 300 * 10 ^ 9) else lockedUntil
      some (.rejected true, { m with failedAttempts := n + 1, lockedUntil })
    else some (.failing retries, m)
  | .passed _ | .rejected _ => none

/-- The environment lets time pass. -/
def twoFAProgram (lib : BackupLib H) (calls : ι → TwoFACall) : Program ι (TwoFAPhase H) (TwoFAMem H) TwoFAEnv ℕ where
  stmt i := twoFAStmt lib (calls i)
  env time m := { m with clock := m.clock + time }

end NewApi

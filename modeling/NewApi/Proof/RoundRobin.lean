import NewApi.Proof.MultiKey
import Mathlib.Data.List.Rotate

/-!
# A round of polling

The scan of a call starts at the saved index and wraps around, so the enabled places come in the order of `pollOrder`,
a rotation of them. A call takes the first and saves the index after it, and this is the rotation by one: the place
that was handed out is now the last of the round (`pollOrder_next`).

A copy of the row is asked with the index of the cached channel and leaves it as it is, so it hands out one place again
and again (`PollingChannel.copies`).
-/

namespace NewApi

open List

section
variable {statusList : ℕ → Option ℤ} {size start idx : ℕ} {rest : List ℕ}

def pollOrder (statusList : ℕ → Option ℤ) (size start : ℕ) : List ℕ :=
  ((List.range size).rotate start).filter fun idx => keyStatus statusList idx = channelStatusEnabled

theorem scan_eq_rotate (size start : ℕ) :
    ((range size).map fun i => (start + i) % size) = (range size).rotate start := by
  refine ext_getElem (by simp) fun i hi _ => ?_
  rw [getElem_rotate]
  simp [Nat.add_comm]

theorem pollFrom_eq_head : pollFrom statusList size start = (pollOrder statusList size start).head? := by
  unfold pollFrom pollOrder
  rw [scan_eq_rotate, head?_filter]

theorem pollOrder_isRotated (keys : List String) :
    pollOrder statusList keys.length start ~r enabledIdx keys statusList := by
  have hsplit : (range keys.length).rotate start =
      (range keys.length).drop (start % keys.length) ++ (range keys.length).take (start % keys.length) := by
    rw [rotate_eq_drop_append_take_mod, length_range]
  have henabled : enabledIdx keys statusList = (((range keys.length).take (start % keys.length)).filter fun i =>
          decide (keyStatus statusList i = channelStatusEnabled)) ++
        ((range keys.length).drop (start % keys.length)).filter fun i =>
          decide (keyStatus statusList i = channelStatusEnabled) := by
    rw [← filter_append, take_append_drop]
    rfl
  unfold pollOrder
  rw [hsplit, filter_append, henabled]
  exact isRotated_append

theorem pollOrder_next (h : pollOrder statusList size start = idx :: rest) :
    pollOrder statusList size ((idx + 1) % size) = rest ++ [idx] := by
  obtain ⟨skipped, later, hscan, hskipped, henabled, hrest⟩ := filter_eq_cons_iff.1 h
  have hidx : idx = (skipped.length + start) % size := by
    have hget : ((range size).rotate start)[skipped.length]? = some idx := by
      rw [hscan]
      simp
    obtain ⟨hlt, hget⟩ := List.getElem?_eq_some_iff.1 hget
    rw [getElem_rotate] at hget
    simpa using hget.symm
  have hnext : (range size).rotate ((idx + 1) % size) = later ++ (skipped ++ [idx]) := by
    have hmod : (idx + 1) % size = (start + (skipped ++ [idx]).length) % (range size).length := by
      rw [hidx, Nat.mod_add_mod, length_append, length_singleton, length_range]
      congr 1
      omega
    rw [hmod, rotate_mod, ← rotate_rotate, hscan,
      show skipped ++ idx :: later = (skipped ++ [idx]) ++ later by simp, rotate_append_length_eq]
  have hnone : skipped.filter (fun i => decide (keyStatus statusList i = channelStatusEnabled)) = [] :=
    filter_eq_nil_iff.2 hskipped
  unfold pollOrder
  rw [hnext, filter_append, filter_append, hrest, hnone, nil_append, filter_singleton, henabled]
  rfl

end

section
variable {decode : String → Option (List String)} {keys : List String} {statusList : ℕ → Option ℤ} {row : ChannelRow}

structure PollingChannel (decode : String → Option (List String)) (keys : List String)
    (statusList : ℕ → Option ℤ) (row : ChannelRow) : Prop where
  multi : row.channelInfo.isMultiKey = true
  mode : row.channelInfo.multiKeyMode = .polling
  keys : getKeys decode row = keys
  statuses : row.channelInfo.multiKeyStatusList = statusList

theorem PollingChannel.withPollingIndex (h : PollingChannel decode keys statusList row)
    (index : ℤ) : PollingChannel decode keys statusList (row.withPollingIndex index) :=
  ⟨h.multi, h.mode, h.keys, h.statuses⟩

def ChannelRow.round (row : ChannelRow) (keys : List String) : List ℕ :=
  pollOrder row.channelInfo.multiKeyStatusList keys.length
    (pollStart row.channelInfo.multiKeyPollingIndex keys.length)

theorem PollingChannel.round_isRotated (h : PollingChannel decode keys statusList row) :
    row.round keys ~r enabledIdx keys statusList := h.statuses ▸ pollOrder_isRotated keys

theorem pollStart_of_lt {size i : ℕ} (h : i < size) : pollStart i size = i := by
  unfold pollStart
  rw [if_neg (by omega), Int.toNat_natCast]

section

variable (h : PollingChannel decode keys statusList row)
include h

/-- The index of `polled` decides, and the one after the place is written to the channel itself. -/
theorem PollingChannel.choice (polled : ChannelInfo) (rand : ℕ) {idx : ℕ} {rest : List ℕ}
    (hround : pollOrder statusList keys.length (pollStart polled.multiKeyPollingIndex keys.length) = idx :: rest) :
    getNextEnabledKey decode (some polled) rand row =
      ⟨.ok (keys.getD idx "", idx), row.withPollingIndex ((idx + 1) % keys.length : ℕ), true⟩ := by
  have hmem : idx ∈ enabledIdx keys statusList := (pollOrder_isRotated keys).mem_iff.1 (hround ▸ mem_cons_self)
  have hlt : idx < keys.length := (mem_enabledIdx.1 hmem).1
  have hpoll : pollFrom statusList keys.length (pollStart polled.multiKeyPollingIndex keys.length) = some idx := by
    rw [pollFrom_eq_head, hround, head?_cons]
  obtain ⟨first, others, henabled⟩ := exists_cons_of_ne_nil (ne_nil_of_mem hmem)
  have hkeys : keys ≠ [] := ne_nil_of_length_pos (by omega)
  unfold getNextEnabledKey
  simp only [h.multi, h.mode, h.keys, h.statuses, henabled, hpoll, if_neg hkeys, Bool.not_true, Bool.false_eq_true,
    if_false]

theorem PollingChannel.call (rand : ℕ) {idx : ℕ} {rest : List ℕ} (hround : row.round keys = idx :: rest) :
    (nextCachedKey decode rand row).result = .ok (keys.getD idx "", idx) ∧
    (nextCachedKey decode rand row).channel = row.withPollingIndex ((idx + 1) % keys.length : ℕ) ∧
    (row.withPollingIndex ((idx + 1) % keys.length : ℕ)).round keys = rest ++ [idx] := by
  have hlt : idx < keys.length := (mem_enabledIdx.1 (h.round_isRotated.mem_iff.1 (hround ▸ mem_cons_self))).1
  have hchoice := h.choice row.channelInfo rand (by rwa [← h.statuses])
  refine ⟨congrArg KeyChoice.result hchoice, congrArg KeyChoice.channel hchoice, ?_⟩
  have hstart := pollStart_of_lt (Nat.mod_lt (idx + 1) (by omega : 0 < keys.length))
  exact (congrArg (pollOrder _ keys.length) hstart).trans (pollOrder_next hround)

theorem PollingChannel.calls (rand : ℕ) (done later : List ℕ) (hround : row.round keys = done ++ later) :
    (nextCachedKeys decode rand done.length row).1 = done.map (fun i => .ok (keys.getD i "", i)) := by
  induction done generalizing row later with
  | nil => rfl
  | cons idx done ih =>
    rw [cons_append] at hround
    obtain ⟨hresult, hchannel, hnext⟩ := h.call rand hround
    rw [append_assoc] at hnext
    rw [length_cons, nextCachedKeys, hresult, hchannel, map_cons, ih (h.withPollingIndex _) _ hnext]

end

theorem PollingChannel.copies {row : ChannelRow} (h : PollingChannel decode keys statusList row) (cached : ChannelInfo)
    (rand n : ℕ) {idx : ℕ} {rest : List ℕ}
    (hround : pollOrder statusList keys.length (pollStart cached.multiKeyPollingIndex keys.length) = idx :: rest) :
    (nextCopyKeys decode cached rand n row).1 = replicate n (.ok (keys.getD idx "", idx)) := by
  induction n generalizing row with
  | zero => rfl
  | succ n ih => rw [nextCopyKeys, h.choice cached rand hround, replicate_succ, ih (h.withPollingIndex _)]

/-- Each enabled place is handed out once, in cyclic order. -/
def FairRound (keys : List String) (statusList : ℕ → Option ℤ) (results : List (Except KeyError (String × ℕ))) : Prop :=
  ∃ round : List ℕ, round.Nodup ∧ round ~r enabledIdx keys statusList ∧
    results = round.map fun i => .ok (keys.getD i "", i)

/-- One place again and again is a round only if it is the only one. -/
theorem fairRound_replicate {idx : ℕ} (hmem : idx ∈ enabledIdx keys statusList) :
    FairRound keys statusList (replicate (enabledIdx keys statusList).length (.ok (keys.getD idx "", idx))) ↔
      (enabledIdx keys statusList).length = 1 := by
  constructor
  · rintro ⟨round, hnodup, hrotated, hresults⟩
    have hall : ∀ i ∈ round, i = idx := by
      intro i hi
      have heq := eq_of_mem_replicate (hresults ▸ mem_map_of_mem hi)
      exact (Prod.mk.inj (Except.ok.inj heq)).2
    have hround : round = replicate round.length idx := eq_replicate_iff.2 ⟨rfl, hall⟩
    have hle : round.length ≤ 1 := by
      rw [hround] at hnodup
      exact nodup_replicate.1 hnodup
    have hpos := length_pos_of_mem hmem
    rw [← hrotated.perm.length_eq] at hpos ⊢
    omega
  · intro hone
    obtain ⟨place, hplace⟩ := length_eq_one_iff.1 hone
    rw [hplace, mem_singleton] at hmem
    refine ⟨[place], nodup_singleton _, hplace ▸ .refl _, ?_⟩
    rw [hone, hmem]
    rfl

theorem PollingChannel.index_lt {row : ChannelRow} (h : PollingChannel decode keys statusList row)
    (hne : enabledIdx keys statusList ≠ []) (rand n : ℕ) :
    0 ≤ (nextCachedKeys decode rand (n + 1) row).2.channelInfo.multiKeyPollingIndex ∧
      (nextCachedKeys decode rand (n + 1) row).2.channelInfo.multiKeyPollingIndex < keys.length := by
  have hround : row.round keys ≠ [] := fun hnil => hne (isRotated_nil_iff.1 (hnil ▸ h.round_isRotated).symm)
  obtain ⟨idx, rest, hround⟩ := exists_cons_of_ne_nil hround
  obtain ⟨-, hchannel, -⟩ := h.call rand hround
  rw [nextCachedKeys, hchannel]
  cases n with
  | zero =>
    have hlt : idx < keys.length := (mem_enabledIdx.1 (h.round_isRotated.mem_iff.1 (hround ▸ mem_cons_self))).1
    have hmod := Nat.mod_lt (idx + 1) (by omega : 0 < keys.length)
    exact ⟨Int.natCast_nonneg _, Int.ofNat_lt.2 hmod⟩
  | succ n => exact (h.withPollingIndex _).index_lt hne rand n

def threeKeys : ChannelRow where
  id := 1
  priority := 0
  weight := 0
  responseTime := 0
  discount := fun _ => 1
  advancedCustom := false
  key := "a\nb\nc"
  status := channelStatusEnabled
  models := ""
  group := ""
  otherInfo := fun _ => none
  channelInfo :=
    { isMultiKey := true, multiKeyMode := .polling, multiKeyPollingIndex := 7
      multiKeyStatusList := fun i => if i = 1 then some channelStatusAutoDisabled else none }
  keys := ["a", "b", "c"]

end

end NewApi

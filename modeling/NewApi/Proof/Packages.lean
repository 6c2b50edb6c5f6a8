import NewApi.Trace.Run
import NewApi.Spec.Store

/-!
# Redemption packages stay separate

A model may use the aggregate balance less what is left in the packages that do not allow it (`Store.usable`). A spend
on the model is charged to the packages that allow it first, so it lowers its own bound by exactly its amount, and
raises none (`PackagesCovered.spend`). So the packages stay covered by the balance over whole runs.

A package that expires leaves the query, but its amount stays in the balance: `available_later_le_iff` says when a
model gains nothing by that.
-/

namespace NewApi

open Trace Store UserBalancePackage List

variable {now : ℤ} {modelName : String} {poolType : PoolType} {p : UserBalancePackage → Bool} {pkg : UserBalancePackage}
  {pkgs : List UserBalancePackage} {cfg : Config} {st : Store} {sp : PackageSpend} {p q : UserBalancePackage → Bool}

@[simp] theorem remainingIn_nil (p : UserBalancePackage → Bool) : remainingIn poolType p [] = 0 := rfl

@[simp] theorem remainingIn_cons (p : UserBalancePackage → Bool) (pkg : UserBalancePackage)
    (pkgs : List UserBalancePackage) : remainingIn poolType p (pkg :: pkgs) =
      (if pkg.poolType = poolType ∧ p pkg = true then max pkg.remainingAmount 0 else 0) +
        remainingIn poolType p pkgs := by
  simp [remainingIn]

theorem remainingIn_nonneg (p : UserBalancePackage → Bool) (pkgs : List UserBalancePackage) :
    0 ≤ remainingIn poolType p pkgs := by
  induction pkgs with
  | nil => simp
  | cons =>
    rw [remainingIn_cons]
    split <;> omega

theorem remainingIn_split (poolType : PoolType) (r p : UserBalancePackage → Bool) (pkgs : List UserBalancePackage) :
    remainingIn poolType (fun pkg => r pkg && p pkg) pkgs + remainingIn poolType (fun pkg => r pkg && !p pkg) pkgs =
      remainingIn poolType r pkgs := by
  induction pkgs with
  | nil => simp
  | cons pkg =>
    simp only [remainingIn_cons]
    cases hr : r pkg <;> cases hp : p pkg <;> simp <;> omega

theorem remainingIn_add_not (poolType : PoolType) (p : UserBalancePackage → Bool) (pkgs : List UserBalancePackage) :
    remainingIn poolType p pkgs + remainingIn poolType (fun pkg => !p pkg) pkgs =
      remainingIn poolType (fun _ => true) pkgs :=
  remainingIn_split poolType (fun _ => true) p pkgs

def AmountFree (p : UserBalancePackage → Bool) : Prop :=
  ∀ (pkg : UserBalancePackage) (n : ℤ), p { pkg with remainingAmount := n } = p pkg

def PoolUnexpired (now : ℤ) (poolType : PoolType) (pkgs : List UserBalancePackage) : Prop :=
  ∀ pkg ∈ pkgs, pkg.poolType = poolType → pkg.unexpired now = true

theorem UserBalancePackage.live_eq (h : pkg.unexpired now = true) :
    pkg.live now = decide (0 < pkg.remainingAmount) := by
  unfold live unexpired at *
  rw [h, Bool.and_true]

def UserBalancePackage.charged (poolType : PoolType) (modelName : String) (pkg : UserBalancePackage) : Prop :=
  pkg.poolType = poolType ∧ 0 < pkg.remainingAmount ∧ pkg.allowsModel modelName = true

section Cons

variable {pkg : UserBalancePackage} {pkgs : List UserBalancePackage} {amount : ℤ}

theorem deductPackages_skip (h : ¬ pkg.charged poolType modelName) :
    deductPackages now modelName poolType amount (pkg :: pkgs) = ((deductPackages now modelName poolType amount pkgs).1,
        pkg :: (deductPackages now modelName poolType amount pkgs).2) := by
  rw [deductPackages, if_neg]
  intro hc
  simp only [live, Bool.and_eq_true, decide_eq_true_eq] at hc
  exact h ⟨hc.1.1, hc.1.2.1, hc.2⟩

theorem deductPackages_zero : deductPackages now modelName poolType 0 pkgs = (0, pkgs) := by
  induction pkgs with
  | nil => rfl
  | cons pkg pkgs ih =>
    rw [deductPackages, ih]
    split_ifs with hc
    · simp only [live, Bool.and_eq_true, decide_eq_true_eq] at hc
      simp [min_eq_left hc.1.2.1.le]
    · rfl

theorem deductPackages_charged (hun : pkg.unexpired now = true) (h : pkg.charged poolType modelName) :
    deductPackages now modelName poolType amount (pkg :: pkgs) =
      let taken := min amount pkg.remainingAmount
      let r := deductPackages now modelName poolType (amount - taken) pkgs
      (taken + r.1, { pkg with remainingAmount := pkg.remainingAmount - taken } :: r.2) := by
  obtain ⟨hpool, hpos, hallow⟩ := h
  rw [deductPackages, if_pos (by simp [live_eq hun, hpool, hpos, hallow])]
  simp only
  split_ifs with hnone
  · rw [hnone, deductPackages_zero, add_zero]
  · rfl

end Cons

theorem deductPackages_fst (hun : PoolUnexpired now poolType pkgs)
    {amount : ℤ} (hamount : 0 ≤ amount) : (deductPackages now modelName poolType amount pkgs).1 =
      min amount (remainingIn poolType (·.allowsModel modelName) pkgs) := by
  induction pkgs generalizing amount with
  | nil =>
    simp only [deductPackages, remainingIn_nil]
    omega
  | cons pkg pkgs ih =>
    have hun' : PoolUnexpired now poolType pkgs := fun q hq => hun q (mem_cons_of_mem _ hq)
    have hrest : 0 ≤ remainingIn poolType (·.allowsModel modelName) pkgs := remainingIn_nonneg _ _
    rw [remainingIn_cons]
    by_cases hc : pkg.charged poolType modelName
    · obtain ⟨hpool, hpos, hallow⟩ := hc
      rw [deductPackages_charged (hun pkg mem_cons_self hpool) ⟨hpool, hpos, hallow⟩, if_pos ⟨hpool, hallow⟩]
      simp only
      rw [ih hun' (by omega)]
      omega
    · -- a package that is not charged has nothing left or does not allow the model
      have hzero : (if pkg.poolType = poolType ∧ pkg.allowsModel modelName = true
          then max pkg.remainingAmount 0 else 0) = 0 := by
        split
        · have hnone : ¬ 0 < pkg.remainingAmount := fun h => hc ⟨‹_ ∧ _›.1, h, ‹_ ∧ _›.2⟩
          omega
        · rfl
      rw [deductPackages_skip hc, ih hun' hamount, hzero, zero_add]

/-- What the deduction takes from the packages that meet a condition. -/
theorem deductPackages_snd (hp : AmountFree p)
    (hun : PoolUnexpired now poolType pkgs) {amount : ℤ} (hamount : 0 ≤ amount) :
    let r := deductPackages now modelName poolType amount pkgs
    remainingIn poolType p pkgs - r.1 ≤ remainingIn poolType p r.2 ∧
    remainingIn poolType p r.2 ≤ remainingIn poolType p pkgs ∧
    ((∀ pkg, p pkg = true → pkg.allowsModel modelName = false) →
      remainingIn poolType p r.2 = remainingIn poolType p pkgs) ∧
    ((∀ pkg, pkg.allowsModel modelName = true → p pkg = true) →
      remainingIn poolType p r.2 = remainingIn poolType p pkgs - r.1) := by
  intro r
  simp only [r]
  clear r
  induction pkgs generalizing amount with
  | nil => simp [deductPackages]
  | cons pkg pkgs ih =>
    have hun' : PoolUnexpired now poolType pkgs := fun q hq => hun q (mem_cons_of_mem _ hq)
    by_cases hc : pkg.charged poolType modelName
    · obtain ⟨hpool, hpos, hallow⟩ := hc
      obtain ⟨h1, h2, h3, h4⟩ := ih hun' (by omega : 0 ≤ amount - min amount pkg.remainingAmount)
      rw [deductPackages_charged (hun pkg mem_cons_self hpool) ⟨hpool, hpos, hallow⟩]
      simp only [remainingIn_cons, hp pkg]
      simp only [hpool, true_and]
      cases hpp : p pkg with
      | false =>
        simp only [Bool.false_eq_true, if_false]
        refine ⟨by omega, by omega, fun h => by rw [h3 h], fun h => ?_⟩
        rw [h pkg hallow] at hpp
        cases hpp
      | true =>
        simp only [if_true]
        refine ⟨by omega, by omega, fun h => ?_, fun h => ?_⟩
        · rw [h pkg hpp] at hallow
          cases hallow
        · rw [h4 h]
          omega
    · obtain ⟨h1, h2, h3, h4⟩ := ih hun' hamount
      rw [deductPackages_skip hc]
      simp only [remainingIn_cons]
      refine ⟨by omega, by omega, fun h => ?_, fun h => ?_⟩
      · rw [h3 h]
      · rw [h4 h, add_sub_assoc]

theorem deductPackages_getElem (hun : PoolUnexpired now poolType pkgs) (amount : ℤ) :
    (deductPackages now modelName poolType amount pkgs).2.length = pkgs.length ∧
      ∀ (i : ℕ) (pkg : UserBalancePackage), pkgs[i]? = some pkg →
        ¬ (pkg.poolType = poolType ∧ pkg.allowsModel modelName = true) →
        (deductPackages now modelName poolType amount pkgs).2[i]? = some pkg := by
  induction pkgs generalizing amount with
  | nil => simp [deductPackages]
  | cons q pkgs ih =>
    have hun' : PoolUnexpired now poolType pkgs := fun q hq => hun q (mem_cons_of_mem _ hq)
    by_cases hc : q.charged poolType modelName
    · rw [deductPackages_charged (hun q mem_cons_self hc.1) hc]
      obtain ⟨hlen, hsame⟩ := ih hun' (amount - min amount q.remainingAmount)
      refine ⟨congrArg (· + 1) hlen, fun i pkg hi hno => ?_⟩
      cases i with
      | zero =>
        cases hi
        exact absurd ⟨hc.1, hc.2.2⟩ hno
      | succ i => exact hsame i pkg hi hno
    · rw [deductPackages_skip hc]
      obtain ⟨hlen, hsame⟩ := ih hun' amount
      refine ⟨congrArg (· + 1) hlen, fun i pkg hi hno => ?_⟩
      cases i with
      | zero => exact hi
      | succ i => exact hsame i pkg hi hno

theorem deductPackages_forall (hp : AmountFree p) (h : ∀ pkg ∈ pkgs, p pkg = true) (amount : ℤ) :
    ∀ pkg ∈ (deductPackages now modelName poolType amount pkgs).2, p pkg = true := by
  induction pkgs generalizing amount with
  | nil => simp [deductPackages]
  | cons q pkgs ih =>
    have hq := h q mem_cons_self
    have ih' := ih fun pkg hpkg => h pkg (mem_cons_of_mem _ hpkg)
    intro pkg hmem
    unfold deductPackages at hmem
    split at hmem
    · -- the head is charged, which leaves `p` as it was
      simp only at hmem
      split at hmem
      · rcases mem_cons.1 hmem with rfl | hmem
        · exact (hp q _).trans hq
        · exact h pkg (mem_cons_of_mem _ hmem)
      rcases mem_cons.1 hmem with rfl | hmem
      · exact (hp q _).trans hq
      · exact ih' _ pkg hmem
    · rcases mem_cons.1 hmem with rfl | hmem
      · exact hq
      · exact ih' _ pkg hmem

def UserBalancePackage.restricting (poolType : PoolType) (pkg : UserBalancePackage) : Bool :=
  decide (pkg.poolType = poolType → pkg.modelFilterMode ≠ .none)

structure PackagesCovered (poolType : PoolType) (st : Store) : Prop where
  restricted : ∀ pkg ∈ st.packages, pkg.restricting poolType = true
  covered : remainingIn poolType (fun _ => true) st.packages ≤ st.balance poolType

/-- The unrestricted part of the balance and the packages that allow the model. -/
def Store.usable (poolType : PoolType) (modelName : String) (st : Store) : ℤ :=
  (st.balance poolType - remainingIn poolType (fun _ => true) st.packages) +
    remainingIn poolType (·.allowsModel modelName) st.packages

theorem Store.usable_eq (st : Store) (modelName : String) : st.usable poolType modelName =
    st.balance poolType - remainingIn poolType (fun pkg => !pkg.allowsModel modelName) st.packages := by
  have hsplit := remainingIn_add_not poolType (·.allowsModel modelName) st.packages
  unfold usable
  omega

theorem PackagesCovered.usable_nonneg (h : PackagesCovered poolType st) (modelName : String) :
    0 ≤ st.usable poolType modelName := by
  have hcovered := h.covered
  have hallowed : 0 ≤ remainingIn poolType (·.allowsModel modelName) st.packages := remainingIn_nonneg _ _
  unfold usable
  omega

def UserBalancePackage.restrictsAt (now : ℤ) (pkg : UserBalancePackage) : Bool :=
  pkg.live now && decide (pkg.modelFilterMode ≠ .none)

theorem sum_live (now : ℤ) (poolType : PoolType) (p : UserBalancePackage → Bool) (pkgs : List UserBalancePackage) :
    (((pkgs.filter fun pkg => pkg.live now && decide (pkg.poolType = poolType) &&
      decide (pkg.modelFilterMode ≠ .none)).filter p).map (·.remainingAmount)).sum =
      remainingIn poolType (fun pkg => pkg.restrictsAt now && p pkg) pkgs := by
  induction pkgs with
  | nil => rfl
  | cons pkg pkgs ih =>
    rw [remainingIn_cons, ← ih, filter_cons]
    by_cases hlive : pkg.live now = true
    · have hpos : 0 < pkg.remainingAmount := by
        unfold live at hlive
        simp only [Bool.and_eq_true, decide_eq_true_eq] at hlive
        exact hlive.1
      by_cases hpool : pkg.poolType = poolType
      · by_cases hmode : pkg.modelFilterMode = .none
        · simp [restrictsAt, hmode]
        · cases hp : p pkg <;> simp [restrictsAt, hlive, hpool, hmode, hp, hpos.le]
      · simp [hpool]
    · simp [restrictsAt, hlive]

theorem remainingIn_congr (h : ∀ pkg ∈ pkgs, pkg.poolType = poolType → 0 < pkg.remainingAmount → p pkg = q pkg) :
    remainingIn poolType p pkgs = remainingIn poolType q pkgs := by
  induction pkgs with
  | nil => rfl
  | cons pkg pkgs ih =>
    have hpkg := h pkg mem_cons_self
    rw [remainingIn_cons, remainingIn_cons, ih fun r hr => h r (mem_cons_of_mem _ hr)]
    by_cases hpool : pkg.poolType = poolType
    · rcases lt_or_ge 0 pkg.remainingAmount with hpos | hneg
      · rw [hpkg hpool hpos]
      · simp [max_eq_right hneg]
    · simp [hpool]

theorem sum_restricting (hun : PoolUnexpired now poolType pkgs)
    (hres : ∀ pkg ∈ pkgs, pkg.restricting poolType = true) (p : UserBalancePackage → Bool) :
    (((pkgs.filter fun pkg => pkg.live now && decide (pkg.poolType = poolType) &&
      decide (pkg.modelFilterMode ≠ .none)).filter p).map (·.remainingAmount)).sum =
      remainingIn poolType p pkgs := by
  rw [sum_live]
  apply remainingIn_congr
  intro pkg hpkg hpool hpos
  have hmode := of_decide_eq_true (hres pkg hpkg) hpool
  simp [restrictsAt, live_eq (hun pkg hpkg hpool), hpos, hmode]

theorem available_eq_usable (hcfg : cfg.hasPackageTable = true) (h : PackagesCovered poolType st)
    (hun : PoolUnexpired sp.now poolType st.packages) :
    st.available cfg poolType sp = st.usable poolType sp.modelName := by
  have hcovered := h.covered
  have htotal := sum_restricting hun h.restricted (fun _ => true)
  have hallowed := sum_restricting hun h.restricted (·.allowsModel sp.modelName)
  have hnonneg : 0 ≤ remainingIn poolType (·.allowsModel sp.modelName) st.packages := remainingIn_nonneg _ _
  have hother : 0 ≤ remainingIn poolType (fun pkg => !pkg.allowsModel sp.modelName) st.packages :=
    remainingIn_nonneg _ _
  have hsplit := remainingIn_add_not poolType (·.allowsModel sp.modelName) st.packages
  rw [filter_true] at htotal
  unfold available userBalancePackageAvailable usable
  by_cases hbal : st.balance poolType ≤ 0
  · simp only [hbal, if_true]
    omega
  · simp only [hbal, hcfg, if_false, Bool.true_eq_false, Bool.false_eq_true, htotal, hallowed]
    omega

theorem Store.spend_balance : (st.spend cfg poolType sp).balance poolType = st.balance poolType - sp.amount := by
  unfold spend deductUserBalancePackage
  split <;> cases poolType <;> rfl

theorem Store.spend_packages_zero (hzero : sp.amount ≤ 0) : (st.spend cfg poolType sp).packages = st.packages := by
  unfold spend deductUserBalancePackage
  rw [if_pos (.inl hzero)]
  cases poolType <;> rfl

theorem Store.spend_packages (hcfg : cfg.hasPackageTable = true) (hnonneg : 0 ≤ sp.amount) :
    (st.spend cfg poolType sp).packages = (deductPackages sp.now sp.modelName poolType sp.amount st.packages).2 := by
  rcases hnonneg.eq_or_lt with hzero | hpos
  · rw [spend_packages_zero hzero.ge, ← hzero, deductPackages_zero]
  have hgo : ¬ (sp.amount ≤ 0 ∨ cfg.hasPackageTable = false ∨ false = true) := by simp [hcfg, hpos]
  unfold spend deductUserBalancePackage
  rw [if_neg hgo]
  cases poolType <;> rfl

/-- The spend is within what `UserBalancePackageAvailable` returns, and no package of the type has expired. -/
def Store.maySpend (cfg : Config) (poolType : PoolType) (st : Store) (sp : PackageSpend) : Prop :=
  0 ≤ sp.amount ∧ sp.amount ≤ st.available cfg poolType sp ∧ PoolUnexpired sp.now poolType st.packages

instance (cfg : Config) (poolType : PoolType) (st : Store) (sp : PackageSpend) :
    Decidable (st.maySpend cfg poolType sp) := by
  unfold maySpend PoolUnexpired
  infer_instance

def Store.spends (cfg : Config) (poolType : PoolType) : Store → PackageSpend → Store → Prop :=
  within (fun st sp st' => st' = st.spend cfg poolType sp) (maySpend cfg poolType)

def PackageSpend.on (modelName : String) (sp : PackageSpend) : ℤ := if sp.modelName = modelName then sp.amount else 0

theorem PackagesCovered.spend (hcfg : cfg.hasPackageTable = true) (h : PackagesCovered poolType st)
    (hsp : st.maySpend cfg poolType sp) (modelName : String) :
    PackagesCovered poolType (st.spend cfg poolType sp) ∧
      (st.spend cfg poolType sp).usable poolType modelName + sp.on modelName ≤ st.usable poolType modelName := by
  obtain ⟨hnonneg, havail, hun⟩ := hsp
  rw [available_eq_usable hcfg h hun] at havail
  rw [usable_eq, usable_eq, spend_balance]
  have hpkgs : (st.spend cfg poolType sp).packages = _ := spend_packages hcfg hnonneg
  have hfst : (deductPackages sp.now sp.modelName poolType sp.amount st.packages).1 = _ :=
    deductPackages_fst hun hnonneg
  refine ⟨⟨?_, ?_⟩, ?_⟩
  · rw [hpkgs]
    exact deductPackages_forall (fun _ _ => rfl) h.restricted _
  · -- the packages that allow the model pay first, the unrestricted part the rest
    have hany : AmountFree fun _ => true := fun _ _ => rfl
    obtain ⟨-, -, -, htotal⟩ := deductPackages_snd hany hun hnonneg
    have hcovered := h.covered
    rw [hpkgs, spend_balance, htotal fun _ _ => rfl, hfst]
    unfold usable at havail
    omega
  · have hfree : AmountFree fun pkg => !pkg.allowsModel modelName := fun _ _ => rfl
    obtain ⟨hle, -, hsame, -⟩ := deductPackages_snd hfree hun hnonneg
    rw [hpkgs]
    unfold PackageSpend.on
    split
    next hm =>
      have hnot : ∀ pkg : UserBalancePackage, (!pkg.allowsModel modelName) = true →
          pkg.allowsModel sp.modelName = false := by
        intro pkg hpkg
        rw [hm]
        simpa using hpkg
      rw [hsame hnot]
      omega
    next hm => omega

theorem spend_getElem (hcfg : cfg.hasPackageTable = true) (hun : PoolUnexpired sp.now poolType st.packages) :
    (st.spend cfg poolType sp).packages.length = st.packages.length ∧
      ∀ (i : ℕ) (pkg : UserBalancePackage), st.packages[i]? = some pkg →
        ¬ (pkg.poolType = poolType ∧ pkg.allowsModel sp.modelName = true) →
        (st.spend cfg poolType sp).packages[i]? = some pkg := by
  rcases le_total 0 sp.amount with hnonneg | hzero
  · rw [spend_packages hcfg hnonneg]
    exact deductPackages_getElem hun _
  · rw [spend_packages_zero hzero]
    exact ⟨rfl, fun i pkg hi _ => hi⟩

/-- **Restricted redemption balances stay separate.** Over any spends within what `UserBalancePackageAvailable`
returns, the packages stay covered, those that do not allow a model are left alone, and a model uses no more than the
unrestricted part and its packages. -/
theorem packages_stay_separate (cfg : Config) (hcfg : cfg.hasPackageTable = true) (poolType : PoolType)
    (st st' : Store) (hres : ∀ pkg ∈ st.packages, pkg.restricting poolType = true)
    (hcover : remainingIn poolType (fun _ => true) st.packages ≤ st.balance poolType)
    (ms : List (Store × PackageSpend × Store)) (hrun : Run (moves (spends cfg poolType)) st ms st') :
    remainingIn poolType (fun _ => true) st'.packages ≤ st'.balance poolType ∧
    (∀ m ∈ ms, m.2.2.packages.length = m.1.packages.length ∧
      ∀ (i : ℕ) (pkg : UserBalancePackage), m.1.packages[i]? = some pkg →
        ¬ (pkg.poolType = poolType ∧ pkg.allowsModel m.2.1.modelName = true) →
        m.2.2.packages[i]? = some pkg) ∧
    ∀ modelName, (ms.map fun m => m.2.1.on modelName).sum ≤
      (st.balance poolType - remainingIn poolType (fun _ => true) st.packages) +
        remainingIn poolType (·.allowsModel modelName) st.packages := by
  have h0 : PackagesCovered poolType st := ⟨hres, hcover⟩
  have hstep : ∀ st (m : Store × PackageSpend × Store) (st' : Store),
      PackagesCovered poolType st → moves (spends cfg poolType) st m st' →
      ∀ modelName, PackagesCovered poolType st' ∧
        st'.usable poolType modelName + m.2.1.on modelName ≤ st.usable poolType modelName := by
    rintro st m st' hst ⟨-, ⟨rfl, hsp⟩, -⟩ modelName
    exact hst.spend hcfg hsp modelName
  have hend := hrun.inv (fun st m st' hst hm => (hstep st m st' hst hm "").1) h0
  refine ⟨hend.covered, ?_, fun modelName => ?_⟩
  · refine hrun.each (fun st m st' _ hm => ⟨trivial, ?_⟩) trivial
    obtain ⟨hbefore, ⟨hspend, hsp⟩, hafter⟩ := hm
    rw [hafter, hbefore, hspend]
    exact spend_getElem hcfg hsp.2.2
  have hbudget := hrun.sum_map_le (fun st => st.usable poolType modelName)
    (fun m => m.2.1.on modelName) (fun st m st' hst hm => hstep st m st' hst hm modelName) h0
  have hleft := hend.usable_nonneg modelName
  unfold usable at hbudget hleft
  omega

theorem noSubs_pos : ∀ s ∈ ([] : List UserSubscription), 0 < s.id := by simp

def samplePackages : Store where
  quota := 1000
  pendingQuota := 0
  requestsBalance := 0
  tokensBalance := 0
  remainQuota := 0
  usedQuota := 0
  pendingTokenQuota := 0
  sub := ⟨⟨[], nodup_nil, noSubs_pos⟩, fun _ => none⟩
  packages := [⟨.quota, 200, .whitelist, ["a"], 0⟩, ⟨.quota, 300, .blacklist, ["b"], 60⟩]

def sampleSpends : List PackageSpend := [⟨10, "a", 250⟩, ⟨20, "b", 100⟩, ⟨30, "a", 350⟩, ⟨40, "b", 300⟩]

theorem packages_stay_separate_two_models :
    (let next := spend ⟨false, 0, true⟩ .quota
     (sampleSpends.foldl next samplePackages).balance .quota = 0 ∧
     remainingIn .quota (fun _ => true) (sampleSpends.foldl next samplePackages).packages ≤ 0 ∧
     ((trail next samplePackages sampleSpends).map fun m => m.2.1.on "b").sum ≤ 500) := by
  have h := packages_stay_separate ⟨false, 0, true⟩ rfl .quota samplePackages _ (by decide +kernel)
    (by decide +kernel) _ (Run.of_trail sampleSpends (by decide +kernel))
  exact ⟨by decide +kernel, h.1.trans (by decide +kernel), (h.2.2 "b").trans (by decide +kernel)⟩

def Store.allowedAt (now : ℤ) (poolType : PoolType) (modelName : String) (st : Store) : ℤ :=
  remainingIn poolType (fun pkg => pkg.restrictsAt now && pkg.allowsModel modelName) st.packages

/-- What is left in the packages that keep their amount from the model. -/
def Store.withheldAt (now : ℤ) (poolType : PoolType) (modelName : String) (st : Store) : ℤ :=
  remainingIn poolType (fun pkg => pkg.restrictsAt now && !pkg.allowsModel modelName) st.packages

theorem remainingIn_mono (h : ∀ pkg, p pkg = true → q pkg = true)
    (pkgs : List UserBalancePackage) : remainingIn poolType p pkgs ≤ remainingIn poolType q pkgs := by
  induction pkgs with
  | nil => simp
  | cons pkg pkgs ih =>
    rw [remainingIn_cons, remainingIn_cons]
    by_cases hpool : pkg.poolType = poolType
    · cases hp : p pkg with
      | false =>
        simp only [Bool.false_eq_true, and_false, if_false]
        split <;> omega
      | true =>
        simp only [hpool, h pkg hp, true_and, if_true]
        omega
    · simpa [hpool] using ih

theorem UserBalancePackage.restrictsAt_of_later {later : ℤ} (hle : now ≤ later)
    (h : pkg.restrictsAt later = true) : pkg.restrictsAt now = true := by
  unfold restrictsAt live at *
  simp only [Bool.and_eq_true, Bool.or_eq_true, decide_eq_true_eq] at *
  obtain ⟨⟨hpos, hexpiry⟩, hmode⟩ := h
  exact ⟨⟨hpos, by omega⟩, hmode⟩

theorem restrictsAt_and_of_later {later : ℤ} (hle : now ≤ later)
    (pkg : UserBalancePackage) (h : (pkg.restrictsAt later && p pkg) = true) :
    (pkg.restrictsAt now && p pkg) = true := by
  rw [Bool.and_eq_true] at *
  exact ⟨restrictsAt_of_later hle h.1, h.2⟩

theorem available_eq_max {dbErr restricted : Bool} {aggregate available : ℤ} (hpos : 0 < aggregate)
    (hcfg : cfg.hasPackageTable = true)
    (h : userBalancePackageAvailable cfg dbErr now modelName poolType aggregate st = .ok (available, restricted)) :
    available = max (aggregate - st.withheldAt now poolType modelName) (st.allowedAt now poolType modelName) := by
  have htotal := sum_live now poolType (fun _ => true) st.packages
  have hallowed := sum_live now poolType (·.allowsModel modelName) st.packages
  have hparts := remainingIn_split poolType (·.restrictsAt now) (·.allowsModel modelName) st.packages
  rw [filter_true] at htotal
  unfold userBalancePackageAvailable at h
  rw [if_neg (by omega), if_neg (by simp [hcfg])] at h
  split at h
  · cases h
  simp only [htotal, hallowed, Bool.and_true, Except.ok.injEq, Prod.mk.injEq] at h
  rw [← h.1]
  unfold allowedAt withheldAt
  omega

/-- **When time unlocks nothing**: exactly if nothing that was kept from the model has expired, or what is still kept
and what it could use of the packages come to the whole balance. -/
theorem available_later_le_iff (cfg : Config) (modelName : String) (poolType : PoolType) (aggregate : ℤ)
    (st : Store) (now later : ℤ) (hle : now ≤ later) (dbErr dbErr' : Bool) (before after : ℤ × Bool)
    (hbefore : userBalancePackageAvailable cfg dbErr now modelName poolType aggregate st = .ok before)
    (hafter : userBalancePackageAvailable cfg dbErr' later modelName poolType aggregate st = .ok after) :
    after.1 ≤ before.1 ↔ (aggregate ≤ 0 ∨ cfg.hasPackageTable = false ∨
      st.withheldAt later poolType modelName = st.withheldAt now poolType modelName ∨
      aggregate ≤ st.allowedAt now poolType modelName + st.withheldAt later poolType modelName) := by
  obtain ⟨a, ra⟩ := before
  obtain ⟨b, rb⟩ := after
  by_cases hneg : aggregate ≤ 0
  · unfold userBalancePackageAvailable at hbefore hafter
    rw [if_pos hneg] at hbefore hafter
    cases hbefore
    cases hafter
    exact ⟨fun _ => .inl hneg, fun _ => le_rfl⟩
  by_cases hcfg : cfg.hasPackageTable = false
  · unfold userBalancePackageAvailable at hbefore hafter
    rw [if_neg hneg, if_pos hcfg] at hbefore hafter
    cases hbefore
    cases hafter
    exact ⟨fun _ => .inr (.inl hcfg), fun _ => le_rfl⟩
  rw [Bool.not_eq_false] at hcfg
  have hallowed : st.allowedAt later poolType modelName ≤ st.allowedAt now poolType modelName :=
    remainingIn_mono (restrictsAt_and_of_later hle) _
  have hwithheld : st.withheldAt later poolType modelName ≤ st.withheldAt now poolType modelName :=
    remainingIn_mono (restrictsAt_and_of_later hle) _
  have ha := available_eq_max (by omega) hcfg hbefore
  have hb := available_eq_max (by omega) hcfg hafter
  simp only [hcfg, Bool.true_eq_false, false_or, hneg]
  rw [ha, hb]
  omega

theorem available_later_le_iff_allowed :
    userBalancePackageAvailable ⟨false, 0, true⟩ false 60 "a" .quota 1000 samplePackages = .ok (1000, true) ∧
      (1000 : ℤ) ≤ 1000 := by
  have hbefore : userBalancePackageAvailable ⟨false, 0, true⟩ false 59 "a" .quota 1000 samplePackages =
      .ok (1000, true) := by decide +kernel
  have hafter : userBalancePackageAvailable ⟨false, 0, true⟩ false 60 "a" .quota 1000 samplePackages =
      .ok (1000, true) := by decide +kernel
  have hiff := available_later_le_iff ⟨false, 0, true⟩ "a" .quota 1000 samplePackages 59 60 (by decide) false false
    (1000, true) (1000, true) hbefore hafter
  exact ⟨hafter, hiff.2 (.inr (.inr (.inl (by decide +kernel))))⟩

/-- **Expiry unlocks money**: the 300 that model `b` may not use are open to it from 60 on. -/
theorem available_grows_at_expiry :
    userBalancePackageAvailable ⟨false, 0, true⟩ false 59 "b" .quota 1000 samplePackages = .ok (500, true) ∧
    userBalancePackageAvailable ⟨false, 0, true⟩ false 60 "b" .quota 1000 samplePackages = .ok (800, true) := by
  decide +kernel

end NewApi

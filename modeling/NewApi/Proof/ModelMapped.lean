import NewApi.Spec.ModelMapped
import Mathlib.Data.List.Nodup
import Mathlib.Data.List.Perm.Subperm

/-!
# Following the mapping

The models that the loop has visited are the chain from the origin, so a mapping to one of them closes a cycle
(`Visited`). All of them but the origin are in the mapping, which bounds the rounds.
-/

namespace NewApi

open Relation List

def MapsModel (modelMap : ModelMap) (a b : String) : Prop := mappedModel modelMap a = some b

abbrev LeadsTo (modelMap : ModelMap) := ReflTransGen (MapsModel modelMap)

/-- The chain from the model enters a cycle of two models at least. -/
def EntersCycle (modelMap : ModelMap) (origin : String) : Prop :=
  ∃ a b, LeadsTo modelMap origin a ∧ MapsModel modelMap a b ∧ a ≠ b ∧ LeadsTo modelMap b a

/-- The model is not mapped, or is mapped to the empty model or to itself. -/
def LastModel (modelMap : ModelMap) (model : String) : Prop := ∀ next, MapsModel modelMap model next → next = model

section Chain

variable {modelMap : ModelMap} {origin a b current : String} {visited : List String}

theorem mapsModel_unique : Relator.RightUnique (MapsModel modelMap) :=
  fun _ _ _ h h' => Option.some.inj (h.symm.trans h')

theorem LastModel.eq_of_reaches (h : LastModel modelMap a) (hab : LeadsTo modelMap a b) : b = a := by
  induction hab with
  | refl => rfl
  | tail _ hstep ih =>
    subst ih
    exact h _ hstep

theorem reaches_back (hab : MapsModel modelMap a b) (hba : LeadsTo modelMap b a) {c : String}
    (hac : LeadsTo modelMap a c) : LeadsTo modelMap c a := by
  induction hac with
  | refl => exact .refl
  | tail _ hstep ih =>
    rcases ih.cases_head with rfl | ⟨d, hd, hda⟩
    · exact mapsModel_unique hab hstep ▸ hba
    · exact mapsModel_unique hd hstep ▸ hda

theorem LastModel.not_entersCycle (h : LastModel modelMap a) (ha : LeadsTo modelMap origin a) :
    ¬ EntersCycle modelMap origin := by
  rintro ⟨b, c, hb, hbc, hne, hcb⟩
  have hab : LeadsTo modelMap a b := by
    rcases ha.total_of_right_unique mapsModel_unique hb with hab | hba
    · exact hab
    · exact reaches_back hbc hcb hba
  obtain rfl := h.eq_of_reaches hab
  exact hne (h c hbc).symm

structure Visited (modelMap : ModelMap) (origin current : String) (visited : List String) : Prop where
  nodup : visited.Nodup
  reached : LeadsTo modelMap origin current
  leads : ∀ model ∈ visited, LeadsTo modelMap model current
  mapped : ∀ model ∈ visited, model = origin ∨ model ∈ modelMap.map (·.2)
  origin_mem : origin ∈ visited

theorem mem_of_mapsModel (h : MapsModel modelMap a b) : b ∈ modelMap.map (·.2) := by
  obtain ⟨hb, -⟩ := Option.filter_eq_some_iff.1 h
  obtain ⟨before, after, rfl, -⟩ := lookup_eq_some_iff.1 hb
  simp

section

variable (h : Visited modelMap origin current visited)
include h

theorem Visited.next (hstep : MapsModel modelMap current a)
    (hnew : a ∉ visited) : Visited modelMap origin a (a :: visited) where
  nodup := nodup_cons.2 ⟨hnew, h.nodup⟩
  reached := h.reached.tail hstep
  leads := forall_mem_cons.2 ⟨.refl, fun model hmem => (h.leads model hmem).tail hstep⟩
  mapped := forall_mem_cons.2 ⟨.inr (mem_of_mapsModel hstep), h.mapped⟩
  origin_mem := mem_cons_of_mem _ h.origin_mem

theorem Visited.length_le : visited.length ≤ modelMap.length + 1 := by
  have hsub : visited ⊆ origin :: modelMap.map (·.2) := fun model hmem => mem_cons.2 (h.mapped model hmem)
  simpa using (subperm_of_subset h.nodup hsub).length_le

end

def Followed (modelMap : ModelMap) (origin : String) : Except ModelMapErr ModelInfo → Prop
  | .error err => err = .modelMappingContainsCycle ∧ EntersCycle modelMap origin
  | .ok info => LastModel modelMap info.upstreamModelName ∧
    LeadsTo modelMap origin info.upstreamModelName ∧
      (info.isModelMapped = true ↔ info.upstreamModelName ≠ origin)

theorem Visited.leave {info : ModelInfo} (h : Visited modelMap origin current visited)
    (hlast : LastModel modelMap current) (hupstream : info.upstreamModelName = origin)
    (hmapped : info.isModelMapped = true ↔ current ≠ origin) :
    Followed modelMap origin
      (.ok (if info.isModelMapped then { info with upstreamModelName := current } else info).setModelName) := by
  have hcurrent : (if info.isModelMapped then { info with upstreamModelName := current } else info).setModelName =
      { info with upstreamModelName := current, requestModel := current } := by
    split
    · rfl
    obtain rfl : current = origin := by simpa using mt hmapped.2 ‹_›
    subst hupstream
    rfl
  rw [hcurrent]
  exact ⟨hlast, h.reached, hmapped⟩

theorem Visited.follow {info : ModelInfo} {fuel : ℕ} (h : Visited modelMap origin current visited)
    (horigin : info.originModelName = origin ∧ info.upstreamModelName = origin)
    (hmapped : info.isModelMapped = true ↔ current ≠ origin) (hfuel : modelMap.length + 1 < visited.length + fuel) :
    ∃ result, followMapping modelMap fuel visited current info = some result ∧ Followed modelMap origin result := by
  induction fuel generalizing current visited info with
  | zero =>
    have := h.length_le
    omega
  | succ fuel ih =>
    unfold followMapping
    cases hnext : mappedModel modelMap current with
    | none =>
      have hlast : LastModel modelMap current := fun next hstep => nomatch hnext.symm.trans hstep
      exact ⟨_, rfl, h.leave hlast horigin.2 hmapped⟩
    | some next =>
      simp only
      split_ifs with hmem hself hfirst
      · -- the origin is mapped to itself
        have hlast : LastModel modelMap current := fun c hstep => (mapsModel_unique hstep hnext).trans hself
        obtain rfl := hfirst.trans horigin.1
        exact ⟨_, rfl, horigin.2.symm ▸ hlast, horigin.2.symm ▸ .refl, by simp [horigin.2]⟩
      · have hlast : LastModel modelMap current := fun c hstep => (mapsModel_unique hstep hnext).trans hself
        have hne : current ≠ origin := horigin.1 ▸ hfirst
        have hleave := @Visited.leave _ _ _ _ { info with isModelMapped := true } h hlast horigin.2 (by simp [hne])
        exact ⟨_, rfl, hleave⟩
      · exact ⟨_, rfl, rfl, current, next, h.reached, hnext, Ne.symm hself, h.leads next hmem⟩
      refine ih (h.next hnext hmem) horigin ?_ ?_
      · simp
        rintro rfl
        exact hmem h.origin_mem
      · simp
        omega

end Chain

def channelMapping (unmarshal : String → Option ModelMap) (modelMapping : String) : Option ModelMap :=
  if modelMapping ≠ "" ∧ modelMapping ≠ "\x7b\x7d" then unmarshal modelMapping else some []

def sampleModelMap : ModelMap := [("a", "b"), ("b", "c"), ("c", "")]

end NewApi

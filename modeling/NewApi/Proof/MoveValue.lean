import NewApi.Spec.HeaderOverride

/-!
# Moving a field

A move sets the target and deletes the source. This moves the value (`move_relocates_iff`), unless both paths are the
same, where the delete takes what was set (`moved_onto_itself`).
-/

namespace NewApi

open Function

variable {D V : Type} {docs : DocLib D V} {doc : D} {fromPath toPath : List String} {value : V}

theorem moveValue_apart (hvalue : docs.get doc fromPath = some value)
    (hparents : ∀ above v, above <+: toPath → above ≠ toPath → docs.get doc above = some v → docs.isObject v = true)
    (hapart : Apart toPath fromPath) :
    ∃ moved, moveValue docs doc fromPath toPath = some moved ∧ docs.get moved toPath = some (docs.encode value) ∧
      docs.get moved fromPath = none ∧
      ∀ q, Apart fromPath q → Apart toPath q → docs.get moved q = docs.get doc q := by
  have hne : toPath ≠ [] := by
    rintro rfl
    exact hapart.1 List.nil_prefix
  obtain ⟨result, hset⟩ := docs.set_ok (docs.encode value) hne hparents
  have hstill : docs.get result fromPath = some value := by rw [docs.get_set_apart hset hapart, hvalue]
  obtain ⟨moved, hdelete⟩ := docs.delete_ok hstill
  refine ⟨moved, ?_, ?_, docs.get_delete hdelete, fun q hfrom hto => ?_⟩
  · simp only [moveValue, hvalue, hset, Option.bind_some, hdelete]
  · rw [docs.get_delete_apart hdelete hapart.symm, docs.get_set hset]
  · rw [docs.get_delete_apart hdelete hfrom, docs.get_set_apart hset hto]

/-- **Moving a field relocates it** exactly if the paths are not the same and its value survives the encoding. -/
theorem move_relocates_iff (docs : DocLib D V) (hvalue : docs.get doc fromPath = some value)
    (hparents : ∀ above v, above <+: toPath → above ≠ toPath → docs.get doc above = some v → docs.isObject v = true)
    (hpaths : fromPath = toPath ∨ Apart fromPath toPath) :
    Relocated docs doc fromPath toPath value ↔ fromPath ≠ toPath ∧ docs.encode value = value := by
  rcases hpaths with rfl | hapart
  · -- what was set is deleted again
    refine iff_of_false ?_ fun h => h.1 rfl
    rintro ⟨moved, hmoved, hget, -⟩
    simp only [moveValue, hvalue] at hmoved
    obtain ⟨result, -, hdelete⟩ := Option.bind_eq_some_iff.1 hmoved
    exact nomatch (docs.get_delete hdelete).symm.trans hget
  have hne : fromPath ≠ toPath := fun heq => hapart.1 (heq ▸ List.prefix_rfl)
  obtain ⟨moved, hmoved, hto, hfrom, hothers⟩ := moveValue_apart hvalue hparents hapart.symm
  constructor
  · rintro ⟨moved', hmoved', hget, -⟩
    obtain rfl := Option.some.inj (hmoved.symm.trans hmoved')
    exact ⟨hne, Option.some.inj (hto.symm.trans hget)⟩
  · rintro ⟨-, hencode⟩
    exact ⟨moved, hmoved, hencode ▸ hto, fun _ => hfrom, hothers⟩

theorem ne_of_apart {p q : List String} (h : Apart p q) : q ≠ p := by
  rintro rfl
  exact h.1 List.prefix_rfl

/-- Documents of numbers, each with the path that leads to it. -/
def flatDocs : DocLib (List String → Option ℕ) ℕ where
  get doc path := doc path
  set doc path value := some (update doc path (some value))
  delete doc path := some (update doc path none)
  isObject _ := false
  encode := id
  set_ok _ _ _ := ⟨_, rfl⟩
  get_set h := Option.some.inj h ▸ update_self ..
  get_set_apart h hq := Option.some.inj h ▸ update_of_ne (ne_of_apart hq) ..
  delete_ok _ := ⟨_, rfl⟩
  get_delete h := Option.some.inj h ▸ update_self ..
  get_delete_apart h hq := Option.some.inj h ▸ update_of_ne (ne_of_apart hq) ..

def sampleDoc : List String → Option ℕ := fun path => if path = ["a"] then some 1 else none

theorem move_relocates_into_new_object : Relocated flatDocs sampleDoc ["a"] ["b", "c"] 1 :=
  (move_relocates_iff flatDocs rfl (fun above v hprefix _ h => by
    obtain rfl : above = ["a"] := by_contra fun hne => nomatch (if_neg hne).symm.trans h
    exact absurd hprefix (by decide)) (.inr ⟨by decide, by decide⟩)).2 ⟨by decide, rfl⟩

/-- A field that is moved to its own place is lost. -/
theorem moved_onto_itself :
    flatDocs.get sampleDoc ["a"] = some 1 ∧ ¬Relocated flatDocs sampleDoc ["a"] ["a"] 1 := by
  refine ⟨rfl, ?_⟩
  rintro ⟨moved, hmoved, hget, -⟩
  cases hmoved
  exact absurd hget (by decide)

end NewApi

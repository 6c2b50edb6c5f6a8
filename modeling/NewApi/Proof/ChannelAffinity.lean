import NewApi.Spec.ChannelAffinity

/-!
# Which requests share a sticky channel

The parts of a key are joined by colons, and a colon in a part is not marked. So a key says less than its parts: a value
may go on where a shorter model and group end (`identities_collide`). `affinity_identity_separate_iff` says for which
models and groups this cannot happen, and what the cache makes of a key.
-/

namespace NewApi

open List

/-- `model:group:`, without the parts that are empty -/
def AffinityIdentity.start (i : AffinityIdentity) : List Char :=
  (if i.modelName = "" then [] else i.modelName.toList ++ [':']) ++
    if i.usingGroup = "" then [] else i.usingGroup.toList ++ [':']

variable {rule : AffinityRule} {i j : AffinityIdentity}

/-- The rule puts all three parts into the key. -/
def AffinityRule.IncludesAll (rule : AffinityRule) : Prop :=
  rule.includeRuleName ∧ rule.includeModelName ∧ rule.includeUsingGroup

theorem suffix_toList (hrule : rule.IncludesAll) : (buildChannelAffinityCacheKeySuffix rule i).toList =
    (if rule.name = "" then [] else rule.name.toList ++ [':']) ++ (i.start ++ i.affinityValue.toList) := by
  obtain ⟨hname, hmodel, hgroup⟩ := hrule
  rw [buildChannelAffinityCacheKeySuffix, AffinityIdentity.start]
  split_ifs <;> simp_all

theorem suffix_eq_iff (hrule : rule.IncludesAll) :
    buildChannelAffinityCacheKeySuffix rule i = buildChannelAffinityCacheKeySuffix rule j ↔
      i.start ++ i.affinityValue.toList = j.start ++ j.affinityValue.toList := by
  rw [← String.toList_inj, suffix_toList hrule, suffix_toList hrule, append_cancel_left_eq]

/-- The text under which the cache looks for a key: without the white space before it, and without the name space or
the colons before that. -/
def soughtText (key : List Char) : List Char :=
  let key := key.dropWhile isSpace
  if affinityNamespace.toList <+: key then key.drop affinityNamespace.length else key.dropWhile (· = ':')

/-- A value as `extractChannelAffinityValue` returns it, if there is one. -/
def AffinityIdentity.HasValue (i : AffinityIdentity) : Prop :=
  i.affinityValue ≠ "" ∧ trimSpace i.affinityValue = i.affinityValue

theorem AffinityIdentity.HasValue.last (h : i.HasValue) :
    ∃ xs x, i.affinityValue.toList = xs ++ [x] ∧ isSpace x = false := by
  have hne : i.affinityValue.toList ≠ [] := fun hnil => h.1 (String.toList_eq_nil_iff.1 hnil)
  refine ⟨_, _, (dropLast_append_getLast hne).symm, ?_⟩
  have htrim : i.affinityValue.toList = (i.affinityValue.toList.dropWhile isSpace).rdropWhile isSpace := by
    rw [← trimSpace_toList, h.2]
  have hlast := rdropWhile_last_not isSpace (i.affinityValue.toList.dropWhile isSpace) (htrim ▸ hne)
  simpa only [← htrim, Bool.not_eq_true] using hlast

theorem trimSpace_of_last {key : String} {xs : List Char} {x : Char} (hkey : key.toList = xs ++ [x])
    (hx : isSpace x = false) : (trimSpace key).toList = key.toList.dropWhile isSpace := by
  have hends : ∃ ys, key.toList.dropWhile isSpace = ys ++ [x] := by
    rw [hkey, dropWhile_append]
    split
    · exact ⟨[], by simp [hx]⟩
    · exact ⟨_, rfl⟩
  obtain ⟨ys, hys⟩ := hends
  rw [trimSpace_toList, hys, rdropWhile_concat_neg _ _ _ (by simp [hx])]

theorem fullKey_sought {key : String} {xs : List Char} {x : Char} (hkey : key.toList = xs ++ [x])
    (hx : isSpace x = false) : affinityFullKey key = affinityNamespace ++ String.ofList (soughtText key.toList) := by
  have htrim := trimSpace_of_last hkey hx
  have hne : trimSpace key ≠ "" := by
    intro hempty
    rw [hempty, hkey] at htrim
    have hall := dropWhile_eq_nil_iff.1 htrim.symm x (by simp)
    rw [hx] at hall
    cases hall
  unfold affinityFullKey soughtText
  simp only [hne, if_false, hasPrefix, isPrefixOf_iff_prefix, htrim]
  split_ifs with hspace
  · rw [← String.toList_inj, htrim]
    obtain ⟨rest, hrest⟩ := hspace
    rw [← hrest, String.toList_append, String.toList_ofList, ← String.length_toList, drop_left]
  · rfl

theorem fullKey_recorded {key : String} {xs : List Char} {x : Char} (hkey : key.toList = xs ++ [x])
    (hx : isSpace x = false) : affinityFullKey (affinityNamespace ++ key) = affinityNamespace ++ key := by
  have hlast : (affinityNamespace ++ key).toList = affinityNamespace.toList ++ xs ++ [x] := by simp [hkey]
  have hstart : (affinityNamespace ++ key).toList.dropWhile isSpace = affinityNamespace.toList ++ key.toList := by
    rw [String.toList_append]
    rfl
  rw [fullKey_sought hlast hx, soughtText, hstart, if_pos (prefix_append ..), ← String.length_toList, drop_left,
    String.ofList_toList]

/-- A rule whose name begins with a visible character other than a colon -/
def AffinityRule.Visible (rule : AffinityRule) : Prop :=
  ∃ c name, rule.name.toList = c :: name ∧ isSpace c = false ∧ c ≠ ':'

theorem soughtText_visible (hrule : rule.IncludesAll) (hname : rule.Visible)
    (hspace : ¬ affinityNamespace.toList <+: (buildChannelAffinityCacheKeySuffix rule j).toList) :
    soughtText (buildChannelAffinityCacheKeySuffix rule j).toList =
      (buildChannelAffinityCacheKeySuffix rule j).toList := by
  obtain ⟨c, name, hname, hvisible, hcolon⟩ := hname
  have hne : rule.name ≠ "" := by
    intro hempty
    rw [hempty] at hname
    cases hname
  obtain ⟨key, hkey⟩ : ∃ key, (buildChannelAffinityCacheKeySuffix rule j).toList = c :: key := by
    rw [suffix_toList hrule, if_neg hne, hname]
    exact ⟨_, rfl⟩
  rw [hkey] at hspace ⊢
  have hkept : (c :: key).dropWhile isSpace = c :: key := dropWhile_cons_of_neg (by simp [hvisible])
  rw [soughtText, hkept, if_neg hspace, dropWhile_cons_of_neg (by simpa using hcolon)]

/-- What is found for one identity after a record for another -/
theorem preferred_after_record (hrule : rule.IncludesAll) (hi : i.HasValue) (hj : j.HasValue) :
    (∀ (channelID : ℤ) (cache : AffinityCache),
        getPreferredChannelByAffinity rule j (recordChannelAffinity rule i channelID cache) =
          getPreferredChannelByAffinity rule j cache) ↔
      (buildChannelAffinityCacheKeySuffix rule i).toList ≠
        soughtText (buildChannelAffinityCacheKeySuffix rule j).toList := by
  have hends {k : AffinityIdentity} (hk : k.HasValue) : ∃ xs x,
      (buildChannelAffinityCacheKeySuffix rule k).toList = xs ++ [x] ∧ isSpace x = false := by
    obtain ⟨xs, x, hvalue, hx⟩ := hk.last
    exact ⟨_, x, by rw [suffix_toList hrule, hvalue, ← append_assoc, ← append_assoc], hx⟩
  obtain ⟨xs, x, hsuffix, hx⟩ := hends hi
  obtain ⟨ys, y, hsuffix', hy⟩ := hends hj
  simp only [getPreferredChannelByAffinity, recordChannelAffinity, fullKey_recorded hsuffix hx,
    fullKey_sought hsuffix' hy, hi.1, hj.1, false_or]
  have hnamed (text : String) : affinityNamespace ++ text ≠ "" := by
    intro h
    have hlist := congrArg String.toList h
    rw [String.toList_append] at hlist
    cases hlist
  simp only [hnamed, or_false, if_false]
  constructor
  · intro h heq
    have hone := h 1 fun _ => none
    rw [← heq, String.ofList_toList] at hone
    simp at hone
  · intro hne channelID cache
    split_ifs
    · rfl
    refine Function.update_of_ne (fun h => hne ?_) _ _
    rw [← (String.append_right_inj _).1 h, String.toList_ofList]

/-- **Identities are kept apart**: whatever the values are, two models and groups never have one key exactly if they are
the same or neither `model:group:` begins with the other, and an identity finds what another has recorded exactly if the
text that it is looked up under is the other's key. This text is its own key, if the rule's name begins with a visible
character and the key does not begin with the name space. -/
theorem affinity_identity_separate_iff (rule : AffinityRule) (hrule : rule.IncludesAll) (i j : AffinityIdentity) :
    ((∀ value value', buildChannelAffinityCacheKeySuffix rule { i with affinityValue := value } =
          buildChannelAffinityCacheKeySuffix rule { j with affinityValue := value' } →
        i.modelName = j.modelName ∧ i.usingGroup = j.usingGroup ∧ value = value') ↔
      i.modelName = j.modelName ∧ i.usingGroup = j.usingGroup ∨ ¬ i.start <+: j.start ∧ ¬ j.start <+: i.start) ∧
    (i.HasValue → j.HasValue → ((∀ (channelID : ℤ) (cache : AffinityCache),
        getPreferredChannelByAffinity rule j (recordChannelAffinity rule i channelID cache) =
          getPreferredChannelByAffinity rule j cache) ↔
      (buildChannelAffinityCacheKeySuffix rule i).toList ≠
        soughtText (buildChannelAffinityCacheKeySuffix rule j).toList)) ∧
    (rule.Visible → ¬ affinityNamespace.toList <+: (buildChannelAffinityCacheKeySuffix rule j).toList →
      soughtText (buildChannelAffinityCacheKeySuffix rule j).toList =
        (buildChannelAffinityCacheKeySuffix rule j).toList) := by
  refine ⟨⟨fun h => ?_, fun h value value' heq => ?_⟩, preferred_after_record hrule, soughtText_visible hrule⟩
  · by_contra hcon
    push Not at hcon
    obtain ⟨hdiff, hprefix⟩ := hcon
    -- the value makes up for the part that is missing
    have hshort : ¬ i.start <+: j.start := by
      rintro ⟨rest, hrest⟩
      have hsame := h (String.ofList rest) "" ((suffix_eq_iff hrule).2 (by simpa [AffinityIdentity.start] using hrest))
      exact hdiff hsame.1 hsame.2.1
    obtain ⟨rest, hrest⟩ := hprefix hshort
    have hsame := h "" (String.ofList rest)
      ((suffix_eq_iff hrule).2 (by simpa [AffinityIdentity.start] using hrest.symm))
    exact hdiff hsame.1 hsame.2.1
  · rw [suffix_eq_iff hrule] at heq
    change i.start ++ value.toList = j.start ++ value'.toList at heq
    rcases h with ⟨hmodel, hgroup⟩ | ⟨hij, hji⟩
    · have hstart : i.start = j.start := by rw [AffinityIdentity.start, AffinityIdentity.start, hmodel, hgroup]
      rw [hstart, append_cancel_left_eq, String.toList_inj] at heq
      exact ⟨hmodel, hgroup, heq⟩
    · have hj : j.start <+: i.start ++ value.toList := heq ▸ prefix_append j.start value'.toList
      rcases prefix_or_prefix_of_prefix (prefix_append i.start value.toList) hj with h | h
      · exact absurd h hij
      · exact absurd h hji

theorem affinity_identity_separate_groups :
    getPreferredChannelByAffinity ⟨"codex", true, true, true⟩ ⟨"gpt-5", "vip", "k"⟩
      (recordChannelAffinity ⟨"codex", true, true, true⟩ ⟨"llama:8b", "vip", "k"⟩ 7 fun _ => none) = none := by
  have hseparate := affinity_identity_separate_iff ⟨"codex", true, true, true⟩ ⟨rfl, rfl, rfl⟩ ⟨"llama:8b", "vip", "k"⟩
    ⟨"gpt-5", "vip", "k"⟩
  refine (hseparate.2.1 ⟨by decide, by decide⟩ ⟨by decide, by decide⟩).2 ?_ 7 _
  rw [hseparate.2.2 ⟨'c', _, rfl, by decide, by decide⟩ (by decide +kernel)]
  decide +kernel

/-- A colon in the model and one in the value: the key is `codex:llama:8b:vip:k` for both. -/
theorem identities_collide :
    getPreferredChannelByAffinity ⟨"codex", true, true, true⟩ ⟨"llama", "8b", "vip:k"⟩
      (recordChannelAffinity ⟨"codex", true, true, true⟩ ⟨"llama:8b", "vip", "k"⟩ 7 fun _ => none) = some 7 := by
  decide +kernel

end NewApi

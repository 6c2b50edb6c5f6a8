import NewApi.Spec.HeaderOverride
import NewApi.Proof.Levels

/-!
# Headers of one channel at another

`InitChannelMeta` replaces what a `RelayInfo` knows about a channel, but not the runtime override of an earlier
attempt. Every param override that gets through leaves one (`runtime_set`), which takes the place of the headers of
each later channel (`runtime_stays`), so the headers of a channel are sent to others (`earlier_headers_stay`).

If every earlier attempt has no param override or fails in it, a `RelayInfo` looks to the next attempt as a new one
does (`Untouched`, `header_override_isolated`).

A mapping that keeps declared tokens only is looked up with every token of the client, also with the control keys of
the mapping. Only these can bring others than the tokens of declared keys and appended ones (`declared_tokens_iff`).
-/

namespace NewApi

open List Option

variable {lib : JsonLib} {request : OverrideRequest} {info info' : OverrideInfo} {attempt : OverrideAttempt}

theorem headerName?_val {key : String} {name : HeaderName} (h : headerName? key = some name) :
    name.1 = normalizeHeaderContextKey key := by
  unfold headerName? at h
  split at h
  · exact nomatch h
  · rw [← some.inj h]

theorem sanitizeEntry_comm {target : HeaderMap} {a b : String × Json}
    (hne : normalizeHeaderContextKey a.1 ≠ normalizeHeaderContextKey b.1) :
    sanitizeEntry lib (sanitizeEntry lib target a) b = sanitizeEntry lib (sanitizeEntry lib target b) a := by
  unfold sanitizeEntry
  cases ha : headerName? a.1 with
  | none => simp only
  | some nameA =>
    cases hb : headerName? b.1 with
    | none => simp only
    | some nameB =>
      have hnames : nameA ≠ nameB := by
        intro heq
        rw [← headerName?_val ha, ← headerName?_val hb, heq] at hne
        exact hne rfl
      simp only
      cases headerValue nameA (lib.format a.2) with
      | none => simp only
      | some =>
        cases headerValue nameB (lib.format b.2) with
        | none => simp only
        | some => exact Function.update_comm hnames _ _ _

theorem sanitizeHeaderOverrideMap_perm {source source' : List (String × Json)} (hperm : source.Perm source')
    (hdistinct : (source.map fun entry => normalizeHeaderContextKey entry.1).Nodup) :
    sanitizeHeaderOverrideMap lib source = sanitizeHeaderOverrideMap lib source' := by
  apply hperm.foldl_eq'
  intro a ha b hb target
  by_cases heq : a = b
  · rw [heq]
  apply sanitizeEntry_comm
  intro hsame
  exact heq (inj_on_of_nodup_map hdistinct hb ha hsame.symm ▸ rfl)

section Apply

variable {channel : OverrideChannel} {body : Json} (hmeta : info.channelMeta = some channel)
include hmeta

theorem apply_nil (hnil : channel.paramOverride = []) :
    applyParamOverrideWithRelayInfo lib body info = (info, .ok body) := by
  unfold applyParamOverrideWithRelayInfo
  simp [hmeta, hnil, isEmpty_nil]

theorem apply_error {err : OverrideError} (hne : channel.paramOverride ≠ [])
    (herr : applyParamOverride lib body channel.paramOverride (buildParamOverrideContext lib info) = .error err) :
    applyParamOverrideWithRelayInfo lib body info = (info, .error err) := by
  have hnot : ¬ channel.paramOverride.isEmpty = true := by
    rw [List.isEmpty_iff]
    exact hne
  unfold applyParamOverrideWithRelayInfo
  simp only [hmeta, map_some, getD_some, if_neg hnot, herr]

theorem apply_ok {result : Json} {ctx : OverrideContext} (hne : channel.paramOverride ≠ [])
    (hok : applyParamOverride lib body channel.paramOverride (buildParamOverrideContext lib info) = .ok (result, ctx)) :
    applyParamOverrideWithRelayInfo lib body info = (syncRuntimeHeaderOverrideFromContext ctx info, .ok result) := by
  have hnot : ¬ channel.paramOverride.isEmpty = true := by
    rw [List.isEmpty_iff]
    exact hne
  unfold applyParamOverrideWithRelayInfo
  simp only [hmeta, map_some, getD_some, if_neg hnot, hok]

variable (lib body) in
theorem apply_cases : (applyParamOverrideWithRelayInfo lib body info).1 = info ∨
    channel.paramOverride ≠ [] ∧ (∃ result, (applyParamOverrideWithRelayInfo lib body info).2 = .ok result) ∧
      (applyParamOverrideWithRelayInfo lib body info).1.useRuntimeHeadersOverride = true := by
  by_cases hnil : channel.paramOverride = []
  · rw [apply_nil hmeta hnil]
    exact .inl rfl
  cases happly : applyParamOverride lib body channel.paramOverride (buildParamOverrideContext lib info) with
  | error =>
    rw [apply_error hmeta hnil happly]
    exact .inl rfl
  | ok r =>
    rw [apply_ok hmeta hnil happly]
    exact .inr ⟨hnil, ⟨r.1, rfl⟩, rfl⟩

end Apply

theorem runtime_set {result : Json} (hne : attempt.channel.paramOverride ≠ [])
    (hok : (overrideAttempt lib info attempt).2 = .ok result) :
    (overrideAttempt lib info attempt).1.useRuntimeHeadersOverride = true := by
  unfold overrideAttempt at hok ⊢
  generalize hready : (info.prepare attempt).initChannelMeta attempt.channel = ready at hok ⊢
  have hmeta : ready.channelMeta = some attempt.channel := by
    rw [← hready]
    rfl
  cases happly : applyParamOverride lib attempt.body attempt.channel.paramOverride
      (buildParamOverrideContext lib ready) with
  | error err =>
    rw [apply_error hmeta hne happly] at hok
    exact nomatch hok
  | ok r =>
    rw [apply_ok hmeta hne happly]
    rfl

theorem runtime_stays (hruntime : info.useRuntimeHeadersOverride = true) (hnone : attempt.channel.paramOverride = []) :
    (overrideAttempt lib info attempt).1.useRuntimeHeadersOverride = true ∧
      getEffectiveHeaderOverride lib (overrideAttempt lib info attempt).1 = getEffectiveHeaderOverride lib info := by
  have hsame : (overrideAttempt lib info attempt).1 = (info.prepare attempt).initChannelMeta attempt.channel := by
    unfold overrideAttempt
    rw [apply_nil rfl hnone]
  have hstill : ((info.prepare attempt).initChannelMeta attempt.channel).useRuntimeHeadersOverride = true := hruntime
  rw [hsame]
  refine ⟨hstill, ?_⟩
  unfold getEffectiveHeaderOverride
  rw [if_pos hruntime, if_pos hstill]
  rfl

/-- **Every later channel is sent the headers** of an attempt whose param override got through, as long as none has a
param override of its own. -/
theorem earlier_headers_stay {earlier later : List OverrideAttempt} {result : Json}
    (hne : attempt.channel.paramOverride ≠ [])
    (hok : (overrideAttempt lib (overrideRun lib request earlier) attempt).2 = .ok result)
    (hlater : ∀ a ∈ later, a.channel.paramOverride = []) :
    getEffectiveHeaderOverride lib (overrideRun lib request (earlier ++ attempt :: later)) =
      getEffectiveHeaderOverride lib (overrideRun lib request (earlier ++ [attempt])) := by
  have hruntime := runtime_set hne hok
  unfold overrideRun at hruntime ⊢
  rw [foldl_append, foldl_append, foldl_cons, foldl_cons, foldl_nil]
  generalize (overrideAttempt lib _ attempt).1 = info at hruntime ⊢
  induction later generalizing info with
  | nil => rfl
  | cons a later ih =>
    obtain ⟨hnone, hlater⟩ := forall_mem_cons.1 hlater
    obtain ⟨hstill, hsame⟩ := @runtime_stays lib _ _ hruntime hnone
    exact (ih hlater _ hstill).trans hsame

/-- The attempt has no param override, or fails in it. -/
def SilentAttempt (lib : JsonLib) (request : OverrideRequest) (attempt : OverrideAttempt) : Prop :=
  attempt.channel.paramOverride = [] ∨ ∃ err, (overrideAttempt lib (.fresh request) attempt).2 = .error err

structure Untouched (request : OverrideRequest) (info : OverrideInfo) : Prop where
  request : info.request = request
  runtime : info.runtimeHeadersOverride = fun _ => none
  unused : info.useRuntimeHeadersOverride = false

theorem Untouched.prepare (h : Untouched request info) (attempt : OverrideAttempt) :
    (info.prepare attempt).initChannelMeta attempt.channel =
      ((OverrideInfo.fresh request).prepare attempt).initChannelMeta attempt.channel := by
  obtain ⟨hrequest, hruntime, hunused⟩ := h
  unfold OverrideInfo.initChannelMeta OverrideInfo.prepare OverrideInfo.fresh
  rw [hrequest, hruntime, hunused]

theorem Untouched.attempt_eq (h : Untouched request info) (attempt : OverrideAttempt) :
    overrideAttempt lib info attempt = overrideAttempt lib (.fresh request) attempt := by
  unfold overrideAttempt
  rw [h.prepare]

theorem Untouched.fresh (request : OverrideRequest) : Untouched request (.fresh request) := ⟨rfl, rfl, rfl⟩

theorem Untouched.prepared (request : OverrideRequest) (attempt : OverrideAttempt) :
    Untouched request (((OverrideInfo.fresh request).prepare attempt).initChannelMeta attempt.channel) :=
  ⟨rfl, rfl, rfl⟩

theorem Untouched.next (h : Untouched request info) (hsilent : SilentAttempt lib request attempt) :
    Untouched request (overrideAttempt lib info attempt).1 := by
  rw [h.attempt_eq]
  unfold overrideAttempt
  rcases apply_cases lib attempt.body
    (show (((OverrideInfo.fresh request).prepare attempt).initChannelMeta attempt.channel).channelMeta = _ from rfl)
    with hsame | ⟨hne, ⟨result, hok⟩, -⟩
  · rw [hsame]
    exact .prepared request attempt
  -- it has got through, so it is not silent
  rcases hsilent with hnone | ⟨err, herr⟩
  · exact absurd hnone hne
  · exact nomatch hok.symm.trans herr

theorem Untouched.run {attempts : List OverrideAttempt} (hsilent : ∀ a ∈ attempts, SilentAttempt lib request a) :
    Untouched request (overrideRun lib request attempts) := by
  have hall : ∀ attempts : List OverrideAttempt, (∀ a ∈ attempts, SilentAttempt lib request a) → ∀ info,
      Untouched request info →
      Untouched request (attempts.foldl (fun info attempt => (overrideAttempt lib info attempt).1) info) := by
    intro attempts
    induction attempts with
    | nil => exact fun _ _ h => h
    | cons a as ih =>
      intro hsilent info h
      rw [foldl_cons]
      exact ih (fun b hb => hsilent b (mem_cons_of_mem _ hb)) _ (h.next (hsilent a mem_cons_self))
  exact hall attempts hsilent _ (.fresh request)

def OverrideAttempt.withHeaders (headers : List (String × Json)) (attempt : OverrideAttempt) : OverrideAttempt :=
  { attempt with channel := { attempt.channel with headersOverride := headers } }

theorem effective_withHeaders {headers : List (String × Json)}
    (hsame : sanitizeHeaderOverrideMap lib headers = sanitizeHeaderOverrideMap lib attempt.channel.headersOverride) :
    getEffectiveHeaderOverride lib (overrideAttempt lib info (attempt.withHeaders headers)).1 =
      getEffectiveHeaderOverride lib (overrideAttempt lib info attempt).1 := by
  have hbefore : getEffectiveHeaderOverride lib
        ((info.prepare (attempt.withHeaders headers)).initChannelMeta (attempt.withHeaders headers).channel) =
      getEffectiveHeaderOverride lib ((info.prepare attempt).initChannelMeta attempt.channel) := by
    unfold getEffectiveHeaderOverride
    simp only [OverrideInfo.initChannelMeta, OverrideInfo.prepare, OverrideAttempt.withHeaders, map_some,
      getD_some, hsame]
    rfl
  have hctx : buildParamOverrideContext lib
        ((info.prepare (attempt.withHeaders headers)).initChannelMeta (attempt.withHeaders headers).channel) =
      buildParamOverrideContext lib ((info.prepare attempt).initChannelMeta attempt.channel) := by
    unfold buildParamOverrideContext
    rw [hbefore]
    rfl
  unfold overrideAttempt
  generalize hready : (info.prepare attempt).initChannelMeta attempt.channel = ready at hbefore hctx ⊢
  generalize hready' : (info.prepare (attempt.withHeaders headers)).initChannelMeta
    (attempt.withHeaders headers).channel = ready' at hbefore hctx ⊢
  have hmeta : ready.channelMeta = some attempt.channel := by
    rw [← hready]
    rfl
  have hmeta' : ready'.channelMeta = some (attempt.withHeaders headers).channel := by
    rw [← hready']
    rfl
  have hparam : (attempt.withHeaders headers).channel.paramOverride = attempt.channel.paramOverride := rfl
  by_cases hnil : attempt.channel.paramOverride = []
  · rw [apply_nil hmeta hnil, apply_nil hmeta' (hparam.trans hnil)]
    exact hbefore
  cases happly : applyParamOverride lib attempt.body attempt.channel.paramOverride
      (buildParamOverrideContext lib ready) with
  | error err =>
    rw [apply_error hmeta hnil happly, apply_error hmeta' hnil (by rw [hctx]; exact happly)]
    exact hbefore
  | ok r =>
    rw [apply_ok hmeta hnil happly, apply_ok hmeta' hnil (by rw [hctx]; exact happly)]
    rfl

/-- **The headers of an attempt are those of its channel**, in any order of visiting them, if every earlier attempt
has no param override or fails in it. -/
theorem header_override_isolated {earlier : List OverrideAttempt} {last : OverrideAttempt}
    {headers : List (String × Json)} (hsilent : ∀ attempt ∈ earlier, SilentAttempt lib request attempt)
    (hdistinct : (headers.map fun entry => normalizeHeaderContextKey entry.1).Nodup)
    (horder : headers.Perm last.channel.headersOverride) :
    getEffectiveHeaderOverride lib (overrideRun lib request (earlier ++ [last])) =
      getEffectiveHeaderOverride lib (overrideRun lib request [last.withHeaders headers]) := by
  have huntouched : Untouched request (overrideRun lib request earlier) := .run hsilent
  have hlast : overrideRun lib request (earlier ++ [last]) = (overrideAttempt lib (.fresh request) last).1 := by
    unfold overrideRun at huntouched ⊢
    rw [foldl_append, foldl_cons, foldl_nil, huntouched.attempt_eq]
  have hsame : sanitizeHeaderOverrideMap lib headers = sanitizeHeaderOverrideMap lib last.channel.headersOverride :=
    sanitizeHeaderOverrideMap_perm horder hdistinct
  rw [hlast]
  exact (effective_withHeaders hsame).symm

def sampleLib : JsonLib where
  get _ _ := none
  getContext _ _ := none
  set body _ _ := .ok body
  processNegativeIndex _ path := path
  text _ := ""
  format value := value.str?.getD ""
  parse _ := none
  parse_size := nofun
  applyBody _ _ body _ := .ok body

def sampleOverrideRequest : OverrideRequest := ⟨1, "default", "default", "gpt", "/v1/chat/completions", [], false⟩

def sampleAttempt (authorization : String) (paramOverride : List (String × Json)) (retryIndex : ℕ) :
    OverrideAttempt where
  channel := ⟨paramOverride, [("Authorization", .str authorization)], "gpt"⟩
  usingGroup := "default"
  retryIndex := retryIndex
  lastError := none
  body := .obj []

def sampleOperation (fields : List (String × Json)) : List (String × Json) := [("operations", .arr [.obj fields])]

def authorizationHeader : HeaderName := ⟨"authorization", by decide +kernel⟩

theorem silent_of_isOk (h : (overrideAttempt lib (.fresh request) attempt).2.isOk = false) :
    SilentAttempt lib request attempt := by
  cases hresult : (overrideAttempt lib (.fresh request) attempt).2 with
  | error err => exact .inr ⟨err, hresult⟩
  | ok =>
    rw [hresult] at h
    exact nomatch h

theorem header_override_isolated_after_errors :
    let earlier := [sampleAttempt "Bearer one" [] 0,
      sampleAttempt "Bearer two" (sampleOperation [("mode", .str "return_error"), ("value", .str "busy")]) 1]
    let last := sampleAttempt "Bearer three"
      (sampleOperation [("mode", .str "copy_header"), ("from", .str "Authorization"), ("to", .str "X-Key")]) 2
    getEffectiveHeaderOverride sampleLib (overrideRun sampleLib sampleOverrideRequest (earlier ++ [last]))
        authorizationHeader = some "Bearer three" ∧
      getEffectiveHeaderOverride sampleLib (overrideRun sampleLib sampleOverrideRequest (earlier ++ [last])) =
        getEffectiveHeaderOverride sampleLib
          (overrideRun sampleLib sampleOverrideRequest [last.withHeaders last.channel.headersOverride]) := by
  refine ⟨by decide +kernel, header_override_isolated ?_ (by decide +kernel) (.refl _)⟩
  intro attempt hattempt
  simp only [mem_cons, not_mem_nil, or_false] at hattempt
  rcases hattempt with rfl | rfl
  · exact .inl rfl
  · exact silent_of_isOk (by decide +kernel)

theorem earlier_headers_stay_twice :
    let first := sampleAttempt "Bearer one" [("temperature", .num 0)] 0
    let later := [sampleAttempt "Bearer two" [] 1, sampleAttempt "Bearer three" [] 2]
    getEffectiveHeaderOverride sampleLib (overrideRun sampleLib sampleOverrideRequest ([] ++ first :: later)) =
      getEffectiveHeaderOverride sampleLib (overrideRun sampleLib sampleOverrideRequest ([] ++ [first])) :=
  earlier_headers_stay nofun (by rfl) (by decide +kernel)

/-- The second channel has no param override, and is sent the credentials of the first one. -/
theorem earlier_headers_sent :
    let first := sampleAttempt "Bearer one" [("temperature", .num 0)] 0
    let second := sampleAttempt "Bearer two" [] 1
    getEffectiveHeaderOverride sampleLib (overrideRun sampleLib sampleOverrideRequest [first, second])
        authorizationHeader = some "Bearer one" ∧
      getEffectiveHeaderOverride sampleLib (overrideRun sampleLib sampleOverrideRequest [second])
        authorizationHeader = some "Bearer two" := by
  decide +kernel

/-- `token` is one of those that take the place of `key`. -/
def MapsTo (lib : JsonLib) (mapping : List (String × Json)) (key token : String) : Prop :=
  ∃ raw tokens, mapping.lookup key = some raw ∧ parseHeaderReplacementTokens lib raw = .ok tokens ∧ token ∈ tokens

def controlKeys : List String := ["*", "$append", "$keep_only_declared"]

def sourceTokens (ctx : OverrideContext) (name : HeaderName) : List String :=
  (getHeaderValueFromContext ctx name.1).elim [] splitHeaderListValue

/-- A token for a declared key that the source has, or an appended one -/
def Declared (lib : JsonLib) (ctx : OverrideContext) (name : HeaderName) (mapping : List (String × Json))
    (token : String) : Prop :=
  (∃ key ∈ sourceTokens ctx name, key ∉ controlKeys ∧ MapsTo lib mapping key token) ∨ MapsTo lib mapping "$append" token

section Declared

variable {ctx : OverrideContext} {name : HeaderName} {mapping : List (String × Json)} {value : String}

theorem mapsTo_iff {key token : String} {raw : Json} {tokens : List String} (hraw : mapping.lookup key = some raw)
    (h : parseHeaderReplacementTokens lib raw = .ok tokens) : MapsTo lib mapping key token ↔ token ∈ tokens := by
  refine ⟨?_, fun hmem => ⟨raw, tokens, hraw, h, hmem⟩⟩
  rintro ⟨raw', tokens', hraw', h', hmem⟩
  obtain rfl := some.inj (hraw.symm.trans hraw')
  obtain rfl := Except.ok.inj (h.symm.trans h')
  exact hmem

theorem not_mapsTo {key token : String} (hraw : mapping.lookup key = none) : ¬MapsTo lib mapping key token := by
  rintro ⟨raw, -, hraw', -⟩
  exact nomatch hraw.symm.trans hraw'

theorem replaceHeaderToken_mem {key token : String} {tokens : List String}
    (h : replaceHeaderToken lib mapping true key = .ok tokens) : token ∈ tokens ↔ MapsTo lib mapping key token := by
  unfold replaceHeaderToken at h
  simp only [if_true, or_none] at h
  cases hraw : mapping.lookup key with
  | none =>
    simp only [hraw, Except.ok.injEq] at h
    rw [← h]
    exact iff_of_false not_mem_nil (not_mapsTo hraw)
  | some raw =>
    rw [hraw] at h
    exact (mapsTo_iff hraw h).symm

theorem replaceHeaderTokens_mem {keys : List String} {replaced : List (List String)} {token : String}
    (h : keys.mapM (replaceHeaderToken lib mapping true) = .ok replaced) :
    token ∈ replaced.flatten ↔ ∃ key ∈ keys, MapsTo lib mapping key token := by
  induction keys generalizing replaced with
  | nil =>
    cases h
    simp
  | cons key keys ih =>
    rw [mapM_cons] at h
    obtain ⟨tokens, hfirst, h⟩ := bind_eq_ok h
    obtain ⟨rest, hrest, h⟩ := bind_eq_ok h
    obtain rfl := Except.ok.inj h
    rw [flatten_cons, mem_append, replaceHeaderToken_mem hfirst, ih hrest, exists_mem_cons_iff]

/-- Every token of the source is looked up, whether it is declared or a control key. -/
theorem resolveHeaderTokens_mem {tokens : List String} {token : String}
    (hkeep : mapping.lookup "$keep_only_declared" = some (.bool true))
    (h : resolveHeaderTokens lib ctx name mapping = .ok tokens) : token ∈ tokens ↔
      (∃ key ∈ sourceTokens ctx name, MapsTo lib mapping key token) ∨ MapsTo lib mapping "$append" token := by
  unfold resolveHeaderTokens at h
  simp only [hkeep] at h
  split at h
  · cases h
  cases happend : mapping.lookup "$append" with
  | none =>
    rw [happend] at h
    obtain ⟨appended, happended, h⟩ := bind_eq_ok h
    obtain ⟨replaced, hreplaced, h⟩ := bind_eq_ok h
    obtain rfl := Except.ok.inj h
    obtain rfl := Except.ok.inj happended
    rw [mem_eraseDups, append_nil, replaceHeaderTokens_mem hreplaced]
    exact (or_iff_left (not_mapsTo happend)).symm
  | some raw =>
    rw [happend] at h
    obtain ⟨appended, happended, h⟩ := bind_eq_ok h
    obtain ⟨replaced, hreplaced, h⟩ := bind_eq_ok h
    obtain rfl := Except.ok.inj h
    rw [mem_eraseDups, mem_append, replaceHeaderTokens_mem hreplaced, mapsTo_iff happend happended]
    rfl

/-- **Only declared tokens** are in the header exactly if the tokens of the control keys `*` and `$keep_only_declared`
that are in the source, if there are any, are such tokens as well. -/
theorem declared_tokens_iff {headerName : String} {keepOrigin : Bool} (hname : headerName? headerName = some name)
    (hkeep : mapping.lookup "$keep_only_declared" = some (.bool true))
    (hwrites : (keepOrigin && (ctx.headerOverride name).any (trimSpace · ≠ "")) = false)
    (hset : (setHeaderOverrideInContext lib ctx headerName (.obj mapping) keepOrigin).toOption.bind
      (·.headerOverride name) = some value) :
    ∃ tokens, resolveHeaderTokens lib ctx name mapping = .ok tokens ∧ value = ",".intercalate tokens ∧
      ((∀ token ∈ tokens, Declared lib ctx name mapping token) ↔
        ∀ key ∈ sourceTokens ctx name, key = "*" ∨ key = "$keep_only_declared" →
          ∀ token, MapsTo lib mapping key token → Declared lib ctx name mapping token) := by
  have hresolved : resolveHeaderOverrideValueByMapping lib ctx name mapping = .ok (some value) := by
    simp only [setHeaderOverrideInContext, hname, hwrites, resolveHeaderOverrideValue] at hset
    cases hresult : resolveHeaderOverrideValueByMapping lib ctx name mapping with
    | error => simp [hresult, bind, Except.bind, Except.toOption] at hset
    | ok => simpa [hresult, bind, Except.bind, pure, Except.pure, Except.toOption] using hset
  obtain ⟨tokens, htokens, hvalue⟩ := bind_eq_ok hresolved
  refine ⟨tokens, htokens, ?_, fun h key hkey _ token hmaps => ?_, fun h token htoken => ?_⟩
  · have hjoined := Except.ok.inj hvalue
    split at hjoined
    · cases hjoined
    · exact (some.inj hjoined).symm
  · exact h token ((resolveHeaderTokens_mem hkeep htokens).2 (.inl ⟨key, hkey, hmaps⟩))
  rcases (resolveHeaderTokens_mem hkeep htokens).1 htoken with ⟨key, hkey, hmaps⟩ | happend
  · by_cases hcontrol : key = "*" ∨ key = "$keep_only_declared"
    · exact h key hkey hcontrol token hmaps
    by_cases happended : key = "$append"
    · exact .inr (happended ▸ hmaps)
    refine .inl ⟨key, hkey, ?_, hmaps⟩
    simp only [controlKeys, mem_cons, not_mem_nil, or_false, happended, false_or]
    exact hcontrol
  · exact .inr happend

end Declared

def sampleHeaderContext (value : String) : OverrideContext := ⟨[], fun _ => some value, fun _ => none⟩

def sampleMapping : List (String × Json) :=
  [("$keep_only_declared", .bool true), ("*", .str "any"), ("a", .str "b"), ("$append", .str "c")]

theorem declared_tokens_sample :
    ∃ tokens,
      resolveHeaderTokens sampleLib (sampleHeaderContext "a, d") authorizationHeader sampleMapping = .ok tokens ∧
      "b,c" = ",".intercalate tokens ∧
      ∀ token ∈ tokens, Declared sampleLib (sampleHeaderContext "a, d") authorizationHeader sampleMapping token := by
  obtain ⟨tokens, htokens, hvalue, hiff⟩ :=
    declared_tokens_iff (by decide +kernel : headerName? "Authorization" = some authorizationHeader) rfl
      (Bool.false_and _) (by decide +kernel : (setHeaderOverrideInContext sampleLib (sampleHeaderContext "a, d")
        "Authorization" (.obj sampleMapping) false).toOption.bind (·.headerOverride authorizationHeader) = some "b,c")
  have hplain : ∀ key ∈ sourceTokens (sampleHeaderContext "a, d") authorizationHeader,
      ¬(key = "*" ∨ key = "$keep_only_declared") := by decide +kernel
  exact ⟨tokens, htokens, hvalue, hiff.2 fun key hkey hcontrol => absurd hcontrol (hplain key hkey)⟩

/-- The client sends `*`, and the header has the tokens of the wildcard. -/
theorem wildcard_sent :
    sourceTokens (sampleHeaderContext "*") authorizationHeader = ["*"] ∧
      (setHeaderOverrideInContext sampleLib (sampleHeaderContext "*") "Authorization" (.obj sampleMapping)
        false).toOption.bind (·.headerOverride authorizationHeader) = some "any,c" := by
  decide +kernel

end NewApi

import NewApi.Spec.Distribute
import Mathlib.Data.Rat.Defs
import Mathlib.Logic.Function.Basic

/-!
# Header overrides

`relay/common/override.go`. A channel can set headers of its requests, and its param override can have operations that
read and write these headers. They work on a context of the request, and what is left in it becomes the runtime
override of the `RelayInfo`. What `gjson`, `sjson` and `fmt` do, and the operations that change the body only, is a
parameter (`JsonLib`).
-/

namespace NewApi

inductive Json
  | null
  | bool (b : Bool)
  | num (q : ℚ)
  | str (s : String)
  | arr (items : List Json)
  | obj (fields : List (String × Json))

namespace Json

def str? : Json → Option String
  | .str s => some s
  | _ => none

def bool? : Json → Option Bool
  | .bool b => some b
  | _ => none

mutual

/-- No more than the length of a text for it. -/
def size : Json → ℕ
  | .str s => s.length + 1
  | .arr items => sizeItems items + 1
  | .obj fields => sizeFields fields + 1
  | _ => 1

def sizeItems : List Json → ℕ
  | [] => 0
  | item :: items => item.size + sizeItems items

def sizeFields : List (String × Json) → ℕ
  | [] => 0
  | (_, value) :: fields => value.size + sizeFields fields

end

theorem size_lookup {fields : List (String × Json)} {key : String} {value : Json}
    (h : fields.lookup key = some value) : value.size < (Json.obj fields).size := by
  have hle : value.size ≤ sizeFields fields := by
    induction fields with
    | nil => exact nomatch h
    | cons field fields ih =>
      obtain ⟨k, v⟩ := field
      rw [List.lookup_cons] at h
      unfold sizeFields
      split at h
      · cases h
        omega
      · have hrest := ih h
        omega
  rw [size.eq_def (.obj fields)]
  simp only
  omega

end Json

def normalizeHeaderContextKey (key : String) : String := trimSpace key.toLower

theorem toLower_toLower (c : Char) : c.toLower.toLower = c.toLower := by
  unfold Char.toLower
  split
  case isTrue hupper =>
    rw [dif_neg]
    intro hagain
    have hA := hupper.1
    have hZ := hagain.2
    have hZ' := hupper.2
    simp only [UInt32.le_iff_toNat_le, UInt32.toNat_add, ge_iff_le] at hA hZ hZ'
    have hdiff : ('a'.val - 'A'.val).toNat = 32 := by decide
    have hfirst : 'A'.val.toNat = 65 := by decide
    have hlast : 'Z'.val.toNat = 90 := by decide
    omega
  case isFalse => rfl

theorem normalizeHeaderContextKey_idem (key : String) :
    normalizeHeaderContextKey (normalizeHeaderContextKey key) = normalizeHeaderContextKey key := by
  have hlower : (normalizeHeaderContextKey key).toLower = normalizeHeaderContextKey key := by
    rw [← String.toList_inj]
    unfold normalizeHeaderContextKey String.toLower
    rw [String.toList_map, trimSpace_toList, String.toList_map]
    conv_rhs => rw [← List.map_id (List.rdropWhile _ _)]
    apply List.map_congr_left
    intro c hc
    have hmem := ( List.rdropWhile_prefix isSpace _).subset hc
    have hmem' := (List.dropWhile_suffix isSpace).subset hmem
    obtain ⟨c', -, rfl⟩ := List.mem_map.1 hmem'
    exact toLower_toLower c'
  unfold normalizeHeaderContextKey at hlower ⊢
  rw [hlower, trimSpace_trimSpace]

abbrev HeaderName : Type := { name : String // normalizeHeaderContextKey name = name ∧ name ≠ "" }

def headerName? (key : String) : Option HeaderName :=
  if h : normalizeHeaderContextKey key = "" then none
  else some ⟨normalizeHeaderContextKey key, normalizeHeaderContextKey_idem key, h⟩

/-- Headers with their values, as `header_override` and `request_headers` of a context hold them. -/
abbrev HeaderMap : Type := HeaderName → Option String

def isHeaderPassthroughRuleKeyForOverride (key : String) : Bool :=
  key = "*" || hasPrefix key "re:" || hasPrefix key "regex:"

def headerValue (name : HeaderName) (text : String) : Option String :=
  let value := trimSpace text
  if value = "" then if isHeaderPassthroughRuleKeyForOverride name.1 then some "" else none
  else some value

def HeaderMap.sanitize (headers : HeaderMap) : HeaderMap := fun name => (headers name).bind (headerValue name)

structure ConditionOperation where
  (path mode : String)
  value : Json
  (invert passMissingKey : Bool)

structure ParamOperation where
  (path mode : String)
  /-- `null` if there is none -/
  value : Json
  keepOrigin : Bool
  (opFrom opTo : String)
  conditions : List ConditionOperation
  logic : String

inductive BodyMode
  | delete | set | move | copy | prepend | append | trimPrefix | trimSuffix | ensurePrefix | ensureSuffix
  | trimSpace | toLower | toUpper | replace | regexReplace | pruneObjects
  deriving DecidableEq, Repr

inductive OperationMode
  | body (mode : BodyMode)
  | returnError | setHeader | deleteHeader | copyHeader | moveHeader | passHeaders | syncFields | unknown
  deriving DecidableEq, Repr

def OperationMode.ofString (mode : String) : OperationMode :=
  match mode with
  | "delete" => .body .delete
  | "set" => .body .set
  | "move" => .body .move
  | "copy" => .body .copy
  | "prepend" => .body .prepend
  | "append" => .body .append
  | "trim_prefix" => .body .trimPrefix
  | "trim_suffix" => .body .trimSuffix
  | "ensure_prefix" => .body .ensurePrefix
  | "ensure_suffix" => .body .ensureSuffix
  | "trim_space" => .body .trimSpace
  | "to_lower" => .body .toLower
  | "to_upper" => .body .toUpper
  | "replace" => .body .replace
  | "regex_replace" => .body .regexReplace
  | "prune_objects" => .body .pruneObjects
  | "return_error" => .returnError
  | "set_header" => .setHeader
  | "delete_header" => .deleteHeader
  | "copy_header" => .copyHeader
  | "move_header" => .moveHeader
  | "pass_headers" => .passHeaders
  | "sync_fields" => .syncFields
  | _ => .unknown

def parseConditionOperations : Json → Option (List ConditionOperation)
  | .obj fields =>
    let conditions := fields.filterMap fun field =>
      let path := trimSpace field.1
      if path = "" then none else some ⟨path, "full", field.2, false, false⟩
    if conditions.isEmpty then none else some conditions
  | .arr items => items.mapM fun
    | .obj fields =>
      let path := ((fields.lookup "path").bind Json.str?).getD ""
      let mode := ((fields.lookup "mode").bind Json.str?).getD ""
      if trimSpace path = "" || trimSpace mode = "" then none
      else some ⟨path, mode, (fields.lookup "value").getD .null, ((fields.lookup "invert").bind Json.bool?).getD false,
        ((fields.lookup "pass_missing_key").bind Json.bool?).getD false⟩
    | _ => none
  | _ => none

def parseOperation : Json → Option ParamOperation
  | .obj fields => do
    let mode ← (fields.lookup "mode").bind Json.str?
    let conditions ← match fields.lookup "conditions" with
      | none => some []
      | some raw => parseConditionOperations raw
    some {
      path := ((fields.lookup "path").bind Json.str?).getD ""
      mode := mode
      value := (fields.lookup "value").getD .null
      keepOrigin := ((fields.lookup "keep_origin").bind Json.bool?).getD false
      opFrom := ((fields.lookup "from").bind Json.str?).getD ""
      opTo := ((fields.lookup "to").bind Json.str?).getD ""
      conditions := conditions
      logic := ((fields.lookup "logic").bind Json.str?).getD "OR" }
  | _ => none

def tryParseOperations (paramOverride : List (String × Json)) : Option (List ParamOperation) :=
  match paramOverride.lookup "operations" with
  | some (.arr items) => items.mapM parseOperation
  | _ => none

def buildLegacyParamOverride (paramOverride : List (String × Json)) : List (String × Json) :=
  paramOverride.filter fun field => (trimSpace field.1).toLower ≠ "operations"

/-- What `BuildParamOverrideContext` puts together: the headers, and what else operations can ask for. -/
structure OverrideContext where
  facts : List (String × Json)
  (requestHeaders headerOverride : HeaderMap)

inductive OverrideError
  | message (text : String)
  | headerNotFound (name : String)
  /-- `ParamOverrideReturnError` with this value -/
  | returned (value : Json)
  | operationFailed (mode : String) (err : OverrideError)

/-- What the source takes from `gjson`, `sjson`, `encoding/json` and `fmt`, and its operations on the body. -/
structure JsonLib where
  /-- `gjson.GetBytes` -/
  get : Json → String → Option Json
  /-- `gjson.Get` of the context -/
  getContext : OverrideContext → String → Option Json
  /-- `sjson.SetBytes` -/
  set : Json → String → Json → Except String Json
  processNegativeIndex : Json → String → String
  /-- `String` of a result of `gjson` -/
  text : Json → String
  /-- `fmt.Sprintf("%v", value)` -/
  format : Json → String
  parse : String → Option Json
  parse_size : ∀ text value, parse text = some value → value.size < text.length
  /-- an operation on the body, for the paths that it resolves to -/
  applyBody : BodyMode → ParamOperation → Json → OverrideContext → Except String Json

variable (lib : JsonLib)

def sanitizeEntry (target : HeaderMap) (entry : String × Json) : HeaderMap :=
  match headerName? entry.1 with
  | none => target
  | some name => match headerValue name (lib.format entry.2) with
    | none => target
    | some value => Function.update target name (some value)

/-- `sanitizeHeaderOverrideMap` of what a channel has, in the order in which it is visited. -/
def sanitizeHeaderOverrideMap (source : List (String × Json)) : HeaderMap :=
  source.foldl (sanitizeEntry lib) fun _ => none

def buildRequestHeadersContext (headers : List (String × String)) : HeaderMap :=
  headers.foldl (fun target header =>
    match headerName? header.1 with
    | none => target
    | some name =>
      if trimSpace header.2 = "" then target else Function.update target name (some (trimSpace header.2))) fun _ => none

def compareEqual (jsonValue targetValue : Json) : Except OverrideError Bool :=
  match jsonValue, targetValue with
  | .null, .null => .ok true
  | .null, _ => .ok false
  | _, .null => .ok false
  | .bool a, .bool b => .ok (a == b)
  | .num a, .num b => .ok (a == b)
  | .str a, .str b => .ok (a == b)
  | .arr a, .arr b => .ok (lib.text (.arr a) == lib.text (.arr b))
  | .arr a, .obj b => .ok (lib.text (.arr a) == lib.text (.obj b))
  | .obj a, .arr b => .ok (lib.text (.obj a) == lib.text (.arr b))
  | .obj a, .obj b => .ok (lib.text (.obj a) == lib.text (.obj b))
  | _, _ => .error (.message "compare for different types")

def compareNumeric (jsonValue targetValue : Json) (operator : ℚ → ℚ → Bool) : Except OverrideError Bool :=
  match jsonValue, targetValue with
  | .num a, .num b => .ok (operator a b)
  | _, _ => .error (.message "numeric comparison requires both values to be numbers")

def compareGjsonValues (jsonValue targetValue : Json) (mode : String) : Except OverrideError Bool :=
  match mode with
  | "full" => compareEqual lib jsonValue targetValue
  | "prefix" => .ok (hasPrefix (lib.text jsonValue) (lib.text targetValue))
  | "suffix" => .ok (hasSuffix (lib.text jsonValue) (lib.text targetValue))
  | "contains" => .ok (containsText (lib.text jsonValue) (lib.text targetValue))
  | "gt" => compareNumeric jsonValue targetValue fun a b => decide (b < a)
  | "gte" => compareNumeric jsonValue targetValue fun a b => decide (b ≤ a)
  | "lt" => compareNumeric jsonValue targetValue fun a b => decide (a < b)
  | "lte" => compareNumeric jsonValue targetValue fun a b => decide (a ≤ b)
  | _ => .error (.message ("unsupported comparison mode: " ++ mode))

def checkSingleCondition (body : Json) (ctx : OverrideContext) (condition : ConditionOperation) :
    Except OverrideError Bool :=
  match (lib.get body (lib.processNegativeIndex body condition.path)).or (lib.getContext ctx condition.path) with
  | none => .ok condition.passMissingKey
  | some value => do
    let result ← compareGjsonValues lib value condition.value condition.mode.toLower
    return if condition.invert then !result else result

def checkConditions (body : Json) (ctx : OverrideContext) (conditions : List ConditionOperation) (logic : String) :
    Except OverrideError Bool :=
  if conditions.isEmpty then .ok true
  else do
    let results ← conditions.mapM (checkSingleCondition lib body ctx)
    return if logic.toUpper = "AND" then results.all id else results.any id

def getHeaderValueFromContext (ctx : OverrideContext) (headerName : String) : Option String :=
  (headerName? headerName).bind fun name =>
    let value (headers : HeaderMap) := ((headers name).map trimSpace).filter (· ≠ "")
    (value ctx.headerOverride).or (value ctx.requestHeaders)

def splitHeaderListValue (raw : String) : List String :=
  (splitText ',' raw).filterMap fun item =>
    let token := trimSpace item
    if token = "" then none else some token

mutual

def parseHeaderReplacementTokens : Json → Except OverrideError (List String)
  | .null => .ok []
  | .str raw => .ok (splitHeaderListValue raw)
  | .arr items => do
    let tokens ← parseHeaderReplacementItems items
    return tokens.eraseDups
  | .obj _ => .error (.message "header replacement value must be string, array or null")
  | .bool b =>
    let token := trimSpace (lib.format (.bool b))
    .ok (if token = "" then [] else [token])
  | .num q =>
    let token := trimSpace (lib.format (.num q))
    .ok (if token = "" then [] else [token])

def parseHeaderReplacementItems : List Json → Except OverrideError (List String)
  | [] => .ok []
  | item :: items => do
    let tokens ← parseHeaderReplacementTokens item
    let rest ← parseHeaderReplacementItems items
    return tokens ++ rest

end

def replaceHeaderToken (mapping : List (String × Json)) (keepOnlyDeclared : Bool) (token : String) :
    Except OverrideError (List String) :=
  let wildcard := if keepOnlyDeclared then none else mapping.lookup "*"
  match (mapping.lookup token).or wildcard with
  | none => .ok (if keepOnlyDeclared then [] else [token])
  | some replacement => parseHeaderReplacementTokens lib replacement

/-- `resultTokens` of `resolveHeaderOverrideValueByMapping` -/
def resolveHeaderTokens (ctx : OverrideContext) (name : HeaderName) (mapping : List (String × Json)) :
    Except OverrideError (List String) := do
  if mapping.isEmpty then throw (.message "header value mapping cannot be empty")
  let appendTokens ← match mapping.lookup "$append" with
    | none => pure []
    | some raw => parseHeaderReplacementTokens lib raw
  let keepOnlyDeclared := ((mapping.lookup "$keep_only_declared").bind Json.bool?).getD false
  let sourceTokens := (getHeaderValueFromContext ctx name.1).elim [] splitHeaderListValue
  let replaced ← sourceTokens.mapM (replaceHeaderToken lib mapping keepOnlyDeclared)
  return (replaced.flatten ++ appendTokens).eraseDups

def resolveHeaderOverrideValueByMapping (ctx : OverrideContext) (name : HeaderName) (mapping : List (String × Json)) :
    Except OverrideError (Option String) := do
  let resultTokens ← resolveHeaderTokens lib ctx name mapping
  return if resultTokens.isEmpty then none else some (",".intercalate resultTokens)

def resolveHeaderOverrideValue (ctx : OverrideContext) (name : HeaderName) (value : Json) :
    Except OverrideError (Option String) :=
  match value with
  | .null => .error (.message "header value is required")
  | .obj mapping => resolveHeaderOverrideValueByMapping lib ctx name mapping
  | value =>
    let headerValue := trimSpace (lib.format value)
    .ok (if headerValue = "" then none else some headerValue)

def setHeaderOverrideInContext (ctx : OverrideContext) (headerName : String) (value : Json) (keepOrigin : Bool) :
    Except OverrideError OverrideContext :=
  match headerName? headerName with
  | none => .error (.message "header name is required")
  | some name =>
    if keepOrigin && (ctx.headerOverride name).any (trimSpace · ≠ "") then .ok ctx
    else do
      let resolved ← resolveHeaderOverrideValue lib ctx name value
      return { ctx with headerOverride := Function.update ctx.headerOverride name resolved }

def deleteHeaderOverrideInContext (ctx : OverrideContext) (headerName : String) :
    Except OverrideError OverrideContext :=
  match headerName? headerName with
  | none => .error (.message "header name is required")
  | some name => .ok { ctx with headerOverride := Function.update ctx.headerOverride name none }

def copyHeaderInContext (ctx : OverrideContext) (fromHeader toHeader : String) (keepOrigin : Bool) :
    Except OverrideError OverrideContext :=
  match headerName? fromHeader, headerName? toHeader with
  | some source, some target =>
    match getHeaderValueFromContext ctx source.1 with
    | none => .error (.headerNotFound source.1)
    | some value => setHeaderOverrideInContext lib ctx target.1 (.str value) keepOrigin
  | _, _ => .error (.message "copy_header from/to is required")

def moveHeaderInContext (ctx : OverrideContext) (fromHeader toHeader : String) (keepOrigin : Bool) :
    Except OverrideError OverrideContext :=
  match headerName? fromHeader, headerName? toHeader with
  | some source, some target => do
    let ctx ← copyHeaderInContext lib ctx source.1 target.1 keepOrigin
    if source = target then return ctx else deleteHeaderOverrideInContext ctx source.1
  | _, _ => .error (.message "move_header from/to is required")

def orKeep (ctx : OverrideContext) : Except OverrideError OverrideContext → Except OverrideError OverrideContext
  | .error (.headerNotFound _) => .ok ctx
  | result => result

/-- The names in a list, each once; none of them is an error. -/
def headerNames (values : List String) : Except OverrideError (List HeaderName) :=
  let names := (values.filterMap headerName?).eraseDups
  if names.isEmpty then .error (.message "pass_headers value is invalid") else .ok names

/-- A string can be the text of an array or object, which is shorter than the text. -/
def parseHeaderPassThroughNames (value : Json) : Except OverrideError (List HeaderName) :=
  match value with
  | .null => .error (.message "pass_headers value is required")
  | .str raw =>
    let trimmed := trimSpace raw
    if trimmed = "" then .error (.message "pass_headers value is required")
    else if hasPrefix trimmed "[" || hasPrefix trimmed "\x7b" then
      match _hparse : lib.parse trimmed with
      | some parsed => parseHeaderPassThroughNames parsed
      | none => headerNames (splitText ',' trimmed)
    else headerNames (splitText ',' trimmed)
  | .arr items => headerNames (items.map lib.format)
  | .obj fields =>
    let candidates (key : String) : List HeaderName :=
      match _hlookup : fields.lookup key with
      | none => []
      | some raw => match parseHeaderPassThroughNames raw with
        | .ok names => names
        | .error _ => []
    headerNames ((candidates "headers" ++ candidates "names" ++ candidates "header").map Subtype.val)
  | _ => .error (.message "pass_headers value must be string, array or object")
termination_by value.size
decreasing_by
  · have hsize := lib.parse_size (trimSpace raw) parsed _hparse
    have hlength := trimSpace_length raw
    have hstr : (Json.str raw).size = raw.length + 1 := by rw [Json.size.eq_def]
    omega
  · exact Json.size_lookup _hlookup

def passHeaders (ctx : OverrideContext) (names : List HeaderName) (keepOrigin : Bool) :
    Except OverrideError OverrideContext :=
  names.foldlM (fun ctx name => orKeep ctx (copyHeaderInContext lib ctx name.1 name.1 keepOrigin)) ctx

inductive SyncTarget
  | json (key : String)
  | header (key : String)

def parseSyncTarget (spec : String) : Except OverrideError SyncTarget :=
  let raw := trimSpace spec
  if raw = "" then .error (.message "sync_fields target is required")
  else match raw.toList.span (· ≠ ':') with
    | (_, []) => .ok (.json raw)
    | (before, _ :: after) =>
      let kind := (trimSpace (String.ofList before)).toLower
      let key := trimSpace (String.ofList after)
      if key = "" then .error (.message ("sync_fields target key is required: " ++ raw))
      else match kind with
        | "json" => .ok (.json key)
        | "body" => .ok (.json key)
        | "header" => .ok (.header key)
        | _ => .error (.message ("sync_fields target prefix is invalid: " ++ raw))

def readSyncTargetValue (body : Json) (ctx : OverrideContext) : SyncTarget → Option Json
  | .json key =>
    match lib.get body (lib.processNegativeIndex body key) with
    | none => none
    | some .null => none
    | some (.str s) => if trimSpace s = "" then none else some (.str s)
    | some value => some value
  | .header key => ((getHeaderValueFromContext ctx key).filter (trimSpace · ≠ "")).map .str

def writeSyncTargetValue (body : Json) (ctx : OverrideContext) (target : SyncTarget) (value : Json) :
    Except OverrideError (Json × OverrideContext) :=
  match target with
  | .json key => match lib.set body (lib.processNegativeIndex body key) value with
    | .ok body => .ok (body, ctx)
    | .error text => .error (.message text)
  | .header key => do
    let ctx ← setHeaderOverrideInContext lib ctx key value false
    return (body, ctx)

def syncFieldsBetweenTargets (body : Json) (ctx : OverrideContext) (fromSpec toSpec : String) :
    Except OverrideError (Json × OverrideContext) := do
  let fromTarget ← parseSyncTarget fromSpec
  let toTarget ← parseSyncTarget toSpec
  match readSyncTargetValue lib body ctx fromTarget, readSyncTargetValue lib body ctx toTarget with
  | some value, none => writeSyncTargetValue lib body ctx toTarget value
  | none, some value => writeSyncTargetValue lib body ctx fromTarget value
  | _, _ => return (body, ctx)

def headerEnds (op : ParamOperation) : String × String :=
  let orPath (name : String) := if trimSpace name = "" then trimSpace op.path else trimSpace name
  (orPath op.opFrom, orPath op.opTo)

def applyOperation (op : ParamOperation) (body : Json) (ctx : OverrideContext) :
    Except OverrideError (Json × OverrideContext) := do
  if !(← checkConditions lib body ctx op.conditions op.logic) then return (body, ctx)
  let failed (err : OverrideError) : OverrideError := .operationFailed op.mode err
  let onHeaders (result : Except OverrideError OverrideContext) : Except OverrideError (Json × OverrideContext) :=
    (result.map fun ctx => (body, ctx)).mapError failed
  match OperationMode.ofString op.mode with
  | .body mode => ((lib.applyBody mode op body ctx).map fun body => (body, ctx)).mapError (failed ∘ .message)
  | .returnError => throw (.returned op.value)
  | .setHeader => onHeaders (setHeaderOverrideInContext lib ctx op.path op.value op.keepOrigin)
  | .deleteHeader => onHeaders (deleteHeaderOverrideInContext ctx op.path)
  | .copyHeader =>
    onHeaders (orKeep ctx (copyHeaderInContext lib ctx (headerEnds op).1 (headerEnds op).2 op.keepOrigin))
  | .moveHeader =>
    onHeaders (orKeep ctx (moveHeaderInContext lib ctx (headerEnds op).1 (headerEnds op).2 op.keepOrigin))
  | .passHeaders =>
    let names ← parseHeaderPassThroughNames lib op.value
    onHeaders (passHeaders lib ctx names op.keepOrigin)
  | .syncFields => (syncFieldsBetweenTargets lib body ctx op.opFrom op.opTo).mapError failed
  | .unknown => throw (.message ("unknown operation: " ++ op.mode))

def applyOperations (operations : List ParamOperation) (body : Json) (ctx : OverrideContext) :
    Except OverrideError (Json × OverrideContext) :=
  operations.foldlM (fun state op => applyOperation lib op state.1 state.2) (body, ctx)

def escapeSjsonLiteralKey (key : String) : String :=
  String.ofList (key.toList.flatMap fun c => if c = '.' ∨ c = '*' ∨ c = '?' ∨ c = '\\' then ['\\', c] else [c])

def applyOperationsLegacy (body : Json) (paramOverride : List (String × Json)) : Except OverrideError Json :=
  (paramOverride.foldlM (fun body field => lib.set body (escapeSjsonLiteralKey field.1) field.2) body).mapError .message

def applyParamOverride (body : Json) (paramOverride : List (String × Json)) (ctx : OverrideContext) :
    Except OverrideError (Json × OverrideContext) :=
  if paramOverride.isEmpty then .ok (body, ctx)
  else match tryParseOperations paramOverride with
    | some operations => do
      let body ← applyOperationsLegacy lib body (buildLegacyParamOverride paramOverride)
      applyOperations lib operations body ctx
    | none => do
      let body ← applyOperationsLegacy lib body paramOverride
      return (body, ctx)

structure OverrideRequest where
  userId : ℤ
  (userGroup tokenGroup originModelName requestURLPath : String)
  requestHeaders : List (String × String)
  isChannelTest : Bool

structure LastError where
  statusCode : ℤ
  (message code errorType : String)
  skipRetry : Bool

structure OverrideChannel where
  (paramOverride headersOverride : List (String × Json))
  upstreamModelName : String

structure OverrideAttempt where
  channel : OverrideChannel
  usingGroup : String
  retryIndex : ℕ
  lastError : Option LastError
  body : Json

structure OverrideInfo where
  request : OverrideRequest
  channelMeta : Option OverrideChannel
  usingGroup : String
  retryIndex : ℕ
  lastError : Option LastError
  runtimeHeadersOverride : HeaderMap
  useRuntimeHeadersOverride : Bool

namespace OverrideInfo

def fresh (request : OverrideRequest) : OverrideInfo where
  request := request
  channelMeta := none
  usingGroup := ""
  retryIndex := 0
  lastError := none
  runtimeHeadersOverride := fun _ => none
  useRuntimeHeadersOverride := false

def prepare (attempt : OverrideAttempt) (info : OverrideInfo) : OverrideInfo :=
  { info with usingGroup := attempt.usingGroup, retryIndex := attempt.retryIndex, lastError := attempt.lastError }

def initChannelMeta (channel : OverrideChannel) (info : OverrideInfo) : OverrideInfo :=
  { info with channelMeta := some channel }

end OverrideInfo

def getEffectiveHeaderOverride (info : OverrideInfo) : HeaderMap :=
  if info.useRuntimeHeadersOverride then HeaderMap.sanitize info.runtimeHeadersOverride
  else sanitizeHeaderOverrideMap lib ((info.channelMeta.map OverrideChannel.headersOverride).getD [])

def lastErrorFacts (err : LastError) : List (String × Json) :=
  [("last_error", .obj [("status_code", .num err.statusCode), ("message", .str err.message), ("code", .str err.code),
      ("error_code", .str err.code), ("type", .str err.errorType), ("error_type", .str err.errorType),
      ("skip_retry", .bool err.skipRetry)]),
    ("last_error_status_code", .num err.statusCode), ("last_error_message", .str err.message),
    ("last_error_code", .str err.code), ("last_error_type", .str err.errorType)]

def overrideFacts (info : OverrideInfo) : List (String × Json) :=
  let request := info.request
  let upstream := (info.channelMeta.map OverrideChannel.upstreamModelName).getD ""
  let isRetry : Json := .bool (decide (0 < info.retryIndex))
  List.flatten [[("user_id", .num request.userId), ("user_group", .str request.userGroup),
      ("token_group", .str request.tokenGroup), ("using_group", .str info.usingGroup)],
    if upstream = "" then [] else [("model", .str upstream), ("upstream_model", .str upstream)],
    if request.originModelName = "" then [] else [("original_model", .str request.originModelName)],
    if upstream = "" ∧ request.originModelName ≠ "" then [("model", .str request.originModelName)] else [],
    if request.requestURLPath = "" then [] else [("request_path", .str request.requestURLPath)],
    [("retry_index", .num info.retryIndex), ("is_retry", isRetry),
      ("retry", .obj [("index", .num info.retryIndex), ("is_retry", isRetry)])],
    info.lastError.elim [] lastErrorFacts,
    [("is_channel_test", .bool request.isChannelTest)]]

def buildParamOverrideContext (info : OverrideInfo) : OverrideContext where
  facts := overrideFacts info
  requestHeaders := buildRequestHeadersContext info.request.requestHeaders
  headerOverride := HeaderMap.sanitize (getEffectiveHeaderOverride lib info)

def syncRuntimeHeaderOverrideFromContext (ctx : OverrideContext) (info : OverrideInfo) : OverrideInfo :=
  { info with
    runtimeHeadersOverride := HeaderMap.sanitize ctx.headerOverride
    useRuntimeHeadersOverride := true }

def applyParamOverrideWithRelayInfo (body : Json) (info : OverrideInfo) : OverrideInfo × Except OverrideError Json :=
  let paramOverride := (info.channelMeta.map OverrideChannel.paramOverride).getD []
  if paramOverride.isEmpty then (info, .ok body)
  else match applyParamOverride lib body paramOverride (buildParamOverrideContext lib info) with
    | .error err => (info, .error err)
    | .ok (result, ctx) => (syncRuntimeHeaderOverrideFromContext ctx info, .ok result)

def overrideAttempt (info : OverrideInfo) (attempt : OverrideAttempt) : OverrideInfo × Except OverrideError Json :=
  applyParamOverrideWithRelayInfo lib attempt.body ((info.prepare attempt).initChannelMeta attempt.channel)

def overrideRun (request : OverrideRequest) (attempts : List OverrideAttempt) : OverrideInfo :=
  attempts.foldl (fun info attempt => (overrideAttempt lib info attempt).1) (.fresh request)

/-- Neither path is the other one or leads into it. -/
def Apart (p q : List String) : Prop := ¬ p <+: q ∧ ¬ q <+: p

/-- What `gjson` and `sjson` do with documents `D`, whose objects have each name once, on paths of members: a path is
its names. Values are in `V`. -/
structure DocLib (D V : Type) where
  get : D → List String → Option V
  /-- `none` for an error -/
  set : D → List String → V → Option D
  delete : D → List String → Option D
  isObject : V → Bool
  /-- `Value` of a result, when it is encoded again: numbers become `float64`. -/
  encode : V → V
  /-- A set makes the objects that are missing above its path. -/
  set_ok : ∀ {doc path} value, path ≠ [] → (∀ above v, above <+: path → above ≠ path → get doc above = some v →
    isObject v = true) → ∃ doc', set doc path value = some doc'
  get_set : ∀ {doc path value doc'}, set doc path value = some doc' → get doc' path = some value
  get_set_apart : ∀ {doc path value doc' q}, set doc path value = some doc' → Apart path q → get doc' q = get doc q
  delete_ok : ∀ {doc path value}, get doc path = some value → ∃ doc', delete doc path = some doc'
  get_delete : ∀ {doc path doc'}, delete doc path = some doc' → get doc' path = none
  get_delete_apart : ∀ {doc path doc' q}, delete doc path = some doc' → Apart path q → get doc' q = get doc q

variable {D V : Type} (docs : DocLib D V)

/-- The document after the operation, `none` for an error. -/
def moveValue (doc : D) (fromPath toPath : List String) : Option D :=
  match docs.get doc fromPath with
  | none => none
  | some sourceValue => (docs.set doc toPath (docs.encode sourceValue)).bind (docs.delete · fromPath)

/-- The value is at the target and no longer at the source, and elsewhere nothing changes. -/
def Relocated (doc : D) (fromPath toPath : List String) (value : V) : Prop :=
  ∃ moved, moveValue docs doc fromPath toPath = some moved ∧ docs.get moved toPath = some value ∧
    (fromPath ≠ toPath → docs.get moved fromPath = none) ∧
    ∀ q, Apart fromPath q → Apart toPath q → docs.get moved q = docs.get doc q

end NewApi

import NewApi.Spec.Basic
import NewApi.Trace.Shared
import Mathlib.Data.Rat.Floor

/-!
# The hub of the worker nodes

`service/byog/byog_hub.go`: the hub holds one session for each node. A tunnel (`ByogWorkerTunnel`,
`controller/byog.go`) registers its session, handles the frames of the worker and unregisters the node when its
connection ends. `PenalizeNode` (`anti_cheat.go`) bans a node, and `SelectNodeForRequest` (`router.go`) picks the
session that runs a request.

A session is known by its name. Columns and telemetry values that nothing here reads are left out. Floating point
numbers are rational ones.
-/

namespace NewApi

open Trace

inductive NodeStatus
  | online | offline | paused | gamerMode | throttled | banned | updating
  deriving DecidableEq

/-- A row of `byog_nodes`; a save writes the whole row. -/
structure NodeRow where
  userId : ℤ
  deviceType : String
  status : NodeStatus
  (pingMs physicalRamMB : ℤ)
  allocatedRamGB : ℚ
  batteryPercent : ℤ
  batteryTemp : ℚ
  batteryCutoffEnabled : Bool
  batteryCutoffPercent : ℤ
  batteryTempSupported : Bool
  maxBatteryTemp : ℚ
  installedModels : List String
  totalTokensProcessed : ℤ
  totalEarnedCredits : ℚ
  (reputationScore lastHeartbeatAt : ℤ)
  deriving DecidableEq

def NodeRow.isMobile (row : NodeRow) : Bool := row.deviceType == "mobile" || row.deviceType == "tablet"

structure NodeSession where
  userId : ℤ
  deviceType : String
  (isPaused isGamerMode : Bool)
  installedModels : List String
  pendingRequests : List String
  failedRequests : List String
  /-- `Conn` was closed -/
  closed : Bool
  deriving DecidableEq

def NodeSession.ofRow (row : NodeRow) : NodeSession where
  userId := row.userId
  deviceType := row.deviceType
  isPaused := false
  isGamerMode := false
  installedModels := row.installedModels
  pendingRequests := []
  failedRequests := []
  closed := false

def NodeSession.failPendingRequests (session : NodeSession) : NodeSession :=
  { session with failedRequests := session.failedRequests ++ session.pendingRequests }

structure Telemetry where
  batteryTemp : ℚ
  (batteryPercent totalTokens : ℤ)
  installedModels : List String
  (isGamerMode isThrottled : Bool)
  (physicalRamMB pingMs : Option ℤ)
  deriving DecidableEq

def Telemetry.status (telemetry : Telemetry) : NodeStatus :=
  if telemetry.isGamerMode then .gamerMode
  else if telemetry.isThrottled then .throttled
  else .online

def NodeRow.measured (telemetry : Telemetry) (now : ℤ) (row : NodeRow) : NodeRow :=
  let ram := (telemetry.physicalRamMB.filter fun ram => decide (0 < ram)).getD row.physicalRamMB
  let allocated := telemetry.physicalRamMB.elim row.allocatedRamGB fun ram => min row.allocatedRamGB ((ram : ℚ) / 1024)
  { row with
    batteryTemp := telemetry.batteryTemp
    batteryPercent := telemetry.batteryPercent
    totalTokensProcessed := max row.totalTokensProcessed telemetry.totalTokens
    status := telemetry.status
    installedModels := telemetry.installedModels
    physicalRamMB := ram
    allocatedRamGB := allocated
    pingMs := (telemetry.pingMs.filter fun ping => decide (0 < ping)).getD row.pingMs
    lastHeartbeatAt := now }

def NodeRow.batteryLow (row : NodeRow) : Bool :=
  row.isMobile && row.batteryCutoffEnabled && decide (row.batteryPercent < row.batteryCutoffPercent)

def NodeRow.batteryHot (row : NodeRow) : Bool :=
  row.isMobile && row.batteryTempSupported && decide (row.maxBatteryTemp ≤ row.batteryTemp)

def NodeRow.heartbeat (telemetry : Telemetry) (now : ℤ) (row : NodeRow) : NodeRow :=
  let measured := row.measured telemetry now
  if measured.batteryHot then { measured with status := .throttled }
  else if measured.batteryLow then { measured with status := .paused }
  else measured

def NodeSession.heartbeat (telemetry : Telemetry) (now : ℤ) (row : Option NodeRow) (session : NodeSession) :
    NodeSession :=
  { session with
    isGamerMode := telemetry.isGamerMode
    installedModels := telemetry.installedModels
    isPaused := session.isPaused || row.any fun row =>
      (row.measured telemetry now).batteryHot || (row.measured telemetry now).batteryLow }

structure HubState (σ : Type) where
  stored : String → Option σ
  session : σ → NodeSession
  rows : String → Option NodeRow

namespace HubState

variable {σ : Type} [DecidableEq σ] (nodeOf : σ → String)

omit [DecidableEq σ] in
def updateRow (nodeId : String) (f : NodeRow → NodeRow) (st : HubState σ) : HubState σ :=
  { st with rows := Function.update st.rows nodeId ((st.rows nodeId).map f) }

def updateSession (s : σ) (f : NodeSession → NodeSession) (st : HubState σ) : HubState σ :=
  { st with session := Function.update st.session s (f (st.session s)) }

def getSession (nodeId : String) (st : HubState σ) : Option σ := st.stored nodeId

def store (s : σ) (st : HubState σ) : HubState σ :=
  { st with stored := Function.update st.stored (nodeOf s) (some s) }

def markOnline (nodeId : String) (now : ℤ) (st : HubState σ) : HubState σ :=
  st.updateRow nodeId fun row => { row with status := .online, lastHeartbeatAt := now }

def register (s : σ) (now : ℤ) (st : HubState σ) : HubState σ := (st.store nodeOf s).markOnline (nodeOf s) now

def delete (nodeId : String) (st : HubState σ) : HubState σ :=
  { st with stored := Function.update st.stored nodeId none }

def closeSession (s : σ) (st : HubState σ) : HubState σ :=
  st.updateSession s fun session => { session with closed := true }.failPendingRequests

def markOffline (nodeId : String) (st : HubState σ) : HubState σ :=
  st.updateRow nodeId fun row => { row with status := .offline }

def unregister (nodeId : String) (st : HubState σ) : HubState σ :=
  match st.stored nodeId with
  | none => st
  | some s => ((st.delete nodeId).closeSession s).markOffline nodeId

/-- `HandleHeartbeat` of a frame; `none` is one that does not decode. -/
def handleHeartbeat (s : σ) (telemetry : Option Telemetry) (now : ℤ) (st : HubState σ) : HubState σ :=
  match telemetry with
  | none => st
  | some telemetry =>
    (st.updateSession s (NodeSession.heartbeat telemetry now (st.rows (nodeOf s)))).updateRow (nodeOf s)
      (NodeRow.heartbeat telemetry now)

def penalizeNode (s : σ) (st : HubState σ) : HubState σ :=
  match st.rows (nodeOf s) with
  | none => st
  | some _ =>
    (st.updateRow (nodeOf s) fun row =>
      { row with status := .banned, reputationScore := 0, totalEarnedCredits := 0 }).unregister (nodeOf s)

end HubState

structure ByogModel where
  (modelType paramSize : String)
  deriving DecidableEq

structure RouterWorld where
  /-- `GetByogModelByModelId` -/
  models : String → Option ByogModel
  /-- the hash of the first 64 bytes of a prompt, if it has so many -/
  prefixKey : String → Option String

inductive SelectErr
  | modelNotFound (modelId : String)
  | noOnlineNodes
  | noCapacity (modelId : String)
  deriving DecidableEq

def SelectErr.message : SelectErr → String
  | .modelNotFound modelId => "model " ++ modelId ++ " not found in BYOG catalog"
  | .noOnlineNodes => "no online BYOG compute nodes available"
  | .noCapacity modelId => "no node with sufficient capacity to run " ++ modelId

def availableRamMB (row : NodeRow) : ℤ :=
  if 0 < row.allocatedRamGB then min ⌊row.allocatedRamGB * 1024⌋ row.physicalRamMB else row.physicalRamMB

def containsHalf (s : String) : Bool := (s.toList.tails).any fun cs => "0.5".toList.isPrefixOf cs

def isModelSafeForMobile (w : RouterWorld) (row : NodeRow) (modelId : String) : Bool :=
  match w.models modelId with
  | none => false
  | some modelDef =>
    if modelDef.modelType = "embedding" ∨ modelDef.modelType = "reranker" then true
    else
      let physicalRamMB := availableRamMB row
      let paramSize := (trimSpace modelDef.paramSize).toUpper
      if physicalRamMB ≤ 4096 then paramSize == "0.5B" || containsHalf paramSize
      else if physicalRamMB ≤ 6144 then ["0.5B", "1B", "1.5B", "3B"].contains paramSize
      else if physicalRamMB ≤ 12288 then ["0.5B", "1B", "1.5B", "3B", "4B"].contains paramSize
      else decide (16384 ≤ physicalRamMB)

structure ByogState (σ : Type) extends HubState σ where
  stickySessions : String → Option String

structure InferenceRequest where
  (modelId conversationId promptPrefix : String)
  deriving DecidableEq

section Select

variable {σ : Type} [DecidableEq σ] (nodeOf : σ → String) (w : RouterWorld)

def HubState.isOpen (s : σ) (st : HubState σ) : Bool := !(st.session s).isPaused && !(st.session s).isGamerMode

def HubState.getAllOnlineNodes (order : List String) (st : HubState σ) : List σ :=
  (order.filterMap st.stored).filter fun s => st.isOpen s

def HubState.isCapable (modelId : String) (st : HubState σ) (s : σ) : Bool :=
  match st.rows (nodeOf s) with
  | none => false
  | some row => if row.isMobile then isModelSafeForMobile w row modelId else true

def HubState.candidates (modelId : String) (sessions : List σ) (st : HubState σ) : List σ :=
  let capable := sessions.filter (st.isCapable nodeOf w modelId)
  let installed := capable.filter fun s => (st.session s).installedModels.contains modelId
  if installed.isEmpty then capable else installed

def effectivePing (row : NodeRow) : ℤ := if row.pingMs ≤ 0 then 50 else row.pingMs

def HubState.better (st : HubState σ) (best : ℤ × Option σ) (s : σ) : ℤ × Option σ :=
  match st.rows (nodeOf s) with
  | none => best
  | some row => if effectivePing row < best.1 then (effectivePing row, some s) else best

def sessionKey (request : InferenceRequest) : String :=
  if request.conversationId = "" then (w.prefixKey request.promptPrefix).getD "" else request.conversationId

def ByogState.sticky (key : String) (candidates : List σ) (st : ByogState σ) : Option σ :=
  if key = "" then none
  else (st.stickySessions key).bind fun target => candidates.find? fun s => nodeOf s == target && st.isOpen s

def selectNodeForRequest (order : List String) (request : InferenceRequest) (st : ByogState σ) :
    Except SelectErr (σ × ByogState σ) :=
  match w.models request.modelId with
  | none => .error (.modelNotFound request.modelId)
  | some _ =>
    match st.getAllOnlineNodes order with
    | [] => .error .noOnlineNodes
    | online =>
      match st.candidates nodeOf w request.modelId online with
      | [] => .error (.noCapacity request.modelId)
      | [s] => .ok (s, st)
      | s :: rest =>
        let key := sessionKey w request
        match st.sticky nodeOf key (s :: rest) with
        | some found => .ok (found, st)
        | none =>
          match ((s :: rest).foldl (st.better nodeOf) (999999, none)).2 with
          | none => .ok (s, st)
          | some best =>
            .ok (best, if key = "" then st
              else { st with stickySessions := Function.update st.stickySessions key (some (nodeOf best)) })

def ByogState.dispatch (order : List String) (request : InferenceRequest) (generated : ℤ) (credit : ℚ)
    (st : ByogState σ) : ByogState σ :=
  match selectNodeForRequest nodeOf w order request st with
  | .error _ => st
  | .ok (s, st') =>
    { st' with
      toHubState := st'.updateRow (nodeOf s) fun row =>
        { row with
          totalTokensProcessed := row.totalTokensProcessed + generated
          totalEarnedCredits := row.totalEarnedCredits + credit } }

end Select

inductive HubCall (σ : Type)
  | register (s : σ) (session : NodeSession) (now : ℤ)
  | unregister (nodeId : String)
  | heartbeat (s : σ) (telemetry : Option Telemetry) (now : ℤ)
  | penalize (s : σ)
  | dispatch (order : List String) (request : InferenceRequest) (generated : ℤ) (credit : ℚ)

def ByogState.call {σ : Type} [DecidableEq σ] (nodeOf : σ → String) (w : RouterWorld) (st : ByogState σ) :
    HubCall σ → ByogState σ
  | .register s session now =>
    { st with toHubState := (st.updateSession s fun _ => session).register nodeOf s now }
  | .unregister nodeId => { st with toHubState := st.unregister nodeId }
  | .heartbeat s telemetry now => { st with toHubState := st.handleHeartbeat nodeOf s telemetry now }
  | .penalize s => { st with toHubState := st.penalizeNode nodeOf s }
  | .dispatch order request generated credit => st.dispatch nodeOf w order request generated credit

inductive WorkerFrame
  /-- with what its payload decodes to -/
  | heartbeat (telemetry : Option Telemetry)
  | other
  | closed
  deriving DecidableEq

/-- What is decided outside of a statement: whether it fails, the time, and what the worker sends. -/
structure TunnelEnv where
  fails : Bool
  now : ℤ
  frame : WorkerFrame
  deriving DecidableEq

inductive TunnelPhase (ι : Type)
  | idle
  | connected
  | stored
  | serving
  | beating (row : NodeRow)
  | ended
  | removing (session : ι)
  | closing
  | done
  deriving DecidableEq

section Tunnels

variable {ι : Type} [DecidableEq ι] (nodeOf : ι → String)

def tunnelStmt (i : ι) (e : TunnelEnv) (p : TunnelPhase ι) (m : HubState ι) : Option (TunnelPhase ι × HubState ι) :=
  match p with
  | .idle =>
    if nodeOf i = "" ∨ e.fails then some (.done, m)
    else match m.rows (nodeOf i) with
      | none => some (.done, m)
      | some row => some (.connected, m.updateSession i fun _ => .ofRow row)
  | .connected => some (.stored, m.store nodeOf i)
  | .stored => some (.serving, if e.fails then m else m.markOnline (nodeOf i) e.now)
  | .serving =>
    if (m.session i).closed then some (.ended, m)
    else match e.frame with
      | .closed => some (.ended, m)
      | .other | .heartbeat none => some (.serving, m)
      | .heartbeat (some telemetry) =>
        let row := if e.fails then none else m.rows (nodeOf i)
        some (row.elim .serving fun row => .beating (row.heartbeat telemetry e.now),
          m.updateSession i (NodeSession.heartbeat telemetry e.now row))
  | .beating row =>
    some (.serving, if e.fails then m else { m with rows := Function.update m.rows (nodeOf i) (some row) })
  | .ended =>
    match m.stored (nodeOf i) with
    | none => some (.done, m)
    | some s => some (.removing s, m.delete (nodeOf i))
  | .removing s => some (.closing, m.closeSession s)
  | .closing => some (.done, if e.fails then m else m.markOffline (nodeOf i))
  | .done => none

def tunnelProgram : Program ι (TunnelPhase ι) (HubState ι) TunnelEnv Empty where
  stmt := tunnelStmt nodeOf
  env := fun v => nomatch v

end Tunnels

end NewApi

import OmpLazy.Gates.TaskEventLedger
import OmpLazy.Gates.ToolAuthorization

namespace OmpLazy.Gates

open OmpLazy.Foundation OmpLazy.Foundation.Schema OmpLazy.Foundation.Text OmpLazy.Contracts

def publicTaskAgents : List String :=
  ["omp-lazy-explorer", "omp-lazy-librarian", "omp-lazy-metis", "omp-lazy-momus", "omp-lazy-planner",
    "omp-lazy-qa", "omp-lazy-researcher", "omp-lazy-reviewer", "omp-lazy-worker-high",
    "omp-lazy-worker-low", "omp-lazy-worker-medium"]

structure TaskSpawnPacketPolicy where
  packetHash : String
  tier : Tier
  allowedAgentTypes : List String
  deriving DecidableEq, Repr

/-- The policies that their schema accepts. -/
def TaskSpawnPacketPolicy.valid (policy : TaskSpawnPacketPolicy) : Bool :=
  isLowerHexOf 64 policy.packetHash && policy.allowedAgentTypes ⊆ publicTaskAgents &&
    1 ≤ policy.allowedAgentTypes.length && policy.allowedAgentTypes.length ≤ 11 &&
      policy.allowedAgentTypes.Nodup

def tierAgentEligibility : Tier → List String
  | .fast => ["omp-lazy-explorer", "omp-lazy-librarian", "omp-lazy-planner", "omp-lazy-researcher",
    "omp-lazy-worker-low"]
  | .standard => ["omp-lazy-explorer", "omp-lazy-librarian", "omp-lazy-metis", "omp-lazy-planner",
    "omp-lazy-qa", "omp-lazy-researcher", "omp-lazy-reviewer", "omp-lazy-worker-low",
    "omp-lazy-worker-medium"]
  | .deep => publicTaskAgents

/-- What the guard answers: the call may be made, it is blocked, or the guard throws. -/
inductive TaskSpawnGuardResult where
  | passed
  | block (reason : String)
  | thrown
  deriving DecidableEq, Repr

structure TaskSpawnGuard where
  maxFanOut : ℕ
  packetPolicy : Option TaskSpawnPacketPolicy
  deriving DecidableEq, Repr

namespace TaskSpawnGuard

def stateConflict : TaskSpawnGuardResult := .block "omp-lazy: task state conflict"

/-- The reason why a policy does not let the requests through, if it does not. -/
def policyRefusal (policy : TaskSpawnPacketPolicy) (requests : List TaskRequest) : Option String :=
  if !policy.valid then some "omp-lazy: invalid packet spawn policy"
  else if ¬ policy.allowedAgentTypes ⊆ tierAgentEligibility policy.tier then
    some "omp-lazy: tier-ineligible packet agent"
  else if requests.any fun request ↦ !request.agentType.any fun agent ↦
      agent ∈ publicTaskAgents && agent ∈ policy.allowedAgentTypes then
    some ("omp-lazy: agent not allowed by packet (" ++ policy.tier.text ++ " tier; eligible: " ++
      ", ".intercalate policy.allowedAgentTypes.mergeSort ++ ")")
  else none

section Handlers

variable (store : TaskStore) (acquired : Bool) (sessionId : String)

/-- The outcome of a call on the ledger. -/
def outcome (call : GateCall) : Option (TaskLedgerTransaction GateStatus) :=
  (store.call acquired sessionId call).map (·.1)

def handleTask (guard : TaskSpawnGuard) (toolCallId : ToolCallId) (spawn : ParsedTaskSpawn) :
    TaskSpawnGuardResult :=
  if maxSafeInteger < guard.maxFanOut ∨ guard.maxFanOut < 1 then .block "omp-lazy: invalid fan-out policy"
  else
    match guard.packetPolicy.bind fun policy ↦ policyRefusal policy spawn.requests with
    | some reason => .block reason
    | none =>
      match outcome store acquired sessionId
          (.reserve ⟨toolCallId, spawn.itemCount, spawn.requests⟩ guard.maxFanOut) with
      | none => stateConflict
      | some (.scope (.reserve .limit) _) => .block "omp-lazy: fan-out limit exceeded"
      | some (.scope (.reserve .factConflict) _) => .block "omp-lazy: reservation conflict"
      | some (.scope _ _) => .passed
      | some _ => .block "omp-lazy: reservation conflict"

def handleJob (toolCallId : ToolCallId) (control : ParsedJobControl) : TaskSpawnGuardResult :=
  match outcome store acquired sessionId
      (.authorize ⟨toolCallId, control.control, control.inputKey, control.targets⟩) with
  | none => .thrown
  | some (.scope (.authorize .unowned) _) => .block "omp-lazy: unowned job"
  | some (.scope (.authorize .noGeneration) _) =>
    if control.targets = [] then .passed else .block "omp-lazy: unowned job"
  | some (.scope _ _) => .passed
  | some _ => stateConflict

def handleIrc (toolCallId : ToolCallId) (control : ParsedIrcControl) : TaskSpawnGuardResult :=
  if control.kind = .passive ∧ control.targets = [] then .passed
  else
    let ircControl := if control.kind = .send then .ircSend else .ircTarget
    match outcome store acquired sessionId
        (.authorize ⟨toolCallId, ircControl, control.inputKey, control.targets⟩) with
    | none => .thrown
    | some (.scope (.authorize .authorized) _) => .passed
    | some _ => .block "omp-lazy: unowned agent"

def handleHubWait (toolCallId : ToolCallId) (control : ParsedHubWaitControl) : TaskSpawnGuardResult :=
  match outcome store acquired sessionId
      (.authorizeHubWait ⟨toolCallId, control.inputKey, control.jobTargets, control.agentTargets⟩) with
  | none => .thrown
  | some (.scope (.authorizeHubWait .unownedJob) _) => .block "omp-lazy: unowned job"
  | some (.scope (.authorizeHubWait .unownedAgent) _) => .block "omp-lazy: unowned agent"
  | some (.scope (.authorizeHubWait .authorized) _) => .passed
  | some _ => stateConflict

def handleAuthorized (guard : TaskSpawnGuard) :
    ImmutableToolAuthorization → TaskSpawnGuardResult
  | .passThrough => .passed
  | .denied reason => .block reason
  | .task toolCallId spawn => guard.handleTask store acquired sessionId toolCallId spawn
  | .job toolCallId control => handleJob store acquired sessionId toolCallId control
  | .irc toolCallId control => handleIrc store acquired sessionId toolCallId control
  | .hubWait toolCallId control => handleHubWait store acquired sessionId toolCallId control

end Handlers

def handle (stringify : Json → String) (sha256 : String → String) (guard : TaskSpawnGuard)
    (store : TaskStore) (acquired : Bool) (request : TaskSpawnRequest) : TaskSpawnGuardResult :=
  match authorizeImmutableToolCall stringify sha256 request with
  | .passThrough => .passed
  | authorization =>
    match store.resolve request.sessionId with
    | none => stateConflict
    | some .none => .passed
    | some .conflict => stateConflict
    | some (.scope _) => guard.handleAuthorized store acquired request.sessionId authorization

end TaskSpawnGuard

end OmpLazy.Gates

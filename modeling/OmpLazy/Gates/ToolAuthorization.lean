import OmpLazy.Gates.TaskControlParser

namespace OmpLazy.Gates

open OmpLazy.Foundation OmpLazy.Foundation.Schema OmpLazy.Contracts

/-! The input of the task tool. -/

structure TaskItem where
  name : Option String
  agent : Option String
  task : String
  isolated : Option Bool
  deriving DecidableEq, Repr

def taskItemSchema : Schema TaskItem :=
  strictObject ["name", "agent", "task", "isolated"] fun fields ↦ do
    let name ← optional fields "name" nonempty
    let agent ← optional fields "agent" nonempty
    let task ← required fields "task" nonempty
    let isolated ← optional fields "isolated" boolean
    return ⟨name, agent, task, isolated⟩

def batchTaskSchema : Schema (List TaskItem) :=
  strictObject ["context", "tasks"] fun fields ↦ do
    let _ ← required fields "context" string
    required fields "tasks" (someOf taskItemSchema)

structure ParsedTaskSpawn where
  itemCount : ℕ
  requests : List TaskRequest
  deriving DecidableEq, Repr

def canonicalTaskProjection (item : TaskItem) : Json := .object
  [("agent", .string (item.agent.getD "task")), ("isolated", .bool (item.isolated.getD false)),
    ("name", State.encodeNullableString item.name), ("task", .string item.task)]

def controlledToolNames : List String := ["task", "job", "irc", "hub"]

def malformedReason : String → String
  | "task" => "omp-lazy: malformed task input"
  | "job" => "omp-lazy: malformed job control"
  | "irc" => "omp-lazy: malformed IRC control"
  | _ => "omp-lazy: malformed hub control"

inductive ImmutableToolAuthorization where
  | passThrough
  | denied (reason : String)
  | task (toolCallId : ToolCallId) (spawn : ParsedTaskSpawn)
  | job (toolCallId : ToolCallId) (control : ParsedJobControl)
  | irc (toolCallId : ToolCallId) (control : ParsedIrcControl)
  | hubWait (toolCallId : ToolCallId) (control : ParsedHubWaitControl)
  deriving DecidableEq, Repr

structure TaskSpawnRequest where
  toolName : String
  toolCallId : String
  input : Json
  sessionId : String
  deriving DecidableEq, Repr

section Authorization

variable (stringify : Json → String) (sha256 : String → String)

def taskRequest (itemIndex : ℕ) (item : TaskItem) : TaskRequest where
  canonicalInputHash := some (sha256 (stringify (canonicalTaskProjection item)))
  itemIndex := itemIndex
  requestedName := item.name
  agentType := item.agent

def parseTaskSpawn (input : Json) : Option ParsedTaskSpawn :=
  match taskItemSchema input with
  | some flat => some ⟨1, [taskRequest stringify sha256 0 flat]⟩
  | none => (batchTaskSchema input).map fun tasks ↦
    ⟨tasks.length, tasks.mapIdx (taskRequest stringify sha256)⟩

/-- What is parsed is authorized, what is malformed is denied. -/
def parsedOr {α : Type} (toolName : String) (authorized : α → ImmutableToolAuthorization) :
    Option α → ImmutableToolAuthorization
  | some value => authorized value
  | none => .denied (malformedReason toolName)

def authorizeImmutableToolCall (request : TaskSpawnRequest) : ImmutableToolAuthorization :=
  if request.toolName ∉ controlledToolNames then .passThrough
  else
    match toolCallIdSchema (.string request.toolCallId) with
    | none => .denied (malformedReason request.toolName)
    | some toolCallId =>
      match request.toolName with
      | "task" => parsedOr "task" (.task toolCallId) (parseTaskSpawn stringify sha256 request.input)
      | "job" => parsedOr "job" (.job toolCallId) (parseJobControl stringify request.input)
      | "irc" => parsedOr "irc" (.irc toolCallId) (parseIrcControl stringify request.input)
      | _ =>
        if isHubProcessControl request.input then .passThrough
        else
          match parseHubWaitControl stringify request.input with
          | some wait => .hubWait toolCallId wait
          | none =>
            match parseJobControl stringify request.input with
            | some job => .job toolCallId job
            | none => parsedOr "hub" (.irc toolCallId) (parseIrcControl stringify request.input)

end Authorization

end OmpLazy.Gates

import OmpLazy.Context.RulesAssembly
import OmpLazy.Observers.ModelCallObserver
import OmpLazy.Workflows.TaskPacketCompiler

/-! What is injected into the messages of a turn. -/

namespace OmpLazy.Observers

open OmpLazy.Foundation OmpLazy.Context OmpLazy.Contracts OmpLazy.Workflows

def taskPacketCustomType : String := "omp-lazy-task-packet"

def rulesCustomType : String := "omp-lazy-rules-context"

def catalogCustomType : String := "omp-lazy-catalog-context"

structure AgentMessage where
  role : String
  customType : Option String
  content : Json
  display : Option Bool
  details : Option Json
  timestamp : ℤ
  deriving DecidableEq

/-- A message object: its place among the messages that came in, where it is none that is made here. -/
structure Placed where
  message : AgentMessage
  place : Option ℕ

def placed (messages : List AgentMessage) : List Placed := messages.zipIdx.map fun entry ↦ ⟨entry.1, some entry.2⟩

def TaskPacketMessage.detailsJson (message : TaskPacketMessage) : Json :=
  .object [("version", .nat 1), ("packetHash", .string message.packetHash), ("packetBytes", .nat message.packetBytes),
    ("runId", .string message.runId), ("taskId", .string message.taskId), ("generation", .nat message.generation),
    ("tier", .string message.tier.name)]

def packetMessage (current : TaskPacketMessage) (timestamp : ℤ) : AgentMessage where
  role := "custom"
  customType := some taskPacketCustomType
  content := .string current.content
  display := some false
  details := some (TaskPacketMessage.detailsJson current)
  timestamp

def compactStepContext (messages : List Placed) (current : Option TaskPacketMessage) (timestamp : ℤ) : List Placed :=
  let compacted := messages.filter fun m ↦
    m.message.role ≠ "custom" || m.message.customType ≠ some taskPacketCustomType
  match current with
  | none => compacted
  | some current => compacted ++ [⟨packetMessage current timestamp, none⟩]

structure InjectionContent where
  rules : Option String
  catalog : Option String

def sectionMessage (customType content : String) (timestamp : ℤ) : AgentMessage where
  role := "custom"
  customType := some customType
  content := .string content
  display := some false
  details := none
  timestamp

def withinBudget (budget : ℕ) (content : Option String) : Option String :=
  content.filter fun text ↦ text.utf8ByteSize ≤ budget

/-- What `Date.now()` is when a section is made. -/
structure Clock where
  catalog : ℤ
  rules : ℤ

def injectRulesAndCatalog (messages : List Placed) (injection : Option InjectionContent) (clock : Clock) : List Placed :=
  match injection with
  | none => messages
  | some injection =>
    let validCatalog := withinBudget catalogBudgetBytes injection.catalog
    let validRules := withinBudget rulesBudgetBytes injection.rules
    if validCatalog = none ∧ validRules = none then messages
    else
      let hasPacket := messages.getLast?.any fun m ↦ m.message.customType = some taskPacketCustomType
      let insertAt := if hasPacket then messages.length - 1 else messages.length
      let catalogToInsert := validCatalog.toList.map fun text ↦
        (⟨sectionMessage catalogCustomType text clock.catalog, none⟩ : Placed)
      let rulesToInsert := validRules.toList.map fun text ↦
        (⟨sectionMessage rulesCustomType text clock.rules, none⟩ : Placed)
      messages.take insertAt ++ (catalogToInsert ++ rulesToInsert) ++ messages.drop insertAt

structure ProductRuntimeObserver where
  active : List (String × StepContext)
  injection : List (String × InjectionContent)
  modelCalls : ModelStates

structure ContextInput where
  sessionId : String
  messages : List AgentMessage
  model : Option Json
  timestamp : ℤ

def isSectionMessage (message : AgentMessage) : Bool :=
  message.customType = some rulesCustomType || message.customType = some catalogCustomType

/-- Whether the messages are the objects that came in, each in its place. -/
def unchanged (messages : List Placed) (count : ℕ) : Bool :=
  messages.length = count && messages.map (·.place) = (List.range count).map some

namespace ProductRuntimeObserver

/-- The messages of a turn, before they are compared with those that came in. -/
def inject (observer : ProductRuntimeObserver) (input : ContextInput) (clock : Clock) : List Placed :=
  let active := getEntry input.sessionId observer.active
  let afterPacket := compactStepContext (placed input.messages) (active.map (·.message)) input.timestamp
  let filtered := afterPacket.filter fun m ↦ !isSectionMessage m.message
  injectRulesAndCatalog filtered (getEntry input.sessionId observer.injection) clock

/-- `context`, with `none` for undefined. -/
def context (platform : ObserverPlatform) (observer : ProductRuntimeObserver) (input : ContextInput) (clock : Clock) :
    ProductRuntimeObserver × Option (List AgentMessage) :=
  let modelCalls :=
    match getEntry input.sessionId observer.active, input.model with
    | some active, some model =>
      (observer.modelCalls.begin platform input.sessionId active.compiled.packetHash model).1
    | _, _ => observer.modelCalls
  let messages := observer.inject input clock
  ({ observer with modelCalls },
    if unchanged messages input.messages.length then none else some (messages.map (·.message)))

end ProductRuntimeObserver

end OmpLazy.Observers

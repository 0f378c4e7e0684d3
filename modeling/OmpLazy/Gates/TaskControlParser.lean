import OmpLazy.Gates.TaskLedgerText

/-! The inputs of the job, messaging and hub tools. -/

namespace OmpLazy.Gates

open OmpLazy.Foundation OmpLazy.Foundation.Schema OmpLazy.Contracts

/-- `z.number().nonnegative()`. -/
def nonnegative : Schema ℕ
  | .number n => if 0 ≤ n then some n.toNat else none
  | _ => none

/-- `op: z.literal(name)`. -/
def opSchema (fields : List (String × Json)) (name : String) : Option Unit :=
  required fields "op" (literal (.string name))

def encodeIds (ids : List JobId) : Json := .array (ids.map .string)

def jobListSchema : Schema Unit :=
  strictObject ["list"] fun fields ↦ required fields "list" (literal (.bool true))

def jobDefaultSchema : Schema Unit := strictObject [] fun _ ↦ some ()

def jobPollSchema : Schema (List JobId) :=
  strictObject ["poll"] fun fields ↦ required fields "poll" (someOf jobIdSchema)

def jobCancelSchema : Schema (List JobId) :=
  strictObject ["cancel"] fun fields ↦ required fields "cancel" (someOf jobIdSchema)

def hubJobsSchema : Schema Unit := strictObject ["op"] fun fields ↦ opSchema fields "jobs"

structure HubWait where
  ids : Option (List JobId)
  fromAgent : Option AgentId
  timeoutMs : Option ℕ
  deriving DecidableEq, Repr

def hubWaitSchema : Schema HubWait :=
  strictObject ["op", "ids", "from", "timeoutMs"] fun fields ↦ do
    opSchema fields "wait"
    let ids ← optional fields "ids" (someOf jobIdSchema)
    let fromAgent ← optional fields "from" agentIdSchema
    let timeoutMs ← optional fields "timeoutMs" nonnegative
    return ⟨ids, fromAgent, timeoutMs⟩

def hubCancelSchema : Schema (List JobId) :=
  strictObject ["op", "ids"] fun fields ↦ do
    opSchema fields "cancel"
    required fields "ids" (someOf jobIdSchema)

structure SendControl where
  toAgent : AgentId
  message : String
  replyTo : Option String
  await : Option Bool
  timeoutMs : Option ℕ
  deriving DecidableEq, Repr

/-- Only the hub has a time to wait for. -/
def timeoutSchema (timed : Bool) (fields : List (String × Json)) : Option (Option ℕ) :=
  if timed then optional fields "timeoutMs" nonnegative else some none

def sendSchema (timed : Bool) : Schema SendControl :=
  strictObject (["op", "to", "message", "replyTo", "await"] ++ if timed then ["timeoutMs"] else [])
    fun fields ↦ do
      opSchema fields "send"
      let toAgent ← required fields "to" agentIdSchema
      let message ← required fields "message" nonempty
      let replyTo ← optional fields "replyTo" nonempty
      let await ← optional fields "await" boolean
      let timeoutMs ← timeoutSchema timed fields
      return ⟨toAgent, message, replyTo, await, timeoutMs⟩

def ircSendSchema : Schema SendControl := sendSchema false

def hubSendSchema : Schema SendControl := sendSchema true

inductive PassiveControl where
  | list
  | inbox (peek : Option Bool)
  | wait (fromAgent : Option AgentId) (timeoutMs : Option ℕ)
  deriving DecidableEq, Repr

def passiveListSchema : Schema PassiveControl :=
  strictObject ["op"] fun fields ↦ (opSchema fields "list").map fun _ ↦ .list

def passiveInboxSchema : Schema PassiveControl :=
  strictObject ["op", "peek"] fun fields ↦ do
    opSchema fields "inbox"
    let peek ← optional fields "peek" boolean
    return .inbox peek

def passiveWaitSchema : Schema PassiveControl :=
  strictObject ["op", "from", "timeoutMs"] fun fields ↦ do
    opSchema fields "wait"
    let fromAgent ← optional fields "from" agentIdSchema
    let timeoutMs ← optional fields "timeoutMs" nonnegative
    return .wait fromAgent timeoutMs

def hubPassiveSchema : Schema PassiveControl := union passiveListSchema passiveInboxSchema

def ircPassiveSchema : Schema PassiveControl :=
  union passiveListSchema (union passiveInboxSchema passiveWaitSchema)

def processOperations : List String := ["start", "ps", "logs", "stop", "restart", "describe"]

def hubProcessSchema : Schema Unit :=
  union
    (looseObject fun fields ↦ (required fields "op" (oneOf processOperations id)).map fun _ ↦ ())
    (looseObject fun fields ↦ do
      let _ ← required fields "op" (oneOf ["send", "wait"] id)
      let _ ← required fields "name" nonempty
      return ())

def isHubProcessControl (input : Json) : Bool := (hubProcessSchema input).isSome

/-! The parsed data, with its members in the order of its schema. -/

def encodeOp (name : String) : String × Json := ("op", .string name)

def HubWait.encode (wait : HubWait) : Json := .object
  (encodeOp "wait" :: Json.optional "ids" (wait.ids.map encodeIds) ++
    Json.optional "from" (wait.fromAgent.map .string) ++
    Json.optional "timeoutMs" (wait.timeoutMs.map .nat))

def SendControl.encode (send : SendControl) : Json := .object
  ([encodeOp "send", ("to", .string send.toAgent), ("message", .string send.message)] ++
    Json.optional "replyTo" (send.replyTo.map .string) ++ Json.optional "await" (send.await.map .bool) ++
    Json.optional "timeoutMs" (send.timeoutMs.map .nat))

def PassiveControl.encode : PassiveControl → Json
  | .list => .object [encodeOp "list"]
  | .inbox peek => .object (encodeOp "inbox" :: Json.optional "peek" (peek.map .bool))
  | .wait fromAgent timeoutMs => .object (encodeOp "wait" ::
    Json.optional "from" (fromAgent.map .string) ++ Json.optional "timeoutMs" (timeoutMs.map .nat))

structure ParsedHubWaitControl where
  inputKey : String
  jobTargets : List JobId
  agentTargets : List AgentId
  deriving DecidableEq, Repr

structure ParsedJobControl where
  control : TaskControl
  inputKey : String
  targets : List JobId
  deriving DecidableEq, Repr

inductive IrcKind where
  | send
  | passive
  deriving DecidableEq, Repr

structure ParsedIrcControl where
  kind : IrcKind
  inputKey : String
  targets : List AgentId
  deriving DecidableEq, Repr

section Parsers

variable (stringify : Json → String)

def parseHubWaitControl (input : Json) : Option ParsedHubWaitControl :=
  (hubWaitSchema input).map fun wait ↦
    ⟨stringify wait.encode, wait.ids.getD [], wait.fromAgent.toList⟩

/-- The schemas of a job control are tried one after the other. -/
def parseJobControl (input : Json) : Option ParsedJobControl :=
  ((hubJobsSchema input).map fun _ ↦ ⟨.jobSnapshot, stringify (.object [encodeOp "jobs"]), []⟩) <|>
  ((parseHubWaitControl stringify input).map fun wait ↦ ⟨.jobSnapshot, wait.inputKey, wait.jobTargets⟩) <|>
  ((hubCancelSchema input).map fun ids ↦
    ⟨.jobCancel, stringify (.object [encodeOp "cancel", ("ids", encodeIds ids)]), ids⟩) <|>
  ((jobListSchema input).map fun _ ↦ ⟨.jobSnapshot, stringify (.object [("list", .bool true)]), []⟩) <|>
  ((jobDefaultSchema input).map fun _ ↦ ⟨.jobSnapshot, stringify (.object []), []⟩) <|>
  ((jobPollSchema input).map fun poll ↦
    ⟨.jobSnapshot, stringify (.object [("poll", encodeIds poll)]), poll⟩) <|>
  ((jobCancelSchema input).map fun cancel ↦
    ⟨.jobCancel, stringify (.object [("cancel", encodeIds cancel)]), cancel⟩)

def parseIrcControl (input : Json) : Option ParsedIrcControl :=
  ((hubSendSchema input).map fun send ↦ ⟨.send, stringify send.encode, [send.toAgent]⟩) <|>
  ((hubPassiveSchema input).map fun passive ↦ ⟨.passive, stringify passive.encode, []⟩) <|>
  ((parseHubWaitControl stringify input).map fun wait ↦ ⟨.passive, wait.inputKey, wait.agentTargets⟩) <|>
  ((ircSendSchema input).map fun send ↦ ⟨.send, stringify send.encode, [send.toAgent]⟩) <|>
  ((ircPassiveSchema input).map fun passive ↦
    ⟨.passive, stringify passive.encode,
      match passive with
      | .wait (some fromAgent) _ => [fromAgent]
      | _ => []⟩)

end Parsers

end OmpLazy.Gates

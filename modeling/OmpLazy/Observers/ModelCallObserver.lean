import OmpLazy.Foundation.Keys
import OmpLazy.Foundation.Schema
import OmpLazy.Foundation.Text

/-! Which calls to a model were made through the proxy. -/

namespace OmpLazy.Observers

open OmpLazy.Foundation OmpLazy.Foundation.Schema OmpLazy.Foundation.Text

def proxyScopeHeader : String := "x-omp-harness-scope"

def proxyCallIdHeader : String := "x-omp-harness-call-id"

def proxyTerminalHeader : String := "x-omp-harness-terminal"

/-- What is read of headers and addresses elsewhere: `coerce.number().int().positive()` and `URL`. -/
structure ObserverPlatform where
  toLowerCase : String → String
  isUrl : String → Bool
  pathname : String → Option String
  callId : Option String → Option ℕ
  callId_pos : ∀ header id, callId header = some id → 0 < id

inductive ProxyTerminalState
  | responded
  | errored
  | transportClientDisconnected
  deriving DecidableEq, Repr

def ProxyTerminalState.text : ProxyTerminalState → String
  | responded => "responded"
  | errored => "errored"
  | transportClientDisconnected => "transport_client_disconnected"

def proxyTerminalStates : List ProxyTerminalState := [.responded, .errored, .transportClientDisconnected]

structure StaticActorTrialScope where
  scopeId : String
  configuredActorRoute : String
  provider : String
  modelId : String
  deriving DecidableEq, Repr

structure PendingCall where
  scope : StaticActorTrialScope
  packetHash : String
  retryAttempt : ℤ
  deriving DecidableEq, Repr

structure ModelCallRecord where
  scope : StaticActorTrialScope
  packetHash : String
  proxyCallId : ℕ
  retryAttempt : ℤ
  terminal : ProxyTerminalState
  deriving DecidableEq, Repr

structure ModelState where
  calls : List ModelCallRecord
  pending : List PendingCall
  nextRetryAttempt : ℤ
  deriving DecidableEq, Repr

def ModelState.created : ModelState := ⟨[], [], 0⟩

inductive RefusalCode
  | proxyCallIdMissing
  | proxyCallIdReplayed
  | proxyTerminalInvalid
  | proxyTerminalSourceInvalid
  | proxyScopeMismatch
  | proxyCallUncorrelated
  deriving DecidableEq, Repr

inductive ModelCallResult
  | quiet
  | accepted (retryAttempt : ℤ)
  | recorded (call : ModelCallRecord)
  | refused (code : RefusalCode)
  deriving DecidableEq, Repr

/-! Scopes. -/

def isScopeId (s : String) : Bool := s.toList.length = 32 && s.toList.all isLowerHex

def isLowerLetter (c : Char) : Bool := 'a' ≤ c && c ≤ 'z'

/-- `/^\/actor\/[a-z][a-z0-9._-]{0,63}$/` -/
def isActorRoute (cs : List Char) : Bool :=
  "/actor/".toList.isPrefixOf cs &&
    match cs.drop 7 with
    | [] => false
    | c :: rest => isLowerLetter c && rest.length ≤ 63 &&
        rest.all fun c ↦ isLowerLetter c || isDigit c || c = '.' || c = '_' || c = '-'

/-- A header object, or the members of a plain one. -/
inductive ResponseHeaders
  | headers (get : String → Option String)
  | entries (members : List (String × String))

section Reading

variable (platform : ObserverPlatform)

def headerValue (members : List (String × String)) (name : String) : Option String :=
  (members.find? fun entry ↦ platform.toLowerCase entry.1 = name).map (·.2)

def responseHeader (headers : ResponseHeaders) (name : String) : Option String :=
  match headers with
  | .headers get => get name
  | .entries members => headerValue platform members name

def text : Schema String := string.refine (· ≠ "")

/-- `record(string(), string())` -/
def recordOfStrings : Schema (List (String × String))
  | .object fields => fields.mapM fun field ↦ (string field.2).map (field.1, ·)
  | _ => none

structure ModelRoute where
  provider : String
  id : String
  baseUrl : String
  headers : Option (List (String × String))

def modelRouteSchema : Schema ModelRoute :=
  looseObject fun fields ↦ do
    let provider ← required fields "provider" text
    let id ← required fields "id" text
    let baseUrl ← required fields "baseUrl" (string.refine platform.isUrl)
    let headers ← optional fields "headers" recordOfStrings
    return ⟨provider, id, baseUrl, headers⟩

structure ProxyTerminal where
  scopeId : String
  configuredActorRoute : String
  proxyCallId : ℕ
  terminal : ProxyTerminalState

def proxyTerminalSchema : Schema ProxyTerminal :=
  strictObject ["scopeId", "configuredActorRoute", "proxyCallId", "terminal"] fun fields ↦ do
    let scopeId ← required fields "scopeId" (string.refine isScopeId)
    let configuredActorRoute ← required fields "configuredActorRoute" (string.refine fun s ↦ isActorRoute s.toList)
    let proxyCallId ← required fields "proxyCallId" (counter.refine (0 < ·))
    let terminal ← required fields "terminal" (oneOf proxyTerminalStates ProxyTerminalState.text)
    return ⟨scopeId, configuredActorRoute, proxyCallId, terminal⟩

def parseStaticActorTrialScope (modelValue : Json) : Option StaticActorTrialScope := do
  let parsed ← modelRouteSchema platform modelValue
  let path ← platform.pathname parsed.baseUrl
  let configuredActorRoute ← path.toList.tails.find? isActorRoute
  let headers ← parsed.headers
  let scopeId ← headerValue platform headers proxyScopeHeader
  if isScopeId scopeId then
    some ⟨scopeId, String.ofList configuredActorRoute, parsed.provider, parsed.id⟩
  else none

structure Response where
  status : ℤ
  headers : ResponseHeaders

def Response.succeeded (response : Response) : Bool := 200 ≤ response.status && response.status < 400

/-- The call id and the terminal state that a response carries. -/
def Response.outcome (response : Response) : Except RefusalCode (ℕ × ProxyTerminalState) :=
  match platform.callId (responseHeader platform response.headers proxyCallIdHeader) with
  | none => .error .proxyCallIdMissing
  | some callId =>
    let terminal : Option ProxyTerminalState :=
      match responseHeader platform response.headers proxyTerminalHeader with
      | none => some (if response.succeeded then .responded else .errored)
      | some claimed => oneOf proxyTerminalStates ProxyTerminalState.text (.string claimed)
    match terminal with
    | none => .error .proxyTerminalInvalid
    | some .transportClientDisconnected => .error .proxyTerminalSourceInvalid
    | some terminal =>
      if (terminal = .responded ∧ ¬ response.succeeded) ∨ (terminal = .errored ∧ response.succeeded) then
        .error .proxyTerminalInvalid
      else .ok (callId, terminal)

end Reading

/-! One session. -/

namespace ModelState

def lastCallId (state : ModelState) (scopeId : String) : ℕ :=
  ((state.calls.filter fun call ↦ call.scope.scopeId = scopeId).map (·.proxyCallId)).foldl max 0

def record (state : ModelState) (pending : PendingCall) (proxyCallId : ℕ) (terminal : ProxyTerminalState) :
    ModelState × ModelCallResult :=
  if proxyCallId ≤ state.lastCallId pending.scope.scopeId then (state, .refused .proxyCallIdReplayed)
  else
    let call : ModelCallRecord :=
      { scope := pending.scope
        packetHash := pending.packetHash
        proxyCallId
        retryAttempt := pending.retryAttempt
        terminal }
    ({ state with calls := state.calls ++ [call] }, .recorded call)

def beginScope (state : ModelState) (scope : StaticActorTrialScope) (packetHash : String) : ModelState :=
  { state with pending := state.pending ++ [⟨scope, packetHash, state.nextRetryAttempt⟩], nextRetryAttempt := 0 }

def observeResponse (platform : ObserverPlatform) (state : ModelState) (response : Response) :
    ModelState × ModelCallResult :=
  match state.pending with
  | [] => (state, .refused .proxyCallUncorrelated)
  | pending :: others =>
    match response.outcome platform with
    | .error code => ({ state with pending := others }, .refused code)
    | .ok (callId, terminal) => { state with pending := others }.record pending callId terminal

def observeProxyTerminal (state : ModelState) (terminal : ProxyTerminal) : ModelState × ModelCallResult :=
  let position := state.pending.findIdx fun pending ↦
    pending.scope.scopeId = terminal.scopeId ∧ pending.scope.configuredActorRoute = terminal.configuredActorRoute
  match state.pending[position]? with
  | none => (state, .refused .proxyScopeMismatch)
  | some pending =>
    { state with pending := state.pending.eraseIdx position }.record pending terminal.proxyCallId terminal.terminal

end ModelState

/-! All sessions. -/

abbrev ModelStates := List (String × ModelState)

inductive ObserverCall
  | clear
  | begin (packetHash : String) (model : Json)
  | retryStarted (attempt maxAttempts : ℤ)
  | observeResponse (response : Response)
  | observeProxyTerminal (terminal : Json)

namespace ModelStates

def stateFor (states : ModelStates) (sessionId : String) : ModelState := (getEntry sessionId states).getD .created

def clear (states : ModelStates) (sessionId : String) : ModelStates := states.filter (·.1 ≠ sessionId)

def begin (platform : ObserverPlatform) (states : ModelStates) (sessionId packetHash : String) (model : Json) :
    ModelStates × ModelCallResult :=
  match parseStaticActorTrialScope platform model with
  | none => (states, .quiet)
  | some scope =>
    let state := states.stateFor sessionId
    (setEntry sessionId (state.beginScope scope packetHash) states, .accepted state.nextRetryAttempt)

def retryStarted (states : ModelStates) (sessionId : String) (attempt maxAttempts : ℤ) : ModelStates :=
  if attempt < 1 ∨ maxAttempts < attempt then states
  else setEntry sessionId { states.stateFor sessionId with nextRetryAttempt := attempt } states

def observeResponse (platform : ObserverPlatform) (states : ModelStates) (sessionId : String) (response : Response) :
    ModelStates × ModelCallResult :=
  match getEntry sessionId states with
  | none => (states, .refused .proxyCallUncorrelated)
  | some state =>
    let observed := state.observeResponse platform response
    (setEntry sessionId observed.1 states, observed.2)

def observeProxyTerminal (states : ModelStates) (sessionId : String) (terminalValue : Json) :
    ModelStates × ModelCallResult :=
  match proxyTerminalSchema terminalValue with
  | none => (states, .refused .proxyTerminalInvalid)
  | some terminal =>
    match getEntry sessionId states with
    | none => (states, .refused .proxyCallUncorrelated)
    | some state =>
      let observed := state.observeProxyTerminal terminal
      (setEntry sessionId observed.1 states, observed.2)

/-- One call of an observer's method; `clear` and `retryStarted` return nothing. -/
def step (platform : ObserverPlatform) (states : ModelStates) (sessionId : String) :
    ObserverCall → ModelStates × ModelCallResult
  | .clear => (states.clear sessionId, .quiet)
  | .begin packetHash model => states.begin platform sessionId packetHash model
  | .retryStarted attempt maxAttempts => (states.retryStarted sessionId attempt maxAttempts, .quiet)
  | .observeResponse response => states.observeResponse platform sessionId response
  | .observeProxyTerminal terminal => states.observeProxyTerminal sessionId terminal

/-- The observer after its calls, in their order. -/
def after (platform : ObserverPlatform) (history : List (String × ObserverCall)) : ModelStates :=
  history.foldl (fun states entry ↦ (states.step platform entry.1 entry.2).1) []

end ModelStates

end OmpLazy.Observers

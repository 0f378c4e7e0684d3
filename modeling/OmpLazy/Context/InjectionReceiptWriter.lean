import OmpLazy.Continuation.RegisterSessionStop

/-! The receipt of what was injected into the context of a session. -/

namespace OmpLazy.Context

open OmpLazy.Foundation

structure InjectionBudget where
  injectionBudgetBytes : ℤ
  rulesBudgetBytes : ℤ
  catalogBudgetBytes : ℤ
  deriving DecidableEq, Repr

structure MatchedRule where
  fileName : String
  bytes : ℤ
  deriving DecidableEq, Repr

inductive DroppedSection where
  | rules
  | directive
  | catalog
  deriving DecidableEq, Repr

def DroppedSection.name : DroppedSection → String
  | .rules => "rules"
  | .directive => "directive"
  | .catalog => "catalog"

structure DroppedPart where
  id : String
  fromSection : DroppedSection
  reason : String
  deriving DecidableEq, Repr

structure InjectionTotals where
  rulesBytes : ℤ
  catalogBytes : ℤ
  totalBytes : ℤ
  deriving DecidableEq, Repr

structure InjectionReceiptInput where
  sessionId : String
  matched : List MatchedRule
  dropped : List DroppedPart
  totals : InjectionTotals
  budget : InjectionBudget
  deriving DecidableEq, Repr

structure InjectionReceipt extends InjectionReceiptInput where
  timestamp : String
  deriving DecidableEq, Repr

inductive ReceiptWriteResult where
  | written
  | degraded (reason : String)
  deriving DecidableEq, Repr

/-- `z.number().int().nonnegative()` -/
def isByteCount (n : ℤ) : Bool := (Schema.counter (.number n)).isSome

namespace InjectionReceipt

/-- What `InjectionReceiptSchema` asks of a typed receipt. -/
def accepted (receipt : InjectionReceipt) : Bool :=
  receipt.sessionId ≠ "" &&
  isByteCount receipt.budget.injectionBudgetBytes &&
  isByteCount receipt.budget.rulesBudgetBytes &&
  isByteCount receipt.budget.catalogBudgetBytes &&
  receipt.matched.all (fun rule ↦ rule.fileName ≠ "" && isByteCount rule.bytes) &&
  receipt.dropped.all (fun part ↦ part.id ≠ "" && part.reason ≠ "") &&
  isByteCount receipt.totals.rulesBytes &&
  isByteCount receipt.totals.catalogBytes &&
  isByteCount receipt.totals.totalBytes

def encode (receipt : InjectionReceipt) : Json :=
  .object [
    ("schemaVersion", .nat 2),
    ("sessionId", .string receipt.sessionId),
    ("timestamp", .string receipt.timestamp),
    ("budget", .object [
      ("injectionBudgetBytes", .number receipt.budget.injectionBudgetBytes),
      ("rulesBudgetBytes", .number receipt.budget.rulesBudgetBytes),
      ("catalogBudgetBytes", .number receipt.budget.catalogBudgetBytes)]),
    ("matched", .array (receipt.matched.map fun rule ↦
      .object [("fileName", .string rule.fileName), ("bytes", .number rule.bytes)])),
    ("dropped", .array (receipt.dropped.map fun part ↦
      .object [("id", .string part.id), ("section", .string part.fromSection.name),
        ("reason", .string part.reason)])),
    ("totals", .object [
      ("rulesBytes", .number receipt.totals.rulesBytes),
      ("catalogBytes", .number receipt.totals.catalogBytes),
      ("totalBytes", .number receipt.totals.totalBytes)])]

end InjectionReceipt

/-- The files under the state root, each with the value of its text. -/
abbrev RecordFiles := String → Option Json

def directiveActivationPath (sessionId : String) : Option String :=
  if Continuation.isValidLifecycleId sessionId then
    some ("directive-activations/" ++ (sessionId ++ ".json"))
  else none

/-- How the lock and the files answer a writer. What throws may throw after the file is replaced. -/
inductive WriterAnswer where
  | lockTimeout
  | threw (reason : String) (replaced : Bool)
  | released
  deriving DecidableEq, Repr

def writeInjectionReceipt (files : RecordFiles) (input : InjectionReceiptInput) (timestamp : String)
    (answer : WriterAnswer) : ReceiptWriteResult × RecordFiles :=
  let receipt : InjectionReceipt := { input with timestamp }
  if !receipt.accepted then (.degraded "receipt_schema_invalid", files)
  else
    match directiveActivationPath input.sessionId with
    | none => (.degraded "state_root_escaped", files)
    | some path =>
      match answer with
      | .lockTimeout => (.degraded "lock_timeout", files)
      | .threw reason false => (.degraded reason, files)
      | .threw reason true => (.degraded reason, Function.update files path (some receipt.encode))
      | .released => (.written, Function.update files path (some receipt.encode))

end OmpLazy.Context

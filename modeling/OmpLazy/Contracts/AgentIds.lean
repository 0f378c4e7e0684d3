import OmpLazy.State.CodecSchemas

namespace OmpLazy.Contracts

open OmpLazy.Foundation OmpLazy.Foundation.Schema OmpLazy.Foundation.Text OmpLazy.State

abbrev ToolCallId := String

abbrev AgentId := String

abbrev JobId := String

/-- `z.string().trim().min(1).max(160)`. -/
def runtimeId : Schema String := nonempty.refine fun s ↦ utf16Length s ≤ 160

def toolCallIdSchema : Schema ToolCallId := runtimeId

def agentIdSchema : Schema AgentId := runtimeId

def jobIdSchema : Schema JobId := runtimeId

structure RuntimeIdentityBinding where
  itemIndex : ℕ
  actualAgentId : AgentId
  actualJobId : Option JobId
  deriving DecidableEq, Repr

def runtimeIdentityBindingSchema : Schema RuntimeIdentityBinding :=
  strictObject ["itemIndex", "actualAgentId", "actualJobId"] fun fields ↦ do
    let itemIndex ← required fields "itemIndex" counter
    let actualAgentId ← required fields "actualAgentId" agentIdSchema
    let actualJobId ← required fields "actualJobId" jobIdSchema.nullable
    return ⟨itemIndex, actualAgentId, actualJobId⟩

def encodeBinding (binding : RuntimeIdentityBinding) : Json := .object
  [("itemIndex", .nat binding.itemIndex), ("actualAgentId", .string binding.actualAgentId),
    ("actualJobId", encodeNullableString binding.actualJobId)]

inductive WorkerRole where
  | low
  | medium
  | high
  deriving DecidableEq, Repr

def WorkerRole.text : WorkerRole → String
  | .low => "omp-lazy-worker-low"
  | .medium => "omp-lazy-worker-medium"
  | .high => "omp-lazy-worker-high"

def workerRoleSchema : Schema WorkerRole := oneOf [.low, .medium, .high] WorkerRole.text

theorem runtimeId_reads :
    Reads runtimeId Json.string (fun s ↦ trim s ≠ "" ∧ utf16Length (trim s) ≤ 160) trim :=
  (nonempty_reads.refine _).of_iff (by simp)

theorem nullableRuntimeId_reads :
    Reads runtimeId.nullable encodeNullableString
      (fun o ↦ ∀ s ∈ o, trim s ≠ "" ∧ utf16Length (trim s) ≤ 160) (Option.map trim) :=
  runtimeId_reads.nullable (by simp)

theorem workerRole_reads : Reads workerRoleSchema (fun x ↦ .string x.text) (fun _ ↦ True) id :=
  oneOf_reads fun x ↦ by cases x <;> rfl

namespace RuntimeIdentityBinding

@[mk_iff] structure Ok (binding : RuntimeIdentityBinding) : Prop where
  itemIndex : binding.itemIndex ≤ maxSafeInteger
  actualAgentId : trim binding.actualAgentId ≠ "" ∧ utf16Length (trim binding.actualAgentId) ≤ 160
  actualJobId : ∀ s ∈ binding.actualJobId, trim s ≠ "" ∧ utf16Length (trim s) ≤ 160

def tidy (binding : RuntimeIdentityBinding) : RuntimeIdentityBinding :=
  { binding with
    actualAgentId := trim binding.actualAgentId
    actualJobId := binding.actualJobId.map trim }

theorem reads : Reads runtimeIdentityBindingSchema encodeBinding Ok tidy where
  encoded x y := by
    simp [runtimeIdentityBindingSchema, encodeBinding, strictObject_object, required,
      Option.bind_eq_some_iff, counter_reads.encoded, agentIdSchema, jobIdSchema,
      runtimeId_reads.encoded, nullableRuntimeId_reads.encoded, and_assoc, ok_iff, tidy]
  settled j y hy := by
    obtain ⟨fields, -, hy⟩ := strictObject_eq_some hy
    simp only [Option.bind_eq_bind, Option.bind_eq_some_iff, Option.pure_def, Option.some.injEq] at hy
    obtain ⟨index, hindex, agent, hagent, job, hjob, rfl⟩ := hy
    have hindex := counter_reads.required_settled hindex
    have hagent := runtimeId_reads.required_settled hagent
    have hjob := nullableRuntimeId_reads.required_settled hjob
    exact ⟨⟨hindex.1, hagent.1, hjob.1⟩, by simp [tidy, hagent.2, hjob.2]⟩

end RuntimeIdentityBinding

end OmpLazy.Contracts

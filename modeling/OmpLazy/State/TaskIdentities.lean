import OmpLazy.State.MigrationLedgers

/-! The texts of the identities in a ledger of task facts. -/

namespace OmpLazy.State.Migration

open OmpLazy.Foundation OmpLazy.Foundation.Schema OmpLazy.Foundation.Text OmpLazy.Contracts
  OmpLazy.Gates

/-- A fact whose texts are trimmed. -/
def NamedFact : TaskFact → Prop
  | .taskReserved _ _ requests => ∀ request ∈ requests, ∀ name ∈ request.requestedName, Trimmed name
  | .taskIdentitiesBound toolCallId _ => Trimmed toolCallId
  | _ => True

theorem runtimeId_trimmed {json : Json} {s : String} (h : runtimeId json = some s) : Trimmed s :=
  nonempty_trimmed (Option.filter_eq_some_iff.mp h).1

theorem request_named {json : Json} {request : TaskRequest} (h : requestSchema json = some request) :
    ∀ name ∈ request.requestedName, Trimmed name := by
  obtain ⟨fields, rfl, hbody⟩ := strictObject_eq_some h
  simp only [Option.bind_eq_bind, Option.bind_eq_some_iff, Option.pure_def, Option.some.injEq] at hbody
  obtain ⟨_, -, _, -, requestedName, hname, _, -, rfl⟩ := hbody
  obtain ⟨json, -, hjson⟩ := required_eq_some.mp hname
  intro name hmem
  obtain rfl : requestedName = some name := hmem
  cases json with
  | null => cases hjson
  | string => exact nonempty_trimmed (by simpa [nullable] using hjson)
  | bool | number | array | object => simp [nullable, nonempty] at hjson

theorem someOf_eq_some {α : Type} {schema : Schema α} {json : Json} {xs : List α}
    (h : Gates.someOf schema json = some xs) : ∀ x ∈ xs, ∃ json, schema json = some x := by
  obtain ⟨js, rfl, hjs⟩ := array_eq_some (Option.filter_eq_some_iff.mp h).1
  intro x hx
  obtain ⟨j, -, hj⟩ := exists_of_forall₂ hjs hx
  exact ⟨j, hj⟩

theorem fact_named {json : Json} {fact : TaskFact} (h : factSchema json = some fact) : NamedFact fact := by
  obtain ⟨kind, -, h⟩ := Option.bind_eq_some_iff.mp h
  obtain ⟨fields, rfl, hbody⟩ := strictObject_eq_some h
  cases kind with
  | taskReserved =>
    simp only [factBody, Option.bind_eq_bind, Option.bind_eq_some_iff, Option.ite_none_right_eq_some,
      Option.some.injEq] at hbody
    obtain ⟨_, -, _, -, requests, hrequests, -, rfl⟩ := hbody
    obtain ⟨json, -, hjson⟩ := required_eq_some.mp hrequests
    intro request hrequest
    obtain ⟨_, hread⟩ := someOf_eq_some hjson request hrequest
    exact request_named hread
  | taskIdentitiesBound =>
    simp only [factBody, Option.bind_eq_bind, Option.bind_eq_some_iff, Option.pure_def,
      Option.some.injEq] at hbody
    obtain ⟨toolCallId, hid, _, -, rfl⟩ := hbody
    obtain ⟨json, -, hjson⟩ := required_eq_some.mp hid
    exact runtimeId_trimmed hjson
  | taskControlAuthorized | taskReceiptObserved | asyncCapabilityObserved =>
    simp only [factBody, Option.bind_eq_bind, Option.bind_eq_some_iff, Option.pure_def,
      Option.some.injEq] at hbody
    first
    | obtain ⟨_, -, _, -, rfl⟩ := hbody; trivial
    | obtain ⟨_, -, _, -, _, -, _, -, rfl⟩ := hbody; trivial
    | obtain ⟨_, -, _, -, _, -, _, -, _, -, rfl⟩ := hbody; trivial

theorem ledger_named {value : Json} {ledger : PersistedTaskLedger} (h : taskLedgerSchema value = some ledger) :
    ∀ entry ∈ ledger.entries, NamedFact entry.fact := by
  obtain ⟨fields, rfl, hbody⟩ := strictObject_eq_some (Option.filter_eq_some_iff.mp h).1
  simp only [taskLedgerFields, Option.bind_eq_bind, Option.bind_eq_some_iff, Option.pure_def,
    Option.some.injEq] at hbody
  obtain ⟨_, -, _, -, _, -, entries, hentries, rfl⟩ := hbody
  obtain ⟨json, -, hjson⟩ := required_eq_some.mp hentries
  obtain ⟨js, rfl, hjs⟩ := array_eq_some hjson
  intro entry hentry
  obtain ⟨j, -, hj⟩ := exists_of_forall₂ hjs hentry
  obtain ⟨fields', rfl, hbody'⟩ := strictObject_eq_some hj
  simp only [Option.bind_eq_bind, Option.bind_eq_some_iff, Option.pure_def, Option.some.injEq] at hbody'
  obtain ⟨_, -, _, -, _, -, fact, hfact, rfl⟩ := hbody'
  obtain ⟨_, -, hread⟩ := required_eq_some.mp hfact
  exact fact_named hread

section Identities

variable {entries : List Gates.TaskLedgerEntry} (h : ∀ entry ∈ entries, NamedFact entry.fact)

include h

theorem reservations_named : ∀ call ∈ reservations entries, ∀ request ∈ call.2,
    ∀ name ∈ request.requestedName, Trimmed name := by
  rw [reservations]
  refine List.foldlRecOn (motive := fun found : List (ToolCallId × List TaskRequest) ↦ ∀ call ∈ found,
    ∀ request ∈ call.2, ∀ name ∈ request.requestedName, Trimmed name) entries _ ?_ ?_
  · intro call hcall
    cases hcall
  intro found hfound entry hentry
  split
  · rename_i toolCallId _ requests hfact
    intro call hcall
    obtain rfl | hmem := mem_setEntry hcall
    · have hnamed := h entry hentry
      rw [hfact] at hnamed
      exact hnamed
    · exact hfound call hmem
  · exact hfound

theorem identityBindings_named : ∀ call ∈ identityBindings entries, Trimmed call.1 := by
  rw [identityBindings]
  refine List.foldlRecOn (motive := fun found : List (ToolCallId × List RuntimeIdentityBinding) ↦
    ∀ call ∈ found, Trimmed call.1) entries _ ?_ ?_
  · intro call hcall
    cases hcall
  intro found hfound entry hentry
  split
  · rename_i toolCallId bindings hfact
    intro call hcall
    obtain rfl | hmem := mem_setEntry hcall
    · have hnamed := h entry hentry
      rw [hfact] at hnamed
      exact hnamed
    · exact hfound call hmem
  · exact hfound

end Identities

theorem bindingIdentity_trimmed {runId : Uuid} {toolCallId : ToolCallId} {requests : List TaskRequest}
    {binding : RuntimeIdentityBinding} {identity : TaskIdentity} (hcall : Trimmed toolCallId)
    (hrequests : ∀ request ∈ requests, ∀ name ∈ request.requestedName, Trimmed name)
    (h : bindingIdentity runId toolCallId requests binding = some (some identity)) :
    Trimmed identity.taskId := by
  simp only [bindingIdentity, Option.bind_eq_bind, Option.bind_eq_some_iff, Option.pure_def,
    Option.some.injEq, Option.map_eq_some_iff] at h
  obtain ⟨request, hfind, role, -, rfl⟩ := h
  have hrequest : request ∈ requests := List.mem_reverse.mp (List.mem_of_find?_eq_some hfind)
  dsimp only
  split
  · rw [String.append_assoc]
    obtain ⟨c, hlast, hspace⟩ := toString_last binding.itemIndex
    refine Trimmed.append hcall ⟨c, ?_, hspace⟩
    rw [String.toList_append, List.getLast?_append, hlast]
    rfl
  · rename_i hname
    cases hrequested : request.requestedName with
    | none => rw [hrequested] at hname; exact absurd rfl hname
    | some name => exact hrequests request hrequest name hrequested

/-- The identities that the migration collects have trimmed task ids. -/
theorem taskIdentities_trimmed {value : Json} {identities : List TaskIdentity}
    (h : taskIdentities value = some identities) : ∀ identity ∈ identities, Trimmed identity.taskId := by
  simp only [taskIdentities, Option.bind_eq_bind, Option.bind_eq_some_iff, Option.pure_def,
    Option.some.injEq] at h
  obtain ⟨ledger, hledger, found, hfound, rfl⟩ := h
  have hnamed := ledger_named hledger
  intro identity hidentity
  obtain ⟨ids, hids, hmem⟩ := List.mem_flatten.mp hidentity
  obtain ⟨call, hcall, hcalled⟩ := exists_of_forall₂ (mapM_eq_some.mp hfound) hids
  obtain ⟨toolCallId, values⟩ := call
  simp only [callIdentities, Option.bind_eq_bind, Option.bind_eq_some_iff, Option.pure_def,
    Option.some.injEq] at hcalled
  obtain ⟨requests, hrequests, results, hresults, rfl⟩ := hcalled
  obtain ⟨_, hresult, rfl⟩ := List.mem_filterMap.mp hmem
  obtain ⟨binding, -, hbinding⟩ := exists_of_forall₂ (mapM_eq_some.mp hresults) hresult
  exact bindingIdentity_trimmed (identityBindings_named hnamed _ hcall)
    (reservations_named hnamed _ (getEntry_mem hrequests)) hbinding

end OmpLazy.State.Migration

import OmpLazy.Foundation.Keys
import OmpLazy.Gates.TaskLedgerGrowth

/-! What a ledger still answers after it has grown. -/

namespace OmpLazy.Gates

open OmpLazy.Foundation OmpLazy.Contracts OmpLazy.State.ReceiptAuthority

namespace TaskRunScope

/-- The same owner's view of a ledger that has grown. -/
structure Extended (scope later : TaskRunScope) : Prop where
  owner : later.run.owner = scope.run.owner
  entries : scope.ledger.entries <+: later.ledger.entries
  settled : later.ledger.Settled

variable {scope later : TaskRunScope} {generation : ℕ}

theorem find?_self {ids : List String} {id found : String} :
    ids.find? (· = id) = some found ↔ found ∈ ids ∧ found = id := by
  constructor
  · intro h
    exact ⟨List.mem_of_find?_eq_some h, by simpa using List.find?_some h⟩
  · rintro ⟨hmem, rfl⟩
    obtain ⟨other, hother⟩ := Option.isSome_iff_exists.mp
      (List.find?_isSome.mpr ⟨found, hmem, by simp⟩ : (ids.find? (· = found)).isSome)
    obtain rfl : other = found := by simpa using List.find?_some hother
    exact hother

theorem factByKey_eq_some (hsettled : scope.ledger.Settled) {key : String} {fact : TaskFact} :
    scope.factByKey key = some fact ↔ fact ∈ scope.taskFacts ∧ taskFactKey fact = key := by
  constructor
  · intro h
    obtain ⟨hmem, hkey⟩ := findLast_eq_some h
    exact ⟨hmem, of_decide_eq_true hkey⟩
  · rintro ⟨hmem, rfl⟩
    have hkeys := owned_keys hsettled scope.run.owner.sessionId scope.run.owner.epoch
    have hnodup : (scope.taskFacts.map taskFactKey).Nodup := by
      rw [taskFacts, List.map_map]
      exact hkeys
    rw [← List.nodup_reverse, ← List.map_reverse] at hnodup
    exact find?_key hnodup (List.mem_reverse.mpr hmem)

namespace Extended

variable (h : Extended scope later)

include h

theorem ownerEntries : scope.currentOwnerEntries <+: later.currentOwnerEntries := by
  have howned : later.ownedBy = scope.ownedBy := by
    funext entry
    rw [ownedBy, ownedBy, h.owner]
  rw [currentOwnerEntries, currentOwnerEntries, howned]
  exact h.entries.filter _

theorem facts : scope.taskFacts <+: later.taskFacts := h.ownerEntries.map _

theorem factByKey {key : String} {fact : TaskFact} (hfact : scope.factByKey key = some fact) :
    later.factByKey key = some fact := by
  obtain ⟨hmem, hkey⟩ := findLast_eq_some hfact
  exact (factByKey_eq_some h.settled).mpr ⟨h.facts.subset hmem, of_decide_eq_true hkey⟩

theorem taskReservation {toolCallId : ToolCallId} {reservation : TaskReservationFact}
    (hreservation : scope.taskReservation toolCallId = some reservation) :
    later.taskReservation toolCallId = some reservation :=
  (h.facts.filterMap TaskFact.reservation).find?_eq_some hreservation

theorem taskIdentityFact {toolCallId : ToolCallId} {identity : TaskIdentityFact}
    (hidentity : scope.taskIdentityFacts.find? (·.toolCallId = toolCallId) = some identity) :
    later.taskIdentityFacts.find? (·.toolCallId = toolCallId) = some identity :=
  (h.facts.filterMap TaskFact.identities).find?_eq_some hidentity

theorem taskAuthorization {toolCallId : ToolCallId} {authorization : TaskAuthorizationFact}
    (hauthorization : scope.taskAuthorization toolCallId = some authorization) :
    later.taskAuthorization toolCallId = some authorization :=
  (h.facts.filterMap TaskFact.authorization).find?_eq_some hauthorization

theorem returnedJobs : scope.returnedJobs generation ⊆ later.returnedJobs generation := by
  intro jobId hjob
  obtain ⟨receipt, hreceipt, hjob⟩ := List.mem_filterMap.mp hjob
  refine List.mem_filterMap.mpr ⟨receipt, (h.facts.filterMap TaskFact.receipt).subset hreceipt, ?_⟩
  split at hjob
  · rename_i id status _
    obtain ⟨hgeneration, hid⟩ := Option.ite_none_right_eq_some.mp hjob
    obtain ⟨authorization, hauthorization, rfl⟩ := Option.map_eq_some_iff.mp hgeneration
    rw [h.taskAuthorization hauthorization, Option.map_some, if_pos rfl, hid]
  · cases hjob

/-! As long as no generation is opened, the owner's tasks stay what they are. -/

theorem unopened (hgeneration : later.taskGeneration = scope.taskGeneration) :
    ∃ new, later.currentOwnerEntries = scope.currentOwnerEntries ++ new ∧
      ∀ entry ∈ new, opensGeneration entry = false := by
  obtain ⟨new, heq⟩ := h.ownerEntries
  refine ⟨new, heq.symm, ?_⟩
  have hincreasing : (later.currentOwnerEntries.map (·.sequence)).Pairwise (· < ·) := by
    have hall : (later.ledger.entries.map (·.sequence)).Pairwise (· < ·) :=
      (settled_ordered h.settled).2.1 ▸ List.pairwise_lt_range'
    exact hall.sublist (List.filter_sublist.map _)
  rw [← heq, List.map_append, List.pairwise_append] at hincreasing
  by_contra hopens
  push Not at hopens
  obtain ⟨entry, hentry, hopen⟩ := hopens
  obtain ⟨last, hlast⟩ : ∃ last, findLast opensGeneration new = some last :=
    Option.ne_none_iff_exists'.mp (findLast_ne_none.mpr ⟨entry, hentry, by simpa using hopen⟩)
  have hlater : later.taskGeneration = last.sequence := by
    rw [taskGeneration, ← heq, findLast_append, hlast]
    rfl
  have hmem := List.mem_map_of_mem (f := (·.sequence)) (findLast_eq_some hlast).1
  have hbefore : scope.taskGeneration < last.sequence := by
    rw [taskGeneration]
    cases hfound : findLast opensGeneration scope.currentOwnerEntries with
    | none =>
      have hsettled := h.settled.entries last (List.mem_of_mem_filter
        (heq ▸ List.mem_append_right _ (findLast_eq_some hlast).1))
      exact hsettled.1.sequence.2
    | some first =>
      exact hincreasing.2.2 _ (List.mem_map_of_mem (findLast_eq_some hfound).1) _ hmem
  omega

variable (hgeneration : later.taskGeneration = scope.taskGeneration)

include hgeneration

theorem sameReservations : later.taskReservations = scope.taskReservations := by
  obtain ⟨new, heq, hnew⟩ := h.unopened hgeneration
  have hnone : (new.map (·.fact)).filterMap TaskFact.reservation = [] := by
    rw [List.filterMap_map, List.filterMap_eq_nil_iff]
    intro entry hentry
    have hopens := hnew entry hentry
    rw [opensGeneration, opening] at hopens
    cases hfact : entry.fact <;> simp_all [TaskFact.kind, TaskFact.reservation]
  rw [taskReservations, taskFacts, heq, List.map_append, List.filterMap_append, hnone, List.append_nil]
  rfl

theorem sameIdentityEntry (sequence : ℕ) :
    later.identityEntry sequence = scope.identityEntry sequence := by
  obtain ⟨new, heq, hnew⟩ := h.unopened hgeneration
  have hnone : new.find? (fun entry ↦ entry.sequence = sequence &&
      entry.fact.kind = .taskIdentitiesBound) = none := by
    rw [List.find?_eq_none]
    intro entry hentry
    have hopens := hnew entry hentry
    rw [opensGeneration, opening] at hopens
    simp_all
  rw [identityEntry, heq, List.find?_append, hnone, Option.or_none, identityEntry]

theorem sameAgents : later.ownedAgents generation = scope.ownedAgents generation := by
  rw [ownedAgents, ownedAgents, runtimeIdentities, runtimeIdentities, h.sameIdentityEntry hgeneration,
    h.sameReservations hgeneration]
  cases scope.identityEntry generation with
  | none => rfl
  | some identity =>
    dsimp only
    cases findLast (·.toolCallId = identity.toolCallId) scope.taskReservations with
    | none => rfl
    | some reservation => simp [List.map_filterMap, Function.comp_def]

/-- The jobs of a generation only become more. -/
theorem moreJobs : scope.ownedJobs generation ⊆ later.ownedJobs generation := by
  rw [ownedJobs, ownedJobs, runtimeIdentities, runtimeIdentities, h.sameIdentityEntry hgeneration,
    h.sameReservations hgeneration]
  cases scope.identityEntry generation with
  | none => exact List.Subset.refl _
  | some identity =>
    dsimp only
    cases findLast (·.toolCallId = identity.toolCallId) scope.taskReservations with
    | none => exact List.Subset.refl _
    | some reservation =>
      intro jobId hjob
      simp only [List.filterMap_filterMap, List.mem_filterMap] at hjob ⊢
      obtain ⟨binding, hbinding, hjob⟩ := hjob
      refine ⟨binding, hbinding, ?_⟩
      obtain ⟨request, hrequest, hjob⟩ := Option.bind_eq_some_iff.mp (Option.bind_map ▸ hjob)
      rw [hrequest, Option.map_some, Option.bind_some]
      obtain hbound | ⟨hunbound, hfound⟩ := Option.or_eq_some_iff.mp hjob
      · exact Option.or_eq_some_iff.mpr (.inl hbound)
      · obtain ⟨hmem, rfl⟩ := find?_self.mp hfound
        exact Option.or_eq_some_iff.mpr (.inr ⟨hunbound, find?_self.mpr ⟨h.returnedJobs hmem, rfl⟩⟩)

end Extended

end TaskRunScope

/-! A fact is found by its call. -/

namespace TaskRunScope

section Found

variable {scope : TaskRunScope} (hsettled : scope.ledger.Settled)

include hsettled

theorem find_projected {α : Type} {project : TaskFact → Option α} {toolCallId : α → ToolCallId}
    (hkey : ∀ fact fact' x x', project fact = some x → project fact' = some x' →
      toolCallId x = toolCallId x' → taskFactKey fact = taskFactKey fact')
    {fact : TaskFact} {x : α} (h : fact ∈ scope.taskFacts) (hx : project fact = some x) :
    (scope.taskFacts.filterMap project).find? (toolCallId · = toolCallId x) = some x := by
  have hnodup := owned_calls hsettled project toolCallId hkey scope.run.owner.sessionId
    scope.run.owner.epoch
  have hfacts : (ownedEntries scope.run.owner.sessionId scope.run.owner.epoch
      scope.ledger.entries).filterMap (project ·.fact) = scope.taskFacts.filterMap project := by
    rw [taskFacts, List.filterMap_map]
    rfl
  rw [hfacts] at hnodup
  exact find?_key hnodup (List.mem_filterMap.mpr ⟨fact, h, hx⟩)

theorem find_reservation {reservation : TaskReservationFact} (h : reservation.fact ∈ scope.taskFacts) :
    scope.taskReservation reservation.toolCallId = some reservation := by
  refine find_projected hsettled ?_ h rfl
  intro fact fact' reservation reservation' hfact hfact' heq
  cases fact <;> cases hfact
  cases fact' <;> cases hfact'
  obtain rfl := heq
  rfl

theorem find_identities {identity : TaskIdentityFact}
    (h : .taskIdentitiesBound identity.toolCallId identity.bindings ∈ scope.taskFacts) :
    scope.taskIdentityFacts.find? (·.toolCallId = identity.toolCallId) = some identity := by
  refine find_projected hsettled ?_ h rfl
  intro fact fact' identity identity' hfact hfact' heq
  cases fact <;> cases hfact
  cases fact' <;> cases hfact'
  obtain rfl := heq
  rfl

end Found

variable {scope : TaskRunScope} {toolCallId : ToolCallId}

theorem reservation_mem {reservation : TaskReservationFact}
    (h : scope.taskReservation toolCallId = some reservation) : reservation.fact ∈ scope.taskFacts := by
  obtain ⟨fact, hfact, hreservation⟩ := List.mem_filterMap.mp (List.mem_of_find?_eq_some h)
  cases fact <;> cases hreservation
  exact hfact

theorem identities_mem {identity : TaskIdentityFact}
    (h : scope.taskIdentityFacts.find? (·.toolCallId = toolCallId) = some identity) :
    .taskIdentitiesBound identity.toolCallId identity.bindings ∈ scope.taskFacts := by
  obtain ⟨fact, hfact, hidentity⟩ := List.mem_filterMap.mp (List.mem_of_find?_eq_some h)
  cases fact <;> cases hidentity
  exact hfact

theorem authorization_mem {authorization : TaskAuthorizationFact}
    (h : scope.taskAuthorization toolCallId = some authorization) :
    .taskControlAuthorized authorization.toolCallId authorization.control authorization.taskGeneration
      authorization.inputKey authorization.targets ∈ scope.taskFacts := by
  obtain ⟨fact, hfact, hauthorization⟩ := List.mem_filterMap.mp (List.mem_of_find?_eq_some h)
  cases fact <;> cases hauthorization
  exact hfact

end TaskRunScope

end OmpLazy.Gates

import OmpLazy.Continuation.ContinuationCoordinator
import OmpLazy.State.IndexCoherence

namespace OmpLazy.Continuation

open OmpLazy.State OmpLazy.State.Sample Relation

section Resolving

variable {index : ActiveIndex} {runs : List AnyRun} {entry : ActiveIndexEntry} {run : AnyRun}

theorem statusHintMatches_iff :
    statusHintMatches entry run.status = true ↔ statusHint run = some entry.statusHint := by
  cases h : run.status <;> simp [statusHintMatches, statusHint, h, eq_comm]

theorem hintMatches_iff : hintMatches entry run = true ↔ statusHint run = some entry.statusHint := by
  cases h : run.status <;> simp [hintMatches, statusHint, h, eq_comm]

/-- In a valid index an entry is found by its workflow and session. -/
theorem find?_entry (hvalid : index.Valid) (hmem : entry ∈ index.entries) :
    (index.entries.find? fun candidate ↦
      candidate.workflow = entry.workflow ∧ candidate.sessionId = entry.sessionId) = some entry := by
  obtain ⟨found, hfound⟩ := Option.isSome_iff_exists.mp
    (List.find?_isSome.mpr ⟨entry, hmem, by simp⟩ : (index.entries.find? fun candidate ↦
      candidate.workflow = entry.workflow ∧ candidate.sessionId = entry.sessionId).isSome)
  have hkey := List.find?_some hfound
  simp only [decide_eq_true_eq] at hkey
  have hsame : found = entry := List.inj_on_of_nodup_map hvalid.keys (List.mem_of_find?_eq_some hfound)
    hmem (Prod.ext hkey.1 hkey.2)
  rw [hfound, hsame]

/-- All of an entry that `resolveWorkflow` compares with the run. -/
structure Matches (entry : ActiveIndexEntry) (run : AnyRun) : Prop where
  workflow : run.workflow = entry.workflow
  sessionId : run.owner.sessionId = entry.sessionId
  ownerEpoch : run.owner.epoch = entry.ownerEpoch
  runRevision : run.revision = entry.runRevision
  transactionRevision : run.transactionRevision = entry.transactionRevision
  statusHint : statusHint run = some entry.statusHint

theorem resolveWorkflow_eq (hvalid : index.Valid) (hmem : entry ∈ index.entries) :
    resolveWorkflow index runs entry.workflow entry.sessionId = .found run ↔
      runs.find? (·.runId = entry.runId) = some run ∧ Matches entry run := by
  rw [resolveWorkflow, find?_entry hvalid hmem]
  dsimp only
  cases hrun : runs.find? (·.runId = entry.runId) with
  | none => simp
  | some found =>
    dsimp only
    split
    · rename_i hdiverged
      simp only [reduceCtorEq, Option.some.injEq, false_iff, not_and]
      rintro rfl hmatches
      obtain ⟨hworkflow, hsession, hepoch, hrevision, htransaction, hhint⟩ := hmatches
      simp [hworkflow, hsession, hepoch, hrevision, htransaction, hintMatches_iff.mpr hhint] at hdiverged
    · rename_i hcoherent
      simp only [ne_eq, not_or, not_not, Bool.not_eq_true', Bool.not_eq_false, hintMatches_iff]
        at hcoherent
      obtain ⟨hworkflow, hsession, hepoch, hrevision, htransaction, hhint⟩ := hcoherent
      simp only [ResolvedWorkflow.found.injEq, Option.some.injEq, iff_self_and]
      rintro rfl
      exact ⟨hworkflow, hsession, hepoch, hrevision, htransaction, hhint⟩

theorem resolveActiveRun_eq (hvalid : index.Valid) (hmem : entry ∈ index.entries) :
    resolveActiveRun index ⟨runs, entry.workflow, entry.sessionId⟩ = .ok run ↔
      runs.find? (·.runId = entry.runId) = some run ∧ Matches entry run ∧
        entry.transactionRevision = index.revision := by
  rw [resolveActiveRun, ActiveIndex.validateActiveIndex_eq_ok.mpr hvalid]
  dsimp only
  rw [find?_entry hvalid hmem]
  dsimp only
  cases hrun : runs.find? (·.runId = entry.runId) with
  | none => simp
  | some found =>
    dsimp only
    constructor
    · intro h
      split at h
      · cases h
      split at h
      · cases h
      split at h
      · cases h
      rename_i hrevisions howner hhint
      simp only [ne_eq, not_or, not_not] at hrevisions howner
      obtain rfl := Except.ok.inj h
      have hhint := statusHintMatches_iff.mp (by simpa using hhint)
      exact ⟨rfl, ⟨howner.1, howner.2.1, howner.2.2, hrevisions.1, hrevisions.2.1, hhint⟩, hrevisions.2.2⟩
    · rintro ⟨hfound, hmatches, hlatest⟩
      obtain rfl := Option.some.inj hfound
      obtain ⟨hworkflow, hsession, hepoch, hrevision, htransaction, hhint⟩ := hmatches
      rw [if_neg (by simp [hrevision, htransaction, hlatest]),
        if_neg (by simp [hworkflow, hsession, hepoch]), if_neg (by simp [statusHintMatches_iff, hhint])]

/-- A run that agrees with its entry and owns the session is one that `resolveWorkflow` accepts. -/
theorem matches_of_agrees (h : Agrees entry run) (hsession : entry.sessionId = run.owner.sessionId) :
    Matches entry run :=
  ⟨h.workflow.symm, hsession.symm, h.ownerEpoch.symm, h.runRevision.symm, h.transactionRevision.symm,
    h.statusHint⟩

end Resolving

/-- Both resolvers accept the entry, with the same run. -/
def ResolversAgree (index : ActiveIndex) (runs : List AnyRun) (entry : ActiveIndexEntry) : Prop :=
  ∃ run, resolveActiveRun index ⟨runs, entry.workflow, entry.sessionId⟩ = .ok run ∧
    resolveWorkflow index runs entry.workflow entry.sessionId = .found run

/-- In a healthy root the resolvers agree on an entry whose run was loaded exactly when no other run was
updated after it; `resolveWorkflow` finds it in any case. -/
theorem resolvers_agree_iff {root : StateRoot} {disk₀ disk : Disk} {revision : ℕ} {index : ActiveIndex}
    {runs : List AnyRun} {entry : ActiveIndexEntry} (hempty : EmptyRoot disk₀)
    (hrun : ReflTransGen (RootStep root) disk₀ disk) (hhealthy : inspectRecovery disk = .healthy revision)
    (hindex : readIndex disk = .ok index)
    (hruns : ∀ run ∈ runs, readRun root disk run.runId = .ok (some run))
    (hentry : entry ∈ index.entries) :
    (ResolversAgree index runs entry ↔
      entry.runId ∈ runs.map (·.runId) ∧ entry.transactionRevision = index.revision) ∧
    (entry.runId ∈ runs.map (·.runId) → ∃ run ∈ runs,
      resolveWorkflow index runs entry.workflow entry.sessionId = .found run) := by
  obtain ⟨index', events, stored, hindex', -, hholds, hdescribes, -, -⟩ :=
    level_of_healthy hempty hrun hhealthy
  obtain rfl := Except.ok.inj (hindex.symm.trans hindex')
  have hvalid := (readIndex_settled hindex).2
  have hfound : entry.runId ∈ runs.map (·.runId) → ∃ run ∈ runs,
      runs.find? (·.runId = entry.runId) = some run ∧ Matches entry run := by
    intro hmem
    obtain ⟨loaded, hloaded, hid⟩ := List.mem_map.mp hmem
    obtain ⟨run, hfind⟩ := Option.isSome_iff_exists.mp
      (List.find?_isSome.mpr ⟨loaded, hloaded, by simpa using hid⟩ :
        (runs.find? (·.runId = entry.runId)).isSome)
    have hmemRun := List.mem_of_find?_eq_some hfind
    have hrunId : run.runId = entry.runId := by simpa using List.find?_some hfind
    obtain ⟨hagrees, hsession⟩ := hdescribes.read_agrees hholds (hruns run hmemRun) hentry hrunId.symm
    exact ⟨run, hmemRun, hfind, matches_of_agrees hagrees hsession⟩
  constructor
  · constructor
    · rintro ⟨run, hactive, -⟩
      obtain ⟨hfind, -, hlatest⟩ := (resolveActiveRun_eq hvalid hentry).mp hactive
      have hrunId : run.runId = entry.runId := by simpa using List.find?_some hfind
      exact ⟨List.mem_map.mpr ⟨run, List.mem_of_find?_eq_some hfind, hrunId⟩, hlatest⟩
    · rintro ⟨hmem, hlatest⟩
      obtain ⟨run, -, hfind, hmatches⟩ := hfound hmem
      exact ⟨run, (resolveActiveRun_eq hvalid hentry).mpr ⟨hfind, hmatches, hlatest⟩,
        (resolveWorkflow_eq hvalid hentry).mpr ⟨hfind, hmatches⟩⟩
  · intro hmem
    obtain ⟨run, hmemRun, hfind, hmatches⟩ := hfound hmem
    exact ⟨run, hmemRun, (resolveWorkflow_eq hvalid hentry).mpr ⟨hfind, hmatches⟩⟩

theorem resolvers_agree_created :
    ResolversAgree Sample.index [Sample.run] (indexEntry Sample.run 1 .active) := by
  have hhealthy : inspectRecovery created = .healthy 1 := by decide
  have hindex : readIndex created = .ok Sample.index := by decide
  have hruns : ∀ run ∈ [Sample.run], readRun root created run.runId = .ok (some run) := by
    decide
  exact (resolvers_agree_iff initial_empty created_reachable hhealthy hindex hruns (by decide)).1.mpr
    ⟨by decide, by decide⟩

/-- Two sessions own a live run each: the one that was updated first is found by one resolver, and
reported as diverged by the other. -/
theorem resolvers_disagree_shared :
    ReflTransGen (RootStep root) initial shared ∧ inspectRecovery shared = .healthy 2 ∧
      ∃ index, readIndex shared = .ok index ∧ indexEntry Sample.run 1 .active ∈ index.entries ∧
        readRun root shared Sample.run.runId = .ok (some Sample.run) ∧
        resolveWorkflow index [Sample.run] .ulwLoop Sample.run.owner.sessionId = .found Sample.run ∧
        resolveActiveRun index ⟨[Sample.run], .ulwLoop, Sample.run.owner.sessionId⟩ =
          .error .revisionMismatch := by
  have hindex : readIndex shared = .ok
      ⟨.v2 1, 2, [indexEntry Sample.run 1 .active, indexEntry otherRun 2 .paused]⟩ := by decide +kernel
  exact ⟨shared_reachable, by decide +kernel, _, hindex, by decide, by decide +kernel, by decide, by decide⟩

end OmpLazy.Continuation

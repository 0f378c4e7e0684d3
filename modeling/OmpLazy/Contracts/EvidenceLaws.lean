import OmpLazy.Contracts.ArtifactContainment
import OmpLazy.Contracts.RetryCap

/-! What an accepted result says about the files that it was accepted for. -/

namespace OmpLazy.Contracts.Evidence

open OmpLazy.Foundation OmpLazy.Foundation.Schema OmpLazy.Foundation.Text OmpLazy.State

/-! Claims. -/

section Claims

variable {receipt : WorkerEvidenceReceipt} {json : Json} {claims : List CleanupReceiptClaim}

theorem receipt_checked (h : workerEvidenceReceiptSchema json = some receipt) :
    distinctClaims receipt = true ∧ claimsMatchResources receipt = true := by
  obtain ⟨-, hchecks⟩ := Option.filter_eq_some_iff.mp h
  exact (Bool.and_eq_true _ _).mp hchecks

theorem artifacts_sized (h : workerEvidenceReceiptSchema json = some receipt) : 1 ≤ receipt.artifacts.length := by
  obtain ⟨hfields, -⟩ := Option.filter_eq_some_iff.mp h
  obtain ⟨fields, -, h⟩ := strictObject_eq_some hfields
  obtain ⟨-, -, h⟩ := Option.bind_eq_some_iff.mp h
  obtain ⟨-, -, h⟩ := Option.bind_eq_some_iff.mp h
  obtain ⟨runId, -, h⟩ := Option.bind_eq_some_iff.mp h
  obtain ⟨attempt, -, h⟩ := Option.bind_eq_some_iff.mp h
  obtain ⟨runRevision, -, h⟩ := Option.bind_eq_some_iff.mp h
  obtain ⟨ownerEpoch, -, h⟩ := Option.bind_eq_some_iff.mp h
  obtain ⟨taskGeneration, -, h⟩ := Option.bind_eq_some_iff.mp h
  obtain ⟨workerRole, -, h⟩ := Option.bind_eq_some_iff.mp h
  obtain ⟨actualAgentId, -, h⟩ := Option.bind_eq_some_iff.mp h
  obtain ⟨actualJobId, -, h⟩ := Option.bind_eq_some_iff.mp h
  obtain ⟨captureCommit, -, h⟩ := Option.bind_eq_some_iff.mp h
  obtain ⟨output, -, h⟩ := Option.bind_eq_some_iff.mp h
  obtain ⟨artifacts, hartifacts, h⟩ := Option.bind_eq_some_iff.mp h
  obtain ⟨resources, -, h⟩ := Option.bind_eq_some_iff.mp h
  obtain ⟨cleanup, -, h⟩ := Option.bind_eq_some_iff.mp h
  obtain rfl := Option.some.inj h
  obtain ⟨items, -, hsized⟩ := required_eq_some.mp hartifacts
  obtain ⟨-, hsized⟩ := Option.filter_eq_some_iff.mp hsized
  simp only [Bool.and_eq_true, decide_eq_true_eq] at hsized
  exact hsized.1

theorem claims_nodup (h : distinctClaims receipt = true) : (receipt.claims.map (·.resourceId)).Nodup := by
  simp only [distinctClaims, Bool.and_eq_true, decide_eq_true_eq] at h
  exact h.1.2

/-- The claims of a receipt of the second form are of the resources that it names, each of one. -/
theorem claims_perm (hdistinct : distinctClaims receipt = true) (hmatches : claimsMatchResources receipt = true)
    (hcleanup : receipt.cleanup = .receipts claims) :
    (receipt.resources.map (·.resourceId)).Perm (claims.map (·.resourceId)) := by
  rw [claimsMatchResources, hcleanup] at hmatches
  simp only [Bool.and_eq_true, decide_eq_true_eq, List.all_eq_true, List.any_eq_true] at hmatches
  obtain ⟨hlength, hclaimed⟩ := hmatches
  have hnodup : (receipt.resources.map (·.resourceId)).Nodup := by
    simp only [distinctClaims, Bool.and_eq_true, decide_eq_true_eq] at hdistinct
    exact hdistinct.1.1.2
  have hsubset : receipt.resources.map (·.resourceId) ⊆ claims.map (·.resourceId) := by
    intro id hid
    obtain ⟨resource, hresource, rfl⟩ := List.mem_map.mp hid
    obtain ⟨claim, hclaim, hsame⟩ := hclaimed resource hresource
    exact List.mem_map.mpr ⟨claim, hclaim, hsame⟩
  apply (List.subperm_of_subset hnodup hsubset).perm_of_length_le
  rw [List.length_map, List.length_map, hlength]

end Claims

/-! Files. -/

section Files

variable {platform : PathPlatform} {Contents : Type} {host : EvidenceHost platform Contents}
  {evidenceRoot : AbsolutePath platform} {path receiptPath : String} {most : ℕ}
  {file : ContainedFile platform Contents} {bundle : EvidenceBundle platform Contents}

/-- A file of the folder of an attempt, below the repository, that is not empty and not too large. -/
structure Contained (host : EvidenceHost platform Contents) (evidenceRoot : AbsolutePath platform) (most : ℕ)
    (file : ContainedFile platform Contents) : Prop where
  lies : ∃ rootReal, host.realpath evidenceRoot = some rootReal ∧
    isCanonicalPathContained host.lower platform host.canonicalRepository (host.canonical rootReal) = true ∧
      isCanonicalPathContained host.lower platform (host.canonical rootReal) (host.canonical file.displayPath) = true ∧
        file.relativePath = EvidenceHost.relativeTo rootReal file.displayPath
  named : ∃ advertised, host.realpath (host.resolve advertised) = some file.displayPath ∧
    isDisplayPathContained host.lower evidenceRoot (host.resolve advertised) = true
  size : file.size = host.byteLength file.bytes
  nonempty : 0 < file.size
  bounded : file.size ≤ most
  sha256 : file.sha256 = host.sha256 file.bytes

theorem contained_of_file (h : host.containedFile evidenceRoot path most = some file) :
    Contained host evidenceRoot most file := by
  unfold EvidenceHost.containedFile at h
  dsimp only at h
  split at h
  · cases h
  rename_i hdisplayed
  obtain ⟨rootReal, hroot, h⟩ := Option.bind_eq_some_iff.mp h
  split at h
  · cases h
  rename_i hrepository
  obtain ⟨before, hbefore, h⟩ := Option.bind_eq_some_iff.mp h
  split at h
  · cases h
  rename_i hstatus
  obtain ⟨candidateReal, hreal, h⟩ := Option.bind_eq_some_iff.mp h
  split at h
  · cases h
  rename_i hbelow
  obtain ⟨opened, hopened, h⟩ := Option.bind_eq_some_iff.mp h
  split at h
  · cases h
  rename_i hopen
  split at h
  · cases h
  rename_i hread
  obtain rfl := Option.some.inj h
  simp only [Bool.not_eq_true', Bool.not_eq_false] at hdisplayed hrepository hbelow
  simp only [not_or, Bool.not_eq_true', Bool.not_eq_false, not_lt, ne_eq, not_not] at hstatus hopen hread
  have hsize : host.byteLength opened.bytes = before.size := hread.1.trans hopen.2.1
  exact {
    lies := ⟨rootReal, hroot, hrepository, hbelow, rfl⟩
    named := ⟨path, hreal, hdisplayed⟩
    size := rfl
    nonempty := by
      have hpositive := hstatus.2.2.1
      dsimp only
      omega
    bounded := by
      have hmost := hstatus.2.2.2
      dsimp only
      omega
    sha256 := rfl }

/-- The files of a bundle. -/
def EvidenceBundle.files (bundle : EvidenceBundle platform Contents) : List (ContainedFile platform Contents) :=
  bundle.receiptFile :: (bundle.artifacts ++ bundle.cleanupReceipts)

/-- What holds of the evidence that is in order. -/
structure Validated (host : EvidenceHost platform Contents) (evidenceRoot : AbsolutePath platform)
    (bundle : EvidenceBundle platform Contents) : Prop where
  receiptFile : Contained host evidenceRoot maxReceiptBytes bundle.receiptFile
  receipt : host.decodeReceipt bundle.receiptFile.bytes = some bundle.receipt
  unneeded : ∀ scenarioId, bundle.receipt.cleanup = .notApplicable scenarioId → bundle.receipt.resources = []
  artifacts : List.Forall₂ (fun claim file ↦ host.containedFile evidenceRoot claim.path maxArtifactBytes = some file)
    bundle.receipt.artifacts bundle.artifacts
  cleanup : List.Forall₂ (fun claim file ↦ host.cleanupFile evidenceRoot bundle.receipt claim = some file)
    bundle.receipt.claims bundle.cleanupReceipts
  distinct : (bundle.files.map fun file ↦ host.canonical file.displayPath).Nodup
  total : (bundle.files.map (·.size)).sum ≤ maxBundleBytes
  artifactHash : bundle.artifactHash = host.sha256 (host.encode (EvidenceHost.artifactText bundle.artifacts))

theorem validated_of_bundle (h : host.validateEvidenceBundle evidenceRoot receiptPath = .ok bundle) :
    Validated host evidenceRoot bundle := by
  unfold EvidenceHost.validateEvidenceBundle at h
  split at h
  · cases h
  rename_i receiptFile hfile
  split at h
  · cases h
  rename_i receipt hreceipt
  split at h
  · cases h
  rename_i hneeded
  split at h
  · cases h
  rename_i artifacts hartifacts
  split at h
  · cases h
  rename_i cleanupReceipts hcleanup
  dsimp only at h
  split at h
  · cases h
  rename_i hdistinct
  split at h
  · cases h
  rename_i htotal
  obtain rfl := Except.ok.inj h
  exact {
    receiptFile := contained_of_file hfile
    receipt := hreceipt
    unneeded := by
      intro scenarioId hnone
      by_contra hresources
      exact hneeded ⟨congrArg CleanupEvidence.isNotApplicable hnone, hresources⟩
    artifacts := mapM_eq_some.mp hartifacts
    cleanup := mapM_eq_some.mp hcleanup
    distinct := not_not.mp hdistinct
    total := not_lt.mp htotal
    artifactHash := rfl }

end Files

/-! Accepted results. -/

section Accepted

variable {platform : PathPlatform} {Contents Ledger : Type} {host : EvidenceHost platform Contents}
  {evidenceRoot : AbsolutePath platform} {bundle : EvidenceBundle platform Contents} {format : WalFormat Ledger}
  {ledgers : WorkerLedgers Ledger} {call : WorkerCall} {dispatch : DispatchScope} {answer : WorkerAcceptanceResult}
  {head resourceId : String} {file other : ContainedFile platform Contents}

/-- What an accepted call has checked. -/
structure Checked (call : WorkerCall) (dispatch : DispatchScope) (checked : Contracts.EvidenceBundle) (head : String) :
    Prop where
  evidence : call.evidence = .ok checked
  git : call.git = .ok head
  finalGit : call.finalGit = .ok head
  bound : receiptBindingError dispatch checked.receipt head = none

theorem rejectDispatch_not {scope : RejectionScope} {code : String}
    (h : (rejectDispatch ledgers call scope code).answer = some answer) : answer.isAccepted = false := by
  obtain ⟨count, -, rfl⟩ := Option.map_eq_some_iff.mp h
  unfold rejectionResult
  split <;> rfl

theorem checkEvidence_accepted {priorRejections : ℕ}
    (h : (checkEvidence format ledgers call dispatch priorRejections).answer = some answer)
    (haccepted : answer.isAccepted = true) : ∃ checked head, Checked call dispatch checked head ∧
      (answer = .accepted checked.artifactHash ∨ answer = .replayed checked.artifactHash) := by
  have hrejected : ∀ {scope code}, (rejectDispatch ledgers call scope code).answer ≠ some answer := by
    intro scope code hanswer
    rw [rejectDispatch_not hanswer] at haccepted
    cases haccepted
  unfold checkEvidence at h
  dsimp only at h
  split at h
  · exact absurd h hrejected
  split at h
  · exact absurd h hrejected
  rename_i head hgit
  split at h
  · exact absurd h hrejected
  rename_i checked hevidence
  split at h
  · exact absurd h hrejected
  rename_i hbound
  split at h
  · exact absurd h hrejected
  split at h
  · exact absurd h hrejected
  rename_i finalHead hfinal
  split at h
  · exact absurd h hrejected
  rename_i hhead
  rw [not_not.mp hhead] at hfinal
  refine ⟨checked, head, ⟨hevidence, hgit, hfinal, hbound⟩, ?_⟩
  obtain ⟨status, -, hanswer⟩ := Option.map_eq_some_iff.mp h
  cases status with
  | accepted => exact .inl hanswer.symm
  | replayed => exact .inr hanswer.symm
  | duplicateReceipt =>
    obtain rfl := hanswer
    cases haccepted

theorem checked_of_accepted (h : (call.run format ledgers).answer = some answer) (haccepted : answer.isAccepted = true)
    (hdispatch : call.dispatch = .ok dispatch) : ∃ checked head, Checked call dispatch checked head ∧
      (answer = .accepted checked.artifactHash ∨ answer = .replayed checked.artifactHash) := by
  rw [WorkerCall.run, hdispatch] at h
  dsimp only at h
  unfold acceptDispatch at h
  dsimp only at h
  split at h
  · cases h
  split at h
  · obtain rfl := Option.some.inj h
    unfold rejectionResult at haccepted
    split at haccepted <;> cases haccepted
  split at h
  · obtain rfl := Option.some.inj h
    cases haccepted
  · exact checkEvidence_accepted h haccepted

theorem refused_iff {α : Type} {c : Prop} [Decidable c] {code : α} {rest : Option α} :
    (if c then some code else rest) = none ↔ ¬ c ∧ rest = none := by
  by_cases hc : c
  · rw [if_pos hc]
    exact iff_of_false (by simp) (fun h ↦ h.1 hc)
  · rw [if_neg hc, and_iff_right hc]

/-- What a receipt that is bound to a call says of it. -/
structure Bound (dispatch : DispatchScope) (receipt : Contracts.WorkerEvidenceReceipt) (head : String) : Prop where
  runId : receipt.runId = dispatch.run.runId
  attempt : receipt.attempt = dispatch.run.progressRevision
  actualAgentId : receipt.actualAgentId = dispatch.identity.actualAgentId
  captureCommit : receipt.captureCommit = head
  captures : ∀ capture ∈ receipt.captures, capture = ⟨dispatch.run.runId, dispatch.run.progressRevision, head⟩

theorem bound_of_none {receipt : Contracts.WorkerEvidenceReceipt} (h : receiptBindingError dispatch receipt head = none) :
    Bound dispatch receipt head := by
  obtain ⟨hrun, h⟩ := refused_iff.mp h
  obtain ⟨hattempt, h⟩ := refused_iff.mp h
  obtain ⟨-, h⟩ := refused_iff.mp h
  obtain ⟨-, h⟩ := refused_iff.mp h
  obtain ⟨-, h⟩ := refused_iff.mp h
  obtain ⟨hagent, h⟩ := refused_iff.mp h
  obtain ⟨-, h⟩ := refused_iff.mp h
  obtain ⟨-, h⟩ := refused_iff.mp h
  obtain ⟨hcommit, h⟩ := refused_iff.mp h
  obtain ⟨-, h⟩ := refused_iff.mp h
  obtain ⟨-, h⟩ := refused_iff.mp h
  obtain ⟨-, h⟩ := refused_iff.mp h
  obtain ⟨-, h⟩ := refused_iff.mp h
  obtain ⟨-, h⟩ := refused_iff.mp h
  obtain ⟨-, h⟩ := refused_iff.mp h
  obtain ⟨hcaptures, -⟩ := refused_iff.mp h
  refine ⟨not_not.mp hrun, not_not.mp hattempt, not_not.mp hagent, not_not.mp hcommit, fun capture hcapture ↦ ?_⟩
  rw [Bool.not_eq_true, List.any_eq_false] at hcaptures
  have hsame := hcaptures capture hcapture
  simp only [Bool.or_eq_true, decide_eq_true_eq, not_or, not_not] at hsame
  obtain ⟨runId, attempt, commit⟩ := capture
  obtain ⟨⟨rfl, rfl⟩, rfl⟩ := hsame
  rfl

/-- A file that says that the agent of a call has cleaned a resource up, in this attempt of its run and at this commit. -/
def Cleaned (host : EvidenceHost platform Contents) (dispatch : DispatchScope) (head resourceId : String)
    (file : ContainedFile platform Contents) : Prop :=
  (host.parse file.bytes).bind cleanupReceiptSchema =
    some ⟨dispatch.run.runId, dispatch.run.progressRevision, dispatch.identity.actualAgentId, resourceId, head⟩

theorem cleaned_unique {id id' : String} (h : Cleaned host dispatch head id file) (h' : Cleaned host dispatch head id' file) :
    id = id' :=
  congrArg CleanupReceipt.resourceId (Option.some.inj (h.symm.trans h'))

theorem cleaned_of_claim {receipt : WorkerEvidenceReceipt} {claim : CleanupReceiptClaim}
    (hbound : Bound dispatch receipt.bound head) (h : host.cleanupFile evidenceRoot receipt claim = some file) :
    Contained host evidenceRoot maxReceiptBytes file ∧ Cleaned host dispatch head claim.resourceId file := by
  obtain ⟨hfile, hcleans⟩ := Option.filter_eq_some_iff.mp h
  refine ⟨contained_of_file hfile, ?_⟩
  unfold EvidenceHost.cleans at hcleans
  split at hcleans
  · cases hcleans
  rename_i cleanup hcleanup
  simp only [Bool.and_eq_true, decide_eq_true_eq] at hcleans
  obtain ⟨⟨⟨⟨hresource, hrun⟩, hattempt⟩, hagent⟩, hcommit⟩ := hcleans
  rw [Cleaned, hcleanup, ← hresource, ← hbound.runId, ← hbound.attempt, ← hbound.actualAgentId, ← hbound.captureCommit]
  refine congrArg some ?_
  obtain ⟨runId, attempt, actualAgentId, resourceId, captureCommit⟩ := cleanup
  obtain rfl := hrun
  obtain rfl := hattempt
  obtain rfl := hagent
  obtain rfl := hcommit
  rfl

theorem Contained.weaken {most most' : ℕ} (h : Contained host evidenceRoot most file) (hle : most ≤ most') :
    Contained host evidenceRoot most' file :=
  ⟨h.lies, h.named, h.size, h.nonempty, h.bounded.trans hle, h.sha256⟩

theorem files_contained (h : Validated host evidenceRoot bundle) (hbound : Bound dispatch bundle.receipt.bound head) :
    ∀ file ∈ bundle.files, Contained host evidenceRoot maxArtifactBytes file := by
  have hle : maxReceiptBytes ≤ maxArtifactBytes := by decide
  intro file hfile
  obtain rfl | hfile := List.mem_cons.mp hfile
  · exact h.receiptFile.weaken hle
  obtain hfile | hfile := List.mem_append.mp hfile
  · obtain ⟨claim, -, hclaim⟩ := exists_of_forall₂ h.artifacts hfile
    exact contained_of_file hclaim
  · obtain ⟨claim, -, hclaim⟩ := exists_of_forall₂ h.cleanup hfile
    exact (cleaned_of_claim hbound hclaim).1.weaken hle

/-- A claim has one file, and a file is of one claim. -/
theorem claimed_iff (h : Validated host evidenceRoot bundle) (hbound : Bound dispatch bundle.receipt.bound head) :
    resourceId ∈ bundle.receipt.claims.map (·.resourceId) ↔
      ∃ file ∈ bundle.cleanupReceipts, Cleaned host dispatch head resourceId file := by
  constructor
  · intro hid
    obtain ⟨claim, hclaim, rfl⟩ := List.mem_map.mp hid
    obtain ⟨file, hfile, hcleanup⟩ := exists_of_forall₂ h.cleanup.flip hclaim
    exact ⟨file, hfile, (cleaned_of_claim hbound hcleanup).2⟩
  · rintro ⟨file, hfile, hcleaned⟩
    obtain ⟨claim, hclaim, hcleanup⟩ := exists_of_forall₂ h.cleanup hfile
    rw [cleaned_unique hcleaned (cleaned_of_claim hbound hcleanup).2]
    exact List.mem_map_of_mem hclaim

theorem cleaned_once (h : Validated host evidenceRoot bundle) (hbound : Bound dispatch bundle.receipt.bound head)
    (hfile : file ∈ bundle.cleanupReceipts) (hother : other ∈ bundle.cleanupReceipts)
    (hcleaned : Cleaned host dispatch head resourceId file) (hcleaned' : Cleaned host dispatch head resourceId other) :
    file = other := by
  obtain ⟨json, -, hreceipt⟩ := Option.bind_eq_some_iff.mp h.receipt
  have hnodup := claims_nodup (receipt_checked hreceipt).1
  obtain ⟨claim, hclaim, hcleanup⟩ := exists_of_forall₂ h.cleanup hfile
  obtain ⟨claim', hclaim', hcleanup'⟩ := exists_of_forall₂ h.cleanup hother
  have hsame : claim.resourceId = claim'.resourceId := by
    rw [← cleaned_unique hcleaned (cleaned_of_claim hbound hcleanup).2]
    exact cleaned_unique hcleaned' (cleaned_of_claim hbound hcleanup').2
  obtain rfl := List.inj_on_of_nodup_map hnodup hclaim hclaim' hsame
  exact Option.some.inj (hcleanup.symm.trans hcleanup')

/-- The resources are those of the claims, unless the claims are a list of the first form. -/
theorem resources_claimed (h : Validated host evidenceRoot bundle)
    (hform : ∀ claims, bundle.receipt.cleanup ≠ .legacy claims) :
    resourceId ∈ bundle.receipt.resources.map (·.resourceId) ↔
      resourceId ∈ bundle.receipt.claims.map (·.resourceId) := by
  obtain ⟨json, -, hreceipt⟩ := Option.bind_eq_some_iff.mp h.receipt
  obtain ⟨hdistinct, hmatches⟩ := receipt_checked hreceipt
  cases hcleanup : bundle.receipt.cleanup with
  | legacy claims => exact absurd hcleanup (hform claims)
  | receipts claims =>
    rw [WorkerEvidenceReceipt.claims, hcleanup]
    exact (claims_perm hdistinct hmatches hcleanup).mem_iff
  | notApplicable scenarioId =>
    rw [WorkerEvidenceReceipt.claims, hcleanup, h.unneeded scenarioId hcleanup]
    rfl

/-- A result that is accepted has its evidence in the folder of its attempt, in different files of bounded size and all
of the accepted commit; and its agent has cleaned up each resource that the receipt names, of which there is one receipt,
and no other, unless the receipt has its claims in the form of the first version. -/
theorem accepted_evidence (hdispatch : call.dispatch = .ok dispatch)
    (hevidence : call.evidence =
      (host.validateEvidenceBundle evidenceRoot dispatch.input.receiptPath).map EvidenceBundle.summary)
    (h : (call.run format ledgers).answer = some answer) (haccepted : answer.isAccepted = true) :
    ∃ bundle head, host.validateEvidenceBundle evidenceRoot dispatch.input.receiptPath = .ok bundle ∧
      call.git = .ok head ∧ call.finalGit = .ok head ∧
      (answer = .accepted bundle.artifactHash ∨ answer = .replayed bundle.artifactHash) ∧
      (∀ file ∈ bundle.files, Contained host evidenceRoot maxArtifactBytes file) ∧
      (bundle.files.map fun file ↦ host.canonical file.displayPath).Nodup ∧
      (bundle.files.map (·.size)).sum ≤ maxBundleBytes ∧
      (∀ artifact ∈ bundle.receipt.artifacts,
        artifact.capture = ⟨dispatch.run.runId, dispatch.run.progressRevision, head⟩) ∧
      ((∀ claims, bundle.receipt.cleanup ≠ .legacy claims) → ∀ resourceId,
        (resourceId ∈ bundle.receipt.resources.map (·.resourceId) ↔
          ∃ file ∈ bundle.cleanupReceipts, Cleaned host dispatch head resourceId file) ∧
        ∀ file ∈ bundle.cleanupReceipts, ∀ other ∈ bundle.cleanupReceipts, Cleaned host dispatch head resourceId file →
          Cleaned host dispatch head resourceId other → file = other) := by
  obtain ⟨checked, head, hchecked, hanswer⟩ := checked_of_accepted h haccepted hdispatch
  have hvalidated := hchecked.evidence
  rw [hevidence] at hvalidated
  cases hbundle : host.validateEvidenceBundle evidenceRoot dispatch.input.receiptPath with
  | error code =>
    rw [hbundle] at hvalidated
    cases hvalidated
  | ok bundle =>
    rw [hbundle] at hvalidated
    obtain rfl := Except.ok.inj hvalidated
    have hbound := bound_of_none hchecked.bound
    have hvalid := validated_of_bundle hbundle
    refine ⟨bundle, head, rfl, hchecked.git, hchecked.finalGit, hanswer, files_contained hvalid hbound, hvalid.distinct,
      hvalid.total, fun artifact hartifact ↦ hbound.captures _ (List.mem_map_of_mem hartifact), fun hform resourceId ↦ ?_⟩
    rw [resources_claimed hvalid hform]
    exact ⟨claimed_iff hvalid hbound, fun file hfile other hother ↦ cleaned_once hvalid hbound hfile hother⟩

end Accepted

namespace Evidenced

open OmpLazy.State.Sample (run runId lowered)
open OmpLazy.Contracts.Sample (interrupted interruptedDispatch)
open PathPlatform

theorem isName_of {names : List (List Char)} (h : ∀ name ∈ names, ¬ PathRules.Redundant name ∧ '/' ∉ name) :
    ∀ name ∈ names, IsName .posix name := by
  intro name hname
  obtain ⟨hnames, hlacks⟩ := h name hname
  refine ⟨hnames, fun c hc ↦ decide_eq_false ?_⟩
  rintro rfl
  exact hlacks hc

theorem folder_names : ∀ name ∈ [['r'], ['e']], ¬ PathRules.Redundant name ∧ '/' ∉ name := by decide

theorem file_names (file : Char) (h : file ≠ '.' ∧ file ≠ '/') :
    ∀ name ∈ [['r'], ['e'], [file]], ¬ PathRules.Redundant name ∧ '/' ∉ name := by
  intro name hname
  simp only [List.mem_cons, List.not_mem_nil, or_false] at hname
  obtain rfl | rfl | rfl := hname
  · decide
  · decide
  · simp only [PathRules.Redundant, List.mem_singleton, List.cons.injEq, and_true, reduceCtorEq, false_or, and_false, or_false]
    exact ⟨h.1, h.2.symm⟩

/-- The folder of an attempt, and a file in it. -/
def folder : AbsolutePath .posix := ⟨[[]], [['r'], ['e']], .root, isName_of folder_names⟩

def filed (file : Char) (h : file ≠ '.' ∧ file ≠ '/') : AbsolutePath .posix :=
  ⟨[[]], [['r'], ['e'], [file]], .root, isName_of (file_names file h)⟩

def zeros (count : ℕ) : String := String.ofList (List.replicate count '0')

def capture : Json := .object [("runId", .string runId), ("attempt", .nat 1), ("commit", .string (zeros 40))]

def receipt : Json := .object [("schemaVersion", .nat 1), ("kind", .string "omp_lazy_worker_evidence"),
  ("runId", .string runId), ("attempt", .nat 1), ("runRevision", .nat 1), ("ownerEpoch", .nat 1),
  ("taskGeneration", .nat 2), ("workerRole", .string WorkerRole.low.text), ("actualAgentId", .string "agent-a"),
  ("actualJobId", .string "job-a"), ("captureCommit", .string (zeros 40)),
  ("output", .object [("exitCode", .nat 0), ("truncated", .bool false), ("schemaOverridden", .bool false),
    ("aborted", .bool false), ("blocked", .bool false)]),
  ("artifacts", .array [.object [("path", .string "output.txt"), ("capture", capture)]]),
  ("resources", .array [.object [("resourceId", .string "server"), ("kind", .string "process")]]),
  ("cleanup", .object [("status", .string "receipts"),
    ("claims", .array [.object [("resourceId", .string "server"), ("receiptPath", .string "cleanup.json")]])])]

def cleanup : Json := .object [("schemaVersion", .nat 1), ("kind", .string "omp_lazy_cleanup"),
  ("runId", .string runId), ("attempt", .nat 1), ("actualAgentId", .string "agent-a"), ("resourceId", .string "server"),
  ("status", .string "cleaned"), ("captureCommit", .string (zeros 40))]

theorem letter_r : 'r' ≠ '.' ∧ 'r' ≠ '/' := by decide

theorem letter_o : 'o' ≠ '.' ∧ 'o' ≠ '/' := by decide

theorem letter_c : 'c' ≠ '.' ∧ 'c' ≠ '/' := by decide

def evidenceHost : EvidenceHost .posix String where
  lower := lowered
  canonicalRepository := ['/', 'r']
  resolve path :=
    if path = "receipt.json" then filed 'r' letter_r
    else if path = "output.txt" then filed 'o' letter_o else filed 'c' letter_c
  realpath path := if '\x00' ∈ path.spelled then none else some path
  lstat _ := some ⟨false, true, 1⟩
  openFile path := some ⟨true, 1, 0, String.ofList (path.names.getLastD []), 1, 0⟩
  byteLength := String.length
  sha256 _ := zeros 64
  encode := id
  parse text := if text = "r" then some receipt else if text = "c" then some cleanup else none

def evidencedCall : WorkerCall :=
  { interrupted with
    aborted := false
    git := .ok (zeros 40)
    evidence := (evidenceHost.validateEvidenceBundle folder "receipt.json").map EvidenceBundle.summary
    abortedLater := false
    finalGit := .ok (zeros 40) }

theorem evidencedCall_dispatch : evidencedCall.dispatch = .ok interruptedDispatch := by decide

theorem evidencedCall_accepted :
    (evidencedCall.run State.Migration.Sample.format (Contracts.Sample.rejectedLedgers 0)).answer =
      some (.accepted (zeros 64)) := by decide +kernel
theorem validated_receipt : (evidenceHost.validateEvidenceBundle folder "receipt.json").map (fun bundle ↦
    (bundle.receipt.cleanup, bundle.receipt.resources.map (·.resourceId))) =
      .ok (.receipts [⟨"server", "cleanup.json"⟩], ["server"]) := by decide +kernel

theorem bundle_server {bundle : EvidenceBundle .posix String}
    (h : evidenceHost.validateEvidenceBundle folder "receipt.json" = .ok bundle) :
    (∀ claims, bundle.receipt.cleanup ≠ .legacy claims) ∧
      bundle.receipt.resources.map (·.resourceId) = ["server"] := by
  have hreceipt := validated_receipt
  rw [h] at hreceipt
  obtain ⟨hcleanup, hresources⟩ := Prod.mk.inj (Except.ok.inj hreceipt)
  refine ⟨fun claims hlegacy ↦ ?_, hresources⟩
  rw [hlegacy] at hcleanup
  cases hcleanup

end Evidenced

open Evidenced in
/-- A worker has cleaned up the process that it has started. -/
theorem evidenced_server : ∃ file, Contained evidenceHost folder maxArtifactBytes file ∧
    Cleaned evidenceHost Contracts.Sample.interruptedDispatch (zeros 40) "server" file := by
  have hevidence : evidencedCall.evidence = (evidenceHost.validateEvidenceBundle folder
      Contracts.Sample.interruptedDispatch.input.receiptPath).map EvidenceBundle.summary := rfl
  obtain ⟨bundle, head, hbundle, hgit, -, -, hfiles, -, -, -, hcleaned⟩ :=
    accepted_evidence evidencedCall_dispatch hevidence evidencedCall_accepted rfl
  obtain rfl : zeros 40 = head := Except.ok.inj hgit
  obtain ⟨hform, hresources⟩ := bundle_server hbundle
  obtain ⟨file, hfile, hserver⟩ := (hcleaned (hform · ·) "server").1.mp (by rw [hresources]; exact List.mem_singleton_self _)
  exact ⟨file, hfiles file (List.mem_cons_of_mem _ (List.mem_append_right _ hfile)), hserver⟩

/-! The hash of the artifacts. -/

section Hash

variable {platform : PathPlatform} {Contents : Type} {host host' : EvidenceHost platform Contents}
  {evidenceRoot evidenceRoot' : AbsolutePath platform} {path receiptPath receiptPath' : String} {most : ℕ}
  {file : ContainedFile platform Contents} {bundle bundle' : EvidenceBundle platform Contents}

/-- No path of the file system and no hash has a character zero. -/
structure Unterminated (host : EvidenceHost platform Contents) : Prop where
  realpath : ∀ path real, host.realpath path = some real → '\x00' ∉ real.spelled
  sha256 : ∀ bytes, '\x00' ∉ (host.sha256 bytes).toList

theorem Contained.unterminated (h : Contained host evidenceRoot most file) (hhost : Unterminated host) :
    '\x00' ∉ file.relativePath.toList ∧ '\x00' ∉ file.sha256.toList := by
  obtain ⟨rootReal, -, -, -, hrelative⟩ := h.lies
  obtain ⟨advertised, hreal, -⟩ := h.named
  refine ⟨fun hmem ↦ ?_, h.sha256 ▸ hhost.sha256 _⟩
  rw [hrelative, EvidenceHost.relativeTo, String.toList_ofList] at hmem
  obtain ⟨c, hc, hslash⟩ := List.mem_map.mp hmem
  have hzero : c = '\x00' := by
    split at hslash
    · cases hslash
    · exact hslash
  exact hhost.realpath _ _ hreal (hzero ▸ List.mem_of_mem_drop hc)

/-- What is hashed: the name of each artifact, and its hash. -/
def artifactFields (artifacts : List (ContainedFile platform Contents)) : List (List Char) :=
  artifacts.flatMap fun file ↦ [file.relativePath.toList, file.sha256.toList]

theorem artifactText_fields (artifacts : List (ContainedFile platform Contents)) :
    (EvidenceHost.artifactText artifacts).toList = ['\x00'].intercalate (artifactFields artifacts) := by
  rw [EvidenceHost.artifactText, String.toList_intercalate, artifactFields, ← Paths.intercalate_pairs, List.map_map]
  simp only [Function.comp_def, String.toList_append]
  rfl

theorem Validated.fields_lack (h : Validated host evidenceRoot bundle) (hhost : Unterminated host) :
    ∀ field ∈ artifactFields bundle.artifacts, '\x00' ∉ field := by
  intro field hfield
  obtain ⟨file, hfile, hfield⟩ := List.mem_flatMap.mp hfield
  obtain ⟨claim, -, hclaim⟩ := exists_of_forall₂ h.artifacts hfile
  obtain ⟨hname, hhash⟩ := (contained_of_file hclaim).unterminated hhost
  simp only [List.mem_cons, List.not_mem_nil, or_false] at hfield
  obtain rfl | rfl := hfield
  · exact hname
  · exact hhash

theorem Validated.artifacts_ne (h : Validated host evidenceRoot bundle) : artifactFields bundle.artifacts ≠ [] := by
  obtain ⟨json, -, hreceipt⟩ := Option.bind_eq_some_iff.mp h.receipt
  have hlength : 1 ≤ bundle.receipt.artifacts.length := artifacts_sized hreceipt
  rw [h.artifacts.length_eq] at hlength
  intro hnil
  rw [artifactFields, List.flatMap_eq_nil_iff] at hnil
  cases hartifacts : bundle.artifacts with
  | nil =>
    rw [hartifacts] at hlength
    cases hlength
  | cons file files =>
    rw [hartifacts] at hnil
    cases hnil file List.mem_cons_self

/-- What the two hashes are of, and what the hashes in them are of. -/
def hashedPairs (host : EvidenceHost platform Contents) (bundle bundle' : EvidenceBundle platform Contents) :
    List (Contents × Contents) :=
  (host.encode (EvidenceHost.artifactText bundle.artifacts), host.encode (EvidenceHost.artifactText bundle'.artifacts)) ::
    (bundle.artifacts.map (·.bytes)).zip (bundle'.artifacts.map (·.bytes))

theorem same_or_collision {files files' : List (ContainedFile platform Contents)}
    (h : List.Forall₂ (fun file file' ↦ file.relativePath.toList = file'.relativePath.toList ∧
      file.sha256.toList = file'.sha256.toList) files files')
    (hfiles : ∀ file ∈ files, file.sha256 = host.sha256 file.bytes)
    (hfiles' : ∀ file ∈ files', file.sha256 = host.sha256 file.bytes) :
    List.Forall₂ (fun file file' ↦ file.relativePath = file'.relativePath ∧ file.bytes = file'.bytes) files files' ∨
      ∃ pair ∈ (files.map (·.bytes)).zip (files'.map (·.bytes)),
        pair.1 ≠ pair.2 ∧ host.sha256 pair.1 = host.sha256 pair.2 := by
  induction h with
  | nil => exact .inl .nil
  | @cons file file' files files' hsame _ ih =>
    obtain ⟨hfile, hfiles⟩ := List.forall_mem_cons.mp hfiles
    obtain ⟨hfile', hfiles'⟩ := List.forall_mem_cons.mp hfiles'
    have hhash : host.sha256 file.bytes = host.sha256 file'.bytes := by
      rw [← hfile, ← hfile']
      exact String.toList_injective hsame.2
    by_cases hbytes : file.bytes = file'.bytes
    · obtain hsames | ⟨pair, hpair, hcollision⟩ := ih hfiles hfiles'
      · exact .inl (.cons ⟨String.toList_injective hsame.1, hbytes⟩ hsames)
      · exact .inr ⟨pair, List.mem_cons_of_mem _ hpair, hcollision⟩
    · exact .inr ⟨(file.bytes, file'.bytes), List.mem_cons_self, hbytes, hhash⟩

theorem Validated.hashed (h : Validated host evidenceRoot bundle) :
    ∀ file ∈ bundle.artifacts, file.sha256 = host.sha256 file.bytes := by
  intro file hfile
  obtain ⟨claim, -, hclaim⟩ := exists_of_forall₂ h.artifacts hfile
  exact (contained_of_file hclaim).sha256

/-- The hash of the artifacts binds their names and what they hold, one by one in the order of the receipt: where two
bundles have one hash and differ, there is a collision among what was hashed. -/
theorem artifactHash_binds (hhost : Unterminated host) (hhost' : Unterminated host')
    (hsha256 : host'.sha256 = host.sha256) (hencode : host'.encode = host.encode)
    (hinjective : Function.Injective host.encode)
    (h : host.validateEvidenceBundle evidenceRoot receiptPath = .ok bundle)
    (h' : host'.validateEvidenceBundle evidenceRoot' receiptPath' = .ok bundle')
    (hhash : bundle.artifactHash = bundle'.artifactHash) :
    List.Forall₂ (fun file file' ↦ file.relativePath = file'.relativePath ∧ file.bytes = file'.bytes)
        bundle.artifacts bundle'.artifacts ∨
      ∃ pair ∈ hashedPairs host bundle bundle', pair.1 ≠ pair.2 ∧ host.sha256 pair.1 = host.sha256 pair.2 := by
  have hvalid := validated_of_bundle h
  have hvalid' := validated_of_bundle h'
  rw [hvalid.artifactHash, hvalid'.artifactHash, hsha256, hencode] at hhash
  by_cases hencoded : host.encode (EvidenceHost.artifactText bundle.artifacts) =
      host.encode (EvidenceHost.artifactText bundle'.artifacts)
  · have htext := congrArg String.toList (hinjective hencoded)
    rw [artifactText_fields, artifactText_fields] at htext
    have hfields := Paths.intercalate_injective (hvalid.fields_lack hhost) (hvalid'.fields_lack hhost')
      hvalid.artifacts_ne hvalid'.artifacts_ne htext
    obtain hsame | ⟨pair, hpair, hcollision⟩ :=
      same_or_collision (Paths.flatMap_pairs_injective hfields) hvalid.hashed (hsha256 ▸ hvalid'.hashed)
    · exact .inl hsame
    · exact .inr ⟨pair, List.mem_cons_of_mem _ hpair, hcollision⟩
  · exact .inr ⟨_, List.mem_cons_self, hencoded, hhash⟩

end Hash

namespace Evidenced

theorem zeros_unterminated : '\x00' ∉ (zeros 64).toList := by decide

theorem evidenceHost_unterminated : Unterminated evidenceHost where
  realpath path real h := by
    unfold evidenceHost at h
    dsimp only at h
    split at h
    · cases h
    rename_i hlacks
    obtain rfl := Option.some.inj h
    exact hlacks
  sha256 _ := zeros_unterminated

end Evidenced

open Evidenced in
theorem evidenced_binds : ∃ bundle, evidenceHost.validateEvidenceBundle folder "receipt.json" = .ok bundle ∧
    (List.Forall₂ (fun file file' ↦ file.relativePath = file'.relativePath ∧ file.bytes = file'.bytes)
        bundle.artifacts bundle.artifacts ∨
      ∃ pair ∈ hashedPairs evidenceHost bundle bundle,
        pair.1 ≠ pair.2 ∧ evidenceHost.sha256 pair.1 = evidenceHost.sha256 pair.2) := by
  have hreceipt := validated_receipt
  cases hbundle : evidenceHost.validateEvidenceBundle folder "receipt.json" with
  | error code =>
    rw [hbundle] at hreceipt
    cases hreceipt
  | ok bundle =>
    exact ⟨bundle, rfl, artifactHash_binds evidenceHost_unterminated evidenceHost_unterminated rfl rfl
      Function.injective_id hbundle hbundle rfl⟩

end OmpLazy.Contracts.Evidence

import OmpLazy.Activation.ProvenanceController

/-! Which agent starts activate a workflow. -/

namespace OmpLazy.Activation

open OmpLazy.Foundation OmpLazy.Foundation.Text

variable {matchActivation : String → Option CommandRegistration} {promptHash : String → String}

/-- What still counts of the past of a session: the last input since the last agent start that no
suppression answered, and the last suppression since the last agent start. -/
structure SessionPast where
  input : Option ActivationInput
  suppression : Option String

namespace SessionPast

def after (promptHash : String → String) (sessionId : String) (past : SessionPast) :
    ActivationLabel → SessionPast
  | (.recordInput input, _) =>
    if sessionKey input.sessionId = some sessionId then { past with input := some input } else past
  | (.suppressNext session text _, _) =>
    if sessionKey session = some sessionId then { past with suppression := some (promptHash text) }
    else past
  | (.consumeBeforeAgentStart session prompt _, _) =>
    if sessionKey session = some sessionId then
      ⟨if past.suppression = some (promptHash prompt) then past.input else none, none⟩
    else past
  | _ => past

def of (promptHash : String → String) (sessionId : String) (history : List ActivationLabel) : SessionPast :=
  history.foldl (after promptHash sessionId) ⟨none, none⟩

theorem of_snoc {sessionId : String} {history : List ActivationLabel} {label : ActivationLabel} :
    of promptHash sessionId (history ++ [label]) =
      (of promptHash sessionId history).after promptHash sessionId label := by
  rw [of, List.foldl_append]
  rfl

end SessionPast

/-- The token of an input. -/
def inputToken (matchActivation : String → Option CommandRegistration) (promptHash : String → String)
    (input : ActivationInput) : Option PendingToken :=
  if input.source = .extension then none
  else (matchActivation input.text).map fun found ↦ ⟨promptHash input.text, found.workflow, found.command⟩

/-- A past that arms the agent start of a prompt: its input is trusted, names the workflow and has the
prompt's text, which is not suppressed. -/
def Arms (matchActivation : String → Option CommandRegistration) (promptHash : String → String)
    (past : SessionPast) (prompt : String) (workflow : WorkflowActivationId) (command : String) : Prop :=
  past.suppression ≠ some (promptHash prompt) ∧
    ∃ input, past.input = some input ∧ input.source ≠ .extension ∧
      promptHash input.text = promptHash prompt ∧ matchActivation input.text = some ⟨workflow, command⟩

/-- The port lets a token pass. -/
def PortAnswers.inactive (answers : PortAnswers) : Prop :=
  answers.isActive = some false ∧
    (answers.alreadyActivated = none ∨ answers.alreadyActivated = some (some false))

theorem decideToken_activate_iff {token : PendingToken} {answers : PortAnswers}
    {workflow : WorkflowActivationId} {command : String} :
    Controller.decideToken token answers = some (.activate workflow command) ↔
      answers.inactive ∧ token.workflow = workflow ∧ token.command = command := by
  obtain ⟨isActive, alreadyActivated⟩ := answers
  cases isActive with
  | none => simp [Controller.decideToken, PortAnswers.inactive]
  | some active =>
    cases active with
    | true => simp [Controller.decideToken, PortAnswers.inactive]
    | false =>
      cases alreadyActivated with
      | none => simp [Controller.decideToken, PortAnswers.inactive]
      | some already =>
        cases already with
        | none => simp [Controller.decideToken, PortAnswers.inactive]
        | some already => cases already <;> simp [Controller.decideToken, PortAnswers.inactive]

theorem inputToken_eq_some {input : ActivationInput} {token : PendingToken} :
    inputToken matchActivation promptHash input = some token ↔ input.source ≠ .extension ∧
      promptHash input.text = token.hash ∧ matchActivation input.text = some ⟨token.workflow, token.command⟩ := by
  obtain ⟨hash, workflow, command⟩ := token
  unfold inputToken
  split
  · rename_i hsource
    simp [hsource]
  · rename_i hsource
    rw [Option.map_eq_some_iff]
    constructor
    · rintro ⟨found, hfound, htoken⟩
      cases htoken
      exact ⟨hsource, rfl, hfound⟩
    · rintro ⟨-, hhash, hfound⟩
      exact ⟨_, hfound, by rw [hhash]⟩

/-! The controller keeps what counts of the past. -/

/-- The controller has the token of the input and the suppression. -/
structure Remembers (matchActivation : String → Option CommandRegistration) (promptHash : String → String)
    (controller : Controller) (sessionId : String) (past : SessionPast) : Prop where
  pending : controller.pending sessionId = past.input.bind (inputToken matchActivation promptHash)
  suppression : (controller.suppressions sessionId).map (·.hash) = past.suppression

section Remembering

variable {controller : Controller} {sessionId : String} {past : SessionPast}

theorem Remembers.recordInput (h : Remembers matchActivation promptHash controller sessionId past)
    (input : ActivationInput) (answer : Option ActivationDecision) :
    Remembers matchActivation promptHash (controller.recordInput matchActivation promptHash input) sessionId
      (past.after promptHash sessionId (.recordInput input, answer)) := by
  simp only [Controller.recordInput, SessionPast.after]
  cases hkey : sessionKey input.sessionId with
  | none => exact h
  | some key =>
    by_cases hsession : key = sessionId
    · subst hsession
      rw [if_pos rfl]
      exact ⟨Function.update_self .., h.suppression⟩
    · rw [if_neg fun heq ↦ hsession (Option.some.inj heq)]
      exact ⟨(Function.update_of_ne (Ne.symm hsession) ..).trans h.pending, h.suppression⟩

theorem Remembers.suppressNext (h : Remembers matchActivation promptHash controller sessionId past)
    (session text : String) (reason : SuppressionReason) (answer : Option ActivationDecision) :
    Remembers matchActivation promptHash (controller.suppressNext promptHash session text reason) sessionId
      (past.after promptHash sessionId (.suppressNext session text reason, answer)) := by
  simp only [Controller.suppressNext, SessionPast.after]
  cases hkey : sessionKey session with
  | none => exact h
  | some key =>
    by_cases hsession : key = sessionId
    · subst hsession
      rw [if_pos rfl]
      exact ⟨h.pending, by simp only [Function.update_self, Option.map_some]⟩
    · rw [if_neg fun heq ↦ hsession (Option.some.inj heq)]
      exact ⟨h.pending, (congrArg _ (Function.update_of_ne (Ne.symm hsession) ..)).trans h.suppression⟩

/-- An agent start takes the token that the past arms, unless a command runs, and forgets what it should. -/
theorem Remembers.takeToken (h : Remembers matchActivation promptHash controller sessionId past)
    {session : String} (hkey : sessionKey session = some sessionId) (prompt : String) :
    (∀ token, (controller.takeToken promptHash session prompt).1 = some token ↔
        sessionId ∉ controller.commands ∧ past.suppression ≠ some (promptHash prompt) ∧
          past.input.bind (inputToken matchActivation promptHash) = some token ∧
          token.hash = promptHash prompt) ∧
      Remembers matchActivation promptHash (controller.takeToken promptHash session prompt).2 sessionId
        ⟨if past.suppression = some (promptHash prompt) then past.input else none, none⟩ := by
  simp only [Controller.takeToken, hkey, h.suppression, h.pending]
  by_cases hsuppressed : past.suppression = some (promptHash prompt)
  · simp only [if_pos hsuppressed]
    refine ⟨fun token ↦ by simp [hsuppressed], ⟨h.pending, ?_⟩⟩
    simp only [Function.update_self, Option.map_none]
  · simp only [if_neg hsuppressed]
    cases htoken : past.input.bind (inputToken matchActivation promptHash) with
    | none =>
      refine ⟨fun token ↦ by simp, ⟨h.pending.trans htoken, ?_⟩⟩
      simp only [Function.update_self, Option.map_none]
    | some armed =>
      have hforgets : Remembers matchActivation promptHash
          { controller with
            suppressions := Function.update controller.suppressions sessionId none
            pending := Function.update controller.pending sessionId none } sessionId ⟨none, none⟩ := by
        constructor <;> simp only [Function.update_self, Option.map_none, Option.bind_none]
      by_cases hgoes : armed.hash ≠ promptHash prompt ∨ sessionId ∈ controller.commands
      · simp only [if_pos hgoes]
        refine ⟨fun token ↦ ?_, hforgets⟩
        constructor
        · intro hnone
          cases hnone
        · rintro ⟨hidle, -, hsame, hhash⟩
          obtain rfl := Option.some.inj hsame
          exact absurd hgoes (by simp [hidle, hhash])
      · simp only [if_neg hgoes]
        rw [not_or, not_not] at hgoes
        refine ⟨fun token ↦ ?_, hforgets⟩
        constructor
        · intro hsame
          obtain rfl := Option.some.inj hsame
          exact ⟨hgoes.2, hsuppressed, rfl, hgoes.1⟩
        · rintro ⟨-, -, hsame, -⟩
          exact hsame

/-- The agent start of another session. -/
theorem Remembers.takeToken_ne (h : Remembers matchActivation promptHash controller sessionId past)
    {session : String} (hkey : sessionKey session ≠ some sessionId) (prompt : String) :
    Remembers matchActivation promptHash (controller.takeToken promptHash session prompt).2 sessionId past := by
  simp only [Controller.takeToken]
  cases hsession : sessionKey session with
  | none => exact h
  | some key =>
    have hne : sessionId ≠ key := fun heq ↦ hkey (heq ▸ hsession)
    have hkept (suppressions : String → Option SuppressionToken) (pending : String → Option PendingToken)
        (hsuppressions : suppressions sessionId = controller.suppressions sessionId)
        (hpending : pending sessionId = controller.pending sessionId) :
        Remembers matchActivation promptHash { controller with suppressions, pending } sessionId past :=
      ⟨hpending.trans h.pending, (congrArg _ hsuppressions).trans h.suppression⟩
    dsimp only
    split
    · exact hkept _ _ (Function.update_of_ne hne ..) rfl
    split
    · exact hkept _ _ (Function.update_of_ne hne ..) rfl
    split <;> exact hkept _ _ (Function.update_of_ne hne ..) (Function.update_of_ne hne ..)

end Remembering

/-! Runs. -/

section Runs

variable {system next : ActivationSystem} {history : List ActivationLabel} {label : ActivationLabel}
  {sessionId : String}

/-- An agent start takes its token and decides on it. -/
theorem step_consume {session prompt : String} {answers : PortAnswers} {decision : Option ActivationDecision}
    (h : system.Step matchActivation promptHash (.consumeBeforeAgentStart session prompt answers, decision) next) :
    decision = (system.controller.takeToken promptHash session prompt).1.elim (some .quiet)
        (fun token ↦ Controller.decideToken token answers) ∧
      next = { system with controller := (system.controller.takeToken promptHash session prompt).2 } := by
  simp only [ActivationSystem.Step, ActivationSystem.call, Controller.consumeBeforeAgentStart,
    Option.some.injEq, Prod.mk.injEq] at h
  exact ⟨h.1.symm, h.2.symm⟩

theorem step_consume_self (matchActivation : String → Option CommandRegistration)
    (promptHash : String → String) (system : ActivationSystem) (session prompt : String) (answers : PortAnswers) :
    system.Step matchActivation promptHash (.consumeBeforeAgentStart session prompt answers,
        (system.controller.takeToken promptHash session prompt).1.elim (some .quiet)
          fun token ↦ Controller.decideToken token answers)
      { system with controller := (system.controller.takeToken promptHash session prompt).2 } :=
  rfl

theorem Remembers.step {past : SessionPast}
    (h : Remembers matchActivation promptHash system.controller sessionId past)
    (hstep : system.Step matchActivation promptHash label next) :
    Remembers matchActivation promptHash next.controller sessionId (past.after promptHash sessionId label) := by
  obtain ⟨call, answer⟩ := label
  cases call with
  | recordInput input =>
    cases hstep
    exact h.recordInput input none
  | suppressNext session text reason =>
    cases hstep
    exact h.suppressNext session text reason none
  | consumeBeforeAgentStart session prompt answers =>
    obtain ⟨-, rfl⟩ := step_consume hstep
    by_cases hkey : sessionKey session = some sessionId
    · simp only [SessionPast.after, if_pos hkey]
      exact (h.takeToken hkey prompt).2
    · simp only [SessionPast.after, if_neg hkey]
      exact h.takeToken_ne hkey prompt
  | runCommand call session =>
    simp only [ActivationSystem.Step, ActivationSystem.call] at hstep
    split at hstep
    · cases hstep
    · cases hstep
      exact ⟨h.pending, h.suppression⟩
  | cleared call =>
    simp only [ActivationSystem.Step, ActivationSystem.call] at hstep
    split at hstep <;> cases hstep
    exact h
  | clearThrew call =>
    simp only [ActivationSystem.Step, ActivationSystem.call] at hstep
    split at hstep <;> cases hstep
    exact h
  | ended call =>
    simp only [ActivationSystem.Step, ActivationSystem.call] at hstep
    split at hstep <;> cases hstep
    exact ⟨h.pending, h.suppression⟩

theorem remembers_run (sessionId : String)
    (hrun : Recorded (ActivationSystem.Step matchActivation promptHash) .initial history system) :
    Remembers matchActivation promptHash system.controller sessionId
      (SessionPast.of promptHash sessionId history) := by
  induction hrun with
  | nil => exact ⟨rfl, rfl⟩
  | snoc _ hstep ih =>
    rw [SessionPast.of_snoc]
    exact ih.step hstep

/-- What an agent start decides, over any run. -/
theorem activates_iff {session prompt : String} {answers : PortAnswers} {decision : Option ActivationDecision}
    {workflow : WorkflowActivationId} {command : String}
    (hrun : Recorded (ActivationSystem.Step matchActivation promptHash) .initial history system)
    (hkey : sessionKey session = some sessionId)
    (hstep : system.Step matchActivation promptHash
      (.consumeBeforeAgentStart session prompt answers, decision) next) :
    decision = some (.activate workflow command) ↔
      Arms matchActivation promptHash (SessionPast.of promptHash sessionId history) prompt workflow command ∧
        sessionId ∉ system.controller.commands ∧ answers.inactive := by
  have htakes := (remembers_run sessionId hrun).takeToken hkey prompt
  rw [(step_consume hstep).1]
  cases htoken : (system.controller.takeToken promptHash session prompt).1 with
  | none =>
    simp only [Option.elim_none, Option.some.injEq, reduceCtorEq, false_iff]
    rintro ⟨⟨hsuppression, input, hinput, hsource, hhash, hmatch⟩, hidle, -⟩
    have htaken := (htakes.1 ⟨promptHash input.text, workflow, command⟩).mpr ⟨hidle, hsuppression, by
      rw [hinput, Option.bind_some, inputToken_eq_some]
      exact ⟨hsource, rfl, hmatch⟩, hhash⟩
    rw [htoken] at htaken
    cases htaken
  | some token =>
    obtain ⟨hidle, hsuppression, hbind, hhash⟩ := (htakes.1 token).mp htoken
    obtain ⟨input, hinput, harmed⟩ := Option.bind_eq_some_iff.mp hbind
    obtain ⟨hsource, htext, hmatch⟩ := inputToken_eq_some.mp harmed
    rw [Option.elim_some, decideToken_activate_iff]
    constructor
    · rintro ⟨hinactive, rfl, rfl⟩
      exact ⟨⟨hsuppression, input, hinput, hsource, htext.trans hhash, hmatch⟩, hidle, hinactive⟩
    · rintro ⟨⟨-, input', hinput', -, -, hmatch'⟩, -, hinactive⟩
      obtain rfl := Option.some.inj (hinput.symm.trans hinput')
      obtain ⟨rfl, rfl⟩ := CommandRegistration.mk.inj (Option.some.inj (hmatch.symm.trans hmatch'))
      exact ⟨hinactive, rfl, rfl⟩

/-- Without a new input nothing is armed again. -/
theorem SessionPast.disarmed {past : SessionPast} (h : past.input = none) {labels : List ActivationLabel}
    (hnone : ∀ label ∈ labels, ∀ input, label.1 = .recordInput input → sessionKey input.sessionId ≠ some sessionId) :
    (labels.foldl (SessionPast.after promptHash sessionId) past).input = none := by
  induction labels generalizing past with
  | nil => exact h
  | cons label labels ih =>
    refine ih ?_ fun label hmem ↦ hnone label (List.mem_cons_of_mem _ hmem)
    obtain ⟨call, answer⟩ := label
    cases call with
    | recordInput input =>
      simp only [SessionPast.after]
      rw [if_neg (hnone _ List.mem_cons_self input rfl)]
      exact h
    | suppressNext session text reason =>
      simp only [SessionPast.after]
      split <;> exact h
    | consumeBeforeAgentStart session prompt answers =>
      simp only [SessionPast.after]
      split
      · simp [h]
      · exact h
    | runCommand | cleared | clearThrew | ended => exact h

end Runs

/-! Commands that run one at a time. -/

section Commands

variable {system next : ActivationSystem} {history : List ActivationLabel} {label : ActivationLabel}
  {sessionId : String}

/-- The calls of `runCommand` of a session are made under its own id, one after the other, and none of
them throws while it clears the record of the directive. -/
def OneAtATime (sessionId : String) (system : ActivationSystem) : ActivationCall → Prop
  | .runCommand _ session => sessionKey session = some sessionId →
    session = sessionId ∧ ¬ system.InProgress sessionId
  | .clearThrew call => ∀ stage, system.running call ≠ some (sessionId, stage)
  | _ => True

/-- The mark of a session is set while its command runs, and there is one of them at most. -/
structure Marks (sessionId : String) (system : ActivationSystem) : Prop where
  marked : sessionId ∈ system.controller.commands ↔ system.InProgress sessionId
  single : ∀ ⦃call stage call' stage'⦄, system.running call = some (sessionId, stage) →
    system.running call' = some (sessionId, stage') → call = call'

theorem recordInput_commands (controller : Controller) (input : ActivationInput) :
    (controller.recordInput matchActivation promptHash input).commands = controller.commands := by
  unfold Controller.recordInput
  split <;> rfl

theorem suppressNext_commands (controller : Controller) (session text : String) (reason : SuppressionReason) :
    (controller.suppressNext promptHash session text reason).commands = controller.commands := by
  unfold Controller.suppressNext
  split <;> rfl

theorem takeToken_commands (controller : Controller) (session prompt : String) :
    (controller.takeToken promptHash session prompt).2.commands = controller.commands := by
  simp only [Controller.takeToken]
  split
  · rfl
  split
  · rfl
  split
  · rfl
  split <;> rfl

/-- What keeps the mark of a session and the sessions of its calls keeps its marks. -/
theorem Marks.of_same (h : Marks sessionId system)
    (hmark : sessionId ∈ next.controller.commands ↔ sessionId ∈ system.controller.commands)
    (hrunning : ∀ call, (∃ stage, next.running call = some (sessionId, stage)) ↔
      ∃ stage, system.running call = some (sessionId, stage)) : Marks sessionId next := by
  refine ⟨hmark.trans (h.marked.trans (exists_congr fun call ↦ (hrunning call).symm)), ?_⟩
  intro call stage call' stage' hcall hcall'
  obtain ⟨_, hcall⟩ := (hrunning call).mp ⟨stage, hcall⟩
  obtain ⟨_, hcall'⟩ := (hrunning call').mp ⟨stage', hcall'⟩
  exact h.single hcall hcall'

/-- A call whose entry is replaced, where neither entry is of the session or both are. -/
theorem running_update {running : ℕ → Option (String × CommandStage)} {call : ℕ}
    {entry : Option (String × CommandStage)}
    (h : (∃ stage, entry = some (sessionId, stage)) ↔ ∃ stage, running call = some (sessionId, stage)) (call' : ℕ) :
    (∃ stage, Function.update running call entry call' = some (sessionId, stage)) ↔
      ∃ stage, running call' = some (sessionId, stage) := by
  by_cases hcall : call' = call
  · subst hcall
    rw [Function.update_self]
    exact h
  · rw [Function.update_of_ne hcall]

theorem marks_runCommand {call : ℕ} (hidle : ¬ system.InProgress sessionId) :
    Marks sessionId {
      controller := { system.controller with commands := insert sessionId system.controller.commands }
      running := Function.update system.running call (some (sessionId, .clearing)) } := by
  refine ⟨iff_of_true (Finset.mem_insert_self _ _) ⟨call, _, Function.update_self ..⟩, ?_⟩
  have honly {call' : ℕ} {stage : CommandStage}
      (h' : Function.update system.running call (some (sessionId, .clearing)) call' = some (sessionId, stage)) :
      call' = call := by
    by_contra hne
    rw [Function.update_of_ne hne] at h'
    exact hidle ⟨call', stage, h'⟩
  intro call₁ stage₁ call₂ stage₂ h₁ h₂
  exact (honly h₁).trans (honly h₂).symm

theorem Marks.ended (h : Marks sessionId system) {call : ℕ} {stage : CommandStage}
    (hcall : system.running call = some (sessionId, stage)) :
    Marks sessionId {
      controller := { system.controller with commands := system.controller.commands.erase sessionId }
      running := Function.update system.running call none } := by
  have hnone {call' : ℕ} {stage' : CommandStage} :
      Function.update system.running call none call' ≠ some (sessionId, stage') := by
    intro h'
    by_cases hsame : call' = call
    · rw [hsame, Function.update_self] at h'
      cases h'
    · rw [Function.update_of_ne hsame] at h'
      exact hsame (h.single h' hcall)
  refine ⟨iff_of_false (Finset.notMem_erase _ _) ?_, ?_⟩
  · rintro ⟨call', stage', h'⟩
    exact hnone h'
  · intro call₁ stage₁ call₂ stage₂ h₁
    exact absurd h₁ hnone

theorem Marks.step (hself : sessionKey sessionId = some sessionId) (h : Marks sessionId system)
    (hone : OneAtATime sessionId system label.1) (hstep : system.Step matchActivation promptHash label next) :
    Marks sessionId next := by
  obtain ⟨call, answer⟩ := label
  cases call with
  | recordInput input =>
    cases hstep
    exact h.of_same (by rw [recordInput_commands]) fun _ ↦ Iff.rfl
  | suppressNext session text reason =>
    cases hstep
    exact h.of_same (by rw [suppressNext_commands]) fun _ ↦ Iff.rfl
  | consumeBeforeAgentStart session prompt answers =>
    obtain ⟨-, rfl⟩ := step_consume hstep
    exact h.of_same (by rw [takeToken_commands]) fun _ ↦ Iff.rfl
  | runCommand call session =>
    simp only [ActivationSystem.Step, ActivationSystem.call] at hstep
    split at hstep
    · cases hstep
    rename_i hfree
    rw [Option.not_isSome_iff_eq_none] at hfree
    cases hstep
    by_cases hsession : session = sessionId
    · subst hsession
      exact marks_runCommand (hone hself).2
    · refine h.of_same (by simp [Ne.symm hsession]) (running_update ?_)
      simp [hfree, hsession]
  | cleared call =>
    simp only [ActivationSystem.Step, ActivationSystem.call] at hstep
    split at hstep
    · rename_i session hcall
      cases hstep
      refine h.of_same Iff.rfl (running_update ?_)
      simp [hcall]
    · cases hstep
  | clearThrew call =>
    simp only [ActivationSystem.Step, ActivationSystem.call] at hstep
    split at hstep
    · rename_i session hcall
      cases hstep
      refine h.of_same Iff.rfl (running_update ?_)
      simp only [reduceCtorEq, exists_false, false_iff, not_exists]
      exact hone
    · cases hstep
  | ended call =>
    simp only [ActivationSystem.Step, ActivationSystem.call] at hstep
    split at hstep
    · rename_i session hcall
      cases hstep
      by_cases hsession : session = sessionId
      · subst hsession
        exact h.ended hcall
      · refine h.of_same (by simp [Ne.symm hsession]) (running_update ?_)
        simp [hcall, hsession]
    · cases hstep

/-- A step of a run in which the commands of the session run one at a time. -/
def OrderlyStep (matchActivation : String → Option CommandRegistration) (promptHash : String → String)
    (sessionId : String) (system : ActivationSystem) (label : ActivationLabel) (next : ActivationSystem) :
    Prop :=
  OneAtATime sessionId system label.1 ∧ system.Step matchActivation promptHash label next

theorem marks_run (hself : sessionKey sessionId = some sessionId)
    (hrun : Recorded (OrderlyStep matchActivation promptHash sessionId) .initial history system) :
    Marks sessionId system := by
  induction hrun with
  | nil =>
    refine ⟨iff_of_false (Finset.notMem_empty _) ?_, ?_⟩
    · rintro ⟨call, stage, h⟩
      cases h
    · intro call stage call' stage' h
      cases h
  | snoc _ hstep ih => exact ih.step hself hstep.1 hstep.2

end Commands

/-- The session ids that the calls go by are trimmed. -/
theorem sessionKey_self {session sessionId : String} (h : sessionKey session = some sessionId) :
    sessionKey sessionId = some sessionId := by
  unfold sessionKey at h ⊢
  split at h
  · cases h
  · rename_i hne
    obtain rfl := Option.some.inj h
    rw [trim_trim, if_neg hne]

/-- An agent start activates only what a trusted input has armed, and each input once; where the commands
of the session run one at a time, it does so exactly while none of them runs. -/
theorem activations_trusted {session sessionId : String} (hkey : sessionKey session = some sessionId)
    {history : List ActivationLabel} {system : ActivationSystem}
    (hrun : Recorded (ActivationSystem.Step matchActivation promptHash) .initial history system) :
    (∀ prompt answers decision next workflow command,
      system.Step matchActivation promptHash
        (.consumeBeforeAgentStart session prompt answers, decision) next →
      decision = some (.activate workflow command) →
        Arms matchActivation promptHash (SessionPast.of promptHash sessionId history) prompt workflow command) ∧
    (∀ past later prompt answers workflow command prompt' answers' workflow' command' next,
      history = past ++ [(.consumeBeforeAgentStart session prompt answers,
        some (.activate workflow command))] ++ later →
      system.Step matchActivation promptHash
        (.consumeBeforeAgentStart session prompt' answers', some (.activate workflow' command')) next →
        ∃ input answer, (.recordInput input, answer) ∈ later ∧ sessionKey input.sessionId = some sessionId) ∧
    (Recorded (OrderlyStep matchActivation promptHash sessionId) .initial history system →
      ∀ prompt answers decision next workflow command,
        system.Step matchActivation promptHash
          (.consumeBeforeAgentStart session prompt answers, decision) next →
        (decision = some (.activate workflow command) ↔
          Arms matchActivation promptHash (SessionPast.of promptHash sessionId history) prompt workflow command ∧
            ¬ system.InProgress sessionId ∧ answers.inactive)) := by
  refine ⟨?_, ?_, ?_⟩
  · intro prompt answers decision next workflow command hstep hactivates
    exact ((activates_iff hrun hkey hstep).mp hactivates).1
  · intro past later prompt answers workflow command prompt' answers' workflow' command' next hhistory hstep
    subst hhistory
    by_contra hnone
    -- the first agent start leaves nothing armed, and no input follows it
    obtain ⟨between, hfirst, -⟩ := hrun.split
    obtain ⟨before, hbefore, hactivated⟩ := hfirst.last
    obtain ⟨⟨hsuppression, -⟩, -, -⟩ := (activates_iff hbefore hkey hactivated).mp rfl
    have hspent : ((SessionPast.of promptHash sessionId past).after promptHash sessionId
        (.consumeBeforeAgentStart session prompt answers, some (.activate workflow command))).input = none := by
      simp only [SessionPast.after, if_pos hkey, if_neg hsuppression]
    have hdisarmed : (later.foldl (SessionPast.after promptHash sessionId) _).input = none :=
      SessionPast.disarmed hspent fun label hmem input hlabel hsession ↦
        hnone ⟨input, label.2, hlabel ▸ hmem, hsession⟩
    obtain ⟨⟨-, input, hinput, -⟩, -, -⟩ := (activates_iff hrun hkey hstep).mp rfl
    rw [SessionPast.of, List.foldl_append, ← SessionPast.of, SessionPast.of_snoc, hdisarmed] at hinput
    cases hinput
  · intro horderly prompt answers decision next workflow command hstep
    rw [activates_iff hrun hkey hstep, (marks_run (sessionKey_self hkey) horderly).marked]

/-! An input that waits while a synthetic prompt is suppressed. -/

def namesUltrawork (text : String) : Option CommandRegistration :=
  if text = "use ulw(omp)" then some ⟨.ultrawork, "/ulw(omp)"⟩ else none

def waitingInput : ActivationInput := ⟨"session", .interactive, "use ulw(omp)"⟩

/-- The input is recorded, and a synthetic prompt is to be suppressed. -/
def waitingLabels : List ActivationLabel :=
  [(.recordInput waitingInput, none),
    (.suppressNext "session" "continue ulw(omp)" .continuation, none)]

def waiting : ActivationSystem where
  controller := (Controller.initial.recordInput namesUltrawork id waitingInput).suppressNext id "session"
    "continue ulw(omp)" .continuation
  running := fun _ ↦ none

def waitingStart (prompt : String) : ActivationCall :=
  .consumeBeforeAgentStart "session" prompt ⟨some false, none⟩

theorem waiting_orderly :
    Recorded (OrderlyStep namesUltrawork id "session") .initial waitingLabels waiting := by
  have hrecorded : Recorded (OrderlyStep namesUltrawork id "session") .initial
      [(.recordInput waitingInput, none)]
      ⟨Controller.initial.recordInput namesUltrawork id waitingInput, fun _ ↦ none⟩ :=
    .snoc .nil ⟨trivial, rfl⟩
  exact hrecorded.snoc ⟨trivial, rfl⟩

/-- No input is recorded between the two agent starts, and the second one activates. -/
theorem activates_earlier_input : ∃ system next,
    Recorded (ActivationSystem.Step namesUltrawork id) .initial
      (waitingLabels ++ [(waitingStart "continue ulw(omp)", some .quiet)]) system ∧
    system.Step namesUltrawork id
      (waitingStart "use ulw(omp)", some (.activate .ultrawork "/ulw(omp)")) next := by
  have hquiet : (waiting.controller.takeToken id "session" "continue ulw(omp)").1 = none := by
    decide
  have hactivates : ((waiting.controller.takeToken id "session" "continue ulw(omp)").2.takeToken id
      "session" "use ulw(omp)").1 = some ⟨"use ulw(omp)", .ultrawork, "/ulw(omp)"⟩ := by
    decide
  have hfirst := step_consume_self namesUltrawork id waiting "session" "continue ulw(omp)" ⟨some false, none⟩
  rw [hquiet] at hfirst
  have hsecond := step_consume_self namesUltrawork id
    { waiting with controller := (waiting.controller.takeToken id "session" "continue ulw(omp)").2 }
    "session" "use ulw(omp)" ⟨some false, none⟩
  rw [hactivates] at hsecond
  exact ⟨_, _, (waiting_orderly.mono fun _ _ _ h ↦ h.2).snoc hfirst, hsecond⟩

theorem activations_trusted_waiting : ∃ next,
    waiting.Step namesUltrawork id
      (waitingStart "use ulw(omp)", some (.activate .ultrawork "/ulw(omp)")) next ∧
    Arms namesUltrawork id (SessionPast.of id "session" waitingLabels) "use ulw(omp)" .ultrawork "/ulw(omp)" := by
  have htoken : (waiting.controller.takeToken id "session" "use ulw(omp)").1 =
      some ⟨"use ulw(omp)", .ultrawork, "/ulw(omp)"⟩ := by
    decide
  have hstep := step_consume_self namesUltrawork id waiting "session" "use ulw(omp)" ⟨some false, none⟩
  rw [htoken] at hstep
  have hrun := waiting_orderly.mono fun _ _ _ h ↦ h.2
  have hkey : sessionKey "session" = some "session" := by decide
  exact ⟨_, hstep, (activations_trusted hkey hrun).1 _ _ _ _ _ _ hstep rfl⟩

end OmpLazy.Activation

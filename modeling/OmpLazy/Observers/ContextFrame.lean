import OmpLazy.Observers.ProductRuntimeObserver

/-! What an injection leaves of the messages, and an injection into its own result. -/

namespace OmpLazy.Observers

open OmpLazy.Foundation OmpLazy.Context OmpLazy.Workflows

/-! The messages that are kept and those that are made. -/

def isPacketType (message : AgentMessage) : Bool := message.customType = some taskPacketCustomType

/-- A custom message of one of the three injected types. -/
def isInjected (message : AgentMessage) : Bool :=
  message.role = "custom" && (isPacketType message || isSectionMessage message)

def survives (message : AgentMessage) : Bool :=
  (message.role ≠ "custom" || message.customType ≠ some taskPacketCustomType) && !isSectionMessage message

/-- Messages with the sections before a packet that ends them. -/
def arranged (messages sections : List AgentMessage) : List AgentMessage :=
  if sections = [] then messages
  else
    let insertAt := if messages.getLast?.any isPacketType then messages.length - 1 else messages.length
    messages.take insertAt ++ sections ++ messages.drop insertAt

namespace ProductRuntimeObserver

def sections (observer : ProductRuntimeObserver) (sessionId : String) (clock : Clock) : List AgentMessage :=
  match getEntry sessionId observer.injection with
  | none => []
  | some injection =>
    ((withinBudget catalogBudgetBytes injection.catalog).toList.map (sectionMessage catalogCustomType · clock.catalog)) ++
      (withinBudget rulesBudgetBytes injection.rules).toList.map (sectionMessage rulesCustomType · clock.rules)

def packet (observer : ProductRuntimeObserver) (sessionId : String) (timestamp : ℤ) : List AgentMessage :=
  (getEntry sessionId observer.active).toList.map fun active ↦ packetMessage active.message timestamp

/-- The messages a turn goes on with: those that came in where the result is undefined. -/
def output (platform : ObserverPlatform) (observer : ProductRuntimeObserver) (input : ContextInput) (clock : Clock) :
    List AgentMessage :=
  (observer.context platform input clock).2.getD input.messages

end ProductRuntimeObserver

section Places

variable {messages : List AgentMessage} {list : List Placed}

/-- A message that has a place is the one that came in there. -/
def Genuine (messages : List AgentMessage) (p : Placed) : Prop := ∀ place ∈ p.place, messages[place]? = some p.message

theorem placed_messages (messages : List AgentMessage) : (placed messages).map (·.message) = messages := by
  rw [placed, List.map_map]
  exact List.zipIdx_map_fst 0 messages

theorem placed_genuine (messages : List AgentMessage) : ∀ p ∈ placed messages, Genuine messages p := by
  intro p hp place hplace
  obtain ⟨entry, hentry, rfl⟩ := List.mem_map.mp hp
  obtain rfl := Option.some.inj hplace
  exact List.mem_zipIdx_iff_getElem?.mp hentry

theorem messages_of_unchanged (hgenuine : ∀ p ∈ list, Genuine messages p) (h : unchanged list messages.length = true) :
    list.map (·.message) = messages := by
  rw [unchanged, Bool.and_eq_true, decide_eq_true_eq, decide_eq_true_eq] at h
  obtain ⟨hlength, hplaces⟩ := h
  refine List.ext_getElem (by rw [List.length_map, hlength]) fun i hi hi' ↦ ?_
  rw [List.length_map] at hi
  have hplace : list[i].place = some i := by
    have hget := congrArg (·[i]?) hplaces
    simpa [hi, hi'] using hget
  have hmessage := hgenuine list[i] (List.getElem_mem hi) i hplace
  rw [List.getElem_map]
  exact (List.getElem?_eq_some_iff.mp hmessage).2.symm

end Places

section Output

variable {platform : ObserverPlatform} {observer : ProductRuntimeObserver} {input : ContextInput} {clock : Clock}

theorem filter_messages (list : List Placed) (keep : AgentMessage → Bool) :
    (list.filter fun m ↦ keep m.message).map (·.message) = (list.map (·.message)).filter keep :=
  List.filter_map.symm

theorem packet_notSection (current : TaskPacketMessage) (timestamp : ℤ) :
    isSectionMessage (packetMessage current timestamp) = false := by
  have hrules : taskPacketCustomType ≠ rulesCustomType := by decide
  have hcatalog : taskPacketCustomType ≠ catalogCustomType := by decide
  simp [isSectionMessage, packetMessage, hrules, hcatalog]

theorem compacted_messages (list : List Placed) (current : Option TaskPacketMessage) (timestamp : ℤ) :
    ((compactStepContext list current timestamp).filter fun m ↦ !isSectionMessage m.message).map (·.message) =
      (list.map (·.message)).filter survives ++ current.toList.map (packetMessage · timestamp) := by
  have hkept : (((list.filter fun m ↦ m.message.role ≠ "custom" || m.message.customType ≠ some taskPacketCustomType).filter
      fun m ↦ !isSectionMessage m.message).map (·.message)) = (list.map (·.message)).filter survives := by
    rw [List.filter_filter, ← filter_messages]
    refine congrArg (List.map _) (List.filter_congr fun m _ ↦ ?_)
    rw [survives, Bool.and_comm]
  cases current with
  | none => rw [compactStepContext, hkept, Option.toList_none, List.map_nil, List.append_nil]
  | some current =>
    rw [compactStepContext, List.filter_append, List.map_append, hkept, List.filter_cons_of_pos]
    · rfl
    · rw [packet_notSection, Bool.not_false]

theorem withinBudget_none {budget : ℕ} {content : Option String} :
    withinBudget budget content = none ↔ (withinBudget budget content).toList = [] := by
  cases withinBudget budget content <;> simp

theorem injected_messages (list : List Placed) (sessionId : String) :
    (injectRulesAndCatalog list (getEntry sessionId observer.injection) clock).map (·.message) =
      arranged (list.map (·.message)) (observer.sections sessionId clock) := by
  unfold injectRulesAndCatalog ProductRuntimeObserver.sections
  cases getEntry sessionId observer.injection with
  | none => exact (if_pos rfl).symm
  | some injection =>
    dsimp only
    have hnone : (withinBudget catalogBudgetBytes injection.catalog = none ∧
        withinBudget rulesBudgetBytes injection.rules = none) ↔
        ((withinBudget catalogBudgetBytes injection.catalog).toList.map (sectionMessage catalogCustomType · clock.catalog)) ++
          (withinBudget rulesBudgetBytes injection.rules).toList.map (sectionMessage rulesCustomType · clock.rules) = [] := by
      rw [withinBudget_none, withinBudget_none, List.append_eq_nil_iff, List.map_eq_nil_iff, List.map_eq_nil_iff]
    have hlast : ((list.map (·.message)).getLast?.any isPacketType) =
        list.getLast?.any fun m ↦ m.message.customType = some taskPacketCustomType := by
      rw [List.getLast?_map, Option.any_map]
      rfl
    rw [arranged]
    split
    · rename_i hempty
      rw [if_pos (hnone.mp hempty)]
    · rename_i hsome
      rw [if_neg (mt hnone.mpr hsome), hlast, List.length_map, List.map_append, List.map_append, List.map_append,
        List.map_take, List.map_drop, List.map_map, List.map_map]
      rfl

theorem inject_messages : (observer.inject input clock).map (·.message) =
    arranged (input.messages.filter survives ++ observer.packet input.sessionId input.timestamp)
      (observer.sections input.sessionId clock) := by
  rw [ProductRuntimeObserver.inject, injected_messages, compacted_messages, placed_messages, ProductRuntimeObserver.packet]
  cases getEntry input.sessionId observer.active <;> rfl

theorem inject_genuine : ∀ p ∈ observer.inject input clock, Genuine input.messages p := by
  have hmade : ∀ message, Genuine input.messages ⟨message, none⟩ := fun message place hplace ↦ by cases hplace
  have hcompacted : ∀ p ∈ compactStepContext (placed input.messages)
      ((getEntry input.sessionId observer.active).map (·.message)) input.timestamp, Genuine input.messages p := by
    intro p hp
    unfold compactStepContext at hp
    split at hp
    · exact placed_genuine _ p (List.mem_of_mem_filter hp)
    · obtain hp | hp := List.mem_append.mp hp
      · exact placed_genuine _ p (List.mem_of_mem_filter hp)
      · rw [List.mem_singleton.mp hp]
        exact hmade _
  intro p hp
  unfold ProductRuntimeObserver.inject injectRulesAndCatalog at hp
  dsimp only at hp
  split at hp
  · exact hcompacted p (List.mem_of_mem_filter hp)
  · split at hp
    · exact hcompacted p (List.mem_of_mem_filter hp)
    · simp only [List.mem_append, List.mem_map] at hp
      obtain (hp | ⟨_, _, rfl⟩ | ⟨_, _, rfl⟩) | hp := hp
      · exact hcompacted p (List.mem_of_mem_filter (List.mem_of_mem_take hp))
      · exact hmade _
      · exact hmade _
      · exact hcompacted p (List.mem_of_mem_filter (List.mem_of_mem_drop hp))

/-- The messages a turn goes on with, by their values. -/
theorem output_eq : observer.output platform input clock =
    arranged (input.messages.filter survives ++ observer.packet input.sessionId input.timestamp)
      (observer.sections input.sessionId clock) := by
  rw [← inject_messages, ProductRuntimeObserver.output, ProductRuntimeObserver.context]
  dsimp only
  split
  · rename_i hunchanged
    exact (messages_of_unchanged inject_genuine hunchanged).symm
  · rfl

end Output

/-! Where the injection frames the messages. -/

structure IsSection (customType : String) (budget : ℕ) (message : AgentMessage) : Prop where
  role : message.role = "custom"
  type : message.customType = some customType
  within : ∃ text, message.content = .string text ∧ text.utf8ByteSize ≤ budget

/-- One catalog at most, then one rules message at most and then one packet at most end the messages, which have no
other injected message. -/
def InjectedLast (messages : List AgentMessage) : Prop :=
  ∃ (front : List AgentMessage) (catalog rules packet : Option AgentMessage),
    messages = front ++ catalog.toList ++ rules.toList ++ packet.toList ∧ (∀ m ∈ front, isInjected m = false) ∧
      (∀ m ∈ catalog, IsSection catalogCustomType catalogBudgetBytes m) ∧
      (∀ m ∈ rules, IsSection rulesCustomType rulesBudgetBytes m) ∧
      ∀ m ∈ packet, m.role = "custom" ∧ m.customType = some taskPacketCustomType

def withoutTimestamp (message : AgentMessage) : AgentMessage := { message with timestamp := 0 }

/-- What is said of the messages a turn goes on with. -/
structure Framed (platform : ObserverPlatform) (observer : ProductRuntimeObserver) (input : ContextInput) (clock : Clock) :
    Prop where
  frame : ((observer.output platform input clock).filter fun m ↦ !isInjected m) = input.messages.filter fun m ↦ !isInjected m
  injectedLast : InjectedLast (observer.output platform input clock)
  settled : ∀ model timestamp clock',
    ((observer.context platform input clock).1.output platform
        ⟨input.sessionId, observer.output platform input clock, model, timestamp⟩ clock').map withoutTimestamp =
      (observer.output platform input clock).map withoutTimestamp

section Frame

variable {platform : ObserverPlatform} {observer : ProductRuntimeObserver} {input : ContextInput} {clock : Clock}
  {messages sections kept : List AgentMessage} {message last : AgentMessage}

theorem arranged_last (hlast : isPacketType last = true) (kept sections : List AgentMessage) :
    arranged (kept ++ [last]) sections = kept ++ sections ++ [last] := by
  rw [arranged]
  split
  · rename_i hnil
    rw [hnil, List.append_nil]
  · rw [List.getLast?_concat, Option.any_some, if_pos hlast, List.length_append, List.length_singleton, Nat.add_sub_cancel]
    dsimp only
    rw [List.take_left, List.drop_left]

theorem arranged_plain (hplain : ∀ m ∈ messages.getLast?, isPacketType m = false) (sections : List AgentMessage) :
    arranged messages sections = messages ++ sections := by
  have hany : messages.getLast?.any isPacketType = false := by
    rw [Option.any_eq_false]
    exact hplain
  rw [arranged]
  split
  · rename_i hnil
    rw [hnil, List.append_nil]
  · rw [hany, if_neg Bool.false_ne_true]
    dsimp only
    rw [List.take_length, List.drop_length, List.append_nil]

/-- Sections and packets do not stay, and so leave the same messages wherever they stand. -/
theorem filter_arranged {keep : AgentMessage → Bool} (hsections : ∀ m ∈ sections, keep m = false) (messages : List AgentMessage) :
    (arranged messages sections).filter keep = messages.filter keep := by
  have hnone : sections.filter keep = [] := List.filter_eq_nil_iff.mpr fun m hm ↦ Bool.eq_false_iff.mp (hsections m hm)
  rw [arranged]
  split
  · rfl
  · rw [List.filter_append, List.filter_append, hnone, List.append_nil, ← List.filter_append, List.take_append_drop]

theorem map_arranged {f : AgentMessage → AgentMessage} (hf : ∀ m, isPacketType (f m) = isPacketType m)
    (messages sections : List AgentMessage) : (arranged messages sections).map f = arranged (messages.map f) (sections.map f) := by
  have hany : (messages.map f).getLast?.any isPacketType = messages.getLast?.any isPacketType := by
    rw [List.getLast?_map, Option.any_map]
    exact congrArg (messages.getLast?.any ·) (funext hf)
  rw [arranged, arranged]
  by_cases hnil : sections = []
  · rw [if_pos hnil, if_pos (List.map_eq_nil_iff.mpr hnil)]
  · rw [if_neg hnil, if_neg (mt List.map_eq_nil_iff.mp hnil), hany, List.length_map, List.map_append, List.map_append,
      List.map_take, List.map_drop]

theorem isInjected_of_section {customType : String} {budget : ℕ} (h : IsSection customType budget message)
    (htype : customType = catalogCustomType ∨ customType = rulesCustomType) : isInjected message = true := by
  have hsection : isSectionMessage message = true := by
    rw [isSectionMessage, h.type]
    obtain rfl | rfl := htype <;> decide
  rw [isInjected, h.role, hsection, Bool.or_true]
  decide

theorem not_survives_of_section (h : isSectionMessage message = true) : survives message = false := by
  rw [survives, h, Bool.not_true, Bool.and_false]

theorem survives_not_injected (h : survives message = true) : isInjected message = false := by
  simp only [survives, isInjected, isPacketType, Bool.and_eq_true, Bool.or_eq_true, decide_eq_true_eq, Bool.not_eq_true',
    Bool.and_eq_false_iff, Bool.or_eq_false_iff, decide_eq_false_iff_not] at h ⊢
  tauto

theorem not_injected_survives (h : isInjected message = false) (hforeign : isSectionMessage message = true → message.role = "custom") :
    survives message = true := by
  simp only [survives, isInjected, isPacketType, Bool.and_eq_true, Bool.or_eq_true, decide_eq_true_eq, Bool.not_eq_true',
    Bool.and_eq_false_iff, Bool.or_eq_false_iff, decide_eq_false_iff_not] at h ⊢
  cases hsection : isSectionMessage message <;> simp_all

theorem sections_spec (observer : ProductRuntimeObserver) (sessionId : String) (clock : Clock) :
    ∃ catalog rules : Option AgentMessage, observer.sections sessionId clock = catalog.toList ++ rules.toList ∧
      (∀ m ∈ catalog, IsSection catalogCustomType catalogBudgetBytes m) ∧
      ∀ m ∈ rules, IsSection rulesCustomType rulesBudgetBytes m := by
  have hsection : ∀ (customType : String) (budget : ℕ) (content : Option String) (timestamp : ℤ),
      ∀ m ∈ (withinBudget budget content).map (sectionMessage customType · timestamp), IsSection customType budget m := by
    intro customType budget content timestamp m hm
    obtain ⟨text, htext, rfl⟩ := Option.map_eq_some_iff.mp hm
    obtain ⟨-, hwithin⟩ := Option.filter_eq_some_iff.mp htext
    exact ⟨rfl, rfl, text, rfl, of_decide_eq_true hwithin⟩
  unfold ProductRuntimeObserver.sections
  cases getEntry sessionId observer.injection with
  | none => exact ⟨none, none, rfl, by simp, by simp⟩
  | some injection =>
    refine ⟨_, _, ?_, hsection catalogCustomType catalogBudgetBytes injection.catalog clock.catalog,
      hsection rulesCustomType rulesBudgetBytes injection.rules clock.rules⟩
    rw [Option.toList_map, Option.toList_map]

theorem sections_injected (observer : ProductRuntimeObserver) (sessionId : String) (clock : Clock) :
    ∀ m ∈ observer.sections sessionId clock, isInjected m = true := by
  obtain ⟨catalog, rules, hsections, hcatalog, hrules⟩ := sections_spec observer sessionId clock
  intro m hm
  rw [hsections, List.mem_append, Option.mem_toList, Option.mem_toList] at hm
  obtain hm | hm := hm
  · exact isInjected_of_section (hcatalog m hm) (.inl rfl)
  · exact isInjected_of_section (hrules m hm) (.inr rfl)

theorem packet_spec (observer : ProductRuntimeObserver) (sessionId : String) (timestamp : ℤ) :
    ∃ packet : Option AgentMessage, observer.packet sessionId timestamp = packet.toList ∧
      (packet = none ↔ getEntry sessionId observer.active = none) ∧
      ∀ m ∈ packet, m.role = "custom" ∧ m.customType = some taskPacketCustomType := by
  unfold ProductRuntimeObserver.packet
  cases getEntry sessionId observer.active with
  | none => exact ⟨none, rfl, by simp, by simp⟩
  | some active =>
    refine ⟨some (packetMessage active.message timestamp), rfl, by simp, fun m hm ↦ ?_⟩
    obtain rfl := Option.some.inj hm
    exact ⟨rfl, rfl⟩

theorem packet_injected (h : message.role = "custom" ∧ message.customType = some taskPacketCustomType) :
    isPacketType message = true ∧ isInjected message = true := by
  have htype : isPacketType message = true := decide_eq_true h.2
  refine ⟨htype, ?_⟩
  rw [isInjected, h.1, htype, Bool.true_or]
  decide

theorem survives_injected (h : isInjected message = true) : survives message = false := by
  by_contra hsurvives
  rw [survives_not_injected (by simpa using hsurvives)] at h
  cases h

/-- The messages that stay, however often the others are injected. -/
theorem output_survives : (observer.output platform input clock).filter survives = input.messages.filter survives := by
  obtain ⟨packet, hpacket, -, hspec⟩ := packet_spec observer input.sessionId input.timestamp
  have hnone : packet.toList.filter survives = [] := by
    refine List.filter_eq_nil_iff.mpr fun m hm ↦ Bool.eq_false_iff.mp (survives_injected ?_)
    exact (packet_injected (hspec m (Option.mem_toList.mp hm))).2
  rw [output_eq, filter_arranged fun m hm ↦ survives_injected (sections_injected observer input.sessionId clock m hm),
    List.filter_append, hpacket, hnone, List.append_nil, List.filter_filter]
  simp only [Bool.and_self]

theorem output_frame : ((observer.output platform input clock).filter fun m ↦ !isInjected m) = input.messages.filter survives := by
  obtain ⟨packet, hpacket, -, hspec⟩ := packet_spec observer input.sessionId input.timestamp
  have hnone : (packet.toList.filter fun m ↦ !isInjected m) = [] := by
    refine List.filter_eq_nil_iff.mpr fun m hm ↦ ?_
    rw [(packet_injected (hspec m (Option.mem_toList.mp hm))).2]
    decide
  have hsections : ∀ m ∈ observer.sections input.sessionId clock, (!isInjected m) = false := fun m hm ↦ by
    rw [sections_injected observer input.sessionId clock m hm, Bool.not_true]
  rw [output_eq, filter_arranged hsections, List.filter_append, hpacket, hnone, List.append_nil, List.filter_filter]
  refine List.filter_congr fun m _ ↦ ?_
  cases hsurvives : survives m with
  | false => rw [Bool.and_false]
  | true => rw [survives_not_injected hsurvives]; rfl

theorem output_settled (model : Option Json) (timestamp : ℤ) (clock' : Clock) :
    ((observer.context platform input clock).1.output platform
        ⟨input.sessionId, observer.output platform input clock, model, timestamp⟩ clock').map withoutTimestamp =
      (observer.output platform input clock).map withoutTimestamp := by
  have htype : ∀ m, isPacketType (withoutTimestamp m) = isPacketType m := fun _ ↦ rfl
  have hpacket : (observer.packet input.sessionId timestamp).map withoutTimestamp =
      (observer.packet input.sessionId input.timestamp).map withoutTimestamp := by
    unfold ProductRuntimeObserver.packet
    rw [List.map_map, List.map_map]
    rfl
  have hsections : (observer.sections input.sessionId clock').map withoutTimestamp =
      (observer.sections input.sessionId clock).map withoutTimestamp := by
    unfold ProductRuntimeObserver.sections
    cases getEntry input.sessionId observer.injection with
    | none => rfl
    | some injection =>
      simp only [List.map_append, List.map_map]
      rfl
  have hlater : (observer.context platform input clock).1.output platform
      ⟨input.sessionId, observer.output platform input clock, model, timestamp⟩ clock' =
      arranged (input.messages.filter survives ++ observer.packet input.sessionId timestamp)
        (observer.sections input.sessionId clock') := by
    rw [output_eq]
    dsimp only
    rw [output_survives]
    rfl
  rw [hlater, output_eq, map_arranged htype, map_arranged htype, List.map_append, List.map_append, hpacket, hsections]

end Frame

/-! Messages that look injected. -/

/-- Some text is offered to a session that is within the budget of its section. -/
def Offered (observer : ProductRuntimeObserver) (sessionId : String) : Prop :=
  ∃ injection, getEntry sessionId observer.injection = some injection ∧
    ((withinBudget catalogBudgetBytes injection.catalog).isSome ∨ (withinBudget rulesBudgetBytes injection.rules).isSome)

/-- No message but a custom one carries the type of a section, and none but a custom one that carries the type of a
packet is the last to stay where sections are offered and no packet is current. -/
structure Unresembled (observer : ProductRuntimeObserver) (input : ContextInput) : Prop where
  sections : ∀ m ∈ input.messages, isSectionMessage m = true → m.role = "custom"
  packet : getEntry input.sessionId observer.active = none → Offered observer input.sessionId →
    ∀ m ∈ (input.messages.filter fun m ↦ !isInjected m).getLast?, m.customType ≠ some taskPacketCustomType

section Framing

variable {platform : ObserverPlatform} {observer : ProductRuntimeObserver} {input : ContextInput} {clock : Clock}

theorem sections_ne_nil {sessionId : String} : observer.sections sessionId clock ≠ [] ↔ Offered observer sessionId := by
  unfold ProductRuntimeObserver.sections
  cases hentry : getEntry sessionId observer.injection with
  | none =>
    refine iff_of_false (not_not.mpr rfl) ?_
    rintro ⟨injection, hsome, -⟩
    rw [hentry] at hsome
    cases hsome
  | some injection =>
    have hoffered : Offered observer sessionId ↔ (withinBudget catalogBudgetBytes injection.catalog).isSome ∨
        (withinBudget rulesBudgetBytes injection.rules).isSome := by
      constructor
      · rintro ⟨injection', hsome, hoffers⟩
        obtain rfl := Option.some.inj (hentry.symm.trans hsome)
        exact hoffers
      · exact fun hoffers ↦ ⟨injection, hentry, hoffers⟩
    rw [hoffered, Ne, List.append_eq_nil_iff, List.map_eq_nil_iff, List.map_eq_nil_iff, ← withinBudget_none,
      ← withinBudget_none, not_and_or, Option.isSome_iff_ne_none, Option.isSome_iff_ne_none]

theorem survives_iff_of_sections (h : ∀ m ∈ input.messages, isSectionMessage m = true → m.role = "custom") :
    input.messages.filter survives = input.messages.filter fun m ↦ !isInjected m := by
  refine List.filter_congr fun m hm ↦ ?_
  cases hinjected : isInjected m with
  | true => rw [survives_injected hinjected]; rfl
  | false => rw [not_injected_survives hinjected (h m hm)]; rfl

theorem frame_iff : (((observer.output platform input clock).filter fun m ↦ !isInjected m) =
      input.messages.filter fun m ↦ !isInjected m) ↔
    ∀ m ∈ input.messages, isSectionMessage m = true → m.role = "custom" := by
  rw [output_frame]
  constructor
  · intro hframe m hm hsection
    by_contra hrole
    have hinjected : isInjected m = false := by
      rw [isInjected, decide_eq_false hrole, Bool.false_and]
    have hmem : m ∈ input.messages.filter survives := by
      rw [hframe]
      exact List.mem_filter.mpr ⟨hm, by rw [hinjected, Bool.not_false]⟩
    rw [List.mem_filter, not_survives_of_section hsection] at hmem
    exact Bool.false_ne_true hmem.2
  · exact survives_iff_of_sections

theorem kept_not_injected : ∀ m ∈ input.messages.filter survives, isInjected m = false := fun _ hm ↦
  survives_not_injected (List.mem_filter.mp hm).2

/-- The injected messages come last where none that stays takes the place of the packet. -/
theorem injectedLast_iff : InjectedLast (observer.output platform input clock) ↔
    (getEntry input.sessionId observer.active = none → Offered observer input.sessionId →
      ∀ m ∈ (input.messages.filter survives).getLast?, isPacketType m = false) := by
  obtain ⟨catalog, rules, hsections, hcatalog, hrules⟩ := sections_spec observer input.sessionId clock
  obtain ⟨packet, hpacket, hnone, hspec⟩ := packet_spec observer input.sessionId input.timestamp
  have hoffered : observer.sections input.sessionId clock ≠ [] ↔ Offered observer input.sessionId := sections_ne_nil
  rw [output_eq, ← hoffered, ← hnone, hpacket]
  constructor
  · rintro ⟨front, catalog', rules', packet', hdecomposed, hfront, hcatalog', hrules', hpacket'⟩ rfl hne last hlast
    by_contra htype
    rw [Bool.not_eq_false] at htype
    obtain ⟨kept, hkept⟩ := List.getLast?_eq_some_iff.mp hlast
    have hstays := kept_not_injected last (List.mem_of_getLast? hlast)
    rw [Option.toList_none, List.append_nil, hkept, arranged_last htype] at hdecomposed
    have htail : ∀ m ∈ catalog'.toList ++ (rules'.toList ++ packet'.toList), isInjected m = true := by
      intro m hm
      simp only [List.mem_append, Option.mem_toList] at hm
      obtain hm | hm | hm := hm
      · exact isInjected_of_section (hcatalog' m hm) (.inl rfl)
      · exact isInjected_of_section (hrules' m hm) (.inr rfl)
      · exact (packet_injected (hpacket' m hm)).2
    have hdecomposed : kept ++ observer.sections input.sessionId clock ++ [last] =
        front ++ (catalog'.toList ++ (rules'.toList ++ packet'.toList)) := by
      rw [hdecomposed, List.append_assoc, List.append_assoc]
    by_cases hnil : catalog'.toList ++ (rules'.toList ++ packet'.toList) = []
    · obtain ⟨m, hm⟩ := List.exists_mem_of_ne_nil _ hne
      have hmem : m ∈ front := by
        rw [hnil, List.append_nil] at hdecomposed
        rw [← hdecomposed]
        exact List.mem_append_left _ (List.mem_append_right _ hm)
      have hinjected := sections_injected observer input.sessionId clock m hm
      rw [hfront m hmem] at hinjected
      cases hinjected
    · have hend := congrArg List.getLast? hdecomposed
      rw [List.getLast?_concat, List.getLast?_append_of_ne_nil _ hnil] at hend
      rw [htail last (List.mem_of_getLast? hend.symm)] at hstays
      cases hstays
  · intro hplain
    cases hcurrent : packet with
    | some current =>
      have htype := (packet_injected (hspec current (hcurrent ▸ rfl))).1
      refine ⟨input.messages.filter survives, catalog, rules, some current, ?_, kept_not_injected, hcatalog, hrules,
        fun m hm ↦ hspec m (hcurrent ▸ hm)⟩
      rw [Option.toList_some, arranged_last htype, hsections, ← List.append_assoc]
    | none =>
      rw [Option.toList_none, List.append_nil]
      by_cases hempty : observer.sections input.sessionId clock = []
      · refine ⟨input.messages.filter survives, none, none, none, ?_, kept_not_injected, by simp, by simp, by simp⟩
        rw [arranged, if_pos hempty]
        simp
      · refine ⟨input.messages.filter survives, catalog, rules, none, ?_, kept_not_injected, hcatalog, hrules, by simp⟩
        rw [arranged_plain (hplain hcurrent hempty), hsections, Option.toList_none, List.append_nil, List.append_assoc]

/-- An injection frames the messages, and is settled by itself, where nothing else looks injected. -/
theorem context_framed_iff (platform : ObserverPlatform) (observer : ProductRuntimeObserver) (input : ContextInput)
    (clock : Clock) : Framed platform observer input clock ↔ Unresembled observer input := by
  constructor
  · intro h
    have hsections := frame_iff.mp h.frame
    refine ⟨hsections, fun hnone hoffered m hm ↦ ?_⟩
    rw [← survives_iff_of_sections hsections] at hm
    exact of_decide_eq_false (injectedLast_iff.mp h.injectedLast hnone hoffered m hm)
  · intro h
    refine ⟨frame_iff.mpr h.sections, injectedLast_iff.mpr fun hnone hoffered m hm ↦ ?_, output_settled⟩
    rw [survives_iff_of_sections h.sections] at hm
    exact decide_eq_false (h.packet hnone hoffered m hm)

end Framing

namespace Sample

def platform : ObserverPlatform where
  toLowerCase := id
  isUrl _ := false
  pathname _ := none
  callId _ := none
  callId_pos _ _ h := by cases h

/-- A message of a hook that carries the type of the rules. -/
def hookMessage : AgentMessage where
  role := "hookMessage"
  customType := some rulesCustomType
  content := .string "rules of a hook"
  display := some true
  details := none
  timestamp := 500

def turn : ContextInput := ⟨"session", [hookMessage], none, 1000⟩

end Sample

/-- The message is dropped, although nothing is injected. -/
theorem hookMessage_dropped : ¬ Framed Sample.platform ⟨[], [], []⟩ Sample.turn ⟨1000, 1000⟩ := by
  intro h
  have hrole := frame_iff.mp h.frame Sample.hookMessage List.mem_cons_self (by decide)
  exact absurd hrole (by decide)

end OmpLazy.Observers

import ProxboxApi.CephApply

/-! The operations that reach a Ceph provider: what a plan whose checks have passed says of them,
under any spelling of their kinds and actions. -/

namespace ProxboxApi.Ceph

variable (py : Python)

/-- The request confirms the destruction that this plan asks for. -/
def Confirmed (plan : PlanResponse) (request : ApplyRequest) : Prop :=
  request.confirmDestructive = true ∨
    ∃ token ∈ request.confirmationToken, token = plan.id ∨ token = "confirm:" ++ plan.id ∨
      token = "confirm-destructive:" ++ plan.id

theorem confirmationSatisfied_iff {plan : PlanResponse} {request : ApplyRequest} :
    confirmationSatisfied plan request = true ↔ Confirmed plan request := by
  unfold confirmationSatisfied Confirmed confirmationTokens
  cases request.confirmationToken <;> simp

/-- What is to hold of a plan before one of its operations is applied. -/
structure AppliesSafely (capabilities : ProviderCapabilities) (plan : PlanResponse)
    (request : ApplyRequest) : Prop where
  valid : ∀ v ∈ plan.validations, v.severity ≠ .error
  target : ∀ op ∈ plan.operations, op.targetRef ≠ ""
  supported : ∀ op ∈ plan.operations, op.supported = true ∧ capabilities.supported = true ∧
    (op.action = "noop" ∨ providerSupportsOperation capabilities op = true)
  flagged : ∀ op ∈ plan.operations, op.isDestructive = true → Confirmed plan request
  confirmed : ∀ op ∈ plan.operations, ∀ kind action : String,
    normalizedKind py kind = op.kind → normalizedAction py action = op.action →
      isDestructive py kind action = true → Confirmed plan request

/-- The words for destruction are their own lower case, and nothing is stripped from them. -/
theorem normal_of_destructive {action : String} (h : action ∈ destructiveActions) :
    py.lower (Text.strip action) = action := by
  have hascii : ∀ word ∈ destructiveActions, Text.strip word = word ∧
      (word.toList.all fun c => c.toNat < 128) = true ∧
        String.ofList (word.toList.map Char.toLower) = word := by
    decide +kernel
  obtain ⟨hstrip, hcode, hlower⟩ := hascii action h
  rw [hstrip, py.lower_ascii action, hlower]
  simpa using hcode

/-- The table of kinds adds nothing to the table of actions. -/
theorem isDestructive_iff {kind action : String} :
    isDestructive py kind action = true ↔ py.lower (Text.strip action) ∈ destructiveActions := by
  have hkinds : ∀ k actions, Dict.get k destructiveKindActions = some actions →
      actions = destructiveActions := by
    intro k actions hget
    have hmem := Dict.mem_of_get hget
    simp only [destructiveKindActions, List.mem_map] at hmem
    obtain ⟨kind', -, heq⟩ := hmem
    exact (congrArg Prod.snd heq).symm
  unfold isDestructive
  cases hget : Dict.get (normalizedKind py kind) destructiveKindActions with
  | none => simp
  | some actions => simp [hkinds _ _ hget]

/-- A destructive spelling stays destructive when it is normalized. -/
theorem isDestructive_normalized {kind action kind' action' : String}
    (haction : normalizedAction py action = action') (h : isDestructive py kind action = true) :
    isDestructive py kind' action' = true := by
  rw [isDestructive_iff] at h ⊢
  have hempty : py.lower (Text.strip action) ≠ "" := by
    intro heq
    rw [heq] at h
    simp [destructiveActions] at h
  have haction' : action' = py.lower (Text.strip action) := by
    rw [← haction, normalizedAction, if_neg hempty]
  rw [haction', normal_of_destructive py h]
  exact h

variable {capabilities : ProviderCapabilities}

/-- Blocking changes nothing but the mark and the reason of an operation. -/
theorem block_eq (capabilities : ProviderCapabilities) (op : ProviderOperation) : ∃ supported reason,
    block py capabilities op = { op with supported := supported, blockedReason := reason } := by
  unfold block
  split
  · exact ⟨_, _, rfl⟩
  · split
    · exact ⟨_, _, rfl⟩
    · split
      · exact ⟨_, _, rfl⟩
      · split <;> exact ⟨_, _, rfl⟩

theorem supported_of_block {op : ProviderOperation}
    (h : (block py capabilities op).supported = true) : op.targetRef ≠ "" ∧
      capabilities.supported = true ∧ providerSupportsOperation capabilities op = true := by
  unfold block at h
  split at h
  · simp at h
  · split at h
    · simp at h
    · split at h
      · simp at h
      · split at h
        · simp_all
        · simp_all

/-- An operation of a plan that is not blocked. -/
structure Admitted (capabilities : ProviderCapabilities) (op : ProviderOperation) : Prop where
  target : op.targetRef ≠ ""
  provider : capabilities.supported = true
  operation : providerSupportsOperation capabilities op = true

theorem admitted_of_normalized {stableId : ProviderOperation → String} {raw : ProviderOperation}
    (h : (normalizeOperation py stableId capabilities raw).supported = true) :
    Admitted capabilities (normalizeOperation py stableId capabilities raw) := by
  unfold normalizeOperation at h ⊢
  obtain ⟨htarget, hprovider, hoperation⟩ := supported_of_block py h
  obtain ⟨supported, reason, heq⟩ := block_eq py capabilities _
  rw [heq]
  exact ⟨htarget, hprovider, hoperation⟩

/-- The mark of a normalized operation covers what its kind and action say. -/
theorem isDestructive_of_normalized {stableId : ProviderOperation → String}
    {raw op : ProviderOperation} (hop : normalizeOperation py stableId capabilities raw = op)
    (h : isDestructive py op.kind op.action = true) : op.isDestructive = true := by
  unfold normalizeOperation at hop
  obtain ⟨supported, reason, heq⟩ := block_eq py capabilities _
  rw [heq] at hop
  subst hop
  simp only at h ⊢
  rw [h, Bool.or_true]

/-- Every operation of a plan is a normalized one. -/
theorem normalized_of_buildPlan {stableId : ProviderOperation → String} {planId : String}
    {snapshot : Option MetricSnapshot} {request : PlanRequest} {adapter : Adapter}
    {plan : PlanResponse} (h : buildPlan py stableId planId snapshot request adapter = .ok plan) :
    ∀ op ∈ plan.operations, ∃ raw,
      normalizeOperation py stableId adapter.capabilities raw = op := by
  have hplan : ∃ operations live warnings, plan = assemblePlan py stableId planId snapshot request
      adapter.capabilities operations live warnings := by
    unfold buildPlan at h
    dsimp only at h
    split at h
    · cases h
      exact ⟨_, _, _, rfl⟩
    · split at h <;> cases h
      · exact ⟨_, _, _, rfl⟩
      · exact ⟨_, _, _, rfl⟩
  obtain ⟨operations, live, warnings, rfl⟩ := hplan
  intro op hop
  have hmem : op ∈ operations.map (normalizeOperation py stableId adapter.capabilities) :=
    (List.perm_insertionSort priorityLe _).mem_iff.mp hop
  obtain ⟨raw, -, hraw⟩ := List.mem_map.mp hmem
  exact ⟨raw, hraw⟩

theorem refusal_eq_none_iff {plan : PlanResponse} {request : ApplyRequest} :
    refusal plan request = none ↔ (∀ v ∈ plan.validations, v.severity ≠ .error) ∧
      (∀ op ∈ plan.operations, op.supported = true) ∧
        ((∃ op ∈ plan.operations, op.isDestructive = true) → Confirmed plan request) := by
  have hchain : ∀ {P Q R : Prop} [Decidable P] [Decidable Q] [Decidable R] {a b c : Refusal},
      (if P then some a else if Q then some b else if R then some c else none) = none ↔
        ¬ P ∧ ¬ Q ∧ ¬ R := by
    intro P Q R _ _ _ a b c
    split_ifs <;> simp_all only [not_true_eq_false, not_false_eq_true, false_and, and_false,
      and_self]
  unfold refusal
  rw [hchain, ← confirmationSatisfied_iff]
  refine and_congr ?_ (and_congr ?_ ?_)
  · simp
  · simp
  · cases confirmationSatisfied plan request <;> simp

theorem safely_of_not_refused {stableId : ProviderOperation → String} {planId : String}
    {snapshot : Option MetricSnapshot} {request : PlanRequest} {adapter : Adapter}
    {plan : PlanResponse} {apply : ApplyRequest}
    (hplan : buildPlan py stableId planId snapshot request adapter = .ok plan)
    (h : refusal plan apply = none) : AppliesSafely py adapter.capabilities plan apply := by
  obtain ⟨hvalid, hsupported, hconfirmed⟩ := refusal_eq_none_iff.mp h
  have hadmitted : ∀ op ∈ plan.operations, Admitted adapter.capabilities op := by
    intro op hop
    obtain ⟨raw, hraw⟩ := normalized_of_buildPlan py hplan op hop
    have hs := hsupported op hop
    rw [← hraw] at hs ⊢
    exact admitted_of_normalized py hs
  refine ⟨hvalid, ?_, ?_, ?_, ?_⟩
  · intro op hop
    exact (hadmitted op hop).target
  · intro op hop
    exact ⟨hsupported op hop, (hadmitted op hop).provider, Or.inr (hadmitted op hop).operation⟩
  · intro op hop hflag
    exact hconfirmed ⟨op, hop, hflag⟩
  · intro op hop kind action hkind haction hd
    obtain ⟨raw, hraw⟩ := normalized_of_buildPlan py hplan op hop
    have hnormal : isDestructive py op.kind op.action = true :=
      isDestructive_normalized py haction hd
    exact hconfirmed ⟨op, hop, isDestructive_of_normalized py hraw hnormal⟩

/-- In every run of the engine, with any number of calls at once, a call that has called
`adapter.apply` on a plan made by `build_plan` was safe to do so. -/
theorem applies_safely {stableId : ProviderOperation → String} {planId : String}
    {snapshot : Option MetricSnapshot} {request : PlanRequest} {adapter : Adapter}
    {plan : PlanResponse} (hplan : buildPlan py stableId planId snapshot request adapter = .ok plan)
    (labels : List Label) (e : Engine)
    (hrun : Runs.exec (step py) Engine.initial labels = some e)
    (i : ℕ) (c : Call) (hcall : e.calls[i]? = some c) (hc : c.plan = plan)
    (n : ℕ) (id : String) (hstarted : .started i id n ∈ e.log) :
    AppliesSafely py adapter.capabilities plan c.request := by
  have hinv : Checked e := by
    refine Runs.invariant_of_step Checked ?_ checked_initial hrun
    intro s l t hs hstep
    exact checked_step py hs hstep
  obtain ⟨d, hd, href⟩ := hinv.started i n id hstarted
  rw [hcall] at hd
  cases hd
  subst hc
  exact safely_of_not_refused py hplan href

/-- To zap an OSD, with the kind and the action in the spelling of the user. -/
def zap (target : String) : ProviderOperation where
  id := none
  provider := "proxmox"
  kind := "OSD"
  targetRef := target
  action := " Zap"
  isDestructive := false
  supported := true
  blockedReason := none
  beforeSummary := .dict []
  afterSummary := .dict []
  metadata := .dict []

def zapRequest (targets : List String) : PlanRequest where
  objects := []
  desiredScope := []
  operations := targets.map zap
  scope := []
  netboxBranchSchemaId := none
  sourceBranchSchemaId := none
  asValue := .dict []

def zapAdapter : Adapter where
  capabilities := ⟨"proxmox", true, true, true, [("osd:*", true)], []⟩
  readState _ := .ok []
  diff _ _ := .ok []
  plan operations := .ok operations

def zapPlan (targets : List String) : PlanResponse :=
  assemblePlan .ascii (·.targetRef) "plan-1" none (zapRequest targets) zapAdapter.capabilities
    (zapRequest targets).operations [] []

def zapApply : ApplyRequest := ⟨none, none, none, false, some "confirm:plan-1"⟩

def zapLabels : List Label :=
  [.call (zapPlan ["osd.3"]) zapApply, .resume 0 .database, .resume 0 .database]

theorem applies_safely_zap :
    buildPlan .ascii (·.targetRef) "plan-1" none (zapRequest ["osd.3"]) zapAdapter =
    .ok (zapPlan ["osd.3"]) ∧
      ∃ e, Runs.exec (step .ascii) Engine.initial zapLabels = some e ∧
        e.log = [.started 0 "plan-1" 0] ∧
          AppliesSafely .ascii zapAdapter.capabilities (zapPlan ["osd.3"]) zapApply := by
  have hplan : buildPlan .ascii (·.targetRef) "plan-1" none (zapRequest ["osd.3"]) zapAdapter =
    .ok (zapPlan ["osd.3"]) :=
    rfl
  obtain ⟨e, c, hrun, hlog, hcall, hc, hrequest⟩ : ∃ e c,
      Runs.exec (step .ascii) Engine.initial zapLabels = some e ∧
        e.log = [.started 0 "plan-1" 0] ∧ e.calls[0]? = some c ∧ c.plan = zapPlan ["osd.3"] ∧
          c.request = zapApply := ⟨_, _, rfl, rfl, rfl, rfl, rfl⟩
  have hstarted : .started 0 "plan-1" 0 ∈ e.log := by
    rw [hlog]
    exact List.mem_singleton_self _
  rw [← hrequest]
  exact ⟨hplan, e, hrun, hlog,
    applies_safely .ascii hplan zapLabels e hrun 0 c hcall hc 0 "plan-1" hstarted⟩

end ProxboxApi.Ceph

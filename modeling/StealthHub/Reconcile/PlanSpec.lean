import StealthHub.Reconcile.Plan

set_option autoImplicit false

namespace StealthHub.Reconcile

open Effect Effect.Program

def Op.isProbe : Op → Prop
  | .installed _ => True
  | .compatible _ _ => True
  | _ => False

theorem context_uses {α : Type} (message : String) (x : Option α) :
    (context message x).Uses Op.isProbe := by cases x <;> trivial

theorem usable_uses (adapter : CoreAdapter) (required : Finset String) :
    (usable adapter required).Uses Op.isProbe := by
  refine uses_bind (uses_bind ⟨trivial, fun _ ↦ trivial⟩ fun r ↦ uses_lift r) fun b ↦ ?_
  cases b with
  | false => trivial
  | true => exact uses_bind ⟨trivial, fun _ ↦ trivial⟩ fun r ↦ uses_lift r

theorem firstUsable_uses (required : Finset String) (adapters : List CoreAdapter) :
    (firstUsable required adapters).Uses Op.isProbe := by
  induction adapters with
  | nil => trivial
  | cons adapter rest ih =>
    refine uses_bind (usable_uses adapter required) fun b ↦ ?_
    cases b with
    | false => exact ih
    | true => trivial

theorem select_uses (registry : CoreRegistry) (required : Finset String)
    (preferred : Option String) : (select registry required preferred).Uses Op.isProbe := by
  cases preferred with
  | none => exact firstUsable_uses required _
  | some preferred =>
    refine uses_bind (context_uses _ _) fun adapter ↦ ?_
    split_ifs
    · refine uses_bind (usable_uses adapter required) fun b ↦ ?_
      cases b <;> trivial
    · trivial

/-- What holds of the plans for a desired state, whatever the adapters say. -/
structure WellPlanned (applied : AppliedState) (plans : CorePlans) : Prop where
  core : ∀ e ∈ plans.entries, e.2.1.manifest.id = e.1
  plan : ∀ e ∈ plans.entries, e.2.2.coreId = e.1
  previous : ∀ coreId ∈ applied.activeCoreIds, coreId ∈ plans.keys

namespace Reconciler

variable (r : Reconciler) (desired : DesiredState) (secrets : SecretResolver)
variable (applied : AppliedState)

theorem validateGraph_uses : (r.validateGraph desired applied).Uses Op.isProbe := by
  refine uses_bind (uses_lift _) fun _ ↦ uses_bind (uses_foldlM fun _ profile ↦ ?_) fun _ ↦
    uses_bind (uses_foldlM fun _ _ ↦ ?_) fun _ ↦ uses_foldlM fun _ _ ↦ ?_
  · exact uses_bind (context_uses _ _) fun _ ↦ uses_bind (select_uses _ _ _) fun _ ↦
      uses_bind (context_uses _ _) fun _ ↦ trivial
  · exact uses_bind (context_uses _ _) fun _ ↦ trivial
  · exact uses_bind (context_uses _ _) fun _ ↦ trivial

theorem buildPlans_uses : (r.buildPlans desired secrets applied).Uses Op.isProbe := by
  refine uses_bind (uses_foldlM fun fragments profile ↦ ?_) fun _ ↦
    uses_bind (uses_foldlM fun fragments resource ↦ ?_) fun _ ↦
    uses_bind (uses_foldlM fun fragments coreId ↦ ?_) fun _ ↦ trivial
  · exact uses_bind (context_uses _ _) fun _ ↦ uses_bind (uses_lift _) fun _ ↦
      uses_bind (select_uses _ _ _) fun _ ↦ uses_bind (context_uses _ _) fun _ ↦
      uses_bind (uses_lift _) fun _ ↦ trivial
  · refine uses_bind (uses_lift _) fun _ ↦ ?_
    split_ifs
    · trivial
    · exact uses_bind (context_uses _ _) fun _ ↦ trivial
  · rw [planPrevious]
    split_ifs
    · trivial
    · exact uses_bind (context_uses _ _) fun _ ↦ trivial

def Keyed (fragments : Fragments) : Prop :=
  ∀ id entry, fragments.get? id = some entry → entry.1.manifest.id = id

theorem Keyed.insert {fragments : Fragments} (h : Keyed fragments) {core : CoreAdapter}
    (rest : List ServerFragment) :
    Keyed (OrderedMap.insert fragments core.manifest.id (core, rest)) := by
  intro id entry he
  rw [OrderedMap.get?_insert] at he
  split_ifs at he with hid
  · rw [← Option.some.inj he, hid]
  · exact h id entry he

theorem Keyed.push {fragments : Fragments} (h : Keyed fragments) (core : CoreAdapter)
    (fragment : ServerFragment) : Keyed (pushFragment fragments core.manifest.id core fragment) := by
  rw [pushFragment]
  cases hg : fragments.get? core.manifest.id with
  | none => exact h.insert [fragment]
  | some entry =>
    have hid := h _ _ hg
    simp only
    rw [← hid]
    exact h.insert (entry.2 ++ [fragment])

variable {r} in
theorem planProfile_returns {fragments : Fragments} {profile : ProtocolProfile}
    (h : Keyed fragments) : (r.planProfile desired secrets fragments profile).Returns Keyed := by
  refine returns_bind (returns_true _) fun _ _ ↦ returns_bind (returns_true _) fun _ _ ↦
    returns_bind (returns_true _) fun _ _ ↦ returns_bind (returns_true _) fun core _ ↦
    returns_bind (returns_true _) fun fragment _ ↦ ?_
  exact h.push core fragment

theorem context_returns {α : Type} {message : String} {x : Option α} :
    (context message x).Returns fun a ↦ x = some a := by
  cases x with
  | none => trivial
  | some a => rfl

variable {r} in
theorem planInfrastructure_returns {fragments : Fragments} {resource : InfrastructureResource}
    (h : Keyed fragments) : (r.planInfrastructure fragments resource).Returns Keyed := by
  refine returns_bind (returns_true _) fun _ _ ↦ ?_
  split_ifs
  · trivial
  · refine returns_bind context_returns fun adapter hg ↦ ?_
    have hid := r.cores.keyed _ _ hg
    rw [← hid]
    exact h.push adapter _

variable {r} in
theorem planPrevious_returns {fragments : Fragments} {coreId : String} (h : Keyed fragments) :
    (r.planPrevious fragments coreId).Returns fun fragments' ↦
      Keyed fragments' ∧ coreId ∈ fragments'.keys ∧ fragments.keys ⊆ fragments'.keys := by
  rw [planPrevious]
  split_ifs with hc
  · exact ⟨h, OrderedMap.contains_iff.mp hc, fun _ ↦ id⟩
  · refine returns_bind context_returns fun core hg ↦ ?_
    have hid := r.cores.keyed _ _ hg
    rw [← hid]
    refine ⟨h.insert [], OrderedMap.mem_keys_insert.mpr (.inl rfl), fun id hm ↦ ?_⟩
    exact OrderedMap.mem_keys_insert.mpr (.inr hm)

variable {r} in
theorem planPrevious_all (coreIds : List String) {fragments : Fragments}
    (h : Keyed fragments) : (coreIds.foldlM r.planPrevious fragments).Returns fun fragments' ↦
      Keyed fragments' ∧ (∀ coreId ∈ coreIds, coreId ∈ fragments'.keys) ∧
        fragments.keys ⊆ fragments'.keys := by
  induction coreIds generalizing fragments with
  | nil => exact ⟨h, by simp, fun _ ↦ id⟩
  | cons coreId rest ih =>
    rw [List.foldlM_cons, bind_eq]
    refine returns_bind (planPrevious_returns h) fun fragments₁ ⟨h₁, hm, hsub⟩ ↦ ?_
    refine (ih h₁).mono fun fragments₂ ⟨h₂, hrest, hsub₂⟩ ↦ ⟨h₂, fun id hid ↦ ?_, ?_⟩
    · rcases List.mem_cons.mp hid with rfl | hid
      · exact hsub₂ hm
      · exact hrest id hid
    · exact fun id hid ↦ hsub₂ (hsub hid)

theorem buildPlans_returns :
    (r.buildPlans desired secrets applied).Returns (WellPlanned applied) := by
  have hempty : Keyed OrderedMap.empty := fun id entry h ↦ by simp at h
  refine returns_bind (returns_foldlM (fun fragments profile _ h ↦
    planProfile_returns desired secrets h) hempty) fun fragments₁ h₁ ↦ ?_
  refine returns_bind (returns_foldlM (fun fragments resource _ h ↦
    planInfrastructure_returns h) h₁) fun fragments₂ h₂ ↦ ?_
  refine returns_bind (planPrevious_all applied.activeCoreIds h₂) fun fragments₃ h₃ ↦ ?_
  obtain ⟨hkeyed, hprevious, -⟩ := h₃
  refine ⟨fun e he ↦ ?_, fun e he ↦ ?_, fun coreId hc ↦ ?_⟩
  · obtain ⟨⟨id, entry⟩, hm, rfl⟩ := List.mem_map.mp he
    exact hkeyed id entry (OrderedMap.mem_entries.mp hm)
  · obtain ⟨⟨id, entry⟩, hm, rfl⟩ := List.mem_map.mp he
    rfl
  · rw [OrderedMap.keys_mapValues]
    exact hprevious coreId hc

end Reconciler

end StealthHub.Reconcile

import StealthHub.Reconcile.PlanSpec
import StealthHub.Reconcile.Selection

set_option autoImplicit false

namespace StealthHub.Reconcile

open Effect Effect.Program

abbrev Placement := CoreAdapter × ServerFragment

namespace Reconciler

variable {r : Reconciler} {host : Host} {desired : DesiredState} {secrets : SecretResolver}
variable {applied : AppliedState} {profile : ProtocolProfile} {resource : InfrastructureResource}
variable {placement : Placement} {placements : List Placement} {fragments fragments' : Fragments}
variable {plans : CorePlans} {id : String} {core : CoreAdapter} {coreIds : List String}

def place (fragments : Fragments) (placement : Placement) : Fragments :=
  pushFragment fragments placement.1.manifest.id placement.1 placement.2

/-- The core that serves a profile, and what it is given for it. -/
structure Serves (r : Reconciler) (host : Host) (desired : DesiredState) (secrets : SecretResolver)
    (profile : ProtocolProfile) (placement : Placement) (adapter : ProtocolAdapter) : Prop where
  registered : r.protocols.get profile.protocolId = some adapter
  config : adapter.validateConfig profile.schemaVersion profile.config = .ok ()
  core : (select r.cores adapter.manifest.requiredCoreCapabilities profile.preferredCoreId).under
    host = .ok (some placement.1)
  fragment : adapter.renderServer ⟨profile, desired.users, secrets⟩ = .ok placement.2

def resourceFragment (resource : InfrastructureResource) : ServerFragment where
  profileId := resource.resourceId
  capability := resource.adapterId
  payload := resource.config
  expectedUserIds := none
  listeners := resource.listeners

/-- The core of a resource, which its fragment goes to as it is. -/
structure Provides (r : Reconciler) (resource : InfrastructureResource) (placement : Placement) :
    Prop where
  resourceId : validateResourceId resource.resourceId = .ok ()
  schema : resource.schemaVersion ≠ 0
  config : resource.config.isObject
  core : r.cores.get resource.adapterId = some placement.1
  fragment : placement.2 = resourceFragment resource

theorem planProfile_ok :
    (r.planProfile desired secrets fragments profile).under host = .ok fragments' ↔
      ∃ placement, (∃ adapter, r.Serves host desired secrets profile placement adapter) ∧
        place fragments placement = fragments' := by
  simp only [planProfile, bind_eq, under_bind_ok, under_lift, context_under]
  constructor
  · rintro ⟨adapter, hadapter, ⟨⟩, hconfig, selected, hselected, core, rfl, fragment, hfragment, h⟩
    exact ⟨(core, fragment), ⟨adapter, hadapter, hconfig, hselected, hfragment⟩, Except.ok.inj h⟩
  · rintro ⟨⟨core, fragment⟩, ⟨adapter, h⟩, rfl⟩
    exact ⟨adapter, h.registered, (), h.config, some core, h.core, core, rfl, fragment, h.fragment,
      rfl⟩

theorem planInfrastructure_ok :
    (r.planInfrastructure fragments resource).under host = .ok fragments' ↔
      ∃ placement, r.Provides resource placement ∧ place fragments placement = fragments' := by
  simp only [planInfrastructure, bind_eq, under_bind_ok, under_lift]
  constructor
  · rintro ⟨⟨⟩, hid, h⟩
    split_ifs at h with hschema
    · cases h
    obtain ⟨hversion, hobject⟩ := not_or.mp hschema
    obtain ⟨core, hcore, h⟩ := under_bind_ok.mp h
    rw [context_under] at hcore
    refine ⟨(core, resourceFragment resource), ⟨hid, hversion, by simpa using hobject, hcore, rfl⟩, ?_⟩
    rw [place, r.cores.keyed _ _ hcore]
    exact Except.ok.inj h
  · rintro ⟨⟨core, fragment⟩, h, rfl⟩
    refine ⟨(), h.resourceId, ?_⟩
    rw [if_neg (not_or.mpr ⟨h.schema, by simp [h.config]⟩)]
    refine under_bind_ok.mpr ⟨core, context_under.mpr h.core, ?_⟩
    rw [place, r.cores.keyed _ _ h.core, h.fragment]
    rfl

theorem planProfiles_ok {profiles : List ProtocolProfile} :
    (profiles.foldlM (r.planProfile desired secrets) fragments).under host = .ok fragments' ↔
      ∃ served, List.Forall₂ (fun profile placement ↦
        ∃ adapter, r.Serves host desired secrets profile placement adapter) profiles served ∧
          served.foldl place fragments = fragments' := by
  refine under_foldlM_ok fun fragments profile fragments' ↦ ?_
  exact planProfile_ok

theorem planResources_ok {resources : List InfrastructureResource} :
    (resources.foldlM r.planInfrastructure fragments).under host = .ok fragments' ↔
      ∃ provided, List.Forall₂ r.Provides resources provided ∧
        provided.foldl place fragments = fragments' := by
  refine under_foldlM_ok fun fragments resource fragments' ↦ ?_
  exact planInfrastructure_ok

theorem planPrevious_ok : (r.planPrevious fragments id).under host = .ok fragments' ↔
    if fragments.contains id then fragments = fragments'
    else ∃ core, r.cores.get id = some core ∧ fragments.insert id (core, []) = fragments' := by
  rw [planPrevious]
  split_ifs
  · exact ⟨Except.ok.inj, congrArg _⟩
  · rw [bind_eq, under_bind_ok]
    refine exists_congr fun core ↦ and_congr context_under ?_
    exact ⟨Except.ok.inj, congrArg _⟩

theorem validateProfile_ok : (r.validateProfile profile).under host = .ok () ↔
    ∃ adapter core, r.protocols.get profile.protocolId = some adapter ∧
      (select r.cores adapter.manifest.requiredCoreCapabilities profile.preferredCoreId).under
        host = .ok (some core) := by
  simp only [validateProfile, bind_eq, under_bind_ok, context_under]
  constructor
  · rintro ⟨adapter, hadapter, selected, hselected, core, rfl, -⟩
    exact ⟨adapter, core, hadapter, hselected⟩
  · rintro ⟨adapter, core, hadapter, hselected⟩
    exact ⟨adapter, hadapter, some core, hselected, core, rfl, rfl⟩

theorem context_checked {α : Type} {message : String} {x : Option α} :
    ((context message x).bind fun _ ↦ .done ()).under host = .ok () ↔ ∃ a, x = some a := by
  rw [under_bind_ok]
  exact ⟨fun ⟨a, ha, _⟩ ↦ ⟨a, context_under.mp ha⟩, fun ⟨a, ha⟩ ↦ ⟨a, context_under.mpr ha, rfl⟩⟩

theorem validateGraph_ok : (r.validateGraph desired applied).under host = .ok () ↔
    validateInfrastructureDependencies desired.infrastructure = .ok () ∧
      (∀ profile ∈ desired.profiles.filter ProtocolProfile.enabled, ∃ adapter core,
        r.protocols.get profile.protocolId = some adapter ∧
        (select r.cores adapter.manifest.requiredCoreCapabilities profile.preferredCoreId).under
          host = .ok (some core)) ∧
      (∀ resource ∈ desired.infrastructure.filter InfrastructureResource.enabled, ∃ core,
        r.cores.get resource.adapterId = some core) ∧
      ∀ id ∈ applied.activeCoreIds, ∃ core, r.cores.get id = some core := by
  simp only [validateGraph, bind_eq, pure_eq, under_bind_ok, under_lift]
  constructor
  · rintro ⟨⟨⟩, hdependencies, ⟨⟩, hprofiles, ⟨⟩, hresources, hprevious⟩
    rw [under_foldlM_unit] at hprofiles hresources hprevious
    exact ⟨hdependencies, fun profile hmem ↦ validateProfile_ok.mp (hprofiles profile hmem),
      fun resource hmem ↦ context_checked.mp (hresources resource hmem),
      fun id hmem ↦ context_checked.mp (hprevious id hmem)⟩
  · rintro ⟨hdependencies, hprofiles, hresources, hprevious⟩
    refine ⟨(), hdependencies, (), under_foldlM_unit.mpr ?_, (), under_foldlM_unit.mpr ?_,
      under_foldlM_unit.mpr ?_⟩
    · exact fun profile hmem ↦ validateProfile_ok.mpr (hprofiles profile hmem)
    · exact fun resource hmem ↦ context_checked.mpr (hresources resource hmem)
    · exact fun id hmem ↦ context_checked.mpr (hprevious id hmem)

def fragmentsOf (fragments : Fragments) (id : String) : List ServerFragment :=
  (fragments.get? id).elim [] Prod.snd

def claims (fragments : Fragments) : List ListenerClaim :=
  fragments.entries.flatMap fun entry ↦ entry.2.2.flatMap ServerFragment.listeners

theorem fragmentsOf_place : fragmentsOf (place fragments placement) id =
    fragmentsOf fragments id ++
      if placement.1.manifest.id = id then [placement.2] else [] := by
  rw [place, pushFragment]
  cases hget : fragments.get? placement.1.manifest.id with
  | none =>
    simp only [fragmentsOf, OrderedMap.get?_insert]
    split_ifs with hid
    · subst hid
      simp [hget]
    · simp
  | some entry =>
    simp only [fragmentsOf, OrderedMap.get?_insert]
    split_ifs with hid
    · subst hid
      simp [hget]
    · simp

theorem fragmentsOf_placed : fragmentsOf (placements.foldl place fragments) id =
    fragmentsOf fragments id ++
      (placements.filter fun placement ↦ placement.1.manifest.id = id).map Prod.snd := by
  induction placements generalizing fragments with
  | nil => simp
  | cons placement rest ih =>
    rw [List.foldl_cons, ih, fragmentsOf_place, List.append_assoc]
    by_cases hid : placement.1.manifest.id = id
    · simp [hid]
    · simp [hid]

theorem claims_insert {entry : CoreAdapter × List ServerFragment} :
    (claims (OrderedMap.insert fragments id entry)).Perm
      (entry.2.flatMap ServerFragment.listeners ++ claims (OrderedMap.erase fragments id)) :=
  (fragments.entries_insert id entry).flatMap_right _

theorem claims_erase : (claims fragments).Perm
    ((fragmentsOf fragments id).flatMap ServerFragment.listeners ++
      claims (OrderedMap.erase fragments id)) := by
  rw [fragmentsOf]
  cases hget : fragments.get? id with
  | none => exact (OrderedMap.erase_of_not_mem hget).symm.flatMap_right _
  | some entry => exact (OrderedMap.entries_perm hget).flatMap_right _

theorem claims_place : (claims (place fragments placement)).Perm
    (placement.2.listeners ++ claims fragments) := by
  have hinserted : ∀ core, (claims (OrderedMap.insert fragments placement.1.manifest.id
      (core, fragmentsOf fragments placement.1.manifest.id ++ [placement.2]))).Perm
        (placement.2.listeners ++ claims fragments) := by
    intro core
    refine claims_insert.trans ?_
    rw [List.flatMap_append, List.append_assoc, List.flatMap_singleton]
    refine (List.perm_append_comm_assoc _ _ _).trans ?_
    exact claims_erase.symm.append_left _
  rw [place, pushFragment]
  cases hget : fragments.get? placement.1.manifest.id with
  | none =>
    have h := hinserted placement.1
    rwa [fragmentsOf, hget] at h
  | some entry =>
    have h := hinserted entry.1
    rwa [fragmentsOf, hget] at h

theorem claims_placed : (claims (placements.foldl place fragments)).Perm
    ((placements.flatMap fun placement ↦ placement.2.listeners) ++ claims fragments) := by
  induction placements generalizing fragments with
  | nil => exact .refl _
  | cons placement rest ih =>
    rw [List.foldl_cons, List.flatMap_cons, List.append_assoc]
    refine ih.trans ((claims_place.append_left _).trans ?_)
    exact List.perm_append_comm_assoc _ _ _

theorem fragmentsOf_previous
    (h : (coreIds.foldlM r.planPrevious fragments).under host = .ok fragments') :
    fragmentsOf fragments' id = fragmentsOf fragments id := by
  induction coreIds generalizing fragments with
  | nil => rw [← Except.ok.inj h]
  | cons coreId rest ih =>
    rw [List.foldlM_cons, bind_eq] at h
    obtain ⟨middle, hstep, hrest⟩ := under_bind_ok.mp h
    rw [ih hrest]
    rw [planPrevious_ok] at hstep
    split_ifs at hstep with hcontains
    · rw [hstep]
    · obtain ⟨core, -, rfl⟩ := hstep
      rw [fragmentsOf, fragmentsOf, OrderedMap.get?_insert]
      split_ifs with hid
      · subst hid
        rw [OrderedMap.contains, Option.not_isSome_iff_eq_none] at hcontains
        rw [hcontains]
        rfl
      · rfl

theorem claims_previous
    (h : (coreIds.foldlM r.planPrevious fragments).under host = .ok fragments') :
    (claims fragments').Perm (claims fragments) := by
  induction coreIds generalizing fragments with
  | nil => rw [← Except.ok.inj h]
  | cons coreId rest ih =>
    rw [List.foldlM_cons, bind_eq] at h
    obtain ⟨middle, hstep, hrest⟩ := under_bind_ok.mp h
    refine (ih hrest).trans ?_
    rw [planPrevious_ok] at hstep
    split_ifs at hstep with hcontains
    · rw [hstep]
    · obtain ⟨core, -, rfl⟩ := hstep
      rw [OrderedMap.contains, Option.not_isSome_iff_eq_none] at hcontains
      exact claims_insert.trans ((OrderedMap.erase_of_not_mem hcontains).flatMap_right _)

theorem mem_keys_place : id ∈ OrderedMap.keys (place fragments placement) ↔
    id = placement.1.manifest.id ∨ id ∈ OrderedMap.keys fragments := by
  rw [place, pushFragment]
  cases fragments.get? placement.1.manifest.id with
  | none => exact OrderedMap.mem_keys_insert
  | some entry => exact OrderedMap.mem_keys_insert

theorem mem_keys_placed : id ∈ OrderedMap.keys (placements.foldl place fragments) ↔
    (∃ placement ∈ placements, placement.1.manifest.id = id) ∨ id ∈ OrderedMap.keys fragments := by
  induction placements generalizing fragments with
  | nil => simp
  | cons placement rest ih =>
    rw [List.foldl_cons, ih, mem_keys_place, List.exists_mem_cons_iff, or_assoc, or_left_comm,
      eq_comm]

theorem mem_keys_previous
    (h : (coreIds.foldlM r.planPrevious fragments).under host = .ok fragments')
    (hid : id ∈ OrderedMap.keys fragments') : id ∈ OrderedMap.keys fragments ∨ id ∈ coreIds := by
  induction coreIds generalizing fragments with
  | nil =>
    rw [← Except.ok.inj h] at hid
    exact .inl hid
  | cons coreId rest ih =>
    rw [List.foldlM_cons, bind_eq] at h
    obtain ⟨middle, hstep, hrest⟩ := under_bind_ok.mp h
    rcases ih hrest with hmiddle | hmem
    · rw [planPrevious_ok] at hstep
      split_ifs at hstep
      · exact .inl (hstep ▸ hmiddle)
      · obtain ⟨core, -, rfl⟩ := hstep
        rcases OrderedMap.mem_keys_insert.mp hmiddle with rfl | hkept
        · exact .inr List.mem_cons_self
        · exact .inl hkept
    · exact .inr (List.mem_cons_of_mem _ hmem)

theorem previous_exists (h : ∀ id ∈ coreIds, ∃ core, r.cores.get id = some core) :
    ∃ fragments', (coreIds.foldlM r.planPrevious fragments).under host = .ok fragments' := by
  induction coreIds generalizing fragments with
  | nil => exact ⟨fragments, rfl⟩
  | cons coreId rest ih =>
    obtain ⟨⟨core, hcore⟩, hrest⟩ := List.forall_mem_cons.mp h
    have hstep : ∃ middle, (r.planPrevious fragments coreId).under host = .ok middle := by
      simp only [planPrevious_ok]
      split_ifs
      · exact ⟨fragments, rfl⟩
      · exact ⟨_, core, hcore, rfl⟩
    obtain ⟨middle, hmiddle⟩ := hstep
    obtain ⟨fragments', hfragments⟩ := @ih middle hrest
    refine ⟨fragments', ?_⟩
    rw [List.foldlM_cons, bind_eq]
    exact under_bind_ok.mpr ⟨middle, hmiddle, hfragments⟩

/-- What is placed for a desired state, the profiles first. -/
structure Placed (r : Reconciler) (host : Host) (desired : DesiredState) (secrets : SecretResolver)
    (served provided : List Placement) : Prop where
  profiles : List.Forall₂
    (fun profile placement ↦ ∃ adapter, r.Serves host desired secrets profile placement adapter)
    (desired.profiles.filter ProtocolProfile.enabled) served
  infrastructure : List.Forall₂ r.Provides
    (desired.infrastructure.filter InfrastructureResource.enabled) provided

/-- The plans that hold what is placed. -/
structure Holds (plans : CorePlans) (placements : List Placement) : Prop where
  fragments : ∀ id core plan, plans.get? id = some (core, plan) → plan.fragments =
    (placements.filter fun placement ↦ placement.1.manifest.id = id).map Prod.snd
  planned : ∀ placement ∈ placements, ∃ entry, plans.get? placement.1.manifest.id = some entry
  claims : (plans.values.flatMap fun entry ↦
    entry.2.fragments.flatMap ServerFragment.listeners).Perm
      (placements.flatMap fun placement ↦ placement.2.listeners)

theorem buildPlans_holds
    (h : (r.buildPlans desired secrets applied).under host = .ok plans) :
    ∃ served provided, r.Placed host desired secrets served provided ∧
      Holds plans (served ++ provided) := by
  rw [buildPlans, bind_eq] at h
  obtain ⟨first, hfirst, h⟩ := under_bind_ok.mp h
  obtain ⟨second, hsecond, h⟩ := under_bind_ok.mp h
  obtain ⟨third, hthird, h⟩ := under_bind_ok.mp h
  have hplans := Except.ok.inj h
  obtain ⟨served, hserved, rfl⟩ := planProfiles_ok.mp hfirst
  obtain ⟨provided, hprovided, rfl⟩ := planResources_ok.mp hsecond
  rw [← List.foldl_append] at hthird
  subst hplans
  have hof : ∀ id, fragmentsOf third id =
      ((served ++ provided).filter fun placement ↦ placement.1.manifest.id = id).map Prod.snd := by
    intro id
    rw [fragmentsOf_previous hthird, fragmentsOf_placed]
    rfl
  refine ⟨served, provided, ⟨hserved, hprovided⟩, ?_, ?_, ?_⟩
  · intro id core plan hplan
    rw [OrderedMap.get?_mapValues, Option.map_eq_some_iff] at hplan
    obtain ⟨⟨core', fragments⟩, hget, hplan⟩ := hplan
    cases hplan
    have hid := hof id
    rwa [fragmentsOf, hget] at hid
  · intro placement hplacement
    have hid := hof placement.1.manifest.id
    rw [fragmentsOf] at hid
    cases hget : third.get? placement.1.manifest.id with
    | none =>
      rw [hget] at hid
      have hmem : placement.2 ∈ ([] : List ServerFragment) := by
        rw [show ([] : List ServerFragment) = _ from hid]
        exact List.mem_map_of_mem (List.mem_filter.mpr ⟨hplacement, decide_eq_true rfl⟩)
      cases hmem
    | some entry =>
      rw [OrderedMap.get?_mapValues, hget]
      exact ⟨_, rfl⟩
  · have hclaims := (claims_previous hthird).trans claims_placed
    rw [claims, claims] at hclaims
    simpa [OrderedMap.values, OrderedMap.mapValues, List.flatMap_map, OrderedMap.empty]
      using hclaims

theorem buildPlans_keys (h : (r.buildPlans desired secrets applied).under host = .ok plans) :
    ∃ served provided, r.Placed host desired secrets served provided ∧ ∀ id ∈ plans.keys,
      (∃ placement ∈ served ++ provided, placement.1.manifest.id = id) ∨
        id ∈ applied.activeCoreIds := by
  rw [buildPlans, bind_eq] at h
  obtain ⟨first, hfirst, h⟩ := under_bind_ok.mp h
  obtain ⟨second, hsecond, h⟩ := under_bind_ok.mp h
  obtain ⟨third, hthird, h⟩ := under_bind_ok.mp h
  have hplans := Except.ok.inj h
  obtain ⟨served, hserved, rfl⟩ := planProfiles_ok.mp hfirst
  obtain ⟨provided, hprovided, rfl⟩ := planResources_ok.mp hsecond
  rw [← List.foldl_append] at hthird
  subst hplans
  refine ⟨served, provided, ⟨hserved, hprovided⟩, fun id hid ↦ ?_⟩
  rw [OrderedMap.keys_mapValues] at hid
  rcases mem_keys_previous hthird hid with hplaced | hprevious
  · exact .inl ((mem_keys_placed.mp hplaced).resolve_right (by simp [OrderedMap.keys,
      OrderedMap.empty]))
  · exact .inr hprevious

theorem buildPlans_exists {served provided : List Placement}
    (h : r.Placed host desired secrets served provided)
    (hprevious : ∀ id ∈ applied.activeCoreIds, ∃ core, r.cores.get id = some core) :
    ∃ plans, (r.buildPlans desired secrets applied).under host = .ok plans := by
  obtain ⟨fragments, hfragments⟩ := previous_exists hprevious
  refine ⟨_, under_bind_ok.mpr ⟨served.foldl place .empty, ?_, under_bind_ok.mpr
    ⟨provided.foldl place (served.foldl place .empty), ?_, under_bind_ok.mpr
      ⟨fragments, hfragments, rfl⟩⟩⟩⟩
  · exact planProfiles_ok.mpr ⟨served, h.profiles, rfl⟩
  · exact planResources_ok.mpr ⟨provided, h.infrastructure, rfl⟩

end Reconciler

theorem validateListenerPlan_ok {plans : CorePlans} : validateListenerPlan plans = .ok () ↔
    (plans.values.flatMap fun entry ↦
      entry.2.fragments.flatMap ServerFragment.listeners).Nodup := by
  simp only [validateListenerPlan]
  split_ifs with h
  · exact iff_of_true rfl h
  · exact iff_of_false nofun h

end StealthHub.Reconcile

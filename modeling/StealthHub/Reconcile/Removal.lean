import StealthHub.Adapters.Cores
import StealthHub.Adapters.ProtocolsSpec
import StealthHub.Reconcile.Built

set_option autoImplicit false

namespace StealthHub

namespace CoreRegistry

variable {registry : CoreRegistry} {required : Finset String} {excluded : String}

def compatibleExcluding (registry : CoreRegistry) (required : Finset String) (excluded : String) :
    List CoreAdapter :=
  ((registry.adapters.entries.filter fun entry ↦
    entry.1 ≠ excluded ∧ required ⊆ entry.2.manifest.capabilities).map Prod.snd).insertionSort
      fun a b ↦ b.manifest.selectionPriority ≤ a.manifest.selectionPriority

theorem compatibleExcluding_eq : registry.compatibleExcluding required excluded =
    (registry.compatible required).filter fun core ↦ core.manifest.id ≠ excluded := by
  rw [compatible, List.filter_insertionSort, compatibleExcluding, OrderedMap.values,
    List.filter_map, List.filter_map, List.filter_filter]
  congr 2
  refine List.filter_congr fun entry hentry ↦ ?_
  simp [registry.keyed _ _ (OrderedMap.mem_entries.mp hentry)]

end CoreRegistry

namespace Reconcile

open Effect Effect.Program

variable {host host' : Host} {registry : CoreRegistry} {required : Finset String}
variable {core adapter : CoreAdapter} {adapters : List CoreAdapter} {coreId : String}
variable {preferred : Option String}

def selectExcluding (registry : CoreRegistry) (required : Finset String) (excluded : String) :
    Program Reply String (Option CoreAdapter) :=
  firstUsable required (registry.compatibleExcluding required excluded)

namespace Reconciler

variable (r : Reconciler)

def profilesBlocked (coreId : String) : List ProtocolProfile → Program Reply String Bool
  | [] => pure false
  | profile :: rest => do
    let protocol ← context "desired protocol adapter is missing"
      (r.protocols.get profile.protocolId)
    if profile.preferredCoreId = some coreId then pure true
    else if (← selectExcluding r.cores protocol.manifest.requiredCoreCapabilities coreId).isNone then
      pure true
    else profilesBlocked coreId rest

/-- Whether removing an installed core would leave the desired state unresolved. -/
def coreRemovalBlocked (desired : DesiredState) (coreId : String) :
    Program Reply String Bool := do
  if ← r.profilesBlocked coreId (desired.profiles.filter ProtocolProfile.enabled) then pure true
  else pure (desired.infrastructure.any fun resource ↦
    resource.enabled && resource.adapterId = coreId)

end Reconciler

/-- A core is no longer installed, everything else is as it was. Of a core that is gone the
host may also answer that it supports nothing. -/
structure Removed (host host' : Host) (coreId : String) : Prop where
  installed : host' (.installed coreId) = .ok false
  compatible : ∀ required, host' (.compatible coreId required) = host (.compatible coreId required) ∨
    host' (.compatible coreId required) = .ok false
  others_installed : ∀ id, id ≠ coreId → host' (.installed id) = host (.installed id)
  others_compatible : ∀ id required, id ≠ coreId →
    host' (.compatible id required) = host (.compatible id required)

namespace Removed

variable (h : Removed host host' coreId)
include h

theorem not_runs (hid : core.manifest.id = coreId) : ¬host'.Runs core required := by
  intro hruns
  have hgone := h.installed
  rw [← hid, hruns.installed] at hgone
  cases hgone

theorem runs (hid : core.manifest.id ≠ coreId) (hruns : host.Runs core required) :
    host'.Runs core required :=
  ⟨(h.others_compatible _ _ hid).trans hruns.compatible,
    (h.others_installed _ hid).trans hruns.installed⟩

theorem declines (hdeclines : host.Declines core required) : host'.Declines core required := by
  by_cases hid : core.manifest.id = coreId
  · subst hid
    rcases h.compatible required with hsame | hnone
    · rcases hdeclines with hcompatible | ⟨hcompatible, -⟩
      · exact .inl (hsame.trans hcompatible)
      · exact .inr ⟨hsame.trans hcompatible, h.installed⟩
    · exact .inl hnone
  · rw [Host.Declines, h.others_compatible _ _ hid, h.others_installed _ hid]
    exact hdeclines

theorem declines_removed (hid : core.manifest.id = coreId) (hruns : host.Runs core required) :
    host'.Declines core required := by
  subst hid
  rcases h.compatible required with hsame | hnone
  · exact .inr ⟨hsame.trans hruns.compatible, h.installed⟩
  · exact .inl hnone

theorem answers (hremoved : ∀ core ∈ adapters, core.manifest.id = coreId →
      host'.Declines core required)
    (hanswers : host.Answers required (adapters.filter fun core ↦ core.manifest.id ≠ coreId)) :
    host'.Answers required adapters := by
  induction adapters with
  | nil => trivial
  | cons first rest ih =>
    obtain ⟨hfirst, hrest⟩ := List.forall_mem_cons.mp hremoved
    by_cases hid : first.manifest.id = coreId
    · refine .inr ⟨hfirst hid, ih hrest ?_⟩
      simpa [hid] using hanswers
    · rw [List.filter_cons_of_pos (by simpa using hid)] at hanswers
      rcases hanswers with hruns | ⟨hdeclines, hanswers⟩
      · exact .inl (h.runs hid hruns)
      · exact .inr ⟨h.declines hdeclines, ih hrest hanswers⟩

theorem select (hselect : (select registry required preferred).under host = .ok (some core))
    (hpreferred : preferred ≠ some coreId)
    (hother : (selectExcluding registry required coreId).under host = .ok (some adapter)) :
    ∃ core', (Reconcile.select registry required preferred).under host' = .ok (some core') := by
  cases preferred with
  | some id =>
    obtain ⟨hget, hcapable, hruns⟩ := select_preferred.mp hselect
    have hid : core.manifest.id ≠ coreId := by
      rw [registry.keyed _ _ hget]
      exact fun h ↦ hpreferred (congrArg some h)
    exact ⟨core, select_preferred.mpr ⟨hget, hcapable, h.runs hid hruns⟩⟩
  | none =>
    have hselect : (firstUsable required (registry.compatible required)).under host =
      .ok (some core) := hselect
    obtain ⟨before, after, hsplit, hbefore, hruns⟩ := firstUsable_under.mp hselect
    by_cases hid : core.manifest.id = coreId
    · rw [selectExcluding, CoreRegistry.compatibleExcluding_eq] at hother
      obtain ⟨hanswers, found, hfound, hfoundRuns⟩ := firstUsable_some.mp ⟨_, hother⟩
      obtain ⟨hmem, hfoundId⟩ := List.mem_filter.mp hfound
      refine firstUsable_some.mpr ⟨h.answers ?_ hanswers, found, hmem,
        h.runs (by simpa using hfoundId) hfoundRuns⟩
      intro other hother hotherId
      have hsame : other = core := by
        have hget := CoreRegistry.mem_values.mp (CoreRegistry.mem_compatible.mp hother).1
        have hcore : core ∈ registry.compatible required := by
          rw [hsplit]
          exact List.mem_append_right _ List.mem_cons_self
        rw [hotherId, ← hid, CoreRegistry.mem_values.mp (CoreRegistry.mem_compatible.mp hcore).1]
          at hget
        exact (Option.some.inj hget).symm
      exact hsame ▸ h.declines_removed hid hruns
    · exact ⟨core, firstUsable_under.mpr ⟨before, after, hsplit,
        fun other hmem ↦ h.declines (hbefore other hmem), h.runs hid hruns⟩⟩

end Removed

namespace Reconciler

variable {r : Reconciler} {desired : DesiredState} {applied : AppliedState} {plans : CorePlans}
variable {secrets : SecretResolver} {profiles : List ProtocolProfile}

theorem profilesBlocked_ok (h : (r.profilesBlocked coreId profiles).under host = .ok false)
    {profile : ProtocolProfile} (hmem : profile ∈ profiles) :
    ∃ protocol other, r.protocols.get profile.protocolId = some protocol ∧
      profile.preferredCoreId ≠ some coreId ∧
      (selectExcluding r.cores protocol.manifest.requiredCoreCapabilities coreId).under host =
        .ok (some other) := by
  induction profiles with
  | nil => cases hmem
  | cons first rest ih =>
    rw [profilesBlocked, bind_eq, under_bind_ok] at h
    obtain ⟨protocol, hprotocol, h⟩ := h
    split_ifs at h with hpreferred
    · cases h
    obtain ⟨replacement, hreplacement, h⟩ := under_bind_ok.mp h
    cases replacement with
    | none => cases h
    | some other =>
      rcases List.mem_cons.mp hmem with rfl | hmem
      · exact ⟨protocol, other, context_under.mp hprotocol, hpreferred, hreplacement⟩
      · exact ih h hmem

theorem coreRemovalBlocked_ok (h : (r.coreRemovalBlocked desired coreId).under host = .ok false) :
    (r.profilesBlocked coreId (desired.profiles.filter ProtocolProfile.enabled)).under host =
        .ok false ∧
      ∀ resource ∈ desired.infrastructure.filter InfrastructureResource.enabled,
        resource.adapterId ≠ coreId := by
  obtain ⟨blocked, hblocked, h⟩ := under_bind_ok.mp h
  cases blocked with
  | true => cases h
  | false =>
    refine ⟨hblocked, fun resource hmem hid ↦ ?_⟩
    obtain ⟨hmem, henabled⟩ := List.mem_filter.mp hmem
    have hnone := Except.ok.inj h
    rw [List.any_eq_false] at hnone
    exact hnone resource hmem (by simp [henabled, hid])

theorem removed_graph (hremoved : Removed host host' coreId)
    (hgraph : (r.validateGraph desired applied).under host = .ok ())
    (hallowed : (r.coreRemovalBlocked desired coreId).under host = .ok false) :
    (r.validateGraph desired applied).under host' = .ok () := by
  obtain ⟨hdependencies, hprofiles, hresources, hprevious⟩ := validateGraph_ok.mp hgraph
  refine validateGraph_ok.mpr ⟨hdependencies, fun profile hmem ↦ ?_, hresources, hprevious⟩
  obtain ⟨adapter, core, hadapter, hselect⟩ := hprofiles profile hmem
  obtain ⟨protocol, other, hprotocol, hpreferred, hother⟩ :=
    profilesBlocked_ok (coreRemovalBlocked_ok hallowed).1 hmem
  cases hadapter.symm.trans hprotocol
  obtain ⟨core', hselect'⟩ := hremoved.select hselect hpreferred hother
  exact ⟨adapter, core', hadapter, hselect'⟩

theorem removed_placed (hremoved : Removed host host' coreId) {served provided : List Placement}
    (hallowed : (r.coreRemovalBlocked desired coreId).under host = .ok false)
    (hplaced : r.Placed host desired secrets served provided) :
    ∃ served', r.Placed host' desired secrets served' provided := by
  have hserves : ∀ profile ∈ desired.profiles.filter ProtocolProfile.enabled, ∃ placement adapter,
      r.Serves host' desired secrets profile placement adapter := by
    intro profile hmem
    obtain ⟨placement, -, adapter, hserves⟩ := hplaced.profiles.flip.exists_left hmem
    obtain ⟨protocol, other, hprotocol, hpreferred, hother⟩ :=
      profilesBlocked_ok (coreRemovalBlocked_ok hallowed).1 hmem
    cases hserves.registered.symm.trans hprotocol
    obtain ⟨core', hselect'⟩ := hremoved.select hserves.core hpreferred hother
    exact ⟨(core', placement.2), adapter, hserves.registered, hserves.config, hselect',
      hserves.fragment⟩
  obtain ⟨served', hserved⟩ := List.exists_forall₂ hserves
  exact ⟨served', hserved, hplaced.infrastructure⟩

theorem selected_not_removed {registry : CoreRegistry} (hremoved : Removed host host' coreId)
    (hselect : (select registry required preferred).under host' = .ok (some core)) :
    core.manifest.id ≠ coreId := by
  intro hid
  cases preferred with
  | some id => exact hremoved.not_runs hid (select_preferred.mp hselect).2.2
  | none =>
    obtain ⟨before, after, -, -, hruns⟩ := firstUsable_under.mp
      (show (firstUsable required (registry.compatible required)).under host' = .ok (some core)
        from hselect)
    exact hremoved.not_runs hid hruns

theorem removed_plans (hremoved : Removed host host' coreId)
    (hgraph : (r.validateGraph desired applied).under host = .ok ())
    (hallowed : (r.coreRemovalBlocked desired coreId).under host = .ok false)
    (hidle : coreId ∉ applied.activeCoreIds)
    (hplans : (r.buildPlans desired secrets applied).under host = .ok plans) :
    ∃ plans', (r.buildPlans desired secrets applied).under host' = .ok plans' ∧
      plans'.get? coreId = none := by
  obtain ⟨served, provided, hplaced, -⟩ := buildPlans_holds hplans
  obtain ⟨served', hplaced'⟩ := removed_placed hremoved hallowed hplaced
  obtain ⟨plans', hplans'⟩ := buildPlans_exists hplaced' (validateGraph_ok.mp hgraph).2.2.2
  refine ⟨plans', hplans', Option.eq_none_iff_forall_ne_some.mpr fun entry hentry ↦ ?_⟩
  obtain ⟨served'', provided', hplaced'', hkeys⟩ := buildPlans_keys hplans'
  rcases hkeys coreId (OrderedMap.mem_keys.mpr ⟨entry, hentry⟩) with ⟨placement, hmem, hid⟩ | hmem
  · rcases List.mem_append.mp hmem with hmem | hmem
    · obtain ⟨profile, -, adapter, hserves⟩ := hplaced''.profiles.exists_left hmem
      exact selected_not_removed hremoved hserves.core hid
    · obtain ⟨resource, hresource, hprovides⟩ := hplaced''.infrastructure.exists_left hmem
      rw [r.cores.keyed _ _ hprovides.core] at hid
      exact (coreRemovalBlocked_ok hallowed).2 resource hresource hid
  · exact hidle hmem

/-- Whether the core is active in the applied state is what the answer leaves out. -/
theorem removal_sound_iff (hremoved : Removed host host' coreId)
    (hgraph : (r.validateGraph desired applied).under host = .ok ())
    (hallowed : (r.coreRemovalBlocked desired coreId).under host = .ok false) :
    (coreId ∉ applied.activeCoreIds ∧
        (r.validateGraph desired applied).under host' = .ok () ∧
        ∀ plans, (r.buildPlans desired secrets applied).under host = .ok plans →
          ∃ plans', (r.buildPlans desired secrets applied).under host' = .ok plans' ∧
            plans'.get? coreId = none) ↔
      coreId ∉ applied.activeCoreIds := by
  refine and_iff_left_of_imp fun hidle ↦ ⟨removed_graph hremoved hgraph hallowed, ?_⟩
  exact fun plans hplans ↦ removed_plans hremoved hgraph hallowed hidle hplans

end Reconciler

section demonstration

open Adapters

def Host.without (host : Host) (coreId : String) : Host
  | .installed id => if id = coreId then .ok false else host (.installed id)
  | op => host op

theorem removed_without (host : Host) (coreId : String) :
    Removed host (host.without coreId) coreId :=
  ⟨if_pos rfl, fun _ ↦ .inl rfl, fun _ hid ↦ if_neg hid, fun _ _ _ ↦ rfl⟩

def disusedDesired : DesiredState := ⟨2, [], [], .empty, []⟩

def servingXray : AppliedState := { AppliedState.default with generation := 1, activeCoreIds := ["xray"] }

def disusedReconciler : Reconciler := ⟨builtInProtocols, builtInCores, []⟩

theorem xray_registered : ∃ core, builtInCores.get "xray" = some core :=
  ⟨_, builtInCores_get.mpr ⟨List.mem_append_left _ List.mem_cons_self, rfl⟩⟩

theorem disused_graph (applied : AppliedState) (h : applied.activeCoreIds ⊆ ["xray"]) :
    (disusedReconciler.validateGraph disusedDesired applied).under readyHost = .ok () := by
  refine Reconciler.validateGraph_ok.mpr ⟨rfl, nofun, nofun, fun id hmem ↦ ?_⟩
  rw [List.mem_singleton.mp (h hmem)]
  exact xray_registered

theorem removal_of_active_core :
    ¬∀ (r : Reconciler) (host host' : Host) (desired : DesiredState) (secrets : SecretResolver)
      (applied : AppliedState) (coreId : String), Removed host host' coreId →
      (r.validateGraph desired applied).under host = .ok () →
      (r.coreRemovalBlocked desired coreId).under host = .ok false →
      coreId ∉ applied.activeCoreIds ∧ (r.validateGraph desired applied).under host' = .ok () ∧
        ∀ plans, (r.buildPlans desired secrets applied).under host = .ok plans →
          ∃ plans', (r.buildPlans desired secrets applied).under host' = .ok plans' ∧
            plans'.get? coreId = none := by
  intro hall
  have hidle := (hall disusedReconciler readyHost _ disusedDesired (fun _ ↦ .ok "value")
    servingXray "xray" (removed_without _ _) (disused_graph _ (List.Subset.refl _)) rfl).1
  exact hidle List.mem_cons_self

theorem removal_sound_iff_disused :
    "xray" ∉ AppliedState.default.activeCoreIds ∧
      (disusedReconciler.validateGraph disusedDesired .default).under
        (readyHost.without "xray") = .ok () ∧
      ∀ plans, (disusedReconciler.buildPlans disusedDesired (fun _ ↦ .ok "value")
          .default).under readyHost = .ok plans →
        ∃ plans', (disusedReconciler.buildPlans disusedDesired (fun _ ↦ .ok "value")
          .default).under (readyHost.without "xray") = .ok plans' ∧
          plans'.get? "xray" = none :=
  (Reconciler.removal_sound_iff (removed_without _ _) (disused_graph _ (List.nil_subset _))
    rfl).mpr (by decide)

end demonstration

end Reconcile

end StealthHub

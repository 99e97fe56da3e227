import StealthHub.Adapters.Cores
import StealthHub.Adapters.ProtocolsSpec
import StealthHub.Reconcile.Selection

set_option autoImplicit false

namespace StealthHub.Panel

open Adapters Effect Effect.Program Reconcile

structure CoreRuntimeProbe where
  installed : Option Bool
  versionCompatible : Option Bool

structure RuntimeInventoryFact where
  id : String
  capabilities : Finset String
  probe : CoreRuntimeProbe

abbrev RuntimeFacts := OrderedMap String RuntimeInventoryFact

def runtimeFactCanBackProtocol (required : Finset String) (runtime : RuntimeInventoryFact) : Bool :=
  required ⊆ runtime.capabilities && runtime.probe.installed = some true &&
    runtime.probe.versionCompatible ≠ some false

def selectRuntime (profile : ProtocolProfile) (manifest : Option ProtocolAdapterManifest)
    (runtimes : RuntimeFacts) : Option String :=
  match profile.preferredCoreId with
  | some preferred => if runtimes.contains preferred then some preferred else none
  | none => manifest.bind fun manifest ↦
    (runtimes.values.find? (runtimeFactCanBackProtocol manifest.requiredCoreCapabilities)).map
      RuntimeInventoryFact.id

structure ResourceInventoryEntry where
  displayName : String
  enabled : Bool
  desired : Bool
  runtimeId : Option String

def buildResources (protocols : ProtocolRegistry) (profiles : List ProtocolProfile)
    (infrastructure : List InfrastructureResource) (runtimes : RuntimeFacts) :
    List ResourceInventoryEntry :=
  (profiles.map fun profile ↦
    { displayName := profile.name
      enabled := profile.enabled
      desired := profile.enabled
      runtimeId := selectRuntime profile
        ((protocols.get profile.protocolId).map ProtocolAdapter.manifest) runtimes }) ++
  infrastructure.map fun resource ↦
    { displayName := resource.resourceId
      enabled := resource.enabled
      desired := resource.enabled
      runtimeId := some resource.adapterId }

/-- The resources for which `remove_module_action` refuses to remove a module. -/
def dependentResources (resources : List ResourceInventoryEntry) (moduleId : String) :
    List String :=
  (resources.filter fun resource ↦
    resource.enabled && resource.desired && resource.runtimeId = some moduleId).map
      ResourceInventoryEntry.displayName

section agreement

variable {host : Host} {cores : CoreRegistry} {protocols : ProtocolRegistry}
variable {required : Finset String} {core : CoreAdapter} {profile : ProtocolProfile}
variable {adapter : ProtocolAdapter} {id moduleId : String}

def runtimeFact (host : Host) (required : Finset String) (core : CoreAdapter) :
    RuntimeInventoryFact where
  id := core.manifest.id
  capabilities := core.manifest.capabilities
  probe := ⟨(host (.installed core.manifest.id)).toOption,
    (host (.compatible core.manifest.id required)).toOption⟩

/-- The facts about the registered cores where they are probed for what a profile needs. -/
def runtimeFacts (host : Host) (cores : CoreRegistry) (required : Finset String) : RuntimeFacts :=
  cores.adapters.mapValues fun _ core ↦ runtimeFact host required core

/-- A core that declares the capabilities, is installed and not known to be of a wrong version. -/
structure Backs (host : Host) (required : Finset String) (core : CoreAdapter) : Prop where
  capable : required ⊆ core.manifest.capabilities
  installed : host (.installed core.manifest.id) = .ok true
  supported : host (.compatible core.manifest.id required) ≠ .ok false

theorem canBack_iff :
    runtimeFactCanBackProtocol required (runtimeFact host required core) = true ↔
      Backs host required core := by
  simp only [runtimeFactCanBackProtocol, runtimeFact, Bool.and_eq_true, decide_eq_true_eq,
    Except.toOption_eq_some, ne_eq]
  constructor
  · rintro ⟨⟨hcapable, hinstalled⟩, hsupported⟩
    exact ⟨of_decide_eq_true hcapable, hinstalled, hsupported⟩
  · intro h
    exact ⟨⟨decide_eq_true h.capable, h.installed⟩, h.supported⟩

theorem backs_of_runs (hcapable : required ⊆ core.manifest.capabilities)
    (hruns : host.Runs core required) : Backs host required core := by
  refine ⟨hcapable, hruns.installed, ?_⟩
  rw [hruns.compatible]
  exact nofun

theorem runtimeFacts_contains : (runtimeFacts host cores required).contains id = true ↔
    ∃ core, cores.get id = some core := by
  rw [OrderedMap.contains_iff, runtimeFacts, OrderedMap.keys_mapValues, OrderedMap.mem_keys]
  rfl

theorem runtimeFacts_values : (runtimeFacts host cores required).values =
    cores.adapters.values.map (runtimeFact host required) := by
  simp only [runtimeFacts, OrderedMap.values, OrderedMap.mapValues, List.map_map]
  rfl

/-- The core that backs a profile without a preference, in the order of the identifiers. -/
structure FirstBacking (host : Host) (cores : CoreRegistry) (required : Finset String)
    (core : CoreAdapter) : Prop where
  registered : cores.get core.manifest.id = some core
  backs : Backs host required core
  first : ∀ id other, cores.get id = some other → Backs host required other →
    core.manifest.id ≤ id

theorem find_backing : (∃ fact, (runtimeFacts host cores required).values.find?
      (runtimeFactCanBackProtocol required) = some fact ∧ fact.id = id) ↔
    ∃ core, FirstBacking host cores required core ∧ core.manifest.id = id := by
  rw [runtimeFacts_values, List.find?_map]
  simp only [Option.map_eq_some_iff, exists_exists_and_eq_and]
  refine exists_congr fun core ↦ and_congr_left fun _ ↦ ?_
  rw [List.find?_eq_some_iff_append]
  simp only [Function.comp_apply, canBack_iff, Bool.not_eq_true', ← Bool.not_eq_true]
  have hpairwise := cores.values_pairwise
  constructor
  · rintro ⟨hbacks, before, after, hsplit, hbefore⟩
    refine ⟨CoreRegistry.mem_values.mp (hsplit ▸ List.mem_append_right _ List.mem_cons_self),
      hbacks, fun id other hother hbacksOther ↦ ?_⟩
    have hmem : other ∈ cores.adapters.values := OrderedMap.mem_values.mpr ⟨id, hother⟩
    rw [hsplit] at hmem hpairwise
    rw [← cores.keyed id other hother]
    rcases List.mem_append.mp hmem with hmem | hmem
    · exact absurd hbacksOther (hbefore other hmem)
    · rcases List.mem_cons.mp hmem with rfl | hmem
      · exact le_rfl
      · have hafter := (List.pairwise_append.mp hpairwise).2.1
        exact ((List.pairwise_cons.mp hafter).1 other hmem).le
  · intro h
    obtain ⟨before, after, hsplit⟩ := List.append_of_mem (CoreRegistry.mem_values.mpr h.registered)
    refine ⟨h.backs, before, after, hsplit, fun other hother hbacks ↦ ?_⟩
    have hget : other ∈ cores.adapters.values := hsplit ▸ List.mem_append_left _ hother
    have hle := h.first _ other (CoreRegistry.mem_values.mp hget) hbacks
    rw [hsplit] at hpairwise
    exact absurd ((List.pairwise_append.mp hpairwise).2.2 other hother core List.mem_cons_self)
      hle.not_gt

/-- The core that the reconciler selects for a profile. -/
def Selected (host : Host) (cores : CoreRegistry) (required : Finset String)
    (preferred : Option String) (id : String) : Prop :=
  ∃ core, (select cores required preferred).under host = .ok (some core) ∧ core.manifest.id = id

/-- The inventory does not ask of a preferred core what the reconciler asks of it, and it takes
the first core by identifier where the reconciler takes the first by priority. -/
def Agrees (host : Host) (cores : CoreRegistry) (required : Finset String) :
    Option String → Prop
  | some preferred => ∀ core, cores.get preferred = some core →
      required ⊆ core.manifest.capabilities ∧ host.Runs core required
  | none => ∀ core, FirstBacking host cores required core →
      host.Runs core required ∧ ∀ other ∈ cores.compatible required,
        CoreRegistry.Before other core → host.Declines other required

theorem selected_preferred {preferred : String} :
    Selected host cores required (some preferred) id ↔ preferred = id ∧
      ∃ core, cores.get preferred = some core ∧ required ⊆ core.manifest.capabilities ∧
        host.Runs core required := by
  simp only [Selected, select_preferred]
  constructor
  · rintro ⟨core, ⟨hget, h⟩, rfl⟩
    exact ⟨(cores.keyed _ _ hget).symm, core, hget, h⟩
  · rintro ⟨rfl, core, hget, h⟩
    exact ⟨core, ⟨hget, h⟩, cores.keyed _ _ hget⟩

theorem selected_first : Selected host cores required none id ↔
    ∃ core, (core ∈ cores.compatible required ∧ host.Runs core required ∧
      ∀ other ∈ cores.compatible required, CoreRegistry.Before other core →
        host.Declines other required) ∧ core.manifest.id = id := by
  refine exists_congr fun core ↦ and_congr_left fun _ ↦ ?_
  exact firstUsable_compatible

theorem selectRuntime_preferred {preferred : String} {manifest : ProtocolAdapterManifest}
    (hpreferred : profile.preferredCoreId = some preferred) :
    selectRuntime profile (some manifest) (runtimeFacts host cores required) = some id ↔
      preferred = id ∧ ∃ core, cores.get preferred = some core := by
  rw [selectRuntime, hpreferred, ← @runtimeFacts_contains host cores required]
  simp only [Option.ite_none_right_eq_some, Option.some.injEq]
  exact and_comm

theorem selectRuntime_first {manifest : ProtocolAdapterManifest}
    (hpreferred : profile.preferredCoreId = none) :
    selectRuntime profile (some manifest)
        (runtimeFacts host cores manifest.requiredCoreCapabilities) = some id ↔
      ∃ core, FirstBacking host cores manifest.requiredCoreCapabilities core ∧
        core.manifest.id = id := by
  rw [selectRuntime, hpreferred, ← find_backing]
  exact Option.map_eq_some_iff

theorem FirstBacking.unique {other : CoreAdapter} (h : FirstBacking host cores required core)
    (hother : FirstBacking host cores required other) : core = other := by
  have hid := le_antisymm (h.first _ other hother.registered hother.backs)
    (hother.first _ core h.registered h.backs)
  exact Option.some.inj (h.registered.symm.trans (hid ▸ hother.registered))

theorem exists_firstBacking (hget : cores.get id = some core) (hbacks : Backs host required core) :
    ∃ first, FirstBacking host cores required first := by
  have hfound : ∃ fact, (runtimeFacts host cores required).values.find?
      (runtimeFactCanBackProtocol required) = some fact := by
    rw [← Option.isSome_iff_exists, List.find?_isSome, runtimeFacts_values]
    exact ⟨_, List.mem_map_of_mem (OrderedMap.mem_values.mpr ⟨id, hget⟩), canBack_iff.mpr hbacks⟩
  obtain ⟨fact, hfact⟩ := hfound
  obtain ⟨first, hfirst, -⟩ := find_backing.mp ⟨fact, hfact, rfl⟩
  exact ⟨first, hfirst⟩

theorem selectRuntime_agrees (hadapter : protocols.get profile.protocolId = some adapter) :
    (∀ id, selectRuntime profile ((protocols.get profile.protocolId).map ProtocolAdapter.manifest)
        (runtimeFacts host cores adapter.manifest.requiredCoreCapabilities) = some id ↔
      Selected host cores adapter.manifest.requiredCoreCapabilities profile.preferredCoreId id) ↔
    Agrees host cores adapter.manifest.requiredCoreCapabilities profile.preferredCoreId := by
  rw [hadapter, Option.map_some]
  cases hpreferred : profile.preferredCoreId with
  | some preferred =>
    simp only [selectRuntime_preferred hpreferred, selected_preferred]
    constructor
    · intro hall core hget
      obtain ⟨-, core', hget', h⟩ := (hall preferred).mp ⟨rfl, core, hget⟩
      rwa [Option.some.inj (hget.symm.trans hget')]
    · rintro hagrees id
      refine and_congr_right fun _ ↦ exists_congr fun core ↦ ?_
      exact ⟨fun hget ↦ ⟨hget, hagrees core hget⟩, And.left⟩
  | none =>
    simp only [selectRuntime_first hpreferred, selected_first]
    constructor
    · intro hall core hfirst
      obtain ⟨core', ⟨hmem, hruns, hbefore⟩, hid⟩ := (hall _).mp ⟨core, hfirst, rfl⟩
      have hget := CoreRegistry.mem_values.mp (CoreRegistry.mem_compatible.mp hmem).1
      rw [hid, hfirst.registered] at hget
      rw [Option.some.inj hget]
      exact ⟨hruns, hbefore⟩
    · rintro hagrees id
      constructor
      · rintro ⟨core, hfirst, hid⟩
        exact ⟨core, ⟨CoreRegistry.mem_compatible.mpr ⟨CoreRegistry.mem_values.mpr
          hfirst.registered, hfirst.backs.capable⟩, hagrees core hfirst⟩, hid⟩
      · rintro ⟨core, ⟨hmem, hruns, hbefore⟩, hid⟩
        refine ⟨core, ?_, hid⟩
        obtain ⟨hvalue, hcapable⟩ := CoreRegistry.mem_compatible.mp hmem
        obtain ⟨first, hfirst⟩ := exists_firstBacking (CoreRegistry.mem_values.mp hvalue)
          (backs_of_runs hcapable hruns)
        have hselected := firstUsable_compatible.mpr ⟨CoreRegistry.mem_compatible.mpr
          ⟨CoreRegistry.mem_values.mpr hfirst.registered, hfirst.backs.capable⟩, hagrees first hfirst⟩
        rw [firstUsable_compatible.mpr ⟨hmem, hruns, hbefore⟩] at hselected
        rwa [Option.some.inj (Except.ok.inj hselected)]

theorem dependentResources_nonempty {profiles : List ProtocolProfile}
    {infrastructure : List InfrastructureResource} {runtimes : RuntimeFacts} :
    dependentResources (buildResources protocols profiles infrastructure runtimes) moduleId ≠ [] ↔
      (∃ profile ∈ profiles.filter ProtocolProfile.enabled, selectRuntime profile
        ((protocols.get profile.protocolId).map ProtocolAdapter.manifest) runtimes =
          some moduleId) ∨
      ∃ resource ∈ infrastructure.filter InfrastructureResource.enabled,
        resource.adapterId = moduleId := by
  rw [dependentResources, buildResources, ne_eq, List.map_eq_nil_iff, List.filter_append,
    List.append_eq_nil_iff, not_and_or]
  simp only [List.filter_eq_nil_iff, List.forall_mem_map, not_forall, not_not, exists_prop,
    and_self_left, Bool.and_eq_true, decide_eq_true_eq, List.mem_filter, Option.some.injEq,
    and_assoc]

/-- The facts are taken for what every enabled profile needs, and on each of them the inventory
and the reconciler agree. -/
def AllAgree (host : Host) (cores : CoreRegistry) (protocols : ProtocolRegistry)
    (profiles : List ProtocolProfile) (runtimes : RuntimeFacts) : Prop :=
  ∀ profile ∈ profiles.filter ProtocolProfile.enabled, ∃ adapter,
    protocols.get profile.protocolId = some adapter ∧
      runtimes = runtimeFacts host cores adapter.manifest.requiredCoreCapabilities ∧
      Agrees host cores adapter.manifest.requiredCoreCapabilities profile.preferredCoreId

theorem removal_protects {profiles : List ProtocolProfile}
    {infrastructure : List InfrastructureResource} {runtimes : RuntimeFacts}
    (h : AllAgree host cores protocols profiles runtimes) :
    dependentResources (buildResources protocols profiles infrastructure runtimes) moduleId ≠ [] ↔
      (∃ profile ∈ profiles.filter ProtocolProfile.enabled, ∃ adapter,
        protocols.get profile.protocolId = some adapter ∧
        Selected host cores adapter.manifest.requiredCoreCapabilities profile.preferredCoreId
          moduleId) ∨
      ∃ resource ∈ infrastructure.filter InfrastructureResource.enabled,
        resource.adapterId = moduleId := by
  rw [dependentResources_nonempty]
  refine or_congr_left (exists_congr fun profile ↦ and_congr_right fun hmem ↦ ?_)
  obtain ⟨adapter, hadapter, rfl, hagrees⟩ := h profile hmem
  rw [(selectRuntime_agrees hadapter).mpr hagrees moduleId]
  constructor
  · exact fun hselected ↦ ⟨adapter, hadapter, hselected⟩
  · rintro ⟨adapter', hadapter', hselected⟩
    rwa [Option.some.inj (hadapter.symm.trans hadapter')]

/-- The inventory and the reconciler pick the same core just where they agree, and then the
check before a removal protects the cores that the worker uses. -/
theorem inventory_agrees_iff (host : Host) (cores : CoreRegistry) (protocols : ProtocolRegistry) :
    (∀ profile adapter, protocols.get profile.protocolId = some adapter →
      ((∀ id, selectRuntime profile
            ((protocols.get profile.protocolId).map ProtocolAdapter.manifest)
            (runtimeFacts host cores adapter.manifest.requiredCoreCapabilities) = some id ↔
          Selected host cores adapter.manifest.requiredCoreCapabilities
            profile.preferredCoreId id) ↔
        Agrees host cores adapter.manifest.requiredCoreCapabilities profile.preferredCoreId)) ∧
    ∀ profiles infrastructure runtimes, AllAgree host cores protocols profiles runtimes →
      ∀ moduleId, dependentResources (buildResources protocols profiles infrastructure runtimes)
          moduleId ≠ [] ↔
        (∃ profile ∈ profiles.filter ProtocolProfile.enabled, ∃ adapter,
          protocols.get profile.protocolId = some adapter ∧
          Selected host cores adapter.manifest.requiredCoreCapabilities profile.preferredCoreId
            moduleId) ∨
        ∃ resource ∈ infrastructure.filter InfrastructureResource.enabled,
          resource.adapterId = moduleId :=
  ⟨fun _ _ hadapter ↦ selectRuntime_agrees hadapter,
    fun _ _ _ hagree _ ↦ removal_protects hagree⟩

end agreement

section demonstration

def tuic : JsonProtocolAdapter :=
  .new "tuic" "TUIC" .tuic [secretField "password_secret" true, textField "sni"] .perUserUuid .udp

theorem tuic_registered : builtInProtocols.get "tuic" = some tuic.toAdapter :=
  builtInProtocols_get.mpr ⟨tuic, by simp [protocols, tuic], rfl, rfl⟩

def tuicCore : CoreAdapter :=
  ⟨(ManagedCoreAdapter.new "tuic" "TUIC" "infiproxy-tuic.service" .tuic tuicCapabilities
    200).manifest⟩

theorem tuicCore_registered : builtInCores.get "tuic" = some tuicCore :=
  builtInCores_get.mpr ⟨by simp [coreAdapters, builtInAdapters, tuicCore], rfl⟩

theorem tuicCore_capable : {"tuic"} ⊆ tuicCore.manifest.capabilities := by decide

def tuicProfile (preferred : Option String) : ProtocolProfile where
  name := "TUIC"
  displayName := "TUIC"
  protocolId := "tuic"
  schemaVersion := 1
  role := .speed
  server := "node.example.test"
  port := 8443
  enabled := true
  preferredCoreId := preferred
  managedResourceId := none
  config := .object [("password_secret", .string "tuic.password"),
    ("sni", .string "node.example.test")]

theorem tuic_disagrees : ¬Agrees readyHost builtInCores {"tuic"} none := by
  intro hagrees
  have hfirst : ∀ core ∈ coreAdapters, {"tuic"} ⊆ core.manifest.capabilities →
      "sing-box" ≤ core.manifest.id := by decide
  obtain ⟨core, hcore, hid, hcapable⟩ : ∃ core ∈ coreAdapters,
      core.manifest.id = "sing-box" ∧ {"tuic"} ⊆ core.manifest.capabilities := by decide
  have hpriority : ∀ core ∈ coreAdapters, core.manifest.id = "sing-box" →
      core.manifest.selectionPriority < tuicCore.manifest.selectionPriority := by decide
  have hbacking : FirstBacking readyHost builtInCores {"tuic"} core := by
    refine ⟨builtInCores_get.mpr ⟨hcore, rfl⟩, backs_of_runs hcapable (readyHost_runs _ _), ?_⟩
    intro id other hother hbacks
    obtain ⟨hmem, rfl⟩ := builtInCores_get.mp hother
    exact hid ▸ hfirst other hmem hbacks.capable
  have hbefore := (hagrees core hbacking).2 tuicCore
    (CoreRegistry.mem_compatible.mpr
      ⟨CoreRegistry.mem_values.mpr tuicCore_registered, tuicCore_capable⟩)
    (.inl (hpriority core hcore hid))
  exact (readyHost_runs tuicCore {"tuic"}).not_declines hbefore

theorem inventory_disagrees :
    ¬∀ (host : Host) (cores : CoreRegistry) (protocols : ProtocolRegistry)
      (profile : ProtocolProfile) (adapter : ProtocolAdapter),
      protocols.get profile.protocolId = some adapter →
      ∀ id, selectRuntime profile
          ((protocols.get profile.protocolId).map ProtocolAdapter.manifest)
          (runtimeFacts host cores adapter.manifest.requiredCoreCapabilities) = some id ↔
        Selected host cores adapter.manifest.requiredCoreCapabilities profile.preferredCoreId id := by
  intro hall
  exact tuic_disagrees ((selectRuntime_agrees tuic_registered).mp
    (hall readyHost builtInCores builtInProtocols (tuicProfile none) tuic.toAdapter tuic_registered))

theorem inventory_agrees_preferring :
    selectRuntime (tuicProfile (some "tuic")) (some tuic.toAdapter.manifest)
        (runtimeFacts readyHost builtInCores {"tuic"}) = some "tuic" ∧
      dependentResources (buildResources builtInProtocols [tuicProfile (some "tuic")] []
        (runtimeFacts readyHost builtInCores {"tuic"})) "tuic" ≠ [] := by
  have hagrees : Agrees readyHost builtInCores {"tuic"} (some "tuic") := by
    intro core hget
    rw [← Option.some.inj (tuicCore_registered.symm.trans hget)]
    exact ⟨tuicCore_capable, readyHost_runs _ _⟩
  have hselected : Selected readyHost builtInCores {"tuic"} (some "tuic") "tuic" :=
    ⟨tuicCore, select_preferred.mpr
      ⟨tuicCore_registered, tuicCore_capable, readyHost_runs _ _⟩, rfl⟩
  obtain ⟨hprofiles, hremoval⟩ := inventory_agrees_iff readyHost builtInCores builtInProtocols
  constructor
  · have h := (hprofiles (tuicProfile (some "tuic")) _ tuic_registered).mpr hagrees "tuic"
    rw [show builtInProtocols.get (tuicProfile (some "tuic")).protocolId = _ from
      tuic_registered] at h
    exact h.mpr hselected
  · refine (hremoval [tuicProfile (some "tuic")] [] _ (fun profile hmem ↦ ?_) "tuic").mpr (.inl ?_)
    · rw [List.mem_singleton.mp (List.mem_of_mem_filter hmem)]
      exact ⟨_, tuic_registered, rfl, hagrees⟩
    · exact ⟨_, List.mem_cons_self, _, tuic_registered, hselected⟩

end demonstration

end StealthHub.Panel

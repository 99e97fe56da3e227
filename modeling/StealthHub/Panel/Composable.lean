import StealthHub.Adapters.Composable
import StealthHub.Panel.Edits

set_option autoImplicit false

namespace StealthHub.Panel

open Effect Effect.Program Reconcile Text Adapters

variable {cores : CoreRegistry} {host : Host} {allowed : Host → Prop} {secretNames : List String}
variable {candidate profile : ProtocolProfile} {existing existing' profiles : List ProtocolProfile}
variable {adapter : ProtocolAdapter} {core : CoreAdapter} {required : Finset String}
variable {preferred : Option String} {id protocolId : String}

/-- Every core is installed, in a version that supports what it declares. -/
def Ready (cores : CoreRegistry) (host : Host) : Prop :=
  ∀ id core, cores.get id = some core → ∀ required ⊆ core.manifest.capabilities,
    host.Runs core required

/-- What stays true of a profile that was admitted once, on any host. -/
structure Admissible (cores : CoreRegistry) (profile : ProtocolProfile) (adapter : ProtocolAdapter) :
    Prop where
  port : profile.port ≤ 65535
  registered : builtInProtocols.get profile.protocolId = some adapter
  config : adapter.validateConfig profile.schemaVersion profile.config = .ok ()
  references : ∃ references, adapter.secretReferences profile.config = .ok references
  runtime : validateRuntime cores adapter.manifest.requiredCoreCapabilities
    profile.preferredCoreId = .ok ()

theorem AcceptedEdit.admissible
    (h : AcceptedEdit cores host secretNames candidate existing existing')
    (hexisting : ∀ profile ∈ existing, ∃ adapter, Admissible cores profile adapter) :
    ∀ profile ∈ existing', ∃ adapter, Admissible cores profile adapter := by
  intro profile hmem
  rcases List.mem_cons.mp (h.replaced.mem_iff.mp hmem) with rfl | hmem
  · obtain ⟨adapter, hadmitted⟩ := validateCandidate_ok.mp h.accepted
    obtain ⟨references, hreferences, -⟩ := hadmitted.secrets
    exact ⟨adapter, h.port, hadmitted.registered, hadmitted.config, ⟨references, hreferences⟩,
      hadmitted.runtime⟩
  · exact hexisting profile (List.mem_of_mem_filter hmem)

theorem Reached.admissible (h : Reached cores allowed profiles) :
    ∀ profile ∈ profiles, ∃ adapter, Admissible cores profile adapter :=
  h.induct (List.forall_mem_nil _) fun _ _ hexisting ⟨_, _, _, _, hedit⟩ ↦ hedit.admissible hexisting

section selection

theorem firstUsable_ready (hready : Ready cores host) :
    (firstUsable required (cores.compatible required)).under host = .ok (some core) ↔
      (cores.compatible required).head? = some core := by
  rw [firstUsable_under]
  constructor
  · rintro ⟨before, after, hsplit, hbefore, -⟩
    cases before with
    | nil => rw [hsplit, List.nil_append, List.head?_cons]
    | cons first before =>
      have hmem : first ∈ cores.compatible required := by
        rw [hsplit]
        exact List.mem_cons_self
      obtain ⟨hvalue, hcapable⟩ := CoreRegistry.mem_compatible.mp hmem
      exact absurd (hbefore first List.mem_cons_self)
        (hready _ first (CoreRegistry.mem_values.mp hvalue) required hcapable).not_declines
  · intro hhead
    obtain ⟨after, hsplit⟩ := List.head?_eq_some_iff.mp hhead
    have hmem : core ∈ cores.compatible required := List.mem_of_mem_head? hhead
    obtain ⟨hvalue, hcapable⟩ := CoreRegistry.mem_compatible.mp hmem
    exact ⟨[], after, hsplit, nofun,
      hready _ core (CoreRegistry.mem_values.mp hvalue) required hcapable⟩

theorem select_ready (hready : Ready cores host)
    (hruntime : validateRuntime cores required preferred = .ok ()) :
    ∃ core, (select cores required preferred).under host = .ok (some core) := by
  cases preferred with
  | some id =>
    obtain ⟨core, hcore, hcapable⟩ := validateRuntime_preferred.mp hruntime
    exact ⟨core, select_preferred.mpr ⟨hcore, hcapable, hready id core hcore required hcapable⟩⟩
  | none =>
    obtain ⟨core, hvalue, hcapable⟩ := validateRuntime_any.mp hruntime
    have hmem : core ∈ cores.compatible required :=
      CoreRegistry.mem_compatible.mpr ⟨hvalue, hcapable⟩
    have hne := List.ne_nil_of_mem hmem
    exact ⟨_, (firstUsable_ready hready).mpr (List.head?_eq_some_head hne)⟩

end selection

def nativeCores : List (String × String) := [("hysteria2", "hysteria"), ("tuic", "tuic")]

/-- The enabled profiles that a native core serves on a host where every core runs: it has
the highest priority for its protocol. -/
def nativeProfiles (native : String × String) (profiles : List ProtocolProfile) :
    List ProtocolProfile :=
  (profiles.filter ProtocolProfile.enabled).filter fun profile ↦ profile.protocolId = native.1 ∧
    (profile.preferredCoreId = none ∨ profile.preferredCoreId = some native.2)

theorem native_capabilities : ∀ native ∈ nativeCores, ∀ core ∈ builtInAdapters,
    core.manifest.id = native.2 → core.manifest.capabilities = {native.1} := by
  decide

theorem native_first : ∀ native ∈ nativeCores,
    (builtInCores.compatible {native.1}).head?.map (fun core ↦ core.manifest.id) =
      some native.2 := by
  decide +kernel

theorem native_builtIn : ∀ native ∈ nativeCores, ∃ core ∈ builtInAdapters,
    core.manifest.id = native.2 := by
  decide

theorem required_capability : ∀ json ∈ protocols,
    json.manifest.requiredCoreCapabilities = {json.manifest.id} := by
  decide

theorem builtIn_of_registered {managed : ManagedCoreAdapter} (hmanaged : managed ∈ builtInAdapters)
    (h : builtInCores.get managed.manifest.id = some core) : core = ⟨managed.manifest⟩ := by
  have hown : builtInCores.get managed.manifest.id = some ⟨managed.manifest⟩ :=
    builtInCores_get.mpr ⟨List.mem_append_left _ (List.mem_map_of_mem hmanaged), rfl⟩
  exact Option.some.inj (h.symm.trans hown)

variable {native : String × String}

theorem selects_native (hnative : native ∈ nativeCores) (hready : Ready builtInCores host)
    (hadmissible : Admissible builtInCores profile adapter)
    (hselect : (select builtInCores adapter.manifest.requiredCoreCapabilities
      profile.preferredCoreId).under host = .ok (some core)) :
    core.manifest.id = native.2 ↔ profile.protocolId = native.1 ∧
      (profile.preferredCoreId = none ∨ profile.preferredCoreId = some native.2) := by
  obtain ⟨json, hjson, rfl, hid⟩ := builtInProtocols_get.mp hadmissible.registered
  have hrequired : json.toAdapter.manifest.requiredCoreCapabilities = {profile.protocolId} := by
    rw [← hid]
    exact required_capability json hjson
  constructor
  · intro hcore
    obtain ⟨hregistered, hcapable⟩ := select_registered hselect
    obtain ⟨managed, hmanaged, hmanagedId⟩ : ∃ managed ∈ builtInAdapters,
        managed.manifest.id = native.2 := native_builtIn native hnative
    rw [hcore, ← hmanagedId] at hregistered
    rw [builtIn_of_registered hmanaged hregistered, hrequired,
      native_capabilities native hnative managed hmanaged hmanagedId,
      Finset.singleton_subset_singleton] at hcapable
    refine ⟨hcapable, ?_⟩
    cases hpreferred : profile.preferredCoreId with
    | none => exact .inl rfl
    | some preferred =>
      rw [hpreferred] at hselect
      obtain ⟨hget, -, -⟩ := select_preferred.mp hselect
      rw [← builtInCores.keyed _ _ hget, hcore]
      exact .inr rfl
  · rintro ⟨hprotocol, hnone | hsome⟩
    · rw [hnone, hrequired, hprotocol] at hselect
      have hhead := (firstUsable_ready hready).mp hselect
      have hfirst := native_first native hnative
      rw [hhead] at hfirst
      exact Option.some.inj hfirst
    · rw [hsome] at hselect
      obtain ⟨hget, -, -⟩ := select_preferred.mp hselect
      exact builtInCores.keyed _ _ hget

section plans

variable {r : Reconciler} {desired : DesiredState} {secrets : SecretResolver}
variable {applied : AppliedState} {plans : CorePlans} {settings : PanelSettings}
variable {served provided : List Placement} {placement : Placement} {plan : CorePlan}

/-- Every server secret of the enabled profiles resolves. -/
def Resolves (secrets : SecretResolver) (profiles : List ProtocolProfile) : Prop :=
  ∀ profile ∈ profiles, profile.enabled → ∀ adapter,
    builtInProtocols.get profile.protocolId = some adapter → ∀ references,
      adapter.serverSecretReferences profile.config = .ok references →
        ∀ reference ∈ references, ∃ value, secrets reference.name = .ok value

/-- A reconciler over the adapters of this release. -/
structure BuiltIn (r : Reconciler) : Prop where
  protocols : r.protocols = builtInProtocols
  cores : r.cores = builtInCores

theorem serves_exists (hr : BuiltIn r) (hready : Ready builtInCores host)
    (hadmissible : Admissible builtInCores profile adapter)
    (hresolves : ∀ references, adapter.serverSecretReferences profile.config = .ok references →
      ∀ reference ∈ references, ∃ value, secrets reference.name = .ok value) :
    ∃ placement, r.Serves host desired secrets profile placement adapter := by
  obtain ⟨json, -, rfl, -⟩ := builtInProtocols_get.mp hadmissible.registered
  obtain ⟨core, hcore⟩ := select_ready hready hadmissible.runtime
  obtain ⟨references, hreferences⟩ := hadmissible.references
  obtain ⟨-, server, -, hserver, -⟩ := mem_secretReferences hreferences
  obtain ⟨found, hfound⟩ : ∃ found,
      json.resolveSecrets ⟨profile, desired.users, secrets⟩ = .ok found :=
    resolveSecrets_exists hserver (hresolves server hserver)
  obtain ⟨fragment, hfragment⟩ : ∃ fragment,
      json.renderServer ⟨profile, desired.users, secrets⟩ = .ok fragment :=
    renderServer_exists hadmissible.config hfound
  refine ⟨(core, fragment), ?_, hadmissible.config, ?_, hfragment⟩
  · rw [hr.protocols]
    exact hadmissible.registered
  · rw [hr.cores]
    exact hcore

theorem admitted_built (hr : BuiltIn r) (hreached : Reached builtInCores allowed desired.profiles)
    (hinfrastructure : desired.infrastructure = desiredResources settings)
    (hready : Ready builtInCores host) (hresolves : Resolves secrets desired.profiles)
    (happlied : ∀ id ∈ applied.activeCoreIds, ∃ core, builtInCores.get id = some core) :
    ∃ plans, (r.buildPlans desired secrets applied).under host = .ok plans := by
  obtain ⟨provided, hprovided⟩ := desiredResources_provided hr.cores settings
  rw [← hinfrastructure] at hprovided
  have hall : ∀ profile ∈ desired.profiles.filter ProtocolProfile.enabled, ∃ placement adapter,
      r.Serves host desired secrets profile placement adapter := by
    intro profile hmem
    obtain ⟨hmem, henabled⟩ := List.mem_filter.mp hmem
    obtain ⟨adapter, hadmissible⟩ := hreached.admissible profile hmem
    obtain ⟨placement, hserves⟩ : ∃ placement,
        r.Serves host desired secrets profile placement adapter :=
      serves_exists hr hready hadmissible
        (hresolves profile hmem henabled adapter hadmissible.registered)
    exact ⟨placement, adapter, hserves⟩
  obtain ⟨served, hserved⟩ := List.exists_forall₂ hall
  refine Reconciler.buildPlans_exists ⟨hserved, hprovided⟩ ?_
  rw [hr.cores]
  exact happlied

theorem serves_legible {managed : ManagedCoreAdapter} (hr : BuiltIn r)
    (hmanaged : managed ∈ builtInAdapters)
    (hadmissible : ∃ adapter, Admissible builtInCores profile adapter)
    (hserves : r.Serves host desired secrets profile placement adapter)
    (hid : placement.1.manifest.id = managed.manifest.id) :
    Legible managed.flavor placement.2 := by
  obtain ⟨adapter', hadmissible⟩ := hadmissible
  have hregistered := hserves.registered
  rw [hr.protocols, hadmissible.registered] at hregistered
  cases hregistered
  obtain ⟨json, hjson, rfl, -⟩ := builtInProtocols_get.mp hadmissible.registered
  obtain ⟨found, hrenders⟩ := renderServer_renders hserves.fragment
  have hselect := hserves.core
  rw [hr.cores] at hselect
  obtain ⟨hget, hcapable⟩ := select_registered hselect
  rw [hid] at hget
  rw [builtIn_of_registered hmanaged hget] at hcapable
  refine legible_rendered hmanaged hjson hrenders hadmissible.port ?_
  have hrequired := required_capability json hjson
  rw [show json.toAdapter.manifest.requiredCoreCapabilities = _ from hrequired,
    Finset.singleton_subset_iff] at hcapable
  exact hcapable

theorem native_served (hr : BuiltIn r) (hready : Ready builtInCores host)
    (hadmissible : ∀ profile ∈ desired.profiles, ∃ adapter, Admissible builtInCores profile adapter)
    (hplaced : r.Placed host desired secrets served provided) (hnative : native ∈ nativeCores) :
    List.Forall₂ (fun profile placement ↦ (∃ adapter, Admissible builtInCores profile adapter) ∧
        ∃ adapter, r.Serves host desired secrets profile placement adapter)
      (nativeProfiles native desired.profiles)
      (served.filter fun placement ↦ placement.1.manifest.id = native.2) := by
  have hall := (List.forall₂_and_left _ _).mpr ⟨fun profile hmem ↦
    hadmissible profile (List.mem_of_mem_filter hmem), hplaced.profiles⟩
  refine List.rel_filter ?_ hall
  rintro profile placement ⟨⟨adapter, hadmissible⟩, adapter', hserves⟩
  have hregistered := hserves.registered
  rw [hr.protocols, hadmissible.registered] at hregistered
  cases hregistered
  have hselect := hserves.core
  rw [hr.cores] at hselect
  simp only [decide_eq_true_eq]
  exact (selects_native hnative hready hadmissible hselect).symm

theorem provided_native (hinfrastructure : desired.infrastructure = desiredResources settings)
    (hr : BuiltIn r) (hplaced : r.Placed host desired secrets served provided)
    (hplacement : placement ∈ provided) : ∀ managed ∈ builtInAdapters,
      placement.1.manifest.id ≠ managed.manifest.id := by
  obtain ⟨resource, hresource, hprovides⟩ := hplaced.infrastructure.exists_left hplacement
  have hcore := hprovides.core
  rw [hr.cores] at hcore
  rw [builtInCores.keyed _ _ hcore]
  rw [hinfrastructure, desiredResources_enabled] at hresource
  have hother : ∀ id ∈ [subscriptionAdapterId, nodeAdapterId], ∀ managed ∈ builtInAdapters,
      id ≠ managed.manifest.id := by decide
  exact hother _ (by simpa using desiredResources_adapter hresource)

theorem plan_fragments {managed : ManagedCoreAdapter} (hmanaged : managed ∈ builtInAdapters)
    (hinfrastructure : desired.infrastructure = desiredResources settings) (hr : BuiltIn r)
    (hplaced : r.Placed host desired secrets served provided)
    (hholds : Reconciler.Holds plans (served ++ provided))
    (hplan : plans.get? managed.manifest.id = some (core, plan)) : plan.fragments =
      (served.filter fun placement ↦ placement.1.manifest.id = managed.manifest.id).map Prod.snd := by
  have hnone : (provided.filter fun placement ↦
      placement.1.manifest.id = managed.manifest.id) = [] := by
    rw [List.filter_eq_nil_iff]
    intro placement hplacement
    simpa using provided_native hinfrastructure hr hplaced hplacement managed hmanaged
  rw [hholds.fragments _ _ _ hplan, List.filter_append, hnone, List.append_nil]

theorem plan_legible {managed : ManagedCoreAdapter} (hmanaged : managed ∈ builtInAdapters)
    (hinfrastructure : desired.infrastructure = desiredResources settings) (hr : BuiltIn r)
    (hadmissible : ∀ profile ∈ desired.profiles, ∃ adapter, Admissible builtInCores profile adapter)
    (hplaced : r.Placed host desired secrets served provided)
    (hholds : Reconciler.Holds plans (served ++ provided))
    (hplan : plans.get? managed.manifest.id = some (core, plan)) :
    ∀ fragment ∈ plan.fragments, Legible managed.flavor fragment := by
  rw [plan_fragments hmanaged hinfrastructure hr hplaced hholds hplan]
  intro fragment hfragment
  obtain ⟨placement, hplacement, rfl⟩ := List.mem_map.mp hfragment
  obtain ⟨hplacement, hid⟩ := List.mem_filter.mp hplacement
  obtain ⟨profile, hprofile, adapter, hserves⟩ := hplaced.profiles.exists_left hplacement
  exact serves_legible hr hmanaged (hadmissible profile (List.mem_of_mem_filter hprofile))
    hserves (by simpa using hid)

def ObfuscationNamed (profile : ProtocolProfile) : Prop :=
  (profile.config.get? "obfs_password_secret").isSome →
    ∃ raw, profile.config.text? "obfs_password_secret" = some raw ∧ trim raw ≠ ""

theorem readsObfuscation_iff (hr : BuiltIn r)
    (hserves : r.Serves host desired secrets profile placement adapter)
    (hprotocol : profile.protocolId = "hysteria2") :
    ReadsObfuscation placement.2 ↔ ObfuscationNamed profile := by
  have hregistered := hserves.registered
  rw [hr.protocols, hprotocol] at hregistered
  obtain ⟨json, hjson, rfl, hid⟩ := builtInProtocols_get.mp hregistered
  obtain ⟨found, hrenders⟩ := renderServer_renders hserves.fragment
  exact readsObfuscation_rendered hrenders (obfuscation_declared json hjson hid)

/-- What the native cores can compose: one profile each, with an obfuscation that is named. -/
structure NativelyComposable (profiles : List ProtocolProfile) : Prop where
  single : ∀ native ∈ nativeCores, (nativeProfiles native profiles).length ≤ 1
  obfuscation : ∀ profile ∈ nativeProfiles ("hysteria2", "hysteria") profiles,
    ObfuscationNamed profile

theorem forall_plan {managed : ManagedCoreAdapter} (hmanaged : managed ∈ builtInAdapters)
    (hinfrastructure : desired.infrastructure = desiredResources settings) (hr : BuiltIn r)
    (hplaced : r.Placed host desired secrets served provided)
    (hholds : Reconciler.Holds plans (served ++ provided)) {P : List ServerFragment → Prop}
    (hnil : P []) : (∀ core plan, plans.get? managed.manifest.id = some (core, plan) →
        P plan.fragments) ↔
      P ((served.filter fun placement ↦
        placement.1.manifest.id = managed.manifest.id).map Prod.snd) := by
  constructor
  · intro hall
    cases hplan : plans.get? managed.manifest.id with
    | some entry =>
      have h := hall entry.1 entry.2 hplan
      rwa [plan_fragments hmanaged hinfrastructure hr hplaced hholds hplan] at h
    | none =>
      have hnone : (served.filter fun placement ↦
          placement.1.manifest.id = managed.manifest.id) = [] := by
        rw [List.filter_eq_nil_iff]
        intro placement hplacement hid
        obtain ⟨entry, hentry⟩ := hholds.planned placement (List.mem_append_left _ hplacement)
        rw [of_decide_eq_true hid, hplan] at hentry
        cases hentry
      rwa [hnone]
  · intro h core plan hplan
    rwa [plan_fragments hmanaged hinfrastructure hr hplaced hholds hplan]

theorem fits_iff (hinfrastructure : desired.infrastructure = desiredResources settings)
    (hr : BuiltIn r) (hready : Ready builtInCores host)
    (hadmissible : ∀ profile ∈ desired.profiles, ∃ adapter, Admissible builtInCores profile adapter)
    (hplaced : r.Placed host desired secrets served provided)
    (hholds : Reconciler.Holds plans (served ++ provided)) :
    (∀ managed ∈ builtInAdapters, ∀ core plan,
      plans.get? managed.manifest.id = some (core, plan) → managed.flavor.Fits plan) ↔
        NativelyComposable desired.profiles := by
  have hnatives : (∀ managed ∈ builtInAdapters, ∀ core plan,
      plans.get? managed.manifest.id = some (core, plan) → managed.flavor.Fits plan) ↔
        (∀ core plan, plans.get? "hysteria" = some (core, plan) → Flavor.hysteria.Fits plan) ∧
          ∀ core plan, plans.get? "tuic" = some (core, plan) → Flavor.tuic.Fits plan := by
    simp [builtInAdapters, ManagedCoreAdapter.new, Flavor.Fits]
  have hfits : (∀ core plan, plans.get? "hysteria" = some (core, plan) →
      Flavor.hysteria.Fits plan) ↔
        (nativeProfiles ("hysteria2", "hysteria") desired.profiles).length ≤ 1 ∧
          ∀ profile ∈ nativeProfiles ("hysteria2", "hysteria") desired.profiles,
            ObfuscationNamed profile := by
    have hserved := native_served hr hready hadmissible hplaced
      (show ("hysteria2", "hysteria") ∈ nativeCores from List.mem_cons_self)
    have hprotocol := (List.forall₂_and_left _ _).mpr ⟨fun profile hmem ↦
      (of_decide_eq_true (List.mem_filter.mp hmem).2).1, hserved⟩
    have hobfuscation : (∀ profile ∈ nativeProfiles ("hysteria2", "hysteria") desired.profiles,
        ObfuscationNamed profile) ↔ ∀ placement ∈ served.filter fun placement ↦
          placement.1.manifest.id = "hysteria", ReadsObfuscation placement.2 := by
      refine hprotocol.forall_iff ?_
      rintro profile placement ⟨hprotocol, -, adapter, hserves⟩
      exact (readsObfuscation_iff hr hserves hprotocol).symm
    have hmanaged : ManagedCoreAdapter.new "hysteria" "Hysteria" "infiproxy-hysteria.service"
        .hysteria hysteriaCapabilities 200 ∈ builtInAdapters := by simp [builtInAdapters]
    have hplan := forall_plan hmanaged hinfrastructure hr hplaced hholds
      (P := fun fragments ↦ fragments.length ≤ 1 ∧ ∀ fragment ∈ fragments, ReadsObfuscation fragment)
      ⟨zero_le_one, List.forall_mem_nil _⟩
    rw [List.length_map, List.forall_mem_map] at hplan
    rw [hobfuscation, hserved.length_eq]
    exact hplan
  have hfitsTuic : (∀ core plan, plans.get? "tuic" = some (core, plan) → Flavor.tuic.Fits plan) ↔
      (nativeProfiles ("tuic", "tuic") desired.profiles).length ≤ 1 := by
    have hserved := native_served hr hready hadmissible hplaced
      (show ("tuic", "tuic") ∈ nativeCores from List.mem_cons_of_mem _ List.mem_cons_self)
    have hmanaged : ManagedCoreAdapter.new "tuic" "TUIC" "infiproxy-tuic.service" .tuic
        tuicCapabilities 200 ∈ builtInAdapters := by simp [builtInAdapters]
    have hplan := forall_plan hmanaged hinfrastructure hr hplaced hholds
      (P := fun fragments ↦ fragments.length ≤ 1) zero_le_one
    rw [List.length_map] at hplan
    rw [hserved.length_eq]
    exact hplan
  rw [hnatives, hfits, hfitsTuic]
  constructor
  · rintro ⟨⟨hhysteria, hnamed⟩, htuic⟩
    refine ⟨?_, hnamed⟩
    simp only [nativeCores, List.forall_mem_cons]
    exact ⟨hhysteria, htuic, List.forall_mem_nil _⟩
  · intro h
    exact ⟨⟨h.single _ List.mem_cons_self, h.obfuscation⟩,
      h.single _ (List.mem_cons_of_mem _ List.mem_cons_self)⟩

theorem plans_composable (hr : BuiltIn r)
    (hreached : Reached builtInCores allowed desired.profiles)
    (hinfrastructure : desired.infrastructure = desiredResources settings)
    (hready : Ready builtInCores host)
    (hplans : (r.buildPlans desired secrets applied).under host = .ok plans) :
    (∀ managed ∈ builtInAdapters, ∀ core plan,
      plans.get? managed.manifest.id = some (core, plan) →
        ∃ document, managed.flavor.compose plan = .ok document) ↔
      NativelyComposable desired.profiles := by
  obtain ⟨served, provided, hplaced, hholds⟩ := Reconciler.buildPlans_holds hplans
  rw [← fits_iff hinfrastructure hr hready hreached.admissible hplaced hholds]
  refine forall₂_congr fun managed hmanaged ↦ forall₃_congr fun core plan hplan ↦ ?_
  exact compose_exists
    (plan_legible hmanaged hinfrastructure hr hreached.admissible hplaced hholds hplan)

/-- Profiles that were admitted one at a time always have plans, but the native cores cannot
compose any number of them, nor an obfuscation without a name. -/
theorem admitted_composable_iff (hr : BuiltIn r)
    (hreached : Reached builtInCores allowed desired.profiles)
    (hinfrastructure : desired.infrastructure = desiredResources settings)
    (hready : Ready builtInCores host) (hresolves : Resolves secrets desired.profiles)
    (happlied : ∀ id ∈ applied.activeCoreIds, ∃ core, builtInCores.get id = some core) :
    (∃ plans, (r.buildPlans desired secrets applied).under host = .ok plans ∧
      ∀ managed ∈ builtInAdapters, ∀ core plan,
        plans.get? managed.manifest.id = some (core, plan) →
          ∃ document, managed.flavor.compose plan = .ok document) ↔
      NativelyComposable desired.profiles := by
  obtain ⟨plans, hplans⟩ := admitted_built hr hreached hinfrastructure hready hresolves happlied
  rw [← plans_composable hr hreached hinfrastructure hready hplans]
  constructor
  · rintro ⟨plans', hplans', hall⟩
    cases hplans.symm.trans hplans'
    exact hall
  · intro hall
    exact ⟨plans, hplans, hall⟩

end plans

section demonstration

theorem readyHost_ready : Ready builtInCores readyHost :=
  fun _ core _ required _ ↦ readyHost_runs core required

def hysteria2 : JsonProtocolAdapter :=
  .new "hysteria2" "Hysteria 2" .hysteria
    [secretField "password_secret" true, textField "sni",
      secretField "obfs_password_secret" false] .sharedCredential .udp

theorem hysteria2_registered : builtInProtocols.get "hysteria2" = some hysteria2.toAdapter :=
  builtInProtocols_get.mpr ⟨hysteria2, by simp [protocols, hysteria2], rfl, rfl⟩

def hysteriaCore : CoreAdapter :=
  ⟨(ManagedCoreAdapter.new "hysteria" "Hysteria" "infiproxy-hysteria.service" .hysteria
    hysteriaCapabilities 200).manifest⟩

def hysteriaProfile (name : String) (port : ℕ) : ProtocolProfile where
  name := name
  displayName := "Hysteria"
  protocolId := "hysteria2"
  schemaVersion := 1
  role := .speed
  server := "node.example.test"
  port := port
  enabled := true
  preferredCoreId := none
  managedResourceId := none
  config := .object [("password_secret", .string "hysteria.password"),
    ("sni", .string "node.example.test")]

theorem hysteria_edit {name : String} {port : ℕ} (hport : port ≤ 65535)
    (hfree : ∀ profile ∈ existing, profile.name ≠ name ∧ profile.port ≠ port) :
    Edit builtInCores (Ready builtInCores) existing (hysteriaProfile name port :: existing) := by
  have hname : validDisplayName "Hysteria" := by decide
  have hruntime : validateRuntime builtInCores {"hysteria2"} none = .ok () := by
    refine validateRuntime_any.mpr ⟨hysteriaCore, CoreRegistry.mem_values.mpr ?_, ?_⟩
    · exact builtInCores_get.mpr ⟨by simp [coreAdapters, builtInAdapters, hysteriaCore], rfl⟩
    · decide
  have hkept : existing.filter (fun profile ↦ profile.name ≠ (hysteriaProfile name port).name) =
      existing := by
    rw [List.filter_eq_self]
    intro profile hmem
    exact decide_eq_true (hfree profile hmem).1
  refine ⟨readyHost, ["hysteria.password"], hysteriaProfile name port, readyHost_ready, hport, ?_, ?_⟩
  · refine validateCandidate_ok.mpr ⟨hysteria2.toAdapter, ?_⟩
    exact {
      displayName := hname
      registered := hysteria2_registered
      config := by rfl
      secrets := ⟨[⟨"hysteria.password", rfl⟩], by rfl, by decide⟩
      runtime := hruntime
      listener := fun _ profile hmem hconflict ↦ (hfree profile hmem).2 hconflict.port
      core := fun _ ↦ select_ready readyHost_ready hruntime }
  · rw [hkept]

def hysteriaDesired (profiles : List ProtocolProfile) : DesiredState where
  generation := 1
  profiles := profiles
  users := []
  settings := .empty
  infrastructure := desiredResources publicSettings

theorem hysteria_reached :
    Reached builtInCores (Ready builtInCores) [hysteriaProfile "FIRST" 8443] :=
  .single (hysteria_edit (by decide) (List.forall_mem_nil _))

theorem hysteria_reached_twice : Reached builtInCores (Ready builtInCores)
    [hysteriaProfile "SECOND" 9443, hysteriaProfile "FIRST" 8443] := by
  refine hysteria_reached.tail (hysteria_edit (by decide) ?_)
  intro profile hmem
  rw [List.mem_singleton.mp hmem]
  exact ⟨by decide, by decide⟩

theorem builtIn_builtInReconciler : BuiltIn builtInReconciler :=
  ⟨builtInReconciler_protocols, builtInReconciler_cores⟩

theorem resolves_any (profiles : List ProtocolProfile) : Resolves (fun _ ↦ .ok "value") profiles :=
  fun _ _ _ _ _ _ _ _ _ ↦ ⟨"value", rfl⟩

theorem admitted_not_composable :
    ¬∀ (r : Reconciler) (host : Host) (desired : DesiredState) (secrets : SecretResolver)
      (applied : AppliedState) (settings : PanelSettings), BuiltIn r →
      Reached builtInCores (Ready builtInCores) desired.profiles →
      desired.infrastructure = desiredResources settings →
      Ready builtInCores host → Resolves secrets desired.profiles →
      (∀ id ∈ applied.activeCoreIds, ∃ core, builtInCores.get id = some core) →
      ∃ plans, (r.buildPlans desired secrets applied).under host = .ok plans ∧
        ∀ managed ∈ builtInAdapters, ∀ core plan,
          plans.get? managed.manifest.id = some (core, plan) →
            ∃ document, managed.flavor.compose plan = .ok document := by
  intro hall
  obtain ⟨plans, hplans, hcompose⟩ := hall builtInReconciler readyHost
    (hysteriaDesired [hysteriaProfile "SECOND" 9443, hysteriaProfile "FIRST" 8443])
    (fun _ ↦ .ok "value") .default publicSettings builtIn_builtInReconciler hysteria_reached_twice rfl
    readyHost_ready (resolves_any _) nofun
  have hnative := (plans_composable builtIn_builtInReconciler hysteria_reached_twice rfl
    readyHost_ready hplans).mp hcompose
  exact absurd (hnative.single ("hysteria2", "hysteria") List.mem_cons_self) (by decide)

theorem hysteria_composable : NativelyComposable [hysteriaProfile "FIRST" 8443] where
  single := by decide
  obfuscation := by
    intro profile hprofile hsome
    have hmem := List.mem_of_mem_filter (List.mem_of_mem_filter hprofile)
    rw [List.mem_singleton.mp hmem] at hsome
    exact absurd hsome (by decide)

theorem admitted_composable_hysteria :
    ∃ plans, (builtInReconciler.buildPlans (hysteriaDesired [hysteriaProfile "FIRST" 8443])
        (fun _ ↦ .ok "value") .default).under readyHost = .ok plans ∧
      ∀ managed ∈ builtInAdapters, ∀ core plan,
        plans.get? managed.manifest.id = some (core, plan) →
          ∃ document, managed.flavor.compose plan = .ok document := by
  have happlied : ∀ id ∈ AppliedState.default.activeCoreIds,
      ∃ core, builtInCores.get id = some core := nofun
  exact (admitted_composable_iff builtIn_builtInReconciler hysteria_reached rfl readyHost_ready
    (resolves_any _) happlied).mpr hysteria_composable

end demonstration

end StealthHub.Panel

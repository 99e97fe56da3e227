import Mathlib.Logic.Relation
import StealthHub.Adapters.Fragments
import StealthHub.Adapters.Infrastructure
import StealthHub.Adapters.UserSync
import StealthHub.Panel.Admission
import StealthHub.Reconcile.Built

set_option autoImplicit false

namespace StealthHub.Panel

open Effect Effect.Program Reconcile Text Adapters Relation

variable {protocols : ProtocolRegistry} {cores : CoreRegistry} {host : Host}
variable {allowed : Host → Prop} {secretNames : List String}
variable {candidate profile : ProtocolProfile} {existing existing' profiles : List ProtocolProfile}
variable {adapter : ProtocolAdapter} {claim : ListenerClaim}

/-- The candidate takes the place of the profile of its name, once it is accepted. -/
structure AcceptedEdit (cores : CoreRegistry) (host : Host) (secretNames : List String)
    (candidate : ProtocolProfile) (existing existing' : List ProtocolProfile) : Prop where
  port : candidate.port ≤ 65535
  accepted : (validateProfileCandidate candidate existing builtInProtocols cores
    secretNames).under host = .ok ()
  replaced : existing'.Perm (candidate :: existing.filter fun profile ↦
    profile.name ≠ candidate.name)

def Edit (cores : CoreRegistry) (allowed : Host → Prop)
    (existing existing' : List ProtocolProfile) : Prop :=
  ∃ host secretNames candidate, allowed host ∧
    AcceptedEdit cores host secretNames candidate existing existing'

/-- The profile lists that edits lead to from none. -/
def Reached (cores : CoreRegistry) (allowed : Host → Prop) : List ProtocolProfile → Prop :=
  ReflTransGen (Edit cores allowed) []

theorem Reached.induct {P : List ProtocolProfile → Prop} (h : Reached cores allowed profiles)
    (hnil : P []) (hedit : ∀ existing existing', P existing → Edit cores allowed existing existing' →
      P existing') : P profiles := by
  induction h with
  | refl => exact hnil
  | tail _ hstep ih => exact hedit _ _ ih hstep

def listenerOf (protocols : ProtocolRegistry) (profile : ProtocolProfile) : Option ListenerClaim :=
  (protocols.get profile.protocolId).map fun adapter ↦
    ⟨adapter.manifest.listenerNetwork, profile.port⟩

/-- Where the enabled profiles listen. -/
def profileClaims (protocols : ProtocolRegistry) (profiles : List ProtocolProfile) :
    List ListenerClaim :=
  (profiles.filter ProtocolProfile.enabled).filterMap (listenerOf protocols)

theorem mem_profileClaims : claim ∈ profileClaims protocols profiles ↔
    ∃ profile ∈ profiles, profile.enabled ∧ listenerOf protocols profile = some claim := by
  simp only [profileClaims, List.mem_filterMap, List.mem_filter, and_assoc]

theorem not_conflicts (hlistener : ∀ profile ∈ existing,
      ¬Conflicts protocols adapter.manifest.listenerNetwork candidate profile) :
    ⟨adapter.manifest.listenerNetwork, candidate.port⟩ ∉ profileClaims protocols
      (existing.filter fun profile ↦ profile.name ≠ candidate.name) := by
  rw [mem_profileClaims]
  rintro ⟨profile, hmem, henabled, hclaim⟩
  obtain ⟨hmem, hname⟩ := List.mem_filter.mp hmem
  obtain ⟨other, hother, hclaim⟩ := Option.map_eq_some_iff.mp hclaim
  have hnetwork := congrArg ListenerClaim.network hclaim
  have hport := congrArg ListenerClaim.port hclaim
  exact hlistener profile hmem ⟨henabled, by simpa using hname, hport, other, hother, hnetwork⟩

theorem AcceptedEdit.claims_nodup
    (h : AcceptedEdit cores host secretNames candidate existing existing')
    (hexisting : (profileClaims builtInProtocols existing).Nodup) :
    (profileClaims builtInProtocols existing').Nodup := by
  have hrest : (profileClaims builtInProtocols
      (existing.filter fun profile ↦ profile.name ≠ candidate.name)).Nodup :=
    ((List.filter_sublist.filter _).filterMap _).nodup hexisting
  rw [profileClaims, (((h.replaced.filter _).filterMap _).nodup_iff)]
  obtain ⟨adapter, hadmitted⟩ := validateCandidate_ok.mp h.accepted
  by_cases henabled : candidate.enabled
  · have hclaim : listenerOf builtInProtocols candidate =
        some ⟨adapter.manifest.listenerNetwork, candidate.port⟩ := by
      rw [listenerOf, hadmitted.registered]
      rfl
    rw [List.filter_cons_of_pos henabled, List.filterMap_cons_some hclaim]
    exact List.nodup_cons.mpr
      ⟨not_conflicts (hadmitted.listener henabled), hrest⟩
  · rw [List.filter_cons_of_neg henabled]
    exact hrest

theorem Reached.claims_nodup (h : Reached cores allowed profiles) :
    (profileClaims builtInProtocols profiles).Nodup :=
  h.induct .nil fun _ _ hexisting ⟨_, _, _, _, hedit⟩ ↦ hedit.claims_nodup hexisting

section plans

variable {r : Reconciler} {desired : DesiredState} {secrets : SecretResolver}
variable {applied : AppliedState} {plans : CorePlans} {settings : PanelSettings}

theorem serves_listeners {placement : Placement} (hprotocols : r.protocols = builtInProtocols)
    (h : r.Serves host desired secrets profile placement adapter) :
    ∃ claim, listenerOf builtInProtocols profile = some claim ∧
      placement.2.listeners = [claim] := by
  have hregistered := h.registered
  rw [hprotocols] at hregistered
  obtain ⟨json, -, rfl, -⟩ := builtInProtocols_get.mp hregistered
  obtain ⟨found, hrenders⟩ := renderServer_renders h.fragment
  refine ⟨_, ?_, hrenders.listeners⟩
  rw [listenerOf, hregistered]
  rfl

theorem served_listeners {served : List Placement} (hprotocols : r.protocols = builtInProtocols)
    (h : List.Forall₂ (fun profile placement ↦
      ∃ adapter, r.Serves host desired secrets profile placement adapter) profiles served) :
    (served.flatMap fun placement ↦ placement.2.listeners) =
      profiles.filterMap (listenerOf builtInProtocols) := by
  induction h with
  | nil => rfl
  | cons hserves _ ih =>
    obtain ⟨adapter, hserves⟩ := hserves
    obtain ⟨claim, hclaim, hlisteners⟩ := serves_listeners hprotocols hserves
    rw [List.flatMap_cons, hlisteners, ih, List.filterMap_cons_some hclaim]
    rfl

theorem provided_listeners {resources : List InfrastructureResource} {provided : List Placement}
    (h : List.Forall₂ r.Provides resources provided) :
    (provided.flatMap fun placement ↦ placement.2.listeners) =
      resources.flatMap InfrastructureResource.listeners := by
  induction h with
  | nil => rfl
  | cons hprovides _ ih =>
    rw [List.flatMap_cons, List.flatMap_cons, ih, hprovides.fragment]
    rfl

theorem desiredResources_valid {resource : InfrastructureResource}
    (h : resource ∈ desiredResources settings) : validateResourceId resource.resourceId = .ok () ∧
      resource.schemaVersion ≠ 0 ∧ resource.config.isObject := by
  have hids : ∀ id ∈ ["subscription-domain", "subscription-certificate", "subscription-decoy",
      "subscription-port", "subscription-listener", "subscription-frontend", "node-readiness"],
      validateResourceId id = .ok () := by decide
  rcases mem_desiredResources h with h | rfl
  · have hall : ∀ resource ∈ subscriptionResources settings, resource.schemaVersion ≠ 0 ∧
        resource.config.isObject := by
      simp [subscriptionResources, subscriptionResource, Value.isObject]
    have hid := List.mem_map_of_mem (f := InfrastructureResource.resourceId) h
    exact ⟨hids _ (List.mem_append_left ["node-readiness"] hid), hall resource h⟩
  · exact ⟨hids "node-readiness" (by simp), one_ne_zero, rfl⟩

theorem resource_provided {resource : InfrastructureResource} (hcores : r.cores = builtInCores)
    (h : resource ∈ desiredResources settings) : ∃ placement, r.Provides resource placement := by
  obtain ⟨core, hcore, hid⟩ : ∃ core ∈ coreAdapters, core.manifest.id = resource.adapterId := by
    rcases desiredResources_adapter h with hadapter | hadapter
    · exact ⟨_, List.mem_append_right _ List.mem_cons_self, hadapter.symm⟩
    · exact ⟨_, List.mem_append_right _ (List.mem_cons_of_mem _ List.mem_cons_self), hadapter.symm⟩
  obtain ⟨hresource, hschema, hconfig⟩ := desiredResources_valid h
  refine ⟨(core, Reconciler.resourceFragment resource), hresource, hschema, hconfig, ?_, rfl⟩
  rw [hcores]
  exact builtInCores_get.mpr ⟨hcore, hid⟩

theorem desiredResources_provided (hcores : r.cores = builtInCores) (settings : PanelSettings) :
    ∃ provided, List.Forall₂ r.Provides
      ((desiredResources settings).filter InfrastructureResource.enabled) provided := by
  rw [desiredResources_enabled]
  exact List.exists_forall₂ fun resource hmem ↦ resource_provided hcores hmem

theorem buildPlans_claims (hprotocols : r.protocols = builtInProtocols)
    (hinfrastructure : desired.infrastructure = desiredResources settings)
    (hplans : (r.buildPlans desired secrets applied).under host = .ok plans) :
    (plans.values.flatMap fun entry ↦ entry.2.fragments.flatMap ServerFragment.listeners).Perm
      (profileClaims builtInProtocols desired.profiles ++
        if endsWith settings.subscriptionDomain ".local" then [] else [⟨.tcp, 443⟩]) := by
  obtain ⟨served, provided, hplaced, hholds⟩ := Reconciler.buildPlans_holds hplans
  have hprovided := hplaced.infrastructure
  rw [hinfrastructure, desiredResources_enabled] at hprovided
  refine hholds.claims.trans ?_
  rw [List.flatMap_append, served_listeners hprotocols hplaced.profiles,
    provided_listeners hprovided, desiredResources_listeners]
  exact .refl _

/-- The listeners of a plan for edited profiles are apart but for the frontend's, which no
edit is compared with. -/
theorem listener_plan_valid_iff (hprotocols : r.protocols = builtInProtocols)
    (hreached : Reached cores allowed desired.profiles)
    (hinfrastructure : desired.infrastructure = desiredResources settings)
    (hplans : (r.buildPlans desired secrets applied).under host = .ok plans) :
    validateListenerPlan plans = .ok () ↔
      endsWith settings.subscriptionDomain ".local" ∨
        ⟨.tcp, 443⟩ ∉ profileClaims builtInProtocols desired.profiles := by
  rw [validateListenerPlan_ok, (buildPlans_claims hprotocols hinfrastructure hplans).nodup_iff]
  split_ifs with hlocal
  · rw [List.append_nil]
    exact iff_of_true hreached.claims_nodup (.inl hlocal)
  · rw [List.nodup_append]
    constructor
    · rintro ⟨-, -, hdisjoint⟩
      exact .inr fun hmem ↦ hdisjoint _ hmem _ (List.mem_singleton_self _) rfl
    · rintro (hdomain | hfree)
      · exact absurd hdomain hlocal
      · refine ⟨hreached.claims_nodup, List.nodup_singleton _, ?_⟩
        rintro claim hclaim _ hfrontend rfl
        rw [List.mem_singleton.mp hfrontend] at hclaim
        exact hfree hclaim

end plans

section demonstration

def mihomoCore : CoreAdapter :=
  ⟨(ManagedCoreAdapter.new "mihomo" "Mihomo" "infiproxy-mihomo.service" .mihomo
    mihomoCapabilities 200).manifest⟩

theorem mihomo_registered : builtInCores.get "mihomo" = some mihomoCore :=
  builtInCores_get.mpr ⟨by simp [coreAdapters, builtInAdapters, mihomoCore], rfl⟩

def portProfile (port : ℕ) : ProtocolProfile := (tunnelContext "TUNNEL" port).profile

theorem tunnel_selected (port : ℕ) :
    (select builtInCores trustTunnel.toAdapter.manifest.requiredCoreCapabilities
      (portProfile port).preferredCoreId).under readyHost = .ok (some mihomoCore) :=
  select_preferred.mpr ⟨mihomo_registered, by decide, readyHost_runs _ _⟩

theorem tunnel_reached {port : ℕ} (hport : port ≤ 65535) :
    Reached builtInCores (fun _ ↦ True) [portProfile port] := by
  have hname : validDisplayName "Tunnel" := by decide
  refine .single ⟨readyHost, [], portProfile port, trivial, hport, ?_, .refl _⟩
  refine validateCandidate_ok.mpr ⟨trustTunnel.toAdapter, ?_⟩
  exact {
    displayName := hname
    registered := trustTunnel_registered
    config := by rfl
    secrets := ⟨[], by rfl, nofun⟩
    runtime := validateRuntime_preferred.mpr ⟨mihomoCore, mihomo_registered, by decide⟩
    listener := fun _ ↦ nofun
    core := fun _ ↦ ⟨mihomoCore, tunnel_selected port⟩ }

def publicSettings : PanelSettings := ⟨"Infiproxy", "sub.example.test", "node.infiproxy.local"⟩

def tunnelDesired (port : ℕ) : DesiredState where
  generation := 1
  profiles := [portProfile port]
  users := []
  settings := .empty
  infrastructure := desiredResources publicSettings

def builtInReconciler : Reconciler := ⟨builtInProtocols, builtInCores, []⟩

@[simp] theorem builtInReconciler_protocols : builtInReconciler.protocols = builtInProtocols := by
  rw [builtInReconciler]

@[simp] theorem builtInReconciler_cores : builtInReconciler.cores = builtInCores := by
  rw [builtInReconciler]

theorem tunnel_built (port : ℕ) : ∃ plans, (builtInReconciler.buildPlans (tunnelDesired port)
    (fun _ ↦ .error "secret is not configured") .default).under readyHost = .ok plans := by
  obtain ⟨provided, hprovided⟩ :=
    desiredResources_provided builtInReconciler_cores publicSettings
  obtain ⟨fragment, hfragment⟩ : ∃ fragment, trustTunnel.toAdapter.renderServer
      ⟨portProfile port, [], fun _ ↦ .error "secret is not configured"⟩ = .ok fragment := ⟨_, rfl⟩
  have hserves : builtInReconciler.Serves readyHost (tunnelDesired port)
      (fun _ ↦ .error "secret is not configured") (portProfile port) (mihomoCore, fragment)
      trustTunnel.toAdapter := by
    refine ⟨?_, rfl, ?_, hfragment⟩
    · rw [builtInReconciler_protocols]
      exact trustTunnel_registered
    · rw [builtInReconciler_cores]
      exact tunnel_selected port
  exact Reconciler.buildPlans_exists ⟨.cons ⟨_, hserves⟩ .nil, hprovided⟩ nofun

theorem portProfile_claim (port : ℕ) :
    listenerOf builtInProtocols (portProfile port) = some ⟨.tcp, port⟩ := by
  rw [listenerOf, portProfile, tunnelContext, trustTunnel_registered]
  rfl

theorem frontend_conflict_admitted :
    ¬∀ (cores : CoreRegistry) (r : Reconciler) (host : Host) (desired : DesiredState)
      (secrets : SecretResolver) (applied : AppliedState) (plans : CorePlans)
      (settings : PanelSettings), r.protocols = builtInProtocols →
      Reached cores (fun _ ↦ True) desired.profiles →
      desired.infrastructure = desiredResources settings →
      (r.buildPlans desired secrets applied).under host = .ok plans →
      validateListenerPlan plans = .ok () := by
  intro hall
  obtain ⟨plans, hplans⟩ := tunnel_built 443
  have hvalid := hall builtInCores builtInReconciler readyHost _ _ _ plans publicSettings
    builtInReconciler_protocols (tunnel_reached (by decide)) rfl hplans
  rw [validateListenerPlan_ok, (buildPlans_claims builtInReconciler_protocols rfl hplans).nodup_iff] at hvalid
  have hclaims : profileClaims builtInProtocols (tunnelDesired 443).profiles = [⟨.tcp, 443⟩] :=
    List.filterMap_cons_some (portProfile_claim 443)
  rw [hclaims] at hvalid
  exact absurd hvalid (by decide)

theorem listener_plan_valid_tunnel : ∃ plans,
    (builtInReconciler.buildPlans (tunnelDesired 8443) (fun _ ↦ .error "secret is not configured")
      .default).under readyHost = .ok plans ∧
    validateListenerPlan plans = .ok () := by
  obtain ⟨plans, hplans⟩ := tunnel_built 8443
  have hreached : Reached builtInCores (fun _ ↦ True) (tunnelDesired 8443).profiles :=
    tunnel_reached (by decide)
  have hinfrastructure : (tunnelDesired 8443).infrastructure = desiredResources publicSettings := rfl
  have hfree : ⟨.tcp, 443⟩ ∉ profileClaims builtInProtocols (tunnelDesired 8443).profiles := by
    have hclaims : profileClaims builtInProtocols (tunnelDesired 8443).profiles = [⟨.tcp, 8443⟩] :=
      List.filterMap_cons_some (portProfile_claim 8443)
    rw [hclaims]
    decide
  have hvalid := listener_plan_valid_iff builtInReconciler_protocols hreached hinfrastructure hplans
  exact ⟨plans, hplans, hvalid.mpr (.inr hfree)⟩

end demonstration

end StealthHub.Panel

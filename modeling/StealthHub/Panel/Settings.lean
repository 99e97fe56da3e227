import StealthHub.Panel.Edits
import StealthHub.Panel.Hosts

set_option autoImplicit false

namespace StealthHub.Panel

open Effect Effect.Program Reconcile Text Adapters

section plans

variable {r : Reconciler} {host : Host} {desired : DesiredState} {secrets : SecretResolver}
variable {applied : AppliedState} {plans : CorePlans} {settings : PanelSettings}
variable {served provided : List Placement} {placement : Placement} {id : String}
variable {core : CoreAdapter} {plan : CorePlan}

/-- The domain checks of both adapters accept the plans that they are given. -/
structure DomainsAccepted (plans : CorePlans) : Prop where
  subscription : ∀ core plan, plans.get? subscriptionAdapterId = some (core, plan) →
    ∃ domain, SubscriptionFrontendAdapter.domain plan = .ok domain
  node : ∀ core plan, plans.get? nodeAdapterId = some (core, plan) →
    ∃ domain, NodeReadinessAdapter.domain plan = .ok domain

theorem protocols_apart : ∀ json ∈ protocols, ∀ core ∈ coreAdapters,
    core.manifest.id ∈ [subscriptionAdapterId, nodeAdapterId] →
      ¬json.manifest.requiredCoreCapabilities ⊆ core.manifest.capabilities := by
  decide

theorem served_apart (hprotocols : r.protocols = builtInProtocols) (hcores : r.cores = builtInCores)
    (hplaced : r.Placed host desired secrets served provided) (hplacement : placement ∈ served) :
    placement.1.manifest.id ∉ [subscriptionAdapterId, nodeAdapterId] := by
  obtain ⟨profile, -, adapter, hserves⟩ := hplaced.profiles.exists_left hplacement
  have hregistered := hserves.registered
  rw [hprotocols] at hregistered
  obtain ⟨json, hjson, rfl, -⟩ := builtInProtocols_get.mp hregistered
  obtain ⟨hget, hcapable⟩ := select_registered hserves.core
  rw [hcores] at hget
  intro hid
  exact protocols_apart json hjson _ (builtInCores_get.mp hget).1 hid hcapable

theorem provided_fragments {resources : List InfrastructureResource}
    (h : List.Forall₂ r.Provides resources provided) :
    (provided.filter fun placement ↦ placement.1.manifest.id = id).map Prod.snd =
      (resources.filter fun resource ↦ resource.adapterId = id).map
        Reconciler.resourceFragment := by
  induction h with
  | nil => rfl
  | @cons resource placement _ _ hprovides _ ih =>
    have hid := r.cores.keyed _ _ hprovides.core
    by_cases hadapter : resource.adapterId = id
    · rw [List.filter_cons_of_pos (by simpa [hid] using hadapter),
        List.filter_cons_of_pos (by simpa using hadapter), List.map_cons, List.map_cons, ih,
        hprovides.fragment]
    · rw [List.filter_cons_of_neg (by simpa [hid] using hadapter),
        List.filter_cons_of_neg (by simpa using hadapter), ih]

theorem plan_resources (hprotocols : r.protocols = builtInProtocols)
    (hcores : r.cores = builtInCores)
    (hinfrastructure : desired.infrastructure = desiredResources settings)
    (hplaced : r.Placed host desired secrets served provided)
    (hholds : Reconciler.Holds plans (served ++ provided))
    (hid : id ∈ [subscriptionAdapterId, nodeAdapterId])
    (hplan : plans.get? id = some (core, plan)) : plan.fragments =
      ((desiredResources settings).filter fun resource ↦ resource.adapterId = id).map
        Reconciler.resourceFragment := by
  have hserved : (served.filter fun placement ↦ placement.1.manifest.id = id) = [] := by
    rw [List.filter_eq_nil_iff]
    intro placement hplacement hsame
    rw [← of_decide_eq_true hsame] at hid
    exact served_apart hprotocols hcores hplaced hplacement hid
  have hprovided := hplaced.infrastructure
  rw [hinfrastructure, desiredResources_enabled] at hprovided
  rw [hholds.fragments _ _ _ hplan, List.filter_append, hserved, List.nil_append,
    provided_fragments hprovided]

theorem subscription_resources :
    ((desiredResources settings).filter fun resource ↦
      resource.adapterId = subscriptionAdapterId) =
        if endsWith settings.subscriptionDomain ".local" then []
        else subscriptionResources settings := by
  rw [desiredResources]
  split_ifs <;> rfl

theorem node_resources :
    ((desiredResources settings).filter fun resource ↦ resource.adapterId = nodeAdapterId) =
      if endsWith settings.nodeDomain ".local" then [] else [nodeResource settings] := by
  rw [desiredResources]
  split_ifs <;> rfl

theorem checked_domain {domain : String} : (∃ found, (do
      validateDomain domain
      return some domain : Except String (Option String)) = .ok found) ↔
    validateDomain domain = .ok () := by
  constructor
  · rintro ⟨found, h⟩
    obtain ⟨⟨⟩, hvalid, -⟩ := Except.bind_eq_ok.mp h
    exact hvalid
  · intro hvalid
    rw [hvalid]
    exact ⟨_, rfl⟩

theorem subscription_domain (hfragments : plan.fragments =
      ((desiredResources settings).filter fun resource ↦
        resource.adapterId = subscriptionAdapterId).map Reconciler.resourceFragment) :
    (∃ domain, SubscriptionFrontendAdapter.domain plan = .ok domain) ↔
      Plannable settings.subscriptionDomain := by
  rw [subscription_resources] at hfragments
  rw [SubscriptionFrontendAdapter.domain, hfragments, Plannable]
  by_cases hlocal : endsWith settings.subscriptionDomain ".local" = true
  · rw [if_pos hlocal]
    exact iff_of_true ⟨none, rfl⟩ (.inl hlocal)
  · rw [if_neg hlocal, or_iff_right hlocal]
    exact checked_domain

theorem node_domain (hfragments : plan.fragments =
      ((desiredResources settings).filter fun resource ↦
        resource.adapterId = nodeAdapterId).map Reconciler.resourceFragment) :
    (∃ domain, NodeReadinessAdapter.domain plan = .ok domain) ↔ Plannable settings.nodeDomain := by
  rw [node_resources] at hfragments
  rw [NodeReadinessAdapter.domain, hfragments, Plannable]
  by_cases hlocal : endsWith settings.nodeDomain ".local" = true
  · rw [if_pos hlocal]
    exact iff_of_true ⟨none, rfl⟩ (.inl hlocal)
  · rw [if_neg hlocal, or_iff_right hlocal]
    exact checked_domain

theorem resource_planned (hinfrastructure : desired.infrastructure = desiredResources settings)
    (hplaced : r.Placed host desired secrets served provided)
    (hholds : Reconciler.Holds plans (served ++ provided)) {resource : InfrastructureResource}
    (hmem : resource ∈ desiredResources settings) :
    ∃ core plan, plans.get? resource.adapterId = some (core, plan) := by
  have hprovided := hplaced.infrastructure
  rw [hinfrastructure, desiredResources_enabled] at hprovided
  have hflip : List.Forall₂ (flip r.Provides) provided (desiredResources settings) := hprovided.flip
  obtain ⟨placement, hplacement, hprovides⟩ := hflip.exists_left hmem
  obtain ⟨⟨core, plan⟩, hplan⟩ := hholds.planned placement (List.mem_append_right _ hplacement)
  rw [r.cores.keyed _ _ hprovides.core] at hplan
  exact ⟨core, plan, hplan⟩

theorem domainsAccepted_iff (hprotocols : r.protocols = builtInProtocols)
    (hcores : r.cores = builtInCores)
    (hinfrastructure : desired.infrastructure = desiredResources settings)
    (hplans : (r.buildPlans desired secrets applied).under host = .ok plans) :
    DomainsAccepted plans ↔
      Plannable settings.subscriptionDomain ∧ Plannable settings.nodeDomain := by
  obtain ⟨served, provided, hplaced, hholds⟩ := Reconciler.buildPlans_holds hplans
  constructor
  · rintro ⟨hsubscription, hnode⟩
    refine ⟨?_, ?_⟩
    · by_cases hlocal : endsWith settings.subscriptionDomain ".local" = true
      · exact .inl hlocal
      have hmem : subscriptionResource "subscription-domain" [] []
          [("subscription_domain", .string settings.subscriptionDomain)] ∈
            desiredResources settings := by
        rw [desiredResources, if_neg hlocal]
        exact List.mem_append_left _ List.mem_cons_self
      obtain ⟨core, plan, hplan⟩ := resource_planned hinfrastructure hplaced hholds hmem
      exact (subscription_domain (plan_resources hprotocols hcores hinfrastructure hplaced hholds
        (by decide) hplan)).mp (hsubscription core plan hplan)
    · by_cases hlocal : endsWith settings.nodeDomain ".local" = true
      · exact .inl hlocal
      have hmem : nodeResource settings ∈ desiredResources settings := by
        rw [desiredResources, if_neg hlocal]
        exact List.mem_append_right _ List.mem_cons_self
      obtain ⟨core, plan, hplan⟩ := resource_planned hinfrastructure hplaced hholds hmem
      exact (node_domain (plan_resources hprotocols hcores hinfrastructure hplaced hholds
        (by decide) hplan)).mp (hnode core plan hplan)
  · rintro ⟨hsubscription, hnode⟩
    refine ⟨fun core plan hplan ↦ ?_, fun core plan hplan ↦ ?_⟩
    · exact (subscription_domain (plan_resources hprotocols hcores hinfrastructure hplaced hholds
        (by decide) hplan)).mpr hsubscription
    · exact (node_domain (plan_resources hprotocols hcores hinfrastructure hplaced hholds
        (by decide) hplan)).mpr hnode

/-- Whatever plans come of accepted settings, the domain checks accept them if and only if
neither host was given with a port or as an IPv6 address. -/
theorem accepted_settings_plannable_iff {a b : String}
    (ha : normalizePublicHost a = .ok settings.subscriptionDomain)
    (hb : normalizePublicHost b = .ok settings.nodeDomain)
    (hprotocols : r.protocols = builtInProtocols) (hcores : r.cores = builtInCores)
    (hinfrastructure : desired.infrastructure = desiredResources settings)
    (hplans : (r.buildPlans desired secrets applied).under host = .ok plans) :
    DomainsAccepted plans ↔ ':' ∉ a.toList ∧ ':' ∉ b.toList := by
  rw [domainsAccepted_iff hprotocols hcores hinfrastructure hplans, plannable_iff ha,
    plannable_iff hb]

end plans

section demonstration

def settingsDesired (settings : PanelSettings) : DesiredState where
  generation := 1
  profiles := []
  users := []
  settings := .empty
  infrastructure := desiredResources settings

theorem settings_built (settings : PanelSettings) : ∃ plans,
    (builtInReconciler.buildPlans (settingsDesired settings)
      (fun _ ↦ .error "secret is not configured") .default).under readyHost = .ok plans := by
  obtain ⟨provided, hprovided⟩ := desiredResources_provided builtInReconciler_cores settings
  have hplaced : builtInReconciler.Placed readyHost (settingsDesired settings)
      (fun _ ↦ .error "secret is not configured") [] provided := ⟨.nil, hprovided⟩
  exact Reconciler.buildPlans_exists hplaced nofun

theorem accepted_settings_not_plannable :
    ¬∀ (a b : String) (r : Reconciler) (host : Host) (desired : DesiredState)
      (secrets : SecretResolver) (applied : AppliedState) (plans : CorePlans)
      (settings : PanelSettings),
      normalizePublicHost a = .ok settings.subscriptionDomain →
      normalizePublicHost b = .ok settings.nodeDomain →
      r.protocols = builtInProtocols → r.cores = builtInCores →
      desired.infrastructure = desiredResources settings →
      (r.buildPlans desired secrets applied).under host = .ok plans → DomainsAccepted plans := by
  intro hall
  obtain ⟨plans, hplans⟩ := settings_built ⟨"Infiproxy", "sub.example.test:8443", "node.example.test"⟩
  have haccepted := hall "sub.example.test:8443" "node.example.test" _ _ _ _ _ _ _
    (by decide) (by decide) builtInReconciler_protocols builtInReconciler_cores rfl
    hplans
  obtain ⟨hsubscription, -⟩ := (domainsAccepted_iff builtInReconciler_protocols
    builtInReconciler_cores rfl hplans).mp haccepted
  exact absurd hsubscription (by rw [Plannable]; decide)

theorem accepted_settings_plannable_domains : ∃ plans,
    (builtInReconciler.buildPlans (settingsDesired ⟨"Infiproxy", "sub.example.test", "127.0.0.1"⟩)
      (fun _ ↦ .error "secret is not configured") .default).under readyHost = .ok plans ∧
    DomainsAccepted plans := by
  obtain ⟨plans, hplans⟩ := settings_built ⟨"Infiproxy", "sub.example.test", "127.0.0.1"⟩
  have hiff := @accepted_settings_plannable_iff _ _ _ _ _ _ _ "Sub.Example.Test." "127.0.0.1"
    (by decide) (by decide) builtInReconciler_protocols builtInReconciler_cores rfl hplans
  exact ⟨plans, hplans, hiff.mpr (by decide)⟩

end demonstration

end StealthHub.Panel

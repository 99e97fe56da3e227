import StealthHub.Adapters.Cores

set_option autoImplicit false

namespace StealthHub.Adapters

open Text

def subscriptionResource (resourceId : String) (dependencies : List String)
    (listeners : List ListenerClaim) (config : List (String × Value)) : InfrastructureResource where
  resourceId := resourceId
  adapterId := subscriptionAdapterId
  schemaVersion := 1
  enabled := true
  dependencies := dependencies
  listeners := listeners
  config := .object config

def subscriptionResources (settings : PanelSettings) : List InfrastructureResource :=
  [subscriptionResource "subscription-domain" [] []
      [("subscription_domain", .string settings.subscriptionDomain)],
    subscriptionResource "subscription-certificate" ["subscription-domain"] []
      [("issuer", .string "letsencrypt"), ("domain_ref", .string "subscription-domain")],
    subscriptionResource "subscription-decoy" [] [] [("mode", .string "not-found")],
    subscriptionResource "subscription-port" [] [] [("network", .string "tcp"), ("port", .number 443)],
    subscriptionResource "subscription-listener" ["subscription-port"] [⟨.tcp, 443⟩]
      [("address", .string "0.0.0.0"), ("network", .string "tcp"), ("port", .number 443)],
    subscriptionResource "subscription-frontend" ["subscription-domain", "subscription-certificate",
      "subscription-decoy", "subscription-listener"] [] [("owner", .string "subscription-frontend")]]

def nodeResource (settings : PanelSettings) : InfrastructureResource where
  resourceId := "node-readiness"
  adapterId := nodeAdapterId
  schemaVersion := 1
  enabled := true
  dependencies := []
  listeners := []
  config := .object [("node_domain", .string settings.nodeDomain)]

/-- A domain under `.local` is one that was never set up. -/
def desiredResources (settings : PanelSettings) : List InfrastructureResource :=
  (if endsWith settings.subscriptionDomain ".local" then [] else subscriptionResources settings) ++
    if endsWith settings.nodeDomain ".local" then [] else [nodeResource settings]

variable {settings : PanelSettings} {resource : InfrastructureResource}

theorem desiredResources_enabled :
    (desiredResources settings).filter InfrastructureResource.enabled = desiredResources settings := by
  rw [desiredResources]
  split_ifs <;> rfl

theorem desiredResources_listeners : (desiredResources settings).flatMap
    InfrastructureResource.listeners =
      if endsWith settings.subscriptionDomain ".local" then [] else [⟨.tcp, 443⟩] := by
  rw [desiredResources]
  split_ifs <;> rfl

theorem mem_desiredResources (h : resource ∈ desiredResources settings) :
    resource ∈ subscriptionResources settings ∨ resource = nodeResource settings := by
  rcases List.mem_append.mp h with h | h
  · split_ifs at h
    · cases h
    · exact .inl h
  · split_ifs at h
    · cases h
    · exact .inr (List.mem_singleton.mp h)

theorem desiredResources_adapter (h : resource ∈ desiredResources settings) :
    resource.adapterId = subscriptionAdapterId ∨ resource.adapterId = nodeAdapterId := by
  rcases mem_desiredResources h with h | rfl
  · have hall : ∀ resource ∈ subscriptionResources settings,
        resource.adapterId = subscriptionAdapterId := by
      simp [subscriptionResources, subscriptionResource]
    exact .inl (hall resource h)
  · exact .inr rfl

section domain

def invalidDomainLabel (label : String) : Bool :=
  isEmpty label || 63 < len label ||
    !(label.toList.all fun c ↦ isAsciiAlphanumeric c || c = '-') ||
    startsWith label "-" || endsWith label "-"

def validateDomain (value : String) : Except String Unit :=
  if isEmpty value || 253 < len value || contains value ".." ||
      (split '.' value).any invalidDomainLabel then
    .error "invalid public domain"
  else .ok ()

def SubscriptionFrontendAdapter.domain (plan : CorePlan) : Except String (Option String) :=
  if plan.fragments.isEmpty then .ok none
  else
    match plan.fragments.filterMap fun fragment ↦ fragment.payload.text? "subscription_domain" with
    | [] => .error "subscription domain is missing"
    | [domain] => do
      validateDomain domain
      return some domain
    | _ => .error "subscription frontend has multiple domain owners"

def NodeReadinessAdapter.domain (plan : CorePlan) : Except String (Option String) :=
  match plan.fragments with
  | [] => .ok none
  | [fragment] =>
    match fragment.payload.text? "node_domain" with
    | some domain => do
      validateDomain domain
      return some domain
    | none => .error "node domain is missing"
  | _ => .error "node readiness adapter supports one desired resource"

theorem validateDomain_ok {value : String} : validateDomain value = .ok () ↔
    len value ≤ 253 ∧ ∀ label ∈ split '.' value, invalidDomainLabel label = false := by
  simp only [validateDomain, Bool.or_eq_true, decide_eq_true_eq]
  constructor
  · intro h
    split_ifs at h with hinvalid
    simp only [not_or, List.any_eq_true, not_exists, not_and, Bool.not_eq_true] at hinvalid
    exact ⟨by omega, hinvalid.2⟩
  · rintro ⟨hlen, hlabels⟩
    have hfilled : "" ∉ split '.' value := fun hmem ↦ absurd (hlabels "" hmem) (by decide)
    refine if_neg ?_
    rintro (((hempty | hlong) | hdots) | hany)
    · rw [Text.isEmpty_iff] at hempty
      subst hempty
      exact hfilled (by decide)
    · omega
    · exact hfilled (empty_mem_split (containsList_iff.mp hdots))
    · obtain ⟨label, hlabel, hinvalid⟩ := List.any_eq_true.mp hany
      rw [hlabels label hlabel] at hinvalid
      cases hinvalid

end domain

end StealthHub.Adapters

import StealthHub.Adapters
import StealthHub.Routing.Policy

set_option autoImplicit false

namespace StealthHub.Routing

open Text

def ruGeositeUrl : String :=
  "https://cdn.jsdelivr.net/gh/GrimbirdUsers/ru-routing-dat@main/geosite.dat"

def ruGeoipUrl : String :=
  "https://cdn.jsdelivr.net/gh/GrimbirdUsers/ru-routing-dat@main/geoip.dat"

def healthCheckUrl : String := "https://www.gstatic.com/generate_204"

structure MihomoGenerationInput where
  settings : PanelSettings
  user : SubscriptionUser
  profiles : List ProtocolProfile
  secrets : OrderedMap String String
  routingRuleSets : List RoutingRuleSet
  policy : ClientPolicy
  dnsPolicy : DnsPolicy
  availableCoreCapabilities : Option (Finset String)

/-- The parts of a document that depend on the input. -/
structure MihomoDocument where
  secret : String
  dns : Value
  ruleProviders : Value
  proxies : List Value
  proxyGroups : List Value
  rules : List String

/-- The text of a document together with the document it is the text of. -/
structure MihomoGenerationOutput where
  document : MihomoDocument
  yaml : String
  warnings : List String

def strings (values : List String) : Value := .array (values.map .string)

def MihomoDocument.toValue (document : MihomoDocument) : Value :=
  .object
    [("mixed-port", .number 7890), ("allow-lan", .bool false), ("mode", .string "rule"),
      ("log-level", .string "info"), ("ipv6", .bool false),
      ("external-controller", .string "127.0.0.1:9090"), ("secret", .string document.secret),
      ("geodata-mode", .bool true), ("geodata-loader", .string "memconservative"),
      ("geo-auto-update", .bool true), ("geo-update-interval", .number 24),
      ("geox-url", .object [("geosite", .string ruGeositeUrl), ("geoip", .string ruGeoipUrl)]),
      ("dns", document.dns), ("rule-providers", document.ruleProviders),
      ("proxies", .array document.proxies), ("proxy-groups", .array document.proxyGroups),
      ("rules", strings document.rules)]

def mapSecretResolver (values : OrderedMap String String) : SecretResolver := fun reference ↦
  (values.get? reference).elim (.error "required secret reference is unresolved") secretValue

def objectOf (fields : List (String × Value)) : Value := .object (OrderedMap.ofList fields).entries

def dnsConfig (policy : DnsPolicy) (ruleSets : List RoutingRuleSet) : Value :=
  let nameserverPolicy := ruleSets.map fun ruleSet ↦
    let resolvers :=
      if ruleSet.target = "DIRECT" then policy.directResolvers else policy.remoteResolvers
    ("rule-set:" ++ ruleSet.slug, strings resolvers)
  .object
    [("enable", .bool policy.enabled), ("ipv6", .bool policy.ipv6),
      ("enhanced-mode", .string policy.enhancedMode), ("respect-rules", .bool policy.respectRules),
      ("default-nameserver", strings policy.bootstrapResolvers),
      ("proxy-server-nameserver", strings policy.bootstrapResolvers),
      ("nameserver", strings policy.remoteResolvers),
      ("direct-nameserver", strings policy.directResolvers),
      ("direct-nameserver-follow-policy", .bool true),
      ("nameserver-policy", objectOf nameserverPolicy)]

def optionalField (name : String) (value : Option Value) : List (String × Value) :=
  (value.map fun value ↦ (name, value)).toList

def proxyGroup (pool : TransportPool) (members : List String) : Value :=
  .object
    ([("name", .string pool.id), ("type", .string pool.kind.mihomoName),
        ("proxies", strings members)] ++
      optionalField "url" (pool.testUrl.map .string) ++
      optionalField "interval" (pool.intervalSeconds.map fun n ↦ .number n) ++
      optionalField "timeout" (pool.timeoutMs.map fun n ↦ .number n) ++
      optionalField "tolerance" (pool.toleranceMs.map fun n ↦ .number n) ++
      optionalField "max-failed-times" (pool.maxFailures.map fun n ↦ .number n) ++
      [("lazy", .bool pool.lazy)] ++
      optionalField "expected-status"
        (if pool.testUrl = some healthCheckUrl then some (.number 204) else none) ++
      optionalField "default-selected"
        (if pool.kind = .select then members.head?.map .string else none) ++
      optionalField "strategy" (pool.strategy.map .string))

def proxyGroups (pools : List (TransportPool × List String)) : List Value :=
  pools.map fun (pool, members) ↦ proxyGroup pool members

def activeRoutingRuleSets (ruleSets : List RoutingRuleSet) : List RoutingRuleSet :=
  ruleSets.filter (·.enabled)

def ruleProviderMap (settings : PanelSettings) (ruleSets : List RoutingRuleSet) : Value :=
  objectOf (ruleSets.map fun ruleSet ↦
    (ruleSet.slug, .object
      [("type", .string "http"), ("behavior", .string "classical"), ("format", .string "yaml"),
        ("path", .string ("./rules/" ++ ruleSet.slug ++ ".yaml")),
        ("url", .string ("https://" ++ settings.subscriptionDomain ++ "/rules/" ++ ruleSet.slug ++
          ".yaml")),
        ("interval", .number 3600)]))

def ruleSetLine (ruleSet : RoutingRuleSet) : String :=
  "RULE-SET," ++ ruleSet.slug ++ "," ++ ruleSet.target

def conditionLine (condition target : String) : Except String String :=
  if trim condition = "MATCH" then .ok ("MATCH," ++ target)
  else classicalRuleWithTarget (trim condition) target

def routingRules (ruleSets : List RoutingRuleSet) (policy : ClientPolicy)
    (profiles : List ProtocolProfile) : Except String (List String) := do
  let resolved ← policy.resolvedRules profiles
  let inline ← resolved.mapM fun (condition, target) ↦ conditionLine condition target
  return ruleSets.map ruleSetLine ++ inline

/-- What the loop over the enabled profiles has gathered. -/
structure RenderedProfiles where
  proxies : List Value
  availableProfiles : List ProtocolProfile
  warnings : List String

def renderProfile (input : MihomoGenerationInput) (registry : ProtocolRegistry)
    (rendered : RenderedProfiles) (profile : ProtocolProfile) : Except String RenderedProfiles :=
  match registry.get profile.protocolId with
  | none =>
    .ok { rendered with
      warnings := rendered.warnings ++
        [s!"profile `{profile.name}` skipped: protocol adapter is unavailable"] }
  | some adapter =>
    if input.availableCoreCapabilities.any fun capabilities ↦
        ¬adapter.manifest.requiredCoreCapabilities ⊆ capabilities then
      .ok { rendered with
        warnings := rendered.warnings ++
          [s!"profile `{profile.name}` skipped: compatible runtime is unavailable"] }
    else do
      let proxy ← adapter.renderClient ⟨profile, input.user, mapSecretResolver input.secrets⟩
      return { rendered with
        proxies := rendered.proxies ++ [proxy]
        availableProfiles := rendered.availableProfiles ++ [profile] }

/-- `serialize` is the YAML library's printer. -/
def generateMihomoYamlDetailed (serialize : Value → Except String String)
    (input : MihomoGenerationInput) (registry : ProtocolRegistry) :
    Except String MihomoGenerationOutput := do
  let enabledProfiles := input.profiles.filter (·.enabled)
  if enabledProfiles.isEmpty then throw "no protocol profiles are enabled"
  else if isEmpty (trim input.user.subscriptionToken) then throw "subscription token is empty"
  else
    let rendered ← enabledProfiles.foldlM (renderProfile input registry) ⟨[], [], []⟩
    if rendered.proxies.isEmpty then
      throw "no enabled profile has an available protocol and runtime adapter"
    else
      let resolvedPools ← input.policy.resolvedPools rendered.availableProfiles
      input.dnsPolicy.validate
      let activeRuleSets := activeRoutingRuleSets input.routingRuleSets
      let rules ← routingRules activeRuleSets input.policy rendered.availableProfiles
      let document : MihomoDocument :=
        { secret := input.user.subscriptionToken
          dns := dnsConfig input.dnsPolicy activeRuleSets
          ruleProviders := ruleProviderMap input.settings activeRuleSets
          proxies := rendered.proxies
          proxyGroups := proxyGroups resolvedPools
          rules }
      let yaml ← serialize document.toValue
      return ⟨document, yaml, rendered.warnings⟩

variable {input : MihomoGenerationInput} {registry : ProtocolRegistry}
variable {output : MihomoGenerationOutput} {rendered rendered' : RenderedProfiles}
variable {profile : ProtocolProfile} {profiles : List ProtocolProfile}

theorem renderProfile_ok (h : renderProfile input registry rendered profile = .ok rendered') :
    (rendered'.warnings = rendered.warnings ∧
        rendered'.availableProfiles = rendered.availableProfiles ++ [profile]) ∨
      ∃ warning, rendered'.warnings = rendered.warnings ++ [warning] ∧
        rendered'.availableProfiles = rendered.availableProfiles := by
  unfold renderProfile at h
  split at h
  · cases h
    exact .inr ⟨_, rfl, rfl⟩
  next adapter hadapter =>
    split at h
    · cases h
      exact .inr ⟨_, rfl, rfl⟩
    · obtain ⟨proxy, -, h⟩ := Except.bind_eq_ok.mp h
      cases Except.pure_eq_ok.mp h
      exact .inl ⟨rfl, rfl⟩

theorem renderProfiles_ok (h : profiles.foldlM (renderProfile input registry) rendered =
    .ok rendered') :
    (∀ profile ∈ rendered'.availableProfiles,
        profile ∈ rendered.availableProfiles ∨ profile ∈ profiles) ∧
      (rendered'.warnings = [] →
        rendered.warnings = [] ∧
          rendered'.availableProfiles = rendered.availableProfiles ++ profiles) := by
  induction profiles generalizing rendered with
  | nil =>
    cases Except.pure_eq_ok.mp h
    exact ⟨fun profile h ↦ .inl h, fun hw ↦ ⟨hw, (List.append_nil _).symm⟩⟩
  | cons profile rest ih =>
    rw [List.foldlM_cons] at h
    obtain ⟨middle, hstep, h⟩ := Except.bind_eq_ok.mp h
    obtain ⟨hmem, hall⟩ := ih h
    rcases renderProfile_ok hstep with ⟨hwarnings, havailable⟩ | ⟨warning, hwarnings, havailable⟩
    · refine ⟨fun p hp ↦ ?_, fun hw ↦ ?_⟩
      · have hmid := hmem p hp
        rw [havailable, List.mem_append, List.mem_singleton] at hmid
        rw [List.mem_cons]
        tauto
      · obtain ⟨hempty, heq⟩ := hall hw
        rw [hwarnings] at hempty
        rw [havailable, List.append_assoc] at heq
        exact ⟨hempty, heq⟩
    · refine ⟨fun p hp ↦ ?_, fun hw ↦ ?_⟩
      · rw [← havailable, List.mem_cons]
        exact (hmem p hp).imp_right .inr
      · obtain ⟨hempty, -⟩ := hall hw
        rw [hwarnings] at hempty
        exact absurd hempty (by simp)

/-- A successful generation, step by step. -/
structure Generated (input : MihomoGenerationInput) (registry : ProtocolRegistry)
    (output : MihomoGenerationOutput) (available : List ProtocolProfile)
    (pools : List (TransportPool × List String)) : Prop where
  available_mem : ∀ profile ∈ available, profile ∈ input.profiles.filter (·.enabled)
  available_all : output.warnings = [] → available = input.profiles.filter (·.enabled)
  resolved : input.policy.resolvedPools available = .ok pools
  groups : output.document.proxyGroups = proxyGroups pools
  rules : routingRules (activeRoutingRuleSets input.routingRuleSets) input.policy available =
    .ok output.document.rules

def rendersProfile (input : MihomoGenerationInput) (registry : ProtocolRegistry)
    (profile : ProtocolProfile) : Bool :=
  (registry.get profile.protocolId).any fun adapter ↦
    !input.availableCoreCapabilities.any fun capabilities ↦
      ¬adapter.manifest.requiredCoreCapabilities ⊆ capabilities

/-- A proxy that the adapter of a profile rendered for it. -/
def Renders (input : MihomoGenerationInput) (registry : ProtocolRegistry)
    (profile : ProtocolProfile) (proxy : Value) : Prop :=
  ∃ adapter, registry.get profile.protocolId = some adapter ∧
    adapter.renderClient ⟨profile, input.user, mapSecretResolver input.secrets⟩ = .ok proxy

theorem renderProfile_renders (h : renderProfile input registry rendered profile = .ok rendered') :
    (rendersProfile input registry profile = false ∧ rendered'.proxies = rendered.proxies ∧
        rendered'.availableProfiles = rendered.availableProfiles) ∨
      rendersProfile input registry profile = true ∧
        ∃ proxy, Renders input registry profile proxy ∧
          rendered'.proxies = rendered.proxies ++ [proxy] ∧
          rendered'.availableProfiles = rendered.availableProfiles ++ [profile] := by
  unfold renderProfile at h
  split at h
  next hadapter =>
    cases h
    exact .inl ⟨by rw [rendersProfile, hadapter]; rfl, rfl, rfl⟩
  next adapter hadapter =>
    split at h
    next hcapabilities =>
      cases h
      exact .inl ⟨by rw [rendersProfile, hadapter, Option.any_some, hcapabilities]; rfl, rfl, rfl⟩
    next hcapabilities =>
      obtain ⟨proxy, hproxy, h⟩ := Except.bind_eq_ok.mp h
      cases Except.pure_eq_ok.mp h
      refine .inr ⟨?_, proxy, ⟨adapter, hadapter, hproxy⟩, rfl, rfl⟩
      rw [rendersProfile, hadapter, Option.any_some]
      simpa using hcapabilities

theorem renderProfiles_renders (h : profiles.foldlM (renderProfile input registry) rendered =
    .ok rendered') :
    ∃ proxies, rendered'.proxies = rendered.proxies ++ proxies ∧
      rendered'.availableProfiles =
        rendered.availableProfiles ++ profiles.filter (rendersProfile input registry) ∧
      List.Forall₂ (Renders input registry) (profiles.filter (rendersProfile input registry))
        proxies := by
  induction profiles generalizing rendered with
  | nil =>
    cases Except.pure_eq_ok.mp h
    exact ⟨[], (List.append_nil _).symm, (List.append_nil _).symm, .nil⟩
  | cons profile rest ih =>
    rw [List.foldlM_cons] at h
    obtain ⟨middle, hstep, h⟩ := Except.bind_eq_ok.mp h
    obtain ⟨proxies, hproxies, havailable, hrenders⟩ := ih h
    rcases renderProfile_renders hstep with ⟨hskip, hp, ha⟩ | ⟨htake, proxy, hproxy, hp, ha⟩
    · rw [List.filter_cons_of_neg (by simp [hskip])]
      exact ⟨proxies, hp ▸ hproxies, ha ▸ havailable, hrenders⟩
    · rw [List.filter_cons_of_pos htake]
      refine ⟨proxy :: proxies, ?_, ?_, .cons hproxy hrenders⟩
      · rw [hproxies, hp, List.append_assoc, List.singleton_append]
      · rw [havailable, ha, List.append_assoc, List.singleton_append]

theorem generate_steps {serialize : Value → Except String String}
    (h : generateMihomoYamlDetailed serialize input registry = .ok output) :
    ∃ rendered pools, (input.profiles.filter (·.enabled)).foldlM (renderProfile input registry)
        ⟨[], [], []⟩ = .ok rendered ∧
      input.policy.resolvedPools rendered.availableProfiles = .ok pools ∧
      routingRules (activeRoutingRuleSets input.routingRuleSets) input.policy
        rendered.availableProfiles = .ok output.document.rules ∧
      output.document.proxies = rendered.proxies ∧
      output.document.proxyGroups = proxyGroups pools ∧ output.warnings = rendered.warnings := by
  obtain ⟨-, h⟩ := Except.guard_eq_ok.mp h
  obtain ⟨-, h⟩ := Except.guard_eq_ok.mp h
  obtain ⟨rendered, hrendered, h⟩ := Except.bind_eq_ok.mp h
  obtain ⟨-, h⟩ := Except.guard_eq_ok.mp h
  obtain ⟨pools, hpools, h⟩ := Except.bind_eq_ok.mp h
  obtain ⟨-, -, h⟩ := Except.bind_eq_ok.mp h
  obtain ⟨rules, hrules, h⟩ := Except.bind_eq_ok.mp h
  obtain ⟨yaml, -, h⟩ := Except.bind_eq_ok.mp h
  cases Except.pure_eq_ok.mp h
  exact ⟨rendered, pools, hrendered, hpools, hrules, rfl, rfl, rfl⟩

theorem generate_exists {serialize : Value → Except String String}
    {pools : List (TransportPool × List String)} {rules : List String}
    (henabled : input.profiles.filter (·.enabled) ≠ [])
    (htoken : isEmpty (trim input.user.subscriptionToken) = false)
    (hrendered : (input.profiles.filter (·.enabled)).foldlM (renderProfile input registry)
      ⟨[], [], []⟩ = .ok rendered)
    (hproxies : rendered.proxies ≠ [])
    (hpools : input.policy.resolvedPools rendered.availableProfiles = .ok pools)
    (hdns : input.dnsPolicy.validate = .ok ())
    (hrules : routingRules (activeRoutingRuleSets input.routingRuleSets) input.policy
      rendered.availableProfiles = .ok rules)
    (hserialize : ∀ value, ∃ yaml, serialize value = .ok yaml) :
    ∃ output, generateMihomoYamlDetailed serialize input registry = .ok output := by
  rw [← List.isEmpty_eq_false_iff] at henabled hproxies
  simp only [generateMihomoYamlDetailed, henabled, htoken, hrendered, hproxies, hpools, hdns, hrules,
    bind, Except.bind, Bool.false_eq_true, if_false]
  obtain ⟨yaml, hyaml⟩ := hserialize _
  exact ⟨_, by rw [hyaml]; rfl⟩

theorem generate_yaml {serialize : Value → Except String String}
    (h : generateMihomoYamlDetailed serialize input registry = .ok output) :
    serialize output.document.toValue = .ok output.yaml := by
  obtain ⟨-, h⟩ := Except.guard_eq_ok.mp h
  obtain ⟨-, h⟩ := Except.guard_eq_ok.mp h
  obtain ⟨rendered, -, h⟩ := Except.bind_eq_ok.mp h
  obtain ⟨-, h⟩ := Except.guard_eq_ok.mp h
  obtain ⟨pools, -, h⟩ := Except.bind_eq_ok.mp h
  obtain ⟨-, -, h⟩ := Except.bind_eq_ok.mp h
  obtain ⟨rules, -, h⟩ := Except.bind_eq_ok.mp h
  obtain ⟨yaml, hyaml, h⟩ := Except.bind_eq_ok.mp h
  cases Except.pure_eq_ok.mp h
  exact hyaml

theorem generate_ok {serialize : Value → Except String String}
    (h : generateMihomoYamlDetailed serialize input registry = .ok output) :
    ∃ available pools, Generated input registry output available pools := by
  obtain ⟨rendered, pools, hrendered, hpools, hrules, -, hgroups, hwarnings⟩ := generate_steps h
  obtain ⟨hmem, hall⟩ := renderProfiles_ok hrendered
  refine ⟨rendered.availableProfiles, pools, fun p hp ↦ ?_, fun hw ↦ ?_, hpools, hgroups, hrules⟩
  · exact (hmem p hp).resolve_left (by simp)
  · exact (hall (hwarnings ▸ hw)).2

end StealthHub.Routing

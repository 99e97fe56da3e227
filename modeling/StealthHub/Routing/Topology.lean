import Mathlib.Data.List.Sort
import Mathlib.Data.Prod.Lex
import Mathlib.Data.String.Basic
import StealthHub.Data.Glob
import StealthHub.Data.OrderedMap
import StealthHub.Routing.Policy

set_option autoImplicit false

namespace StealthHub.Routing

open Text

inductive TopologyState
  | ready
  | dynamic
  | unresolved
  | unsupported
  deriving DecidableEq

inductive TargetKind
  | direct
  | reject
  | pool
  | profile
  | fallback
  | unavailable
  deriving DecidableEq

structure RuntimeResolution where
  id : String
  available : Bool
  adapterPresent : Bool

structure TopologyAvailability where
  protocolAdapters : Finset String
  profileRuntimes : OrderedMap String RuntimeResolution

inductive DomainMatcher
  | exact (value : String)
  | suffix (value : String)
  | keyword (value : String)
  | wildcard (value : String)
  | all
  deriving DecidableEq

structure TopologyPath where
  order : ℕ
  source : String
  matcher : String
  entryCount : ℕ
  target : String
  targetKind : TargetKind
  profile : Option String
  runtime : Option String
  state : TopologyState
  detail : String
  matchers : List DomainMatcher
  hasUnsupportedMatcher : Bool
  deriving DecidableEq

structure TopologyPool where
  id : String
  kind : String
  members : List String
  state : TopologyState

structure TopologyIssue where
  subject : String
  detail : String

structure RoutingTopology where
  paths : List TopologyPath
  pools : List TopologyPool
  issues : List TopologyIssue

inductive InspectionOutcome
  | matched
  | default
  | uncertain
  | invalid
  deriving DecidableEq

structure RouteInspection where
  domain : String
  outcome : InspectionOutcome
  path : Option TopologyPath
  explanation : String

def utf8Bytes (s : String) : List UInt8 := s.toList.flatMap String.utf8EncodeChar

/-- `*` is byte 42 and `?` byte 63. -/
def wildcardMatches (pattern value : List UInt8) : Bool :=
  Glob.wildcardMatches 42 63 pattern value

def DomainMatcher.matches : DomainMatcher → String → Bool
  | .exact value, domain => domain = value
  | .suffix value, domain => domain = value || endsWith domain ("." ++ value)
  | .keyword value, domain => contains domain value
  | .wildcard value, domain => wildcardMatches (utf8Bytes value) (utf8Bytes domain)
  | .all, _ => true

/-- The matcher of one rule line; `none` where inspection does not support it. -/
def domainMatcher (line : String) : Option DomainMatcher :=
  let fields := (split ',' line).map trim
  let value := toAsciiLowercase (fields.getD 1 "")
  match fields.headD "" with
  | "DOMAIN" => if isEmpty value then none else some (.exact value)
  | "DOMAIN-SUFFIX" => if isEmpty value then none else some (.suffix value)
  | "DOMAIN-KEYWORD" => if isEmpty value then none else some (.keyword value)
  | "DOMAIN-WILDCARD" => if isEmpty value then none else some (.wildcard value)
  | "MATCH" => some .all
  | _ => none

def domainMatchers (lines : List String) : List DomainMatcher × Bool :=
  (lines.filterMap domainMatcher, lines.any fun line ↦ (domainMatcher line).isNone)

def roleDebugName : ProxyRole → String
  | .autoSafe => "AutoSafe"
  | .speed => "Speed"
  | .compatibility => "Compatibility"
  | .ruAccess => "RuAccess"
  | .manual => "Manual"

def memberLabel : PoolMember → String
  | .profile value => "profile:" ++ value
  | .capability value => "capability:" ++ value
  | .role value => "role:" ++ roleDebugName value
  | .allExceptRole value => "all-except-role:" ++ roleDebugName value
  | .pool value => "pool:" ++ value
  | .allProfiles => "all-enabled-profiles"
  | .direct => "DIRECT"
  | .reject => "REJECT"

abbrev PoolIndex := OrderedMap String TransportPool

/-- What a target resolves to: its kind, the profile and the runtime behind it, the
state and its explanation. -/
structure ResolvedTarget where
  targetKind : TargetKind
  profile : Option String
  runtime : Option String
  state : TopologyState
  detail : String

def resolveProfile (profile : ProtocolProfile) (availability : TopologyAvailability) :
    ResolvedTarget :=
  let resolved (runtime : Option String) (state : TopologyState) (detail : String) :=
    ⟨.profile, some profile.name, runtime, state, detail⟩
  if !profile.enabled then
    resolved none .unresolved s!"Profile `{profile.displayName}` is disabled"
  else if profile.protocolId ∉ availability.protocolAdapters then
    resolved none .unresolved "Protocol adapter is missing"
  else
    match availability.profileRuntimes.get? profile.name with
    | none =>
      resolved none .dynamic "Runtime is selected by adapter capabilities during generation"
    | some runtime =>
      if !runtime.adapterPresent then
        resolved (some runtime.id) .unresolved "Runtime adapter is missing"
      else if !runtime.available then
        resolved (some runtime.id) .unresolved "Compatible runtime is unavailable"
      else
        resolved (some runtime.id) .ready
          s!"Profile `{profile.displayName}` and runtime are available"

def resolveTarget (target : String) (profiles : List ProtocolProfile) (pools : PoolIndex)
    (availability : TopologyAvailability) : ResolvedTarget :=
  if target = "DIRECT" then
    ⟨.direct, none, none, .ready, "Connection bypasses proxy groups"⟩
  else if target = "REJECT" then
    ⟨.reject, none, none, .ready, "Connection is rejected by the client policy"⟩
  else if pools.contains target then
    ⟨.pool, none, none, .dynamic, "Pool member selection occurs in the Mihomo client"⟩
  else
    match profiles.find? (·.name = target) with
    | some profile => resolveProfile profile availability
    | none => ⟨.unavailable, none, none, .unresolved, "Target is unavailable"⟩

def applyPoolState (resolved : ResolvedTarget) (target : String) (pools : List TopologyPool) :
    ResolvedTarget :=
  if resolved.targetKind ≠ .pool then resolved
  else
    match pools.find? (·.id = target) with
    | none => resolved
    | some pool =>
      let members := ", ".intercalate pool.members
      if pool.state = .unresolved then
        { resolved with
          state := .unresolved
          detail := "Pool cannot resolve all members: " ++ members }
      else
        { resolved with detail := "Client selects a member at runtime: " ++ members }

def pathOf (order : ℕ) (source matcher : String) (entryCount : ℕ) (target : String)
    (resolved : ResolvedTarget) (lines : List String) : TopologyPath where
  order
  source
  matcher
  entryCount
  target
  targetKind := resolved.targetKind
  profile := resolved.profile
  runtime := resolved.runtime
  state := resolved.state
  detail := resolved.detail
  matchers := (domainMatchers lines).1
  hasUnsupportedMatcher := (domainMatchers lines).2

def recordPathIssue (issues : List TopologyIssue) (path : TopologyPath) : List TopologyIssue :=
  if path.state = .unresolved ∧ !issues.any (·.subject = path.source) then
    issues ++ [⟨path.source, path.detail⟩]
  else issues

namespace RoutingTopology

variable (policy : ClientPolicy) (profiles : List ProtocolProfile)

def poolIndex : PoolIndex := .ofList (policy.enabledPools.map fun pool ↦ (pool.id, pool))

def memberUnavailable (pools : PoolIndex) : PoolMember → Bool
  | .profile id => !profiles.any fun profile ↦ profile.enabled && profile.name = id
  | .pool id => !pools.contains id
  | .capability id => !hasCapability profiles id
  | _ => false

def poolUnresolved (pool : TransportPool) : Bool :=
  pool.members.any (memberUnavailable profiles (poolIndex policy)) || pool.members.isEmpty

def topologyPool (pool : TransportPool) : TopologyPool where
  id := pool.id
  kind := pool.kind.mihomoName
  members := pool.members.map memberLabel
  state := if poolUnresolved policy profiles pool then .unresolved else .dynamic

def addPools : RoutingTopology where
  paths := []
  pools := (poolIndex policy).values.map (topologyPool policy profiles)
  issues := ((poolIndex policy).values.filter (poolUnresolved policy profiles)).map fun pool ↦
    ⟨"pool:" ++ pool.id, "Pool contains an unavailable member or resolves empty"⟩

variable (entries : OrderedMap String (List RuleEntry))
variable (sources : OrderedMap String (List RuleSetSource)) (availability : TopologyAvailability)

def compiledPayload (ruleSet : RoutingRuleSet) : Except String String :=
  compileRuleSetPayload ((entries.get? ruleSet.slug).getD []) ruleSet.payload
    ((sources.get? ruleSet.slug).getD [])

def providerLines (ruleSet : RoutingRuleSet) : List String :=
  match compiledPayload entries sources ruleSet with
  | .ok compiled => lines compiled
  | .error _ => []

def providerResolution (topology : RoutingTopology) (ruleSet : RoutingRuleSet) : ResolvedTarget :=
  let resolved := applyPoolState
    (resolveTarget ruleSet.target profiles (poolIndex policy) availability) ruleSet.target
    topology.pools
  match compiledPayload entries sources ruleSet with
  | .ok _ => resolved
  | .error error =>
    { resolved with
      state := .unresolved
      detail := s!"Provider payload is invalid: {error}" }

def providerIssues (ruleSet : RoutingRuleSet) : List TopologyIssue :=
  match compiledPayload entries sources ruleSet with
  | .ok _ => []
  | .error error =>
    [⟨"provider:" ++ ruleSet.slug, s!"Provider payload is invalid: {error}"⟩]

def addProvider (topology : RoutingTopology) (ruleSet : RoutingRuleSet) : RoutingTopology :=
  let rules := providerLines entries sources ruleSet
  let path := pathOf (topology.paths.length + 1) ("provider:" ++ ruleSet.slug)
    ("RULE-SET " ++ ruleSet.slug) rules.length ruleSet.target
    (providerResolution policy profiles entries sources availability topology ruleSet) rules
  { topology with
    paths := topology.paths ++ [path]
    issues := recordPathIssue (topology.issues ++ providerIssues entries sources ruleSet) path }

def ruleTarget (rule : RoutingPolicyRule) : String :=
  ((stripPrefix "capability:" rule.target).bind (ClientPolicy.capabilityProfile profiles)).elim
    rule.target (·.name)

def unresolvedCapability (rule : RoutingPolicyRule) : Bool :=
  startsWith rule.target "capability:" && ruleTarget profiles rule = rule.target

def ruleResolution (topology : RoutingTopology) (rule : RoutingPolicyRule) : ResolvedTarget :=
  let target := ruleTarget profiles rule
  let resolved := applyPoolState
    (resolveTarget target profiles (poolIndex policy) availability) target topology.pools
  if unresolvedCapability profiles rule then
    { resolved with
      state := .unresolved
      detail := "Capability selector resolves to no enabled profile" }
  else resolved

def ruleIssues (rule : RoutingPolicyRule) : List TopologyIssue :=
  (if unresolvedCapability profiles rule then
    [⟨"rule:" ++ rule.id, "Capability selector resolves to no enabled profile"⟩] else []) ++
  if (domainMatchers [rule.condition]).2 then
    [⟨"rule:" ++ rule.id,
      "Matcher requires runtime data or is not supported by domain inspection"⟩] else []

def addRule (topology : RoutingTopology) (rule : RoutingPolicyRule) : RoutingTopology :=
  let path := pathOf (topology.paths.length + 1) ("rule:" ++ rule.id) rule.condition 1
    (ruleTarget profiles rule) (ruleResolution policy profiles availability topology rule)
    [rule.condition]
  { topology with
    paths := topology.paths ++ [path]
    issues := recordPathIssue (topology.issues ++ ruleIssues profiles rule) path }

def fallbackPath (order : ℕ) : TopologyPath where
  order
  source := "implicit-fallback"
  matcher := "No explicit MATCH rule"
  entryCount := 0
  target := "runtime-dependent"
  targetKind := .fallback
  profile := none
  runtime := none
  state := .unresolved
  detail := "Generated policy has no explicit catch-all; no-match behavior is not asserted by Infiproxy"
  matchers := []
  hasUnsupportedMatcher := false

def addFallback (topology : RoutingTopology) : RoutingTopology :=
  if topology.paths.any fun path ↦ path.matchers.contains .all then topology
  else
    { topology with
      paths := topology.paths ++ [fallbackPath (topology.paths.length + 1)]
      issues := topology.issues ++ [⟨"fallback", "No explicit MATCH rule is configured"⟩] }

/-- `rule.priority`, then `rule.id`. -/
def ruleBefore (a b : RoutingPolicyRule) : Prop :=
  toLex (a.priority, a.id) ≤ toLex (b.priority, b.id)

instance : DecidableRel ruleBefore := fun _ _ ↦ inferInstanceAs (Decidable (toLex _ ≤ toLex _))

def inlineRules : List RoutingPolicyRule :=
  (policy.rules.filter (·.enabled)).insertionSort ruleBefore

def build (ruleSets : List RoutingRuleSet) : RoutingTopology :=
  let topology := (ruleSets.filter (·.enabled)).foldl
    (addProvider policy profiles entries sources availability) (addPools policy profiles)
  let topology := (inlineRules policy).foldl (addRule policy profiles availability) topology
  topology.addFallback

end RoutingTopology

def validLabel (label : String) : Bool :=
  !isEmpty label && len label ≤ 63 && !startsWith label "-" && !endsWith label "-" &&
    label.toList.all fun c ↦ isAsciiAlphanumeric c || c = '-'

def validDomain (domain : String) : Bool :=
  !isEmpty domain && len domain ≤ 253 && (split '.' domain).all validLabel

def normalizeDomain (domain : String) : String :=
  toAsciiLowercase (trimEndMatches '.' (trim domain))

namespace RoutingTopology

def inspectPaths (domain : String) : List TopologyPath → Option RouteInspection
  | [] => none
  | path :: rest =>
    if path.matchers.any (·.matches domain) then
      some ⟨domain, .matched, some path, s!"First definite match is route #{path.order}"⟩
    else if path.hasUnsupportedMatcher then
      some ⟨domain, .uncertain, some path,
        s!"Route #{path.order} contains IP, process, regex or other runtime-dependent matching before any later definite match"⟩
    else inspectPaths domain rest

def inspectDomain (topology : RoutingTopology) (rawDomain : String) : RouteInspection :=
  let domain := normalizeDomain rawDomain
  if !validDomain domain then
    ⟨domain, .invalid, none, "Enter a host name containing only DNS labels"⟩
  else
    (inspectPaths domain topology.paths).getD
      ⟨domain, .default, topology.paths.find? (·.targetKind = .fallback),
        "No configured domain rule definitely matches; no explicit catch-all is available"⟩

end RoutingTopology

end StealthHub.Routing

import Mathlib.Data.Finset.Insert
import Mathlib.Data.List.Sort
import StealthHub.Data.IpAddr
import StealthHub.Models
import StealthHub.Routing.Rules

set_option autoImplicit false

namespace StealthHub.Routing

open Text

inductive PoolKind
  | select
  | urlTest
  | fallback
  | loadBalance
  deriving DecidableEq

def PoolKind.mihomoName : PoolKind → String
  | .select => "select"
  | .urlTest => "url-test"
  | .fallback => "fallback"
  | .loadBalance => "load-balance"

inductive PoolMember
  | profile (id : String)
  | capability (id : String)
  | role (role : ProxyRole)
  | allExceptRole (role : ProxyRole)
  | pool (id : String)
  | allProfiles
  | direct
  | reject
  deriving DecidableEq

structure TransportPool where
  id : String
  displayName : String
  kind : PoolKind
  enabled : Bool
  members : List PoolMember
  testUrl : Option String
  intervalSeconds : Option ℕ
  timeoutMs : Option ℕ
  toleranceMs : Option ℕ
  maxFailures : Option ℕ
  lazy : Bool
  minimumHealthyCount : Option ℕ
  fallbackPool : Option String
  priority : Int
  strategy : Option String
  deriving DecidableEq

/-- One ordered inline rule. -/
structure RoutingPolicyRule where
  id : String
  displayName : String
  enabled : Bool
  priority : Int
  condition : String
  target : String
  deriving DecidableEq

structure ClientPolicy where
  pools : List TransportPool
  rules : List RoutingPolicyRule
  deriving DecidableEq

structure DnsPolicy where
  enabled : Bool
  ipv6 : Bool
  enhancedMode : String
  respectRules : Bool
  bootstrapResolvers : List String
  remoteResolvers : List String
  directResolvers : List String

def validResolver (resolver : String) : Bool :=
  !isEmpty resolver && len resolver ≤ 256 && !hasControl resolver &&
    (resolver = "system" || isIpAddr resolver ||
      ["https://", "tls://", "quic://", "udp://", "tcp://"].any fun p ↦ startsWith resolver p)

def DnsPolicy.validate (policy : DnsPolicy) : Except String Unit :=
  if policy.enhancedMode ≠ "redir-host" ∧ policy.enhancedMode ≠ "fake-ip" then
    .error "unsupported DNS enhanced mode"
  else if !(policy.bootstrapResolvers ++ policy.remoteResolvers ++ policy.directResolvers).all
      validResolver then
    .error "invalid DNS resolver"
  else if policy.enabled && (policy.bootstrapResolvers.isEmpty ||
      policy.remoteResolvers.isEmpty || policy.directResolvers.isEmpty) then
    .error "enabled DNS policy requires bootstrap, remote, and direct resolvers"
  else .ok ()

def defaultDnsPolicy : DnsPolicy where
  enabled := true
  ipv6 := false
  enhancedMode := "redir-host"
  respectRules := true
  bootstrapResolvers := ["1.1.1.1", "9.9.9.9"]
  remoteResolvers := ["https://cloudflare-dns.com/dns-query", "https://dns.quad9.net/dns-query"]
  directResolvers := ["system"]

def validatePolicyId (value : String) : Except String Unit :=
  if isEmpty value || 64 < len value ||
      !value.toList.all fun c ↦ isAsciiAlphanumeric c || c = '-' || c = '_' then
    .error "invalid policy identity"
  else .ok ()

def TransportPool.children (pool : TransportPool) : List String :=
  (pool.members.filterMap fun
    | .pool id => some id
    | _ => none) ++ pool.fallbackPool.toList

/-- Depth-first search for a reference cycle. No pool is visited twice on one path,
so a search with more fuel than pools does not run out. -/
def detectCycle (root : String) (pools : List TransportPool) :
    ℕ → String → Finset String → Except String Unit
  | 0, _, _ => .error "transport pool references contain a cycle"
  | fuel + 1, current, visiting =>
    match pools.find? fun pool ↦ pool.enabled && pool.id = current with
    | none => .ok ()
    | some pool =>
      if pool.id ∈ visiting then .error "transport pool references contain a cycle"
      else
        pool.children.forM fun child ↦
          if child = root then .error "transport pool references contain a cycle"
          else detectCycle root pools fuel child (insert pool.id visiting)

def enabledProfileNames (profiles : List ProtocolProfile) : List String :=
  (profiles.filter (·.enabled)).map (·.name)

def hasCapability (profiles : List ProtocolProfile) (capability : String) : Bool :=
  profiles.any fun profile ↦ profile.enabled && profile.protocolId = capability

namespace ClientPolicy

def enabledPools (policy : ClientPolicy) : List TransportPool := policy.pools.filter (·.enabled)

def enabledPoolIds (policy : ClientPolicy) : List String := policy.enabledPools.map (·.id)

def validatePoolIdentity (pool : TransportPool) : Except String Unit := do
  validatePolicyId pool.id
  if isEmpty (trim pool.displayName) || 80 < len pool.displayName then
    throw "transport pool display name is invalid"
  else return ()

def validateMember (policy : ClientPolicy) (profiles : List ProtocolProfile) :
    PoolMember → Except String Unit
  | .profile id =>
    if id ∉ enabledProfileNames profiles then
      .error "transport pool references an unavailable profile"
    else .ok ()
  | .capability id =>
    if !hasCapability profiles id then
      .error "transport pool capability selector resolves to no profile"
    else .ok ()
  | .pool id =>
    if id ∉ policy.enabledPoolIds then .error "transport pool references an unavailable pool"
    else .ok ()
  | _ => .ok ()

def validatePool (policy : ClientPolicy) (profiles : List ProtocolProfile)
    (pool : TransportPool) : Except String Unit :=
  if pool.members.isEmpty then .error "transport pool must contain at least one member"
  else do
    pool.members.forM (policy.validateMember profiles)
    if pool.fallbackPool.any fun fallback ↦
        fallback = pool.id || !policy.enabledPoolIds.contains fallback then
      throw "transport pool fallback reference is invalid"
    else if pool.timeoutMs = some 0 ∨ pool.intervalSeconds = some 0 ∨
        pool.maxFailures = some 0 ∨ pool.minimumHealthyCount = some 0 then
      throw "transport pool numeric limits must be positive"
    else if pool.testUrl.any fun url ↦
        !startsWith url "https://" || 512 < len url || hasControl url then
      throw "transport pool health URL must be bounded HTTPS"
    else if pool.strategy.any fun strategy ↦
        strategy ∉ ["round-robin", "consistent-hashing", "sticky-sessions"] then
      throw "unsupported load-balance strategy"
    else detectCycle pool.id policy.pools (policy.pools.length + 1) pool.id ∅

def validTarget (policy : ClientPolicy) (profiles : List ProtocolProfile) (target : String) :
    Bool :=
  target = "DIRECT" || target = "REJECT" || policy.enabledPoolIds.contains target ||
    (enabledProfileNames profiles).contains target ||
    (stripPrefix "capability:" target).any (hasCapability profiles)

def validateCondition (rule : RoutingPolicyRule) : Except String Unit :=
  if trim rule.condition ≠ "MATCH" then do
    let _ ← classicalRuleWithTarget (trim rule.condition) rule.target
    return ()
  else .ok ()

def validateRule (policy : ClientPolicy) (profiles : List ProtocolProfile)
    (rule : RoutingPolicyRule) : Except String Unit := do
  validatePolicyId rule.id
  if isEmpty (trim rule.displayName) || 80 < len rule.displayName then
    throw "routing policy display name is invalid"
  else if !rule.enabled then return ()
  else if isEmpty (trim rule.condition) || containsChar rule.condition '\n' then
    throw "routing policy condition is invalid"
  else
    validateCondition rule
    if !policy.validTarget profiles rule.target then
      throw "routing policy references an unavailable target"
    else return ()

def validate (policy : ClientPolicy) (profiles : List ProtocolProfile) : Except String Unit :=
  if ¬(policy.pools.map (·.id)).Nodup then .error "transport pool IDs must be unique"
  else do
    policy.pools.forM validatePoolIdentity
    policy.enabledPools.forM (policy.validatePool profiles)
    if ¬(policy.rules.map (·.id)).Nodup then throw "routing policy IDs must be unique"
    else policy.rules.forM (policy.validateRule profiles)

/-- The names that a selector stands for, among the enabled profiles. -/
def resolveMember (enabled : List ProtocolProfile) : PoolMember → List String
  | .profile id => [id]
  | .pool id => [id]
  | .capability capability =>
    (enabled.filter (·.protocolId = capability)).map (·.name)
  | .role role => (enabled.filter (·.role = role)).map (·.name)
  | .allExceptRole role => (enabled.filter (·.role ≠ role)).map (·.name)
  | .allProfiles => enabled.map (·.name)
  | .direct => ["DIRECT"]
  | .reject => ["REJECT"]

def resolvePool (enabled : List ProtocolProfile) (pool : TransportPool) :
    Except String (TransportPool × List String) :=
  let members := retainFirst id [] (pool.members.flatMap (resolveMember enabled))
  if members.isEmpty then .error "transport pool resolves to no members" else .ok (pool, members)

def resolvedPools (policy : ClientPolicy) (profiles : List ProtocolProfile) :
    Except String (List (TransportPool × List String)) := do
  policy.validate profiles
  policy.enabledPools.mapM (resolvePool (profiles.filter (·.enabled)))

def capabilityProfile (profiles : List ProtocolProfile) (capability : String) :
    Option ProtocolProfile :=
  profiles.find? fun profile ↦ profile.enabled && profile.protocolId = capability

def resolveRule (profiles : List ProtocolProfile) (rule : RoutingPolicyRule) :
    Except String (String × String) :=
  match stripPrefix "capability:" rule.target with
  | some capability =>
    match capabilityProfile profiles capability with
    | some profile => .ok (rule.condition, profile.name)
    | none => .error "routing capability has no profile"
  | none => .ok (rule.condition, rule.target)

def resolvedRules (policy : ClientPolicy) (profiles : List ProtocolProfile) :
    Except String (List (String × String)) := do
  policy.validate profiles
  let rules := (policy.rules.filter (·.enabled)).insertionSort (·.priority ≤ ·.priority)
  rules.mapM (resolveRule profiles)

end ClientPolicy

def defaultDirectGeositeCategories : List String :=
  ["private", "category-ru-whitelist", "category-gov-ru", "ru-banks", "ru-payments",
    "ru-finance", "ru-marking", "ru-cdn", "ru-retail-extra", "ru-transport", "ru-tv", "yandex",
    "mailru-group", "vk", "ozon", "wildberries", "x5", "avito", "dzen", "rutube", "ok", "okko",
    "wink", "2gis"]

def automaticPool (id : String) (kind : PoolKind) (members : List PoolMember) (timeoutMs : ℕ)
    (toleranceMs : Option ℕ) (priority : Int) : TransportPool where
  id
  displayName := id
  kind
  enabled := true
  members
  testUrl := some "https://www.gstatic.com/generate_204"
  intervalSeconds := some 60
  timeoutMs := some timeoutMs
  toleranceMs
  maxFailures := some 5
  lazy := false
  minimumHealthyCount := none
  fallbackPool := none
  priority
  strategy := none

def manualPool : TransportPool where
  id := "MANUAL"
  displayName := "MANUAL"
  kind := .select
  enabled := true
  members := [.pool "SMART-AUTO", .pool "FAST-AUTO", .pool "REST-AUTO", .allProfiles, .direct]
  testUrl := none
  intervalSeconds := none
  timeoutMs := none
  toleranceMs := none
  maxFailures := none
  lazy := true
  minimumHealthyCount := none
  fallbackPool := none
  priority := 130
  strategy := none

def defaultClientPolicy : ClientPolicy where
  pools :=
    [automaticPool "FAST-AUTO" .urlTest [.role .speed] 500 (some 50) 100,
      automaticPool "REST-AUTO" .urlTest [.allExceptRole .speed] 3000 (some 50) 110,
      automaticPool "SMART-AUTO" .fallback [.pool "FAST-AUTO", .pool "REST-AUTO"] 3000 none 120,
      manualPool]
  rules :=
    (defaultDirectGeositeCategories.zipIdx.map fun (category, position) ↦
      ⟨"direct-geosite-" ++ category, "Direct geosite " ++ category, true, 100 + position,
        "GEOSITE," ++ category, "DIRECT"⟩) ++
    [⟨"private-10", "Private 10/8", true, 200, "IP-CIDR,10.0.0.0/8,no-resolve", "DIRECT"⟩,
      ⟨"private-172", "Private 172.16/12", true, 210, "IP-CIDR,172.16.0.0/12,no-resolve",
        "DIRECT"⟩,
      ⟨"private-192", "Private 192.168/16", true, 220, "IP-CIDR,192.168.0.0/16,no-resolve",
        "DIRECT"⟩,
      ⟨"geoip-ru", "Russian IP ranges", true, 300, "GEOIP,RU,no-resolve", "DIRECT"⟩,
      ⟨"catch-all", "Default route", true, 1000, "MATCH", "SMART-AUTO"⟩]

end StealthHub.Routing

import StealthHub.Data.Acyclic
import StealthHub.Routing.Policy

set_option autoImplicit false

namespace StealthHub.Routing

open Text Relation

variable {policy : ClientPolicy} {profiles : List ProtocolProfile} {pool : TransportPool}
variable {rule : RoutingPolicyRule} {pools : List TransportPool} {fuel : ℕ} {root current : String}
variable {visiting : Finset String}

def RefersIn (pools : List TransportPool) (a b : String) : Prop :=
  ∃ pool, (pools.find? fun pool ↦ pool.enabled && pool.id = a) = some pool ∧ b ∈ pool.children

theorem detectCycle_ok (h : detectCycle root pools fuel current visiting = .ok ()) :
    ¬TransGen (RefersIn pools) current root := by
  induction fuel generalizing current visiting with
  | zero => cases h
  | succ fuel ih =>
    intro hpath
    obtain ⟨child, ⟨pool, hfind, hchild⟩, hrest⟩ := TransGen.head'_iff.mp hpath
    simp only [detectCycle, hfind] at h
    split at h
    · cases h
    · have hvisit := Except.forM_eq_ok.mp h child hchild
      split at hvisit
      · cases hvisit
      next hne =>
        rcases reflTransGen_iff_eq_or_transGen.mp hrest with heq | htrans
        · exact hne heq.symm
        · exact ih hvisit htrans

/-- The positive limits and the bounded texts of a pool. -/
structure TransportPool.Limited (pool : TransportPool) : Prop where
  limits : ¬(pool.timeoutMs = some 0 ∨ pool.intervalSeconds = some 0 ∨
    pool.maxFailures = some 0 ∨ pool.minimumHealthyCount = some 0)
  url : ¬(pool.testUrl.any fun url ↦
    !startsWith url "https://" || 512 < len url || hasControl url) = true
  strategy : ¬(pool.strategy.any fun strategy ↦
    strategy ∉ ["round-robin", "consistent-hashing", "sticky-sessions"]) = true

/-- The part of the validation of an enabled pool that no profile enters. -/
structure ClientPolicy.PoolFormed (policy : ClientPolicy) (pool : TransportPool) : Prop where
  nonempty : pool.members ≠ []
  fallback : ¬(pool.fallbackPool.any fun fallback ↦
    fallback = pool.id || !policy.enabledPoolIds.contains fallback) = true
  limited : pool.Limited
  search : detectCycle pool.id policy.pools (policy.pools.length + 1) pool.id ∅ = .ok ()

/-- The part of the validation of a rule that neither a pool nor a profile enters. -/
structure RoutingPolicyRule.Formed (rule : RoutingPolicyRule) : Prop where
  id : validatePolicyId rule.id = .ok ()
  name : ¬(isEmpty (trim rule.displayName) || 80 < len rule.displayName) = true
  condition : rule.enabled = true →
    ¬(isEmpty (trim rule.condition) || containsChar rule.condition '\n') = true
  line : rule.enabled = true → ClientPolicy.validateCondition rule = .ok ()

/-- The part of the validation that no profile enters. -/
structure ClientPolicy.Formed (policy : ClientPolicy) : Prop where
  poolIds : (policy.pools.map (·.id)).Nodup
  identities : ∀ pool ∈ policy.pools, validatePoolIdentity pool = .ok ()
  pools : ∀ pool ∈ policy.enabledPools, policy.PoolFormed pool
  ruleIds : (policy.rules.map (·.id)).Nodup
  rules : ∀ rule ∈ policy.rules, rule.Formed

/-- Every selector and target of an enabled pool or rule is available. -/
structure ClientPolicy.Closed (policy : ClientPolicy) (profiles : List ProtocolProfile) :
    Prop where
  members : ∀ pool ∈ policy.enabledPools, ∀ member ∈ pool.members,
    policy.validateMember profiles member = .ok ()
  targets : ∀ rule ∈ policy.rules, rule.enabled = true →
    policy.validTarget profiles rule.target = true

theorem mem_enabledProfileNames {name : String} : name ∈ enabledProfileNames profiles ↔
    ∃ profile ∈ profiles, profile.enabled = true ∧ profile.name = name := by
  simp [enabledProfileNames, and_assoc]

theorem hasCapability_iff {capability : String} : hasCapability profiles capability = true ↔
    ∃ profile ∈ profiles, profile.enabled = true ∧ profile.protocolId = capability := by
  simp [hasCapability]

theorem validateMember_profile {id : String} :
    policy.validateMember profiles (.profile id) = .ok () ↔ id ∈ enabledProfileNames profiles := by
  by_cases h : id ∈ enabledProfileNames profiles
  · simp [ClientPolicy.validateMember, h]
  · simp [ClientPolicy.validateMember, h]

theorem validateMember_capability {id : String} :
    policy.validateMember profiles (.capability id) = .ok () ↔ hasCapability profiles id = true := by
  by_cases h : hasCapability profiles id = true
  · simp [ClientPolicy.validateMember, h]
  · simp [ClientPolicy.validateMember, h]

theorem validatePool_ok : policy.validatePool profiles pool = .ok () ↔
    policy.PoolFormed pool ∧ ∀ member ∈ pool.members,
      policy.validateMember profiles member = .ok () := by
  simp only [ClientPolicy.validatePool]
  constructor
  · intro h
    split at h
    · cases h
    next hne =>
      obtain ⟨⟨⟩, hmembers, h⟩ := Except.bind_eq_ok.mp h
      obtain ⟨hfallback, h⟩ := Except.guard_eq_ok.mp h
      obtain ⟨hlimits, h⟩ := Except.guard_eq_ok.mp h
      obtain ⟨hurl, h⟩ := Except.guard_eq_ok.mp h
      obtain ⟨hstrategy, h⟩ := Except.guard_eq_ok.mp h
      exact ⟨⟨by simpa using hne, hfallback, ⟨hlimits, hurl, hstrategy⟩, h⟩,
        Except.forM_eq_ok.mp hmembers⟩
  · rintro ⟨⟨hne, hfallback, ⟨hlimits, hurl, hstrategy⟩, hsearch⟩, hmembers⟩
    rw [if_neg (by simpa using hne)]
    exact Except.bind_eq_ok.mpr ⟨(), Except.forM_eq_ok.mpr hmembers,
      Except.guard_eq_ok.mpr ⟨hfallback, Except.guard_eq_ok.mpr ⟨hlimits,
        Except.guard_eq_ok.mpr ⟨hurl, Except.guard_eq_ok.mpr ⟨hstrategy, hsearch⟩⟩⟩⟩⟩

theorem validateRule_ok : policy.validateRule profiles rule = .ok () ↔
    rule.Formed ∧ (rule.enabled = true → policy.validTarget profiles rule.target = true) := by
  cases henabled : rule.enabled with
  | false =>
    simp only [ClientPolicy.validateRule, henabled, Bool.not_false, if_true]
    constructor
    · intro h
      obtain ⟨⟨⟩, hid, h⟩ := Except.bind_eq_ok.mp h
      obtain ⟨hname, -⟩ := Except.guard_eq_ok.mp h
      exact ⟨⟨hid, hname, by simp [henabled], by simp [henabled]⟩, nofun⟩
    · rintro ⟨hformed, -⟩
      exact Except.bind_eq_ok.mpr ⟨(), hformed.id, Except.guard_eq_ok.mpr ⟨hformed.name, rfl⟩⟩
  | true =>
    simp only [ClientPolicy.validateRule, henabled, Bool.not_true, Bool.false_eq_true, if_false]
    constructor
    · intro h
      obtain ⟨⟨⟩, hid, h⟩ := Except.bind_eq_ok.mp h
      obtain ⟨hname, h⟩ := Except.guard_eq_ok.mp h
      obtain ⟨hcondition, h⟩ := Except.guard_eq_ok.mp h
      obtain ⟨⟨⟩, hline, h⟩ := Except.bind_eq_ok.mp h
      obtain ⟨htarget, -⟩ := Except.guard_eq_ok.mp h
      exact ⟨⟨hid, hname, fun _ ↦ hcondition, fun _ ↦ hline⟩, fun _ ↦ by simpa using htarget⟩
    · rintro ⟨hformed, htarget⟩
      exact Except.bind_eq_ok.mpr ⟨(), hformed.id, Except.guard_eq_ok.mpr ⟨hformed.name,
        Except.guard_eq_ok.mpr ⟨hformed.condition henabled, Except.bind_eq_ok.mpr
          ⟨(), hformed.line henabled, Except.guard_eq_ok.mpr ⟨by simp [htarget trivial], rfl⟩⟩⟩⟩⟩

theorem validate_ok : policy.validate profiles = .ok () ↔
    policy.Formed ∧ policy.Closed profiles := by
  simp only [ClientPolicy.validate]
  constructor
  · intro h
    split at h
    · cases h
    next hpoolIds =>
      obtain ⟨⟨⟩, hidentities, h⟩ := Except.bind_eq_ok.mp h
      obtain ⟨⟨⟩, hpools, h⟩ := Except.bind_eq_ok.mp h
      obtain ⟨hruleIds, h⟩ := Except.guard_eq_ok.mp h
      have hpools := fun pool hpool ↦ validatePool_ok.mp (Except.forM_eq_ok.mp hpools pool hpool)
      have hrules := fun rule hrule ↦ validateRule_ok.mp (Except.forM_eq_ok.mp h rule hrule)
      exact ⟨⟨not_not.mp hpoolIds, Except.forM_eq_ok.mp hidentities,
        fun pool hpool ↦ (hpools pool hpool).1, not_not.mp hruleIds,
        fun rule hrule ↦ (hrules rule hrule).1⟩,
        fun pool hpool ↦ (hpools pool hpool).2, fun rule hrule ↦ (hrules rule hrule).2⟩
  · rintro ⟨hformed, hclosed⟩
    rw [if_neg (not_not.mpr hformed.poolIds)]
    refine Except.bind_eq_ok.mpr ⟨(), Except.forM_eq_ok.mpr hformed.identities,
      Except.bind_eq_ok.mpr ⟨(), Except.forM_eq_ok.mpr fun pool hpool ↦ ?_,
        Except.guard_eq_ok.mpr ⟨not_not.mpr hformed.ruleIds,
          Except.forM_eq_ok.mpr fun rule hrule ↦ ?_⟩⟩⟩
    · exact validatePool_ok.mpr ⟨hformed.pools pool hpool, hclosed.members pool hpool⟩
    · exact validateRule_ok.mpr ⟨hformed.rules rule hrule, hclosed.targets rule hrule⟩

/-- An enabled pool of one name refers to another, as a member or as its fallback. -/
def ClientPolicy.Refers (policy : ClientPolicy) (a b : String) : Prop :=
  ∃ pool ∈ policy.enabledPools, pool.id = a ∧ b ∈ pool.children

theorem mem_enabledPools : pool ∈ policy.enabledPools ↔
    pool ∈ policy.pools ∧ pool.enabled = true :=
  List.mem_filter

theorem find?_enabled (hids : (policy.pools.map (·.id)).Nodup) (hpool : pool ∈ policy.enabledPools) :
    (policy.pools.find? fun other ↦ other.enabled && other.id = pool.id) = some pool := by
  obtain ⟨hmem, henabled⟩ := mem_enabledPools.mp hpool
  cases hfind : policy.pools.find? fun other ↦ other.enabled && other.id = pool.id with
  | none =>
    have hnone := List.find?_eq_none.mp hfind pool hmem
    simp [henabled] at hnone
  | some other =>
    have hother : other.enabled = true ∧ other.id = pool.id := by
      simpa using List.find?_some hfind
    rw [List.inj_on_of_nodup_map hids (List.mem_of_find?_eq_some hfind) hmem hother.2]

theorem ClientPolicy.Formed.acyclic (h : policy.Formed) : Acyclic policy.Refers := by
  intro a hcycle
  have hfinds : ∀ a b, policy.Refers a b → RefersIn policy.pools a b := by
    rintro a b ⟨pool, hpool, rfl, hb⟩
    exact ⟨pool, find?_enabled h.poolIds hpool, hb⟩
  obtain ⟨b, ⟨pool, hpool, rfl, -⟩, -⟩ := TransGen.head'_iff.mp hcycle
  exact detectCycle_ok (h.pools pool hpool).search (TransGen.mono hfinds _ _ hcycle)

end StealthHub.Routing

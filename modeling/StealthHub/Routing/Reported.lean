import StealthHub.Routing.Explained
import StealthHub.Routing.Validation

set_option autoImplicit false

namespace StealthHub.Routing

open Text

variable {policy : ClientPolicy} {profiles : List ProtocolProfile} {pool : TransportPool}
variable {rule : RoutingPolicyRule} {topology : RoutingTopology}

/-- An enabled pool that refers to something unavailable, or resolves to no member. -/
def BrokenPool (policy : ClientPolicy) (profiles : List ProtocolProfile) (pool : TransportPool) :
    Prop :=
  (∃ member ∈ pool.members, policy.validateMember profiles member ≠ .ok ()) ∨
    (∃ fallback ∈ pool.fallbackPool, fallback ∉ policy.enabledPoolIds) ∨
      pool.members.flatMap (ClientPolicy.resolveMember (profiles.filter (·.enabled))) = []

/-- An enabled rule with an unavailable target. -/
def BrokenRule (policy : ClientPolicy) (profiles : List ProtocolProfile)
    (rule : RoutingPolicyRule) : Prop :=
  policy.validTarget profiles rule.target = false ∨
    ∃ capability, stripPrefix "capability:" rule.target = some capability ∧
      ClientPolicy.capabilityProfile profiles capability = none

/-- The texts of the pools and rules are well-formed, each for itself. -/
structure ClientPolicy.TextsFormed (policy : ClientPolicy) : Prop where
  poolIds : (policy.pools.map (·.id)).Nodup
  identities : ∀ pool ∈ policy.pools, validatePoolIdentity pool = .ok ()
  limited : ∀ pool ∈ policy.enabledPools, pool.Limited
  fallback : ∀ pool ∈ policy.enabledPools, pool.fallbackPool ≠ some pool.id
  ruleIds : (policy.rules.map (·.id)).Nodup
  rules : ∀ rule ∈ policy.rules, rule.Formed

def RoutingTopology.ReportsPool (topology : RoutingTopology) (id : String) : Prop :=
  (∃ pool ∈ topology.pools, pool.id = id ∧ pool.state = .unresolved) ∧
    ∃ issue ∈ topology.issues, issue.subject = "pool:" ++ id

def RoutingTopology.ReportsRule (topology : RoutingTopology) (id : String) : Prop :=
  (∃ path ∈ topology.paths, path.source = "rule:" ++ id ∧ path.state = .unresolved) ∧
    ∃ issue ∈ topology.issues, issue.subject = "rule:" ++ id

/-- Every broken pool and rule is reported. -/
structure RoutingTopology.Reports (topology : RoutingTopology) (policy : ClientPolicy)
    (profiles : List ProtocolProfile) : Prop where
  pools : ∀ pool ∈ policy.enabledPools, BrokenPool policy profiles pool →
    topology.ReportsPool pool.id
  rules : ∀ rule ∈ policy.rules, rule.enabled = true → BrokenRule policy profiles rule →
    topology.ReportsRule rule.id

theorem resolvedPools_of_valid (hvalid : policy.validate profiles = .ok ())
    (hpools : ∀ pool ∈ policy.enabledPools, ¬BrokenPool policy profiles pool) :
    ∃ resolved, policy.resolvedPools profiles = .ok resolved := by
  obtain ⟨resolved, hresolved⟩ : ∃ resolved, policy.enabledPools.mapM
      (ClientPolicy.resolvePool (profiles.filter (·.enabled))) = .ok resolved := by
    refine Except.exists_mapM_ok fun pool hpool ↦ ?_
    have hmembers := fun h ↦ hpools pool hpool (.inr (.inr h))
    refine ⟨_, if_neg ?_⟩
    rw [List.isEmpty_iff, retainFirst_eq_nil]
    exact hmembers
  exact ⟨resolved, Except.bind_eq_ok.mpr ⟨(), hvalid, hresolved⟩⟩

theorem resolvedRules_of_valid (hvalid : policy.validate profiles = .ok ())
    (hrules : ∀ rule ∈ policy.rules, rule.enabled = true → ¬BrokenRule policy profiles rule) :
    ∃ resolved, policy.resolvedRules profiles = .ok resolved := by
  obtain ⟨resolved, hresolved⟩ : ∃ resolved,
      ((policy.rules.filter (·.enabled)).insertionSort (·.priority ≤ ·.priority)).mapM
        (ClientPolicy.resolveRule profiles) = .ok resolved := by
    refine Except.exists_mapM_ok fun rule hrule ↦ ?_
    rw [List.mem_insertionSort, List.mem_filter] at hrule
    have hbroken := hrules rule hrule.1 hrule.2
    unfold ClientPolicy.resolveRule
    cases hstrip : stripPrefix "capability:" rule.target with
    | none => exact ⟨_, rfl⟩
    | some capability =>
      cases hprofile : ClientPolicy.capabilityProfile profiles capability with
      | none => exact absurd (.inr ⟨capability, hstrip, hprofile⟩) hbroken
      | some profile =>
        simp only [hprofile]
        exact ⟨_, rfl⟩
  exact ⟨resolved, Except.bind_eq_ok.mpr ⟨(), hvalid, hresolved⟩⟩

theorem validate_of_unbroken (htexts : policy.TextsFormed)
    (hpools : ∀ pool ∈ policy.enabledPools, ¬BrokenPool policy profiles pool)
    (hrules : ∀ rule ∈ policy.rules, rule.enabled = true → ¬BrokenRule policy profiles rule)
    (hsearch : ∀ pool ∈ policy.enabledPools,
      detectCycle pool.id policy.pools (policy.pools.length + 1) pool.id ∅ = .ok ()) :
    policy.validate profiles = .ok () := by
  refine validate_ok.mpr ⟨⟨htexts.poolIds, htexts.identities, fun pool hpool ↦ ?_, htexts.ruleIds,
    htexts.rules⟩, fun pool hpool member hmember ↦ ?_, fun rule hrule henabled ↦ ?_⟩
  · have hbroken := hpools pool hpool
    refine ⟨?_, ?_, htexts.limited pool hpool, hsearch pool hpool⟩
    · intro hempty
      exact hbroken (.inr (.inr (by rw [hempty]; rfl)))
    · intro hany
      obtain ⟨fallback, hfallback, hwrong⟩ := (Option.any_eq_true _ _).mp hany
      simp only [Bool.or_eq_true, decide_eq_true_eq] at hwrong
      rcases hwrong with rfl | hunavailable
      · exact htexts.fallback pool hpool hfallback
      · exact hbroken (.inr (.inl ⟨fallback, hfallback, by simpa using hunavailable⟩))
  · by_contra hmemberFails
    exact hpools pool hpool (.inl ⟨member, hmember, hmemberFails⟩)
  · by_contra htarget
    exact hrules rule hrule henabled (.inl (by simpa using htarget))

theorem failure_cases (htexts : policy.TextsFormed)
    (hfails : (∃ message, policy.resolvedPools profiles = .error message) ∨
      ∃ message, policy.resolvedRules profiles = .error message) :
    (∃ pool ∈ policy.enabledPools, BrokenPool policy profiles pool) ∨
      (∃ rule ∈ policy.rules, rule.enabled = true ∧ BrokenRule policy profiles rule) ∨
        ∃ pool ∈ policy.enabledPools,
          detectCycle pool.id policy.pools (policy.pools.length + 1) pool.id ∅ ≠ .ok () := by
  by_contra hnone
  push Not at hnone
  obtain ⟨hpools, hrules, hsearch⟩ := hnone
  have hvalid := validate_of_unbroken htexts hpools hrules hsearch
  obtain ⟨pools, hpools⟩ := resolvedPools_of_valid hvalid hpools
  obtain ⟨rules, hrules⟩ := resolvedRules_of_valid hvalid hrules
  rcases hfails with ⟨message, h⟩ | ⟨message, h⟩
  · cases hpools.symm.trans h
  · cases hrules.symm.trans h

section Pools

variable (hids : (policy.pools.map (·.id)).Nodup)

include hids

theorem enabledPool_ids : (policy.enabledPools.map (·.id)).Nodup :=
  hids.sublist (List.filter_sublist.map _)

theorem poolIndex_get? {id : String} :
    (RoutingTopology.poolIndex policy).get? id = some pool ↔
      pool ∈ policy.enabledPools ∧ pool.id = id := by
  have hkeys : ((policy.enabledPools.map fun pool ↦ (pool.id, pool)).map Prod.fst).Nodup := by
    rw [List.map_map]
    exact enabledPool_ids hids
  rw [RoutingTopology.poolIndex, OrderedMap.get?_ofList_iff hkeys]
  simp only [List.mem_map, Prod.mk.injEq]
  constructor
  · rintro ⟨other, hother, rfl, rfl⟩
    exact ⟨hother, rfl⟩
  · rintro ⟨hpool, rfl⟩
    exact ⟨pool, hpool, rfl, rfl⟩

theorem mem_poolIndex_values : pool ∈ (RoutingTopology.poolIndex policy).values ↔
    pool ∈ policy.enabledPools := by
  rw [OrderedMap.mem_values]
  constructor
  · rintro ⟨id, hid⟩
    exact ((poolIndex_get? hids).mp hid).1
  · exact fun h ↦ ⟨pool.id, (poolIndex_get? hids).mpr ⟨h, rfl⟩⟩

theorem poolIndex_contains {id : String} :
    (RoutingTopology.poolIndex policy).contains id = true ↔ id ∈ policy.enabledPoolIds := by
  rw [OrderedMap.contains_iff, OrderedMap.mem_keys, ClientPolicy.enabledPoolIds, List.mem_map]
  exact exists_congr fun pool ↦ poolIndex_get? hids

theorem memberUnavailable_iff {member : PoolMember} :
    RoutingTopology.memberUnavailable profiles (RoutingTopology.poolIndex policy) member = true ↔
      policy.validateMember profiles member ≠ .ok () := by
  cases member with
  | profile id =>
    have hnames : (profiles.any fun profile ↦ profile.enabled && profile.name = id) = true ↔
        id ∈ enabledProfileNames profiles := by
      simp [enabledProfileNames, and_assoc]
    simp only [RoutingTopology.memberUnavailable, ClientPolicy.validateMember, Bool.not_eq_true',
      ← Bool.not_eq_true, hnames]
    by_cases h : id ∈ enabledProfileNames profiles
    · simp [h]
    · simp [h]
  | capability id =>
    cases h : hasCapability profiles id with
    | false => simp [RoutingTopology.memberUnavailable, ClientPolicy.validateMember, h]
    | true => simp [RoutingTopology.memberUnavailable, ClientPolicy.validateMember, h]
  | pool id =>
    simp only [RoutingTopology.memberUnavailable, ClientPolicy.validateMember, Bool.not_eq_true',
      ← Bool.not_eq_true, poolIndex_contains hids]
    by_cases h : id ∈ policy.enabledPoolIds
    · simp [h]
    · simp [h]
  | role role => simp [RoutingTopology.memberUnavailable, ClientPolicy.validateMember]
  | allExceptRole role => simp [RoutingTopology.memberUnavailable, ClientPolicy.validateMember]
  | allProfiles => simp [RoutingTopology.memberUnavailable, ClientPolicy.validateMember]
  | direct => simp [RoutingTopology.memberUnavailable, ClientPolicy.validateMember]
  | reject => simp [RoutingTopology.memberUnavailable, ClientPolicy.validateMember]

theorem poolUnresolved_iff : RoutingTopology.poolUnresolved policy profiles pool = true ↔
    (∃ member ∈ pool.members, policy.validateMember profiles member ≠ .ok ()) ∨
      pool.members = [] := by
  simp only [RoutingTopology.poolUnresolved, Bool.or_eq_true, List.any_eq_true,
    memberUnavailable_iff hids, List.isEmpty_iff]

theorem shown_unresolved (hpool : pool ∈ policy.enabledPools) {shown : TopologyPool}
    (hshown : shown ∈ (RoutingTopology.addPools policy profiles).pools) (hid : shown.id = pool.id)
    (hstate : shown.state = .unresolved) :
    RoutingTopology.poolUnresolved policy profiles pool = true := by
  obtain ⟨other, hother, rfl⟩ := List.mem_map.mp hshown
  rw [mem_poolIndex_values hids] at hother
  obtain rfl := List.inj_on_of_nodup_map (enabledPool_ids hids) hother hpool hid
  by_contra hresolved
  simp only [RoutingTopology.topologyPool, if_neg hresolved] at hstate
  cases hstate

theorem addPools_reports (hpool : pool ∈ policy.enabledPools)
    (hunresolved : RoutingTopology.poolUnresolved policy profiles pool = true) :
    (RoutingTopology.addPools policy profiles).ReportsPool pool.id := by
  have hindex := (mem_poolIndex_values hids).mpr hpool
  exact ⟨⟨_, List.mem_map_of_mem hindex, rfl, if_pos hunresolved⟩, _,
    List.mem_map_of_mem (List.mem_filter.mpr ⟨hindex, hunresolved⟩), rfl⟩

end Pools

section Loops

variable (availability : TopologyAvailability)
variable (entries : OrderedMap String (List RuleEntry))
variable (sources : OrderedMap String (List RuleSetSource)) (ruleSets : List RoutingRuleSet)

/-- What a loop step adds to a topology leaves the pools, and all paths and issues. -/
structure Extends (topology topology' : RoutingTopology) : Prop where
  pools : topology'.pools = topology.pools
  paths : topology.paths ⊆ topology'.paths
  issues : topology.issues ⊆ topology'.issues

theorem Extends.trans {a b c : RoutingTopology} (hab : Extends a b) (hbc : Extends b c) :
    Extends a c :=
  ⟨hbc.pools.trans hab.pools, List.Subset.trans hab.paths hbc.paths,
    List.Subset.trans hab.issues hbc.issues⟩

theorem Extends.reportsRule {a b : RoutingTopology} (h : Extends a b) {id : String}
    (hreports : a.ReportsRule id) : b.ReportsRule id := by
  obtain ⟨⟨path, hpath, hshown⟩, issue, hissue, hsubject⟩ := hreports
  exact ⟨⟨path, h.paths hpath, hshown⟩, issue, h.issues hissue, hsubject⟩

theorem Extends.reportsPool {a b : RoutingTopology} (h : Extends a b) {id : String}
    (hreports : a.ReportsPool id) : b.ReportsPool id := by
  obtain ⟨⟨pool, hpool, hshown⟩, issue, hissue, hsubject⟩ := hreports
  exact ⟨⟨pool, h.pools ▸ hpool, hshown⟩, issue, h.issues hissue, hsubject⟩

theorem subset_recordPathIssue (issues : List TopologyIssue) (path : TopologyPath) :
    issues ⊆ recordPathIssue issues path := by
  unfold recordPathIssue
  split_ifs
  · exact List.subset_append_left _ _
  · exact List.Subset.refl _

theorem recordPathIssue_subject {issues : List TopologyIssue} {path : TopologyPath}
    (h : path.state = .unresolved) :
    ∃ issue ∈ recordPathIssue issues path, issue.subject = path.source := by
  unfold recordPathIssue
  split_ifs with hnew
  · exact ⟨_, List.mem_append_right _ List.mem_cons_self, rfl⟩
  · have hold : issues.any (·.subject = path.source) = true := by
      by_contra hnone
      exact hnew ⟨h, by simpa using hnone⟩
    simpa using hold

theorem foldl_extends {α : Type} {step : RoutingTopology → α → RoutingTopology}
    (hstep : ∀ topology a, Extends topology (step topology a)) (items : List α)
    (topology : RoutingTopology) : Extends topology (items.foldl step topology) := by
  induction items generalizing topology with
  | nil => exact ⟨rfl, List.Subset.refl _, List.Subset.refl _⟩
  | cons item rest ih => exact (hstep topology item).trans (ih _)

theorem addProvider_extends (topology : RoutingTopology) (ruleSet : RoutingRuleSet) :
    Extends topology (RoutingTopology.addProvider policy profiles entries sources availability
      topology ruleSet) :=
  ⟨rfl, List.subset_append_left _ _,
    List.Subset.trans (List.subset_append_left _ _) (subset_recordPathIssue _ _)⟩

theorem addRule_extends (topology : RoutingTopology) (rule : RoutingPolicyRule) :
    Extends topology (RoutingTopology.addRule policy profiles availability topology rule) :=
  ⟨rfl, List.subset_append_left _ _,
    List.Subset.trans (List.subset_append_left _ _) (subset_recordPathIssue _ _)⟩

theorem addFallback_extends (topology : RoutingTopology) : Extends topology topology.addFallback := by
  unfold RoutingTopology.addFallback
  split_ifs
  · exact ⟨rfl, List.Subset.refl _, List.Subset.refl _⟩
  · exact ⟨rfl, List.subset_append_left _ _, List.subset_append_left _ _⟩

theorem resolveTarget_unresolved {target : String} {pools : List TopologyPool}
    (hpool : (RoutingTopology.poolIndex policy).contains target = false)
    (hdirect : target ≠ "DIRECT") (hreject : target ≠ "REJECT")
    (hprofile : target ∉ enabledProfileNames profiles) :
    (applyPoolState (resolveTarget target profiles (RoutingTopology.poolIndex policy) availability)
      target pools).state = .unresolved := by
  have hresolved : (resolveTarget target profiles (RoutingTopology.poolIndex policy)
      availability).state = .unresolved ∧ (resolveTarget target profiles
        (RoutingTopology.poolIndex policy) availability).targetKind ≠ .pool := by
    rw [resolveTarget, if_neg hdirect, if_neg hreject, if_neg (by simp [hpool])]
    cases hfind : profiles.find? (·.name = target) with
    | none => exact ⟨rfl, fun h ↦ by cases h⟩
    | some profile =>
      have hname : profile.name = target := by simpa using List.find?_some hfind
      have hdisabled : profile.enabled = false := by
        by_contra henabled
        refine hprofile (List.mem_map.mpr ⟨profile, List.mem_filter.mpr ⟨?_, ?_⟩, hname⟩)
        · exact List.mem_of_find?_eq_some hfind
        · simpa using henabled
      simp only [resolveProfile, hdisabled, Bool.not_false, if_true]
      exact ⟨trivial, fun h ↦ by cases h⟩
  rw [applyPoolState, if_pos hresolved.2]
  exact hresolved.1

theorem addRule_reports (hids : (policy.pools.map (·.id)).Nodup)
    (hbroken : BrokenRule policy profiles rule) (topology : RoutingTopology) :
    (RoutingTopology.addRule policy profiles availability topology rule).ReportsRule rule.id := by
  have hstate : (RoutingTopology.ruleResolution policy profiles availability topology rule).state =
      .unresolved := by
    cases hunresolved : RoutingTopology.unresolvedCapability profiles rule with
    | true => simp only [RoutingTopology.ruleResolution, hunresolved, if_true]
    | false =>
      simp only [RoutingTopology.ruleResolution, hunresolved, Bool.false_eq_true, if_false]
      cases hstrip : stripPrefix "capability:" rule.target with
      | some capability =>
        cases hprofile : ClientPolicy.capabilityProfile profiles capability with
        | none =>
          -- such a target is an unresolved capability
          have hstarts : startsWith rule.target "capability:" = true := by
            by_contra hno
            rw [stripPrefix, if_neg hno] at hstrip
            cases hstrip
          simp [RoutingTopology.unresolvedCapability, RoutingTopology.ruleTarget, hstrip, hprofile,
            hstarts] at hunresolved
        | some profile =>
          have hcapability : hasCapability profiles capability = true := by
            have hfound := List.find?_some hprofile
            exact List.any_eq_true.mpr ⟨profile, List.mem_of_find?_eq_some hprofile, hfound⟩
          rcases hbroken with htarget | ⟨other, hother, hnone⟩
          · simp [ClientPolicy.validTarget, hstrip, hcapability] at htarget
          · rw [hstrip, Option.some_inj] at hother
            subst hother
            cases hnone.symm.trans hprofile
      | none =>
        have htarget : policy.validTarget profiles rule.target = false := by
          rcases hbroken with htarget | ⟨other, hother, -⟩
          · exact htarget
          · cases hstrip.symm.trans hother
        simp only [ClientPolicy.validTarget, Bool.or_eq_false_iff, decide_eq_false_iff_not] at htarget
        obtain ⟨⟨⟨⟨hdirect, hreject⟩, hpool⟩, hprofile⟩, -⟩ := htarget
        have hname : RoutingTopology.ruleTarget profiles rule = rule.target := by
          rw [RoutingTopology.ruleTarget, hstrip]
          rfl
        rw [hname]
        refine resolveTarget_unresolved availability ?_ hdirect hreject (by simpa using hprofile)
        rw [← Bool.not_eq_true, poolIndex_contains hids]
        simpa using hpool
  refine ⟨⟨_, List.mem_append_right _ List.mem_cons_self, rfl, hstate⟩, ?_⟩
  exact recordPathIssue_subject hstate

theorem foldl_reports {items : List RoutingPolicyRule} (hids : (policy.pools.map (·.id)).Nodup)
    (hmem : rule ∈ items) (hbroken : BrokenRule policy profiles rule) (topology : RoutingTopology) :
    (items.foldl (RoutingTopology.addRule policy profiles availability) topology).ReportsRule
      rule.id := by
  induction items generalizing topology with
  | nil => cases hmem
  | cons item rest ih =>
    rw [List.foldl_cons]
    rcases List.mem_cons.mp hmem with rfl | hmem
    · refine (foldl_extends (addRule_extends availability) rest _).reportsRule ?_
      exact addRule_reports availability hids hbroken topology
    · exact ih hmem _

theorem build_reportsRule (hids : (policy.pools.map (·.id)).Nodup) (hrule : rule ∈ policy.rules)
    (henabled : rule.enabled = true) (hbroken : BrokenRule policy profiles rule) :
    (RoutingTopology.build policy profiles entries sources availability ruleSets).ReportsRule
      rule.id := by
  refine (addFallback_extends _).reportsRule (foldl_reports availability hids ?_ hbroken _)
  rw [RoutingTopology.inlineRules, List.mem_insertionSort, List.mem_filter]
  exact ⟨hrule, henabled⟩

theorem build_extends : Extends (RoutingTopology.addPools policy profiles)
    (RoutingTopology.build policy profiles entries sources availability ruleSets) :=
  ((foldl_extends (addProvider_extends availability entries sources) _ _).trans
    (foldl_extends (addRule_extends availability) _ _)).trans (addFallback_extends _)

theorem build_reportsPool (hids : (policy.pools.map (·.id)).Nodup)
    (hpool : pool ∈ policy.enabledPools) :
    (RoutingTopology.build policy profiles entries sources availability ruleSets).ReportsPool
        pool.id ↔
      RoutingTopology.poolUnresolved policy profiles pool = true := by
  have hextends : Extends (RoutingTopology.addPools policy profiles)
      (RoutingTopology.build policy profiles entries sources availability ruleSets) :=
    build_extends availability entries sources ruleSets
  constructor
  · rintro ⟨⟨shown, hshown, hid, hstate⟩, -⟩
    rw [hextends.pools] at hshown
    exact shown_unresolved hids hpool hshown hid hstate
  · intro hunresolved
    exact hextends.reportsPool (addPools_reports hids hpool hunresolved)

end Loops

/-- A broken pool that the topology can show: one of its members refers to something
unavailable, or it has none. -/
def ShownBroken (policy : ClientPolicy) (profiles : List ProtocolProfile) (pool : TransportPool) :
    Prop :=
  (∃ member ∈ pool.members, policy.validateMember profiles member ≠ .ok ()) ∨ pool.members = []

/-- A resolution of well-formed texts fails through a broken pool or rule, or a cycle, and
the topology reports every broken pool and rule exactly when no pool is broken by its
fallback or by selectors alone. -/
theorem topology_reports_iff (entries : OrderedMap String (List RuleEntry))
    (sources : OrderedMap String (List RuleSetSource)) (availability : TopologyAvailability)
    (ruleSets : List RoutingRuleSet) (htexts : policy.TextsFormed) :
    ((∃ message, policy.resolvedPools profiles = .error message) ∨
        (∃ message, policy.resolvedRules profiles = .error message) →
      (∃ pool ∈ policy.enabledPools, BrokenPool policy profiles pool) ∨
        (∃ rule ∈ policy.rules, rule.enabled = true ∧ BrokenRule policy profiles rule) ∨
          ∃ pool ∈ policy.enabledPools,
            detectCycle pool.id policy.pools (policy.pools.length + 1) pool.id ∅ ≠ .ok ()) ∧
      ((RoutingTopology.build policy profiles entries sources availability ruleSets).Reports policy
          profiles ↔
        ∀ pool ∈ policy.enabledPools,
          (∃ fallback ∈ pool.fallbackPool, fallback ∉ policy.enabledPoolIds) ∨
              pool.members.flatMap (ClientPolicy.resolveMember (profiles.filter (·.enabled))) = [] →
            ShownBroken policy profiles pool) := by
  refine ⟨failure_cases htexts, fun hreports pool hpool hbroken ↦ ?_, fun hshown ↦ ?_⟩
  · have hreported := hreports.pools pool hpool (.inr hbroken)
    rw [build_reportsPool availability entries sources ruleSets htexts.poolIds hpool,
      poolUnresolved_iff htexts.poolIds] at hreported
    exact hreported
  · refine ⟨fun pool hpool hbroken ↦ ?_, fun rule hrule henabled hbroken ↦ ?_⟩
    · rw [build_reportsPool availability entries sources ruleSets htexts.poolIds hpool,
        poolUnresolved_iff htexts.poolIds]
      rcases hbroken with hmember | hbroken
      · exact .inl hmember
      · exact hshown pool hpool hbroken
    · exact build_reportsRule availability entries sources ruleSets htexts.poolIds hrule henabled
        hbroken

instance (pool : TransportPool) : Decidable pool.Limited :=
  decidable_of_iff (_ ∧ _ ∧ _)
    ⟨fun h ↦ ⟨h.1, h.2.1, h.2.2⟩, fun h ↦ ⟨h.limits, h.url, h.strategy⟩⟩

instance (rule : RoutingPolicyRule) : Decidable rule.Formed :=
  decidable_of_iff (_ ∧ _ ∧ _ ∧ _)
    ⟨fun h ↦ ⟨h.1, h.2.1, h.2.2.1, h.2.2.2⟩, fun h ↦ ⟨h.id, h.name, h.condition, h.line⟩⟩

def speedPool : TransportPool :=
  automaticPool "FAST-AUTO" .urlTest [.role .speed] 500 (some 50) 100

def speedOnly : ClientPolicy where
  pools := [speedPool]
  rules := [⟨"rest", "Rest", true, 20, "MATCH", "FAST-AUTO"⟩]

def lostPool : TransportPool := { speedPool with members := [.role .speed, .profile "LOST"] }

def lostMember : ClientPolicy := { speedOnly with pools := [lostPool] }

theorem lostMember_texts : lostMember.TextsFormed where
  poolIds := by decide
  identities := by decide
  limited := by decide
  fallback := by decide
  ruleIds := by decide
  rules := by decide

theorem topology_reports_iff_lost :
    (∃ message, lostMember.resolvedPools [testProfile "FAST" .speed] = .error message) ∧
      (RoutingTopology.build lostMember [testProfile "FAST" .speed] .empty .empty
        ⟨{"test"}, .empty⟩ []).Reports lostMember [testProfile "FAST" .speed] := by
  refine ⟨⟨_, rfl⟩, (topology_reports_iff .empty .empty ⟨{"test"}, .empty⟩ []
    lostMember_texts).2.mpr ?_⟩
  intro pool hpool _
  obtain rfl : pool = lostPool := by
    simpa [lostMember] using List.mem_of_mem_filter hpool
  exact .inl ⟨.profile "LOST", by decide, by decide⟩

theorem empty_pool_hidden :
    ¬∀ (policy : ClientPolicy) (profiles : List ProtocolProfile)
        (entries : OrderedMap String (List RuleEntry))
        (sources : OrderedMap String (List RuleSetSource)) (availability : TopologyAvailability)
        (ruleSets : List RoutingRuleSet), policy.TextsFormed →
      (∀ profile ∈ profiles, profile.protocolId ∈ availability.protocolAdapters) →
        policy.resolvedPools profiles = .error "transport pool resolves to no members" →
          (RoutingTopology.build policy profiles entries sources availability ruleSets).Reports
            policy profiles := by
  intro h
  have htexts : speedOnly.TextsFormed :=
    ⟨by decide, by decide, by decide, by decide,
      by decide, by decide⟩
  have hreports := h speedOnly [testProfile "SAFE" .autoSafe] .empty .empty ⟨{"test"}, .empty⟩ []
    htexts (by decide) (by rfl)
  have hpool : speedPool ∈ speedOnly.enabledPools := by decide
  have hbroken : BrokenPool speedOnly [testProfile "SAFE" .autoSafe] speedPool :=
    .inr (.inr (by decide))
  have hshown := (build_reportsPool ⟨{"test"}, .empty⟩ .empty .empty [] htexts.poolIds hpool).mp
    (hreports.pools speedPool hpool hbroken)
  revert hshown
  decide

end StealthHub.Routing

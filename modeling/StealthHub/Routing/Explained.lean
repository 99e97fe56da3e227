import StealthHub.Routing.Mihomo
import StealthHub.Routing.Topology

set_option autoImplicit false

namespace StealthHub.Routing

open Text

section Paths

variable (policy : ClientPolicy) (profiles : List ProtocolProfile)
variable (entries : OrderedMap String (List RuleEntry))
variable (sources : OrderedMap String (List RuleSetSource))
variable (availability : TopologyAvailability) (ruleSets : List RoutingRuleSet)

/-- A path with the matcher, the target and the rule lines it stands for. -/
structure Draws (matcher target : String) (lines : List String) (path : TopologyPath) : Prop where
  matcher_eq : path.matcher = matcher
  target_eq : path.target = target
  explicit : path.targetKind ≠ .fallback
  matchers : path.matchers = (domainMatchers lines).1
  unsupported : path.hasUnsupportedMatcher = (domainMatchers lines).2

theorem resolveProfile_kind (profile : ProtocolProfile) :
    (resolveProfile profile availability).targetKind = .profile := by
  simp only [resolveProfile]
  by_cases henabled : (!profile.enabled) = true
  · rw [if_pos henabled]
  rw [if_neg henabled]
  by_cases hadapter : profile.protocolId ∉ availability.protocolAdapters
  · rw [if_pos hadapter]
  rw [if_neg hadapter]
  cases availability.profileRuntimes.get? profile.name with
  | none => rfl
  | some runtime =>
    by_cases hpresent : (!runtime.adapterPresent) = true
    · simp only [hpresent, if_true]
    · by_cases havailable : (!runtime.available) = true
      · simp only [if_neg hpresent, havailable, if_true]
      · simp only [if_neg hpresent, if_neg havailable]

theorem resolveTarget_explicit (target : String) (pools : PoolIndex) :
    (resolveTarget target profiles pools availability).targetKind ≠ .fallback := by
  unfold resolveTarget
  split_ifs
  · exact nofun
  · exact nofun
  · exact nofun
  · cases profiles.find? (·.name = target) with
    | none => exact nofun
    | some profile =>
      rw [resolveProfile_kind]
      exact nofun

theorem applyPoolState_kind (resolved : ResolvedTarget) (target : String)
    (pools : List TopologyPool) :
    (applyPoolState resolved target pools).targetKind = resolved.targetKind := by
  unfold applyPoolState
  split_ifs
  · rfl
  · cases pools.find? (·.id = target) with
    | none => rfl
    | some pool =>
      simp only
      split_ifs <;> rfl

theorem addProvider_paths (topology : RoutingTopology) (ruleSet : RoutingRuleSet) :
    ∃ path, (RoutingTopology.addProvider policy profiles entries sources availability topology
        ruleSet).paths = topology.paths ++ [path] ∧
      Draws ("RULE-SET " ++ ruleSet.slug) ruleSet.target
        (RoutingTopology.providerLines entries sources ruleSet) path := by
  refine ⟨_, rfl, rfl, rfl, ?_, rfl, rfl⟩
  simp only [pathOf, RoutingTopology.providerResolution]
  cases RoutingTopology.compiledPayload entries sources ruleSet with
  | ok compiled =>
    rw [applyPoolState_kind]
    exact resolveTarget_explicit profiles availability _ _
  | error message =>
    rw [applyPoolState_kind]
    exact resolveTarget_explicit profiles availability _ _

theorem addRule_paths (topology : RoutingTopology) (rule : RoutingPolicyRule) :
    ∃ path, (RoutingTopology.addRule policy profiles availability topology rule).paths =
        topology.paths ++ [path] ∧
      Draws rule.condition (RoutingTopology.ruleTarget profiles rule) [rule.condition] path := by
  refine ⟨_, rfl, rfl, rfl, ?_, rfl, rfl⟩
  simp only [pathOf, RoutingTopology.ruleResolution]
  split_ifs
  · rw [applyPoolState_kind]
    exact resolveTarget_explicit profiles availability _ _
  · rw [applyPoolState_kind]
    exact resolveTarget_explicit profiles availability _ _

theorem foldl_paths {α : Type} {step : RoutingTopology → α → RoutingTopology}
    {R : α → TopologyPath → Prop}
    (h : ∀ topology a, ∃ path, (step topology a).paths = topology.paths ++ [path] ∧ R a path)
    (items : List α) (topology : RoutingTopology) :
    ∃ paths, (items.foldl step topology).paths = topology.paths ++ paths ∧
      List.Forall₂ R items paths := by
  induction items generalizing topology with
  | nil => exact ⟨[], (List.append_nil _).symm, .nil⟩
  | cons item rest ih =>
    obtain ⟨path, hpath, hr⟩ := h topology item
    obtain ⟨paths, hpaths, hrest⟩ := ih (step topology item)
    refine ⟨path :: paths, ?_, .cons hr hrest⟩
    rw [List.foldl_cons, hpaths, hpath, List.append_assoc, List.singleton_append]

theorem build_paths : ∃ providers rules fallback,
    (RoutingTopology.build policy profiles entries sources availability ruleSets).paths =
        providers ++ rules ++ fallback ∧
      List.Forall₂ (fun ruleSet path ↦ Draws ("RULE-SET " ++ ruleSet.slug) ruleSet.target
        (RoutingTopology.providerLines entries sources ruleSet) path)
        (ruleSets.filter (·.enabled)) providers ∧
      List.Forall₂ (fun rule path ↦ Draws rule.condition
        (RoutingTopology.ruleTarget profiles rule) [rule.condition] path)
        (RoutingTopology.inlineRules policy) rules ∧
      (fallback = [] ∨ ∃ order, fallback = [RoutingTopology.fallbackPath order]) := by
  obtain ⟨providers, hproviders, hdrawn⟩ := foldl_paths
    (addProvider_paths policy profiles entries sources availability)
    (ruleSets.filter (·.enabled)) (RoutingTopology.addPools policy profiles)
  obtain ⟨rules, hrules, hinline⟩ := foldl_paths (addRule_paths policy profiles availability)
    (RoutingTopology.inlineRules policy) ((ruleSets.filter (·.enabled)).foldl
      (RoutingTopology.addProvider policy profiles entries sources availability)
      (RoutingTopology.addPools policy profiles))
  have hstart : (RoutingTopology.addPools policy profiles).paths = [] := rfl
  rw [hproviders, hstart, List.nil_append] at hrules
  simp only [RoutingTopology.build, RoutingTopology.addFallback]
  split_ifs
  · exact ⟨providers, rules, [], by rw [hrules, List.append_nil], hdrawn, hinline, .inl rfl⟩
  · exact ⟨providers, rules, _, by rw [hrules], hdrawn, hinline, .inr ⟨_, rfl⟩⟩

end Paths

/-- A generated rule line that a path explains: its rule set or condition, and its
target. The text of a condition is normalized at its commas. -/
inductive Explains (path : TopologyPath) : String → Prop
  | ruleSet (slug : String) : path.matcher = "RULE-SET " ++ slug →
      Explains path ("RULE-SET," ++ slug ++ "," ++ path.target)
  | catchAll : trim path.matcher = "MATCH" → Explains path ("MATCH," ++ path.target)
  | condition (kind value : String) : (split ',' (trim path.matcher)).map trim = [kind, value] →
      Explains path (",".intercalate [kind, value, path.target])
  | unresolved (kind value modifier : String) :
      (split ',' (trim path.matcher)).map trim = [kind, value, modifier] →
      eqIgnoreAsciiCase modifier "no-resolve" = true →
      Explains path (",".intercalate [kind, value, path.target, "no-resolve"])

variable {path : TopologyPath} {condition target line : String}

theorem completeRule_explains (hmatcher : trim path.matcher = condition)
    (h : completeRule condition path.target = .ok line) : Explains path line := by
  subst hmatcher
  simp only [completeRule] at h
  split at h
  · cases h
  · split at h
    next kind value hfields =>
      by_cases hm : (((split ',' (trim path.matcher)).map trim).getLast?.any fun value ↦
          eqIgnoreAsciiCase value "no-resolve") = true
      · rw [if_pos hm] at hfields h
        cases h
        obtain ⟨modifier, hlast, hmodifier⟩ := (Option.any_eq_true _ _).mp hm
        have hall := List.dropLast_append_getLast? modifier hlast
        rw [hfields] at hall
        exact .unresolved kind value modifier hall.symm hmodifier
      · rw [if_neg hm] at hfields h
        cases h
        exact .condition kind value hfields
    · cases h

theorem singleRule_ok {rules : List String} {rule : String} (h : singleRule rules = .ok rule) :
    rules = [rule] := by
  match rules, h with
  | [_], h => rw [Except.ok.inj h]

theorem validatePayload_single {payload rule : String} (hn : '\n' ∉ payload.toList)
    (h : validateClassicalRulePayload payload = .ok [rule]) : rule = trim payload := by
  obtain ⟨parsed, hparsed, h⟩ := Except.bind_eq_ok.mp h
  obtain ⟨-, h⟩ := Except.guard_eq_ok.mp h
  have hrule : some rule ∈ parsed := by
    have hmem : rule ∈ parsed.filterMap id := by rw [Except.pure_eq_ok.mp h]; simp
    simpa using hmem
  obtain ⟨⟨rawLine, index⟩, hmem, hline⟩ := (Except.exists_of_mapM hparsed).2 _ hrule
  have hlines : lines payload = [payload] := by
    have hne : payload.toList ≠ [] := by
      intro he
      rw [lines, he] at hmem
      simp [linesFrom] at hmem
    rw [lines, linesFrom_last hn (by simpa using hne)]
    simp [String.ofList_toList]
  rw [hlines] at hmem
  have hraw : rawLine = payload := by simpa using List.fst_mem_of_mem_zipIdx hmem
  rw [(classicalLine_some hline).1, hraw]

theorem conditionLine_explains (hn : '\n' ∉ path.matcher.toList)
    (h : conditionLine path.matcher path.target = .ok line) : Explains path line := by
  unfold conditionLine at h
  split at h
  next hmatch =>
    cases h
    exact .catchAll hmatch
  next hmatch =>
    obtain ⟨-, h⟩ := Except.guard_eq_ok.mp h
    obtain ⟨validated, hvalidated, h⟩ := Except.bind_eq_ok.mp h
    obtain ⟨rule, hrule, h⟩ := Except.bind_eq_ok.mp h
    rw [singleRule_ok hrule] at hvalidated
    have hr := validatePayload_single (fun hc ↦ hn (mem_of_mem_trim hc)) hvalidated
    rw [trim_trim] at hr
    exact completeRule_explains hr.symm h

theorem capabilityProfile_filter (profiles : List ProtocolProfile) (capability : String) :
    ClientPolicy.capabilityProfile (profiles.filter (·.enabled)) capability =
      ClientPolicy.capabilityProfile profiles capability := by
  rw [ClientPolicy.capabilityProfile, List.find?_filter]
  refine congrFun (congrArg _ (funext fun profile ↦ ?_)) _
  cases profile.enabled with
  | false => rfl
  | true => simp

theorem resolveRule_target {profiles : List ProtocolProfile} {rule : RoutingPolicyRule}
    {resolved : String × String}
    (h : ClientPolicy.resolveRule (profiles.filter (·.enabled)) rule = .ok resolved) :
    resolved = (rule.condition, RoutingTopology.ruleTarget profiles rule) := by
  unfold ClientPolicy.resolveRule at h
  unfold RoutingTopology.ruleTarget
  cases hs : stripPrefix "capability:" rule.target with
  | none =>
    rw [hs] at h
    exact (Except.ok.inj h).symm
  | some capability =>
    simp only [hs, capabilityProfile_filter] at h
    rw [Option.bind_some]
    cases hp : ClientPolicy.capabilityProfile profiles capability with
    | none => rw [hp] at h; cases h
    | some profile =>
      rw [hp] at h
      exact (Except.ok.inj h).symm

theorem validate_rules {policy : ClientPolicy} {profiles : List ProtocolProfile}
    (h : policy.validate profiles = .ok ()) :
    ∀ rule ∈ policy.rules, policy.validateRule profiles rule = .ok () := by
  unfold ClientPolicy.validate at h
  split at h
  · cases h
  · obtain ⟨-, -, h⟩ := Except.bind_eq_ok.mp h
    obtain ⟨-, -, h⟩ := Except.bind_eq_ok.mp h
    exact Except.forM_eq_ok.mp (Except.guard_eq_ok.mp h).2

theorem validateRule_condition {policy : ClientPolicy} {profiles : List ProtocolProfile}
    {rule : RoutingPolicyRule} (h : policy.validateRule profiles rule = .ok ())
    (henabled : rule.enabled = true) : '\n' ∉ rule.condition.toList := by
  obtain ⟨-, -, h⟩ := Except.bind_eq_ok.mp h
  obtain ⟨-, h⟩ := Except.guard_eq_ok.mp h
  rw [if_neg (by simp [henabled])] at h
  obtain ⟨hcondition, -⟩ := Except.guard_eq_ok.mp h
  simp only [Bool.or_eq_true, not_or, containsChar] at hcondition
  simpa using hcondition.2

/-- The rules of a loaded policy: by priority, then by id. -/
def ClientPolicy.Loaded (policy : ClientPolicy) : Prop :=
  policy.rules.Pairwise RoutingTopology.ruleBefore

theorem ClientPolicy.Loaded.sorted {policy : ClientPolicy} (h : policy.Loaded) :
    RoutingTopology.inlineRules policy = policy.rules.filter (·.enabled) ∧
      (policy.rules.filter (·.enabled)).insertionSort (·.priority ≤ ·.priority) =
        policy.rules.filter (·.enabled) := by
  have hfilter := h.filter fun rule ↦ rule.enabled
  refine ⟨hfilter.insertionSort_eq, List.Pairwise.insertionSort_eq (hfilter.imp fun hab ↦ ?_)⟩
  exact (Prod.Lex.le_iff'.mp hab).1

theorem inline_explains {profiles : List ProtocolProfile} {rules : List RoutingPolicyRule}
    {paths : List TopologyPath} {resolved : List (String × String)} {inline : List String}
    (hlines : ∀ rule ∈ rules, '\n' ∉ rule.condition.toList)
    (hdrawn : List.Forall₂ (fun rule path ↦ Draws rule.condition
      (RoutingTopology.ruleTarget profiles rule) [rule.condition] path) rules paths)
    (hresolved : List.Forall₂ (fun rule resolved ↦
      ClientPolicy.resolveRule (profiles.filter (·.enabled)) rule = .ok resolved) rules resolved)
    (hinline : List.Forall₂ (fun resolved line ↦ conditionLine resolved.1 resolved.2 = .ok line)
      resolved inline) :
    List.Forall₂ Explains paths inline := by
  induction hdrawn generalizing resolved inline with
  | nil =>
    cases hresolved
    cases hinline
    exact .nil
  | cons hpath _ ih =>
    obtain _ | ⟨hrule, hresolved⟩ := hresolved
    obtain _ | ⟨hline, hinline⟩ := hinline
    obtain ⟨hn, hlines⟩ := List.forall_mem_cons.mp hlines
    refine .cons ?_ (ih hlines hresolved hinline)
    rw [resolveRule_target hrule] at hline
    simp only [← hpath.matcher_eq, ← hpath.target_eq] at hline hn
    exact conditionLine_explains hn hline

theorem providers_explain {ruleSets : List RoutingRuleSet} {paths : List TopologyPath}
    {lines : RoutingRuleSet → List String}
    (h : List.Forall₂ (fun ruleSet path ↦
      Draws ("RULE-SET " ++ ruleSet.slug) ruleSet.target (lines ruleSet) path) ruleSets paths) :
    List.Forall₂ Explains paths (ruleSets.map ruleSetLine) := by
  refine List.forall₂_map_right_iff.mpr (h.flip.imp fun path ruleSet hdrawn ↦ ?_)
  rw [ruleSetLine, ← hdrawn.target_eq]
  exact .ruleSet ruleSet.slug hdrawn.matcher_eq

theorem explicit_paths {α : Type} {items : List α} {paths : List TopologyPath}
    {R : α → TopologyPath → Prop} (hR : ∀ a path, R a path → path.targetKind ≠ .fallback)
    (h : List.Forall₂ R items paths) : paths.filter (·.targetKind ≠ .fallback) = paths := by
  induction h with
  | nil => rfl
  | cons hpath _ ih =>
    rw [List.filter_cons_of_pos (by simpa using hR _ _ hpath), ih]

/-- With no profile skipped, the paths other than the fallback are the generated
rules, one by one and in order. -/
theorem paths_explain_rules {serialize : Value → Except String String}
    {input : MihomoGenerationInput} {registry : ProtocolRegistry}
    {output : MihomoGenerationOutput} (entries : OrderedMap String (List RuleEntry))
    (sources : OrderedMap String (List RuleSetSource)) (availability : TopologyAvailability)
    (hloaded : input.policy.Loaded)
    (h : generateMihomoYamlDetailed serialize input registry = .ok output)
    (hskipped : output.warnings = []) :
    List.Forall₂ Explains
      ((RoutingTopology.build input.policy input.profiles entries sources availability
        input.routingRuleSets).paths.filter (·.targetKind ≠ .fallback))
      output.document.rules := by
  obtain ⟨available, pools, hgenerated⟩ := generate_ok h
  obtain rfl := hgenerated.available_all hskipped
  obtain ⟨resolved, hresolved, hrules⟩ := Except.bind_eq_ok.mp hgenerated.rules
  obtain ⟨inline, hinline, hrules⟩ := Except.bind_eq_ok.mp hrules
  obtain ⟨⟨⟩, hvalid, hresolved⟩ := Except.bind_eq_ok.mp hresolved
  obtain ⟨hsorted, hstable⟩ := hloaded.sorted
  rw [hstable] at hresolved
  obtain ⟨providers, rules, fallback, hpaths, hproviders, hdrawn, hfallback⟩ :=
    build_paths input.policy input.profiles entries sources availability input.routingRuleSets
  rw [hsorted] at hdrawn
  have hlines : ∀ rule ∈ input.policy.rules.filter (·.enabled),
      '\n' ∉ rule.condition.toList := by
    intro rule hrule
    obtain ⟨hmem, henabled⟩ := List.mem_filter.mp hrule
    exact validateRule_condition (validate_rules hvalid rule hmem) henabled
  have hnone : fallback.filter (·.targetKind ≠ .fallback) = [] := by
    rcases hfallback with rfl | ⟨order, rfl⟩
    · rfl
    · rfl
  rw [hpaths, List.filter_append, List.filter_append, hnone, List.append_nil,
    explicit_paths (fun _ _ hd ↦ hd.explicit) hproviders,
    explicit_paths (fun _ _ hd ↦ hd.explicit) hdrawn, ← Except.pure_eq_ok.mp hrules]
  refine List.rel_append (providers_explain hproviders) ?_
  exact inline_explains hlines hdrawn (Except.mapM_eq_ok.mp hresolved)
    (Except.mapM_eq_ok.mp hinline)

/-- A profile of the one protocol of `testRegistry`. -/
def testProfile (name : String) (role : ProxyRole) : ProtocolProfile where
  name
  displayName := name
  protocolId := "test"
  schemaVersion := 1
  role
  server := "node.example.test"
  port := 443
  enabled := true
  preferredCoreId := none
  managedResourceId := none
  config := .object []

def testAdapter : ProtocolAdapter where
  manifest :=
    { apiVersion := adapterApiVersion
      id := "test"
      displayName := "Test"
      schemaVersion := 1
      requiredCoreCapabilities := {"test"}
      userParticipation := .none
      listenerNetwork := .tcp
      composition := ⟨"test", "tcp", "none", none, .stable, none⟩ }
  validateConfig := fun _ _ ↦ .ok ()
  migrateConfig := fun _ config ↦ .ok (1, config)
  clientSecretReferences := fun _ ↦ .ok []
  serverSecretReferences := fun _ ↦ .ok []
  renderClient := fun context ↦ .ok (.object [("name", .string context.profile.name)])
  renderServer := fun context ↦ .ok ⟨context.profile.name, "test", .object [], none, []⟩

def testRegistry : ProtocolRegistry := ProtocolRegistry.empty.add testAdapter

def testInput : MihomoGenerationInput where
  settings := ⟨"Panel", "sub.example.test", "node.example.test"⟩
  user := ⟨"alice", "u-1", "t-1"⟩
  profiles := [testProfile "FAST" .speed, testProfile "SAFE" .autoSafe]
  secrets := .empty
  routingRuleSets :=
    [⟨"ads", "Ads", "Blocks ads", "REJECT", true, "DOMAIN-SUFFIX,ads.example"⟩]
  policy :=
    { pools := [automaticPool "FAST-AUTO" .urlTest [.role .speed] 500 (some 50) 100]
      rules :=
        [⟨"a-local", "Local", true, 10, " IP-CIDR , 10.0.0.0/8, no-resolve", "DIRECT"⟩,
          ⟨"b-mail", "Mail", true, 10, "DOMAIN,mail.example", "capability:test"⟩,
          ⟨"rest", "Rest", true, 20, "MATCH", "FAST-AUTO"⟩] }
  dnsPolicy := defaultDnsPolicy
  availableCoreCapabilities := none

theorem testInput_generated :
    ∃ output, generateMihomoYamlDetailed (fun _ ↦ .ok "") testInput testRegistry = .ok output ∧
      output.warnings = [] := by
  have h : (generateMihomoYamlDetailed (fun _ ↦ .ok "") testInput testRegistry).toOption.any
      (·.warnings = []) := by
    decide +kernel
  cases hgenerated : generateMihomoYamlDetailed (fun _ ↦ .ok "") testInput testRegistry with
  | error message =>
    rw [hgenerated] at h
    cases h
  | ok output =>
    rw [hgenerated] at h
    exact ⟨output, rfl, of_decide_eq_true h⟩

theorem paths_explain_rules_test :
    ∃ output, generateMihomoYamlDetailed (fun _ ↦ .ok "") testInput testRegistry = .ok output ∧
      List.Forall₂ Explains
        ((RoutingTopology.build testInput.policy testInput.profiles .empty .empty
          ⟨∅, .empty⟩ testInput.routingRuleSets).paths.filter (·.targetKind ≠ .fallback))
        output.document.rules := by
  obtain ⟨output, houtput, hwarnings⟩ := testInput_generated
  have hloaded : testInput.policy.Loaded := by
    unfold ClientPolicy.Loaded
    decide +kernel
  exact ⟨output, houtput,
    paths_explain_rules .empty .empty ⟨∅, .empty⟩ hloaded houtput hwarnings⟩

end StealthHub.Routing

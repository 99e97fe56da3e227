import StealthHub.Routing.Mihomo
import StealthHub.Routing.Validation

set_option autoImplicit false

namespace StealthHub.Routing

open Text Relation

def field (name : String) : Value → Option Value
  | .object fields => (fields.find? (·.1 = name)).map (·.2)
  | _ => none

def textOf : Value → Option String
  | .string value => some value
  | _ => none

def objectName (object : Value) : Option String := (field "name" object).bind textOf

def groupMembers (group : Value) : List String :=
  match field "proxies" group with
  | some (.array items) => items.filterMap textOf
  | _ => []

namespace MihomoDocument

def proxyNames (document : MihomoDocument) : List String := document.proxies.filterMap objectName

def groupNames (document : MihomoDocument) : List String :=
  document.proxyGroups.filterMap objectName

/-- A name that the client resolves. -/
def Resolves (document : MihomoDocument) (name : String) : Prop :=
  name = "DIRECT" ∨ name = "REJECT" ∨ name ∈ document.proxyNames ∨ name ∈ document.groupNames

/-- A group lists the name of a group. -/
def GroupLists (document : MihomoDocument) (a b : String) : Prop :=
  ∃ group ∈ document.proxyGroups, objectName group = some a ∧ b ∈ groupMembers group ∧
    b ∈ document.groupNames

end MihomoDocument

/-- The adapters name their client objects after the profile. -/
def NamesProxies (registry : ProtocolRegistry) : Prop :=
  ∀ protocolId adapter context proxy, registry.get protocolId = some adapter →
    adapter.renderClient context = .ok proxy → objectName proxy = some context.profile.name

/-- The target of an inline rule line. -/
inductive TargetOf (target : String) : String → Prop
  | catchAll : TargetOf target ("MATCH," ++ target)
  | condition (kind value : String) : ',' ∉ kind.toList → ',' ∉ value.toList →
      TargetOf target (",".intercalate [kind, value, target])
  | unresolved (kind value : String) : ',' ∉ kind.toList → ',' ∉ value.toList →
      TargetOf target (",".intercalate [kind, value, target, "no-resolve"])

/-- The profiles that a generation renders. -/
def renderedProfiles (input : MihomoGenerationInput) (registry : ProtocolRegistry) :
    List ProtocolProfile :=
  (input.profiles.filter (·.enabled)).filter (rendersProfile input registry)

/-- The groups and inline rules of a document name rendered objects only, and its proxies
are those of the rendered profiles. -/
structure References (input : MihomoGenerationInput) (registry : ProtocolRegistry)
    (document : MihomoDocument) : Prop where
  nonempty : ∀ group ∈ document.proxyGroups, groupMembers group ≠ []
  distinct : ∀ group ∈ document.proxyGroups, (groupMembers group).Nodup
  members : ∀ group ∈ document.proxyGroups, ∀ member ∈ groupMembers group,
    document.Resolves member
  targets : ∃ inline, document.rules =
      (activeRoutingRuleSets input.routingRuleSets).map ruleSetLine ++ inline ∧
    ∀ line ∈ inline, ∃ target, TargetOf target line ∧ document.Resolves target
  rendered : document.proxyNames = (renderedProfiles input registry).map (·.name)

variable {input : MihomoGenerationInput} {registry : ProtocolRegistry}
variable {output : MihomoGenerationOutput} {policy : ClientPolicy}
variable {profiles : List ProtocolProfile} {pool : TransportPool} {name : String}
variable {pools : List (TransportPool × List String)}

theorem textOf_strings (values : List String) : (values.map Value.string).filterMap textOf =
    values := by
  rw [List.filterMap_map]
  exact List.filterMap_some

@[simp] theorem objectName_proxyGroup (members : List String) :
    objectName (proxyGroup pool members) = some pool.id := rfl

theorem objectName_proxyGroups :
    (proxyGroups pools).filterMap objectName = pools.map (·.1.id) := by
  induction pools with
  | nil => rfl
  | cons resolved rest ih =>
    rw [proxyGroups, List.map_cons, List.filterMap_cons_some (objectName_proxyGroup _)]
    rw [proxyGroups] at ih
    rw [ih, List.map_cons]

@[simp] theorem groupMembers_proxyGroup (members : List String) :
    groupMembers (proxyGroup pool members) = members :=
  textOf_strings members

theorem retainFirst_mem {α : Type} [DecidableEq α] {seen items : List α} {item : α} :
    item ∈ retainFirst id seen items ↔ item ∈ items ∧ item ∉ seen := by
  induction items generalizing seen with
  | nil => simp [retainFirst]
  | cons first rest ih =>
    rw [retainFirst, id]
    by_cases hseen : first ∈ seen
    · rw [if_pos hseen, ih, List.mem_cons]
      refine ⟨fun h ↦ ⟨.inr h.1, h.2⟩, fun h ↦ ⟨h.1.resolve_left ?_, h.2⟩⟩
      rintro rfl
      exact h.2 hseen
    · rw [if_neg hseen, List.mem_cons, ih, List.mem_cons, List.mem_cons]
      by_cases hitem : item = first
      · simp [hitem, hseen]
      · simp [hitem]

theorem retainFirst_nodup {α : Type} [DecidableEq α] {seen items : List α} :
    (retainFirst id seen items).Nodup := by
  induction items generalizing seen with
  | nil => exact .nil
  | cons first rest ih =>
    rw [retainFirst]
    split_ifs
    · exact ih
    · refine List.nodup_cons.mpr ⟨fun h ↦ ?_, ih⟩
      exact (retainFirst_mem.mp h).2 List.mem_cons_self

/-- The pools of a policy with the names their members stand for. -/
structure Resolved (policy : ClientPolicy) (profiles : List ProtocolProfile)
    (pools : List (TransportPool × List String)) : Prop where
  valid : policy.validate profiles = .ok ()
  pools_eq : pools.map Prod.fst = policy.enabledPools
  nonempty : ∀ resolved ∈ pools, resolved.2 ≠ []
  distinct : ∀ resolved ∈ pools, resolved.2.Nodup
  members : ∀ resolved ∈ pools, ∀ name, name ∈ resolved.2 ↔
    ∃ member ∈ resolved.1.members, name ∈ ClientPolicy.resolveMember profiles member

theorem resolvedPools_ok (henabled : ∀ profile ∈ profiles, profile.enabled = true)
    (h : policy.resolvedPools profiles = .ok pools) : Resolved policy profiles pools := by
  obtain ⟨⟨⟩, hvalid, hpools⟩ := Except.bind_eq_ok.mp h
  rw [List.filter_eq_self.mpr henabled] at hpools
  have hone : ∀ pool resolved, ClientPolicy.resolvePool profiles pool = .ok resolved →
      resolved.1 = pool ∧ resolved.2 ≠ [] ∧
        resolved.2 = retainFirst id [] (pool.members.flatMap (ClientPolicy.resolveMember profiles)) := by
    intro pool resolved hresolved
    simp only [ClientPolicy.resolvePool] at hresolved
    split at hresolved
    · cases hresolved
    next hne =>
      cases hresolved
      exact ⟨rfl, by simpa using hne, rfl⟩
  have hback := (Except.exists_of_mapM hpools).2
  refine ⟨hvalid, ?_, fun resolved hr ↦ ?_, fun resolved hr ↦ ?_, fun resolved hr name ↦ ?_⟩
  · have hall := Except.mapM_eq_ok.mp hpools
    clear h hpools hback
    generalize policy.enabledPools = enabled at hall
    induction hall with
    | nil => rfl
    | cons hpool _ ih => rw [List.map_cons, (hone _ _ hpool).1, ih]
  · obtain ⟨pool, -, hpool⟩ := hback resolved hr
    exact (hone _ _ hpool).2.1
  · obtain ⟨pool, -, hpool⟩ := hback resolved hr
    rw [(hone _ _ hpool).2.2]
    exact retainFirst_nodup
  · obtain ⟨pool, -, hpool⟩ := hback resolved hr
    obtain ⟨hfst, -, hsnd⟩ := hone _ _ hpool
    rw [hsnd, hfst, retainFirst_mem, List.mem_flatMap]
    exact and_iff_left List.not_mem_nil

theorem resolveMember_available (henabled : ∀ profile ∈ profiles, profile.enabled = true)
    {member : PoolMember} (h : policy.validateMember profiles member = .ok ())
    (hname : name ∈ ClientPolicy.resolveMember profiles member) :
    name = "DIRECT" ∨ name = "REJECT" ∨ name ∈ profiles.map (·.name) ∨
      name ∈ policy.enabledPoolIds := by
  have hfilter : ∀ p : ProtocolProfile → Bool, name ∈ (profiles.filter p).map (·.name) →
      name ∈ profiles.map (·.name) :=
    fun p hmem ↦ (List.filter_sublist.map _).subset hmem
  cases member with
  | profile id =>
    rw [List.mem_singleton.mp hname]
    simp only [ClientPolicy.validateMember] at h
    split at h
    · cases h
    next hmem =>
      rw [enabledProfileNames, List.filter_eq_self.mpr henabled, not_not] at hmem
      exact .inr (.inr (.inl hmem))
  | pool id =>
    rw [List.mem_singleton.mp hname]
    simp only [ClientPolicy.validateMember] at h
    split at h
    · cases h
    next hmem => exact .inr (.inr (.inr (not_not.mp hmem)))
  | capability id => exact .inr (.inr (.inl (hfilter _ hname)))
  | role role => exact .inr (.inr (.inl (hfilter _ hname)))
  | allExceptRole role => exact .inr (.inr (.inl (hfilter _ hname)))
  | allProfiles => exact .inr (.inr (.inl hname))
  | direct => exact .inl (List.mem_singleton.mp hname)
  | reject => exact .inr (.inl (List.mem_singleton.mp hname))

theorem completeRule_target {rule target line : String} (h : completeRule rule target = .ok line) :
    TargetOf target line := by
  have hfields : ∀ field ∈ (split ',' rule).map trim, ',' ∉ field.toList := by
    intro field hfield
    obtain ⟨piece, hpiece, rfl⟩ := List.mem_map.mp hfield
    obtain ⟨letters, hletters, rfl⟩ := List.mem_map.mp hpiece
    intro hmem
    have hletter := mem_of_mem_trim hmem
    rw [String.toList_ofList] at hletter
    exact not_mem_of_mem_splitOn hletters hletter
  simp only [completeRule] at h
  split at h
  · cases h
  · split at h
    next kind value hkept =>
      have hmem : ∀ field ∈ [kind, value], ',' ∉ field.toList := by
        intro field hfield
        refine hfields field ?_
        rw [← hkept] at hfield
        split at hfield
        · exact (List.dropLast_subset _) hfield
        · exact hfield
      have hkind := hmem kind List.mem_cons_self
      have hvalue := hmem value (List.mem_cons_of_mem _ List.mem_cons_self)
      split at h
      · cases h
        exact .unresolved kind value hkind hvalue
      · cases h
        exact .condition kind value hkind hvalue
    · cases h

theorem conditionLine_target {condition target line : String}
    (h : conditionLine condition target = .ok line) : TargetOf target line := by
  unfold conditionLine at h
  split at h
  · cases h
    exact .catchAll
  · obtain ⟨-, h⟩ := Except.guard_eq_ok.mp h
    obtain ⟨validated, -, h⟩ := Except.bind_eq_ok.mp h
    obtain ⟨rule, -, h⟩ := Except.bind_eq_ok.mp h
    exact completeRule_target h

theorem resolveRule_available (henabled : ∀ profile ∈ profiles, profile.enabled = true)
    {rule : RoutingPolicyRule} (h : policy.validTarget profiles rule.target = true)
    {resolved : String × String} (hresolved : ClientPolicy.resolveRule profiles rule = .ok resolved) :
    resolved.2 = "DIRECT" ∨ resolved.2 = "REJECT" ∨ resolved.2 ∈ profiles.map (·.name) ∨
      resolved.2 ∈ policy.enabledPoolIds := by
  unfold ClientPolicy.resolveRule at hresolved
  split at hresolved
  · split at hresolved
    next profile hprofile =>
      cases hresolved
      exact .inr (.inr (.inl (List.mem_map_of_mem (List.mem_of_find?_eq_some hprofile))))
    · cases hresolved
  next hstrip =>
    cases hresolved
    simp only [ClientPolicy.validTarget, hstrip, enabledProfileNames,
      List.filter_eq_self.mpr henabled, Bool.or_eq_true, decide_eq_true_eq, List.contains_iff_mem,
      Option.any_none, Bool.false_eq_true, or_false] at h
    tauto

theorem resolvedRules_ok (henabled : ∀ profile ∈ profiles, profile.enabled = true)
    {rules : List (String × String)} (h : policy.resolvedRules profiles = .ok rules) :
    ∀ resolved ∈ rules, resolved.2 = "DIRECT" ∨ resolved.2 = "REJECT" ∨
      resolved.2 ∈ profiles.map (·.name) ∨ resolved.2 ∈ policy.enabledPoolIds := by
  intro resolved hmem
  obtain ⟨⟨⟩, hvalid, h⟩ := Except.bind_eq_ok.mp h
  obtain ⟨rule, hrule, hresolved⟩ := (Except.exists_of_mapM h).2 resolved hmem
  rw [List.mem_insertionSort, List.mem_filter] at hrule
  exact resolveRule_available henabled
    ((validate_ok.mp hvalid).2.targets rule hrule.1 hrule.2) hresolved

theorem proxyNames_eq (hnames : NamesProxies registry) {proxies : List Value}
    (h : List.Forall₂ (Renders input registry) profiles proxies) :
    proxies.filterMap objectName = profiles.map (·.name) := by
  induction h with
  | nil => rfl
  | cons hproxy _ ih =>
    obtain ⟨adapter, hadapter, hrender⟩ := hproxy
    rw [List.filterMap_cons_some (hnames _ _ _ _ hadapter hrender), ih, List.map_cons]

/-- What a generation makes of its input. -/
structure Documented (input : MihomoGenerationInput) (registry : ProtocolRegistry)
    (document : MihomoDocument) (pools : List (TransportPool × List String)) : Prop where
  resolved : Resolved input.policy (renderedProfiles input registry) pools
  groups : document.proxyGroups = proxyGroups pools
  proxyNames : document.proxyNames = (renderedProfiles input registry).map (·.name)
  rules : routingRules (activeRoutingRuleSets input.routingRuleSets) input.policy
    (renderedProfiles input registry) = .ok document.rules

theorem rendered_enabled : ∀ profile ∈ renderedProfiles input registry,
    profile.enabled = true :=
  fun _ hprofile ↦ (List.mem_filter.mp (List.mem_filter.mp hprofile).1).2

theorem generate_documented {serialize : Value → Except String String}
    (hnames : NamesProxies registry)
    (h : generateMihomoYamlDetailed serialize input registry = .ok output) :
    ∃ pools, Documented input registry output.document pools := by
  obtain ⟨rendered, pools, hrendered, hpools, hrules, hproxies, hgroups, -⟩ := generate_steps h
  obtain ⟨proxies, hp, havailable, hrenders⟩ := renderProfiles_renders hrendered
  rw [List.nil_append] at havailable hp
  rw [havailable] at hpools hrules
  refine ⟨pools, resolvedPools_ok rendered_enabled hpools, hgroups, ?_, hrules⟩
  rw [MihomoDocument.proxyNames, hproxies, hp]
  exact proxyNames_eq hnames hrenders

namespace Documented

variable {document : MihomoDocument}

theorem groupNames (h : Documented input registry document pools) :
    document.groupNames = input.policy.enabledPoolIds := by
  rw [MihomoDocument.groupNames, h.groups, objectName_proxyGroups, ClientPolicy.enabledPoolIds,
    ← h.resolved.pools_eq, List.map_map]
  rfl

theorem mem_groups (h : Documented input registry document pools) {group : Value} :
    group ∈ document.proxyGroups ↔ ∃ resolved ∈ pools, proxyGroup resolved.1 resolved.2 = group := by
  rw [h.groups, proxyGroups, List.mem_map]

theorem resolves (h : Documented input registry document pools)
    (hname : name = "DIRECT" ∨ name = "REJECT" ∨
      name ∈ (renderedProfiles input registry).map (·.name) ∨ name ∈ input.policy.enabledPoolIds) :
    document.Resolves name := by
  rw [← h.proxyNames, ← h.groupNames] at hname
  exact hname

theorem mem_pools (h : Documented input registry document pools)
    {resolved : TransportPool × List String} (hr : resolved ∈ pools) :
    resolved.1 ∈ input.policy.enabledPools :=
  h.resolved.pools_eq ▸ List.mem_map_of_mem hr

theorem references (h : Documented input registry document pools) :
    References input registry document := by
  obtain ⟨-, hclosed⟩ := validate_ok.mp h.resolved.valid
  refine ⟨fun group hgroup ↦ ?_, fun group hgroup ↦ ?_, fun group hgroup member hmember ↦ ?_, ?_,
    h.proxyNames⟩
  · obtain ⟨resolved, hr, rfl⟩ := h.mem_groups.mp hgroup
    rw [groupMembers_proxyGroup]
    exact h.resolved.nonempty resolved hr
  · obtain ⟨resolved, hr, rfl⟩ := h.mem_groups.mp hgroup
    rw [groupMembers_proxyGroup]
    exact h.resolved.distinct resolved hr
  · obtain ⟨resolved, hr, rfl⟩ := h.mem_groups.mp hgroup
    rw [groupMembers_proxyGroup, h.resolved.members resolved hr] at hmember
    obtain ⟨selector, hselector, hname⟩ := hmember
    refine h.resolves (resolveMember_available rendered_enabled ?_ hname)
    exact hclosed.members resolved.1 (h.mem_pools hr) selector hselector
  · obtain ⟨resolved, hresolved, hrules⟩ := Except.bind_eq_ok.mp h.rules
    obtain ⟨inline, hinline, hrules⟩ := Except.bind_eq_ok.mp hrules
    refine ⟨inline, (Except.pure_eq_ok.mp hrules).symm, fun line hline ↦ ?_⟩
    obtain ⟨⟨condition, target⟩, hmem, hcondition⟩ := (Except.exists_of_mapM hinline).2 line hline
    exact ⟨target, conditionLine_target hcondition,
      h.resolves (resolvedRules_ok rendered_enabled hresolved _ hmem)⟩

end Documented

end StealthHub.Routing

import StealthHub.Routing.Document
import StealthHub.Routing.Explained

set_option autoImplicit false

namespace StealthHub.Routing

open Relation

variable {policy : ClientPolicy} {profiles : List ProtocolProfile} {a b : String}
variable {input : MihomoGenerationInput} {registry : ProtocolRegistry}
variable {output : MihomoGenerationOutput} {serialize : Value → Except String String}
variable {pools : List (TransportPool × List String)} {document : MihomoDocument}

/-- An enabled pool has a member that stands for the name of an enabled pool. -/
def ClientPolicy.Lists (policy : ClientPolicy) (profiles : List ProtocolProfile) (a b : String) :
    Prop :=
  ∃ pool ∈ policy.enabledPools, pool.id = a ∧
    ∃ member ∈ pool.members, b ∈ resolveMember profiles member ∧ b ∈ policy.enabledPoolIds

/-- As `Lists`, by a member that does not refer to a pool: a profile or a built-in target
has the name of a pool. -/
def ClientPolicy.Borrows (policy : ClientPolicy) (profiles : List ProtocolProfile)
    (a b : String) : Prop :=
  ∃ pool ∈ policy.enabledPools, pool.id = a ∧
    ∃ member ∈ pool.members, (∀ id, member ≠ .pool id) ∧
      b ∈ resolveMember profiles member ∧ b ∈ policy.enabledPoolIds

theorem lists_of_borrows (h : policy.Borrows profiles a b) : policy.Lists profiles a b := by
  obtain ⟨pool, hpool, hid, member, hmember, -, hname⟩ := h
  exact ⟨pool, hpool, hid, member, hmember, hname⟩

theorem lists_cases (h : policy.Lists profiles a b) :
    policy.Borrows profiles a b ∨ policy.Refers a b := by
  obtain ⟨pool, hpool, hid, member, hmember, hname, hb⟩ := h
  by_cases hrefers : ∃ id, member = .pool id
  · obtain ⟨id, rfl⟩ := hrefers
    rw [List.mem_singleton.mp hname]
    refine .inr ⟨pool, hpool, hid, ?_⟩
    exact List.mem_append_left _ (List.mem_filterMap.mpr ⟨_, hmember, rfl⟩)
  · exact .inl ⟨pool, hpool, hid, member, hmember, fun id h ↦ hrefers ⟨id, h⟩, hname, hb⟩

theorem lists_acyclic_iff (h : policy.Formed) : Acyclic (policy.Lists profiles) ↔
    ∀ a b, policy.Borrows profiles a b → ¬ReflTransGen (policy.Lists profiles) b a := by
  constructor
  · intro hacyclic a b hborrows hback
    exact hacyclic a (TransGen.head' (lists_of_borrows hborrows) hback)
  · intro hborrows
    refine h.acyclic.of_returning fun a b hlists hback ↦ ?_
    rcases lists_cases hlists with hborrowed | hrefers
    · exact absurd hback (hborrows a b hborrowed)
    · exact hrefers

theorem groupLists_iff (h : Documented input registry document pools) :
    document.GroupLists a b ↔ input.policy.Lists (renderedProfiles input registry) a b := by
  constructor
  · rintro ⟨group, hgroup, hname, hmember, hb⟩
    obtain ⟨resolved, hr, rfl⟩ := h.mem_groups.mp hgroup
    rw [objectName_proxyGroup, Option.some_inj] at hname
    rw [groupMembers_proxyGroup, h.resolved.members resolved hr] at hmember
    obtain ⟨member, hmember, hb'⟩ := hmember
    exact ⟨resolved.1, h.mem_pools hr, hname, member, hmember, hb', h.groupNames ▸ hb⟩
  · rintro ⟨pool, hpool, hid, member, hmember, hname, hb⟩
    rw [← h.resolved.pools_eq] at hpool
    obtain ⟨resolved, hr, rfl⟩ := List.mem_map.mp hpool
    refine ⟨_, h.mem_groups.mpr ⟨resolved, hr, rfl⟩, ?_, ?_, h.groupNames ▸ hb⟩
    · rw [objectName_proxyGroup, hid]
    · rw [groupMembers_proxyGroup, h.resolved.members resolved hr]
      exact ⟨member, hmember, hname⟩

/-- The groups of a document are closed and well-founded exactly when no pool borrows the
name of a pool that leads back to it. -/
theorem groups_well_founded_iff (hnames : NamesProxies registry)
    (h : generateMihomoYamlDetailed serialize input registry = .ok output) :
    References input registry output.document ∧ Acyclic output.document.GroupLists ↔
      ∀ a b, input.policy.Borrows (renderedProfiles input registry) a b →
        ¬ReflTransGen (input.policy.Lists (renderedProfiles input registry)) b a := by
  obtain ⟨pools, hdocument⟩ := generate_documented hnames h
  have hlists : output.document.GroupLists =
      input.policy.Lists (renderedProfiles input registry) :=
    funext fun a ↦ funext fun b ↦ propext (groupLists_iff hdocument)
  rw [hlists, lists_acyclic_iff (validate_ok.mp hdocument.resolved.valid).1]
  exact and_iff_right hdocument.references

/-- Of profiles with distinct names, the names of a document are unambiguous exactly when
profiles, pools and built-in targets have different names. -/
theorem names_unambiguous_iff (hnames : NamesProxies registry)
    (hdistinct : (input.profiles.map (·.name)).Nodup)
    (h : generateMihomoYamlDetailed serialize input registry = .ok output) :
    ((output.document.proxyNames ++ output.document.groupNames).Nodup ∧
        ∀ name ∈ output.document.proxyNames ++ output.document.groupNames,
          name ≠ "DIRECT" ∧ name ≠ "REJECT") ↔
      (∀ profile ∈ renderedProfiles input registry, profile.name ∉ input.policy.enabledPoolIds ∧
          profile.name ≠ "DIRECT" ∧ profile.name ≠ "REJECT") ∧
        ∀ id ∈ input.policy.enabledPoolIds, id ≠ "DIRECT" ∧ id ≠ "REJECT" := by
  obtain ⟨pools, hdocument⟩ := generate_documented hnames h
  obtain ⟨hformed, -⟩ := validate_ok.mp hdocument.resolved.valid
  have hproxies : ((renderedProfiles input registry).map (·.name)).Nodup :=
    hdistinct.sublist ((List.filter_sublist.trans List.filter_sublist).map _)
  have hgroups : input.policy.enabledPoolIds.Nodup :=
    hformed.poolIds.sublist (List.filter_sublist.map _)
  rw [hdocument.proxyNames, hdocument.groupNames, List.nodup_append]
  constructor
  · rintro ⟨⟨-, -, hdisjoint⟩, hbuiltin⟩
    refine ⟨fun profile hprofile ↦ ⟨fun hid ↦ ?_, ?_⟩, fun id hid ↦ ?_⟩
    · exact hdisjoint _ (List.mem_map_of_mem hprofile) _ hid rfl
    · exact hbuiltin _ (List.mem_append_left _ (List.mem_map_of_mem hprofile))
    · exact hbuiltin _ (List.mem_append_right _ hid)
  · rintro ⟨hprofiles, hids⟩
    refine ⟨⟨hproxies, hgroups, ?_⟩, fun name hname ↦ ?_⟩
    · rintro name hname id hid rfl
      obtain ⟨profile, hprofile, rfl⟩ := List.mem_map.mp hname
      exact (hprofiles profile hprofile).1 hid
    · rcases List.mem_append.mp hname with hname | hid
      · obtain ⟨profile, hprofile, rfl⟩ := List.mem_map.mp hname
        exact (hprofiles profile hprofile).2
      · exact hids name hid

theorem testRegistry_names : NamesProxies testRegistry := by
  intro protocolId adapter context proxy hadapter hrender
  simp only [testRegistry, ProtocolRegistry.add, ProtocolRegistry.get, ProtocolRegistry.empty,
    OrderedMap.get?_insert, OrderedMap.get?_empty] at hadapter
  split_ifs at hadapter
  cases hadapter
  cases hrender
  rfl

def clashInput : MihomoGenerationInput where
  settings := testInput.settings
  user := testInput.user
  profiles := testInput.profiles
  secrets := .empty
  routingRuleSets := []
  policy :=
    { pools := [automaticPool "SAFE" .urlTest [.allProfiles] 500 (some 50) 100]
      rules := [⟨"rest", "Rest", true, 20, "MATCH", "SAFE"⟩] }
  dnsPolicy := defaultDnsPolicy
  availableCoreCapabilities := none

theorem clashInput_generated : ∃ output,
    generateMihomoYamlDetailed (fun _ ↦ .ok "") clashInput testRegistry = .ok output :=
  Except.exists_of_isOk (by decide +kernel)

theorem groups_well_founded_iff_test : ∃ output,
    generateMihomoYamlDetailed (fun _ ↦ .ok "") testInput testRegistry = .ok output ∧
      References testInput testRegistry output.document ∧
        Acyclic output.document.GroupLists := by
  obtain ⟨output, houtput, -⟩ := testInput_generated
  refine ⟨output, houtput, (groups_well_founded_iff testRegistry_names houtput).mpr ?_⟩
  rintro a b ⟨pool, hpool, -, member, hmember, -, hname, hb⟩ -
  have hfree : ∀ pool ∈ testInput.policy.enabledPools, ∀ member ∈ pool.members,
      ∀ name ∈ ClientPolicy.resolveMember (renderedProfiles testInput testRegistry) member,
        name ∉ testInput.policy.enabledPoolIds := by
    decide +kernel
  exact hfree pool hpool member hmember b hname hb

theorem group_lists_itself :
    ¬∀ (serialize : Value → Except String String) (input : MihomoGenerationInput)
        (registry : ProtocolRegistry) (output : MihomoGenerationOutput), NamesProxies registry →
      generateMihomoYamlDetailed serialize input registry = .ok output →
        References input registry output.document ∧ Acyclic output.document.GroupLists := by
  intro h
  obtain ⟨output, houtput⟩ := clashInput_generated
  obtain ⟨-, hacyclic⟩ := h _ clashInput testRegistry output testRegistry_names houtput
  obtain ⟨pools, hdocument⟩ := generate_documented testRegistry_names houtput
  refine hacyclic "SAFE" (.single ((groupLists_iff hdocument).mpr ?_))
  have hlists : ∃ pool ∈ clashInput.policy.enabledPools, pool.id = "SAFE" ∧
      ∃ member ∈ pool.members,
        "SAFE" ∈ ClientPolicy.resolveMember (renderedProfiles clashInput testRegistry) member ∧
          "SAFE" ∈ clashInput.policy.enabledPoolIds := by
    decide +kernel
  exact hlists

theorem names_unambiguous_iff_test : ∃ output,
    generateMihomoYamlDetailed (fun _ ↦ .ok "") testInput testRegistry = .ok output ∧
      (output.document.proxyNames ++ output.document.groupNames).Nodup ∧
        ∀ name ∈ output.document.proxyNames ++ output.document.groupNames,
          name ≠ "DIRECT" ∧ name ≠ "REJECT" := by
  obtain ⟨output, houtput, -⟩ := testInput_generated
  exact ⟨output, houtput, (names_unambiguous_iff testRegistry_names (by decide +kernel)
    houtput).mpr (by decide +kernel)⟩

theorem profile_name_shared :
    ¬∀ (serialize : Value → Except String String) (input : MihomoGenerationInput)
        (registry : ProtocolRegistry) (output : MihomoGenerationOutput), NamesProxies registry →
      (input.profiles.map (·.name)).Nodup → input.policy.validate input.profiles = .ok () →
        generateMihomoYamlDetailed serialize input registry = .ok output →
          (output.document.proxyNames ++ output.document.groupNames).Nodup ∧
            ∀ name ∈ output.document.proxyNames ++ output.document.groupNames,
              name ≠ "DIRECT" ∧ name ≠ "REJECT" := by
  intro h
  obtain ⟨output, houtput⟩ := clashInput_generated
  obtain ⟨pools, hdocument⟩ := generate_documented testRegistry_names houtput
  obtain ⟨hnodup, -⟩ := h _ clashInput testRegistry output testRegistry_names (by decide +kernel)
    (by decide +kernel) houtput
  rw [hdocument.proxyNames, hdocument.groupNames] at hnodup
  have hshared : ¬((renderedProfiles clashInput testRegistry).map (·.name) ++
      clashInput.policy.enabledPoolIds).Nodup := by
    decide +kernel
  exact hshared hnodup

end StealthHub.Routing

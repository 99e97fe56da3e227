import StealthHub.Adapters.Emitted

set_option autoImplicit false

namespace StealthHub.Adapters

open Text Except

/-- The ports that a fragment claims. -/
def claimedPorts (fragment : ServerFragment) : List (ℕ × Bool) :=
  fragment.listeners.map fun listener ↦ (listener.port, listener.network = .udp)

/-- A plan for a core that has the capabilities of its profiles, on ports other than zero. -/
structure Served (core : ManagedCoreAdapter) (plan : CorePlan) : Prop extends Rendered plan where
  advertised : ∀ fragment ∈ plan.fragments, fragment.capability ∈ core.manifest.capabilities
  ports : ∀ fragment ∈ plan.fragments, ∀ listener ∈ fragment.listeners,
    0 < listener.port ∧ listener.port ≤ 65535

variable {core : ManagedCoreAdapter} {flavor : Flavor} {plan : CorePlan} {document : Value}
variable {fragment : ServerFragment} {emitted : List Value} {groups : List (List Value)}

/-- What a core reads of the entries of one fragment is what the fragment demanded. -/
structure Inverts (flavor : Flavor) (fragment : ServerFragment) (emitted : List Value) : Prop where
  ports : emitted.flatMap flavor.entryPorts = claimedPorts fragment
  ids : (emitted.flatMap (flavor.entryIds fragment.capability)).toFinset =
    fragment.expectedUserIds.getD ∅
  named : flavor.Shared → Named flavor fragment emitted
  typed : flavor = .mihomo → fragment.expectedUserIds.isSome → ∀ listener ∈ emitted,
    Selected.WellTyped ⟨fragment.profileId, fragment.capability, listener⟩

theorem core_agrees : ∀ json ∈ protocols, ∀ core ∈ builtInAdapters,
    json.manifest.id ∈ core.manifest.capabilities →
      core.flavor.perUser json.manifest.id =
          json.manifest.userParticipation.requiresIndividualUsers ∧
        core.flavor.isUdp json.manifest.id = decide (json.manifest.listenerNetwork = .udp) := by
  decide

theorem expectedUserIds_rendered {json : JsonProtocolAdapter} {context : ServerRenderContext}
    (h : json.renderServer context = .ok fragment) : fragment.expectedUserIds =
      if json.manifest.userParticipation.requiresIndividualUsers then
        some (context.users.map SubscriptionUser.uuid).toFinset else none := by
  obtain ⟨⟨⟩, -, h⟩ := bind_eq_ok.mp h
  obtain ⟨secrets, -, h⟩ := bind_eq_ok.mp h
  cases pure_eq_ok.mp h
  rfl

theorem payloadIds_rendered {json : JsonProtocolAdapter} {context : ServerRenderContext}
    {secrets : List (String × Value)} : payloadIds (serverPayload json context secrets) =
      (json.individuals context).map SubscriptionUser.uuid := by
  change ((json.individuals context).map fun user ↦ Value.object
    [("username", .string user.username), ("uuid", .string user.uuid)]).filterMap
      (Value.text? "uuid") = _
  rw [List.filterMap_map]
  exact congrFun List.filterMap_eq_map _

theorem emit_inverts (hcore : core ∈ builtInAdapters) (h : Served core plan)
    (hfragment : fragment ∈ plan.fragments) (hemit : core.flavor.emit fragment = .ok emitted) :
    Inverts core.flavor fragment emitted := by
  obtain ⟨json, hjson, context, hrender⟩ := h.rendered fragment hfragment
  obtain ⟨secrets, hrenders⟩ := renderServer_renders hrender
  have hclaim : (⟨json.manifest.listenerNetwork, context.profile.port⟩ : ListenerClaim) ∈
      fragment.listeners := by
    rw [hrenders.listeners]
    exact List.mem_singleton_self _
  obtain ⟨hpositive, hport⟩ := h.ports fragment hfragment _ hclaim
  have hadvertised := h.advertised fragment hfragment
  rw [hrenders.capability] at hadvertised
  obtain ⟨hperUser, hudp⟩ := core_agrees json hjson core hcore hadvertised
  have hemits := emit_emits ⟨json, hjson, hrenders.capability.symm⟩ (opened_rendered hrenders hport)
    hport (fun _ ↦ hpositive) hemit
  refine ⟨?_, ?_, hemits.named, ?_⟩
  · rw [hemits.ports, hrenders.capability, hudp, claimedPorts, hrenders.listeners]
    rfl
  · rw [hemits.ids, hrenders.capability, hperUser, expectedUserIds_rendered hrender,
      payloadIds_rendered, JsonProtocolAdapter.individuals]
    split_ifs <;> rfl
  · intro hflavor hsome listener hlistener
    rw [hflavor] at hemit hperUser
    rw [expectedUserIds_rendered hrender, Option.isSome_ite, ← hperUser, Flavor.perUser] at hsome
    obtain ⟨⟨kind, representation⟩, hrepresentation⟩ := exists_of_isOk hsome
    rw [← hrenders.capability] at hrepresentation
    obtain ⟨found, hfound, rfl⟩ := map_eq_ok.mp hemit
    cases List.mem_singleton.mp hlistener
    obtain ⟨type, hlistens, htype⟩ := mihomoListener_listens
      ⟨json, hjson, hrenders.capability.symm⟩ (opened_rendered hrenders hport) hport hfound
    cases htype _ _ hrepresentation
    exact ⟨kind, representation, hrepresentation, hlistens.kind⟩

/-- The entries of a composed document, and what is read of them all. -/
structure Composed (flavor : Flavor) (plan : CorePlan) (document : Value)
    (groups : List (List Value)) : Prop where
  emitted : List.Forall₂ (fun fragment emitted ↦ flavor.emit fragment = .ok emitted)
    plan.fragments groups
  ports : discoverConfigPorts flavor document = groups.flatten.flatMap flavor.entryPorts
  users : flavor ≠ .mihomo → ∀ capability,
    flavor.documentUsers plan document = groups.flatten.flatMap (flavor.entryIds capability)
  listeners : flavor = .mihomo → document.items "listeners" = groups.flatten

theorem compose_composed (h : flavor.compose plan = .ok document) :
    ∃ groups, Composed flavor plan document groups := by
  by_cases hshared : flavor.Shared
  · obtain ⟨groups, hgroups, hentries⟩ := compose_entries hshared h
    refine ⟨groups, hgroups, hentries ▸ discoverConfigPorts_entries, ?_, ?_⟩
    · intro hflavor capability
      rw [← hentries]
      cases flavor with
      | mihomo => exact absurd rfl hflavor
      | xray | singBox => rfl
      | hysteria => exact absurd rfl hshared.1
      | tuic => exact absurd rfl hshared.2
    · rintro rfl
      exact hentries
  · obtain ⟨generation, coreId, fragments⟩ := plan
    cases flavor with
    | xray | singBox | mihomo => exact absurd (by decide) hshared
    | hysteria =>
      rcases fragments with - | ⟨fragment, - | ⟨other, rest⟩⟩
      · cases h
        exact ⟨[], .nil, rfl, fun _ _ ↦ rfl, nofun⟩
      · refine ⟨[[document]], .cons (map_eq_ok.mpr ⟨document, h, rfl⟩) .nil, ?_, ?_, nofun⟩
        · exact (List.flatMap_singleton _ _).symm
        · intro _ capability
          rfl
      · cases h
    | tuic =>
      rcases fragments with - | ⟨fragment, - | ⟨other, rest⟩⟩
      · cases h
        exact ⟨[], .nil, by decide, fun _ _ ↦ rfl, nofun⟩
      · refine ⟨[[document]], .cons (map_eq_ok.mpr ⟨document, h, rfl⟩) .nil, ?_, ?_, nofun⟩
        · exact (List.flatMap_singleton _ _).symm
        · intro _ capability
          exact (List.flatMap_singleton _ _).symm
      · cases h

theorem Composed.inverts (hcore : core ∈ builtInAdapters) (h : Served core plan)
    (hcomposed : Composed core.flavor plan document groups) :
    List.Forall₂ (fun fragment emitted ↦ fragment ∈ plan.fragments ∧
      Inverts core.flavor fragment emitted) plan.fragments groups := by
  have hmem := (List.forall₂_and_left _ _).mpr
    ⟨fun fragment (hfragment : fragment ∈ plan.fragments) ↦ hfragment, hcomposed.emitted⟩
  exact hmem.imp fun fragment emitted ⟨hfragment, hemit⟩ ↦
    ⟨hfragment, emit_inverts hcore h hfragment hemit⟩

section forall₂

variable {α β γ : Type} {left : List α} {right : List β}

theorem flatMap_of_forall₂ {f : α → List γ} {g : β → List γ}
    (h : List.Forall₂ (fun a b ↦ g b = f a) left right) : right.flatMap g = left.flatMap f := by
  induction h with
  | nil => rfl
  | cons hhead htail ih => rw [List.flatMap_cons, List.flatMap_cons, hhead, ih]

theorem exists_of_forall₂ {p : α → Prop} {q : β → Prop}
    (h : List.Forall₂ (fun a b ↦ q b ↔ p a) left right) : (∃ b ∈ right, q b) ↔ ∃ a ∈ left, p a := by
  induction h with
  | nil => simp
  | cons hhead htail ih => rw [List.exists_mem_cons_iff, List.exists_mem_cons_iff, hhead, ih]

end forall₂

section mihomo

variable {listener : Value} {listeners : List Value} {id : String}

theorem selectedCapability_distinct (h : (plan.fragments.map ServerFragment.profileId).Nodup)
    (hfragment : fragment ∈ plan.fragments) : selectedCapability plan fragment.profileId =
      if fragment.expectedUserIds.isSome then some fragment.capability else none := by
  rw [selectedCapability, perUserFragments]
  split_ifs with hsome
  · rw [Option.map_eq_some_iff]
    refine ⟨fragment, ?_, rfl⟩
    cases hfind : (plan.fragments.filter fun fragment ↦ fragment.expectedUserIds.isSome).find?
        fun found ↦ found.profileId = fragment.profileId with
    | none =>
      rw [List.find?_eq_none] at hfind
      exact absurd (decide_eq_true rfl) (hfind fragment (List.mem_filter.mpr ⟨hfragment, hsome⟩))
    | some found =>
      have hname := List.find?_some hfind
      have hmem := (List.mem_filter.mp (List.mem_of_find?_eq_some hfind)).1
      rw [List.inj_on_of_nodup_map h hmem hfragment (by simpa using hname)]
  · rw [Option.map_eq_none_iff, List.find?_eq_none]
    intro found hfound hname
    obtain ⟨hmem, hselected⟩ := List.mem_filter.mp hfound
    rw [List.inj_on_of_nodup_map h hmem hfragment (by simpa using hname)] at hselected
    exact hsome hselected

theorem selectedListener_named (hname : listener.text? "name" = some fragment.profileId)
    (h : (plan.fragments.map ServerFragment.profileId).Nodup)
    (hfragment : fragment ∈ plan.fragments) : selectedListener plan listener =
      if fragment.expectedUserIds.isSome then some (fragment.profileId, fragment.capability)
      else none := by
  rw [selectedListener, hname]
  change (selectedCapability plan fragment.profileId).bind _ = _
  rw [selectedCapability_distinct h hfragment]
  split_ifs <;> rfl

theorem selectedListeners_names :
    ((selectedListeners plan listeners).map Selected.name).Sublist
      (listeners.filterMap (Value.text? "name")) := by
  induction listeners with
  | nil => exact .slnil
  | cons listener rest ih =>
    rw [selectedListeners, List.filterMap_cons, List.filterMap_cons]
    cases hname : listener.text? "name" with
    | none =>
      have hnone : selectedListener plan listener = none := by
        rw [selectedListener, hname]
        rfl
      rw [hnone]
      exact ih
    | some name =>
      cases hcapability : selectedCapability plan name with
      | none =>
        have hnone : selectedListener plan listener = none := by
          rw [selectedListener, hname]
          change (selectedCapability plan name).bind _ = none
          rw [hcapability]
          rfl
        rw [hnone]
        exact ih.cons name
      | some capability =>
        have hsome : selectedListener plan listener = some (name, capability) := by
          rw [selectedListener, hname]
          change (selectedCapability plan name).bind _ = _
          rw [hcapability]
          rfl
        rw [hsome]
        exact ih.cons_cons name

theorem Inverts.selected (h : Inverts .mihomo fragment emitted)
    (hdistinct : (plan.fragments.map ServerFragment.profileId).Nodup)
    (hfragment : fragment ∈ plan.fragments) :
    ∃ listener, emitted = [listener] ∧ listener.text? "name" = some fragment.profileId ∧
      selectedListener plan listener =
        (if fragment.expectedUserIds.isSome then some (fragment.profileId, fragment.capability)
          else none) ∧
      (mihomoIds fragment.capability listener).toFinset = fragment.expectedUserIds.getD ∅ := by
  have hnames := (h.named (by decide)).names
  obtain ⟨listener, rfl, hname⟩ := List.map_eq_singleton_iff.mp hnames
  refine ⟨listener, rfl, hname, selectedListener_named hname hdistinct hfragment, ?_⟩
  rw [← h.ids, List.flatMap_singleton]
  rfl

variable {groups : List (List Value)}

theorem selected_iff {selected : Selected} : selected ∈ selectedListeners plan listeners ↔
    ∃ listener ∈ listeners,
      selectedListener plan listener = some (selected.name, selected.capability) ∧
        selected.listener = listener := by
  rw [selectedListeners, List.mem_filterMap]
  refine exists_congr fun listener ↦ and_congr_right fun _ ↦ ?_
  rw [Option.map_eq_some_iff]
  constructor
  · rintro ⟨⟨name, capability⟩, hselected, rfl⟩
    exact ⟨hselected, rfl⟩
  · rintro ⟨hselected, rfl⟩
    exact ⟨_, hselected, rfl⟩

theorem mihomo_accepted (hdistinct : (plan.fragments.map ServerFragment.profileId).Nodup)
    (h : List.Forall₂ (fun fragment emitted ↦ fragment ∈ plan.fragments ∧
      Inverts .mihomo fragment emitted) plan.fragments groups)
    (hlisteners : document.items "listeners" = groups.flatten) :
    ¬Flavor.mihomo.Refuses plan document := by
  rintro ⟨-, hprofiles | ⟨selected, hselected, huntyped⟩ | hnames⟩
  · exact hprofiles (hdistinct.sublist (List.filter_sublist.map _))
  · rw [hlisteners, selected_iff] at hselected
    obtain ⟨listener, hlistener, hselected, rfl⟩ := hselected
    obtain ⟨emitted, hemitted, hlistener⟩ := List.mem_flatten.mp hlistener
    have htyped : ∀ fragment emitted, fragment ∈ plan.fragments ∧
        Inverts .mihomo fragment emitted → (selected.listener ∈ emitted ↔ False) := by
      rintro fragment emitted ⟨hfragment, hinverts⟩
      refine iff_false_intro fun hmem ↦ huntyped ?_
      obtain ⟨own, rfl, -, hown, -⟩ := hinverts.selected hdistinct hfragment
      rw [← List.mem_singleton.mp hmem, hselected] at hown
      split_ifs at hown with hsome
      cases selected
      obtain ⟨rfl, rfl⟩ := Prod.mk.inj (Option.some.inj hown)
      exact hinverts.typed rfl hsome _ hmem
    obtain ⟨-, -, hfalse⟩ := (exists_of_forall₂ (h.imp htyped)).mp ⟨emitted, hemitted, hlistener⟩
    exact hfalse
  · have hgroups : groups.flatMap (List.filterMap (Value.text? "name")) =
        plan.fragments.flatMap fun fragment ↦ [fragment.profileId] := by
      refine flatMap_of_forall₂ (h.imp fun fragment emitted ⟨hfragment, hinverts⟩ ↦ ?_)
      obtain ⟨listener, rfl, hname, -⟩ := hinverts.selected hdistinct hfragment
      rw [List.filterMap_cons_some hname]
      rfl
    refine hnames (List.Nodup.sublist selectedListeners_names ?_)
    rwa [hlisteners, List.filterMap_flatten, ← List.flatMap_def, hgroups, ← List.map_eq_flatMap]

theorem mihomo_users (hdistinct : (plan.fragments.map ServerFragment.profileId).Nodup)
    (h : List.Forall₂ (fun fragment emitted ↦ fragment ∈ plan.fragments ∧
      Inverts .mihomo fragment emitted) plan.fragments groups)
    (hlisteners : document.items "listeners" = groups.flatten) :
    id ∈ Flavor.mihomo.documentUsers plan document ↔
      ∃ fragment ∈ plan.fragments, id ∈ fragment.expectedUserIds.getD ∅ := by
  have hgroups : id ∈ Flavor.mihomo.documentUsers plan document ↔ ∃ emitted ∈ groups,
      ∃ listener ∈ emitted, ∃ name capability,
        selectedListener plan listener = some (name, capability) ∧
          id ∈ mihomoIds capability listener := by
    rw [Flavor.documentUsers, hlisteners, List.mem_flatMap]
    constructor
    · rintro ⟨selected, hselected, hid⟩
      obtain ⟨listener, hlistener, hselected, rfl⟩ := selected_iff.mp hselected
      obtain ⟨emitted, hemitted, hlistener⟩ := List.mem_flatten.mp hlistener
      exact ⟨emitted, hemitted, _, hlistener, _, _, hselected, hid⟩
    · rintro ⟨emitted, hemitted, listener, hlistener, name, capability, hselected, hid⟩
      exact ⟨⟨name, capability, listener⟩, selected_iff.mpr
        ⟨listener, List.mem_flatten.mpr ⟨emitted, hemitted, hlistener⟩, hselected, rfl⟩, hid⟩
  rw [hgroups]
  refine exists_of_forall₂ (h.imp fun fragment emitted hemitted ↦ ?_)
  obtain ⟨hfragment, hinverts⟩ := hemitted
  obtain ⟨listener, rfl, -, hselected, hids⟩ := hinverts.selected hdistinct hfragment
  simp only [List.mem_singleton, exists_eq_left, hselected]
  split_ifs with hsome
  · rw [← hids, List.mem_toFinset]
    constructor
    · rintro ⟨name, capability, heq, hid⟩
      cases heq
      exact hid
    · intro hid
      exact ⟨_, _, rfl, hid⟩
  · rw [Option.not_isSome_iff_eq_none.mp hsome]
    refine iff_of_false ?_ (Finset.notMem_empty id)
    rintro ⟨name, capability, heq, -⟩
    cases heq

end mihomo

theorem documentUsers_composed (hcore : core ∈ builtInAdapters) (h : Served core plan)
    (hcomposed : Composed core.flavor plan document groups) (id : String) :
    ¬core.flavor.Refuses plan document ∧ (id ∈ core.flavor.documentUsers plan document ↔
      ∃ fragment ∈ plan.fragments, id ∈ fragment.expectedUserIds.getD ∅) := by
  have hinverts := hcomposed.inverts hcore h
  by_cases hflavor : core.flavor = .mihomo
  · have hlisteners := hcomposed.listeners hflavor
    rw [hflavor] at hinverts ⊢
    exact ⟨mihomo_accepted h.distinct hinverts hlisteners,
      mihomo_users h.distinct hinverts hlisteners⟩
  · refine ⟨fun hrefuses ↦ hflavor hrefuses.1, ?_⟩
    rw [hcomposed.users hflavor "", List.mem_flatMap]
    have hsame : ∀ capability, core.flavor.entryIds capability = core.flavor.entryIds "" := by
      intro capability
      cases hfound : core.flavor with
      | mihomo => exact absurd hfound hflavor
      | xray | singBox | hysteria | tuic => rfl
    have hgroups : (∃ entry ∈ groups.flatten, id ∈ core.flavor.entryIds "" entry) ↔
        ∃ emitted ∈ groups, id ∈ (emitted.flatMap (core.flavor.entryIds "")).toFinset := by
      simp only [List.mem_flatten, List.mem_toFinset, List.mem_flatMap]
      constructor
      · rintro ⟨entry, ⟨emitted, hemitted, hentry⟩, hid⟩
        exact ⟨emitted, hemitted, entry, hentry, hid⟩
      · rintro ⟨emitted, hemitted, entry, hentry, hid⟩
        exact ⟨entry, ⟨emitted, hemitted, hentry⟩, hid⟩
    rw [hgroups]
    refine exists_of_forall₂ (hinverts.imp fun fragment emitted hread ↦ ?_)
    rw [← hsame fragment.capability, hread.2.ids]

theorem mem_expectedUsers_getD {id : String} : id ∈ expectedUsers plan ↔
    ∃ fragment ∈ plan.fragments, id ∈ fragment.expectedUserIds.getD ∅ := by
  rw [mem_expectedUsers]
  refine exists_congr fun fragment ↦ and_congr_right fun _ ↦ ?_
  cases fragment.expectedUserIds with
  | none => simp
  | some expected => simp

theorem observeUsers_same (haccepted : ¬flavor.Refuses plan document)
    (hsame : expectedUsers plan = (flavor.documentUsers plan document).toFinset) :
    flavor.observeUsers plan (some document) = .ok (.inSync (expectedUsers plan).card) := by
  rw [Flavor.observeUsers]
  split_ifs with hnone
  · have hempty : expectedUsers plan = ∅ := by
      refine Finset.eq_empty_of_forall_notMem fun id hid ↦ ?_
      obtain ⟨fragment, hfragment, expected, hexpected, -⟩ := mem_expectedUsers.mp hid
      have hmem : fragment ∈ perUserFragments plan :=
        List.mem_filter.mpr ⟨hfragment, by rw [hexpected]; rfl⟩
      rw [List.isEmpty_iff.mp hnone] at hmem
      cases hmem
    rw [hempty]
    rfl
  · have hdiscovered := discoverUsers_ok.mpr ⟨haccepted, hsame⟩
    refine bind_eq_ok.mpr ⟨document, rfl, bind_eq_ok.mpr ⟨_, hdiscovered, ?_⟩⟩
    simp [compareUsers]

/-- Discovery finds in a composed document the listeners and the users of its plan. -/
theorem discovery_inverts_composition (hcore : core ∈ builtInAdapters) (h : Served core plan)
    (hcompose : core.flavor.compose plan = .ok document) :
    (discoverConfigPorts core.flavor document).Perm (plan.fragments.flatMap claimedPorts) ∧
      core.flavor.observeUsers plan (some document) =
        .ok (.inSync (expectedUsers plan).card) := by
  obtain ⟨groups, hcomposed⟩ := compose_composed hcompose
  constructor
  · have hports : groups.flatMap (List.flatMap core.flavor.entryPorts) =
        plan.fragments.flatMap claimedPorts :=
      flatMap_of_forall₂ ((hcomposed.inverts hcore h).imp fun _ _ hread ↦ hread.2.ports)
    rw [hcomposed.ports, ← List.flatMap_id, List.flatMap_assoc]
    exact .of_eq hports
  · refine observeUsers_same (documentUsers_composed hcore h hcomposed "").1 ?_
    ext id
    rw [List.mem_toFinset, (documentUsers_composed hcore h hcomposed id).2, mem_expectedUsers_getD]

theorem discovery_inverts_composition_tunnels : ∃ document,
    Flavor.mihomo.compose tunnelPlan = .ok document ∧
      (discoverConfigPorts .mihomo document).Perm [(15443, false), (16443, false)] ∧
      Flavor.mihomo.observeUsers tunnelPlan (some document) = .ok (.inSync 1) := by
  have hserved : Served builtInAdapters[1] tunnelPlan :=
    ⟨tunnelPlan_rendered, by decide, by decide⟩
  have hcore : builtInAdapters[1] ∈ builtInAdapters := List.getElem_mem _
  have hcomposes : (Flavor.mihomo.compose tunnelPlan).isOk := by decide
  obtain ⟨document, hdocument⟩ := exists_of_isOk hcomposes
  exact ⟨document, hdocument, discovery_inverts_composition hcore hserved hdocument⟩

end StealthHub.Adapters

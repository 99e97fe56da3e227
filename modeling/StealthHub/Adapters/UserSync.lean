import Mathlib.Data.Finset.Card
import StealthHub.Adapters.Cores

set_option autoImplicit false

namespace StealthHub.Adapters

open Text

def idsOfEntries (entries field : String) (owner : Value) : List String :=
  (owner.items entries).filterMap (Value.text? field)

def idsOfKeys (entries : String) (owner : Value) : List String :=
  (((owner.get? entries).bind Value.asObject).getD []).map Prod.fst

/-- The clients of an inbound, at `/settings/clients`. -/
def xrayClients (inbound : Value) : List String :=
  ((inbound.get? "settings").map (idsOfEntries "clients" "id")).getD []

def discoverConfigUsers (flavor : Flavor) (document : Value) : Except String (Finset String) :=
  match flavor with
  | .xray => .ok ((document.items "inbounds").flatMap xrayClients).toFinset
  | .singBox => .ok ((document.items "inbounds").flatMap (idsOfEntries "users" "uuid")).toFinset
  | .tuic => .ok (idsOfKeys "users" document).toFinset
  | .hysteria => .ok ∅
  | .mihomo => .error "Mihomo user discovery requires the active core plan"

/-- Where a listener keeps the identities of its users. -/
inductive UserRepresentation
  | uuidArray
  | usernameArray
  | objectKeys
  deriving DecidableEq

def UserRepresentation.ids : UserRepresentation → Value → List String
  | .uuidArray => idsOfEntries "users" "uuid"
  | .usernameArray => idsOfEntries "users" "username"
  | .objectKeys => idsOfKeys "users"

def mihomoRepresentation (capability : String) : Except String (String × UserRepresentation) :=
  if startsWith capability "vless-" then .ok ("vless", .uuidArray)
  else if startsWith capability "trojan-" then .ok ("trojan", .usernameArray)
  else if capability = "mieru" then .ok ("mieru", .objectKeys)
  else if capability = "trusttunnel-h2" then .ok ("trusttunnel", .usernameArray)
  else if capability = "shadowquic" then .ok ("shadowquic", .usernameArray)
  else .error "unsupported per-user Mihomo listener capability"

def perUserFragments (plan : CorePlan) : List ServerFragment :=
  plan.fragments.filter fun fragment ↦ fragment.expectedUserIds.isSome

def selectedCapability (plan : CorePlan) (name : String) : Option String :=
  ((perUserFragments plan).find? fun fragment ↦ fragment.profileId = name).map
    ServerFragment.capability

def selectedListener (plan : CorePlan) (listener : Value) : Option (String × String) := do
  let name ← listener.text? "name"
  let capability ← selectedCapability plan name
  return (name, capability)

/-- The names of the selected listeners met so far, and their users. -/
structure MihomoUsers where
  matched : List String
  users : List String

def discoverListener (plan : CorePlan) (found : MihomoUsers) (listener : Value) :
    Except String MihomoUsers :=
  match selectedListener plan listener with
  | none => .ok found
  | some (name, capability) => do
    if name ∈ found.matched then throw "duplicate per-user Mihomo listener identifier"
    else
      let (kind, representation) ← mihomoRepresentation capability
      if listener.text? "type" ≠ some kind then
        throw "Mihomo per-user listener type does not match the active plan"
      else return ⟨name :: found.matched, found.users ++ representation.ids listener⟩

def discoverMihomoConfigUsers (document : Value) (plan : CorePlan) :
    Except String (Finset String) := do
  if ¬((perUserFragments plan).map ServerFragment.profileId).Nodup then
    throw "duplicate per-user Mihomo profile identifier"
  else
    let found ← (document.items "listeners").foldlM (discoverListener plan) ⟨[], []⟩
    return found.users.toFinset

def compareUsers (expected observed : Finset String) : UserSyncObservation :=
  let missing := (expected \ observed).card
  let unexpected := (observed \ expected).card
  if missing = 0 ∧ unexpected = 0 then .inSync expected.card
  else .drift expected.card observed.card missing unexpected

def expectedUsers (plan : CorePlan) : Finset String :=
  (plan.fragments.filterMap ServerFragment.expectedUserIds).foldl (· ∪ ·) ∅

def Flavor.discoverUsers (flavor : Flavor) (plan : CorePlan) (document : Value) :
    Except String (Finset String) :=
  match flavor with
  | .mihomo => discoverMihomoConfigUsers document plan
  | _ => discoverConfigUsers flavor document

/-- `ManagedCoreAdapter::observe_users`, over the live document if there is one. -/
def Flavor.observeUsers (flavor : Flavor) (plan : CorePlan) (live : Option Value) :
    Except String UserSyncObservation := do
  if (perUserFragments plan).isEmpty then return .inSync 0
  else
    let document ← live.elim (.error "runtime user observation requires a live config") .ok
    let observed ← flavor.discoverUsers plan document
    return compareUsers (expectedUsers plan) observed

variable {flavor : Flavor} {plan : CorePlan} {document listener : Value} {name id : String}
variable {fragment : ServerFragment} {expected : Finset String} {listeners : List Value}

theorem mem_expectedUsers : id ∈ expectedUsers plan ↔
    ∃ fragment ∈ plan.fragments, ∃ expected, fragment.expectedUserIds = some expected ∧
      id ∈ expected := by
  have hfold : ∀ (sets : List (Finset String)) (start : Finset String),
      id ∈ sets.foldl (· ∪ ·) start ↔ id ∈ start ∨ ∃ expected ∈ sets, id ∈ expected := by
    intro sets
    induction sets with
    | nil => simp
    | cons first rest ih =>
      intro start
      rw [List.foldl_cons, ih, Finset.mem_union, List.exists_mem_cons_iff, or_assoc]
  rw [expectedUsers, hfold]
  simp only [Finset.notMem_empty, false_or, List.mem_filterMap]
  constructor
  · rintro ⟨expected, ⟨fragment, hfragment, hexpected⟩, hid⟩
    exact ⟨fragment, hfragment, expected, hexpected, hid⟩
  · rintro ⟨fragment, hfragment, expected, hexpected, hid⟩
    exact ⟨expected, ⟨fragment, hfragment, hexpected⟩, hid⟩

/-- A listener of a profile with users of its own, as the plan names it. -/
structure Selected where
  name : String
  capability : String
  listener : Value

def selectedListeners (plan : CorePlan) (listeners : List Value) : List Selected :=
  listeners.filterMap fun listener ↦
    (selectedListener plan listener).map fun selected ↦ ⟨selected.1, selected.2, listener⟩

def Selected.WellTyped (selected : Selected) : Prop :=
  ∃ kind representation, mihomoRepresentation selected.capability = .ok (kind, representation) ∧
    selected.listener.text? "type" = some kind

def mihomoIds (capability : String) (listener : Value) : List String :=
  match mihomoRepresentation capability with
  | .ok (_, representation) => representation.ids listener
  | .error _ => []

variable {found found' : MihomoUsers} {selected : Selected}

theorem discoverListener_none (h : selectedListener plan listener = none) :
    discoverListener plan found listener = .ok found' ↔ found' = found := by
  rw [discoverListener, h, Except.ok.injEq]
  exact ⟨Eq.symm, Eq.symm⟩

theorem discoverListener_some {capability : String}
    (h : selectedListener plan listener = some (name, capability)) :
    discoverListener plan found listener = .ok found' ↔
      name ∉ found.matched ∧ Selected.WellTyped ⟨name, capability, listener⟩ ∧
        found' = ⟨name :: found.matched, found.users ++ mihomoIds capability listener⟩ := by
  simp only [discoverListener, h, Except.guard_eq_ok, Except.bind_eq_ok]
  refine and_congr_right fun _ ↦ ?_
  constructor
  · rintro ⟨⟨kind, representation⟩, hrepresentation, htype, hfound⟩
    refine ⟨⟨kind, representation, hrepresentation, not_not.mp htype⟩, ?_⟩
    rw [← Except.pure_eq_ok.mp hfound, mihomoIds, hrepresentation]
  · rintro ⟨⟨kind, representation, hrepresentation, htype⟩, rfl⟩
    refine ⟨(kind, representation), hrepresentation, not_not.mpr htype, ?_⟩
    rw [mihomoIds, hrepresentation]
    rfl

theorem discoverListeners_ok : listeners.foldlM (discoverListener plan) found = .ok found' ↔
    (∀ selected ∈ selectedListeners plan listeners,
      selected.WellTyped ∧ selected.name ∉ found.matched) ∧
    ((selectedListeners plan listeners).map Selected.name).Nodup ∧
    found' = ⟨((selectedListeners plan listeners).map Selected.name).reverse ++ found.matched,
      found.users ++ (selectedListeners plan listeners).flatMap fun selected ↦
        mihomoIds selected.capability selected.listener⟩ := by
  induction listeners generalizing found with
  | nil =>
    rw [List.foldlM_nil, Except.pure_eq_ok]
    simp only [selectedListeners, List.filterMap_nil, List.not_mem_nil, false_imp_iff,
      implies_true, List.map_nil, List.nodup_nil, List.reverse_nil, List.nil_append,
      List.flatMap_nil, List.append_nil, true_and]
    exact ⟨Eq.symm, Eq.symm⟩
  | cons listener rest ih =>
    rw [List.foldlM_cons, Except.bind_eq_ok]
    cases h : selectedListener plan listener with
    | none =>
      have hrest : selectedListeners plan (listener :: rest) = selectedListeners plan rest := by
        rw [selectedListeners, List.filterMap_cons, h]
        rfl
      simp only [discoverListener_none h, exists_eq_left, ih, hrest]
    | some selected =>
      obtain ⟨name, capability⟩ := selected
      have hrest : selectedListeners plan (listener :: rest) =
          ⟨name, capability, listener⟩ :: selectedListeners plan rest := by
        rw [selectedListeners, List.filterMap_cons, h]
        rfl
      simp only [discoverListener_some h, ih, hrest, List.forall_mem_cons, List.map_cons,
        List.nodup_cons, List.flatMap_cons, List.reverse_cons, List.append_assoc]
      constructor
      · rintro ⟨middle, ⟨hname, htyped, rfl⟩, hall, hnodup, hfound⟩
        refine ⟨⟨⟨htyped, hname⟩, fun other hother ↦ ⟨(hall other hother).1, ?_⟩⟩, ⟨?_, hnodup⟩, ?_⟩
        · exact fun hmem ↦ (hall other hother).2 (List.mem_cons_of_mem _ hmem)
        · intro hmem
          obtain ⟨other, hother, hsame⟩ := List.mem_map.mp hmem
          exact (hall other hother).2 (hsame ▸ List.mem_cons_self)
        · simpa using hfound
      · rintro ⟨⟨⟨htyped, hname⟩, hall⟩, ⟨hfresh, hnodup⟩, hfound⟩
        refine ⟨_, ⟨hname, htyped, rfl⟩, fun other hother ↦ ⟨(hall other hother).1, ?_⟩, hnodup, ?_⟩
        · rw [List.mem_cons, not_or]
          exact ⟨fun hsame ↦ hfresh (hsame ▸ List.mem_map_of_mem hother), (hall other hother).2⟩
        · simpa using hfound

/-- What Mihomo's discovery does not accept: two profiles or two listeners of one name, or
a listener whose type is not that of its profile. -/
def Flavor.Refuses (flavor : Flavor) (plan : CorePlan) (document : Value) : Prop :=
  flavor = .mihomo ∧
    (¬((perUserFragments plan).map ServerFragment.profileId).Nodup ∨
      (∃ selected ∈ selectedListeners plan (document.items "listeners"), ¬selected.WellTyped) ∨
      ¬((selectedListeners plan (document.items "listeners")).map Selected.name).Nodup)

def Flavor.documentUsers (flavor : Flavor) (plan : CorePlan) (document : Value) : List String :=
  match flavor with
  | .xray => (document.items "inbounds").flatMap xrayClients
  | .singBox => (document.items "inbounds").flatMap (idsOfEntries "users" "uuid")
  | .tuic => idsOfKeys "users" document
  | .hysteria => []
  | .mihomo => (selectedListeners plan (document.items "listeners")).flatMap fun selected ↦
      mihomoIds selected.capability selected.listener

theorem discoverUsers_ok {users : Finset String} :
    flavor.discoverUsers plan document = .ok users ↔
      ¬flavor.Refuses plan document ∧ users = (flavor.documentUsers plan document).toFinset := by
  cases flavor with
  | mihomo =>
    simp only [Flavor.discoverUsers, discoverMihomoConfigUsers, Flavor.Refuses,
      Flavor.documentUsers, Except.guard_eq_ok, Except.bind_eq_ok, discoverListeners_ok, not_not,
      true_and, not_or, List.not_mem_nil, not_false_eq_true, and_true, List.nil_append,
      List.append_nil, Except.pure_eq_ok]
    push Not
    constructor
    · rintro ⟨hprofiles, found, ⟨htyped, hnames, rfl⟩, rfl⟩
      exact ⟨⟨hprofiles, htyped, hnames⟩, rfl⟩
    · rintro ⟨⟨hprofiles, htyped, hnames⟩, rfl⟩
      exact ⟨hprofiles, _, ⟨htyped, hnames, rfl⟩, rfl⟩
  | xray | singBox | tuic =>
    simp only [Flavor.discoverUsers, discoverConfigUsers, Flavor.Refuses, Flavor.documentUsers,
      reduceCtorEq, false_and, not_false_eq_true, true_and, Except.ok.injEq]
    exact ⟨Eq.symm, Eq.symm⟩
  | hysteria =>
    simp only [Flavor.discoverUsers, discoverConfigUsers, Flavor.Refuses, Flavor.documentUsers,
      reduceCtorEq, false_and, not_false_eq_true, true_and, Except.ok.injEq, List.toFinset_nil]
    exact ⟨Eq.symm, Eq.symm⟩

/-- The listeners of a profile in a live document, each as the users it authorizes. A
native runtime has one listener, without a name; Hysteria's has no users of its own. -/
def Flavor.authorized (flavor : Flavor) (document : Value) (fragment : ServerFragment) :
    List (List String) :=
  match flavor with
  | .xray => ((document.items "inbounds").filter fun inbound ↦
      inbound.text? "tag" = some fragment.profileId).map xrayClients
  | .singBox => ((document.items "inbounds").filter fun inbound ↦
      inbound.text? "tag" = some fragment.profileId).map (idsOfEntries "users" "uuid")
  | .tuic => [idsOfKeys "users" document]
  | .hysteria => [[]]
  | .mihomo => ((document.items "listeners").filter fun listener ↦
      listener.text? "name" = some fragment.profileId).map (mihomoIds fragment.capability)

/-- A plan as the adapters render it, for profiles of different names. -/
structure Rendered (plan : CorePlan) : Prop where
  rendered : ∀ fragment ∈ plan.fragments, ∃ json ∈ protocols, ∃ context,
    json.renderServer context = .ok fragment
  distinct : (plan.fragments.map ServerFragment.profileId).Nodup

def tunnelContext (name : String) (port : ℕ) : ServerRenderContext where
  profile :=
    { name := name
      displayName := "Tunnel"
      protocolId := "trusttunnel-h2"
      schemaVersion := 1
      role := .compatibility
      server := "node.example.test"
      port := port
      enabled := true
      preferredCoreId := some "mihomo"
      managedResourceId := none
      config := .object [("sni", .string "node.example.test")] }
  users := [⟨"alice", "u-1", "t-1"⟩]
  secrets := fun _ ↦ .error "secret is not configured"

def tunnelFragment (name : String) (port : ℕ) : ServerFragment where
  profileId := name
  capability := "trusttunnel-h2"
  payload := .object
    [("server", .string "node.example.test"), ("port", .number port),
      ("config", .object [("sni", .string "node.example.test")]),
      ("users", .array [.object [("username", .string "alice"), ("uuid", .string "u-1")]]),
      ("resolved_secrets", .object []), ("managed_resource_id", .null)]
  expectedUserIds := some {"u-1"}
  listeners := [⟨.tcp, port⟩]

theorem tunnel_rendered (name : String) (port : ℕ) :
    trustTunnel.renderServer (tunnelContext name port) = .ok (tunnelFragment name port) := by
  rfl

def tunnelPlan : CorePlan :=
  ⟨1, "mihomo", [tunnelFragment "FIRST" 15443, tunnelFragment "SECOND" 16443]⟩

theorem tunnelPlan_rendered : Rendered tunnelPlan := by
  refine ⟨fun fragment hfragment ↦ ?_, by decide⟩
  have hdeclared : trustTunnel ∈ protocols := by simp [protocols, trustTunnel]
  rcases List.mem_pair.mp hfragment with rfl | rfl
  · exact ⟨_, hdeclared, _, tunnel_rendered _ _⟩
  · exact ⟨_, hdeclared, _, tunnel_rendered _ _⟩

end StealthHub.Adapters

import StealthHub.Adapters.ProtocolsSpec
import StealthHub.Data.Collect
import StealthHub.Storage.Profiles

set_option autoImplicit false

namespace StealthHub.Reconcile

open Storage Adapters

def maxSecretBytes : ℕ := 8192

/-- What a name of the root-only directory leads to. `isFile` does not follow a
symbolic link, `leads` does. -/
structure SecretFile where
  isFile : Bool
  leads : Bool
  length : ℕ
  uid : ℕ
  mode : ℕ
  text : Except String String
  file_leads : isFile → leads

structure PrivilegedSecretStore where
  directory : OrderedMap String SecretFile
  requiredUid : ℕ

namespace PrivilegedSecretStore

variable (store : PrivilegedSecretStore)

def read (reference : SecretRef) : Except String String :=
  match store.directory.get? reference.name with
  | none => .error "required privileged secret reference is unresolved"
  | some file =>
    if !file.isFile ∨ maxSecretBytes < file.length then
      .error "privileged secret must be a bounded regular file"
    else if file.uid ≠ store.requiredUid ∨ file.mode &&& 0o077 ≠ 0 then
      .error "privileged secret has unsafe ownership or mode"
    else file.text.bind secretValue

/-- `path(reference).exists()`. -/
def pathExists (reference : SecretRef) : Bool :=
  (store.directory.get? reference.name).any SecretFile.leads

variable {store} {reference : SecretRef}

theorem read_of_not_exists (h : store.pathExists reference = false) (value : String) :
    store.read reference ≠ .ok value := by
  rw [read]
  cases hget : store.directory.get? reference.name with
  | none => simp
  | some file =>
    have hleads : file.leads = false := by
      rw [pathExists, hget] at h
      simpa using h
    have hfile : file.isFile = false := by
      cases hfile : file.isFile with
      | false => rfl
      | true => exact absurd (file.file_leads hfile) (by simp [hleads])
    simp [hfile]

end PrivilegedSecretStore

def resolveServerSecret (store : PrivilegedSecretStore) (db : Database) (reference : SecretRef)
    (serverOnly : Bool) : Except String String :=
  if serverOnly then store.read reference
  else if store.pathExists reference then store.read reference
  else match getSecret db reference.name with
    | some value => secretValue value
    | none => .error "required shared secret reference is unresolved"

/-- What the adapter of a profile says of its server secrets. -/
structure ServerReferences where
  all : List SecretRef
  serverOnly : List SecretRef

def serverReferences (registry : ProtocolRegistry) (profile : ProtocolProfile) :
    Except String ServerReferences := do
  let adapter ← (registry.get profile.protocolId).elim
    (.error "desired protocol adapter is missing") .ok
  let serverOnly ← adapter.serverOnlySecretReferences profile.config
  let all ← adapter.serverSecretReferences profile.config
  return ⟨all, serverOnly⟩

def loadProfileSecrets (store : PrivilegedSecretStore) (db : Database)
    (registry : ProtocolRegistry) (values : OrderedMap String String)
    (profile : ProtocolProfile) : Except String (OrderedMap String String) := do
  let references ← serverReferences registry profile
  references.all.foldlM (OrderedMap.remember SecretRef.name fun reference ↦
    resolveServerSecret store db reference (reference ∈ references.serverOnly)) values

def loadPrivilegedSecrets (store : PrivilegedSecretStore) (db : Database)
    (registry : ProtocolRegistry) (profiles : List ProtocolProfile) :
    Except String (OrderedMap String String) :=
  (profiles.filter ProtocolProfile.enabled).foldlM (loadProfileSecrets store db registry) .empty

variable {store : PrivilegedSecretStore} {db : Database} {registry : ProtocolRegistry}
variable {profile : ProtocolProfile} {profiles order : List ProtocolProfile}
variable {references : ServerReferences} {values values' : OrderedMap String String}

abbrev Mention := SecretRef × Bool

def Mention.name (mention : Mention) : String := mention.1.name

def Mention.resolve (store : PrivilegedSecretStore) (db : Database) (mention : Mention) :
    Except String String :=
  resolveServerSecret store db mention.1 mention.2

def ServerReferences.mentions (references : ServerReferences) : List Mention :=
  references.all.map fun reference ↦ (reference, decide (reference ∈ references.serverOnly))

def mentions (registry : ProtocolRegistry) (profile : ProtocolProfile) : List Mention :=
  ((serverReferences registry profile).toOption.map ServerReferences.mentions).getD []

theorem mentions_of_ok (h : serverReferences registry profile = .ok references) :
    mentions registry profile = references.mentions := by
  rw [mentions, h]
  rfl

theorem loadProfileSecrets_ok :
    loadProfileSecrets store db registry values profile = .ok values' ↔
      (∃ references, serverReferences registry profile = .ok references) ∧
        (mentions registry profile).foldlM
          (OrderedMap.remember Mention.name (Mention.resolve store db)) values = .ok values' := by
  rw [loadProfileSecrets]
  cases h : serverReferences registry profile with
  | error m =>
    refine iff_of_false (fun h ↦ by cases h) ?_
    simp
  | ok references =>
    rw [mentions_of_ok h, ServerReferences.mentions, List.foldlM_map]
    simp only [Except.ok.injEq, exists_eq', true_and]
    rfl

theorem loadPrivilegedSecrets_ok :
    loadPrivilegedSecrets store db registry profiles = .ok values ↔
      (∀ profile ∈ profiles, profile.enabled →
        ∃ references, serverReferences registry profile = .ok references) ∧
      OrderedMap.collect Mention.name (Mention.resolve store db)
        ((profiles.filter ProtocolProfile.enabled).flatMap (mentions registry)) = .ok values := by
  have hfold : ∀ (profiles : List ProtocolProfile) (start : OrderedMap String String),
      profiles.foldlM (loadProfileSecrets store db registry) start = .ok values ↔
        (∀ profile ∈ profiles, ∃ references, serverReferences registry profile = .ok references) ∧
          (profiles.flatMap (mentions registry)).foldlM
            (OrderedMap.remember Mention.name (Mention.resolve store db)) start = .ok values := by
    intro profiles
    induction profiles with
    | nil => simp
    | cons profile rest ih =>
      intro start
      simp only [List.foldlM_cons, Except.bind_eq_ok, loadProfileSecrets_ok, ih,
        List.flatMap_cons, List.foldlM_append, List.forall_mem_cons]
      constructor
      · intro ⟨middle, ⟨href, hmiddle⟩, hrest, h⟩
        exact ⟨⟨href, hrest⟩, middle, hmiddle, h⟩
      · intro ⟨⟨href, hrest⟩, middle, hmiddle, h⟩
        exact ⟨middle, ⟨href, hmiddle⟩, hrest, h⟩
  rw [loadPrivilegedSecrets, hfold, OrderedMap.collect]
  simp only [List.mem_filter, and_imp]

/-- Every reference that an enabled profile keeps from the panel has its value from
the root-only directory. -/
def FromRootStore (store : PrivilegedSecretStore) (registry : ProtocolRegistry)
    (profiles : List ProtocolProfile) (values : OrderedMap String String) : Prop :=
  ∀ profile ∈ profiles, profile.enabled → ∀ references,
    serverReferences registry profile = .ok references → ∀ reference ∈ references.serverOnly,
      ∃ value, store.read reference = .ok value ∧ values.get? reference.name = some value

/-- A reference of one enabled profile is kept from the panel by another, is not in the
root-only directory, and has a value in the panel's database. -/
def Aliased (store : PrivilegedSecretStore) (db : Database) (registry : ProtocolRegistry)
    (profiles : List ProtocolProfile) : Prop :=
  ∃ keeper ∈ profiles, ∃ sharer ∈ profiles, keeper.enabled ∧ sharer.enabled ∧ ∃ reference,
    (reference, true) ∈ mentions registry keeper ∧ (reference, false) ∈ mentions registry sharer ∧
      store.pathExists reference = false ∧
      ∃ stored value, getSecret db reference.name = some stored ∧ secretValue stored = .ok value

/-- The adapter of every enabled profile can read its references, and the profile that
mentions a reference first can resolve it. -/
def Resolves (store : PrivilegedSecretStore) (db : Database) (registry : ProtocolRegistry)
    (order : List ProtocolProfile) : Prop :=
  (∀ profile ∈ order, profile.enabled →
    ∃ references, serverReferences registry profile = .ok references) ∧
  ∀ mention, OrderedMap.First Mention.name
      ((order.filter ProtocolProfile.enabled).flatMap (mentions registry)) mention →
    ∃ value, mention.resolve store db = .ok value

theorem exists_load_iff : (∃ values, loadPrivilegedSecrets store db registry profiles = .ok values) ↔
    Resolves store db registry profiles := by
  simp only [loadPrivilegedSecrets_ok]
  constructor
  · intro ⟨values, hrefs, h⟩
    refine ⟨hrefs, fun mention hfirst ↦ ?_⟩
    obtain ⟨value, hvalue, -⟩ := (OrderedMap.collect_ok h).1 mention hfirst
    exact ⟨value, hvalue⟩
  · intro ⟨hrefs, hfirst⟩
    obtain ⟨values, h⟩ := OrderedMap.exists_collect hfirst
    exact ⟨values, hrefs, h⟩

theorem mem_mentions {mention : Mention} :
    mention ∈ (profiles.filter ProtocolProfile.enabled).flatMap (mentions registry) ↔
      ∃ profile ∈ profiles, profile.enabled ∧ mention ∈ mentions registry profile := by
  simp only [List.mem_flatMap, List.mem_filter, and_assoc]

theorem resolve_alike (h : ¬Aliased store db registry profiles) {a b : Mention}
    (ha : a ∈ (profiles.filter ProtocolProfile.enabled).flatMap (mentions registry))
    (hb : b ∈ (profiles.filter ProtocolProfile.enabled).flatMap (mentions registry))
    (hname : a.name = b.name) (value : String) (hvalue : a.resolve store db = .ok value) :
    b.resolve store db = .ok value := by
  obtain ⟨reference, x⟩ := a
  obtain ⟨reference', y⟩ := b
  cases (SecretRef.ext hname : reference = reference')
  obtain ⟨p, hp, hpEnabled, hpMention⟩ := mem_mentions.mp ha
  obtain ⟨q, hq, hqEnabled, hqMention⟩ := mem_mentions.mp hb
  by_cases hexists : store.pathExists reference
  · simp only [Mention.resolve, resolveServerSecret, hexists, if_true, ite_self] at hvalue ⊢
    exact hvalue
  · have habsent : store.pathExists reference = false := by simpa using hexists
    cases x with
    | true =>
      exact absurd hvalue (PrivilegedSecretStore.read_of_not_exists habsent value)
    | false =>
      cases y with
      | false => exact hvalue
      | true =>
        refine absurd ⟨q, hq, p, hp, hqEnabled, hpEnabled, reference, hqMention, hpMention,
          habsent, ?_⟩ h
        simp only [Mention.resolve, resolveServerSecret, habsent, if_false, Bool.false_eq_true]
          at hvalue
        cases hstored : getSecret db reference.name with
        | none => simp [hstored] at hvalue
        | some stored => exact ⟨stored, value, rfl, by simpa [hstored] using hvalue⟩

theorem builtIn_serverOnly {references : ServerReferences}
    (h : serverReferences builtInProtocols profile = .ok references) {reference : SecretRef}
    (hmem : reference ∈ references.serverOnly) :
    (reference, true) ∈ mentions builtInProtocols profile := by
  rw [mentions_of_ok h]
  obtain ⟨adapter, hadapter, h⟩ := Except.bind_eq_ok.mp h
  obtain ⟨serverOnly, honly, h⟩ := Except.bind_eq_ok.mp h
  obtain ⟨all, hall, h⟩ := Except.bind_eq_ok.mp h
  cases Except.pure_eq_ok.mp h
  obtain ⟨json, hjson, rfl, -⟩ := builtInProtocols_get.mp (Except.elim_eq_ok.mp hadapter)
  exact List.mem_map.mpr ⟨reference, serverOnly_subset hjson honly hall hmem, by simp [hmem]⟩

theorem aliased_perm (h : order.Perm profiles) :
    Aliased store db registry order ↔ Aliased store db registry profiles := by
  simp only [Aliased, h.mem_iff]

theorem load_perm (hperm : order.Perm profiles) (h : ¬Aliased store db registry profiles)
    (hload : loadPrivilegedSecrets store db registry profiles = .ok values) :
    loadPrivilegedSecrets store db registry order = .ok values := by
  obtain ⟨hrefs, hcollect⟩ := loadPrivilegedSecrets_ok.mp hload
  refine loadPrivilegedSecrets_ok.mpr ⟨fun profile hmem ↦ hrefs profile (hperm.mem_iff.mp hmem), ?_⟩
  refine OrderedMap.collect_perm ((hperm.symm.filter _).flatMap_right _) ?_ hcollect
  intro a ha b hb hname value
  exact resolve_alike h ha hb hname value

theorem fromRootStore_of_load (h : ¬Aliased store db builtInProtocols profiles)
    (hload : loadPrivilegedSecrets store db builtInProtocols profiles = .ok values) :
    FromRootStore store builtInProtocols profiles values := by
  obtain ⟨-, hcollect⟩ := loadPrivilegedSecrets_ok.mp hload
  intro profile hmem henabled references href reference honly
  have hmention : (reference, true) ∈
      (profiles.filter ProtocolProfile.enabled).flatMap (mentions builtInProtocols) :=
    mem_mentions.mpr ⟨profile, hmem, henabled, builtIn_serverOnly href honly⟩
  obtain ⟨first, hfirst, hname⟩ := OrderedMap.exists_first hmention
  obtain ⟨value, hvalue, hget⟩ := (OrderedMap.collect_ok hcollect).1 first hfirst
  refine ⟨value, resolve_alike h hfirst.mem hmention hname value hvalue, ?_⟩
  rw [show reference.name = Mention.name first from hname.symm]
  exact hget

/-- The worker keeps to the root-only directory, and to one outcome in every order of the
profiles, exactly when no reference is aliased so or no order resolves at all. -/
theorem secrets_isolated_iff (store : PrivilegedSecretStore) (db : Database)
    (profiles : List ProtocolProfile) :
    (∀ order, order.Perm profiles →
      (∀ values, loadPrivilegedSecrets store db builtInProtocols order = .ok values →
        FromRootStore store builtInProtocols order values) ∧
      (loadPrivilegedSecrets store db builtInProtocols order).toOption =
        (loadPrivilegedSecrets store db builtInProtocols profiles).toOption) ↔
    ¬Aliased store db builtInProtocols profiles ∨
      ∀ order, order.Perm profiles → ¬Resolves store db builtInProtocols order := by
  constructor
  · intro hisolated
    by_contra hneither
    push Not at hneither
    obtain ⟨haliased, order, hperm, hresolves⟩ := hneither
    obtain ⟨values, hload⟩ := exists_load_iff.mpr hresolves
    obtain ⟨keeper, hkeeper, -, -, hkeeperEnabled, -, reference, hmention, -, habsent, -⟩ :=
      (aliased_perm hperm).mpr haliased
    obtain ⟨references, href⟩ := hresolves.1 keeper hkeeper hkeeperEnabled
    have honly : reference ∈ references.serverOnly := by
      rw [mentions_of_ok href] at hmention
      obtain ⟨other, -, hother⟩ := List.mem_map.mp hmention
      obtain ⟨rfl, htrue⟩ := Prod.mk.inj hother
      exact of_decide_eq_true htrue
    obtain ⟨value, hread, -⟩ :=
      (hisolated order hperm).1 values hload keeper hkeeper hkeeperEnabled references href
        reference honly
    exact PrivilegedSecretStore.read_of_not_exists habsent value hread
  · intro hcondition order hperm
    rcases hcondition with hunaliased | hunresolved
    · have horder : ¬Aliased store db builtInProtocols order :=
        (aliased_perm hperm).not.mpr hunaliased
      refine ⟨fun values ↦ fromRootStore_of_load horder, ?_⟩
      cases hload : loadPrivilegedSecrets store db builtInProtocols profiles with
      | ok values => rw [load_perm hperm hunaliased hload]
      | error m =>
        cases hload' : loadPrivilegedSecrets store db builtInProtocols order with
        | error m' => rfl
        | ok values =>
          have hback := load_perm hperm.symm horder hload'
          rw [hload] at hback
          cases hback
    · have hfails : ∀ order, order.Perm profiles → ∀ values,
          loadPrivilegedSecrets store db builtInProtocols order ≠ .ok values := by
        intro order hperm values hload
        exact hunresolved order hperm (exists_load_iff.mp ⟨values, hload⟩)
      refine ⟨fun values hload ↦ absurd hload (hfails order hperm values), ?_⟩
      have hnone : ∀ order, order.Perm profiles →
          (loadPrivilegedSecrets store db builtInProtocols order).toOption = none := by
        intro order hperm
        cases hload : loadPrivilegedSecrets store db builtInProtocols order with
        | error m => rfl
        | ok values => exact absurd hload (hfails order hperm values)
      rw [hnone order hperm, hnone profiles (.refl _)]

def sharingProfile : ProtocolProfile where
  name := "SHARER"
  displayName := "Sharer"
  protocolId := "hysteria2"
  schemaVersion := 1
  role := .speed
  server := "node.example.test"
  port := 8443
  enabled := true
  preferredCoreId := none
  managedResourceId := none
  config := .object [("password_secret", .string "node.key"), ("sni", .string "node.example.test")]

def keepingProfile : ProtocolProfile :=
  { sharingProfile with
    name := "KEEPER"
    protocolId := "vless-reality-tcp"
    port := 443
    config := .object
      [("server_name", .string "www.example.test"), ("public_key_secret", .string "node.public"),
        ("short_id_secret", .string "node.short"), ("private_key_secret", .string "node.key")] }

def noPrivilegedSecrets : PrivilegedSecretStore := ⟨.empty, 0⟩

def sharedSecrets : Database :=
  { initDb with secrets := .ofList [("node.key", "panel value"), ("node.short", "ab12")] }

theorem sharer_serverReferences : serverReferences builtInProtocols sharingProfile =
    .ok ⟨[⟨"node.key", rfl⟩], []⟩ := by
  have hregistered : builtInProtocols.get "hysteria2" = some protocols[6].toAdapter :=
    builtInProtocols_get.mpr ⟨_, List.getElem_mem _, rfl, rfl⟩
  rw [serverReferences, show sharingProfile.protocolId = "hysteria2" from rfl, hregistered]
  rfl

theorem keeper_serverReferences : serverReferences builtInProtocols keepingProfile =
    .ok ⟨[⟨"node.short", rfl⟩, ⟨"node.key", rfl⟩], [⟨"node.key", rfl⟩]⟩ := by
  have hregistered : builtInProtocols.get "vless-reality-tcp" = some protocols[1].toAdapter :=
    builtInProtocols_get.mpr ⟨_, List.getElem_mem _, rfl, rfl⟩
  rw [serverReferences, show keepingProfile.protocolId = "vless-reality-tcp" from rfl, hregistered]
  rfl

theorem sharer_first_loads :
    (loadPrivilegedSecrets noPrivilegedSecrets sharedSecrets builtInProtocols
      [sharingProfile, keepingProfile]).isOk := by
  have henabled : [sharingProfile, keepingProfile].filter ProtocolProfile.enabled =
      [sharingProfile, keepingProfile] := rfl
  simp only [loadPrivilegedSecrets, henabled, List.foldlM_cons, List.foldlM_nil,
    loadProfileSecrets, sharer_serverReferences, keeper_serverReferences]
  decide

theorem private_key_from_panel :
    ¬∀ (store : PrivilegedSecretStore) (db : Database) (profiles order : List ProtocolProfile),
      order.Perm profiles →
      (∀ values, loadPrivilegedSecrets store db builtInProtocols order = .ok values →
        FromRootStore store builtInProtocols order values) ∧
      (loadPrivilegedSecrets store db builtInProtocols order).toOption =
        (loadPrivilegedSecrets store db builtInProtocols profiles).toOption := by
  intro hall
  have hloads := sharer_first_loads
  cases hload : loadPrivilegedSecrets noPrivilegedSecrets sharedSecrets builtInProtocols
      [sharingProfile, keepingProfile] with
  | error m =>
    rw [hload] at hloads
    cases hloads
  | ok values =>
    obtain ⟨value, hread, -⟩ := (hall _ _ _ _ (.refl _)).1 values hload keepingProfile (by simp)
      rfl _ keeper_serverReferences ⟨"node.key", rfl⟩ (List.mem_singleton_self _)
    cases hread

end StealthHub.Reconcile

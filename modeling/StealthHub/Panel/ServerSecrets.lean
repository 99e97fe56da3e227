import StealthHub.Adapters.Cores
import StealthHub.Panel.Admission
import StealthHub.Reconcile.Privileged
import StealthHub.Storage.References

set_option autoImplicit false

namespace StealthHub.Panel

open Effect Effect.Program Reconcile Storage Text Adapters

variable {json : Json} {db db' : Database} {cores : CoreRegistry} {host : Host}
variable {candidate profile : ProtocolProfile} {adapter : ProtocolAdapter} {name : String}
variable {store : PrivilegedSecretStore} {record : ProtocolProfileRecord}

/-- A candidate that the worker can serve: its core runs, its listener is free, the panel
has the secrets of its clients, and the worker resolves those of its server. Its display
name is one that the forms of the panel let through. -/
structure Applicable (json : Json) (store : PrivilegedSecretStore) (db : Database)
    (cores : CoreRegistry) (host : Host) (candidate : ProtocolProfile)
    (adapter : ProtocolAdapter) : Prop where
  displayName : validDisplayName candidate.displayName
  registered : builtInProtocols.get candidate.protocolId = some adapter
  config : adapter.validateConfig candidate.schemaVersion candidate.config = .ok ()
  core : ∃ core,
    (∀ preferred, candidate.preferredCoreId = some preferred → cores.get preferred = some core) ∧
    (candidate.preferredCoreId = none → core ∈ cores.adapters.values) ∧
    adapter.manifest.requiredCoreCapabilities ⊆ core.manifest.capabilities ∧
    host.Runs core adapter.manifest.requiredCoreCapabilities
  listener : ∃ existing, listProtocolProfilesDecoded json db = .ok existing ∧
    ∀ profile ∈ existing,
      ¬Conflicts builtInProtocols adapter.manifest.listenerNetwork candidate profile
  client : ∃ references, adapter.clientSecretReferences candidate.config = .ok references ∧
    ∀ reference ∈ references, reference.name ∈ listSecretNames db
  server : ∃ references serverOnly, adapter.serverSecretReferences candidate.config = .ok references ∧
    adapter.serverOnlySecretReferences candidate.config = .ok serverOnly ∧
    ∀ reference ∈ references, ∃ value,
      resolveServerSecret store db reference (reference ∈ serverOnly) = .ok value

/-- A name that the adapter of a profile keeps from the panel. -/
def KeptFromPanel (profile : ProtocolProfile) (name : String) : Prop :=
  ∃ adapter, builtInProtocols.get profile.protocolId = some adapter ∧
    ∃ references, adapter.serverOnlySecretReferences profile.config = .ok references ∧
      ∃ reference ∈ references, reference.name = name

/-- The host answers for every core that is asked after for an enabled profile without a
preference. -/
def ProbesAnswer (cores : CoreRegistry) (host : Host) (candidate : ProtocolProfile)
    (adapter : ProtocolAdapter) : Prop :=
  candidate.enabled → candidate.preferredCoreId = none →
    host.Answers adapter.manifest.requiredCoreCapabilities
      (cores.compatible adapter.manifest.requiredCoreCapabilities)

theorem select_of_applicable (h : Applicable json store db cores host candidate adapter) :
    (∃ core, (select cores adapter.manifest.requiredCoreCapabilities
      candidate.preferredCoreId).under host = .ok (some core)) ↔
      (candidate.preferredCoreId = none → host.Answers adapter.manifest.requiredCoreCapabilities
        (cores.compatible adapter.manifest.requiredCoreCapabilities)) := by
  obtain ⟨core, hpreferred, hany, hcapable, hruns⟩ := h.core
  cases hid : candidate.preferredCoreId with
  | some id =>
    refine iff_of_true ⟨core, ?_⟩ nofun
    exact select_preferred.mpr ⟨hpreferred id hid, hcapable, hruns⟩
  | none =>
    have hmem : core ∈ cores.compatible adapter.manifest.requiredCoreCapabilities :=
      CoreRegistry.mem_compatible.mpr ⟨hany hid, hcapable⟩
    simp only [select, firstUsable_some, forall_const]
    exact and_iff_left ⟨core, hmem, hruns⟩

theorem runtime_of_applicable (h : Applicable json store db cores host candidate adapter) :
    validateRuntime cores adapter.manifest.requiredCoreCapabilities
      candidate.preferredCoreId = .ok () := by
  obtain ⟨core, hpreferred, hany, hcapable, -⟩ := h.core
  cases hid : candidate.preferredCoreId with
  | some id => exact validateRuntime_preferred.mpr ⟨core, hpreferred id hid, hcapable⟩
  | none => exact validateRuntime_any.mpr ⟨core, hany hid, hcapable⟩

/-- The panel accepts what the worker can serve exactly when it has the secrets that it is
never to have, and no probe of a core fails. -/
theorem publish_accepts_iff (h : Applicable json store db cores host candidate adapter) :
    (validateProfileForPublish json db builtInProtocols cores candidate).under host = .ok () ↔
      (∀ name, KeptFromPanel candidate name → name ∈ listSecretNames db) ∧
        ProbesAnswer cores host candidate adapter := by
  obtain ⟨json', hdeclared, rfl, -⟩ := builtInProtocols_get.mp h.registered
  obtain ⟨existing, hexisting, hlistener⟩ := h.listener
  obtain ⟨client, hclient, hclientNames⟩ := h.client
  obtain ⟨server, serverOnly, hserver, honly, -⟩ := h.server
  rw [validateForPublish_ok]
  constructor
  · rintro ⟨existing', -, adapter, hadmitted⟩
    obtain rfl : json'.toAdapter = adapter :=
      Option.some.inj (h.registered.symm.trans hadmitted.registered)
    constructor
    · rintro name ⟨adapter, hadapter, references, hreferences, reference, hmem, rfl⟩
      cases Option.some.inj (h.registered.symm.trans hadapter)
      obtain ⟨all, hall, hnames⟩ := hadmitted.secrets
      obtain ⟨client', server', -, hserver', hunion⟩ := mem_secretReferences hall
      exact hnames reference
        ((hunion reference).mpr (.inr (serverOnly_subset hdeclared hreferences hserver' hmem)))
    · intro henabled hnone
      exact (select_of_applicable h).mp (hadmitted.core henabled) hnone
  · rintro ⟨hkept, hprobes⟩
    refine ⟨existing, hexisting, json'.toAdapter, h.displayName, h.registered, h.config, ?_,
      runtime_of_applicable h, fun _ ↦ hlistener, fun henabled ↦ ?_⟩
    · obtain ⟨all, hall⟩ := secretReferences_ok hclient hserver
      refine ⟨all, hall, fun reference hmem ↦ ?_⟩
      obtain ⟨client', server', hclient', hserver', hunion⟩ := mem_secretReferences hall
      cases hclient.symm.trans hclient'
      cases hserver.symm.trans hserver'
      rcases (hunion reference).mp hmem with hmem | hmem
      · exact hclientNames reference hmem
      · rcases server_reference hdeclared hclient honly hserver hmem with hmem | hmem
        · exact hkept _ ⟨_, h.registered, serverOnly, honly, reference, hmem, rfl⟩
        · exact hclientNames reference hmem
    · exact (select_of_applicable h).mpr (hprobes henabled)

def vlessRealityTcp : JsonProtocolAdapter :=
  .new "vless-reality-tcp" "VLESS REALITY TCP" .vlessTcp
    [textField "server_name", secretField "public_key_secret" true,
      secretField "short_id_secret" true, secretField "private_key_secret" true] .perUserUuid .tcp

def realityConfig : Value := .object
  [("server_name", .string "www.example.test"), ("public_key_secret", .string "node.public"),
    ("short_id_secret", .string "node.short"), ("private_key_secret", .string "node.key")]

def realityProfile : ProtocolProfile where
  name := "reality"
  displayName := "Reality"
  protocolId := "vless-reality-tcp"
  schemaVersion := 1
  role := .autoSafe
  server := "node.example.test"
  port := 8443
  enabled := true
  preferredCoreId := some "mihomo"
  managedResourceId := some "reality"
  config := realityConfig

def keyStore : PrivilegedSecretStore where
  directory := .ofList [("node.key", ⟨true, true, 5, 0, 0o600, .ok "value", fun _ ↦ rfl⟩)]
  requiredUid := 0

def clientSecretsDb : Database :=
  { initDb with secrets := .ofList [("node.public", "pub"), ("node.short", "ab12")] }

def leakedSecretsDb : Database :=
  { initDb with
    secrets := .ofList [("node.key", "value"), ("node.public", "pub"), ("node.short", "ab12")] }

theorem reality_declared : vlessRealityTcp ∈ protocols := by simp [protocols, vlessRealityTcp]

theorem reality_registered :
    builtInProtocols.get "vless-reality-tcp" = some vlessRealityTcp.toAdapter :=
  builtInProtocols_get.mpr ⟨_, reality_declared, rfl, rfl⟩

def realityClientReferences : List SecretRef := [⟨"node.public", rfl⟩, ⟨"node.short", rfl⟩]

def realityServerReferences : List SecretRef := [⟨"node.short", rfl⟩, ⟨"node.key", rfl⟩]

theorem reality_applicable {db : Database} (hdb : db = clientSecretsDb ∨ db = leakedSecretsDb) :
    Applicable emptyObject keyStore db builtInCores readyHost realityProfile
      vlessRealityTcp.toAdapter where
  displayName := by decide
  registered := reality_registered
  config := by rfl
  core := by
    refine ⟨⟨(ManagedCoreAdapter.new "mihomo" "Mihomo" "infiproxy-mihomo.service" .mihomo
      mihomoCapabilities 200).manifest⟩, ?_, nofun, by decide, readyHost_runs _ _⟩
    rintro preferred hpreferred
    cases hpreferred
    refine builtInCores_get.mpr ⟨?_, rfl⟩
    simp [coreAdapters, builtInAdapters]
  listener := by
    rcases hdb with rfl | rfl <;> exact ⟨[], rfl, nofun⟩
  client := by
    rcases hdb with rfl | rfl <;> exact ⟨realityClientReferences, rfl, by decide⟩
  server := by
    refine ⟨realityServerReferences, [⟨"node.key", rfl⟩], rfl, rfl, fun reference hmem ↦ ?_⟩
    rcases List.mem_pair.mp hmem with rfl | rfl
    · rcases hdb with rfl | rfl <;> exact ⟨"ab12", by rfl⟩
    · rcases hdb with rfl | rfl <;> exact ⟨"value", by rfl⟩

theorem applicable_refused :
    ¬∀ (json : Json) (store : PrivilegedSecretStore) (db : Database) (cores : CoreRegistry)
      (host : Host) (candidate : ProtocolProfile) (adapter : ProtocolAdapter),
      Applicable json store db cores host candidate adapter →
      (validateProfileForPublish json db builtInProtocols cores candidate).under host = .ok () := by
  intro hall
  obtain ⟨existing, -, adapter, hadmitted⟩ :=
    validateForPublish_ok.mp (hall _ _ _ _ _ _ _ (reality_applicable (.inl rfl)))
  obtain rfl : vlessRealityTcp.toAdapter = adapter :=
    Option.some.inj (reality_registered.symm.trans hadmitted.registered)
  obtain ⟨all, hreferences, hnames⟩ := hadmitted.secrets
  obtain ⟨client, server, -, hserver, hunion⟩ := mem_secretReferences hreferences
  have hserverReferences : realityServerReferences = server := Except.ok.inj hserver
  have hkey : (⟨"node.key", rfl⟩ : SecretRef) ∈ all := by
    rw [hunion, ← hserverReferences]
    exact .inr (by decide)
  have hnot : "node.key" ∉ listSecretNames clientSecretsDb := by decide
  exact hnot (hnames _ hkey)

theorem publish_accepts_iff_reality :
    (validateProfileForPublish emptyObject leakedSecretsDb builtInProtocols builtInCores
      realityProfile).under readyHost = .ok () := by
  refine (publish_accepts_iff (reality_applicable (.inr rfl))).mpr ⟨?_, fun _ ↦ nofun⟩
  rintro name ⟨adapter, hadapter, references, hreferences, reference, hmem, rfl⟩
  cases hadapter.symm.trans reality_registered
  cases hreferences
  rw [List.mem_singleton.mp hmem]
  decide

end StealthHub.Panel

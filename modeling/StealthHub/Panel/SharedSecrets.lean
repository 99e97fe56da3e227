import StealthHub.Panel.ServerSecrets
import StealthHub.Panel.Subscription

set_option autoImplicit false

namespace StealthHub.Panel

open Text Storage Routing Adapters Reconcile

/-- A file of the root-only directory that has the name of a stored secret has its value. -/
def FileAgrees (store : PrivilegedSecretStore) (db : Database) (reference : SecretRef) : Prop :=
  ∀ file text stored, store.directory.get? reference.name = some file → file.leads →
    file.text = .ok text → getSecret db reference.name = some stored → trim text = trim stored

variable {store : PrivilegedSecretStore} {db : Database} {registry : ProtocolRegistry}
variable {profiles stored : List ProtocolProfile} {privileged shared : OrderedMap String String}
variable {reference : SecretRef} {value text : String}

theorem secretValue_eq (h : secretValue text = .ok value) : value = trim text :=
  (Except.ok.inj (Except.guard_eq_ok.mp h).2).symm

theorem read_ok (h : store.read reference = .ok value) :
    ∃ file text, store.directory.get? reference.name = some file ∧ file.leads ∧
      file.text = .ok text ∧ value = trim text := by
  rw [PrivilegedSecretStore.read] at h
  cases hget : store.directory.get? reference.name with
  | none =>
    rw [hget] at h
    cases h
  | some file =>
    rw [hget] at h
    obtain ⟨hfile, h⟩ := Except.guard_eq_ok.mp h
    obtain ⟨-, h⟩ := Except.guard_eq_ok.mp h
    have hisFile : file.isFile := by simpa using (not_or.mp hfile).1
    obtain ⟨text, htext, hvalue⟩ := Except.bind_eq_ok.mp h
    exact ⟨file, text, rfl, file.file_leads hisFile, htext, secretValue_eq hvalue⟩

theorem loadPrivilegedSecrets_get?
    (h : loadPrivilegedSecrets store db registry profiles = .ok privileged)
    (hvalue : privileged.get? reference.name = some value) :
    store.pathExists reference = true ∧ store.read reference = .ok value ∨
      store.pathExists reference = false ∧
        ∃ stored, getSecret db reference.name = some stored ∧ value = trim stored := by
  obtain ⟨-, hcollect⟩ := loadPrivilegedSecrets_ok.mp h
  obtain ⟨hfirst, hkeys⟩ := OrderedMap.collect_ok hcollect
  have hmem := (hkeys reference.name).mp (by simp [hvalue])
  obtain ⟨mention, hmention, hname⟩ := List.mem_map.mp hmem
  obtain ⟨first, hisFirst, hsame⟩ := OrderedMap.exists_first hmention
  obtain ⟨resolved, hresolved, hget⟩ := hfirst first hisFirst
  have hreference : first.1 = reference := SecretRef.ext (hsame.trans hname)
  rw [hsame, hname, hvalue] at hget
  cases hget
  rw [Mention.resolve, hreference, resolveServerSecret] at hresolved
  by_cases hexists : store.pathExists reference
  · simp only [hexists, if_true, ite_self] at hresolved
    exact .inl ⟨hexists, hresolved⟩
  · have habsent : store.pathExists reference = false := by simpa using hexists
    split at hresolved
    · exact absurd hresolved (PrivilegedSecretStore.read_of_not_exists habsent value)
    cases hstored : getSecret db reference.name with
    | none =>
      rw [hstored] at hresolved
      cases hresolved
    | some stored =>
      rw [hstored] at hresolved
      exact .inr ⟨habsent, stored, rfl, secretValue_eq hresolved⟩

theorem loadSecretValuesMap_resolve (h : loadSecretValuesMap db stored registry = .ok shared)
    (hvalue : mapSecretResolver shared reference.name = .ok value) :
    ∃ text, getSecret db reference.name = some text ∧ value = trim text := by
  have hempty : Holds db [] .empty := fun _ ↦ rfl
  obtain ⟨names, hholds, -⟩ := holds_loadProfiles hempty h
  rw [mapSecretResolver, hholds] at hvalue
  split at hvalue
  · cases hstored : getSecret db reference.name with
    | none =>
      rw [hstored] at hvalue
      cases hvalue
    | some text =>
      rw [hstored] at hvalue
      exact ⟨text, rfl, secretValue_eq hvalue⟩
  · cases hvalue

/-- Where both sides resolve a reference, they have the same value exactly if no file of the
root-only directory says otherwise. -/
theorem shared_secret_agrees_iff (store : PrivilegedSecretStore) (db : Database)
    (profiles : List ProtocolProfile) (privileged shared : OrderedMap String String)
    (reference : SecretRef) (server client : String)
    (hworker : loadPrivilegedSecrets store db builtInProtocols profiles = .ok privileged)
    (hpanel : loadSecretValuesMap db profiles builtInProtocols = .ok shared)
    (hserver : privileged.get? reference.name = some server)
    (hclient : mapSecretResolver shared reference.name = .ok client) :
    server = client ↔ FileAgrees store db reference := by
  obtain ⟨text, htext, rfl⟩ := loadSecretValuesMap_resolve hpanel hclient
  rcases loadPrivilegedSecrets_get? hworker hserver with ⟨-, hread⟩ | ⟨habsent, stored, hstored, rfl⟩
  · obtain ⟨file, content, hfile, hleads, hcontent, rfl⟩ := read_ok hread
    constructor
    · intro hequal file' content' stored hfile' _ hcontent' hstored
      rw [hfile] at hfile'
      cases hfile'
      rw [hcontent] at hcontent'
      cases hcontent'
      rw [htext] at hstored
      cases hstored
      exact hequal
    · exact fun h ↦ h file content text hfile hleads hcontent htext
  · rw [htext] at hstored
    cases hstored
    refine iff_of_true rfl fun file _ _ hfile hleads ↦ ?_
    rw [PrivilegedSecretStore.pathExists, hfile] at habsent
    exact absurd hleads (by simpa using habsent)

def shortIdStore (text : String) : PrivilegedSecretStore :=
  { keyStore with
    directory := keyStore.directory.insert "node.short"
      ⟨true, true, 5, 0, 0o600, .ok text, fun _ ↦ rfl⟩ }

theorem reality_serverReferences : serverReferences builtInProtocols realityProfile =
    .ok ⟨realityServerReferences, [⟨"node.key", rfl⟩]⟩ := by
  rw [serverReferences, show realityProfile.protocolId = "vless-reality-tcp" from rfl,
    reality_registered]
  rfl

theorem reality_declares : Declares builtInProtocols realityProfile realityClientReferences :=
  ⟨_, reality_registered, rfl⟩

theorem reality_worker (text : String) (h : text = "cd34" ∨ text = " ab12 ") :
    (loadPrivilegedSecrets (shortIdStore text) clientSecretsDb builtInProtocols
      [realityProfile]).toOption.bind (·.get? "node.short") = some (trim text) := by
  have henabled : [realityProfile].filter ProtocolProfile.enabled = [realityProfile] := rfl
  simp only [loadPrivilegedSecrets, henabled, List.foldlM_cons, List.foldlM_nil, bind_pure,
    Reconcile.loadProfileSecrets, reality_serverReferences]
  rcases h with rfl | rfl
  · decide
  · decide

theorem reality_panel :
    (loadSecretValuesMap clientSecretsDb [realityProfile] builtInProtocols).toOption.bind
      (fun shared ↦ (mapSecretResolver shared "node.short").toOption) = some "ab12" := by
  have hload : loadProfileSecrets clientSecretsDb builtInProtocols .empty realityProfile =
      .ok (realityClientReferences.foldl (loadReference clientSecretsDb) .empty) :=
    loadProfileSecrets_ok.mpr ⟨_, reality_declares, rfl⟩
  simp only [loadSecretValuesMap, List.foldlM_cons, List.foldlM_nil, bind_pure, hload]
  decide

theorem server_short_id_differs :
    ¬∀ (store : PrivilegedSecretStore) (db : Database) (profiles : List ProtocolProfile)
      (privileged shared : OrderedMap String String) (profile : ProtocolProfile)
      (clientRefs : List SecretRef) (serverRefs : ServerReferences) (reference : SecretRef)
      (server client : String), profile ∈ profiles → profile.enabled →
      Declares builtInProtocols profile clientRefs → reference ∈ clientRefs →
      serverReferences builtInProtocols profile = .ok serverRefs → reference ∈ serverRefs.all →
      loadPrivilegedSecrets store db builtInProtocols profiles = .ok privileged →
      loadSecretValuesMap db profiles builtInProtocols = .ok shared →
      privileged.get? reference.name = some server →
      mapSecretResolver shared reference.name = .ok client → server = client := by
  intro hall
  obtain ⟨privileged, hworker, hserver⟩ :=
    Option.bind_eq_some_iff.mp (reality_worker "cd34" (.inl rfl))
  obtain ⟨shared, hpanel, hclient⟩ := Option.bind_eq_some_iff.mp reality_panel
  rw [Except.toOption_eq_some] at hworker hpanel hclient
  have hequal := hall _ _ _ privileged shared realityProfile _ _ ⟨"node.short", rfl⟩ _ _
    List.mem_cons_self rfl reality_declares (by decide) reality_serverReferences
    (by decide) hworker hpanel hserver hclient
  exact absurd hequal (by decide)

theorem shared_secret_agrees_spaces : ∃ privileged shared server client,
    loadPrivilegedSecrets (shortIdStore " ab12 ") clientSecretsDb builtInProtocols
        [realityProfile] = .ok privileged ∧
      loadSecretValuesMap clientSecretsDb [realityProfile] builtInProtocols = .ok shared ∧
      privileged.get? "node.short" = some server ∧
      mapSecretResolver shared "node.short" = .ok client ∧ server = client := by
  obtain ⟨privileged, hworker, hserver⟩ :=
    Option.bind_eq_some_iff.mp (reality_worker " ab12 " (.inr rfl))
  obtain ⟨shared, hpanel, hclient⟩ := Option.bind_eq_some_iff.mp reality_panel
  rw [Except.toOption_eq_some] at hworker hpanel hclient
  have hagrees : FileAgrees (shortIdStore " ab12 ") clientSecretsDb ⟨"node.short", rfl⟩ := by
    intro file content stored hfile _ hcontent hstored
    cases hfile
    cases hcontent
    cases hstored
    decide
  exact ⟨privileged, shared, _, _, hworker, hpanel, hserver, hclient, (shared_secret_agrees_iff
    _ _ _ _ _ ⟨"node.short", rfl⟩ _ _ hworker hpanel hserver hclient).mpr hagrees⟩

end StealthHub.Panel

import StealthHub.Adapters.Composable

set_option autoImplicit false

namespace StealthHub.Adapters

open Text Except

def Implementation.clientTexts : Implementation → List String
  | .vlessXhttp => ["server_name", "path"]
  | .vlessTcp | .shadowsocksShadowTls => ["server_name"]
  | .snellV5 wrapper => wrapper.elim [] fun _ ↦ ["sni"]
  | .mieruTcp => []
  | .sudokuHttpMask => ["path_root"]
  | _ => ["sni"]

def Implementation.Wrappable (implementation : Implementation) : Prop :=
  ∀ wrapper ∈ [SecurityWrapper.standardTls, .reality], implementation ≠ .snellV5 (some wrapper)

instance (implementation : Implementation) : Decidable implementation.Wrappable :=
  inferInstanceAs (Decidable (∀ wrapper ∈ [SecurityWrapper.standardTls, .reality], _))

def obfuscationField : String := "obfs_password_secret"

/-- A client can read a secret field. -/
structure Obtains (context : ClientRenderContext) (name : String) : Prop where
  required : name ≠ obfuscationField → ∃ value, secret context name = .ok value
  optional : ∃ value, optionalSecret context name = .ok value

section proxy

variable {context : ClientRenderContext} {proxy : List (String × Value)} {wrapper : SecurityWrapper}

theorem obtains_required {names : List String} {name : String}
    (h : ∀ name ∈ names, Obtains context name) (hmem : name ∈ names)
    (hname : name ≠ obfuscationField) : ∃ value, secret context name = .ok value :=
  (h name hmem).required hname

theorem realityOpts_exists (h : ∀ name ∈ SecurityWrapper.reality.clientSecrets, Obtains context name) :
    ∃ options, realityOpts context = .ok options := by
  refine exists_bind (obtains_required h (by decide) (by decide)) fun publicKey ↦ ?_
  exact exists_bind (obtains_required h (by decide) (by decide)) fun shortId ↦ ⟨_, rfl⟩

theorem applyClientWrapper_exists (h : ∀ name ∈ wrapper.clientSecrets, Obtains context name) :
    ∃ wrapped, applyClientWrapper context proxy wrapper = .ok wrapped := by
  cases wrapper with
  | standardTls => exact ⟨proxy, rfl⟩
  | reality => exact exists_bind (realityOpts_exists h) fun options ↦ ⟨_, rfl⟩
  | shadowTlsV3 | resTls =>
    exact exists_bind (obtains_required h (by decide) (by decide)) fun password ↦ ⟨_, rfl⟩
  | jls =>
    refine exists_bind (obtains_required h (by decide) (by decide)) fun username ↦ ?_
    exact exists_bind (obtains_required h (by decide) (by decide)) fun password ↦ ⟨_, rfl⟩

theorem applySnellClientWrapper_exists
    (hwrapper : wrapper ≠ .standardTls ∧ wrapper ≠ .reality)
    (htext : ∃ sni, requiredText context.profile.config "sni" = .ok sni)
    (h : ∀ name ∈ wrapper.clientSecrets, Obtains context name) :
    ∃ wrapped, applySnellClientWrapper context proxy wrapper = .ok wrapped := by
  refine exists_bind htext fun sni ↦ ?_
  cases wrapper with
  | standardTls => exact absurd rfl hwrapper.1
  | reality => exact absurd rfl hwrapper.2
  | shadowTlsV3 | resTls =>
    exact exists_bind (obtains_required h (by decide) (by decide)) fun password ↦ ⟨_, rfl⟩
  | jls =>
    refine exists_bind (obtains_required h (by decide) (by decide)) fun username ↦ ?_
    exact exists_bind (obtains_required h (by decide) (by decide)) fun password ↦ ⟨_, rfl⟩

theorem renderProxy_exists {implementation : Implementation} (hwrappable : implementation.Wrappable)
    (htexts : ∀ name ∈ implementation.clientTexts,
      ∃ value, requiredText context.profile.config name = .ok value)
    (h : ∀ name ∈ implementation.clientSecrets, Obtains context name) :
    ∃ proxy, renderProxy context implementation = .ok proxy := by
  cases implementation with
  | vlessXhttp =>
    refine exists_bind (htexts _ List.mem_cons_self) fun serverName ↦ ?_
    refine exists_bind (realityOpts_exists h) fun reality ↦ ?_
    exact exists_bind (htexts _ (List.mem_cons_of_mem _ List.mem_cons_self)) fun path ↦ ⟨_, rfl⟩
  | vlessTcp =>
    refine exists_bind (htexts _ List.mem_cons_self) fun serverName ↦ ?_
    exact exists_bind (realityOpts_exists h) fun reality ↦ ⟨_, rfl⟩
  | vlessWrapped wrapper | trojan wrapper =>
    exact exists_bind (htexts _ List.mem_cons_self) fun sni ↦ applyClientWrapper_exists h
  | shadowsocksShadowTls =>
    refine exists_bind (obtains_required h (by decide) (by decide)) fun password ↦ ?_
    refine exists_bind (htexts _ List.mem_cons_self) fun host ↦ ?_
    exact exists_bind (obtains_required h (by decide) (by decide)) fun shadowTls ↦ ⟨_, rfl⟩
  | hysteria =>
    refine exists_bind (obtains_required h (by decide) (by decide)) fun password ↦ ?_
    refine exists_bind (htexts _ List.mem_cons_self) fun sni ↦ ?_
    refine exists_bind (h "obfs_password_secret" (by decide)).optional fun obfs ↦ ?_
    cases obfs with
    | none => exact ⟨_, rfl⟩
    | some value => exact ⟨_, rfl⟩
  | anyTlsLegacy | tuic =>
    refine exists_bind (obtains_required h (by decide) (by decide)) fun password ↦ ?_
    exact exists_bind (htexts _ List.mem_cons_self) fun sni ↦ ⟨_, rfl⟩
  | anyTls wrapper =>
    obtain ⟨hpassword, hwrapper⟩ := List.forall_mem_cons.mp h
    refine exists_bind (hpassword.required (by decide)) fun password ↦ ?_
    exact exists_bind (htexts _ List.mem_cons_self) fun sni ↦ applyClientWrapper_exists hwrapper
  | snellV5 wrapper =>
    obtain ⟨hpsk, hwrapper⟩ := List.forall_mem_cons.mp h
    refine exists_bind (hpsk.required (by decide)) fun psk ↦ ?_
    cases wrapper with
    | none => exact ⟨_, rfl⟩
    | some wrapper =>
      have hwrappers : wrapper ≠ .standardTls ∧ wrapper ≠ .reality := by
        constructor
        · rintro rfl
          exact hwrappable .standardTls List.mem_cons_self rfl
        · rintro rfl
          exact hwrappable .reality (List.mem_cons_of_mem _ List.mem_cons_self) rfl
      exact applySnellClientWrapper_exists hwrappers (htexts _ List.mem_cons_self) hwrapper
  | mieruTcp =>
    exact exists_bind (obtains_required h (by decide) (by decide)) fun password ↦ ⟨_, rfl⟩
  | trustTunnelH2 | shadowQuic =>
    exact exists_bind (htexts _ List.mem_cons_self) fun sni ↦ ⟨_, rfl⟩
  | sudokuHttpMask =>
    refine exists_bind (obtains_required h (by decide) (by decide)) fun key ↦ ?_
    exact exists_bind (htexts _ List.mem_cons_self) fun pathRoot ↦ ⟨_, rfl⟩

end proxy

theorem clientReads_declared : ∀ json ∈ protocols, json.implementation.Wrappable ∧
    (∀ name ∈ json.implementation.clientTexts, textField name ∈ json.fields) ∧
      ∀ name ∈ json.implementation.clientSecrets, name ≠ "private_key_secret" ∧
        secretField name (name ≠ obfuscationField) ∈ json.fields := by
  decide

/-- No secret that a core reads of a configuration is between blanks, and the native Hysteria
has no obfuscation that names nothing. -/
structure Unpadded (json : JsonProtocolAdapter) (config : Value) : Prop where
  secrets : ∀ field ∈ json.fields, field.kind = .secretRef → ∀ raw,
    config.text? field.name = some raw → trim raw ≠ "" → trim raw = raw
  obfuscation : json.manifest.id = "hysteria2" → (config.get? "obfs_password_secret").isSome →
    ∃ raw, config.text? "obfs_password_secret" = some raw ∧ trim raw ≠ ""

/-- Every consumer can read a configuration, whatever else a profile of it has, once its
references are resolved. -/
structure RendersEverywhere (json : JsonProtocolAdapter) (config : Value) : Prop where
  client : ∃ refs, json.clientSecretReferences config = .ok refs
  server : ∃ refs, json.serverSecretReferences config = .ok refs
  serverOnly : ∃ refs, json.serverOnlySecretReferences config = .ok refs
  renders : ∀ (profile : ProtocolProfile) (secrets : SecretResolver), profile.config = config →
    profile.schemaVersion = 1 → profile.port ≤ 65535 →
    (∀ found ∈ [json.clientSecretReferences config, json.serverSecretReferences config,
        json.serverOnlySecretReferences config], ∀ refs, found = .ok refs →
      ∀ reference ∈ refs, ∃ value, secrets reference.name = .ok value) →
    (∀ user, ∃ proxy, json.renderClient ⟨profile, user, secrets⟩ = .ok proxy) ∧
      ∀ users, ∃ fragment, json.renderServer ⟨profile, users, secrets⟩ = .ok fragment ∧
        ∀ core ∈ builtInAdapters, json.manifest.id ∈ core.manifest.capabilities →
          ∀ generation, ∃ document,
            core.flavor.compose ⟨generation, core.manifest.id, [fragment]⟩ = .ok document

variable {json : JsonProtocolAdapter} {config : Value} {field : ConfigField} {refs : List SecretRef}
variable {profile : ProtocolProfile} {secrets : SecretResolver} {user : SubscriptionUser}

theorem references_exists {excluded : String}
    (hvalid : json.validateConfig json.manifest.schemaVersion config = .ok ())
    (h : ∀ field ∈ json.fields, field.kind = .secretRef → ∀ raw,
      config.text? field.name = some raw → trim raw ≠ "" → trim raw = raw) :
    ∃ refs, json.references excluded config = .ok refs := by
  refine exists_bind_of_ok hvalid (exists_mapM_ok fun raw hraw ↦ ?_)
  simp only [List.mem_filter, List.mem_filterMap, decide_eq_true_eq] at hraw
  obtain ⟨⟨field, ⟨hfield, hkind, -⟩, htext⟩, hne⟩ := hraw
  obtain ⟨reference, hreference⟩ :=
    validateField_secret ((validateConfig_ok.mp hvalid).2.2 field hfield) hkind htext hne
  refine ⟨reference, SecretRef.parse_ok.mpr ?_⟩
  rw [hreference, h field hfield hkind raw htext hne]

theorem requiredText_validated
    (hvalid : json.validateConfig json.manifest.schemaVersion config = .ok ())
    (hfield : field ∈ json.fields) (hrequired : field.required) :
    ∃ value, requiredText config field.name = .ok value := by
  have hchecked := (validateConfig_ok.mp hvalid).2.2 field hfield
  obtain ⟨⟨⟩, hpresence, -⟩ := bind_eq_ok.mp hchecked
  rw [validatePresence, if_pos hrequired] at hpresence
  obtain ⟨value, hvalue, -⟩ := map_eq_ok.mp hpresence
  exact ⟨value, hvalue⟩

theorem optionalText_absent
    (hvalid : json.validateConfig json.manifest.schemaVersion config = .ok ())
    (hfield : field ∈ json.fields) (hkind : field.kind = .secretRef)
    (htext : config.text? field.name = none) : optionalText config field.name = .ok none := by
  have hchecked := (validateConfig_ok.mp hvalid).2.2 field hfield
  obtain ⟨⟨⟩, -, hchecked⟩ := bind_eq_ok.mp hchecked
  rw [if_pos hkind] at hchecked
  obtain ⟨found, hfound, -⟩ := bind_eq_ok.mp hchecked
  cases found with
  | none => exact hfound
  | some value => exact absurd hfound (optionalText_ne_some htext)

theorem reference_resolved (hrefs : json.clientSecretReferences config = .ok refs)
    (hresolves : ∀ reference ∈ refs, ∃ value, secrets reference.name = .ok value)
    (hfield : field ∈ json.fields) (hkind : field.kind = .secretRef)
    (hname : field.name ≠ "private_key_secret") {raw : String}
    (hraw : config.text? field.name = some raw) (hne : trim raw ≠ "") :
    ∃ reference, SecretRef.parse (trim raw) = .ok reference ∧
      ∃ value, secrets reference.name = .ok value := by
  obtain ⟨listed, hlisted, hlistedName⟩ := references_mem hrefs hfield hkind hname hraw hne
  have htrim : trim raw = listed.name := by
    rw [← hlistedName, SecretRef.trim_name]
  exact ⟨listed, SecretRef.parse_ok.mpr htrim.symm, hresolves listed hlisted⟩

theorem obtains_validated
    (hvalid : json.validateConfig json.manifest.schemaVersion profile.config = .ok ())
    (hrefs : json.clientSecretReferences profile.config = .ok refs)
    (hresolves : ∀ reference ∈ refs, ∃ value, secrets reference.name = .ok value)
    (hfield : field ∈ json.fields) (hkind : field.kind = .secretRef)
    (hname : field.name ≠ "private_key_secret")
    (hrequired : field.name ≠ obfuscationField → field.required) :
    Obtains ⟨profile, user, secrets⟩ field.name := by
  constructor
  · intro hobfuscation
    obtain ⟨value, hvalue⟩ := requiredText_validated hvalid hfield (hrequired hobfuscation)
    obtain ⟨raw, hraw, rfl, hne⟩ := requiredText_ok.mp hvalue
    obtain ⟨reference, hparse, hresolved⟩ :=
      reference_resolved hrefs hresolves hfield hkind hname hraw hne
    exact exists_bind_of_ok hvalue (exists_bind_of_ok hparse
      (exists_bind hresolved fun value ↦ ⟨_, rfl⟩))
  · cases htext : profile.config.text? field.name with
    | some raw =>
      have hoptional := optionalText_of_text htext
      by_cases hne : trim raw = ""
      · rw [if_pos hne] at hoptional
        exact exists_bind_of_ok hoptional ⟨none, rfl⟩
      · rw [if_neg hne] at hoptional
        obtain ⟨reference, hparse, hresolved⟩ :=
          reference_resolved hrefs hresolves hfield hkind hname htext hne
        exact exists_bind_of_ok hoptional (exists_bind_of_ok hparse
          (exists_bind hresolved fun value ↦ ⟨_, rfl⟩))
    | none => exact exists_bind_of_ok (optionalText_absent hvalid hfield hkind htext) ⟨none, rfl⟩

theorem renderClient_exists (hjson : json ∈ protocols)
    (hvalid : json.validateConfig profile.schemaVersion profile.config = .ok ())
    (hrefs : json.clientSecretReferences profile.config = .ok refs)
    (hresolves : ∀ reference ∈ refs, ∃ value, secrets reference.name = .ok value) :
    ∃ proxy, json.renderClient ⟨profile, user, secrets⟩ = .ok proxy := by
  have hschema := (validateConfig_ok.mp hvalid).1
  obtain ⟨hwrappable, htexts, hsecrets⟩ := clientReads_declared json hjson
  refine exists_bind_of_ok hvalid (exists_bind ?_ fun proxy ↦ ⟨_, rfl⟩)
  rw [hschema] at hvalid
  refine renderProxy_exists hwrappable (fun name hname ↦ ?_) fun name hname ↦ ?_
  · exact requiredText_validated hvalid (htexts name hname) rfl
  · obtain ⟨hne, hdeclared⟩ := hsecrets name hname
    exact obtains_validated hvalid hrefs hresolves hdeclared rfl hne fun hrequired ↦
      decide_eq_true hrequired

theorem hysteria_capabilities : ∀ core ∈ builtInAdapters, core.flavor = .hysteria →
    ∀ capability ∈ core.manifest.capabilities, capability = "hysteria2" := by
  decide

theorem compose_single_exists {core : ManagedCoreAdapter} {fragment : ServerFragment}
    {context : ServerRenderContext} {resolved : List (String × Value)} {generation : ℕ}
    {coreId : String} (hcore : core ∈ builtInAdapters) (hjson : json ∈ protocols)
    (hrenders : Renders json context resolved fragment) (hport : context.profile.port ≤ 65535)
    (hcapability : json.manifest.id ∈ core.manifest.capabilities) :
    (∃ document, core.flavor.compose ⟨generation, coreId, [fragment]⟩ = .ok document) ↔
      (core.flavor = .hysteria → (context.profile.config.get? "obfs_password_secret").isSome →
        ∃ raw, context.profile.config.text? "obfs_password_secret" = some raw ∧ trim raw ≠ "") := by
  have hlegible : ∀ found ∈ [fragment], Legible core.flavor found := by
    intro found hfound
    rw [List.mem_singleton.mp hfound]
    exact legible_rendered hcore hjson hrenders hport hcapability
  refine (compose_exists hlegible).trans ?_
  cases hflavor : core.flavor with
  | hysteria =>
    have hid := hysteria_capabilities core hcore hflavor _ hcapability
    rw [← readsObfuscation_rendered hrenders (obfuscation_declared json hjson hid)]
    simp [Flavor.Fits]
  | xray | singBox | tuic | mihomo => simp [Flavor.Fits]

/-- An accepted configuration renders everywhere if and only if its secrets are not padded. -/
theorem renders_everywhere_iff (hjson : json ∈ protocols)
    (hvalid : json.validateConfig 1 config = .ok ()) :
    RendersEverywhere json config ↔ Unpadded json config := by
  have hschema := (validateConfig_ok.mp hvalid).1
  constructor
  · intro h
    constructor
    · intro field hfield hkind raw hraw hne
      have hreference : ∃ reference : SecretRef, reference.name = raw := by
        by_cases hname : field.name = "private_key_secret"
        · obtain ⟨refs, hrefs⟩ := h.server
          obtain ⟨reference, -, hreference⟩ :=
            references_mem hrefs hfield hkind (by rw [hname]; decide) hraw hne
          exact ⟨reference, hreference⟩
        · obtain ⟨refs, hrefs⟩ := h.client
          obtain ⟨reference, -, hreference⟩ := references_mem hrefs hfield hkind hname hraw hne
          exact ⟨reference, hreference⟩
      obtain ⟨reference, rfl⟩ := hreference
      exact reference.trim_name
    · intro hid
      obtain ⟨core, hcore, hflavor, hcapability⟩ : ∃ core ∈ builtInAdapters,
          core.flavor = .hysteria ∧ "hysteria2" ∈ core.manifest.capabilities :=
        ⟨builtInAdapters[3], List.getElem_mem _, rfl, by decide⟩
      rw [← hid] at hcapability
      let profile : ProtocolProfile := ⟨"", "", "", 1, .compatibility, "", 0, true, none, none, config⟩
      obtain ⟨-, hserver⟩ := h.renders profile (fun _ ↦ .ok "") rfl rfl (Nat.zero_le _)
        fun _ _ _ _ reference _ ↦ ⟨"", rfl⟩
      obtain ⟨fragment, hfragment, hcompose⟩ := hserver []
      obtain ⟨resolved, hrenders⟩ := renderServer_renders hfragment
      exact (compose_single_exists hcore hjson hrenders (Nat.zero_le _) hcapability).mp
        (hcompose core hcore hcapability 0) hflavor
  · intro h
    have hversion := hvalid
    rw [hschema] at hversion
    refine ⟨references_exists hversion h.secrets, references_exists hversion h.secrets, ?_, ?_⟩
    · by_cases hkey : json.implementation.hasPrivateKey
      · obtain ⟨reference, hreference⟩ := privateKey_referenced hjson hkey hvalid
        exact ⟨_, hreference⟩
      · refine exists_bind_of_ok hversion ?_
        rw [if_neg hkey]
        exact ⟨[], rfl⟩
    · rintro profile secrets rfl hprofile hport hresolves
      rw [← hprofile] at hvalid
      obtain ⟨client, hclient⟩ := references_exists hversion h.secrets
      obtain ⟨server, hserver⟩ := references_exists hversion h.secrets
      have hresolved := hresolves _ (List.mem_cons_of_mem _ List.mem_cons_self) server hserver
      refine ⟨fun user ↦ renderClient_exists hjson hvalid hclient
        (hresolves _ List.mem_cons_self client hclient), fun users ↦ ?_⟩
      have hsecrets : ∃ found, json.resolveSecrets ⟨profile, users, secrets⟩ = .ok found :=
        resolveSecrets_exists hserver hresolved
      obtain ⟨resolved, hsecrets⟩ := hsecrets
      obtain ⟨fragment, hfragment⟩ := renderServer_exists hvalid hsecrets
      refine ⟨fragment, hfragment, fun core hcore hcapability generation ↦ ?_⟩
      obtain ⟨again, hrenders⟩ := renderServer_renders hfragment
      refine (compose_single_exists hcore hjson hrenders hport hcapability).mpr fun hflavor ↦ ?_
      exact h.obfuscation (hysteria_capabilities core hcore hflavor _ hcapability)

def snellV5 : JsonProtocolAdapter := protocols[18]

theorem renders_everywhere_iff_snell :
    RendersEverywhere snellV5 (.object [("psk_secret", .string "snell.psk")]) := by
  refine (renders_everywhere_iff (List.getElem_mem _) (by decide)).mpr ⟨?_, ?_⟩
  · intro field hfield _ raw hraw _
    cases List.mem_singleton.mp hfield
    cases hraw
    decide
  · intro hid
    exact absurd hid (by decide)

theorem padded_reference_accepted :
    ¬∀ json ∈ protocols, ∀ config, json.validateConfig 1 config = .ok () →
      RendersEverywhere json config := by
  intro hall
  have hrenders := hall snellV5 (List.getElem_mem _)
    (.object [("psk_secret", .string " snell.psk")]) (by decide)
  obtain ⟨refs, hrefs⟩ := hrenders.client
  have hrejected : (snellV5.clientSecretReferences
      (.object [("psk_secret", .string " snell.psk")])).isOk = false := by
    decide
  rw [hrefs] at hrejected
  cases hrejected

end StealthHub.Adapters

import StealthHub.Adapters.Protocols

set_option autoImplicit false

namespace StealthHub

open Text

theorem trim_of_validSecretRef {value : String} (h : validSecretRef value) : trim value = value := by
  simp only [validSecretRef, Bool.and_eq_true, List.all_eq_true] at h
  have hnone : ∀ c ∈ value.toList, isWhitespace c = false := by
    intro c hc
    have hchar := h.2 c hc
    simp only [Bool.or_eq_true, decide_eq_true_eq] at hchar
    rcases hchar with ((hchar | rfl) | rfl) | rfl
    · exact isAsciiAlphanumeric_not_whitespace hchar
    all_goals rfl
  rw [trim, trimList_eq_self, String.ofList_toList]
  exact ⟨fun c hc ↦ hnone c (List.mem_of_mem_head? hc), fun c hc ↦ hnone c (List.mem_of_getLast? hc)⟩

theorem SecretRef.parse_ok {value : String} {reference : SecretRef} :
    SecretRef.parse value = .ok reference ↔ reference.name = value := by
  rw [SecretRef.parse]
  split_ifs with h
  · rw [Except.ok.injEq]
    constructor
    · intro hr
      rw [← hr]
    · intro hr
      cases reference
      subst hr
      rfl
  · refine iff_of_false nofun fun hr ↦ h ?_
    rw [← hr]
    exact reference.valid

@[simp] theorem SecretRef.trim_name (reference : SecretRef) : trim reference.name = reference.name :=
  trim_of_validSecretRef reference.valid

theorem SecretRef.ext {a b : SecretRef} (h : a.name = b.name) : a = b := by
  cases a
  cases b
  cases h
  rfl

theorem SecretRef.name_ne (reference : SecretRef) : reference.name ≠ "" := by
  intro h
  have hv := reference.valid
  rw [h] at hv
  cases hv

namespace Adapters

variable {config : Value} {name value : String}

theorem requiredText_ok :
    requiredText config name = .ok value ↔
      ∃ raw, config.text? name = some raw ∧ trim raw = value ∧ value ≠ "" := by
  rw [requiredText, Except.elim_eq_ok, Option.filter_eq_some_iff]
  simp only [Option.map_eq_some_iff, decide_eq_true_eq]
  constructor
  · intro ⟨⟨raw, hraw, htrim⟩, hne⟩
    exact ⟨raw, hraw, htrim, hne⟩
  · intro ⟨raw, hraw, htrim, hne⟩
    exact ⟨⟨raw, hraw, htrim⟩, hne⟩

theorem optionalText_of_text {raw : String} (h : config.text? name = some raw) :
    optionalText config name = .ok (if trim raw = "" then none else some (trim raw)) := by
  obtain ⟨found, hfound, hraw⟩ := Option.bind_eq_some_iff.mp h
  cases found with
  | string => rw [optionalText, hfound, Option.some.inj hraw]
  | _ => cases hraw

theorem optionalText_ne_some (h : config.text? name = none) {value : String} :
    optionalText config name ≠ .ok (some value) := by
  rw [optionalText]
  cases hget : config.get? name with
  | none => simp
  | some found =>
    cases found with
    | string raw =>
      rw [Value.text?, hget] at h
      cases h
    | _ => simp

theorem validateField_secret {field : ConfigField} (h : validateField config field = .ok ())
    (hkind : field.kind = .secretRef) {raw : String} (hraw : config.text? field.name = some raw)
    (hne : trim raw ≠ "") : ∃ reference : SecretRef, reference.name = trim raw := by
  obtain ⟨⟨⟩, -, h⟩ := Except.bind_eq_ok.mp h
  rw [if_pos hkind] at h
  obtain ⟨found, hfound, h⟩ := Except.bind_eq_ok.mp h
  rw [optionalText_of_text hraw, if_neg hne] at hfound
  cases hfound
  obtain ⟨reference, hreference, -⟩ := Except.map_eq_ok.mp h
  exact ⟨reference, SecretRef.parse_ok.mp hreference⟩

variable {adapter : JsonProtocolAdapter} {schemaVersion : ℕ} {field : ConfigField}
variable {excluded : String} {refs : List SecretRef}

theorem validateConfig_ok :
    adapter.validateConfig schemaVersion config = .ok () ↔
      schemaVersion = adapter.manifest.schemaVersion ∧ config.isObject ∧
        ∀ field ∈ adapter.fields, validateField config field = .ok () := by
  rw [JsonProtocolAdapter.validateConfig]
  split_ifs with h
  · refine iff_of_false nofun fun ⟨hversion, hobject, _⟩ ↦ ?_
    simp [hversion, hobject] at h
  · push Not at h
    have hobject : config.isObject = true := by simpa using h.2
    rw [Except.forM_eq_ok]
    simp [h.1, hobject]

theorem references_ok : adapter.references excluded config = .ok refs ↔
    adapter.validateConfig adapter.manifest.schemaVersion config = .ok () ∧
      ((adapter.fields.filter fun field ↦ field.kind = .secretRef ∧ field.name ≠ excluded).filterMap
        fun field ↦ config.text? field.name).filter (fun value ↦ trim value ≠ "") =
          refs.map SecretRef.name := by
  rw [JsonProtocolAdapter.references, Except.bind_eq_ok]
  simp only [Except.mapM_eq_ok, SecretRef.parse_ok]
  constructor
  · intro ⟨⟨⟩, hvalid, hparsed⟩
    refine ⟨hvalid, ?_⟩
    rw [← List.forall₂_eq_eq_eq, List.forall₂_map_right_iff]
    exact hparsed.imp fun _ _ ↦ Eq.symm
  · intro ⟨hvalid, hnames⟩
    refine ⟨(), hvalid, ?_⟩
    rw [hnames, List.forall₂_map_left_iff, List.forall₂_same]
    exact fun _ _ ↦ rfl

theorem references_mem (h : adapter.references excluded config = .ok refs)
    (hfield : field ∈ adapter.fields) (hkind : field.kind = .secretRef)
    (hname : field.name ≠ excluded) {raw : String} (hraw : config.text? field.name = some raw)
    (hne : trim raw ≠ "") : ∃ reference ∈ refs, reference.name = raw := by
  rw [← List.mem_map, ← (references_ok.mp h).2]
  simp only [List.mem_filter, List.mem_filterMap, decide_eq_true_eq]
  exact ⟨⟨field, ⟨hfield, hkind, hname⟩, hraw⟩, hne⟩

theorem field_of_reference (h : adapter.references excluded config = .ok refs)
    {reference : SecretRef} (hmem : reference ∈ refs) :
    ∃ field ∈ adapter.fields, field.kind = .secretRef ∧ field.name ≠ excluded ∧
      config.text? field.name = some reference.name := by
  have hname : reference.name ∈ refs.map SecretRef.name := List.mem_map_of_mem hmem
  rw [← (references_ok.mp h).2] at hname
  simp only [List.mem_filter, List.mem_filterMap, decide_eq_true_eq] at hname
  obtain ⟨⟨field, ⟨hfield, hkind, hne⟩, htext⟩, -⟩ := hname
  exact ⟨field, hfield, hkind, hne, htext⟩

theorem privateKey_declared : ∀ adapter ∈ protocols, adapter.implementation.hasPrivateKey →
    ∃ field ∈ adapter.fields, field.kind = .secretRef ∧ field.name = "private_key_secret" ∧
      field.required := by
  decide +kernel

theorem privateKey_referenced (hadapter : adapter ∈ protocols)
    (hkey : adapter.implementation.hasPrivateKey)
    (hvalid : adapter.validateConfig schemaVersion config = .ok ()) :
    ∃ reference, adapter.serverOnlySecretReferences config = .ok [reference] := by
  obtain ⟨rfl, -, hfields⟩ := validateConfig_ok.mp hvalid
  obtain ⟨field, hfield, hkind, hname, hrequired⟩ := privateKey_declared adapter hadapter hkey
  have hchecked := hfields field hfield
  obtain ⟨⟨⟩, hpresence, -⟩ := Except.bind_eq_ok.mp hchecked
  rw [validatePresence, if_pos hrequired, hname] at hpresence
  obtain ⟨value, hvalue, -⟩ := Except.map_eq_ok.mp hpresence
  obtain ⟨raw, hraw, htrim, hne⟩ := requiredText_ok.mp hvalue
  rw [← hname] at hraw
  obtain ⟨reference, hreference⟩ := validateField_secret hchecked hkind hraw (htrim ▸ hne)
  refine ⟨reference, Except.bind_eq_ok.mpr ⟨(), hvalid, ?_⟩⟩
  rw [if_pos hkey]
  refine Except.bind_eq_ok.mpr ⟨value, hvalue, Except.bind_eq_ok.mpr ⟨reference, ?_, rfl⟩⟩
  rw [SecretRef.parse_ok, hreference, htrim]

theorem serverOnly_subset (hadapter : adapter ∈ protocols) {serverOnly : List SecretRef}
    (honly : adapter.serverOnlySecretReferences config = .ok serverOnly)
    (hall : adapter.serverSecretReferences config = .ok refs) : serverOnly ⊆ refs := by
  obtain ⟨⟨⟩, -, honly⟩ := Except.bind_eq_ok.mp honly
  split_ifs at honly with hkey
  · obtain ⟨value, hvalue, honly⟩ := Except.bind_eq_ok.mp honly
    obtain ⟨reference, hparse, honly⟩ := Except.bind_eq_ok.mp honly
    cases Except.pure_eq_ok.mp honly
    obtain ⟨raw, hraw, htrim, hne⟩ := requiredText_ok.mp hvalue
    obtain ⟨field, hfield, hkind, hname, -⟩ := privateKey_declared adapter hadapter hkey
    rw [← hname] at hraw
    obtain ⟨listed, hlisted, hlistedName⟩ := references_mem hall hfield hkind
      (by rw [hname]; decide) hraw (htrim ▸ hne)
    have hsame : listed.name = reference.name := by
      rw [SecretRef.parse_ok.mp hparse, ← htrim, ← hlistedName, SecretRef.trim_name]
    obtain rfl : listed = reference := SecretRef.ext hsame
    exact List.cons_subset.mpr ⟨hlisted, List.nil_subset _⟩
  · cases Except.pure_eq_ok.mp honly
    exact List.nil_subset _

theorem privateKey_undeclared : ∀ adapter ∈ protocols, adapter.implementation.hasPrivateKey = false →
    ∀ field ∈ adapter.fields, field.name ≠ "private_key_secret" := by
  decide +kernel

theorem server_reference (hadapter : adapter ∈ protocols) {client serverOnly : List SecretRef}
    (hclient : adapter.clientSecretReferences config = .ok client)
    (honly : adapter.serverOnlySecretReferences config = .ok serverOnly)
    (hall : adapter.serverSecretReferences config = .ok refs) {reference : SecretRef}
    (hmem : reference ∈ refs) : reference ∈ serverOnly ∨ reference ∈ client := by
  obtain ⟨field, hfield, hkind, -, htext⟩ := field_of_reference hall hmem
  have hne : trim reference.name ≠ "" := by
    rw [SecretRef.trim_name]
    exact reference.name_ne
  by_cases hname : field.name = "private_key_secret"
  · refine .inl ?_
    have hkey : adapter.implementation.hasPrivateKey := by
      by_contra hnone
      exact privateKey_undeclared adapter hadapter (by simpa using hnone) field hfield hname
    obtain ⟨⟨⟩, -, honly⟩ := Except.bind_eq_ok.mp honly
    rw [if_pos hkey] at honly
    obtain ⟨value, hvalue, honly⟩ := Except.bind_eq_ok.mp honly
    obtain ⟨key, hparse, honly⟩ := Except.bind_eq_ok.mp honly
    cases Except.pure_eq_ok.mp honly
    obtain ⟨raw, hraw, rfl, -⟩ := requiredText_ok.mp hvalue
    rw [hname, hraw, Option.some.injEq] at htext
    rw [htext, SecretRef.trim_name, SecretRef.parse_ok] at hparse
    rw [SecretRef.ext hparse, List.mem_singleton]
  · obtain ⟨listed, hlisted, hsame⟩ := references_mem hclient hfield hkind hname htext hne
    rw [← SecretRef.ext hsame]
    exact .inr hlisted

def SecurityWrapper.clientSecrets : SecurityWrapper → List String
  | .standardTls => []
  | .reality => ["public_key_secret", "short_id_secret"]
  | .shadowTlsV3 => ["shadow_tls_password_secret"]
  | .resTls => ["restls_password_secret"]
  | .jls => ["jls_username_secret", "jls_password_secret"]

def Implementation.clientSecrets : Implementation → List String
  | .vlessXhttp | .vlessTcp => ["public_key_secret", "short_id_secret"]
  | .vlessWrapped wrapper | .trojan wrapper => wrapper.clientSecrets
  | .shadowsocksShadowTls => ["password_secret", "shadow_tls_password_secret"]
  | .hysteria => ["password_secret", "obfs_password_secret"]
  | .anyTls wrapper => "password_secret" :: wrapper.clientSecrets
  | .anyTlsLegacy | .tuic | .mieruTcp => ["password_secret"]
  | .snellV5 wrapper => "psk_secret" :: wrapper.elim [] SecurityWrapper.clientSecrets
  | .trustTunnelH2 | .shadowQuic => []
  | .sudokuHttpMask => ["key_secret"]

section congruence

variable {profile : ProtocolProfile} {user : SubscriptionUser} {secrets secrets' : SecretResolver}

/-- Whether two resolvers read the same in a field. -/
structure SameSecret (profile : ProtocolProfile) (user : SubscriptionUser)
    (secrets secrets' : SecretResolver) (name : String) : Prop where
  required : secret ⟨profile, user, secrets⟩ name = secret ⟨profile, user, secrets'⟩ name
  optional :
    optionalSecret ⟨profile, user, secrets⟩ name = optionalSecret ⟨profile, user, secrets'⟩ name

theorem applyClientWrapper_congr {proxy : List (String × Value)} {wrapper : SecurityWrapper}
    (h : ∀ name ∈ wrapper.clientSecrets, SameSecret profile user secrets secrets' name) :
    applyClientWrapper ⟨profile, user, secrets⟩ proxy wrapper =
      applyClientWrapper ⟨profile, user, secrets'⟩ proxy wrapper := by
  cases wrapper <;>
    simp only [SecurityWrapper.clientSecrets, List.forall_mem_cons] at h
  · rfl
  · simp only [applyClientWrapper, realityOpts, h.1.required, h.2.1.required]
  · simp only [applyClientWrapper, h.1.required]
  · simp only [applyClientWrapper, h.1.required]
  · simp only [applyClientWrapper, h.1.required, h.2.1.required]

theorem applySnellClientWrapper_congr {proxy : List (String × Value)} {wrapper : SecurityWrapper}
    (h : ∀ name ∈ wrapper.clientSecrets, SameSecret profile user secrets secrets' name) :
    applySnellClientWrapper ⟨profile, user, secrets⟩ proxy wrapper =
      applySnellClientWrapper ⟨profile, user, secrets'⟩ proxy wrapper := by
  cases wrapper <;>
    simp only [SecurityWrapper.clientSecrets, List.forall_mem_cons] at h
  · rfl
  · rfl
  · simp only [applySnellClientWrapper, h.1.required]
  · simp only [applySnellClientWrapper, h.1.required]
  · simp only [applySnellClientWrapper, h.1.required, h.2.1.required]

theorem renderProxy_congr {implementation : Implementation}
    (h : ∀ name ∈ implementation.clientSecrets, SameSecret profile user secrets secrets' name) :
    renderProxy ⟨profile, user, secrets⟩ implementation =
      renderProxy ⟨profile, user, secrets'⟩ implementation := by
  cases implementation with
  | vlessWrapped wrapper | trojan wrapper =>
    simp only [renderProxy, base, applyClientWrapper_congr h]
  | anyTls wrapper =>
    obtain ⟨hpassword, hwrapper⟩ := List.forall_mem_cons.mp h
    simp only [renderProxy, base, hpassword.required, applyClientWrapper_congr hwrapper]
  | snellV5 wrapper =>
    obtain ⟨hpsk, hwrapper⟩ := List.forall_mem_cons.mp h
    cases wrapper with
    | none => simp only [renderProxy, base, hpsk.required]
    | some wrapper =>
      simp only [renderProxy, base, hpsk.required, applySnellClientWrapper_congr hwrapper]
  | vlessXhttp | vlessTcp =>
    simp only [Implementation.clientSecrets, List.forall_mem_cons] at h
    simp only [renderProxy, base, realityOpts, h.1.required, h.2.1.required]
  | shadowsocksShadowTls =>
    simp only [Implementation.clientSecrets, List.forall_mem_cons] at h
    simp only [renderProxy, base, h.1.required, h.2.1.required]
  | hysteria =>
    simp only [Implementation.clientSecrets, List.forall_mem_cons] at h
    simp only [renderProxy, base, h.1.required, h.2.1.optional]
  | anyTlsLegacy | tuic | mieruTcp | sudokuHttpMask =>
    simp only [Implementation.clientSecrets, List.forall_mem_cons] at h
    simp only [renderProxy, base, h.1.required]
  | trustTunnelH2 | shadowQuic => rfl

theorem sameSecret_of_references {refs : List SecretRef}
    (h : adapter.clientSecretReferences profile.config = .ok refs)
    (hsame : ∀ reference ∈ refs, secrets reference.name = secrets' reference.name)
    (hfield : field ∈ adapter.fields) (hkind : field.kind = .secretRef)
    (hname : field.name ≠ "private_key_secret") :
    SameSecret profile user secrets secrets' field.name := by
  have hread : ∀ raw, profile.config.text? field.name = some raw → trim raw ≠ "" →
      ∀ reference, SecretRef.parse (trim raw) = .ok reference →
        secrets reference.name = secrets' reference.name := by
    intro raw hraw hne reference hparse
    obtain ⟨listed, hlisted, hlistedName⟩ := references_mem h hfield hkind hname hraw hne
    have hnames : reference.name = listed.name := by
      rw [SecretRef.parse_ok.mp hparse, ← hlistedName, SecretRef.trim_name]
    rw [hnames]
    exact hsame listed hlisted
  constructor
  · simp only [secret]
    cases hrequired : requiredText profile.config field.name with
    | error m => rfl
    | ok value =>
      obtain ⟨raw, hraw, rfl, hne⟩ := requiredText_ok.mp hrequired
      simp only [bind, Except.bind]
      cases hparse : SecretRef.parse (trim raw) with
      | error m => rfl
      | ok reference => simp only [hread raw hraw hne reference hparse]
  · simp only [optionalSecret]
    cases htext : profile.config.text? field.name with
    | none =>
      cases hoptional : optionalText profile.config field.name with
      | error m => rfl
      | ok found =>
        cases found with
        | none => rfl
        | some value => exact absurd hoptional (optionalText_ne_some htext)
    | some raw =>
      rw [optionalText_of_text htext]
      by_cases hne : trim raw = ""
      · rw [if_pos hne]
        rfl
      · rw [if_neg hne]
        simp only [bind, Except.bind]
        cases hparse : SecretRef.parse (trim raw) with
        | error m => rfl
        | ok reference => simp only [hread raw htext hne reference hparse]

theorem clientSecrets_declared : ∀ adapter ∈ protocols,
    ∀ name ∈ adapter.implementation.clientSecrets, name ≠ "private_key_secret" ∧
      ∃ field ∈ adapter.fields, field.kind = .secretRef ∧ field.name = name := by
  decide +kernel

theorem renderClient_congr (hadapter : adapter ∈ protocols) {refs : List SecretRef}
    (h : adapter.clientSecretReferences profile.config = .ok refs)
    (hsame : ∀ reference ∈ refs, secrets reference.name = secrets' reference.name) :
    adapter.renderClient ⟨profile, user, secrets⟩ =
      adapter.renderClient ⟨profile, user, secrets'⟩ := by
  have hproxy : renderProxy ⟨profile, user, secrets⟩ adapter.implementation =
      renderProxy ⟨profile, user, secrets'⟩ adapter.implementation := by
    refine renderProxy_congr fun name hname ↦ ?_
    obtain ⟨hne, field, hfield, hkind, rfl⟩ := clientSecrets_declared adapter hadapter name hname
    exact sameSecret_of_references h hsame hfield hkind hne
  simp only [JsonProtocolAdapter.renderClient, hproxy]

end congruence

theorem protocolRegistry_isOk : protocolRegistry.isOk := by decide +kernel

/-- The registry that the panel and the worker are built with. -/
def builtInProtocols : ProtocolRegistry := protocolRegistry.toOption.getD .empty

theorem protocolRegistry_ok : protocolRegistry = .ok builtInProtocols := by
  have hok := protocolRegistry_isOk
  rw [builtInProtocols]
  cases h : protocolRegistry with
  | error m =>
    rw [h] at hok
    cases hok
  | ok registry => rfl

theorem builtInProtocols_get {id : String} {adapter : ProtocolAdapter} :
    builtInProtocols.get id = some adapter ↔
      ∃ json ∈ protocols, json.toAdapter = adapter ∧ json.manifest.id = id := by
  rw [ProtocolRegistry.get_registered protocolRegistry_ok]
  have hempty : ProtocolRegistry.empty.get id ≠ some adapter := nofun
  simp only [hempty, false_or, List.mem_map]
  constructor
  · rintro ⟨⟨json, hjson, rfl⟩, hid⟩
    exact ⟨json, hjson, rfl, hid⟩
  · rintro ⟨json, hjson, rfl, hid⟩
    exact ⟨⟨json, hjson, rfl⟩, hid⟩

attribute [irreducible] builtInProtocols

theorem trustTunnel_registered :
    builtInProtocols.get "trusttunnel-h2" = some trustTunnel.toAdapter :=
  builtInProtocols_get.mpr ⟨trustTunnel, by simp [protocols, trustTunnel], rfl, rfl⟩

end Adapters

end StealthHub

import StealthHub.Adapters.Fragments

set_option autoImplicit false

namespace StealthHub.Adapters

open Text Except

def Readable (payload config : Value) (field : ConfigField) : Prop :=
  match field.kind with
  | .text => ∃ value, configText config field.name = .ok value
  | .secretRef =>
    if field.required then ∃ value, resolvedSecret payload field.name = .ok value
    else ∀ raw, config.text? field.name = some raw → trim raw ≠ "" →
      ∃ value, resolvedSecret payload field.name = .ok value

/-- The parts of a fragment that any core reads. -/
structure Opened (fragment : ServerFragment) (payload config : Value) (port : ℕ)
    (users : List Value) : Prop where
  object : payloadObject fragment = .ok payload
  config : payloadConfig payload = .ok config
  port : payloadPort payload = .ok port
  users : payloadUsers payload = .ok users

variable {fragment : ServerFragment} {payload config : Value} {port : ℕ} {users : List Value}
variable {fields : List ConfigField} {capability : String} {plan : CorePlan}

theorem readable_text {name : String} (h : ∀ field ∈ fields, Readable payload config field)
    (hmem : textField name ∈ fields) : ∃ value, configText config name = .ok value :=
  h _ hmem

theorem readable_secret {name : String} (h : ∀ field ∈ fields, Readable payload config field)
    (hmem : secretField name true ∈ fields) : ∃ value, resolvedSecret payload name = .ok value :=
  h _ hmem

section reads

def realityReads : List ConfigField :=
  [textField "server_name", secretField "private_key_secret" true, secretField "short_id_secret" true]

def xrayReads (capability : String) : List ConfigField :=
  realityReads ++ if capability = "vless-reality-xhttp" then [textField "path"] else []

def singBoxReads (capability : String) : Option (List ConfigField) :=
  if capability = "vless-reality-tcp" then some realityReads
  else if capability = "shadowsocks2022-shadow-tls" then
    some [secretField "password_secret" true, secretField "shadow_tls_password_secret" true,
      textField "server_name"]
  else if capability = "hysteria2" then
    some [secretField "password_secret" true, secretField "obfs_password_secret" false]
  else if capability = "any-tls" then some [secretField "password_secret" true]
  else if capability = "tuic" then some [secretField "password_secret" true]
  else none

def SecurityWrapper.reads : SecurityWrapper → List ConfigField
  | .standardTls => []
  | .reality =>
    [textField "sni", secretField "private_key_secret" true, secretField "short_id_secret" true]
  | .shadowTlsV3 => [secretField "shadow_tls_password_secret" true, textField "sni"]
  | .resTls => [textField "sni", secretField "restls_password_secret" true]
  | .jls =>
    [secretField "jls_username_secret" true, secretField "jls_password_secret" true,
      textField "sni"]

def wrapperReads (capability : String) : Option (List ConfigField) :=
  (wrapperForCapability capability).toOption.map SecurityWrapper.reads

def mihomoVlessReads (capability : String) : Option (List ConfigField) :=
  if capability = "vless-reality-tcp" then some realityReads
  else if capability = "vless-reality-xhttp" then some (realityReads ++ [textField "path"])
  else wrapperReads capability

def mihomoReads (capability : String) : Option (List ConfigField) :=
  if capability ∈ mihomoVlessCapabilities then mihomoVlessReads capability
  else if startsWith capability "anytls-" then
    (wrapperReads capability).map (secretField "password_secret" true :: ·)
  else if startsWith capability "trojan-" then wrapperReads capability
  else if capability = "snell-v5" ∨ startsWith capability "snell-v5-" then
    if capability = "snell-v5" then some [secretField "psk_secret" true]
    else (wrapperReads capability).map (secretField "psk_secret" true :: ·)
  else if capability = "mieru" then some [secretField "password_secret" true]
  else if capability = "trusttunnel-h2" then some []
  else if capability = "shadowquic" then some [textField "sni"]
  else if capability = "sudoku-httpmask" then
    some [secretField "key_secret" true, textField "path_root"]
  else none

/-- The fields that a core reads for a capability, if it serves it. The obfuscation of the
native Hysteria is left out, as this core reads it wherever there is such a field. -/
def Flavor.reads : Flavor → String → Option (List ConfigField)
  | .xray, capability => some (xrayReads capability)
  | .singBox, capability => singBoxReads capability
  | .hysteria, _ | .tuic, _ => some [secretField "password_secret" true]
  | .mihomo, capability => mihomoReads capability

end reads

theorem xrayInbound_exists (h : Opened fragment payload config port users)
    (hreads : ∀ field ∈ xrayReads fragment.capability, Readable payload config field) :
    ∃ inbound, xrayInbound fragment = .ok inbound := by
  obtain ⟨hreality, hxhttp⟩ := List.forall_mem_append.mp hreads
  have hpath : ∃ settings, xrayXhttp fragment.capability config = .ok settings := by
    rw [xrayXhttp]
    split_ifs with hcapability
    · rw [if_pos hcapability] at hxhttp
      exact exists_bind (readable_text hxhttp (List.mem_singleton_self _)) fun path ↦ ⟨_, rfl⟩
    · exact ⟨[], rfl⟩
  refine exists_bind_of_ok h.object (exists_bind_of_ok h.config (exists_bind_of_ok h.users ?_))
  refine exists_bind (readable_text hreality (by simp [realityReads])) fun serverName ↦ ?_
  refine exists_bind (readable_secret hreality (by simp [realityReads])) fun privateKey ↦ ?_
  refine exists_bind (readable_secret hreality (by simp [realityReads])) fun shortId ↦ ?_
  refine exists_bind hpath fun xhttp ↦ exists_bind ⟨port, h.port⟩ fun port ↦ ⟨_, rfl⟩

theorem singBoxObfs_exists
    (h : Readable payload config (secretField "obfs_password_secret" false)) :
    ∃ obfs, singBoxObfs payload config = .ok obfs := by
  rw [singBoxObfs]
  split_ifs with hobfs
  · cases hraw : config.text? "obfs_password_secret" with
    | none =>
      rw [hraw] at hobfs
      cases hobfs
    | some raw =>
      rw [hraw, Option.any_some, decide_eq_true_eq] at hobfs
      exact exists_bind (h raw hraw hobfs) fun password ↦ ⟨_, rfl⟩
  · exact ⟨[], rfl⟩

theorem singBoxInbounds_exists (h : Opened fragment payload config port users)
    (hreads : singBoxReads fragment.capability = some fields)
    (hall : ∀ field ∈ fields, Readable payload config field) :
    ∃ inbounds, singBoxInbounds fragment = .ok inbounds := by
  refine exists_bind_of_ok h.object (exists_bind_of_ok h.config (exists_bind_of_ok h.port ?_))
  rw [singBoxReads] at hreads
  split_ifs at hreads with hvless hshadowTls hhysteria hanyTls htuic <;> cases hreads
  · rw [if_pos hvless]
    refine exists_bind_of_ok h.users ?_
    refine exists_bind (readable_text hall (by simp [realityReads])) fun serverName ↦ ?_
    refine exists_bind (readable_secret hall (by simp [realityReads])) fun privateKey ↦ ?_
    exact exists_bind (readable_secret hall (by simp [realityReads])) fun shortId ↦ ⟨_, rfl⟩
  · rw [if_neg hvless, if_pos hshadowTls]
    refine exists_bind (readable_secret hall (by simp)) fun password ↦ ?_
    refine exists_bind (readable_secret hall (by simp)) fun shadowTlsPassword ↦ ?_
    exact exists_bind (readable_text hall (by simp)) fun serverName ↦ ⟨_, rfl⟩
  · rw [if_neg hvless, if_neg hshadowTls, if_pos hhysteria]
    refine exists_bind (readable_secret hall (by simp)) fun password ↦ ?_
    exact exists_bind (singBoxObfs_exists (hall _ (by simp))) fun obfs ↦ ⟨_, rfl⟩
  · rw [if_neg hvless, if_neg hshadowTls, if_neg hhysteria, if_pos hanyTls]
    exact exists_bind (readable_secret hall (by simp)) fun password ↦ ⟨_, rfl⟩
  · rw [if_neg hvless, if_neg hshadowTls, if_neg hhysteria, if_neg hanyTls, if_pos htuic]
    exact exists_bind (readable_secret hall (by simp)) fun password ↦
      exists_bind_of_ok h.users ⟨_, rfl⟩

section mihomo

variable {wrapper : SecurityWrapper} {listener : List (String × Value)}

theorem realityServerName_exists (h : (∃ value, configText config "sni" = .ok value) ∨
    ∃ value, configText config "server_name" = .ok value) :
    ∃ name, realityServerName config = .ok name := by
  rw [realityServerName]
  cases hsni : configText config "sni" with
  | ok sni => exact ⟨sni, rfl⟩
  | error message =>
    rcases h with ⟨value, hvalue⟩ | h
    · rw [hsni] at hvalue
      cases hvalue
    · exact h

theorem realityServerOptions_exists
    (hname : (∃ value, configText config "sni" = .ok value) ∨
      ∃ value, configText config "server_name" = .ok value)
    (hkey : ∃ value, resolvedSecret payload "private_key_secret" = .ok value)
    (hid : ∃ value, resolvedSecret payload "short_id_secret" = .ok value) :
    ∃ options, realityServerOptions payload config = .ok options := by
  refine exists_bind (realityServerName_exists hname) fun serverName ↦ ?_
  refine exists_bind hkey fun privateKey ↦ ?_
  exact exists_bind hid fun shortId ↦ ⟨_, rfl⟩

theorem mihomoServerWrapper_exists (h : ∀ field ∈ wrapper.reads, Readable payload config field) :
    ∃ added, mihomoServerWrapper payload config wrapper = .ok added := by
  cases wrapper with
  | standardTls => exact ⟨_, rfl⟩
  | reality =>
    refine exists_bind (realityServerOptions_exists ?_ ?_ ?_) fun options ↦ ⟨_, rfl⟩
    · exact .inl (readable_text h (by simp [SecurityWrapper.reads]))
    · exact readable_secret h (by simp [SecurityWrapper.reads])
    · exact readable_secret h (by simp [SecurityWrapper.reads])
  | shadowTlsV3 =>
    refine exists_bind (readable_secret h (by simp [SecurityWrapper.reads])) fun password ↦ ?_
    exact exists_bind (readable_text h (by simp [SecurityWrapper.reads])) fun sni ↦ ⟨_, rfl⟩
  | resTls =>
    refine exists_bind (readable_text h (by simp [SecurityWrapper.reads])) fun sni ↦ ?_
    exact exists_bind (readable_secret h (by simp [SecurityWrapper.reads])) fun password ↦ ⟨_, rfl⟩
  | jls =>
    refine exists_bind (readable_secret h (by simp [SecurityWrapper.reads])) fun username ↦ ?_
    refine exists_bind (readable_secret h (by simp [SecurityWrapper.reads])) fun password ↦ ?_
    exact exists_bind (readable_text h (by simp [SecurityWrapper.reads])) fun sni ↦ ⟨_, rfl⟩

theorem mihomoWrapped_exists (hreads : wrapperReads fragment.capability = some fields)
    (hall : ∀ field ∈ fields, Readable payload config field) :
    ∃ document, mihomoWrapped fragment payload config listener = .ok document := by
  obtain ⟨wrapper, hwrapper, rfl⟩ := Option.map_eq_some_iff.mp hreads
  have hok : wrapperForCapability fragment.capability = .ok wrapper := by
    cases hcapability : wrapperForCapability fragment.capability with
    | ok found =>
      rw [hcapability] at hwrapper
      rw [Option.some.inj hwrapper]
    | error message =>
      rw [hcapability] at hwrapper
      cases hwrapper
  exact exists_bind_of_ok hok (exists_bind (mihomoServerWrapper_exists hall) fun added ↦ ⟨_, rfl⟩)

theorem mihomoVless_exists (h : Opened fragment payload config port users)
    (hreads : mihomoVlessReads fragment.capability = some fields)
    (hall : ∀ field ∈ fields, Readable payload config field) :
    ∃ listener, mihomoVless fragment payload config port = .ok listener := by
  have hreality : realityReads ⊆ fields →
      ∃ options, realityServerOptions payload config = .ok options := by
    intro hsub
    refine realityServerOptions_exists (.inr ?_) ?_ ?_
    · exact readable_text hall (hsub (by simp [realityReads]))
    · exact readable_secret hall (hsub (by simp [realityReads]))
    · exact readable_secret hall (hsub (by simp [realityReads]))
  refine exists_bind_of_ok h.users ?_
  rw [mihomoVlessReads] at hreads
  split_ifs at hreads with htcp hxhttp
  · cases hreads
    rw [if_pos htcp]
    exact exists_bind (hreality (List.Subset.refl _)) fun options ↦ ⟨_, rfl⟩
  · cases hreads
    rw [if_neg htcp, if_pos hxhttp]
    refine exists_bind (hreality (List.subset_append_left _ _)) fun options ↦ ?_
    refine exists_bind (readable_text hall (by simp)) fun path ↦ ?_
    exact exists_bind (readable_text hall (by simp [realityReads])) fun host ↦ ⟨_, rfl⟩
  · rw [if_neg htcp, if_neg hxhttp]
    exact mihomoWrapped_exists hreads hall

theorem mihomoListener_exists (h : Opened fragment payload config port users)
    (hreads : mihomoReads fragment.capability = some fields)
    (hall : ∀ field ∈ fields, Readable payload config field) :
    ∃ listener, mihomoListener fragment = .ok listener := by
  refine exists_bind_of_ok h.object (exists_bind_of_ok h.config (exists_bind_of_ok h.port ?_))
  rw [mihomoReads] at hreads
  split_ifs at hreads with hvless hanyTls htrojan hsnell hplain hmieru htrustTunnel hquic hsudoku
  · rw [if_pos hvless]
    exact mihomoVless_exists h hreads hall
  · obtain ⟨rest, hrest, rfl⟩ := Option.map_eq_some_iff.mp hreads
    rw [if_neg hvless, if_pos hanyTls]
    exact exists_bind (readable_secret hall (by simp)) fun password ↦
      mihomoWrapped_exists hrest (List.forall_mem_cons.mp hall).2
  · rw [if_neg hvless, if_neg hanyTls, if_pos htrojan]
    exact exists_bind_of_ok h.users (mihomoWrapped_exists hreads hall)
  · cases hreads
    rw [if_neg hvless, if_neg hanyTls, if_neg htrojan, if_pos hsnell]
    refine exists_bind (readable_secret hall (by simp)) fun psk ↦ ?_
    rw [if_pos hplain]
    exact ⟨_, rfl⟩
  · obtain ⟨rest, hrest, rfl⟩ := Option.map_eq_some_iff.mp hreads
    rw [if_neg hvless, if_neg hanyTls, if_neg htrojan, if_pos hsnell]
    refine exists_bind (readable_secret hall (by simp)) fun psk ↦ ?_
    rw [if_neg hplain]
    exact mihomoWrapped_exists hrest (List.forall_mem_cons.mp hall).2
  · cases hreads
    rw [if_neg hvless, if_neg hanyTls, if_neg htrojan, if_neg hsnell, if_pos hmieru]
    exact exists_bind (readable_secret hall (by simp)) fun password ↦
      exists_bind_of_ok h.users ⟨_, rfl⟩
  · rw [if_neg hvless, if_neg hanyTls, if_neg htrojan, if_neg hsnell, if_neg hmieru,
      if_pos htrustTunnel]
    exact exists_bind_of_ok h.users ⟨_, rfl⟩
  · cases hreads
    rw [if_neg hvless, if_neg hanyTls, if_neg htrojan, if_neg hsnell, if_neg hmieru,
      if_neg htrustTunnel, if_pos hquic]
    exact exists_bind_of_ok h.users
      (exists_bind (readable_text hall (by simp)) fun sni ↦ ⟨_, rfl⟩)
  · cases hreads
    rw [if_neg hvless, if_neg hanyTls, if_neg htrojan, if_neg hsnell, if_neg hmieru,
      if_neg htrustTunnel, if_neg hquic, if_pos hsudoku]
    refine exists_bind (readable_secret hall (by simp)) fun key ↦ ?_
    exact exists_bind (readable_text hall (by simp)) fun pathRoot ↦ ⟨_, rfl⟩

end mihomo

def ReadsObfuscation (fragment : ServerFragment) : Prop :=
  ∀ payload config, payloadObject fragment = .ok payload → payloadConfig payload = .ok config →
    (config.get? "obfs_password_secret").isSome →
      ∃ value, resolvedSecret payload "obfs_password_secret" = .ok value

theorem hysteriaDocument_exists (h : Opened fragment payload config port users)
    (hpassword : ∃ value, resolvedSecret payload "password_secret" = .ok value) :
    (∃ document, hysteriaDocument fragment = .ok document) ↔ ReadsObfuscation fragment := by
  constructor
  · rintro ⟨document, hdocument⟩ payload' config' hpayload hconfig hsome
    obtain ⟨payload'', hobject, hdocument⟩ := bind_eq_ok.mp hdocument
    cases hpayload.symm.trans hobject
    obtain ⟨port', -, hdocument⟩ := bind_eq_ok.mp hdocument
    obtain ⟨password, -, hdocument⟩ := bind_eq_ok.mp hdocument
    obtain ⟨obfs, hobfs, -⟩ := bind_eq_ok.mp hdocument
    obtain ⟨config'', hfound, hobfs⟩ := bind_eq_ok.mp hobfs
    cases hconfig.symm.trans hfound
    rw [if_pos hsome] at hobfs
    obtain ⟨value, hvalue, -⟩ := bind_eq_ok.mp hobfs
    exact ⟨value, hvalue⟩
  · intro hreads
    refine exists_bind_of_ok h.object (exists_bind_of_ok h.port ?_)
    refine exists_bind hpassword fun password ↦ exists_bind ?_ fun obfs ↦ ⟨_, rfl⟩
    refine exists_bind_of_ok h.config ?_
    split_ifs with hsome
    · exact exists_bind (hreads _ _ h.object h.config hsome) fun value ↦ ⟨_, rfl⟩
    · exact ⟨[], rfl⟩

theorem tuicDocument_exists (h : Opened fragment payload config port users)
    (hpassword : ∃ value, resolvedSecret payload "password_secret" = .ok value) :
    ∃ document, tuicDocument fragment = .ok document :=
  exists_bind_of_ok h.object (exists_bind hpassword fun _ ↦
    exists_bind_of_ok h.users (exists_bind_of_ok h.port ⟨_, rfl⟩))

def Legible (flavor : Flavor) (fragment : ServerFragment) : Prop :=
  ∃ payload config port users fields, Opened fragment payload config port users ∧
    flavor.reads fragment.capability = some fields ∧ ∀ field ∈ fields, Readable payload config field

def Flavor.Fits (flavor : Flavor) (plan : CorePlan) : Prop :=
  match flavor with
  | .hysteria => plan.fragments.length ≤ 1 ∧ ∀ fragment ∈ plan.fragments, ReadsObfuscation fragment
  | .tuic => plan.fragments.length ≤ 1
  | _ => True

theorem composeHysteria_exists (h : ∀ fragment ∈ plan.fragments, Legible .hysteria fragment) :
    (∃ document, composeHysteria plan = .ok document) ↔ Flavor.hysteria.Fits plan := by
  obtain ⟨generation, coreId, fragments⟩ := plan
  simp only [composeHysteria, Flavor.Fits]
  rcases fragments with - | ⟨fragment, - | ⟨other, rest⟩⟩
  · simp
  · obtain ⟨payload, config, port, users, fields, hopened, hreads, hall⟩ :=
      h fragment (List.mem_singleton_self _)
    cases hreads
    rw [hysteriaDocument_exists hopened (readable_secret hall (List.mem_singleton_self _))]
    simp
  · simp

theorem composeTuic_exists (h : ∀ fragment ∈ plan.fragments, Legible .tuic fragment) :
    (∃ document, composeTuic plan = .ok document) ↔ Flavor.tuic.Fits plan := by
  obtain ⟨generation, coreId, fragments⟩ := plan
  simp only [composeTuic, Flavor.Fits]
  rcases fragments with - | ⟨fragment, - | ⟨other, rest⟩⟩
  · simp
  · obtain ⟨payload, config, port, users, fields, hopened, hreads, hall⟩ :=
      h fragment (List.mem_singleton_self _)
    cases hreads
    exact iff_of_true
      (tuicDocument_exists hopened (readable_secret hall (List.mem_singleton_self _))) le_rfl
  · simp

theorem compose_exists {flavor : Flavor} (h : ∀ fragment ∈ plan.fragments, Legible flavor fragment) :
    (∃ document, flavor.compose plan = .ok document) ↔ flavor.Fits plan := by
  cases flavor with
  | hysteria => exact composeHysteria_exists h
  | tuic => exact composeTuic_exists h
  | xray =>
    refine iff_of_true (exists_bind (exists_mapM_ok fun fragment hmem ↦ ?_) fun _ ↦ ⟨_, rfl⟩) trivial
    obtain ⟨payload, config, port, users, fields, hopened, hreads, hall⟩ := h fragment hmem
    cases hreads
    exact xrayInbound_exists hopened hall
  | singBox =>
    refine iff_of_true (exists_bind (exists_mapM_ok fun fragment hmem ↦ ?_) fun _ ↦ ⟨_, rfl⟩) trivial
    obtain ⟨payload, config, port, users, fields, hopened, hreads, hall⟩ := h fragment hmem
    exact singBoxInbounds_exists hopened hreads hall
  | mihomo =>
    refine iff_of_true (exists_bind (exists_mapM_ok fun fragment hmem ↦ ?_) fun _ ↦ ⟨_, rfl⟩) trivial
    obtain ⟨payload, config, port, users, fields, hopened, hreads, hall⟩ := h fragment hmem
    exact mihomoListener_exists hopened hreads hall

theorem reads_declared : ∀ json ∈ protocols, ∀ core ∈ builtInAdapters,
    json.manifest.id ∈ core.manifest.capabilities →
      ((core.flavor.reads json.manifest.id).any fun fields ↦ fields.all fun field ↦
        field ∈ json.fields && (field.kind = .secretRef || field.required) &&
          field.name ≠ "public_key_secret") = true := by
  decide

theorem obfuscation_declared : ∀ json ∈ protocols, json.manifest.id = "hysteria2" →
    secretField "obfs_password_secret" false ∈ json.fields := by
  decide

section rendered

variable {adapter : JsonProtocolAdapter} {context : ServerRenderContext}
variable {secrets : List (String × Value)} {field : ConfigField}

theorem readable_rendered (h : Renders adapter context secrets fragment)
    (hfield : field ∈ adapter.fields) (hdeclared : field.kind = .secretRef ∨ field.required)
    (hname : field.name ≠ "public_key_secret") :
    Readable (serverPayload adapter context secrets) context.profile.config field := by
  have hchecked := (validateConfig_ok.mp h.config).2.2 field hfield
  have htext : field.required → ∃ raw, context.profile.config.text? field.name = some raw ∧
      trim raw ≠ "" := by
    intro hrequired
    obtain ⟨⟨⟩, hpresence, -⟩ := bind_eq_ok.mp hchecked
    rw [validatePresence, if_pos hrequired] at hpresence
    obtain ⟨value, hvalue, -⟩ := map_eq_ok.mp hpresence
    obtain ⟨raw, hraw, rfl, hne⟩ := requiredText_ok.mp hvalue
    exact ⟨raw, hraw, hne⟩
  rw [Readable]
  cases hkind : field.kind with
  | text =>
    have hrequired := hdeclared.resolve_left (by simp [hkind])
    obtain ⟨raw, hraw, -⟩ := htext hrequired
    exact ⟨raw, elim_eq_ok.mpr hraw⟩
  | secretRef =>
    have hread : ∀ raw, context.profile.config.text? field.name = some raw → trim raw ≠ "" →
        ∃ value, resolvedSecret (serverPayload adapter context secrets) field.name = .ok value := by
      intro raw hraw hne
      obtain ⟨value, -, hvalue⟩ := resolvedSecret_rendered h hfield hkind hname hraw hne
      exact ⟨value, hvalue⟩
    simp only
    split_ifs with hrequired
    · obtain ⟨raw, hraw, hne⟩ := htext hrequired
      exact hread raw hraw hne
    · exact hread

theorem opened_rendered (h : Renders adapter context secrets fragment)
    (hport : context.profile.port ≤ 65535) :
    Opened fragment (serverPayload adapter context secrets) context.profile.config
      context.profile.port ((adapter.individuals context).map fun user ↦
        .object [("username", .string user.username), ("uuid", .string user.uuid)]) :=
  ⟨payloadObject_rendered h, payloadConfig_rendered h, payloadPort_rendered hport,
    payloadUsers_rendered⟩

theorem legible_rendered {core : ManagedCoreAdapter} (hcore : core ∈ builtInAdapters)
    (hadapter : adapter ∈ protocols) (h : Renders adapter context secrets fragment)
    (hport : context.profile.port ≤ 65535)
    (hcapability : adapter.manifest.id ∈ core.manifest.capabilities) :
    Legible core.flavor fragment := by
  have hdeclared := reads_declared adapter hadapter core hcore hcapability
  cases hreads : core.flavor.reads adapter.manifest.id with
  | none =>
    rw [hreads] at hdeclared
    cases hdeclared
  | some fields =>
    rw [hreads, Option.any_some, List.all_eq_true] at hdeclared
    refine ⟨_, _, _, _, fields, opened_rendered h hport, h.capability ▸ hreads, ?_⟩
    intro field hfield
    have hall := hdeclared field hfield
    simp only [Bool.and_eq_true, Bool.or_eq_true, decide_eq_true_eq] at hall
    exact readable_rendered h hall.1.1 hall.1.2 hall.2

theorem readsObfuscation_rendered (h : Renders adapter context secrets fragment)
    (hdeclared : secretField "obfs_password_secret" false ∈ adapter.fields) :
    ReadsObfuscation fragment ↔
      ((context.profile.config.get? "obfs_password_secret").isSome → ∃ raw,
        context.profile.config.text? "obfs_password_secret" = some raw ∧ trim raw ≠ "") := by
  constructor
  · intro hreads hsome
    obtain ⟨value, hvalue⟩ := hreads _ _ (payloadObject_rendered h) (payloadConfig_rendered h) hsome
    obtain ⟨reference, htext, -⟩ := resolvedSecret_some h hvalue
    refine ⟨_, htext, ?_⟩
    rw [SecretRef.trim_name]
    exact reference.name_ne
  · intro hnamed payload config hpayload hconfig hsome
    cases (payloadObject_rendered h).symm.trans hpayload
    cases (payloadConfig_rendered h).symm.trans hconfig
    obtain ⟨raw, hraw, hne⟩ := hnamed hsome
    obtain ⟨value, -, hvalue⟩ := resolvedSecret_rendered h hdeclared rfl (by decide) hraw hne
    exact ⟨value, hvalue⟩

end rendered

end StealthHub.Adapters

import StealthHub.Adapters.Renderable

set_option autoImplicit false

namespace StealthHub.Adapters

open Text Except

inductive ClientRead
  | text (name : String)
  | secret (name : String)
  | optionalSecret (name : String)
  deriving DecidableEq

def ClientRead.run (context : ClientRenderContext) : ClientRead → Except String Unit
  | .text name => discard (requiredText context.profile.config name)
  | .secret name => discard (Adapters.secret context name)
  | .optionalSecret name => discard (Adapters.optionalSecret context name)

def SecurityWrapper.clientReads : SecurityWrapper → List ClientRead
  | .standardTls => []
  | .reality => [.secret "public_key_secret", .secret "short_id_secret"]
  | .shadowTlsV3 => [.secret "shadow_tls_password_secret"]
  | .resTls => [.secret "restls_password_secret"]
  | .jls => [.secret "jls_username_secret", .secret "jls_password_secret"]

def Implementation.clientReads : Implementation → List ClientRead
  | .vlessXhttp => [.text "server_name", .secret "public_key_secret", .secret "short_id_secret",
    .text "path"]
  | .vlessTcp => [.text "server_name", .secret "public_key_secret", .secret "short_id_secret"]
  | .vlessWrapped wrapper | .trojan wrapper => .text "sni" :: wrapper.clientReads
  | .shadowsocksShadowTls => [.secret "password_secret", .text "server_name",
    .secret "shadow_tls_password_secret"]
  | .hysteria => [.secret "password_secret", .text "sni", .optionalSecret "obfs_password_secret"]
  | .anyTlsLegacy | .tuic => [.secret "password_secret", .text "sni"]
  | .anyTls wrapper => .secret "password_secret" :: .text "sni" :: wrapper.clientReads
  | .snellV5 wrapper => .secret "psk_secret" ::
    wrapper.elim [] fun wrapper ↦ .text "sni" :: wrapper.clientReads
  | .mieruTcp => [.secret "password_secret"]
  | .trustTunnelH2 | .shadowQuic => [.text "sni"]
  | .sudokuHttpMask => [.secret "key_secret", .text "path_root"]

def readAll (context : ClientRenderContext) : List ClientRead → Except String Unit
  | [] => .ok ()
  | read :: rest => do
    read.run context
    readAll context rest

section reads

variable {context : ClientRenderContext} {α β : Type} {reads rest : List ClientRead}
variable {x : Except String α} {f : α → Except String β} {name : String}
variable {proxy : List (String × Value)} {wrapper : SecurityWrapper}

theorem readAll_append : readAll context (reads ++ rest) =
    (readAll context reads >>= fun _ ↦ readAll context rest) := by
  induction reads with
  | nil => rfl
  | cons read reads ih =>
    rw [List.cons_append, readAll, readAll, ih]
    cases read.run context <;> rfl

theorem readAll_ok : readAll context reads = .ok () ↔
    ∀ read ∈ reads, read.run context = .ok () := by
  induction reads with
  | nil => simp [readAll]
  | cons read reads ih =>
    rw [readAll, bind_eq_ok, ih, List.forall_mem_cons]
    constructor
    · rintro ⟨⟨⟩, hread, hrest⟩
      exact ⟨hread, hrest⟩
    · rintro ⟨hread, hrest⟩
      exact ⟨(), hread, hrest⟩

theorem readAll_error {e : String} (h : readAll context reads = .error e) :
    ∃ read ∈ reads, read.run context = .error e := by
  induction reads with
  | nil => cases h
  | cons read reads ih =>
    rw [readAll] at h
    cases hread : read.run context with
    | error e' =>
      rw [hread] at h
      cases h
      exact ⟨read, List.mem_cons_self, hread⟩
    | ok value =>
      rw [hread] at h
      obtain ⟨later, hlater, herror⟩ := ih h
      exact ⟨later, List.mem_cons_of_mem _ hlater, herror⟩

def Reads (context : ClientRenderContext) (reads : List ClientRead) (x : Except String α) : Prop :=
  discard x = readAll context reads

theorem reads_ok {a : α} : Reads context [] (.ok a) := rfl

theorem reads_single {read : ClientRead} (h : discard x = read.run context) :
    Reads context [read] x := by
  rw [Reads, h, readAll]
  cases read.run context <;> rfl

theorem reads_text : Reads context [.text name] (requiredText context.profile.config name) :=
  reads_single rfl

theorem reads_secret : Reads context [.secret name] (secret context name) := reads_single rfl

theorem reads_optionalSecret :
    Reads context [.optionalSecret name] (optionalSecret context name) :=
  reads_single rfl

theorem Reads.bind (hx : Reads context reads x) (hf : ∀ a, Reads context rest (f a)) :
    Reads context (reads ++ rest) (x >>= f) := by
  rw [Reads, readAll_append, ← hx]
  cases x with
  | error e => rfl
  | ok a => exact hf a

theorem realityOpts_reads :
    Reads context [.secret "public_key_secret", .secret "short_id_secret"] (realityOpts context) :=
  reads_secret.bind fun _ ↦ reads_secret.bind fun _ ↦ reads_ok

theorem applyClientWrapper_reads :
    Reads context wrapper.clientReads (applyClientWrapper context proxy wrapper) := by
  cases wrapper with
  | standardTls => exact reads_ok
  | reality => exact realityOpts_reads.bind fun _ ↦ reads_ok
  | shadowTlsV3 | resTls => exact reads_secret.bind fun _ ↦ reads_ok
  | jls => exact reads_secret.bind fun _ ↦ reads_secret.bind fun _ ↦ reads_ok

theorem applySnellClientWrapper_reads (hstandard : wrapper ≠ .standardTls)
    (hreality : wrapper ≠ .reality) : Reads context (.text "sni" :: wrapper.clientReads)
      (applySnellClientWrapper context proxy wrapper) := by
  refine reads_text.bind fun host ↦ ?_
  cases wrapper with
  | standardTls => exact absurd rfl hstandard
  | reality => exact absurd rfl hreality
  | shadowTlsV3 | resTls => exact reads_secret.bind fun _ ↦ reads_ok
  | jls => exact reads_secret.bind fun _ ↦ reads_secret.bind fun _ ↦ reads_ok

theorem renderProxy_reads {implementation : Implementation}
    (hwrappable : implementation.Wrappable) :
    Reads context implementation.clientReads (renderProxy context implementation) := by
  cases implementation with
  | vlessXhttp =>
    exact reads_text.bind fun _ ↦ realityOpts_reads.bind fun _ ↦ reads_text.bind fun _ ↦ reads_ok
  | vlessTcp => exact reads_text.bind fun _ ↦ realityOpts_reads.bind fun _ ↦ reads_ok
  | vlessWrapped wrapper | trojan wrapper =>
    exact reads_text.bind fun _ ↦ applyClientWrapper_reads
  | shadowsocksShadowTls =>
    exact reads_secret.bind fun _ ↦ reads_text.bind fun _ ↦ reads_secret.bind fun _ ↦ reads_ok
  | hysteria =>
    refine reads_secret.bind fun _ ↦ reads_text.bind fun _ ↦ reads_optionalSecret.bind fun obfs ↦ ?_
    cases obfs <;> exact reads_ok
  | anyTlsLegacy | tuic => exact reads_secret.bind fun _ ↦ reads_text.bind fun _ ↦ reads_ok
  | anyTls wrapper =>
    exact reads_secret.bind fun _ ↦ reads_text.bind fun _ ↦ applyClientWrapper_reads
  | snellV5 wrapper =>
    cases wrapper with
    | none => exact reads_secret.bind fun _ ↦ reads_ok
    | some wrapper =>
      refine reads_secret.bind fun _ ↦ applySnellClientWrapper_reads ?_ ?_
      · rintro rfl
        exact hwrappable .standardTls List.mem_cons_self rfl
      · rintro rfl
        exact hwrappable .reality (List.mem_cons_of_mem _ List.mem_cons_self) rfl
  | mieruTcp => exact reads_secret.bind fun _ ↦ reads_ok
  | trustTunnelH2 | shadowQuic => exact reads_text.bind fun _ ↦ reads_ok
  | sudokuHttpMask => exact reads_secret.bind fun _ ↦ reads_text.bind fun _ ↦ reads_ok

end reads

theorem clientReads_complete : ∀ json ∈ protocols, ∀ field ∈ json.fields,
    field.kind = .secretRef → field.name ≠ "private_key_secret" →
      .secret field.name ∈ json.implementation.clientReads ∨
        .optionalSecret field.name ∈ json.implementation.clientReads := by
  decide

def ClientRead.Declared (json : JsonProtocolAdapter) : ClientRead → Prop
  | .text name => textField name ∈ json.fields
  | .secret name => name ≠ "private_key_secret" ∧ secretField name true ∈ json.fields
  | .optionalSecret name => name ≠ "private_key_secret" ∧ secretField name false ∈ json.fields

instance (json : JsonProtocolAdapter) (read : ClientRead) : Decidable (read.Declared json) := by
  cases read <;> unfold ClientRead.Declared <;> infer_instance

theorem clientReads_fields : ∀ json ∈ protocols, ∀ read ∈ json.implementation.clientReads,
    read.Declared json := by
  decide

variable {json : JsonProtocolAdapter} {profile : ProtocolProfile} {user : SubscriptionUser}
variable {secrets : SecretResolver} {refs : List SecretRef} {reference : SecretRef}
variable {name raw e : String}

theorem secret_eq (hraw : profile.config.text? name = some raw)
    (hreference : reference.name = trim raw) :
    secret ⟨profile, user, secrets⟩ name = (secrets reference.name).map .string := by
  have htext : requiredText profile.config name = .ok reference.name :=
    requiredText_ok.mpr ⟨raw, hraw, hreference.symm, reference.name_ne⟩
  rw [secret, htext]
  change (SecretRef.parse reference.name >>= _) = _
  rw [SecretRef.parse_ok.mpr rfl]
  rfl

theorem optionalSecret_eq (hraw : profile.config.text? name = some raw)
    (hreference : reference.name = trim raw) :
    optionalSecret ⟨profile, user, secrets⟩ name =
      (secrets reference.name).map fun value ↦ some (.string value) := by
  have htext := optionalText_of_text hraw
  rw [← hreference, if_neg reference.name_ne] at htext
  rw [optionalSecret, htext]
  change (SecretRef.parse reference.name >>= fun found ↦ secrets found.name >>= _) = _
  rw [SecretRef.parse_ok.mpr rfl]
  rfl

theorem run_of_reference (hjson : json ∈ protocols)
    (hrefs : json.clientSecretReferences profile.config = .ok refs) (hmem : reference ∈ refs) :
    ∃ read ∈ json.implementation.clientReads,
      read.run ⟨profile, user, secrets⟩ = discard (secrets reference.name) := by
  obtain ⟨field, hfield, hkind, hne, htext⟩ := field_of_reference hrefs hmem
  have htrim : reference.name = trim reference.name := reference.trim_name.symm
  rcases clientReads_complete json hjson field hfield hkind hne with hread | hread
  · refine ⟨_, hread, ?_⟩
    rw [ClientRead.run, secret_eq htext htrim]
    cases secrets reference.name <;> rfl
  · refine ⟨_, hread, ?_⟩
    rw [ClientRead.run, optionalSecret_eq htext htrim]
    cases secrets reference.name <;> rfl

theorem reference_of_run (hjson : json ∈ protocols)
    (hvalid : json.validateConfig json.manifest.schemaVersion profile.config = .ok ())
    (hrefs : json.clientSecretReferences profile.config = .ok refs) {read : ClientRead}
    (hread : read ∈ json.implementation.clientReads)
    (h : read.run ⟨profile, user, secrets⟩ = .error e) :
    ∃ reference ∈ refs, secrets reference.name = .error e := by
  have hdeclared := clientReads_fields json hjson read hread
  have hreferred : ∀ {raw}, ∀ field ∈ json.fields, field.kind = .secretRef →
      field.name ≠ "private_key_secret" → profile.config.text? field.name = some raw →
        trim raw ≠ "" → ∃ reference ∈ refs, reference.name = trim raw := by
    intro raw field hfield hkind hne hraw hnonempty
    obtain ⟨reference, hreference, rfl⟩ := references_mem hrefs hfield hkind hne hraw hnonempty
    exact ⟨reference, hreference, reference.trim_name.symm⟩
  cases read with
  | text name =>
    obtain ⟨value, hvalue⟩ := requiredText_validated hvalid hdeclared rfl
    rw [ClientRead.run, show requiredText profile.config name = .ok value from hvalue] at h
    cases h
  | secret name =>
    obtain ⟨hne, hfield⟩ := hdeclared
    obtain ⟨value, hvalue⟩ := requiredText_validated hvalid hfield rfl
    obtain ⟨raw, hraw, rfl, hnonempty⟩ := requiredText_ok.mp hvalue
    obtain ⟨reference, hreference, hname⟩ := hreferred _ hfield rfl hne hraw hnonempty
    have hsecret : secret ⟨profile, user, secrets⟩ name =
        (secrets reference.name).map .string := secret_eq hraw hname
    refine ⟨reference, hreference, ?_⟩
    rw [ClientRead.run, hsecret] at h
    cases hresolved : secrets reference.name with
    | error e' =>
      rw [hresolved] at h
      cases h
      rfl
    | ok value =>
      rw [hresolved] at h
      cases h
  | optionalSecret name =>
    obtain ⟨hne, hfield⟩ := hdeclared
    cases hraw : profile.config.text? name with
    | none =>
      have habsent : optionalText profile.config name = .ok none :=
        optionalText_absent hvalid hfield rfl hraw
      rw [ClientRead.run, optionalSecret, habsent] at h
      cases h
    | some raw =>
      by_cases hempty : trim raw = ""
      · have htext := optionalText_of_text hraw
        rw [if_pos hempty] at htext
        rw [ClientRead.run, optionalSecret, htext] at h
        cases h
      · obtain ⟨reference, hreference, hname⟩ := hreferred _ hfield rfl hne hraw hempty
        refine ⟨reference, hreference, ?_⟩
        rw [ClientRead.run, optionalSecret_eq hraw hname] at h
        cases hsecret : secrets reference.name with
        | error e' =>
          rw [hsecret] at h
          cases h
          rfl
        | ok value =>
          rw [hsecret] at h
          cases h

theorem renderClient_reads (hjson : json ∈ protocols)
    (hvalid : json.validateConfig profile.schemaVersion profile.config = .ok ()) :
    Reads ⟨profile, user, secrets⟩ json.implementation.clientReads
      (json.renderClient ⟨profile, user, secrets⟩) := by
  have hwrappable := (clientReads_declared json hjson).1
  rw [JsonProtocolAdapter.renderClient, hvalid]
  have hreads : Reads ⟨profile, user, secrets⟩ json.implementation.clientReads
      (renderProxy ⟨profile, user, secrets⟩ json.implementation) := renderProxy_reads hwrappable
  rw [← List.append_nil json.implementation.clientReads]
  exact hreads.bind fun _ ↦ reads_ok

theorem renderClient_resolved (hjson : json ∈ protocols)
    (hrefs : json.clientSecretReferences profile.config = .ok refs) {proxy : Value}
    (h : json.renderClient ⟨profile, user, secrets⟩ = .ok proxy) :
    ∀ reference ∈ refs, ∃ value, secrets reference.name = .ok value := by
  intro reference hmem
  obtain ⟨⟨⟩, hvalid, -⟩ := bind_eq_ok.mp h
  have hreads : Reads ⟨profile, user, secrets⟩ _ _ := renderClient_reads hjson hvalid
  rw [Reads, h] at hreads
  obtain ⟨read, hread, hrun⟩ : ∃ read ∈ json.implementation.clientReads,
      read.run ⟨profile, user, secrets⟩ = discard (secrets reference.name) :=
    run_of_reference hjson hrefs hmem
  have hok := readAll_ok.mp hreads.symm read hread
  rw [hrun] at hok
  obtain ⟨value, hvalue, -⟩ := bind_eq_ok.mp hok
  exact ⟨value, hvalue⟩

theorem renderClient_error (hjson : json ∈ protocols)
    (hvalid : json.validateConfig profile.schemaVersion profile.config = .ok ())
    (hrefs : json.clientSecretReferences profile.config = .ok refs)
    (h : json.renderClient ⟨profile, user, secrets⟩ = .error e) :
    ∃ reference ∈ refs, secrets reference.name = .error e := by
  have hreads : Reads ⟨profile, user, secrets⟩ _ _ := renderClient_reads hjson hvalid
  rw [Reads, h] at hreads
  obtain ⟨read, hread, hrun⟩ := readAll_error hreads.symm
  rw [(validateConfig_ok.mp hvalid).1] at hvalid
  exact reference_of_run hjson hvalid hrefs hread hrun

end StealthHub.Adapters

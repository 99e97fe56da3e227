import StealthHub.Adapters

set_option autoImplicit false

namespace StealthHub.Adapters

open Text

inductive SecurityWrapper
  | standardTls
  | reality
  | shadowTlsV3
  | resTls
  | jls
  deriving DecidableEq

inductive Implementation
  | vlessXhttp
  | vlessTcp
  | vlessWrapped (wrapper : SecurityWrapper)
  | shadowsocksShadowTls
  | hysteria
  | anyTlsLegacy
  | anyTls (wrapper : SecurityWrapper)
  | tuic
  | trojan (wrapper : SecurityWrapper)
  | snellV5 (wrapper : Option SecurityWrapper)
  | mieruTcp
  | trustTunnelH2
  | shadowQuic
  | sudokuHttpMask
  deriving DecidableEq

inductive ConfigFieldKind
  | text
  | secretRef
  deriving DecidableEq

structure ConfigField where
  name : String
  kind : ConfigFieldKind
  required : Bool
  deriving DecidableEq

/-- One built-in protocol, its settings and its code. -/
structure JsonProtocolAdapter where
  manifest : ProtocolAdapterManifest
  fields : List ConfigField
  implementation : Implementation

namespace SecurityWrapper

def label : SecurityWrapper → String
  | .standardTls => "tls"
  | .reality => "reality"
  | .shadowTlsV3 => "shadow-tls-v3"
  | .resTls => "restls"
  | .jls => "jls"

def maturity : SecurityWrapper → AdapterMaturity
  | .standardTls | .reality | .shadowTlsV3 => .stable
  | .resTls | .jls => .experimental

end SecurityWrapper

def validatedRuntime : Implementation → String
  | .shadowsocksShadowTls | .anyTlsLegacy => "sing-box"
  | .hysteria => "hysteria"
  | .tuic => "tuic"
  | _ => "mihomo"

def composition (implementation : Implementation) : ProtocolComposition :=
  let runtime := some (validatedRuntime implementation)
  match implementation with
  | .vlessXhttp => ⟨"vless", "xhttp", "reality", none, .stable, runtime⟩
  | .vlessTcp => ⟨"vless", "tcp", "reality", some "xtls-rprx-vision", .stable, runtime⟩
  | .vlessWrapped wrapper => ⟨"vless", "tcp", wrapper.label, none, .experimental, runtime⟩
  | .shadowsocksShadowTls => ⟨"shadowsocks-2022", "tcp", "shadow-tls-v3", none, .stable, runtime⟩
  | .hysteria => ⟨"hysteria2", "quic", "tls+salamander", none, .stable, runtime⟩
  | .anyTlsLegacy => ⟨"anytls", "tcp", "tls", none, .experimental, runtime⟩
  | .anyTls wrapper => ⟨"anytls", "tcp", wrapper.label, none, wrapper.maturity, runtime⟩
  | .tuic => ⟨"tuic-v5", "quic", "tls", none, .stable, runtime⟩
  | .trojan wrapper => ⟨"trojan", "tcp", wrapper.label, none, wrapper.maturity, runtime⟩
  | .snellV5 wrapper =>
    ⟨"snell-v5", "tcp", wrapper.elim "psk" SecurityWrapper.label, none,
      wrapper.elim .stable SecurityWrapper.maturity, runtime⟩
  | .mieruTcp => ⟨"mieru", "tcp", "protocol-auth", none, .stable, runtime⟩
  | .trustTunnelH2 => ⟨"trusttunnel", "h2", "tls", none, .experimental, runtime⟩
  | .shadowQuic => ⟨"shadowquic", "quic", "jls", none, .experimental, runtime⟩
  | .sudokuHttpMask => ⟨"sudoku", "httpmask", "chacha20-poly1305", none, .experimental, runtime⟩

def requiredText (config : Value) (name : String) : Except String String :=
  let found := ((config.text? name).map trim).filter fun value ↦ value ≠ ""
  found.elim (.error s!"adapter field `{name}` is required") .ok

def optionalText (config : Value) (name : String) : Except String (Option String) :=
  match config.get? name with
  | none | some .null => .ok none
  | some (.string value) => .ok (if trim value = "" then none else some (trim value))
  | some _ => .error s!"adapter field `{name}` must be a string"

def validatePresence (config : Value) (field : ConfigField) : Except String Unit :=
  if field.required then discard (requiredText config field.name)
  else discard (optionalText config field.name)

def validateReference (config : Value) (name : String) : Except String Unit := do
  match ← optionalText config name with
  | some value => discard (SecretRef.parse value)
  | none => pure ()

def validateField (config : Value) (field : ConfigField) : Except String Unit := do
  validatePresence config field
  if field.kind = .secretRef then validateReference config field.name else pure ()

def Implementation.hasPrivateKey : Implementation → Bool
  | .vlessXhttp | .vlessTcp | .trojan .reality => true
  | _ => false

/-- The secret of a required field. -/
def secret (context : ClientRenderContext) (name : String) : Except String Value := do
  let reference ← SecretRef.parse (← requiredText context.profile.config name)
  return .string (← context.secrets reference.name)

def optionalSecret (context : ClientRenderContext) (name : String) :
    Except String (Option Value) := do
  match ← optionalText context.profile.config name with
  | none => return none
  | some reference => return some (.string (← context.secrets (← SecretRef.parse reference).name))

def base (context : ClientRenderContext) (kind : String) : List (String × Value) :=
  [("name", .string context.profile.name), ("type", .string kind),
    ("server", .string context.profile.server), ("port", .number context.profile.port)]

def realityOpts (context : ClientRenderContext) : Except String (String × Value) := do
  let publicKey ← secret context "public_key_secret"
  let shortId ← secret context "short_id_secret"
  return ("reality-opts", .object [("public-key", publicKey), ("short-id", shortId)])

def applyClientWrapper (context : ClientRenderContext) (proxy : List (String × Value)) :
    SecurityWrapper → Except String (List (String × Value))
  | .standardTls => .ok proxy
  | .reality => do return proxy ++ [← realityOpts context]
  | .shadowTlsV3 => do
    let password ← secret context "shadow_tls_password_secret"
    return proxy ++ [("shadow-tls-opts", .object [("version", .number 3), ("password", password)])]
  | .resTls => do
    let password ← secret context "restls_password_secret"
    return proxy ++
      [("restls-opts", .object [("password", password), ("version-hint", .string "tls13")])]
  | .jls => do
    let username ← secret context "jls_username_secret"
    let password ← secret context "jls_password_secret"
    return proxy ++ [("jls-opts", .object [("username", username), ("password", password)])]

def applySnellClientWrapper (context : ClientRenderContext) (proxy : List (String × Value))
    (wrapper : SecurityWrapper) : Except String (List (String × Value)) := do
  let host ← requiredText context.profile.config "sni"
  let options ← match wrapper with
    | .shadowTlsV3 => do
      let password ← secret context "shadow_tls_password_secret"
      pure [("mode", .string "shadow-tls"), ("host", .string host), ("version", .number 3),
        ("password", password)]
    | .resTls => do
      let password ← secret context "restls_password_secret"
      pure [("mode", .string "restls"), ("host", .string host), ("version-hint", .string "tls13"),
        ("password", password)]
    | .jls => do
      let username ← secret context "jls_username_secret"
      let password ← secret context "jls_password_secret"
      pure [("mode", .string "jls"), ("host", .string host), ("username", username),
        ("password", password)]
    | .standardTls | .reality => .error "unsupported Snell security wrapper"
  return proxy ++ [("obfs-opts", .object options)]

def alpn (protocols : List String) : String × Value := ("alpn", .array (protocols.map .string))

def renderProxy (context : ClientRenderContext) :
    Implementation → Except String (List (String × Value))
  | .vlessXhttp => do
    let serverName ← requiredText context.profile.config "server_name"
    let reality ← realityOpts context
    let path ← requiredText context.profile.config "path"
    return base context "vless" ++
      [("udp", .bool true), ("uuid", .string context.user.uuid), ("encryption", .string ""),
        ("tls", .bool true), ("servername", .string serverName),
        ("client-fingerprint", .string "chrome"), reality, ("network", .string "xhttp"),
        ("xhttp-opts", .object [("path", .string path), ("host", .string serverName)])]
  | .vlessTcp => do
    let serverName ← requiredText context.profile.config "server_name"
    let reality ← realityOpts context
    return base context "vless" ++
      [("udp", .bool true), ("uuid", .string context.user.uuid), ("encryption", .string ""),
        ("network", .string "tcp"), ("flow", .string "xtls-rprx-vision"),
        ("packet-encoding", .string "xudp"), ("tls", .bool true),
        ("servername", .string serverName), ("client-fingerprint", .string "chrome"), reality]
  | .vlessWrapped wrapper => do
    let sni ← requiredText context.profile.config "sni"
    applyClientWrapper context (base context "vless" ++
      [("udp", .bool true), ("uuid", .string context.user.uuid), ("encryption", .string ""),
        ("network", .string "tcp"), ("tls", .bool true), ("servername", .string sni),
        ("client-fingerprint", .string "chrome")]) wrapper
  | .shadowsocksShadowTls => do
    let password ← secret context "password_secret"
    let host ← requiredText context.profile.config "server_name"
    let shadowTlsPassword ← secret context "shadow_tls_password_secret"
    return base context "ss" ++
      [("cipher", .string "2022-blake3-aes-256-gcm"), ("password", password), ("udp", .bool true),
        ("plugin", .string "shadow-tls"), ("client-fingerprint", .string "chrome"),
        ("plugin-opts", .object [("host", .string host), ("password", shadowTlsPassword),
          ("version", .number 3)])]
  | .hysteria => do
    let password ← secret context "password_secret"
    let sni ← requiredText context.profile.config "sni"
    let proxy := base context "hysteria2" ++
      [("password", password), ("sni", .string sni), alpn ["h3"]]
    match ← optionalSecret context "obfs_password_secret" with
    | none => return proxy
    | some value => return proxy ++ [("obfs", .string "salamander"), ("obfs-password", value)]
  | .anyTlsLegacy => do
    let password ← secret context "password_secret"
    let sni ← requiredText context.profile.config "sni"
    return base context "anytls" ++
      [("password", password), ("client-fingerprint", .string "chrome"), ("udp", .bool true),
        ("sni", .string sni)]
  | .anyTls wrapper => do
    let password ← secret context "password_secret"
    let sni ← requiredText context.profile.config "sni"
    applyClientWrapper context (base context "anytls" ++
      [("password", password), ("client-fingerprint", .string "chrome"), ("udp", .bool true),
        ("sni", .string sni)]) wrapper
  | .tuic => do
    let password ← secret context "password_secret"
    let sni ← requiredText context.profile.config "sni"
    return base context "tuic" ++
      [("uuid", .string context.user.uuid), ("password", password), ("udp", .bool true),
        ("sni", .string sni), alpn ["h3"]]
  | .trojan wrapper => do
    let sni ← requiredText context.profile.config "sni"
    applyClientWrapper context (base context "trojan" ++
      [("password", .string context.user.uuid), ("udp", .bool true), ("network", .string "tcp"),
        ("sni", .string sni), alpn ["h2", "http/1.1"],
        ("client-fingerprint", .string "chrome")]) wrapper
  | .snellV5 wrapper => do
    let psk ← secret context "psk_secret"
    let proxy := base context "snell" ++
      [("psk", psk), ("version", .number 5), ("udp", .bool true)]
    match wrapper with
    | some wrapper => applySnellClientWrapper context proxy wrapper
    | none => return proxy
  | .mieruTcp => do
    let password ← secret context "password_secret"
    return base context "mieru" ++
      [("transport", .string "TCP"), ("username", .string context.user.uuid),
        ("password", password), ("multiplexing", .string "MULTIPLEXING_LOW"),
        ("handshake-mode", .string "HANDSHAKE_STANDARD")]
  | .trustTunnelH2 => do
    let sni ← requiredText context.profile.config "sni"
    return base context "trusttunnel" ++
      [("username", .string context.user.uuid), ("password", .string context.user.uuid),
        ("health-check", .bool true), ("udp", .bool false), ("quic", .bool false),
        ("sni", .string sni), alpn ["h2"], ("client-fingerprint", .string "chrome")]
  | .shadowQuic => do
    let sni ← requiredText context.profile.config "sni"
    return base context "shadowquic" ++
      [("username", .string context.user.uuid), ("password", .string context.user.uuid),
        ("sni", .string sni), alpn ["h3"], ("quic-versions", .array [.string "v1"]),
        ("udp-over-stream", .bool false), ("zero-rtt", .bool false),
        ("congestion-controller", .string "cubic")]
  | .sudokuHttpMask => do
    let key ← secret context "key_secret"
    let pathRoot ← requiredText context.profile.config "path_root"
    return base context "sudoku" ++
      [("key", key), ("aead-method", .string "chacha20-poly1305"), ("padding-min", .number 2),
        ("padding-max", .number 7), ("table-type", .string "prefer_ascii"),
        ("multiplex", .string "off"),
        ("httpmask", .object [("disable", .bool false), ("mode", .string "legacy"),
          ("path-root", .string pathRoot), ("multiplex", .string "off")]),
        ("enable-pure-downlink", .bool false)]

namespace JsonProtocolAdapter

variable (adapter : JsonProtocolAdapter)

def validateConfig (schemaVersion : ℕ) (config : Value) : Except String Unit :=
  if schemaVersion ≠ adapter.manifest.schemaVersion ∨ !config.isObject then
    .error "unsupported adapter configuration schema"
  else adapter.fields.forM (validateField config)

def migrateConfig (fromVersion : ℕ) (config : Value) : Except String (ℕ × Value) := do
  if adapter.manifest.schemaVersion < fromVersion then
    throw "adapter configuration is newer than this adapter"
  else match config with
    | .object fields => do
      -- an object keeps the order of its keys
      let config : Value := .object
        (if adapter.implementation.hasPrivateKey ∧ (fields.lookup "private_key_secret").isNone then
          OrderedMap.insertEntry "private_key_secret" (.string "xray.reality.private_key") fields
        else fields)
      adapter.validateConfig adapter.manifest.schemaVersion config
      return (adapter.manifest.schemaVersion, config)
    | _ => throw "adapter configuration must be an object"

def references (excluded : String) (config : Value) : Except String (List SecretRef) := do
  adapter.validateConfig adapter.manifest.schemaVersion config
  let fields := adapter.fields.filter fun field ↦
    field.kind = .secretRef ∧ field.name ≠ excluded
  let values := fields.filterMap fun field ↦ config.text? field.name
  (values.filter fun value ↦ trim value ≠ "").mapM SecretRef.parse

def clientSecretReferences (config : Value) : Except String (List SecretRef) :=
  adapter.references "private_key_secret" config

def serverSecretReferences (config : Value) : Except String (List SecretRef) :=
  adapter.references "public_key_secret" config

def serverOnlySecretReferences (config : Value) : Except String (List SecretRef) := do
  adapter.validateConfig adapter.manifest.schemaVersion config
  if adapter.implementation.hasPrivateKey then
    return [← SecretRef.parse (← requiredText config "private_key_secret")]
  else return []

def renderClient (context : ClientRenderContext) : Except String Value := do
  adapter.validateConfig context.profile.schemaVersion context.profile.config
  return .object (← renderProxy context adapter.implementation)

def resolveSecrets (context : ServerRenderContext) : Except String (List (String × Value)) := do
  let references ← adapter.serverSecretReferences context.profile.config
  references.mapM fun reference ↦ do
    return (reference.name, .string (← context.secrets reference.name))

def renderServer (context : ServerRenderContext) : Except String ServerFragment := do
  adapter.validateConfig context.profile.schemaVersion context.profile.config
  let secrets ← adapter.resolveSecrets context
  let individual := adapter.manifest.userParticipation.requiresIndividualUsers
  let users := if individual then
      context.users.map fun user ↦
        Value.object [("username", .string user.username), ("uuid", .string user.uuid)]
    else []
  return {
    profileId := context.profile.name
    capability := adapter.manifest.id
    expectedUserIds := if individual then
      some (context.users.map SubscriptionUser.uuid).toFinset else none
    payload := .object
      [("server", .string context.profile.server), ("port", .number context.profile.port),
        ("config", context.profile.config), ("users", .array users),
        ("resolved_secrets", .object (OrderedMap.ofList secrets).entries),
        ("managed_resource_id", (context.profile.managedResourceId.map .string).getD .null)]
    listeners := [⟨adapter.manifest.listenerNetwork, context.profile.port⟩] }

def toAdapter : ProtocolAdapter where
  manifest := adapter.manifest
  validateConfig := adapter.validateConfig
  migrateConfig := adapter.migrateConfig
  clientSecretReferences := adapter.clientSecretReferences
  serverSecretReferences := adapter.serverSecretReferences
  serverOnlySecretReferences := adapter.serverOnlySecretReferences
  renderClient := adapter.renderClient
  renderServer := adapter.renderServer

/-- `JsonProtocolAdapter::new`: the identifier is also the capability. -/
def new (id displayName : String) (implementation : Implementation) (fields : List ConfigField)
    (userParticipation : UserParticipation) (listenerNetwork : ListenerNetwork) :
    JsonProtocolAdapter where
  manifest :=
    { apiVersion := adapterApiVersion
      id := id
      displayName := displayName
      schemaVersion := 1
      requiredCoreCapabilities := {id}
      userParticipation := userParticipation
      listenerNetwork := listenerNetwork
      composition := composition implementation }
  fields := fields
  implementation := implementation

end JsonProtocolAdapter

def textField (name : String) : ConfigField := ⟨name, .text, true⟩

def secretField (name : String) (required : Bool) : ConfigField := ⟨name, .secretRef, required⟩

def passwordAndSniFields : List ConfigField := [secretField "password_secret" true, textField "sni"]

def wrapperFields : SecurityWrapper → List ConfigField
  | .standardTls => []
  | .reality =>
    [secretField "public_key_secret" true, secretField "short_id_secret" true,
      secretField "private_key_secret" true]
  | .shadowTlsV3 => [secretField "shadow_tls_password_secret" true]
  | .resTls => [secretField "restls_password_secret" true]
  | .jls => [secretField "jls_username_secret" true, secretField "jls_password_secret" true]

def wrappedFields (base : List ConfigField) (wrapper : SecurityWrapper) : List ConfigField :=
  base ++ wrapperFields wrapper

/-- The protocols of this release, in the order of their registration. -/
def protocols : List JsonProtocolAdapter :=
  [.new "vless-reality-xhttp" "VLESS REALITY XHTTP" .vlessXhttp
      [textField "server_name", textField "path", secretField "public_key_secret" true,
        secretField "short_id_secret" true, secretField "private_key_secret" true]
      .perUserUuid .tcp,
    .new "vless-reality-tcp" "VLESS REALITY TCP" .vlessTcp
      [textField "server_name", secretField "public_key_secret" true,
        secretField "short_id_secret" true, secretField "private_key_secret" true]
      .perUserUuid .tcp,
    .new "vless-shadowtls-v3" "VLESS + ShadowTLS v3" (.vlessWrapped .shadowTlsV3)
      (wrappedFields [textField "sni"] .shadowTlsV3) .perUserUuid .tcp,
    .new "vless-restls" "VLESS + ResTLS" (.vlessWrapped .resTls)
      (wrappedFields [textField "sni"] .resTls) .perUserUuid .tcp,
    .new "vless-jls" "VLESS + JLS" (.vlessWrapped .jls)
      (wrappedFields [textField "sni"] .jls) .perUserUuid .tcp,
    .new "shadowsocks2022-shadow-tls" "Shadowsocks 2022 + ShadowTLS" .shadowsocksShadowTls
      [textField "server_name", secretField "password_secret" true,
        secretField "shadow_tls_password_secret" true] .sharedCredential .tcp,
    .new "hysteria2" "Hysteria 2" .hysteria
      [secretField "password_secret" true, textField "sni",
        secretField "obfs_password_secret" false] .sharedCredential .udp,
    .new "any-tls" "AnyTLS TLS (legacy ID)" .anyTlsLegacy passwordAndSniFields
      .sharedCredential .tcp,
    .new "anytls-tls" "AnyTLS TLS" (.anyTls .standardTls) passwordAndSniFields
      .sharedCredential .tcp,
    .new "anytls-shadowtls-v3" "AnyTLS + ShadowTLS v3" (.anyTls .shadowTlsV3)
      (wrappedFields passwordAndSniFields .shadowTlsV3) .sharedCredential .tcp,
    .new "anytls-restls" "AnyTLS + ResTLS" (.anyTls .resTls)
      (wrappedFields passwordAndSniFields .resTls) .sharedCredential .tcp,
    .new "anytls-jls" "AnyTLS + JLS" (.anyTls .jls) (wrappedFields passwordAndSniFields .jls)
      .sharedCredential .tcp,
    .new "tuic" "TUIC" .tuic [secretField "password_secret" true, textField "sni"]
      .perUserUuid .udp,
    .new "trojan-tls" "Trojan TLS/uTLS" (.trojan .standardTls) [textField "sni"]
      .perUserUuid .tcp,
    .new "trojan-shadowtls-v3" "Trojan + ShadowTLS v3" (.trojan .shadowTlsV3)
      (wrappedFields [textField "sni"] .shadowTlsV3) .perUserUuid .tcp,
    .new "trojan-restls" "Trojan + ResTLS" (.trojan .resTls)
      (wrappedFields [textField "sni"] .resTls) .perUserUuid .tcp,
    .new "trojan-jls" "Trojan + JLS" (.trojan .jls) (wrappedFields [textField "sni"] .jls)
      .perUserUuid .tcp,
    .new "trojan-reality" "Trojan + REALITY" (.trojan .reality)
      (wrappedFields [textField "sni"] .reality) .perUserUuid .tcp,
    .new "snell-v5" "Snell v5" (.snellV5 none) [secretField "psk_secret" true]
      .sharedCredential .tcp,
    .new "snell-v5-shadowtls-v3" "Snell v5 + ShadowTLS v3" (.snellV5 (some .shadowTlsV3))
      (wrappedFields [secretField "psk_secret" true, textField "sni"] .shadowTlsV3)
      .sharedCredential .tcp,
    .new "snell-v5-restls" "Snell v5 + ResTLS" (.snellV5 (some .resTls))
      (wrappedFields [secretField "psk_secret" true, textField "sni"] .resTls)
      .sharedCredential .tcp,
    .new "snell-v5-jls" "Snell v5 + JLS" (.snellV5 (some .jls))
      (wrappedFields [secretField "psk_secret" true, textField "sni"] .jls)
      .sharedCredential .tcp,
    .new "mieru" "Mieru TCP" .mieruTcp [secretField "password_secret" true] .perUserUuid .tcp,
    .new "trusttunnel-h2" "TrustTunnel HTTP/2" .trustTunnelH2 [textField "sni"]
      .perUserUuid .tcp,
    .new "shadowquic" "ShadowQUIC" .shadowQuic [textField "sni"] .perUserUuid .udp,
    .new "sudoku-httpmask" "Sudoku HTTPMask" .sudokuHttpMask
      [secretField "key_secret" true, textField "path_root"] .sharedCredential .tcp]

def trustTunnel : JsonProtocolAdapter :=
  .new "trusttunnel-h2" "TrustTunnel HTTP/2" .trustTunnelH2 [textField "sni"] .perUserUuid .tcp

def protocolRegistry : Except String ProtocolRegistry :=
  (protocols.map JsonProtocolAdapter.toAdapter).foldlM ProtocolRegistry.register .empty

end StealthHub.Adapters

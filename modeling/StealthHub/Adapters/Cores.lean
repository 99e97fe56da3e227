import StealthHub.Adapters.Protocols

set_option autoImplicit false

namespace StealthHub.Adapters

open Text

inductive Flavor
  | xray
  | singBox
  | hysteria
  | tuic
  | mihomo
  deriving DecidableEq

structure ManagedCoreAdapter where
  manifest : CoreAdapterManifest
  flavor : Flavor

def certificatePath : String := "/etc/infiproxy-cores/tls/fullchain.pem"

def privateKeyPath : String := "/etc/infiproxy-cores/tls/privkey.pem"

section fragments

def payloadObject (fragment : ServerFragment) : Except String Value :=
  if fragment.payload.isObject then .ok fragment.payload
  else .error "server fragment must be an object"

def payloadConfig (payload : Value) : Except String Value :=
  ((payload.get? "config").filter Value.isObject).elim
    (.error "server fragment config is invalid") .ok

def payloadSecrets (payload : Value) : Except String Value :=
  ((payload.get? "resolved_secrets").filter Value.isObject).elim
    (.error "server fragment secrets are unresolved") .ok

def configText (config : Value) (name : String) : Except String String :=
  (config.text? name).elim (.error "required adapter field is absent") .ok

def resolvedSecret (payload : Value) (field : String) : Except String String := do
  let reference ← configText (← payloadConfig payload) field
  ((← payloadSecrets payload).text? reference).elim
    (.error "privileged secret reference is unresolved") .ok

def payloadUsers (payload : Value) : Except String (List Value) :=
  ((payload.get? "users").bind Value.asArray).elim
    (.error "server fragment users are invalid") .ok

def payloadPort (payload : Value) : Except String ℕ :=
  ((payload.get? "port").bind Value.asPort).elim
    (.error "server fragment port is invalid") .ok

/-- `user[name]`, which is null where there is no such field. -/
def userField (name : String) (user : Value) : Value := (user.get? name).getD .null

def userEntries (entry : Value → List (String × Value)) (users : List Value) : Value :=
  .array (users.map fun user ↦ .object (entry user))

def userMap (password : String) (users : List Value) : Value :=
  .object (OrderedMap.ofList ((users.filterMap (Value.text? "uuid")).map fun uuid ↦
    (uuid, Value.string password))).entries

def visionFlow (capability : String) : List (String × Value) :=
  if capability = "vless-reality-tcp" then [("flow", .string "xtls-rprx-vision")] else []

def sharedUser (password : String) : Value :=
  .array [.object [("name", .string "shared"), ("password", .string password)]]

end fragments

section xray

def xrayXhttp (capability : String) (config : Value) : Except String (List (String × Value)) := do
  if capability = "vless-reality-xhttp" then
    let path ← configText config "path"
    return [("xhttpSettings", .object [("path", .string path)])]
  else return []

def xrayInbound (fragment : ServerFragment) : Except String Value := do
  let payload ← payloadObject fragment
  let config ← payloadConfig payload
  let users ← payloadUsers payload
  let clients := userEntries (fun user ↦
    [("id", userField "uuid" user), ("email", userField "username" user)] ++
      visionFlow fragment.capability) users
  let serverName ← configText config "server_name"
  let privateKey ← resolvedSecret payload "private_key_secret"
  let shortId ← resolvedSecret payload "short_id_secret"
  let xhttp ← xrayXhttp fragment.capability config
  let network := if fragment.capability = "vless-reality-xhttp" then "xhttp" else "tcp"
  let port ← payloadPort payload
  return .object
    [("tag", .string fragment.profileId), ("listen", .string "::"), ("port", .number port),
      ("protocol", .string "vless"),
      ("settings", .object [("clients", clients), ("decryption", .string "none")]),
      ("streamSettings", .object ([("network", .string network), ("security", .string "reality"),
        ("realitySettings", .object [("show", .bool false), ("dest", .string (serverName ++ ":443")),
          ("xver", .number 0), ("serverNames", .array [.string serverName]),
          ("privateKey", .string privateKey), ("shortIds", .array [.string shortId])])] ++ xhttp))]

def composeXray (plan : CorePlan) : Except String Value := do
  let inbounds ← plan.fragments.mapM xrayInbound
  return .object
    [("log", .object [("loglevel", .string "warning")]), ("inbounds", .array inbounds),
      ("outbounds", .array [.object [("protocol", .string "freedom"), ("tag", .string "direct")],
        .object [("protocol", .string "blackhole"), ("tag", .string "blocked")]])]

end xray

section singBox

def tlsFiles : Value :=
  .object [("enabled", .bool true), ("certificate_path", .string certificatePath),
    ("key_path", .string privateKeyPath)]

def singBoxHead (fragment : ServerFragment) (kind : String) (port : ℕ) : List (String × Value) :=
  [("type", .string kind), ("tag", .string fragment.profileId), ("listen", .string "::"),
    ("listen_port", .number port)]

def singBoxObfs (payload config : Value) : Except String (List (String × Value)) := do
  if (config.text? "obfs_password_secret").any fun reference ↦ trim reference ≠ "" then
    let password ← resolvedSecret payload "obfs_password_secret"
    return [("obfs", .object [("type", .string "salamander"), ("password", .string password)])]
  else return []

def singBoxVless (fragment : ServerFragment) (payload config : Value) (port : ℕ) :
    Except String (List Value) := do
  let users ← payloadUsers payload
  let serverName ← configText config "server_name"
  let privateKey ← resolvedSecret payload "private_key_secret"
  let shortId ← resolvedSecret payload "short_id_secret"
  return [.object (singBoxHead fragment "vless" port ++
    [("users", userEntries (fun user ↦
        [("name", userField "username" user), ("uuid", userField "uuid" user)]) users),
      ("tls", .object [("enabled", .bool true), ("server_name", .string serverName),
        ("reality", .object [("enabled", .bool true),
          ("handshake", .object [("server", .string serverName), ("server_port", .number 443)]),
          ("private_key", .string privateKey), ("short_id", .array [.string shortId])])])])]

def singBoxShadowTls (fragment : ServerFragment) (payload config : Value) (port : ℕ) :
    Except String (List Value) := do
  let innerTag := fragment.profileId ++ "-inner"
  let password ← resolvedSecret payload "password_secret"
  let shadowTlsPassword ← resolvedSecret payload "shadow_tls_password_secret"
  let serverName ← configText config "server_name"
  return [.object [("type", .string "shadowsocks"), ("tag", .string innerTag),
      ("method", .string "2022-blake3-aes-256-gcm"), ("password", .string password)],
    .object (singBoxHead fragment "shadowtls" port ++
      [("version", .number 3), ("users", sharedUser shadowTlsPassword),
        ("handshake", .object [("server", .string serverName), ("server_port", .number 443)]),
        ("detour", .string innerTag)])]

def singBoxHysteria (fragment : ServerFragment) (payload config : Value) (port : ℕ) :
    Except String (List Value) := do
  let password ← resolvedSecret payload "password_secret"
  let obfs ← singBoxObfs payload config
  return [.object (singBoxHead fragment "hysteria2" port ++
    [("users", sharedUser password), ("tls", tlsFiles)] ++ obfs)]

def singBoxAnyTls (fragment : ServerFragment) (payload : Value) (port : ℕ) :
    Except String (List Value) := do
  let password ← resolvedSecret payload "password_secret"
  return [.object (singBoxHead fragment "anytls" port ++
    [("users", sharedUser password), ("tls", tlsFiles)])]

def singBoxTuic (fragment : ServerFragment) (payload : Value) (port : ℕ) :
    Except String (List Value) := do
  let password ← resolvedSecret payload "password_secret"
  let users ← payloadUsers payload
  return [.object (singBoxHead fragment "tuic" port ++
    [("users", userEntries (fun user ↦ [("name", userField "username" user),
        ("uuid", userField "uuid" user), ("password", .string password)]) users),
      ("congestion_control", .string "bbr"), ("zero_rtt_handshake", .bool false),
      ("tls", tlsFiles)])]

def singBoxInbounds (fragment : ServerFragment) : Except String (List Value) := do
  let payload ← payloadObject fragment
  let config ← payloadConfig payload
  let port ← payloadPort payload
  if fragment.capability = "vless-reality-tcp" then singBoxVless fragment payload config port
  else if fragment.capability = "shadowsocks2022-shadow-tls" then
    singBoxShadowTls fragment payload config port
  else if fragment.capability = "hysteria2" then singBoxHysteria fragment payload config port
  else if fragment.capability = "any-tls" then singBoxAnyTls fragment payload port
  else if fragment.capability = "tuic" then singBoxTuic fragment payload port
  else .error "sing-box adapter received an unsupported capability"

def composeSingBox (plan : CorePlan) : Except String Value := do
  let inbounds ← plan.fragments.mapM singBoxInbounds
  return .object
    [("log", .object [("level", .string "warn")]), ("inbounds", .array inbounds.flatten),
      ("outbounds", .array [.object [("type", .string "direct"), ("tag", .string "direct")],
        .object [("type", .string "block"), ("tag", .string "block")]])]

end singBox

section native

def hysteriaObfs (payload : Value) : Except String (List (String × Value)) := do
  if ((← payloadConfig payload).get? "obfs_password_secret").isSome then
    let password ← resolvedSecret payload "obfs_password_secret"
    return [("obfs", .object [("type", .string "salamander"),
      ("salamander", .object [("password", .string password)])])]
  else return []

def hysteriaDocument (fragment : ServerFragment) : Except String Value := do
  let payload ← payloadObject fragment
  let port ← payloadPort payload
  let password ← resolvedSecret payload "password_secret"
  let obfs ← hysteriaObfs payload
  return .object ([("listen", .string (":" ++ toString port)),
    ("tls", .object [("cert", .string certificatePath), ("key", .string privateKeyPath)]),
    ("auth", .object [("type", .string "password"), ("password", .string password)])] ++ obfs)

def composeHysteria (plan : CorePlan) : Except String Value :=
  match plan.fragments with
  | [] => .ok (.object [])
  | [fragment] => hysteriaDocument fragment
  | _ => .error "native runtime supports one managed server profile"

def tuicDocument (fragment : ServerFragment) : Except String Value := do
  let payload ← payloadObject fragment
  let password ← resolvedSecret payload "password_secret"
  let users ← payloadUsers payload
  let port ← payloadPort payload
  return .object [("server", .string ("[::]:" ++ toString port)), ("users", userMap password users),
    ("certificate", .string certificatePath), ("private_key", .string privateKeyPath),
    ("congestion_control", .string "bbr"), ("alpn", .array [.string "h3"]),
    ("zero_rtt_handshake", .bool false)]

def composeTuic (plan : CorePlan) : Except String Value :=
  match plan.fragments with
  | [] => .ok (.object [("server", .string "[::]:0"), ("users", .object []),
      ("certificate", .string certificatePath), ("private_key", .string privateKeyPath)])
  | [fragment] => tuicDocument fragment
  | _ => .error "native runtime supports one managed server profile"

end native

section mihomo

def mihomoHead (fragment : ServerFragment) (kind : String) (port : ℕ) : List (String × Value) :=
  [("name", .string fragment.profileId), ("type", .string kind), ("listen", .string "::"),
    ("port", .number port)]

def wrapperForCapability (capability : String) : Except String SecurityWrapper :=
  if endsWith capability "-tls" ∨ capability = "anytls-tls" then .ok .standardTls
  else if endsWith capability "-reality" then .ok .reality
  else if endsWith capability "-shadowtls-v3" then .ok .shadowTlsV3
  else if endsWith capability "-restls" then .ok .resTls
  else if endsWith capability "-jls" then .ok .jls
  else .error "unsupported Mihomo security wrapper"

def realityServerName (config : Value) : Except String String :=
  match configText config "sni" with
  | .ok sni => .ok sni
  | .error _ => configText config "server_name"

def realityServerOptions (payload config : Value) : Except String Value := do
  let serverName ← realityServerName config
  let privateKey ← resolvedSecret payload "private_key_secret"
  let shortId ← resolvedSecret payload "short_id_secret"
  return .object [("dest", .string (serverName ++ ":443")), ("private-key", .string privateKey),
    ("short-id", .array [.string shortId]), ("server-names", .array [.string serverName])]

def mihomoServerWrapper (payload config : Value) :
    SecurityWrapper → Except String (List (String × Value))
  | .standardTls =>
    .ok [("certificate", .string certificatePath), ("private-key", .string privateKeyPath)]
  | .reality => do return [("reality-config", ← realityServerOptions payload config)]
  | .shadowTlsV3 => do
    let password ← resolvedSecret payload "shadow_tls_password_secret"
    let sni ← configText config "sni"
    return [("shadow-tls", .object [("enable", .bool true), ("version", .number 3),
      ("users", sharedUser password), ("handshake", .object [("dest", .string (sni ++ ":443"))])])]
  | .resTls => do
    let sni ← configText config "sni"
    let password ← resolvedSecret payload "restls_password_secret"
    return [("res-tls", .object [("enable", .bool true), ("dest", .string (sni ++ ":443")),
      ("password", .string password)])]
  | .jls => do
    let username ← resolvedSecret payload "jls_username_secret"
    let password ← resolvedSecret payload "jls_password_secret"
    let sni ← configText config "sni"
    return [("jls-config", .object [("enable", .bool true),
      ("users", .array [.object [("username", .string username), ("password", .string password)]]),
      ("dest", .string (sni ++ ":443"))])]

def mihomoWrapped (fragment : ServerFragment) (payload config : Value)
    (listener : List (String × Value)) : Except String Value := do
  let wrapper ← wrapperForCapability fragment.capability
  let added ← mihomoServerWrapper payload config wrapper
  return .object (listener ++ added)

def mihomoVless (fragment : ServerFragment) (payload config : Value) (port : ℕ) :
    Except String Value := do
  let users ← payloadUsers payload
  let listener := mihomoHead fragment "vless" port ++
    [("users", userEntries (fun user ↦
      [("username", userField "username" user), ("uuid", userField "uuid" user)] ++
        visionFlow fragment.capability) users)]
  if fragment.capability = "vless-reality-tcp" then
    let reality ← realityServerOptions payload config
    return .object (listener ++ [("reality-config", reality)])
  else if fragment.capability = "vless-reality-xhttp" then
    let reality ← realityServerOptions payload config
    let path ← configText config "path"
    let host ← configText config "server_name"
    return .object (listener ++ [("reality-config", reality),
      ("xhttp-config", .object
        [("path", .string path), ("host", .string host), ("mode", .string "auto")])])
  else mihomoWrapped fragment payload config listener

def mihomoAnyTls (fragment : ServerFragment) (payload config : Value) (port : ℕ) :
    Except String Value := do
  let password ← resolvedSecret payload "password_secret"
  mihomoWrapped fragment payload config (mihomoHead fragment "anytls" port ++
    [("users", .object [("shared", .string password)])])

def uuidUsers (users : List Value) : Value :=
  userEntries (fun user ↦
    [("username", userField "uuid" user), ("password", userField "uuid" user)]) users

def mihomoTrojan (fragment : ServerFragment) (payload config : Value) (port : ℕ) :
    Except String Value := do
  let users ← payloadUsers payload
  mihomoWrapped fragment payload config (mihomoHead fragment "trojan" port ++
    [("users", uuidUsers users)])

def mihomoSnell (fragment : ServerFragment) (payload config : Value) (port : ℕ) :
    Except String Value := do
  let psk ← resolvedSecret payload "psk_secret"
  let listener := mihomoHead fragment "snell" port ++
    [("psk", .string psk), ("version", .number 5), ("udp", .bool true)]
  if fragment.capability = "snell-v5" then return .object listener
  else mihomoWrapped fragment payload config listener

def mihomoMieru (fragment : ServerFragment) (payload : Value) (port : ℕ) :
    Except String Value := do
  let password ← resolvedSecret payload "password_secret"
  let users ← payloadUsers payload
  return .object (mihomoHead fragment "mieru" port ++
    [("transport", .string "TCP"), ("users", userMap password users),
      ("user-hint-is-mandatory", .bool true)])

def mihomoTrustTunnel (fragment : ServerFragment) (payload : Value) (port : ℕ) :
    Except String Value := do
  let users ← payloadUsers payload
  return .object (mihomoHead fragment "trusttunnel" port ++
    [("users", uuidUsers users), ("certificate", .string certificatePath),
      ("private-key", .string privateKeyPath), ("network", .array [.string "tcp"])])

def mihomoShadowQuic (fragment : ServerFragment) (payload config : Value) (port : ℕ) :
    Except String Value := do
  let users ← payloadUsers payload
  let sni ← configText config "sni"
  return .object (mihomoHead fragment "shadowquic" port ++
    [("users", uuidUsers users),
      ("jls-upstream", .object [("addr", .string (sni ++ ":443")), ("sni", .string sni)]),
      alpn ["h3"], ("quic-versions", .array [.string "v1"]), ("zero-rtt", .bool false),
      ("congestion-controller", .string "cubic")])

def mihomoSudoku (fragment : ServerFragment) (payload config : Value) (port : ℕ) :
    Except String Value := do
  let key ← resolvedSecret payload "key_secret"
  let pathRoot ← configText config "path_root"
  return .object (mihomoHead fragment "sudoku" port ++
    [("key", .string key), ("aead-method", .string "chacha20-poly1305"), ("padding-min", .number 2),
      ("padding-max", .number 7), ("table-type", .string "prefer_ascii"),
      ("handshake-timeout", .number 5), ("enable-pure-downlink", .bool false),
      ("httpmask", .object [("disable", .bool false), ("mode", .string "legacy"),
        ("path-root", .string pathRoot)])])

def mihomoVlessCapabilities : List String :=
  ["vless-reality-tcp", "vless-reality-xhttp", "vless-shadowtls-v3", "vless-restls", "vless-jls"]

def mihomoListener (fragment : ServerFragment) : Except String Value := do
  let payload ← payloadObject fragment
  let config ← payloadConfig payload
  let port ← payloadPort payload
  if fragment.capability ∈ mihomoVlessCapabilities then mihomoVless fragment payload config port
  else if startsWith fragment.capability "anytls-" then mihomoAnyTls fragment payload config port
  else if startsWith fragment.capability "trojan-" then mihomoTrojan fragment payload config port
  else if fragment.capability = "snell-v5" ∨ startsWith fragment.capability "snell-v5-" then
    mihomoSnell fragment payload config port
  else if fragment.capability = "mieru" then mihomoMieru fragment payload port
  else if fragment.capability = "trusttunnel-h2" then mihomoTrustTunnel fragment payload port
  else if fragment.capability = "shadowquic" then mihomoShadowQuic fragment payload config port
  else if fragment.capability = "sudoku-httpmask" then mihomoSudoku fragment payload config port
  else .error "mihomo adapter received an unsupported capability"

def composeMihomo (plan : CorePlan) : Except String Value := do
  let listeners ← plan.fragments.mapM mihomoListener
  return .object
    [("log-level", .string "warning"), ("mode", .string "rule"), ("listeners", .array listeners),
      ("rules", .array [.string "MATCH,DIRECT"])]

end mihomo

/-- The document of a plan, before it is printed as JSON or YAML. -/
def Flavor.compose : Flavor → CorePlan → Except String Value
  | .xray => composeXray
  | .singBox => composeSingBox
  | .hysteria => composeHysteria
  | .tuic => composeTuic
  | .mihomo => composeMihomo

def xrayCapabilities : Finset String := {"vless-reality-tcp", "vless-reality-xhttp"}

def singBoxCapabilities : Finset String :=
  {"vless-reality-tcp", "shadowsocks2022-shadow-tls", "hysteria2", "any-tls", "tuic"}

def hysteriaCapabilities : Finset String := {"hysteria2"}

def tuicCapabilities : Finset String := {"tuic"}

def mihomoCapabilities : Finset String :=
  {"vless-reality-tcp", "vless-reality-xhttp", "vless-shadowtls-v3", "vless-restls", "vless-jls",
    "anytls-tls", "anytls-shadowtls-v3", "anytls-restls", "anytls-jls", "trojan-tls",
    "trojan-shadowtls-v3", "trojan-restls", "trojan-jls", "trojan-reality", "snell-v5",
    "snell-v5-shadowtls-v3", "snell-v5-restls", "snell-v5-jls", "mieru", "trusttunnel-h2",
    "shadowquic", "sudoku-httpmask"}

/-- `ManagedCoreAdapter::new`. -/
def ManagedCoreAdapter.new (id displayName service : String) (flavor : Flavor)
    (capabilities : Finset String) (selectionPriority : Int) : ManagedCoreAdapter where
  manifest := ⟨adapterApiVersion, id, displayName, capabilities, service, selectionPriority⟩
  flavor := flavor

def builtInAdapters : List ManagedCoreAdapter :=
  [.new "xray" "Xray" "infiproxy-xray.service" .xray xrayCapabilities 100,
    .new "mihomo" "Mihomo" "infiproxy-mihomo.service" .mihomo mihomoCapabilities 200,
    .new "sing-box" "sing-box" "infiproxy-sing-box.service" .singBox singBoxCapabilities 50,
    .new "hysteria" "Hysteria" "infiproxy-hysteria.service" .hysteria hysteriaCapabilities 200,
    .new "tuic" "TUIC" "infiproxy-tuic.service" .tuic tuicCapabilities 200]

def subscriptionAdapterId : String := "subscription-frontend"

def nodeAdapterId : String := "node-readiness"

def infrastructureAdapters : List CoreAdapter :=
  [⟨⟨adapterApiVersion, subscriptionAdapterId, "Subscription HTTPS frontend",
      {subscriptionAdapterId}, "nginx.service", 0⟩⟩,
    ⟨⟨adapterApiVersion, nodeAdapterId, "Proxy node DNS readiness", {nodeAdapterId},
      "network-online.target", 0⟩⟩]

def coreAdapters : List CoreAdapter :=
  builtInAdapters.map (fun adapter ↦ ⟨adapter.manifest⟩) ++ infrastructureAdapters

def coreRegistry : Except String CoreRegistry := coreAdapters.foldlM CoreRegistry.register .empty

theorem coreRegistry_isOk : coreRegistry.isOk := by decide +kernel

/-- The registry that the panel and the worker are built with. -/
def builtInCores : CoreRegistry := coreRegistry.toOption.getD .empty

theorem coreRegistry_ok : coreRegistry = .ok builtInCores := by
  obtain ⟨registry, h⟩ := Except.exists_of_isOk coreRegistry_isOk
  rw [builtInCores, h]
  rfl

theorem builtInCores_get {id : String} {core : CoreAdapter} :
    builtInCores.get id = some core ↔ core ∈ coreAdapters ∧ core.manifest.id = id := by
  rw [CoreRegistry.get_registered coreRegistry_ok]
  have hempty : CoreRegistry.empty.get id ≠ some core := nofun
  simp only [hempty, false_or]

attribute [irreducible] builtInCores

end StealthHub.Adapters

import StealthHub.Adapters.Composable
import StealthHub.Adapters.UserSync
import StealthHub.Data.IpAddr

set_option autoImplicit false

namespace StealthHub.Adapters

open Text Except

section discovery

def entryPort (field : String) (isUdp : String → Bool) (entry : Value) : Option (ℕ × Bool) :=
  ((entry.get? field).bind Value.asPort).map fun port ↦ (port, (entry.text? "type").any isUdp)

def addressPort (address : String) : Option ℕ := parseU16 (((split ':' address).getLast?).getD "")

def discoverConfigPorts (flavor : Flavor) (document : Value) : List (ℕ × Bool) :=
  match flavor with
  | .xray => (document.items "inbounds").filterMap (entryPort "port" fun _ ↦ false)
  | .singBox => (document.items "inbounds").filterMap
      (entryPort "listen_port" fun kind ↦ kind = "hysteria2" || kind = "tuic")
  | .hysteria => (((document.text? "listen").bind addressPort).map fun port ↦ (port, true)).toList
  | .tuic => ((((document.text? "server").bind addressPort).filter (· ≠ 0)).map
      fun port ↦ (port, true)).toList
  | .mihomo => (document.items "listeners").filterMap (entryPort "port" (· = "shadowquic"))

theorem toString_toList (n : ℕ) : (toString n).toList = Nat.toDigits 10 n := by
  simp [toString, Nat.repr]

theorem parseU16_toString {n : ℕ} (h : n ≤ 65535) : parseU16 (toString n) = some n := by
  have hdigits : ∀ c ∈ Nat.toDigits 10 n, isAsciiDigit c = true ∧ c ≠ '+' := by
    intro c hc
    obtain ⟨digit, hdigit, rfl⟩ := mem_toDigits (by decide) hc
    have hall : ∀ digit < 10, isAsciiDigit (Nat.digitChar digit) = true ∧
        Nat.digitChar digit ≠ '+' := by decide
    exact hall digit hdigit
  have hsign : (Nat.toDigits 10 n).head? ≠ some '+' := by
    intro hhead
    exact (hdigits '+' (List.mem_of_head? hhead)).2 rfl
  have hvalue : (Nat.toDigits 10 n).foldl (fun m c ↦ 10 * m + (c.toNat - 48)) 0 = n :=
    Nat.ofDigitChars_ten_toDigits
  have hempty : (Nat.toDigits 10 n).isEmpty = false := by
    simp [Nat.toDigits_ne_nil]
  have hall : (Nat.toDigits 10 n).all isAsciiDigit = true :=
    List.all_eq_true.mpr fun c hc ↦ (hdigits c hc).1
  rw [parseU16, toString_toList, if_neg hsign]
  rw [hvalue, hempty, hall, decide_eq_true h]
  rfl

theorem addressPort_append {host : String} {n : ℕ} (start : List Char)
    (hhost : host.toList = start ++ [':']) (h : n ≤ 65535) :
    addressPort (host ++ toString n) = some n := by
  have hcolon : ':' ∉ (toString n).toList := by
    rw [toString_toList]
    intro hmem
    obtain ⟨digit, hdigit, hc⟩ := mem_toDigits (by decide) hmem
    have hall : ∀ digit < 10, ':' ≠ Nat.digitChar digit := by decide
    exact hall digit hdigit hc
  have hsplit : split ':' (host ++ toString n) =
      (start.splitOn ':').map String.ofList ++ [toString n] := by
    rw [split, String.toList_append, hhost, List.append_assoc, List.singleton_append,
      List.splitOn_append_cons_self, List.splitOn_eq_singleton hcolon, List.map_append,
      List.map_singleton, String.ofList_toList]
  rw [addressPort, hsplit, List.getLast?_concat, Option.getD_some, parseU16_toString h]

end discovery

/-- The entries of a document, one or two for each profile. A native runtime has a document for
a profile. -/
def Flavor.entries (flavor : Flavor) (document : Value) : List Value :=
  match flavor with
  | .xray | .singBox => document.items "inbounds"
  | .hysteria | .tuic => [document]
  | .mihomo => document.items "listeners"

def Flavor.emit (flavor : Flavor) (fragment : ServerFragment) : Except String (List Value) :=
  match flavor with
  | .xray => ([·]) <$> xrayInbound fragment
  | .singBox => singBoxInbounds fragment
  | .hysteria => ([·]) <$> hysteriaDocument fragment
  | .tuic => ([·]) <$> tuicDocument fragment
  | .mihomo => ([·]) <$> mihomoListener fragment

/-- The runtimes whose documents have an entry for each profile. -/
def Flavor.Shared (flavor : Flavor) : Prop := flavor ≠ .hysteria ∧ flavor ≠ .tuic

instance (flavor : Flavor) : Decidable flavor.Shared := inferInstanceAs (Decidable (_ ∧ _))

def Flavor.nameField : Flavor → String
  | .mihomo => "name"
  | _ => "tag"

variable {flavor : Flavor} {plan : CorePlan} {document : Value} {fragment : ServerFragment}
variable {payload config : Value} {port : ℕ} {users : List Value} {emitted : List Value}

theorem compose_entries (hflavor : flavor.Shared) (h : flavor.compose plan = .ok document) :
    ∃ groups, List.Forall₂ (fun fragment emitted ↦ flavor.emit fragment = .ok emitted)
      plan.fragments groups ∧ flavor.entries document = groups.flatten := by
  have hsingle {emitOne : ServerFragment → Except String Value} {found : List Value}
      (hfound : plan.fragments.mapM emitOne = .ok found) :
      List.Forall₂ (fun fragment emitted ↦ ([·]) <$> emitOne fragment = .ok emitted)
        plan.fragments (found.map ([·])) ∧ found = (found.map ([·])).flatten := by
    constructor
    · rw [List.forall₂_map_right_iff]
      refine (mapM_eq_ok.mp hfound).imp fun fragment entry hentry ↦ ?_
      exact map_eq_ok.mpr ⟨entry, hentry, rfl⟩
    · rw [← List.flatMap_def, List.flatMap_singleton']
  cases flavor with
  | hysteria => exact absurd rfl hflavor.1
  | tuic => exact absurd rfl hflavor.2
  | xray =>
    obtain ⟨inbounds, hinbounds, h⟩ := bind_eq_ok.mp h
    cases pure_eq_ok.mp h
    obtain ⟨hgroups, hflatten⟩ := hsingle hinbounds
    exact ⟨_, hgroups, hflatten⟩
  | singBox =>
    obtain ⟨inbounds, hinbounds, h⟩ := bind_eq_ok.mp h
    cases pure_eq_ok.mp h
    exact ⟨inbounds, mapM_eq_ok.mp hinbounds, rfl⟩
  | mihomo =>
    obtain ⟨listeners, hlisteners, h⟩ := bind_eq_ok.mp h
    cases pure_eq_ok.mp h
    obtain ⟨hgroups, hflatten⟩ := hsingle hlisteners
    exact ⟨_, hgroups, hflatten⟩

section lookup

theorem text?_lookup {fields : List (String × Value)} {name value : String}
    (h : fields.lookup name = some (.string value)) :
    (Value.object fields).text? name = some value := by
  rw [Value.text?, Value.get?, h]
  rfl

theorem text?_absent {fields : List (String × Value)} {name : String}
    (h : fields.lookup name = none) : (Value.object fields).text? name = none := by
  rw [Value.text?, Value.get?, h]
  rfl

theorem entryPort_lookup {fields : List (String × Value)} {field : String}
    {isUdp : String → Bool} {udp : Bool} (hport : port ≤ 65535)
    (h : fields.lookup field = some (.number port))
    (hudp : ((Value.object fields).text? "type").any isUdp = udp) :
    entryPort field isUdp (.object fields) = some (port, udp) := by
  have hfits : Value.asPort (.number port) = some port := by
    rw [Value.asPort, if_pos (by omega), Int.toNat_natCast]
  rw [entryPort, Value.get?, h, Option.bind_some, hfits, Option.map_some, hudp]

end lookup

def payloadIds (payload : Value) : List String :=
  ((payloadUsers payload).toOption.getD []).filterMap (Value.text? "uuid")

theorem userField_text (name : String) (user : Value) :
    (userField name user).asStr = user.text? name := by
  rw [userField, Value.text?]
  cases user.get? name <;> rfl

theorem idsOfEntries_users {fields : List (String × Value)}
    {entry : Value → List (String × Value)} {entries field : String}
    (hfields : fields.lookup entries = some (userEntries entry users))
    (hentry : ∀ user, (entry user).lookup field = some (userField "uuid" user)) :
    idsOfEntries entries field (.object fields) = users.filterMap (Value.text? "uuid") := by
  rw [idsOfEntries, Value.items, Value.get?, hfields, userEntries, Option.bind_some]
  change (users.map fun user ↦ Value.object (entry user)).filterMap (Value.text? field) = _
  rw [List.filterMap_map]
  refine List.filterMap_congr fun user _ ↦ ?_
  rw [Function.comp, Value.text?, Value.get?, hentry, Option.bind_some, userField_text]

theorem idsOfEntries_shared {fields : List (String × Value)} {password : String}
    (hfields : fields.lookup "users" = some (sharedUser password)) :
    idsOfEntries "users" "uuid" (.object fields) = [] := by
  rw [idsOfEntries, Value.items, Value.get?, hfields]
  rfl

theorem idsOfKeys_users {fields : List (String × Value)} {password : String}
    (hfields : fields.lookup "users" = some (userMap password users)) :
    (idsOfKeys "users" (.object fields)).toFinset =
      (users.filterMap (Value.text? "uuid")).toFinset := by
  rw [idsOfKeys, Value.get?, hfields, userMap]
  generalize users.filterMap (Value.text? "uuid") = ids
  ext id
  change id ∈ (OrderedMap.ofList (ids.map fun uuid ↦ (uuid, Value.string password))).keys.toFinset ↔ _
  rw [List.mem_toFinset, List.mem_toFinset, OrderedMap.mem_keys]
  constructor
  · rintro ⟨value, hvalue⟩
    obtain ⟨uuid, hmem, heq⟩ := List.mem_map.mp (OrderedMap.mem_of_get?_ofList hvalue)
    cases heq
    exact hmem
  · intro hmem
    refine ⟨.string password, OrderedMap.get?_ofList_of_agree (List.mem_map_of_mem hmem) ?_⟩
    intro value hvalue
    obtain ⟨uuid, -, heq⟩ := List.mem_map.mp hvalue
    cases heq
    rfl

def Flavor.entryIds (flavor : Flavor) (capability : String) : Value → List String :=
  match flavor with
  | .xray => xrayClients
  | .singBox => idsOfEntries "users" "uuid"
  | .hysteria => fun _ ↦ []
  | .tuic => idsOfKeys "users"
  | .mihomo => mihomoIds capability

def Flavor.perUser (flavor : Flavor) (capability : String) : Bool :=
  match flavor with
  | .xray | .tuic => true
  | .singBox => capability = "vless-reality-tcp" || capability = "tuic"
  | .hysteria => false
  | .mihomo => (mihomoRepresentation capability).isOk

def Flavor.isUdp (flavor : Flavor) (capability : String) : Bool :=
  match flavor with
  | .xray => false
  | .singBox => capability = "hysteria2" || capability = "tuic"
  | .hysteria | .tuic => true
  | .mihomo => capability = "shadowquic"

def Flavor.entryPorts (flavor : Flavor) : Value → List (ℕ × Bool) :=
  match flavor with
  | .xray => fun entry ↦ (entryPort "port" (fun _ ↦ false) entry).toList
  | .singBox => fun entry ↦
      (entryPort "listen_port" (fun kind ↦ kind = "hysteria2" || kind = "tuic") entry).toList
  | .hysteria | .tuic => discoverConfigPorts flavor
  | .mihomo => fun entry ↦ (entryPort "port" (fun kind ↦ kind = "shadowquic") entry).toList

theorem discoverConfigPorts_entries :
    discoverConfigPorts flavor document = (flavor.entries document).flatMap flavor.entryPorts := by
  cases flavor with
  | xray | singBox | mihomo => exact List.filterMap_eq_flatMap_toList _ _
  | hysteria | tuic => exact (List.flatMap_singleton _ _).symm

def Flavor.innerName (flavor : Flavor) (fragment : ServerFragment) : Option String :=
  if flavor = .singBox ∧ fragment.capability = "shadowsocks2022-shadow-tls" then
    some (fragment.profileId ++ "-inner")
  else none

def Flavor.names (flavor : Flavor) (fragment : ServerFragment) : List String :=
  (flavor.innerName fragment).toList ++ [fragment.profileId]

/-- How the entries of one fragment refer to each other. -/
structure Named (flavor : Flavor) (fragment : ServerFragment) (emitted : List Value) : Prop where
  names : emitted.map (Value.text? flavor.nameField) = (flavor.names fragment).map some
  detours : emitted.filterMap (Value.text? "detour") = (flavor.innerName fragment).toList

/-- What is read of the entries of one fragment. -/
structure Emits (flavor : Flavor) (fragment : ServerFragment) (payload : Value) (port : ℕ)
    (emitted : List Value) : Prop where
  ports : emitted.flatMap flavor.entryPorts = [(port, flavor.isUdp fragment.capability)]
  ids : (emitted.flatMap (flavor.entryIds fragment.capability)).toFinset =
    if flavor.perUser fragment.capability then (payloadIds payload).toFinset else ∅
  named : flavor.Shared → Named flavor fragment emitted

theorem payloadIds_opened (h : Opened fragment payload config port users) :
    payloadIds payload = users.filterMap (Value.text? "uuid") := by
  rw [payloadIds, h.users]
  rfl

theorem Named.single {entry : Value} (hinner : flavor.innerName fragment = none)
    (hname : entry.text? flavor.nameField = some fragment.profileId)
    (hdetour : entry.text? "detour" = none) : Named flavor fragment [entry] where
  names := by
    rw [Flavor.names, hinner, List.map_singleton, hname]
    rfl
  detours := by
    rw [hinner, List.filterMap_cons_none hdetour]
    rfl

theorem Emits.individual {entry : Value} {udp : Bool}
    (h : Opened fragment payload config port users)
    (hport : flavor.entryPorts entry = [(port, udp)])
    (hudp : flavor.isUdp fragment.capability = udp)
    (hids : (flavor.entryIds fragment.capability entry).toFinset =
      (users.filterMap (Value.text? "uuid")).toFinset)
    (hperUser : flavor.perUser fragment.capability = true)
    (hnamed : flavor.Shared → Named flavor fragment [entry]) :
    Emits flavor fragment payload port [entry] where
  ports := by rw [List.flatMap_singleton, hport, hudp]
  ids := by rw [List.flatMap_singleton, hids, if_pos hperUser, payloadIds_opened h]
  named := hnamed

theorem Emits.common {entry : Value} {udp : Bool}
    (hport : flavor.entryPorts entry = [(port, udp)])
    (hudp : flavor.isUdp fragment.capability = udp)
    (hids : flavor.entryIds fragment.capability entry = [])
    (hperUser : flavor.perUser fragment.capability = false)
    (hnamed : flavor.Shared → Named flavor fragment [entry]) :
    Emits flavor fragment payload port [entry] where
  ports := by rw [List.flatMap_singleton, hport, hudp]
  ids := by
    rw [List.flatMap_singleton, hids, hperUser]
    rfl
  named := hnamed

theorem xrayInbound_emits (h : Opened fragment payload config port users) (hport : port ≤ 65535)
    (hemit : Flavor.xray.emit fragment = .ok emitted) :
    Emits .xray fragment payload port emitted := by
  obtain ⟨inbound, hinbound, rfl⟩ := map_eq_ok.mp hemit
  obtain ⟨payload', hobject, hinbound⟩ := bind_eq_ok.mp hinbound
  cases h.object.symm.trans hobject
  obtain ⟨config', -, hinbound⟩ := bind_eq_ok.mp hinbound
  obtain ⟨users', husers, hinbound⟩ := bind_eq_ok.mp hinbound
  cases h.users.symm.trans husers
  obtain ⟨serverName, -, hinbound⟩ := bind_eq_ok.mp hinbound
  obtain ⟨privateKey, -, hinbound⟩ := bind_eq_ok.mp hinbound
  obtain ⟨shortId, -, hinbound⟩ := bind_eq_ok.mp hinbound
  obtain ⟨xhttp, -, hinbound⟩ := bind_eq_ok.mp hinbound
  obtain ⟨port', hfound, hinbound⟩ := bind_eq_ok.mp hinbound
  cases h.port.symm.trans hfound
  cases pure_eq_ok.mp hinbound
  exact .individual h (congrArg Option.toList (entryPort_lookup hport rfl rfl)) rfl
    (congrArg List.toFinset (idsOfEntries_users rfl fun user ↦ rfl)) rfl
    fun _ ↦ .single rfl (text?_lookup rfl) (text?_absent rfl)

section singBox

theorem singBoxObfs_detour {obfs : List (String × Value)}
    (h : singBoxObfs payload config = .ok obfs) : obfs.lookup "detour" = none := by
  rw [singBoxObfs] at h
  split_ifs at h
  · obtain ⟨password, -, h⟩ := bind_eq_ok.mp h
    cases pure_eq_ok.mp h
    rfl
  · cases pure_eq_ok.mp h
    rfl

theorem singBox_innerName (h : fragment.capability ≠ "shadowsocks2022-shadow-tls") :
    Flavor.singBox.innerName fragment = none :=
  if_neg fun hinner ↦ h hinner.2

theorem singBoxInbounds_emits (h : Opened fragment payload config port users)
    (hport : port ≤ 65535) (hemit : Flavor.singBox.emit fragment = .ok emitted) :
    Emits .singBox fragment payload port emitted := by
  obtain ⟨payload', hobject, hemit⟩ := bind_eq_ok.mp hemit
  cases h.object.symm.trans hobject
  obtain ⟨config', -, hemit⟩ := bind_eq_ok.mp hemit
  obtain ⟨port', hfound, hemit⟩ := bind_eq_ok.mp hemit
  cases h.port.symm.trans hfound
  have hudp : Flavor.singBox.isUdp fragment.capability =
      (fragment.capability = "hysteria2" || fragment.capability = "tuic") := rfl
  have hperUser : Flavor.singBox.perUser fragment.capability =
      (fragment.capability = "vless-reality-tcp" || fragment.capability = "tuic") := rfl
  split_ifs at hemit with hvless hshadowTls hhysteria hanyTls htuic
  · obtain ⟨users', husers, hemit⟩ := bind_eq_ok.mp hemit
    cases h.users.symm.trans husers
    obtain ⟨serverName, -, hemit⟩ := bind_eq_ok.mp hemit
    obtain ⟨privateKey, -, hemit⟩ := bind_eq_ok.mp hemit
    obtain ⟨shortId, -, hemit⟩ := bind_eq_ok.mp hemit
    cases pure_eq_ok.mp hemit
    refine .individual h (congrArg Option.toList (entryPort_lookup hport rfl rfl)) ?_
      (congrArg List.toFinset (idsOfEntries_users rfl fun user ↦ rfl)) ?_ fun _ ↦
        .single (singBox_innerName ?_) (text?_lookup rfl) (text?_absent rfl)
    · rw [hudp, hvless]
      rfl
    · rw [hperUser, hvless]
      rfl
    · rw [hvless]
      decide
  · obtain ⟨password, -, hemit⟩ := bind_eq_ok.mp hemit
    obtain ⟨shadowTlsPassword, -, hemit⟩ := bind_eq_ok.mp hemit
    obtain ⟨serverName, -, hemit⟩ := bind_eq_ok.mp hemit
    cases pure_eq_ok.mp hemit
    -- the inner inbound has neither a port nor users of its own
    have houter : Flavor.singBox.entryPorts (.object (singBoxHead fragment "shadowtls" port ++
        [("version", .number 3), ("users", sharedUser shadowTlsPassword),
          ("handshake", .object [("server", .string serverName), ("server_port", .number 443)]),
          ("detour", .string (fragment.profileId ++ "-inner"))])) = [(port, false)] :=
      congrArg Option.toList (entryPort_lookup hport rfl rfl)
    constructor
    · rw [List.flatMap_cons, List.flatMap_singleton, houter, hudp, hshadowTls]
      rfl
    · rw [hperUser, hshadowTls]
      rfl
    · intro
      have hinner : Flavor.singBox.innerName fragment = some (fragment.profileId ++ "-inner") :=
        if_pos ⟨rfl, hshadowTls⟩
      constructor
      · rw [Flavor.names, hinner]
        rfl
      · rw [hinner]
        rfl
  · obtain ⟨password, -, hemit⟩ := bind_eq_ok.mp hemit
    obtain ⟨obfs, hobfs, hemit⟩ := bind_eq_ok.mp hemit
    have hdetour := singBoxObfs_detour hobfs
    cases pure_eq_ok.mp hemit
    refine .common (congrArg Option.toList (entryPort_lookup hport rfl rfl)) ?_
      (idsOfEntries_shared rfl) ?_ fun _ ↦
        .single (singBox_innerName ?_) (text?_lookup rfl) (text?_absent ?_)
    · rw [hudp, hhysteria]
      rfl
    · rw [hperUser, hhysteria]
      rfl
    · rw [hhysteria]
      decide
    · exact hdetour
  · obtain ⟨password, -, hemit⟩ := bind_eq_ok.mp hemit
    cases pure_eq_ok.mp hemit
    refine .common (congrArg Option.toList (entryPort_lookup hport rfl rfl)) ?_
      (idsOfEntries_shared rfl) ?_ fun _ ↦
        .single (singBox_innerName ?_) (text?_lookup rfl) (text?_absent rfl)
    · rw [hudp, hanyTls]
      rfl
    · rw [hperUser, hanyTls]
      rfl
    · rw [hanyTls]
      decide
  · obtain ⟨password, -, hemit⟩ := bind_eq_ok.mp hemit
    obtain ⟨users', husers, hemit⟩ := bind_eq_ok.mp hemit
    cases h.users.symm.trans husers
    cases pure_eq_ok.mp hemit
    refine .individual h (congrArg Option.toList (entryPort_lookup hport rfl rfl)) ?_
      (congrArg List.toFinset (idsOfEntries_users rfl fun user ↦ rfl)) ?_ fun _ ↦
        .single (singBox_innerName ?_) (text?_lookup rfl) (text?_absent rfl)
    · rw [hudp, htuic]
      rfl
    · rw [hperUser, htuic]
      rfl
    · rw [htuic]
      decide

end singBox

theorem hysteriaDocument_emits (h : Opened fragment payload config port users)
    (hport : port ≤ 65535) (hemit : Flavor.hysteria.emit fragment = .ok emitted) :
    Emits .hysteria fragment payload port emitted := by
  obtain ⟨document, hdocument, rfl⟩ := map_eq_ok.mp hemit
  obtain ⟨payload', hobject, hdocument⟩ := bind_eq_ok.mp hdocument
  cases h.object.symm.trans hobject
  obtain ⟨port', hfound, hdocument⟩ := bind_eq_ok.mp hdocument
  cases h.port.symm.trans hfound
  obtain ⟨password, -, hdocument⟩ := bind_eq_ok.mp hdocument
  obtain ⟨obfs, -, hdocument⟩ := bind_eq_ok.mp hdocument
  cases pure_eq_ok.mp hdocument
  have hlisten : addressPort (":" ++ toString port) = some port :=
    addressPort_append [] (by decide) hport
  refine .common ?_ rfl rfl rfl fun hshared ↦ absurd rfl hshared.1
  rw [Flavor.entryPorts, discoverConfigPorts, text?_lookup rfl, Option.bind_some, hlisten]
  rfl

theorem tuicDocument_emits (h : Opened fragment payload config port users) (hport : port ≤ 65535)
    (hpositive : 0 < port) (hemit : Flavor.tuic.emit fragment = .ok emitted) :
    Emits .tuic fragment payload port emitted := by
  obtain ⟨document, hdocument, rfl⟩ := map_eq_ok.mp hemit
  obtain ⟨payload', hobject, hdocument⟩ := bind_eq_ok.mp hdocument
  cases h.object.symm.trans hobject
  obtain ⟨password, -, hdocument⟩ := bind_eq_ok.mp hdocument
  obtain ⟨users', husers, hdocument⟩ := bind_eq_ok.mp hdocument
  cases h.users.symm.trans husers
  obtain ⟨port', hfound, hdocument⟩ := bind_eq_ok.mp hdocument
  cases h.port.symm.trans hfound
  cases pure_eq_ok.mp hdocument
  have hserver : addressPort ("[::]:" ++ toString port) = some port :=
    addressPort_append ['[', ':', ':', ']'] (by decide) hport
  have hne : decide (port ≠ 0) = true := decide_eq_true (by omega)
  refine .individual h ?_ rfl (idsOfKeys_users rfl) rfl fun hshared ↦ absurd rfl hshared.2
  rw [Flavor.entryPorts, discoverConfigPorts, text?_lookup rfl, Option.bind_some, hserver,
    Option.filter_some, if_pos hne]
  rfl

section mihomo

variable {wrapper : SecurityWrapper} {added fields : List (String × Value)} {listener : Value}
variable {kind : String} {representation : UserRepresentation}

theorem mihomoServerWrapper_detour (h : mihomoServerWrapper payload config wrapper = .ok added) :
    added.lookup "detour" = none := by
  cases wrapper with
  | standardTls =>
    cases h
    rfl
  | reality =>
    obtain ⟨options, -, h⟩ := bind_eq_ok.mp h
    cases pure_eq_ok.mp h
    rfl
  | shadowTlsV3 | resTls =>
    obtain ⟨first, -, h⟩ := bind_eq_ok.mp h
    obtain ⟨second, -, h⟩ := bind_eq_ok.mp h
    cases pure_eq_ok.mp h
    rfl
  | jls =>
    obtain ⟨username, -, h⟩ := bind_eq_ok.mp h
    obtain ⟨password, -, h⟩ := bind_eq_ok.mp h
    obtain ⟨sni, -, h⟩ := bind_eq_ok.mp h
    cases pure_eq_ok.mp h
    rfl

theorem mihomoWrapped_ok (h : mihomoWrapped fragment payload config fields = .ok listener) :
    ∃ added, listener = .object (fields ++ added) ∧ added.lookup "detour" = none := by
  obtain ⟨wrapper, -, h⟩ := bind_eq_ok.mp h
  obtain ⟨added, hadded, h⟩ := bind_eq_ok.mp h
  cases pure_eq_ok.mp h
  exact ⟨added, rfl, mihomoServerWrapper_detour hadded⟩

/-- What is read of a listener of this type. -/
structure Listens (fragment : ServerFragment) (payload : Value) (port : ℕ) (kind : String)
    (listener : Value) : Prop where
  emits : Emits .mihomo fragment payload port [listener]
  kind : listener.text? "type" = some kind

theorem mihomoHead_ports (hport : port ≤ 65535) (hkind : decide (kind = "shadowquic") =
    Flavor.mihomo.isUdp fragment.capability) :
    Flavor.mihomo.entryPorts (.object (mihomoHead fragment kind port ++ fields)) =
      [(port, Flavor.mihomo.isUdp fragment.capability)] :=
  congrArg Option.toList (entryPort_lookup hport rfl (by rw [← hkind]; rfl))

theorem Listens.individual (h : Opened fragment payload config port users) (hport : port ≤ 65535)
    (hrepresentation : mihomoRepresentation fragment.capability = .ok (kind, representation))
    (hkind : decide (kind = "shadowquic") = Flavor.mihomo.isUdp fragment.capability)
    (hids : (representation.ids (.object (mihomoHead fragment kind port ++ fields))).toFinset =
      (users.filterMap (Value.text? "uuid")).toFinset)
    (hdetour : fields.lookup "detour" = none) :
    Listens fragment payload port kind (.object (mihomoHead fragment kind port ++ fields)) where
  emits := by
    refine .individual h (mihomoHead_ports hport hkind) rfl ?_ ?_ fun _ ↦
      .single rfl (text?_lookup rfl) (text?_absent hdetour)
    · rw [Flavor.entryIds, mihomoIds, hrepresentation]
      exact hids
    · rw [Flavor.perUser, hrepresentation]
      rfl
  kind := text?_lookup rfl

theorem Listens.common (hport : port ≤ 65535)
    (hrepresentation : (mihomoRepresentation fragment.capability).isOk = false)
    (hkind : decide (kind = "shadowquic") = Flavor.mihomo.isUdp fragment.capability)
    (hdetour : fields.lookup "detour" = none) :
    Listens fragment payload port kind (.object (mihomoHead fragment kind port ++ fields)) where
  emits := by
    refine .common (mihomoHead_ports hport hkind) rfl ?_ hrepresentation fun _ ↦
      .single rfl (text?_lookup rfl) (text?_absent hdetour)
    rw [Flavor.entryIds, mihomoIds]
    cases hfound : mihomoRepresentation fragment.capability with
    | ok found =>
      rw [hfound] at hrepresentation
      cases hrepresentation
    | error message => rfl
  kind := text?_lookup rfl

theorem mihomo_vless : ∀ capability ∈ mihomoVlessCapabilities,
    mihomoRepresentation capability = .ok ("vless", .uuidArray) ∧
      Flavor.mihomo.isUdp capability = false := by
  decide

theorem mihomo_trojan : ∀ json ∈ protocols, startsWith json.manifest.id "trojan-" →
    mihomoRepresentation json.manifest.id = .ok ("trojan", .usernameArray) ∧
      Flavor.mihomo.isUdp json.manifest.id = false := by
  decide

theorem mihomo_shared : ∀ json ∈ protocols, startsWith json.manifest.id "anytls-" ∨
      (json.manifest.id = "snell-v5" ∨ startsWith json.manifest.id "snell-v5-") ∨
      json.manifest.id = "sudoku-httpmask" →
    (mihomoRepresentation json.manifest.id).isOk = false ∧
      Flavor.mihomo.isUdp json.manifest.id = false := by
  decide

theorem mihomoVless_listens (h : Opened fragment payload config port users) (hport : port ≤ 65535)
    (hcapability : fragment.capability ∈ mihomoVlessCapabilities)
    (hvless : mihomoVless fragment payload config port = .ok listener) :
    Listens fragment payload port "vless" listener := by
  obtain ⟨hrepresentation, hudp⟩ := mihomo_vless fragment.capability hcapability
  have hlistens {fields : List (String × Value)} (hdetour : fields.lookup "detour" = none) :
      Listens fragment payload port "vless" (.object (mihomoHead fragment "vless" port ++
        (("users", userEntries (fun user ↦
          [("username", userField "username" user), ("uuid", userField "uuid" user)] ++
            visionFlow fragment.capability) users) :: fields))) :=
    .individual h hport hrepresentation (by rw [hudp]; rfl)
      (congrArg List.toFinset (idsOfEntries_users rfl fun user ↦ rfl)) hdetour
  obtain ⟨users', husers, hvless⟩ := bind_eq_ok.mp hvless
  cases h.users.symm.trans husers
  dsimp only at hvless
  split_ifs at hvless
  · obtain ⟨options, -, hvless⟩ := bind_eq_ok.mp hvless
    cases pure_eq_ok.mp hvless
    exact hlistens rfl
  · obtain ⟨options, -, hvless⟩ := bind_eq_ok.mp hvless
    obtain ⟨path, -, hvless⟩ := bind_eq_ok.mp hvless
    obtain ⟨host, -, hvless⟩ := bind_eq_ok.mp hvless
    cases pure_eq_ok.mp hvless
    exact hlistens rfl
  · obtain ⟨added, rfl, hdetour⟩ := mihomoWrapped_ok hvless
    exact hlistens hdetour

theorem mihomoListener_listens (hknown : ∃ json ∈ protocols, json.manifest.id = fragment.capability)
    (h : Opened fragment payload config port users) (hport : port ≤ 65535)
    (hemit : mihomoListener fragment = .ok listener) :
    ∃ kind, Listens fragment payload port kind listener ∧ ∀ found representation,
      mihomoRepresentation fragment.capability = .ok (found, representation) → found = kind := by
  obtain ⟨json, hjson, hid⟩ := hknown
  obtain ⟨payload', hobject, hemit⟩ := bind_eq_ok.mp hemit
  cases h.object.symm.trans hobject
  obtain ⟨config', hconfig, hemit⟩ := bind_eq_ok.mp hemit
  cases h.config.symm.trans hconfig
  obtain ⟨port', hfound, hemit⟩ := bind_eq_ok.mp hemit
  cases h.port.symm.trans hfound
  have hindividual {kind : String} {representation : UserRepresentation}
      (hlistens : Listens fragment payload port kind listener)
      (hrepresentation : mihomoRepresentation fragment.capability = .ok (kind, representation)) :
      ∃ kind, Listens fragment payload port kind listener ∧ ∀ found representation,
        mihomoRepresentation fragment.capability = .ok (found, representation) → found = kind := by
    refine ⟨kind, hlistens, fun found representation' hagain ↦ ?_⟩
    cases hrepresentation.symm.trans hagain
    rfl
  have hcommon {kind : String} (hlistens : Listens fragment payload port kind listener)
      (hrepresentation : (mihomoRepresentation fragment.capability).isOk = false) :
      ∃ kind, Listens fragment payload port kind listener ∧ ∀ found representation,
        mihomoRepresentation fragment.capability = .ok (found, representation) → found = kind := by
    refine ⟨kind, hlistens, fun found representation hagain ↦ ?_⟩
    rw [hagain] at hrepresentation
    cases hrepresentation
  have hshared := mihomo_shared json hjson
  rw [hid] at hshared
  split_ifs at hemit with hvless hanyTls htrojan hsnell hmieru htrustTunnel hquic hsudoku
  · exact hindividual (mihomoVless_listens h hport hvless hemit) (mihomo_vless _ hvless).1
  · obtain ⟨hrepresentation, hudp⟩ := hshared (.inl hanyTls)
    obtain ⟨password, -, hemit⟩ := bind_eq_ok.mp hemit
    obtain ⟨added, rfl, hdetour⟩ := mihomoWrapped_ok hemit
    exact hcommon (.common hport hrepresentation (by rw [hudp]; rfl) hdetour) hrepresentation
  · have htable := mihomo_trojan json hjson
    rw [hid] at htable
    obtain ⟨hrepresentation, hudp⟩ := htable htrojan
    obtain ⟨users', husers, hemit⟩ := bind_eq_ok.mp hemit
    cases h.users.symm.trans husers
    obtain ⟨added, rfl, hdetour⟩ := mihomoWrapped_ok hemit
    exact hindividual (.individual h hport hrepresentation (by rw [hudp]; rfl)
      (congrArg List.toFinset (idsOfEntries_users rfl fun user ↦ rfl)) hdetour) hrepresentation
  · obtain ⟨hrepresentation, hudp⟩ := hshared (.inr (.inl hsnell))
    obtain ⟨psk, -, hemit⟩ := bind_eq_ok.mp hemit
    dsimp only at hemit
    split_ifs at hemit
    · cases pure_eq_ok.mp hemit
      exact hcommon (.common hport hrepresentation (by rw [hudp]; rfl) rfl) hrepresentation
    · obtain ⟨added, rfl, hdetour⟩ := mihomoWrapped_ok hemit
      exact hcommon (.common hport hrepresentation (by rw [hudp]; rfl) hdetour) hrepresentation
  · have hrepresentation : mihomoRepresentation fragment.capability =
        .ok ("mieru", .objectKeys) := by
      rw [hmieru]
      decide
    obtain ⟨password, -, hemit⟩ := bind_eq_ok.mp hemit
    obtain ⟨users', husers, hemit⟩ := bind_eq_ok.mp hemit
    cases h.users.symm.trans husers
    cases pure_eq_ok.mp hemit
    exact hindividual (.individual h hport hrepresentation (by rw [hmieru]; rfl)
      (idsOfKeys_users rfl) rfl) hrepresentation
  · have hrepresentation : mihomoRepresentation fragment.capability =
        .ok ("trusttunnel", .usernameArray) := by
      rw [htrustTunnel]
      decide
    obtain ⟨users', husers, hemit⟩ := bind_eq_ok.mp hemit
    cases h.users.symm.trans husers
    cases pure_eq_ok.mp hemit
    exact hindividual (.individual h hport hrepresentation (by rw [htrustTunnel]; rfl)
      (congrArg List.toFinset (idsOfEntries_users rfl fun user ↦ rfl)) rfl) hrepresentation
  · have hrepresentation : mihomoRepresentation fragment.capability =
        .ok ("shadowquic", .usernameArray) := by
      rw [hquic]
      decide
    obtain ⟨users', husers, hemit⟩ := bind_eq_ok.mp hemit
    cases h.users.symm.trans husers
    obtain ⟨sni, -, hemit⟩ := bind_eq_ok.mp hemit
    cases pure_eq_ok.mp hemit
    exact hindividual (.individual h hport hrepresentation (by rw [hquic]; rfl)
      (congrArg List.toFinset (idsOfEntries_users rfl fun user ↦ rfl)) rfl) hrepresentation
  · obtain ⟨hrepresentation, hudp⟩ := hshared (.inr (.inr hsudoku))
    obtain ⟨key, -, hemit⟩ := bind_eq_ok.mp hemit
    obtain ⟨pathRoot, -, hemit⟩ := bind_eq_ok.mp hemit
    cases pure_eq_ok.mp hemit
    exact hcommon (.common hport hrepresentation (by rw [hudp]; rfl) rfl) hrepresentation

end mihomo

theorem emit_emits (hknown : ∃ json ∈ protocols, json.manifest.id = fragment.capability)
    (h : Opened fragment payload config port users) (hport : port ≤ 65535)
    (hpositive : flavor = .tuic → 0 < port) (hemit : flavor.emit fragment = .ok emitted) :
    Emits flavor fragment payload port emitted := by
  cases flavor with
  | xray => exact xrayInbound_emits h hport hemit
  | singBox => exact singBoxInbounds_emits h hport hemit
  | hysteria => exact hysteriaDocument_emits h hport hemit
  | tuic => exact tuicDocument_emits h hport (hpositive rfl) hemit
  | mihomo =>
    obtain ⟨listener, hlistener, rfl⟩ := map_eq_ok.mp hemit
    obtain ⟨kind, hlistens, -⟩ := mihomoListener_listens hknown h hport hlistener
    exact hlistens.emits

end StealthHub.Adapters

import StealthHub.Storage.Database

set_option autoImplicit false

namespace StealthHub.Storage

open Text Users

structure NewProtocolProfile where
  name : String
  displayName : String
  protocolId : String
  schemaVersion : ℕ
  role : ProxyRole
  enabled : Bool
  server : String
  port : ℕ
  preferredCoreId : Option String
  managedResourceId : Option String
  config : Value

structure UpdateProtocolProfile where
  name : String
  displayName : String
  expectedUpdatedAt : Option DateTime
  enabled : Bool
  server : String
  port : ℕ
  preferredCoreId : Option String
  managedResourceId : Option String
  config : Value

def roleName : ProxyRole → String
  | .autoSafe => "auto-safe"
  | .speed => "speed"
  | .compatibility => "compatibility"
  | .ruAccess => "ru-access"
  | .manual => "manual"

def defaultRuntimePreference (protocolId : String) : Option String :=
  if protocolId ∈ ["shadowsocks2022-shadow-tls", "any-tls"] then some "sing-box"
  else if protocolId = "hysteria2" then some "hysteria"
  else if protocolId = "tuic" then some "tuic"
  else if protocolId ∈ ["vless-reality-xhttp", "vless-reality-tcp", "vless-shadowtls-v3",
      "vless-restls", "vless-jls", "anytls-tls", "anytls-shadowtls-v3", "anytls-restls",
      "anytls-jls", "trojan-tls", "trojan-shadowtls-v3", "trojan-restls", "trojan-jls",
      "trojan-reality", "snell-v5", "snell-v5-shadowtls-v3", "snell-v5-restls", "snell-v5-jls",
      "mieru", "trusttunnel-h2", "shadowquic", "sudoku-httpmask"] then some "mihomo"
  else none

def legacyRuntimePreference (protocolId : String) : Option String :=
  if protocolId ∈ ["vless-reality-xhttp", "vless-reality-tcp"] then some "xray"
  else defaultRuntimePreference protocolId

variable (json : Json)

def decodeProtocolProfile (record : ProtocolProfileRecord) : Except String ProtocolProfile := do
  let config ← json.parse record.configJson
  if 4294967295 < record.schemaVersion then throw "invalid protocol schema version"
  else
    return {
      name := record.name
      displayName := record.displayName
      protocolId := record.kind
      schemaVersion := record.schemaVersion
      role := record.role
      server := record.server
      port := record.port
      enabled := record.enabled
      preferredCoreId := record.preferredCoreId
      managedResourceId := record.managedResourceId
      config }

/-- `ORDER BY role, display_name, name`. -/
def ProtocolProfileRecord.listedBefore (a b : ProtocolProfileRecord) : Prop :=
  roleName a.role < roleName b.role ∨ roleName a.role = roleName b.role ∧
    (a.displayName < b.displayName ∨ a.displayName = b.displayName ∧ a.name ≤ b.name)

instance : DecidableRel ProtocolProfileRecord.listedBefore :=
  fun _ _ ↦ inferInstanceAs (Decidable (_ ∨ _))

def listProtocolProfiles (db : Database) : List ProtocolProfileRecord :=
  db.profiles.rows.insertionSort ProtocolProfileRecord.listedBefore

def listProtocolProfilesDecoded (db : Database) : Except String (List ProtocolProfile) :=
  (listProtocolProfiles db).mapM (decodeProtocolProfile json)

def getProtocolProfileByName (db : Database) (name : String) : Option ProtocolProfileRecord :=
  db.profiles.find? (·.name = trim name)

def insertProtocolProfile (now : DateTime) (input : NewProtocolProfile) (db : Database) :
    Except String (Unit × Database) :=
  if h : (0 < input.port ∧ input.port ≤ 65535) ∧ 0 < input.schemaVersion then do
    let record : ProtocolProfileRecord :=
      { id := db.nextProfileId
        name := trim input.name
        displayName := trim input.displayName
        kind := trim input.protocolId
        role := input.role
        enabled := input.enabled
        server := trim input.server
        port := input.port
        configJson := json.print input.config
        schemaVersion := input.schemaVersion
        preferredCoreId := input.preferredCoreId
        managedResourceId := input.managedResourceId
        createdAt := now
        updatedAt := now
        port_valid := h.1
        schema_valid := h.2 }
    let profiles ← checkUnique (db.profiles.insert record)
    let db := { db with profiles, nextProfileId := db.nextProfileId + 1 }
    return ((), (bumpWhen input.enabled db).2)
  else .error "CHECK constraint failed"

def createProtocolProfile (now : DateTime) (input : NewProtocolProfile) (db : Database) :
    Except String ProtocolProfileRecord × Database :=
  match transact (insertProtocolProfile json now input) db with
  | (.error message, db) => (.error message, db)
  | (.ok (), db) =>
    ((getProtocolProfileByName db input.name).elim
      (.error "protocol profile was not created") .ok, db)

def UpdateProtocolProfile.apply (input : UpdateProtocolProfile) (now : DateTime)
    (existing : ProtocolProfileRecord) (h : 0 < input.port ∧ input.port ≤ 65535) :
    ProtocolProfileRecord :=
  { existing with
    displayName := trim input.displayName
    enabled := input.enabled
    server := trim input.server
    port := input.port
    configJson := json.print input.config
    preferredCoreId := input.preferredCoreId
    managedResourceId := input.managedResourceId
    updatedAt := now
    port_valid := h }

/-- Whether an update changes a column that a runtime is built from, apart from
`enabled`. -/
def UpdateProtocolProfile.runtimeDiffers (input : UpdateProtocolProfile)
    (existing : ProtocolProfileRecord) : Bool :=
  trim input.server != existing.server || input.port != existing.port ||
    json.print input.config != existing.configJson ||
    input.preferredCoreId != existing.preferredCoreId ||
    input.managedResourceId != existing.managedResourceId

def UpdateProtocolProfile.changed (input : UpdateProtocolProfile)
    (existing : ProtocolProfileRecord) : Bool :=
  trim input.displayName != existing.displayName || input.enabled != existing.enabled ||
    input.runtimeDiffers json existing

def UpdateProtocolProfile.runtimeChanged (input : UpdateProtocolProfile)
    (existing : ProtocolProfileRecord) : Bool :=
  input.enabled != existing.enabled || input.enabled && input.runtimeDiffers json existing

def rewriteProtocolProfile (now : DateTime) (input : UpdateProtocolProfile) (db : Database) :
    Except String ((ProtocolProfileRecord × Bool) × Database) := do
  let existing ← (getProtocolProfileByName db input.name).elim
    (.error "protocol profile not found") .ok
  if input.expectedUpdatedAt.any (· ≠ existing.updatedAt) then
    throw "protocol profile changed in another session"
  else if !input.changed json existing then return ((existing, false), db)
  else if h : 0 < input.port ∧ input.port ≤ 65535 then
    let profiles ← checkUnique (db.profiles.update
      (fun row ↦ row.name = existing.name && row.updatedAt = existing.updatedAt)
      fun _ ↦ input.apply json now existing h)
    return ((existing, true), (bumpWhen (input.runtimeChanged json existing)
      { db with profiles }).2)
  else throw "CHECK constraint failed"

def updateProtocolProfile (now : DateTime) (input : UpdateProtocolProfile) (db : Database) :
    Except String ProtocolProfileRecord × Database :=
  match transact (rewriteProtocolProfile json now input) db with
  | (.error message, db) => (.error message, db)
  | (.ok (existing, false), db) => (.ok existing, db)
  | (.ok (existing, true), db) =>
    ((getProtocolProfileByName db existing.name).elim
      (.error "protocol profile was not updated") .ok, db)

def protocolProfileReferenceCount (db : Database) (name : String) : ℕ :=
  (db.pools.rows.map fun row ↦ row.pool.members.count (.profile (trim name))).sum +
    db.rules.rows.countP (·.target = trim name) + db.ruleSets.rows.countP (·.target = trim name)

def removeProtocolProfile (name : String) (expectedUpdatedAt : DateTime) (db : Database) :
    Except String (Bool × Database) := do
  let existing ← (getProtocolProfileByName db name).elim (.error "protocol profile not found") .ok
  if existing.updatedAt ≠ expectedUpdatedAt then
    throw "protocol profile changed in another session"
  else if protocolProfileReferenceCount db name ≠ 0 then
    throw "protocol profile is referenced by routing"
  else
    let profiles := db.profiles.delete fun row ↦
      row.name = trim name && row.updatedAt = expectedUpdatedAt
    return (existing.enabled, (bumpWhen existing.enabled { db with profiles }).2)

def deleteProtocolProfileAudited (name : String) (expectedUpdatedAt : DateTime) (db : Database) :
    Except String Bool × Database :=
  transact (removeProtocolProfile name expectedUpdatedAt) db

def migrateRecord (registry : ProtocolRegistry) (now : DateTime)
    (record : ProtocolProfileRecord) : Except String ProtocolProfileRecord :=
  match registry.get record.kind with
  | none => .ok record
  | some adapter => do
    let config ← json.parse record.configJson
    if 4294967295 < record.schemaVersion then throw "invalid adapter schema version"
    else
      let (schemaVersion, migrated) ← adapter.migrateConfig record.schemaVersion config
      let preferredCoreId := record.preferredCoreId.orElse fun _ ↦
        legacyRuntimePreference record.kind
      let managedResourceId := record.managedResourceId.orElse fun _ ↦
        some s!"legacy-profile-{record.id}"
      if h : 0 < schemaVersion then
        let updated :=
          { record with
            schemaVersion
            configJson := json.print migrated
            preferredCoreId
            managedResourceId
            schema_valid := h }
        return if updated = record then record else { updated with updatedAt := now }
      else throw "CHECK constraint failed"

def migrateRows (registry : ProtocolRegistry) (now : DateTime) (db : Database) :
    Except String (Unit × Database) := do
  let rows ← db.profiles.rows.mapM (migrateRecord json registry now)
  let profiles ← checkUnique (Table.ofRows rows)
  return ((), { db with profiles })

def migrateProtocolAdapterConfigs (registry : ProtocolRegistry) (now : DateTime) (db : Database) :
    Except String Unit × Database :=
  transact (migrateRows json registry now) db

def writeSetting (runtimeKeys : List String) (state : Bool × OrderedMap String String)
    (entry : String × String) : Bool × OrderedMap String String :=
  (state.1 || (runtimeKeys.contains entry.1 && state.2.get? (trim entry.1) != some entry.2),
    state.2.insert (trim entry.1) entry.2)

def upsertSettingsWithRuntimeKeys (values : List (String × String)) (runtimeKeys : List String)
    (db : Database) : Except String (Option ℕ) × Database :=
  transact (fun db ↦
    let (runtimeChanged, settings) := values.foldl (writeSetting runtimeKeys) (false, db.settings)
    .ok (bumpWhen runtimeChanged { db with settings })) db

def upsertSecret (name value : String) (db : Database) : Except String Unit × Database :=
  transact (fun db ↦
    let db := { db with secrets := db.secrets.insert (trim name) value }
    .ok ((), (bumpWhen true db).2)) db

def deleteSecret (name : String) (db : Database) : Except String Unit × Database :=
  transact (fun db ↦
    if !db.secrets.contains (trim name) then .error "secret not found"
    else
      let db := { db with secrets := db.secrets.erase (trim name) }
      .ok ((), (bumpWhen true db).2)) db

def getSecret (db : Database) (name : String) : Option String := db.secrets.get? (trim name)

def listSecretNames (db : Database) : List String := db.secrets.keys

variable {json} {now : DateTime} {db db' : Database} {name : String}
variable {record existing : ProtocolProfileRecord}

theorem getByName_some (h : getProtocolProfileByName db name = some record) :
    record ∈ db.profiles.rows ∧ record.name = trim name := by
  obtain ⟨hmem, hname⟩ := Table.find?_some h
  exact ⟨hmem, by simpa using hname⟩

theorem eq_of_name {a b : ProtocolProfileRecord} (ha : a ∈ db.profiles.rows)
    (hb : b ∈ db.profiles.rows) (h : a.name = b.name) : a = b :=
  db.profiles.eq_of_clash ha hb (.inr h)

theorem getByName_of_mem (h : record ∈ db.profiles.rows) (hname : record.name = trim name) :
    getProtocolProfileByName db name = some record := by
  cases hget : getProtocolProfileByName db name with
  | none =>
    have hnone := Table.find?_none hget record h
    simp [hname] at hnone
  | some found =>
    obtain ⟨hfound, hfoundName⟩ := getByName_some hget
    rw [eq_of_name hfound h (hfoundName.trans hname.symm)]

theorem insertProfile_ok {input : NewProtocolProfile}
    (h : insertProtocolProfile json now input db = .ok ((), db')) :
    ∃ record profiles, record.name = trim input.name ∧ record.enabled = input.enabled ∧
      (record.kind = trim input.protocolId ∧ record.configJson = json.print input.config) ∧
      profiles.rows = db.profiles.rows ++ [record] ∧
      db' = (bumpWhen input.enabled
        { db with profiles, nextProfileId := db.nextProfileId + 1 }).2 := by
  unfold insertProtocolProfile at h
  split at h
  · obtain ⟨profiles, hunique, h⟩ := Except.bind_eq_ok.mp h
    have hrows := (Table.insert_some (checkUnique_ok hunique)).1
    have hdb := congrArg Prod.snd (Except.pure_eq_ok.mp h)
    exact ⟨_, profiles, rfl, rfl, ⟨rfl, rfl⟩, hrows, hdb.symm⟩
  · cases h

theorem insertProfile_port {input : NewProtocolProfile}
    (h : insertProtocolProfile json now input db = .ok ((), db')) :
    0 < input.port ∧ input.port ≤ 65535 := by
  unfold insertProtocolProfile at h
  split at h
  next hchecks => exact hchecks.1
  next => cases h

theorem rewriteProfile_ok {input : UpdateProtocolProfile} {wrote : Bool}
    (h : rewriteProtocolProfile json now input db = .ok ((existing, wrote), db')) :
    getProtocolProfileByName db input.name = some existing ∧
      input.expectedUpdatedAt.any (· ≠ existing.updatedAt) = false ∧
      (input.changed json existing = false ∧ wrote = false ∧ db' = db ∨
        input.changed json existing = true ∧ wrote = true ∧ ∃ hport profiles,
          db.profiles.update
            (fun row ↦ row.name = existing.name && row.updatedAt = existing.updatedAt)
            (fun _ ↦ input.apply json now existing hport) = some profiles ∧
          db' = (bumpWhen (input.runtimeChanged json existing) { db with profiles }).2) := by
  unfold rewriteProtocolProfile at h
  obtain ⟨found, hfound, h⟩ := Except.bind_eq_ok.mp h
  have hget := Except.elim_eq_ok.mp hfound
  obtain ⟨hexpected, h⟩ := Except.guard_eq_ok.mp h
  split at h
  next hsame =>
    cases Except.pure_eq_ok.mp h
    exact ⟨hget, by simpa using hexpected, .inl ⟨by simpa using hsame, rfl, rfl⟩⟩
  next hchanged =>
    split at h
    next hport =>
      obtain ⟨profiles, hunique, h⟩ := Except.bind_eq_ok.mp h
      cases Except.pure_eq_ok.mp h
      exact ⟨hget, by simpa using hexpected, .inr ⟨by simpa using hchanged, rfl, hport, profiles,
        checkUnique_ok hunique, rfl⟩⟩
    next => cases h

theorem removeProfile_ok {expected : DateTime} {enabled : Bool}
    (h : removeProtocolProfile name expected db = .ok (enabled, db')) :
    ∃ existing, getProtocolProfileByName db name = some existing ∧
      existing.updatedAt = expected ∧ protocolProfileReferenceCount db name = 0 ∧
      enabled = existing.enabled ∧
      db' = (bumpWhen existing.enabled { db with
        profiles := db.profiles.delete fun row ↦
          row.name = trim name && row.updatedAt = expected }).2 := by
  unfold removeProtocolProfile at h
  obtain ⟨existing, hfound, h⟩ := Except.bind_eq_ok.mp h
  obtain ⟨hstamp, h⟩ := Except.guard_eq_ok.mp h
  obtain ⟨hcount, h⟩ := Except.guard_eq_ok.mp h
  cases Except.pure_eq_ok.mp h
  exact ⟨existing, Except.elim_eq_ok.mp hfound, not_not.mp hstamp, not_not.mp hcount, rfl, rfl⟩

theorem update_selects (hget : getProtocolProfileByName db name = some existing)
    (h : record ∈ db.profiles.rows) :
    (record.name = existing.name && record.updatedAt = existing.updatedAt) = true ↔
      record = existing := by
  constructor
  · intro hselected
    rw [Bool.and_eq_true] at hselected
    exact eq_of_name h (getByName_some hget).1 (by simpa using hselected.1)
  · intro heq
    simp [heq]

theorem createProfile_ok {input : NewProtocolProfile}
    (h : insertProtocolProfile json now input db = .ok ((), db')) :
    ∃ record, createProtocolProfile json now input db = (.ok record, db') := by
  obtain ⟨record, profiles, hname, -, -, hrows, hdb⟩ := insertProfile_ok h
  have hmem : record ∈ db'.profiles.rows := by
    rw [hdb, bumpWhen_profiles, hrows]
    simp
  refine ⟨record, ?_⟩
  unfold createProtocolProfile
  rw [transact_ok h]
  simp only [getByName_of_mem hmem hname, Option.elim_some]

theorem updateProfile_ok {input : UpdateProtocolProfile} {wrote : Bool}
    (h : rewriteProtocolProfile json now input db = .ok ((existing, wrote), db')) :
    ∃ record, updateProtocolProfile json now input db = (.ok record, db') := by
  unfold updateProtocolProfile
  rw [transact_ok h]
  obtain ⟨hget, -, ⟨-, rfl, -⟩ | ⟨-, rfl, hport, profiles, hupdate, hdb⟩⟩ := rewriteProfile_ok h
  · exact ⟨existing, rfl⟩
  obtain ⟨hmem, hname⟩ := getByName_some hget
  have hwritten : input.apply json now existing hport ∈ db'.profiles.rows := by
    rw [hdb, bumpWhen_profiles, Table.mem_update hupdate]
    exact .inl ⟨existing, hmem, (update_selects hget hmem).mpr rfl, rfl⟩
  have hstored : (input.apply json now existing hport).name = trim existing.name := by
    rw [hname, trim_trim, ← hname]
    rfl
  refine ⟨input.apply json now existing hport, ?_⟩
  simp only [getByName_of_mem hwritten hstored, Option.elim_some]

def knownDocuments (first : String × Value) (others : List (String × Value)) : Json where
  print value := (((first :: others).find? (·.2 = value)).getD first).1
  parse text := ((first :: others).find? (·.1 = text)).elim (.error "expected value") (.ok ·.2)
  reads value := by
    have hknown : ((first :: others).find? (·.2 = value)).getD first ∈ first :: others := by
      cases hfind : (first :: others).find? (·.2 = value) with
      | none => exact List.mem_cons_self
      | some document => exact List.mem_of_find?_eq_some hfind
    cases hparse : (first :: others).find?
        (·.1 = (((first :: others).find? (·.2 = value)).getD first).1) with
    | none => exact absurd (decide_eq_true rfl) (List.find?_eq_none.mp hparse _ hknown)
    | some document => exact ⟨document.2, rfl⟩

theorem parse_first (first : String × Value) (others : List (String × Value)) :
    (knownDocuments first others).parse first.1 = .ok first.2 := by
  simp [knownDocuments]

theorem print_only (first : String × Value) (value : Value) :
    (knownDocuments first []).print value = first.1 := by
  simp only [knownDocuments, List.find?_cons, List.find?_nil]
  split
  · rfl
  · rfl

theorem parse_knownDocuments {first : String × Value} {others : List (String × Value)} {text : String}
    {value : Value} (h : (knownDocuments first others).parse text = .ok value) :
    value ∈ (first :: others).map Prod.snd := by
  cases hfind : (first :: others).find? (·.1 = text) with
  | none =>
    simp only [knownDocuments, hfind] at h
    cases h
  | some document =>
    simp only [knownDocuments, hfind] at h
    cases h
    exact List.mem_map_of_mem (List.mem_of_find?_eq_some hfind)

def emptyObject : Json where
  print := fun _ ↦ "{}"
  parse := fun _ ↦ .ok (.object [])
  reads := fun _ ↦ ⟨.object [], rfl⟩

def unplaced : ProtocolProfileRecord where
  id := 1
  name := "FAST"
  displayName := "Fast"
  kind := "hysteria2"
  role := .speed
  enabled := true
  server := "node.example.test"
  port := 443
  configJson := "{}"
  schemaVersion := 1
  preferredCoreId := none
  managedResourceId := none
  createdAt := 0
  updatedAt := 0
  port_valid := by decide
  schema_valid := by decide

theorem unplaced_distinct : [unplaced].Pairwise fun a b ↦ ¬ProtocolProfileRecord.Clash a b :=
  List.pairwise_singleton _ _

end StealthHub.Storage

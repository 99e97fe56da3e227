import StealthHub.Panel.Operations
import StealthHub.Storage.Generations

set_option autoImplicit false

namespace StealthHub

namespace Adapters

open Except

variable {adapter : JsonProtocolAdapter} {fields : List (String × Value)} {config migrated : Value}
variable {version fromVersion : ℕ} {name : String} {value : Value}

def JsonProtocolAdapter.withPrivateKey (adapter : JsonProtocolAdapter)
    (fields : List (String × Value)) : List (String × Value) :=
  if adapter.implementation.hasPrivateKey ∧ (fields.lookup "private_key_secret").isNone then
    OrderedMap.insertEntry "private_key_secret" (.string "xray.reality.private_key") fields
  else fields

theorem migrateConfig_ok : adapter.migrateConfig fromVersion config = .ok (version, migrated) ↔
    fromVersion ≤ adapter.manifest.schemaVersion ∧ version = adapter.manifest.schemaVersion ∧
      ∃ fields, config = .object fields ∧ migrated = .object (adapter.withPrivateKey fields) ∧
        adapter.validateConfig adapter.manifest.schemaVersion migrated = .ok () := by
  unfold JsonProtocolAdapter.migrateConfig
  rw [guard_eq_ok, not_lt]
  refine and_congr_right fun _ ↦ ?_
  cases config with
  | object fields =>
    constructor
    · intro h
      obtain ⟨⟨⟩, hvalid, h⟩ := bind_eq_ok.mp h
      cases pure_eq_ok.mp h
      exact ⟨rfl, fields, rfl, rfl, hvalid⟩
    · rintro ⟨rfl, _, hfields, rfl, hvalid⟩
      cases hfields
      exact bind_eq_ok.mpr ⟨(), hvalid, rfl⟩
  | _ => simp [throw, throwThe, MonadExceptOf.throw]

theorem lookup_withPrivateKey (h : fields.lookup name = some value) :
    (adapter.withPrivateKey fields).lookup name = some value := by
  rw [JsonProtocolAdapter.withPrivateKey]
  split_ifs with hmissing
  · rw [OrderedMap.lookup_insertEntry _ _ (Option.isNone_iff_eq_none.mp hmissing.2), if_neg, h]
    rintro rfl
    rw [h] at hmissing
    cases hmissing.2
  · exact h

theorem withPrivateKey_again :
    adapter.withPrivateKey (adapter.withPrivateKey fields) = adapter.withPrivateKey fields := by
  rw [JsonProtocolAdapter.withPrivateKey, if_neg]
  rintro ⟨hkey, hnone⟩
  rw [JsonProtocolAdapter.withPrivateKey] at hnone
  split_ifs at hnone with hmissing
  · rw [OrderedMap.lookup_insertEntry _ _ (Option.isNone_iff_eq_none.mp hmissing.2), if_pos rfl]
      at hnone
    cases hnone
  · exact hmissing ⟨hkey, hnone⟩

theorem schemaVersion_positive : ∀ adapter ∈ protocols, 0 < adapter.manifest.schemaVersion := by
  decide

end Adapters

namespace Panel

open Storage Adapters Except
open Users (DateTime)

variable {json : Json} {t : DateTime} {db db' : Database} {adapter : JsonProtocolAdapter}
variable {record row : ProtocolProfileRecord} {version : ℕ} {migrated : Value}

def Newer (adapter : JsonProtocolAdapter) (record : ProtocolProfileRecord) : Prop :=
  adapter.manifest.schemaVersion < record.schemaVersion

def Accepted (json : Json) (adapter : JsonProtocolAdapter) (record : ProtocolProfileRecord) : Prop :=
  ∃ fields, json.parse record.configJson = .ok (.object fields) ∧
    adapter.validateConfig adapter.manifest.schemaVersion
      (.object (adapter.withPrivateKey fields)) = .ok ()

/-- A row of a known protocol that is newer than its adapter or not accepted by it. -/
def Stuck (json : Json) (record : ProtocolProfileRecord) : Prop :=
  ∃ adapter ∈ protocols, adapter.manifest.id = record.kind ∧
    (Newer adapter record ∨ ¬Accepted json adapter record)

/-- A row that was brought to the schema of its adapter, with the fields that it had. -/
structure Upgraded (json : Json) (adapter : JsonProtocolAdapter)
    (record row : ProtocolProfileRecord) : Prop where
  schema : row.schemaVersion = adapter.manifest.schemaVersion
  config : ∃ config migrated, json.parse record.configJson = .ok config ∧
    json.parse row.configJson = .ok migrated ∧
    adapter.validateConfig row.schemaVersion migrated = .ok () ∧
    ∀ name value, config.get? name = some value → migrated.get? name = some value

/-- The migration is never stuck: it succeeds, leaves the rows that it cannot upgrade, upgrades
all others, and has nothing to do a second time. -/
def Migrates (json : Json) (t : DateTime) (db : Database) : Prop :=
  ∃ db', migrateProtocolAdapterConfigs json builtInProtocols t db = (.ok (), db') ∧
    List.Forall₂ (fun record row ↦
      ((builtInProtocols.get record.kind = none ∨ Stuck json record) → row = record) ∧
        ∀ adapter ∈ protocols, adapter.manifest.id = record.kind → ¬Stuck json record →
          Upgraded json adapter record row) db.profiles.rows db'.profiles.rows ∧
    ∀ t', migrateProtocolAdapterConfigs json builtInProtocols t' db' = (.ok (), db')

/-- What the migration writes is read back as it was written. -/
def ReadsBack (json : Json) (record : ProtocolProfileRecord) : Prop :=
  ∀ adapter ∈ protocols, adapter.manifest.id = record.kind → ∀ fields,
    json.parse record.configJson = .ok (.object fields) →
      json.parse (json.print (.object (adapter.withPrivateKey fields))) =
        .ok (.object (adapter.withPrivateKey fields))

theorem get_builtIn (hadapter : adapter ∈ protocols) (hid : adapter.manifest.id = record.kind) :
    builtInProtocols.get record.kind = some adapter.toAdapter :=
  builtInProtocols_get.mpr ⟨adapter, hadapter, rfl, hid⟩

theorem rejected_iff_stuck (hdecode : (decodeProtocolProfile json record).isOk) :
    Rejected json builtInProtocols record ↔ Stuck json record := by
  obtain ⟨profile, hprofile⟩ := exists_of_isOk hdecode
  obtain ⟨config, hconfig, hprofile⟩ := bind_eq_ok.mp hprofile
  obtain ⟨hsize, -⟩ := guard_eq_ok.mp hprofile
  have hupgrades : ∀ adapter ∈ protocols, (∃ config version migrated,
      json.parse record.configJson = .ok config ∧ record.schemaVersion ≤ 4294967295 ∧
        adapter.migrateConfig record.schemaVersion config = .ok (version, migrated) ∧
          0 < version) ↔ ¬Newer adapter record ∧ Accepted json adapter record := by
    intro adapter hadapter
    constructor
    · rintro ⟨config, version, migrated, hconfig, -, hmigrate, -⟩
      obtain ⟨hversion, -, fields, rfl, rfl, hvalid⟩ := migrateConfig_ok.mp hmigrate
      exact ⟨not_lt.mpr hversion, fields, hconfig, hvalid⟩
    · rintro ⟨hversion, fields, hconfig, hvalid⟩
      refine ⟨_, _, _, hconfig, by omega, migrateConfig_ok.mpr
        ⟨not_lt.mp hversion, rfl, fields, rfl, rfl, hvalid⟩, schemaVersion_positive adapter hadapter⟩
  constructor
  · rintro ⟨found, hfound, hnone⟩
    obtain ⟨adapter, hadapter, rfl, hid⟩ := builtInProtocols_get.mp hfound
    refine ⟨adapter, hadapter, hid, ?_⟩
    by_contra hneither
    push Not at hneither
    exact hnone ((hupgrades adapter hadapter).mpr hneither)
  · rintro ⟨adapter, hadapter, hid, hstuck⟩
    refine ⟨_, get_builtIn hadapter hid, fun hsome ↦ ?_⟩
    obtain ⟨hnewer, haccepted⟩ := (hupgrades adapter hadapter).mp hsome
    exact hstuck.elim hnewer fun hrejected ↦ hrejected haccepted

/-- A row as the migration writes it. -/
structure Written (json : Json) (adapter : JsonProtocolAdapter) (migrated : Value)
    (record row : ProtocolProfileRecord) : Prop where
  id : row.id = record.id
  kind : row.kind = record.kind
  schema : row.schemaVersion = adapter.manifest.schemaVersion
  config : row.configJson = json.print migrated
  core : row.preferredCoreId =
    record.preferredCoreId.orElse fun _ ↦ legacyRuntimePreference record.kind
  resource : row.managedResourceId =
    record.managedResourceId.orElse fun _ ↦ some s!"legacy-profile-{record.id}"

theorem migrateRecord_unknown {registry : ProtocolRegistry}
    (hget : registry.get record.kind = none) : migrateRecord json registry t record = .ok record := by
  unfold migrateRecord
  rw [hget]

theorem migrateRecord_written {registry : ProtocolRegistry}
    (hget : registry.get record.kind = some adapter.toAdapter)
    (h : migrateRecord json registry t record = .ok row) :
    ∃ fields, json.parse record.configJson = .ok (.object fields) ∧
      adapter.validateConfig adapter.manifest.schemaVersion
        (.object (adapter.withPrivateKey fields)) = .ok () ∧
      Written json adapter (.object (adapter.withPrivateKey fields)) record row := by
  unfold migrateRecord at h
  rw [hget] at h
  obtain ⟨config, hconfig, h⟩ := bind_eq_ok.mp h
  obtain ⟨-, h⟩ := guard_eq_ok.mp h
  obtain ⟨⟨version, migrated⟩, hmigrate, h⟩ := bind_eq_ok.mp h
  obtain ⟨-, rfl, fields, rfl, rfl, hvalid⟩ := migrateConfig_ok.mp hmigrate
  refine ⟨fields, hconfig, hvalid, ?_⟩
  simp only at h
  split at h
  next =>
    have hrow := pure_eq_ok.mp h
    split at hrow
    next hsame =>
      subst hrow
      exact ⟨rfl, rfl, (congrArg ProtocolProfileRecord.schemaVersion hsame).symm,
        (congrArg ProtocolProfileRecord.configJson hsame).symm,
        (congrArg ProtocolProfileRecord.preferredCoreId hsame).symm,
        (congrArg ProtocolProfileRecord.managedResourceId hsame).symm⟩
    next =>
      subst hrow
      exact ⟨rfl, rfl, rfl, rfl, rfl, rfl⟩
  next => cases h

theorem migrateRecord_again {registry : ProtocolRegistry} {fields : List (String × Value)}
    (hget : registry.get record.kind = some adapter.toAdapter)
    (hwritten : Written json adapter (.object (adapter.withPrivateKey fields)) record row)
    (hvalid : adapter.validateConfig adapter.manifest.schemaVersion
      (.object (adapter.withPrivateKey fields)) = .ok ())
    (hparse : json.parse row.configJson = .ok (.object (adapter.withPrivateKey fields)))
    (hsize : adapter.manifest.schemaVersion ≤ 4294967295) :
    migrateRecord json registry t row = .ok row := by
  have hmigrate : adapter.migrateConfig row.schemaVersion (.object (adapter.withPrivateKey fields)) =
      .ok (row.schemaVersion, .object (adapter.withPrivateKey fields)) := by
    refine migrateConfig_ok.mpr ⟨hwritten.schema.le, hwritten.schema, _, rfl, ?_, hvalid⟩
    rw [withPrivateKey_again]
  have hsmall : ¬4294967295 < row.schemaVersion := by
    have hschema := hwritten.schema
    omega
  have hcore : (row.preferredCoreId.orElse fun _ ↦ legacyRuntimePreference row.kind) =
      row.preferredCoreId := by
    rw [hwritten.core, hwritten.kind]
    cases record.preferredCoreId <;> cases legacyRuntimePreference record.kind <;> rfl
  have hresource : (row.managedResourceId.orElse fun _ ↦ some s!"legacy-profile-{row.id}") =
      row.managedResourceId := by
    rw [hwritten.resource]
    cases record.managedResourceId <;> rfl
  have hfound : registry.get row.kind = some adapter.toAdapter := by rw [hwritten.kind, hget]
  unfold migrateRecord
  rw [hfound]
  refine bind_eq_ok.mpr ⟨_, hparse, guard_eq_ok.mpr ⟨hsmall, bind_eq_ok.mpr ⟨_, hmigrate, ?_⟩⟩⟩
  simp only [dif_pos row.schema_valid, hcore, hresource, ← hwritten.config]
  exact pure_eq_ok.mpr (if_pos trivial)

theorem schemaVersion_small : ∀ adapter ∈ protocols,
    adapter.manifest.schemaVersion ≤ 4294967295 := by
  decide

/-- What the migration makes of one row. -/
structure Settled (json : Json) (record row : ProtocolProfileRecord) : Prop where
  unknown : builtInProtocols.get record.kind = none → row = record
  upgraded : ∀ adapter ∈ protocols, adapter.manifest.id = record.kind →
    Upgraded json adapter record row
  final : ∀ t, migrateRecord json builtInProtocols t row = .ok row

theorem migrateRecord_settled (hreads : ReadsBack json record)
    (h : migrateRecord json builtInProtocols t record = .ok row) : Settled json record row := by
  cases hget : builtInProtocols.get record.kind with
  | none =>
    obtain rfl : record = row := Except.ok.inj ((migrateRecord_unknown hget).symm.trans h)
    refine ⟨fun _ ↦ rfl, fun adapter hadapter hid ↦ ?_, fun t' ↦ migrateRecord_unknown hget⟩
    rw [get_builtIn hadapter hid] at hget
    cases hget
  | some found =>
    obtain ⟨known, hknown, rfl, hkind⟩ := builtInProtocols_get.mp hget
    constructor
    · intro hnone
      rw [hget] at hnone
      cases hnone
    · intro adapter hadapter hid
      obtain ⟨fields, hconfig, hvalid, hwritten⟩ := migrateRecord_written (get_builtIn hadapter hid) h
      refine ⟨hwritten.schema, _, _, hconfig, ?_, hwritten.schema ▸ hvalid, ?_⟩
      · rw [hwritten.config]
        exact hreads adapter hadapter hid fields hconfig
      · intro name value hvalue
        exact lookup_withPrivateKey hvalue
    · intro t'
      obtain ⟨fields, hconfig, hvalid, hwritten⟩ := migrateRecord_written hget h
      refine migrateRecord_again hget hwritten hvalid ?_ (schemaVersion_small known hknown)
      rw [hwritten.config]
      exact hreads known hknown hkind fields hconfig

theorem not_rejected (h : migrateProtocolAdapterConfigs json builtInProtocols t db = (.ok (), db')) :
    ∀ record ∈ db.profiles.rows, ¬Rejected json builtInProtocols record := by
  intro record hrecord
  cases hbody : migrateRows json builtInProtocols t db with
  | error message =>
    rw [migrateProtocolAdapterConfigs, transact_error hbody] at h
    cases h
  | ok outcome =>
    obtain ⟨profiles, hrows, -⟩ := migrateRows_ok hbody
    obtain ⟨row, -, hrow⟩ := (exists_of_mapM hrows).1 record hrecord
    exact migrateRecord_error.mp ⟨row, hrow⟩

theorem migrate_final (h : ∀ row ∈ db.profiles.rows, ∀ t,
    migrateRecord json builtInProtocols t row = .ok row) :
    migrateProtocolAdapterConfigs json builtInProtocols t db = (.ok (), db) := by
  have hrows : db.profiles.rows.mapM (migrateRecord json builtInProtocols t) =
      .ok db.profiles.rows := by
    rw [mapM_eq_ok, List.forall₂_same]
    exact fun row hrow ↦ h row hrow t
  have hbody : migrateRows json builtInProtocols t db = .ok ((), db) := by
    refine bind_eq_ok.mpr ⟨_, hrows, bind_eq_ok.mpr ⟨db.profiles, ?_, rfl⟩⟩
    rw [Table.ofRows_of db.profiles.distinct]
    rfl
  rw [migrateProtocolAdapterConfigs, transact_ok hbody]

/-- The migration gets stuck exactly on the rows that it should leave as they are. -/
theorem migration_never_stuck_iff (hdecode : ∀ record ∈ db.profiles.rows,
      (decodeProtocolProfile json record).isOk)
    (hreads : ∀ record ∈ db.profiles.rows, ReadsBack json record) :
    Migrates json t db ↔ ∀ record ∈ db.profiles.rows, ¬Stuck json record := by
  constructor
  · rintro ⟨db', hmigrate, -⟩ record hrecord hstuck
    exact not_rejected hmigrate record hrecord
      ((rejected_iff_stuck (hdecode record hrecord)).mpr hstuck)
  · intro hnone
    cases hbody : migrateRows json builtInProtocols t db with
    | error message =>
      obtain ⟨record, hrecord, hrejected⟩ := migrateRows_error hbody
      exact absurd ((rejected_iff_stuck (hdecode record hrecord)).mp hrejected)
        (hnone record hrecord)
    | ok outcome =>
      obtain ⟨⟨⟩, db'⟩ := outcome
      obtain ⟨profiles, hrows, rfl⟩ := migrateRows_ok hbody
      have hsettled : List.Forall₂ (fun record row ↦ record ∈ db.profiles.rows ∧
          Settled json record row) db.profiles.rows profiles.rows := by
        have hmem := (List.forall₂_and_left _ _).mpr
          ⟨fun record (hrecord : record ∈ db.profiles.rows) ↦ hrecord, mapM_eq_ok.mp hrows⟩
        exact hmem.imp fun record row ⟨hrecord, hrow⟩ ↦
          ⟨hrecord, migrateRecord_settled (hreads record hrecord) hrow⟩
      refine ⟨_, transact_ok hbody, hsettled.imp ?_, fun t' ↦ migrate_final fun row hrow ↦ ?_⟩
      · rintro record row ⟨hrecord, hsettled⟩
        refine ⟨?_, fun adapter hadapter hid _ ↦ hsettled.upgraded adapter hadapter hid⟩
        rintro (hunknown | hstuck)
        · exact hsettled.unknown hunknown
        · exact absurd hstuck (hnone record hrecord)
      · obtain ⟨record, hrecord, hmigrated⟩ := (exists_of_mapM hrows).2 row hrow
        exact (migrateRecord_settled (hreads record hrecord) hmigrated).final

def tunnelConfig : Value := .object [("sni", .string "node.example.test")]

def tunnelText : String := "\x7b\"sni\":\"node.example.test\"\x7d"

def tunnelDocument : Json := knownDocuments (tunnelText, tunnelConfig) []

def tunnelRecord : ProtocolProfileRecord where
  id := 1
  name := "TUNNEL"
  displayName := "Tunnel"
  kind := "trusttunnel-h2"
  role := .compatibility
  enabled := true
  server := "node.example.test"
  port := 8443
  configJson := tunnelText
  schemaVersion := 2
  preferredCoreId := none
  managedResourceId := none
  createdAt := 0
  updatedAt := 0
  port_valid := realityPort_valid
  schema_valid := by decide

def tunnelStore : Database :=
  { initDb with profiles := ⟨[tunnelRecord], List.pairwise_singleton _ _⟩ }

theorem newer_profile_stops_migration :
    ¬∀ (json : Json) (t : DateTime) (db : Database),
      (∀ record ∈ db.profiles.rows, (decodeProtocolProfile json record).isOk) →
      (∀ record ∈ db.profiles.rows, ReadsBack json record) → Migrates json t db := by
  intro hall
  have hparse : tunnelDocument.parse tunnelText = .ok tunnelConfig := parse_first _ _
  have hdecode : (decodeProtocolProfile tunnelDocument tunnelRecord).isOk := by
    have hprofile : ∃ profile, decodeProtocolProfile tunnelDocument tunnelRecord = .ok profile :=
      ⟨_, bind_eq_ok.mpr ⟨_, hparse, rfl⟩⟩
    obtain ⟨profile, hprofile⟩ := hprofile
    rw [hprofile]
    rfl
  have hreads : ReadsBack tunnelDocument tunnelRecord := by
    intro adapter hadapter hid fields hfields
    have hkeyless : ∀ adapter ∈ protocols, adapter.manifest.id = "trusttunnel-h2" →
        adapter.implementation.hasPrivateKey = false := by
      decide
    have hsame : adapter.withPrivateKey fields = fields := by
      rw [JsonProtocolAdapter.withPrivateKey, if_neg]
      rw [hkeyless adapter hadapter hid]
      exact fun hkey ↦ Bool.false_ne_true hkey.1
    rw [hsame, tunnelDocument, print_only]
    cases hparse.symm.trans hfields
    exact hparse
  have hrow : ∀ record ∈ tunnelStore.profiles.rows, record = tunnelRecord :=
    fun record hrecord ↦ List.mem_singleton.mp hrecord
  obtain ⟨db', hmigrate, -⟩ := hall tunnelDocument 1 tunnelStore
    (fun record hrecord ↦ hrow record hrecord ▸ hdecode)
    (fun record hrecord ↦ hrow record hrecord ▸ hreads)
  have hstuck : Stuck tunnelDocument tunnelRecord :=
    ⟨trustTunnel, by simp [protocols, trustTunnel], rfl, .inl (Nat.lt_succ_self 1)⟩
  exact not_rejected hmigrate _ List.mem_cons_self ((rejected_iff_stuck hdecode).mpr hstuck)

def keylessFields : List (String × Value) :=
  [("public_key_secret", .string "node.public"), ("server_name", .string "www.example.test"),
    ("short_id_secret", .string "node.short")]

def keyedFields : List (String × Value) :=
  ("private_key_secret", .string "xray.reality.private_key") :: keylessFields

def keylessText : String :=
  "\x7b\"public_key_secret\":\"node.public\",\"server_name\":\"www.example.test\"," ++
    "\"short_id_secret\":\"node.short\"\x7d"

def keyedText : String :=
  "\x7b\"private_key_secret\":\"xray.reality.private_key\"," ++
    "\"public_key_secret\":\"node.public\",\"server_name\":\"www.example.test\"," ++
      "\"short_id_secret\":\"node.short\"\x7d"

def keyDocuments : Json :=
  knownDocuments (keyedText, .object keyedFields) [(keylessText, .object keylessFields)]

def keylessRecord : ProtocolProfileRecord :=
  { realityRecord with configJson := keylessText, preferredCoreId := none, managedResourceId := none }

def keylessStore : Database :=
  { initDb with profiles := ⟨[keylessRecord], List.pairwise_singleton _ _⟩ }

theorem keyless_upgraded : ∀ adapter ∈ protocols, adapter.manifest.id = "vless-reality-tcp" →
    ¬adapter.manifest.schemaVersion < 1 ∧ adapter.withPrivateKey keylessFields = keyedFields ∧
      adapter.validateConfig adapter.manifest.schemaVersion (.object keyedFields) = .ok () := by
  decide

theorem keyless_parsed : keyDocuments.parse keylessText = .ok (.object keylessFields) := by
  decide

theorem keyless_decodes : (decodeProtocolProfile keyDocuments keylessRecord).isOk := by
  have hprofile : ∃ profile, decodeProtocolProfile keyDocuments keylessRecord = .ok profile :=
    ⟨_, bind_eq_ok.mpr ⟨_, keyless_parsed, rfl⟩⟩
  obtain ⟨profile, hprofile⟩ := hprofile
  rw [hprofile]
  rfl

theorem keyless_readsBack : ReadsBack keyDocuments keylessRecord := by
  intro adapter hadapter hid fields hfields
  cases keyless_parsed.symm.trans hfields
  rw [(keyless_upgraded adapter hadapter hid).2.1]
  have hprinted : keyDocuments.print (.object keyedFields) = keyedText := by
    simp [keyDocuments, knownDocuments]
  rw [hprinted]
  exact parse_first _ _

theorem keyless_accepted : ¬Stuck keyDocuments keylessRecord := by
  rintro ⟨adapter, hadapter, hid, hstuck⟩
  obtain ⟨hversion, hkeyed, hvalid⟩ := keyless_upgraded adapter hadapter hid
  refine hstuck.elim hversion fun hrejected ↦ hrejected ⟨_, keyless_parsed, ?_⟩
  rw [hkeyed]
  exact hvalid

theorem migration_never_stuck_reality : Migrates keyDocuments 1 keylessStore := by
  have hrow : ∀ record ∈ keylessStore.profiles.rows, record = keylessRecord :=
    fun record hrecord ↦ List.mem_singleton.mp hrecord
  refine (migration_never_stuck_iff ?_ ?_).mpr ?_
  · intro record hrecord
    rw [hrow record hrecord]
    exact keyless_decodes
  · intro record hrecord
    rw [hrow record hrecord]
    exact keyless_readsBack
  · intro record hrecord
    rw [hrow record hrecord]
    exact keyless_accepted

end Panel

end StealthHub

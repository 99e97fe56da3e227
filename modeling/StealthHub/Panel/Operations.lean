import Mathlib.Logic.Relation
import StealthHub.Panel.ServerSecrets

set_option autoImplicit false

namespace StealthHub.Panel

open Effect Effect.Program Reconcile Storage Text Adapters
open Users (DateTime)

variable {json : Json} {db db' : Database} {cores : CoreRegistry} {host : Host}
variable {candidate profile : ProtocolProfile} {adapter : ProtocolAdapter} {name : String}
variable {record : ProtocolProfileRecord} {now : DateTime}

/-- What a handler reads from the form of a profile, after its own checks of the texts. -/
structure ProfileForm where
  displayName : String
  enabled : Bool
  server : String
  port : ℕ
  config : Value

/-- The operations of the panel on secrets and profiles. -/
inductive PanelOp
  | saveSecret (name value : String)
  | deleteSecret (name confirm : String)
  | createProfile (name protocolId : String) (role : ProxyRole) (form : ProfileForm)
  | updateProfile (name : String) (form : ProfileForm) (expectedUpdatedAt : DateTime)
  | setProfileEnabled (name : String) (enabled : Bool) (expectedUpdatedAt : DateTime)
  | deleteProfile (name : String) (expectedUpdatedAt : DateTime)

def isServerOnlySecretReference (name : String) (profiles : List ProtocolProfile)
    (registry : ProtocolRegistry) : Bool :=
  profiles.any fun profile ↦
    match registry.get profile.protocolId with
    | none => false
    | some adapter =>
      match adapter.serverOnlySecretReferences profile.config with
      | .ok references => references.any fun reference ↦ reference.name = name
      | .error _ => false

/-- The checks of `secret_save_action`. -/
def checkSecret (json : Json) (name value : String) (db : Database) : Except String Unit := do
  if !validSecretRef name then
    throw "Secret name must be 1-128 characters using letters, digits, dot, underscore or dash."
  else if value = "" ∨ 8192 < len value ∨ containsChar value (Char.ofNat 0) then
    throw "Secret value must contain 1-8192 bytes and no NUL characters."
  else
    let profiles ← listProtocolProfilesDecoded json db
    if isServerOnlySecretReference name profiles builtInProtocols then
      throw "This reference is server-only."
    else pure ()

def saveSecret (json : Json) (name value : String) (db : Database) :
    Except String Unit × Database :=
  match checkSecret json (trim name) value db with
  | .error message => (.error message, db)
  | .ok () => upsertSecret (trim name) value db

def removeSecret (name confirm : String) (db : Database) : Except String Unit × Database :=
  if !validSecretRef (trim name) ∨ trim confirm ≠ trim name then
    (.error "Type the exact secret name to confirm deletion.", db)
  else deleteSecret (trim name) db

/-- The candidate of `create_protocol_action`. -/
def createdProfile (name protocolId : String) (role : ProxyRole) (form : ProfileForm)
    (manifest : ProtocolAdapterManifest) : ProtocolProfile where
  name := name
  displayName := form.displayName
  protocolId := protocolId
  schemaVersion := manifest.schemaVersion
  role := role
  server := form.server
  port := form.port
  enabled := form.enabled
  preferredCoreId := manifest.composition.preferredRuntime
  managedResourceId := some name
  config := form.config

def newProfile (candidate : ProtocolProfile) : NewProtocolProfile where
  name := candidate.name
  displayName := candidate.displayName
  protocolId := candidate.protocolId
  schemaVersion := candidate.schemaVersion
  role := candidate.role
  enabled := candidate.enabled
  server := candidate.server
  port := candidate.port
  preferredCoreId := candidate.preferredCoreId
  managedResourceId := candidate.managedResourceId
  config := candidate.config

variable (json) (cores) (host)

/-- The checks of `create_protocol_action`, down to the candidate. -/
def checkCreate (name protocolId : String) (role : ProxyRole) (form : ProfileForm)
    (db : Database) : Except String ProtocolProfile := do
  if !validAdapterId name then
    throw ("Stable ID must begin with a lowercase letter and contain only lowercase letters, " ++
      "digits, and hyphens.")
  else if (getProtocolProfileByName db name).isSome then throw "Profile ID already exists."
  else
    let adapter ← (builtInProtocols.get protocolId).elim
      (.error "Protocol adapter is not installed.") .ok
    let candidate := createdProfile name protocolId role form adapter.manifest
    (validateProfileForPublish json db builtInProtocols cores candidate).under host
    return candidate

def createProfile (now : DateTime) (name protocolId : String) (role : ProxyRole)
    (form : ProfileForm) (db : Database) : Except String Unit × Database :=
  match checkCreate json cores host (trim name) (trim protocolId) role form db with
  | .error message => (.error message, db)
  | .ok candidate =>
    let (result, db) := createProtocolProfile json now (newProfile candidate) db
    (discard result, db)

/-- Whether an edit touches what a runtime is built from, apart from `enabled`. -/
def profileConfigurationChanged (before after : ProtocolProfile) : Bool :=
  before.server != after.server || before.port != after.port ||
    before.preferredCoreId != after.preferredCoreId ||
    before.managedResourceId != after.managedResourceId || before.config != after.config

/-- The candidate of `update_protocol_action`. -/
def updatedProfile (existing : ProtocolProfile) (form : ProfileForm) (adapterAvailable : Bool) :
    ProtocolProfile :=
  { existing with
    displayName := form.displayName
    enabled := form.enabled
    server := form.server
    port := form.port
    config := if adapterAvailable then form.config else existing.config }

def profileUpdate (expectedUpdatedAt : DateTime) (candidate : ProtocolProfile) :
    UpdateProtocolProfile where
  name := candidate.name
  displayName := candidate.displayName
  expectedUpdatedAt := some expectedUpdatedAt
  enabled := candidate.enabled
  server := candidate.server
  port := candidate.port
  preferredCoreId := candidate.preferredCoreId
  managedResourceId := candidate.managedResourceId
  config := candidate.config

def validStoredProfileId (value : String) : Bool :=
  !isEmpty value && len value ≤ 64 &&
    value.toList.all fun c ↦ isAsciiAlphanumeric c || c = '-' || c = '_'

def storedProfile (name : String) (db : Database) : Except String ProtocolProfile := do
  if !validStoredProfileId name then throw "Invalid profile ID."
  else
    let record ← (getProtocolProfileByName db name).elim (.error "Profile not found") .ok
    decodeProtocolProfile json record

/-- The checks of `update_protocol_action`, down to the candidate. -/
def checkUpdate (name : String) (form : ProfileForm) (db : Database) :
    Except String ProtocolProfile := do
  let existing ← storedProfile json name db
  let adapterAvailable := (builtInProtocols.get existing.protocolId).isSome
  let candidate := updatedProfile existing form adapterAvailable
  let validationNeeded := profileConfigurationChanged existing candidate ||
    !existing.enabled && candidate.enabled
  if !adapterAvailable ∧ validationNeeded then
    throw "The missing adapter permits only a display-name change or disabling the profile."
  else if adapterAvailable ∧ validationNeeded then
    (validateProfileForPublish json db builtInProtocols cores candidate).under host
    return candidate
  else return candidate

/-- The checks of `set_protocol_enabled_action`, down to the candidate. -/
def checkSetEnabled (name : String) (enabled : Bool) (db : Database) :
    Except String ProtocolProfile := do
  let existing ← storedProfile json name db
  let candidate := { existing with enabled }
  if enabled ∧ !existing.enabled then
    (validateProfileForPublish json db builtInProtocols cores candidate).under host
    return candidate
  else return candidate

def writeProfile (now expectedUpdatedAt : DateTime) (checked : Except String ProtocolProfile)
    (db : Database) : Except String Unit × Database :=
  match checked with
  | .error message => (.error message, db)
  | .ok candidate =>
    let (result, db) := updateProtocolProfile json now (profileUpdate expectedUpdatedAt candidate) db
    (discard result, db)

def removeProfile (name : String) (expectedUpdatedAt : DateTime) (db : Database) :
    Except String Unit × Database :=
  if !validStoredProfileId name then (.error "Invalid profile ID.", db)
  else
    let (result, db) := deleteProtocolProfileAudited name expectedUpdatedAt db
    (discard result, db)

def PanelOp.perform (now : DateTime) (db : Database) : PanelOp → Except String Unit × Database
  | .saveSecret name value => Panel.saveSecret json name value db
  | .deleteSecret name confirm => removeSecret name confirm db
  | .createProfile name protocolId role form =>
    Panel.createProfile json cores host now name protocolId role form db
  | .updateProfile name form expectedUpdatedAt =>
    writeProfile json now expectedUpdatedAt (checkUpdate json cores host name form db) db
  | .setProfileEnabled name enabled expectedUpdatedAt =>
    writeProfile json now expectedUpdatedAt (checkSetEnabled json cores host name enabled db) db
  | .deleteProfile name expectedUpdatedAt => removeProfile name expectedUpdatedAt db

/-- The profile that an operation brings in, or gives another configuration: the handler accepts
it, the table takes its port, and an update is made on the stored version. -/
def PanelOp.Introduces (db : Database) (candidate : ProtocolProfile) : PanelOp → Prop
  | .createProfile name protocolId role form =>
    checkCreate json cores host (trim name) (trim protocolId) role form db = .ok candidate ∧
      0 < candidate.port ∧ candidate.port ≤ 65535
  | .updateProfile name form expectedUpdatedAt =>
    checkUpdate json cores host name form db = .ok candidate ∧
      0 < candidate.port ∧ candidate.port ≤ 65535 ∧
      ∃ record existing, getProtocolProfileByName db name = some record ∧
        record.updatedAt = expectedUpdatedAt ∧ decodeProtocolProfile json record = .ok existing ∧
          candidate.config ≠ existing.config
  | _ => False

/-- An accepted operation introduces a private key under a name of the panel's secrets. -/
def PanelOp.Exposes (db : Database) (op : PanelOp) : Prop :=
  ∃ candidate, op.Introduces json cores host db candidate ∧
    ∃ name ∈ listSecretNames db, KeptFromPanel candidate name

/-- The panel has no secret that a stored profile keeps from it. -/
def Isolated (db : Database) : Prop :=
  ∀ record ∈ db.profiles.rows, ∀ profile, decodeProtocolProfile json record = .ok profile →
    ∀ name ∈ listSecretNames db, ¬KeptFromPanel profile name

/-- One operation of those allowed, whenever and wherever. -/
def PanelStep (allowed : Host → Database → PanelOp → Prop) (db db' : Database) : Prop :=
  ∃ host now op, allowed host db op ∧ db' = (op.perform json cores host now db).2

variable {json} {cores} {host}

theorem isServerOnly_iff {profiles : List ProtocolProfile} :
    isServerOnlySecretReference name profiles builtInProtocols = true ↔
      ∃ profile ∈ profiles, KeptFromPanel profile name := by
  rw [isServerOnlySecretReference, List.any_eq_true]
  refine exists_congr fun profile ↦ and_congr_right fun _ ↦ ?_
  cases hadapter : builtInProtocols.get profile.protocolId with
  | none => simp [KeptFromPanel, hadapter]
  | some adapter =>
    cases hreferences : adapter.serverOnlySecretReferences profile.config with
    | error m => simp [KeptFromPanel, hadapter, hreferences]
    | ok references => simp [KeptFromPanel, hadapter, hreferences]

theorem KeptFromPanel.congr (h : KeptFromPanel profile name)
    (hprotocol : candidate.protocolId = profile.protocolId)
    (hconfig : candidate.config = profile.config) : KeptFromPanel candidate name := by
  rw [KeptFromPanel, hprotocol, hconfig]
  exact h

theorem not_kept {json : JsonProtocolAdapter}
    (hregistered : builtInProtocols.get profile.protocolId = some json.toAdapter)
    (hkey : json.implementation.hasPrivateKey = false) : ¬KeptFromPanel profile name := by
  rintro ⟨adapter, hadapter, references, hreferences, reference, hmem, -⟩
  cases Option.some.inj (hregistered.symm.trans hadapter)
  obtain ⟨⟨⟩, -, hreferences⟩ := Except.bind_eq_ok.mp hreferences
  rw [hkey] at hreferences
  cases Except.pure_eq_ok.mp hreferences
  cases hmem

/-- An accepted candidate whose private key the panel does not have is of a protocol
without one, since the panel demands every secret of a candidate. -/
theorem not_kept_of_accepted
    (haccepted :
      (validateProfileForPublish json db builtInProtocols cores candidate).under host = .ok ())
    (hhidden : ∀ name ∈ listSecretNames db, ¬KeptFromPanel candidate name)
    (hprotocol : profile.protocolId = candidate.protocolId) : ¬KeptFromPanel profile name := by
  obtain ⟨existing, -, adapter, hadmitted⟩ := validateForPublish_ok.mp haccepted
  obtain ⟨json', hdeclared, rfl, -⟩ := builtInProtocols_get.mp hadmitted.registered
  refine not_kept (hprotocol ▸ hadmitted.registered) ?_
  by_contra hkey
  rw [Bool.not_eq_false] at hkey
  obtain ⟨reference, hreference⟩ := privateKey_referenced hdeclared hkey hadmitted.config
  obtain ⟨all, hall, hnames⟩ := hadmitted.secrets
  obtain ⟨client, server, -, hserver, hunion⟩ := mem_secretReferences hall
  have hmem : reference ∈ server :=
    serverOnly_subset hdeclared hreference hserver (List.mem_singleton_self _)
  exact hhidden reference.name (hnames reference ((hunion reference).mpr (.inr hmem)))
    ⟨_, hadmitted.registered, _, hreference, reference, List.mem_singleton_self _, rfl⟩

theorem Isolated.mono (h : Isolated json db)
    (hrows : ∀ record ∈ db'.profiles.rows, ∀ profile,
      decodeProtocolProfile json record = .ok profile →
        (∃ old ∈ db.profiles.rows, ∃ before, decodeProtocolProfile json old = .ok before ∧
          before.protocolId = profile.protocolId ∧ before.config = profile.config) ∨
        ∀ name, ¬KeptFromPanel profile name)
    (hnames : ∀ name ∈ listSecretNames db', name ∈ listSecretNames db) : Isolated json db' := by
  intro record hrecord profile hdecode name hname
  rcases hrows record hrecord profile hdecode with
    ⟨old, hold, before, hbefore, hprotocol, hconfig⟩ | hnone
  · intro hkept
    exact h old hold before hbefore name (hnames name hname) (hkept.congr hprotocol hconfig)
  · exact hnone name

theorem isolated_saveSecret {value : String} (h : Isolated json db) :
    Isolated json (Panel.saveSecret json name value db).2 := by
  delta Panel.saveSecret
  cases hcheck : checkSecret json (trim name) value db with
  | error message => exact h
  | ok checked =>
    obtain ⟨-, hcheck⟩ := Except.guard_eq_ok.mp hcheck
    obtain ⟨-, hcheck⟩ := Except.guard_eq_ok.mp hcheck
    obtain ⟨profiles, hprofiles, hcheck⟩ := Except.bind_eq_ok.mp hcheck
    obtain ⟨hshared, -⟩ := Except.guard_eq_ok.mp hcheck
    intro record hrecord profile hdecode other hother
    have hstored : record ∈ db.profiles.rows := hrecord
    have hnames : other = trim name ∨ other ∈ listSecretNames db := by
      have hinserted : other ∈ (db.secrets.insert (trim (trim name)) value).keys := hother
      rwa [OrderedMap.mem_keys_insert, trim_trim] at hinserted
    rcases hnames with rfl | hold
    · intro hkept
      refine hshared (isServerOnly_iff.mpr ⟨profile, ?_, hkept⟩)
      obtain ⟨listed, hlisted, hdecoded⟩ := (Except.exists_of_mapM hprofiles).1 record
        (by simpa [listProtocolProfiles] using hstored)
      rw [hdecode] at hdecoded
      cases hdecoded
      exact hlisted
    · exact h record hstored profile hdecode other hold

theorem isolated_removeSecret {confirm : String} (h : Isolated json db) :
    Isolated json (removeSecret name confirm db).2 := by
  rw [removeSecret]
  split_ifs
  · exact h
  · rw [deleteSecret]
    rcases transact_state _ with hsame | ⟨value, hbody⟩
    · rw [hsame]
      exact h
    · split_ifs at hbody
      obtain ⟨-, hdb⟩ := Prod.mk.inj (Except.ok.inj hbody)
      rw [← hdb]
      refine h.mono (fun record hrecord profile hdecode ↦
        .inl ⟨record, by simpa using hrecord, profile, hdecode, rfl, rfl⟩) fun other hother ↦ ?_
      rw [listSecretNames, bumpWhen_secrets] at hother
      rw [listSecretNames, OrderedMap.mem_keys] at *
      obtain ⟨stored, hstored⟩ := hother
      rw [OrderedMap.get?_erase] at hstored
      split_ifs at hstored
      exact ⟨stored, hstored⟩

theorem isolated_removeProfile {expectedUpdatedAt : DateTime} (h : Isolated json db) :
    Isolated json (removeProfile name expectedUpdatedAt db).2 := by
  rw [removeProfile]
  split_ifs
  · exact h
  · simp only [deleteProtocolProfileAudited]
    rcases transact_state _ with hsame | ⟨value, hbody⟩
    · rw [hsame]
      exact h
    · obtain ⟨existing, -, -, -, -, hdb⟩ := removeProfile_ok hbody
      rw [hdb]
      refine h.mono (fun record hrecord profile hdecode ↦ .inl ⟨record, ?_, profile, hdecode, rfl, rfl⟩)
        fun other hother ↦ ?_
      · rw [bumpWhen_profiles] at hrecord
        exact (Table.mem_delete.mp hrecord).1
      · rw [listSecretNames, bumpWhen_secrets] at hother
        exact hother

theorem decodeProfile_config (h : decodeProtocolProfile json record = .ok profile) :
    json.parse record.configJson = .ok profile.config := by
  obtain ⟨config, hconfig, h⟩ := Except.bind_eq_ok.mp h
  obtain ⟨-, h⟩ := Except.guard_eq_ok.mp h
  cases Except.pure_eq_ok.mp h
  exact hconfig

theorem createProtocolProfile_state {input : NewProtocolProfile} :
    (createProtocolProfile json now input db).2 =
      (transact (insertProtocolProfile json now input) db).2 := by
  rw [createProtocolProfile]
  rcases transact (insertProtocolProfile json now input) db with ⟨_ | _, _⟩ <;> rfl

theorem updateProtocolProfile_state {input : UpdateProtocolProfile} :
    (updateProtocolProfile json now input db).2 =
      (transact (rewriteProtocolProfile json now input) db).2 := by
  rw [updateProtocolProfile]
  rcases transact (rewriteProtocolProfile json now input) db with ⟨_ | ⟨_, _ | _⟩, _⟩ <;> rfl

theorem checkCreate_ok {protocolId : String} {role : ProxyRole} {form : ProfileForm}
    (h : checkCreate json cores host name protocolId role form db = .ok candidate) :
    (validateProfileForPublish json db builtInProtocols cores candidate).under host = .ok () ∧
      candidate.protocolId = protocolId := by
  obtain ⟨-, h⟩ := Except.guard_eq_ok.mp h
  obtain ⟨-, h⟩ := Except.guard_eq_ok.mp h
  obtain ⟨adapter, -, h⟩ := Except.bind_eq_ok.mp h
  obtain ⟨⟨⟩, haccepted, h⟩ := Except.bind_eq_ok.mp h
  obtain rfl := Except.pure_eq_ok.mp h
  exact ⟨haccepted, rfl⟩

theorem isolated_createProfile {protocolId : String} {role : ProxyRole} {form : ProfileForm}
    (h : Isolated json db)
    (hexposes : ¬(PanelOp.createProfile name protocolId role form).Exposes json cores host db) :
    Isolated json (Panel.createProfile json cores host now name protocolId role form db).2 := by
  delta Panel.createProfile
  cases hcheck : checkCreate json cores host (trim name) (trim protocolId) role form db with
  | error message => exact h
  | ok candidate =>
    obtain ⟨haccepted, hprotocol⟩ := checkCreate_ok hcheck
    simp only [createProtocolProfile_state]
    rcases (transact_state _ :
        (transact (insertProtocolProfile json now (newProfile candidate)) db).2 = db ∨ _)
      with hsame | ⟨⟨⟩, hbody⟩
    · rw [hsame]
      exact h
    · have hhidden : ∀ other ∈ listSecretNames db, ¬KeptFromPanel candidate other :=
        fun other hother hkept ↦
          hexposes ⟨candidate, ⟨hcheck, insertProfile_port hbody⟩, other, hother, hkept⟩
      obtain ⟨created, profiles, -, -, ⟨hkind, -⟩, hrows, hdb⟩ := insertProfile_ok hbody
      rw [hdb]
      refine h.mono (fun record hrecord profile hdecode ↦ ?_) fun other hother ↦ ?_
      · rw [bumpWhen_profiles, hrows, List.mem_append, List.mem_singleton] at hrecord
        rcases hrecord with hold | rfl
        · exact .inl ⟨record, hold, profile, hdecode, rfl, rfl⟩
        · refine .inr fun other ↦ not_kept_of_accepted haccepted hhidden ?_
          rw [(decodeProfile_ok hdecode).2.2.2, hkind]
          show trim candidate.protocolId = candidate.protocolId
          rw [hprotocol, trim_trim]
      · rw [listSecretNames, bumpWhen_secrets] at hother
        exact hother

/-- A candidate that keeps the protocol of the stored profile is written safely if, once it is
written on the stored version, it also keeps its configuration, or its protocol keeps nothing from
the panel. -/
theorem isolated_writeProfile {expectedUpdatedAt : DateTime} {existing : ProtocolProfile}
    (hjson : ∀ text value, json.parse text = .ok value → json.parse (json.print value) = .ok value)
    (h : Isolated json db) (hstored : storedProfile json name db = .ok existing)
    (hname : candidate.name = existing.name)
    (hkeeps : ∀ record, getProtocolProfileByName db name = some record →
      record.updatedAt = expectedUpdatedAt → 0 < candidate.port → candidate.port ≤ 65535 →
        candidate.config = existing.config ∨ ∀ profile : ProtocolProfile,
          profile.protocolId = existing.protocolId → ∀ name, ¬KeptFromPanel profile name) :
    Isolated json (writeProfile json now expectedUpdatedAt (.ok candidate) db).2 := by
  obtain ⟨-, hstored⟩ := Except.guard_eq_ok.mp hstored
  obtain ⟨row, hrow, hdecoded⟩ := Except.bind_eq_ok.mp hstored
  have hget := Except.elim_eq_ok.mp hrow
  simp only [writeProfile, updateProtocolProfile_state]
  rcases (transact_state _ : (transact (rewriteProtocolProfile json now
      (profileUpdate expectedUpdatedAt candidate)) db).2 = db ∨ _) with hsame | ⟨⟨old, wrote⟩, hbody⟩
  · rw [hsame]
    exact h
  · obtain ⟨hold, hexpected, ⟨-, -, hdb⟩ | ⟨-, -, hport, profiles, hupdate, hdb⟩⟩ :=
      rewriteProfile_ok hbody
    · rw [hdb]
      exact h
    have hstamp : expectedUpdatedAt = old.updatedAt := by
      simpa only [profileUpdate, Option.any_some, decide_eq_false_iff_not, not_not] using hexpected
    have hsameRow : old = row := by
      refine eq_of_name (getByName_some hold).1 (getByName_some hget).1 ?_
      rw [(getByName_some hold).2, (getByName_some hget).2]
      have hcandidate : candidate.name = trim name := by
        rw [hname, (decodeProfile_ok hdecoded).2.1, (getByName_some hget).2]
      show trim candidate.name = trim name
      rw [hcandidate, trim_trim]
    subst hsameRow
    rw [hdb]
    refine h.mono (fun record hrecord profile hdecode ↦ ?_) fun other hother ↦ ?_
    · rw [bumpWhen_profiles, Table.mem_update hupdate] at hrecord
      rcases hrecord with ⟨row, hmem, hselected, rfl⟩ | ⟨hmem, -⟩
      · have hprotocol : profile.protocolId = existing.protocolId := by
          rw [(decodeProfile_ok hdecode).2.2.2, (decodeProfile_ok hdecoded).2.2.2]
          rfl
        rcases hkeeps old hget hstamp.symm hport.1 hport.2 with hconfig | hnone
        · refine .inl ⟨old, (getByName_some hget).1, existing, hdecoded, hprotocol.symm, ?_⟩
          have hread := hjson _ _ (decodeProfile_config hdecoded)
          have hwritten : json.parse (json.print candidate.config) = .ok profile.config :=
            decodeProfile_config hdecode
          rw [hconfig, hread] at hwritten
          exact Except.ok.inj hwritten
        · exact .inr (hnone profile hprotocol)
      · exact .inl ⟨record, hmem, profile, hdecode, rfl, rfl⟩
    · rw [listSecretNames, bumpWhen_secrets] at hother
      exact hother

theorem config_of_unchanged
    (h : profileConfigurationChanged profile candidate = false) : candidate.config = profile.config := by
  simp only [profileConfigurationChanged, Bool.or_eq_false_iff, bne_eq_false_iff_eq] at h
  exact h.2.symm

theorem storedProfile_ok (h : storedProfile json name db = .ok profile)
    (hget : getProtocolProfileByName db name = some record) :
    decodeProtocolProfile json record = .ok profile := by
  obtain ⟨-, h⟩ := Except.guard_eq_ok.mp h
  obtain ⟨row, hrow, hdecoded⟩ := Except.bind_eq_ok.mp h
  cases hget.symm.trans (Except.elim_eq_ok.mp hrow)
  exact hdecoded

theorem isolated_updateProfile {form : ProfileForm} {expectedUpdatedAt : DateTime}
    (hjson : ∀ text value, json.parse text = .ok value → json.parse (json.print value) = .ok value)
    (h : Isolated json db)
    (hexposes : ¬(PanelOp.updateProfile name form expectedUpdatedAt).Exposes json cores host db) :
    Isolated json
      (writeProfile json now expectedUpdatedAt (checkUpdate json cores host name form db) db).2 := by
  cases hcheck : checkUpdate json cores host name form db with
  | error message => exact h
  | ok candidate =>
    have hchecked := hcheck
    obtain ⟨existing, hstored, hcheck⟩ := Except.bind_eq_ok.mp hcheck
    obtain ⟨-, hcheck⟩ := Except.guard_eq_ok.mp hcheck
    have hcandidate : updatedProfile existing form
        (builtInProtocols.get existing.protocolId).isSome = candidate := by
      split_ifs at hcheck
      · obtain ⟨⟨⟩, -, hcheck⟩ := Except.bind_eq_ok.mp hcheck
        exact Except.pure_eq_ok.mp hcheck
      · exact Except.pure_eq_ok.mp hcheck
    subst hcandidate
    by_cases hconfig : (updatedProfile existing form
        (builtInProtocols.get existing.protocolId).isSome).config = existing.config
    · exact isolated_writeProfile hjson h hstored rfl fun _ _ _ _ _ ↦ .inl hconfig
    · have havailable : (builtInProtocols.get existing.protocolId).isSome = true := by
        by_contra hmissing
        exact hconfig (if_neg hmissing)
      rw [havailable] at hcheck hconfig hchecked ⊢
      have hchanged : profileConfigurationChanged existing (updatedProfile existing form true) := by
        by_contra hunchanged
        exact hconfig (config_of_unchanged (by simpa using hunchanged))
      rw [if_pos ⟨rfl, by rw [hchanged]; rfl⟩] at hcheck
      obtain ⟨⟨⟩, haccepted, -⟩ := Except.bind_eq_ok.mp hcheck
      refine isolated_writeProfile hjson h hstored rfl fun record hget hstamp hport hsmall ↦
        .inr fun profile hprotocol other ↦ ?_
      refine not_kept_of_accepted haccepted (fun hidden hhidden hkept ↦ ?_) hprotocol
      have hdecoded := storedProfile_ok hstored hget
      exact hexposes ⟨_, ⟨hchecked, hport, hsmall, record, existing, hget, hstamp, hdecoded, hconfig⟩,
        hidden, hhidden, hkept⟩

theorem isolated_setProfileEnabled {enabled : Bool} {expectedUpdatedAt : DateTime}
    (hjson : ∀ text value, json.parse text = .ok value → json.parse (json.print value) = .ok value)
    (h : Isolated json db) : Isolated json (writeProfile json now expectedUpdatedAt
      (checkSetEnabled json cores host name enabled db) db).2 := by
  cases hcheck : checkSetEnabled json cores host name enabled db with
  | error message => exact h
  | ok candidate =>
    obtain ⟨existing, hstored, hcheck⟩ := Except.bind_eq_ok.mp hcheck
    have hconfig : candidate.name = existing.name ∧ candidate.config = existing.config := by
      split_ifs at hcheck
      · obtain ⟨⟨⟩, -, hcheck⟩ := Except.bind_eq_ok.mp hcheck
        cases Except.pure_eq_ok.mp hcheck
        exact ⟨rfl, rfl⟩
      · cases Except.pure_eq_ok.mp hcheck
        exact ⟨rfl, rfl⟩
    exact isolated_writeProfile hjson h hstored hconfig.1 fun _ _ _ _ _ ↦ .inl hconfig.2

theorem isolated_perform {op : PanelOp}
    (hjson : ∀ text value, json.parse text = .ok value → json.parse (json.print value) = .ok value)
    (h : Isolated json db) (hexposes : ¬op.Exposes json cores host db) :
    Isolated json (op.perform json cores host now db).2 := by
  cases op with
  | saveSecret name value =>
    rw [PanelOp.perform]
    exact isolated_saveSecret h
  | deleteSecret name confirm => exact isolated_removeSecret h
  | createProfile name protocolId role form =>
    rw [PanelOp.perform]
    exact isolated_createProfile h hexposes
  | updateProfile name form expectedUpdatedAt => exact isolated_updateProfile hjson h hexposes
  | setProfileEnabled name enabled expectedUpdatedAt => exact isolated_setProfileEnabled hjson h
  | deleteProfile name expectedUpdatedAt => exact isolated_removeProfile h

/-- From a store without secrets, as the bootstrap leaves it, no operation lets the panel
have a secret that a stored profile keeps from it, unless it introduces a profile whose
private key the panel already has. A document that was read is printed so that it reads
the same. -/
theorem secrets_isolated (json : Json) (cores : CoreRegistry) (start db : Database)
    (hjson : ∀ text value, json.parse text = .ok value → json.parse (json.print value) = .ok value)
    (hstart : start.secrets = .empty)
    (hrun : Relation.ReflTransGen
      (PanelStep json cores fun host db op ↦ ¬op.Exposes json cores host db) start db) :
    Isolated json db := by
  induction hrun with
  | refl =>
    intro record _ profile _ name hname
    rw [listSecretNames, hstart] at hname
    cases hname
  | tail _ hstep ih =>
    obtain ⟨host, now, op, hexposes, rfl⟩ := hstep
    exact isolated_perform hjson ih hexposes

def oneDocument (value : Value) : Json where
  print := fun _ ↦ "document"
  parse := fun _ ↦ .ok value
  reads := fun _ ↦ ⟨value, rfl⟩

def realityForm : ProfileForm where
  displayName := "Reality"
  enabled := false
  server := "node.example.test"
  port := 8443
  config := realityConfig

def savedSecrets : Database :=
  { initDb with
    desiredGeneration := 3
    secrets := .ofList [("node.public", "pub"), ("node.short", "ab12"), ("node.key", "value")] }

def createReality : PanelOp :=
  .createProfile "reality" "vless-reality-tcp" .autoSafe realityForm

def createdReality : ProtocolProfile :=
  createdProfile "reality" "vless-reality-tcp" .autoSafe realityForm vlessRealityTcp.manifest

theorem reality_admitted : Admitted readyHost builtInProtocols builtInCores []
    (listSecretNames savedSecrets) createdReality vlessRealityTcp.toAdapter where
  displayName := by decide
  registered := reality_registered
  config := by rfl
  secrets := by
    obtain ⟨references, hreferences⟩ := secretReferences_ok
      (show vlessRealityTcp.toAdapter.clientSecretReferences realityConfig =
        .ok realityClientReferences from rfl)
      (show vlessRealityTcp.toAdapter.serverSecretReferences realityConfig =
        .ok realityServerReferences from rfl)
    refine ⟨references, hreferences, fun reference hmem ↦ ?_⟩
    obtain ⟨client, server, hclient, hserver, hunion⟩ := mem_secretReferences hreferences
    have hclientReferences : realityClientReferences = client := Except.ok.inj hclient
    have hserverReferences : realityServerReferences = server := Except.ok.inj hserver
    rw [hunion, ← hclientReferences, ← hserverReferences] at hmem
    rcases hmem with hmem | hmem
    · rcases List.mem_pair.mp hmem with rfl | rfl <;> decide
    · rcases List.mem_pair.mp hmem with rfl | rfl <;> decide
  runtime := by
    refine validateRuntime_preferred.mpr ⟨⟨(ManagedCoreAdapter.new "mihomo" "Mihomo"
      "infiproxy-mihomo.service" .mihomo mihomoCapabilities 200).manifest⟩, ?_, by decide⟩
    exact builtInCores_get.mpr ⟨by simp [coreAdapters, builtInAdapters], rfl⟩
  listener := fun _ ↦ nofun
  core := nofun

theorem reality_checked : checkCreate (oneDocument realityConfig) builtInCores readyHost
    (trim "reality") (trim "vless-reality-tcp") .autoSafe realityForm savedSecrets =
      .ok createdReality := by
  refine Except.guard_eq_ok.mpr ⟨by decide, Except.guard_eq_ok.mpr ⟨by decide, ?_⟩⟩
  refine Except.bind_eq_ok.mpr ⟨vlessRealityTcp.toAdapter, ?_, ?_⟩
  · exact Except.elim_eq_ok.mpr reality_registered
  · refine Except.bind_eq_ok.mpr ⟨(), ?_, rfl⟩
    exact validateForPublish_ok.mpr ⟨[], rfl, _, reality_admitted⟩

theorem perform_saveSecret {value : String}
    (h : checkSecret json (trim name) value db = .ok ()) :
    ((PanelOp.saveSecret name value).perform json cores host now db).2 =
      (upsertSecret (trim name) value db).2 := by
  rw [PanelOp.perform]
  delta Panel.saveSecret
  rw [h]

theorem perform_createProfile {protocolId : String} {role : ProxyRole} {form : ProfileForm}
    (h : checkCreate json cores host (trim name) (trim protocolId) role form db = .ok candidate) :
    ((PanelOp.createProfile name protocolId role form).perform json cores host now db).2 =
      (createProtocolProfile json now (newProfile candidate) db).2 := by
  rw [PanelOp.perform]
  delta Panel.createProfile
  rw [h]

theorem saved_step {value : String}
    (h : checkSecret (oneDocument realityConfig) (trim name) value db = .ok ()) :
    PanelStep (oneDocument realityConfig) builtInCores (fun _ _ _ ↦ True) db
      (upsertSecret (trim name) value db).2 :=
  ⟨readyHost, 0, .saveSecret name value, trivial, (perform_saveSecret h).symm⟩

theorem savedSecrets_reached : Relation.ReflTransGen
    (PanelStep (oneDocument realityConfig) builtInCores fun _ _ _ ↦ True) initDb savedSecrets := by
  let first := (upsertSecret (trim "node.public") "pub" initDb).2
  let second := (upsertSecret (trim "node.short") "ab12" first).2
  have hpublic := @saved_step initDb "node.public" "pub" (by decide)
  have hshort := @saved_step first "node.short" "ab12" (by decide)
  have hkey := @saved_step second "node.key" "value" (by decide)
  exact ((Relation.ReflTransGen.single hpublic).tail hshort).tail hkey

theorem saved_key_becomes_private :
    ¬∀ (json : Json) (cores : CoreRegistry) (start db : Database),
      (∀ text value, json.parse text = .ok value → json.parse (json.print value) = .ok value) →
      start.secrets = .empty →
      Relation.ReflTransGen (PanelStep json cores fun _ _ _ ↦ True) start db → Isolated json db := by
  intro hall
  have hstep : ∀ (db : Database) (op : PanelOp),
      PanelStep (oneDocument realityConfig) builtInCores (fun _ _ _ ↦ True) db
        (op.perform (oneDocument realityConfig) builtInCores readyHost 0 db).2 :=
    fun db op ↦ ⟨readyHost, 0, op, trivial, rfl⟩
  have hisolated := hall (oneDocument realityConfig) builtInCores initDb _ (fun _ _ h ↦ h) rfl
    (savedSecrets_reached.tail (hstep _ createReality))
  have hcreated : (createReality.perform (oneDocument realityConfig) builtInCores readyHost 0
      savedSecrets).2 = (createProtocolProfile (oneDocument realityConfig) 0
        (newProfile createdReality) savedSecrets).2 := perform_createProfile reality_checked
  rw [hcreated] at hisolated
  have hkept : KeptFromPanel { createdReality with managedResourceId := some "reality" } "node.key" :=
    ⟨_, reality_registered, [⟨"node.key", rfl⟩], rfl, _, List.mem_singleton_self _, rfl⟩
  exact hisolated _ (List.mem_singleton_self _) _ rfl "node.key" (by decide) hkept

def storedRealityConfig : Value := .object
  [("private_key_secret", .string "node.key"), ("public_key_secret", .string "node.public"),
    ("server_name", .string "www.example.test"), ("short_id_secret", .string "node.short")]

def storedRealityText : String :=
  "\x7b\"private_key_secret\":\"node.key\",\"public_key_secret\":\"node.public\"," ++
    "\"server_name\":\"www.example.test\",\"short_id_secret\":\"node.short\"\x7d"

def realityDocument : Json := knownDocuments (storedRealityText, storedRealityConfig) []

theorem realityPort_valid : 0 < 8443 ∧ 8443 ≤ 65535 := by decide

def realityRecord : ProtocolProfileRecord where
  id := 1
  name := "reality"
  displayName := "Reality"
  kind := "vless-reality-tcp"
  role := .autoSafe
  enabled := false
  server := "node.example.test"
  port := 8443
  configJson := storedRealityText
  schemaVersion := 1
  preferredCoreId := some "mihomo"
  managedResourceId := some "reality"
  createdAt := 0
  updatedAt := 0
  port_valid := realityPort_valid
  schema_valid := Nat.zero_lt_one

def realityStore : Database :=
  { initDb with
    profiles := ⟨[realityRecord], List.pairwise_singleton _ _⟩
    nextProfileId := 2 }

def storedReality : ProtocolProfile :=
  { realityProfile with enabled := false, config := storedRealityConfig }

theorem realityStore_listed : listProtocolProfilesDecoded realityDocument realityStore =
    .ok [storedReality] := by
  have hdecoded : decodeProtocolProfile realityDocument realityRecord = .ok storedReality :=
    Except.bind_eq_ok.mpr ⟨_, parse_first _ _, rfl⟩
  have hlisted : listProtocolProfiles realityStore = [realityRecord] := rfl
  rw [listProtocolProfilesDecoded, hlisted, List.mapM_cons, hdecoded]
  rfl

theorem storedReality_keeps : KeptFromPanel storedReality name ↔ name = "node.key" := by
  constructor
  · rintro ⟨adapter, hadapter, references, hreferences, reference, hmem, rfl⟩
    cases Option.some.inj (reality_registered.symm.trans hadapter)
    have hkey : vlessRealityTcp.toAdapter.serverOnlySecretReferences storedRealityConfig =
        .ok [⟨"node.key", rfl⟩] := rfl
    cases hkey.symm.trans hreferences
    rw [List.mem_singleton.mp hmem]
  · rintro rfl
    exact ⟨_, reality_registered, [⟨"node.key", rfl⟩], rfl, _, List.mem_singleton_self _, rfl⟩

def savedShortId : Database :=
  ((PanelOp.saveSecret "node.short" "ab12").perform realityDocument builtInCores readyHost 0
    realityStore).2

theorem savedShortId_names : listSecretNames savedShortId = ["node.short"] := by
  have hshared : isServerOnlySecretReference (trim "node.short") [storedReality] builtInProtocols =
      false := by
    rw [← Bool.not_eq_true, isServerOnly_iff]
    rintro ⟨profile, hmem, hkept⟩
    rw [List.mem_singleton.mp hmem, storedReality_keeps] at hkept
    exact absurd hkept (by decide)
  have hcheck : checkSecret realityDocument (trim "node.short") "ab12" realityStore = .ok () := by
    refine Except.guard_eq_ok.mpr ⟨by decide, Except.guard_eq_ok.mpr ⟨by decide, ?_⟩⟩
    refine Except.bind_eq_ok.mpr ⟨_, realityStore_listed, Except.guard_eq_ok.mpr ⟨?_, rfl⟩⟩
    rw [hshared]
    exact Bool.false_ne_true
  rw [savedShortId, perform_saveSecret hcheck]
  rfl

theorem secrets_isolated_saved :
    listSecretNames savedShortId = ["node.short"] ∧ KeptFromPanel storedReality "node.key" ∧
      Isolated realityDocument ((PanelOp.saveSecret "node.key" "value").perform realityDocument
        builtInCores readyHost 0 savedShortId).2 := by
  have hsave : ∀ (db : Database) (name value : String),
      PanelStep realityDocument builtInCores
        (fun host db op ↦ ¬op.Exposes realityDocument builtInCores host db) db
        ((PanelOp.saveSecret name value).perform realityDocument builtInCores readyHost 0 db).2 :=
    fun _ name value ↦ ⟨readyHost, 0, .saveSecret name value, fun ⟨_, h, _⟩ ↦ h, rfl⟩
  have hsaved : PanelStep realityDocument builtInCores
      (fun host db op ↦ ¬op.Exposes realityDocument builtInCores host db) realityStore
        savedShortId := by
    rw [savedShortId]
    exact hsave realityStore "node.short" "ab12"
  refine ⟨savedShortId_names, storedReality_keeps.mpr rfl, ?_⟩
  refine secrets_isolated realityDocument builtInCores realityStore _ (fun text value hparse ↦ ?_) rfl
    ((Relation.ReflTransGen.single hsaved).tail (hsave savedShortId "node.key" "value"))
  rw [List.mem_singleton.mp (parse_knownDocuments hparse), realityDocument, print_only]
  exact parse_first _ _

end StealthHub.Panel

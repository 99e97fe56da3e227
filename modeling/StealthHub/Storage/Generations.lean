import StealthHub.Storage.Profiles
import StealthHub.Users.Authorization

set_option autoImplicit false

namespace StealthHub.Storage

open Text Users

/-- What a runtime is built from of one profile. -/
structure RuntimeProfile where
  name : String
  protocolId : String
  schemaVersion : ℕ
  server : String
  port : ℕ
  config : Except String Value
  preferredCoreId : Option String
  managedResourceId : Option String

/-- What the runtimes are built from at an instant. -/
structure RuntimeView where
  profiles : List RuntimeProfile
  users : Finset (String × String)
  subscriptionDomain : Option String
  nodeDomain : Option String

section View

variable (json : Json)

def ProtocolProfileRecord.runtime (record : ProtocolProfileRecord) : RuntimeProfile where
  name := record.name
  protocolId := record.kind
  schemaVersion := record.schemaVersion
  server := record.server
  port := record.port
  config := json.parse record.configJson
  preferredCoreId := record.preferredCoreId
  managedResourceId := record.managedResourceId

def runtimeProfiles (rows : List ProtocolProfileRecord) : List RuntimeProfile :=
  (rows.filter (·.enabled)).map (·.runtime json)

def runtimeView (t : DateTime) (db : Database) : RuntimeView where
  profiles := runtimeProfiles json db.profiles.rows
  users := authorized db.toDatabase t
  subscriptionDomain := db.settings.get? "subscription_domain"
  nodeDomain := db.settings.get? "node_domain"

/-- A call that commits a changed view has advanced the generation with it; a call
that returns an error has changed neither. -/
def Disciplined {α : Type} (t : DateTime) (db : Database) (result : Except String α × Database) :
    Prop :=
  match result.1 with
  | .ok _ => runtimeView json t result.2 ≠ runtimeView json t db →
      db.desiredGeneration < result.2.desiredGeneration
  | .error _ => runtimeView json t result.2 = runtimeView json t db ∧
      result.2.desiredGeneration = db.desiredGeneration

end View

def runtimeKeys : List String := ["subscription_domain", "node_domain"]

/-- The calls that write to the store. -/
inductive Mutator
  | createProtocolProfile (input : NewProtocolProfile)
  | updateProtocolProfile (input : UpdateProtocolProfile)
  | deleteProtocolProfileAudited (name : String) (expectedUpdatedAt : DateTime)
  | migrateProtocolAdapterConfigs (registry : ProtocolRegistry)
  | user (action : Users.Action)
  | markUserLifecycleReconcilePublished (generation : ℕ)
  | upsertSettings (values : List (String × String))
  | upsertSecret (name value : String)
  | deleteSecret (name : String)

def actUser (t : DateTime) (action : Users.Action) (db : Database) : Except String Unit × Database :=
  transact (fun db ↦ do
    let users ← action.run t db.toDatabase
    return ((), { db with toDatabase := users })) db

variable (json : Json)

def Mutator.run (t : DateTime) (db : Database) : Mutator → Except String Unit × Database
  | .createProtocolProfile input =>
    (Storage.createProtocolProfile json t input db).map (·.map fun _ ↦ ()) id
  | .updateProtocolProfile input =>
    (Storage.updateProtocolProfile json t input db).map (·.map fun _ ↦ ()) id
  | .deleteProtocolProfileAudited name expected =>
    (Storage.deleteProtocolProfileAudited name expected db).map (·.map fun _ ↦ ()) id
  | .migrateProtocolAdapterConfigs registry =>
    Storage.migrateProtocolAdapterConfigs json registry t db
  | .user action => actUser t action db
  | .markUserLifecycleReconcilePublished generation =>
    (.ok (), { db with
      toDatabase := Users.markUserLifecycleReconcilePublished generation db.toDatabase })
  | .upsertSettings values =>
    (upsertSettingsWithRuntimeKeys values runtimeKeys db).map (·.map fun _ ↦ ()) id
  | .upsertSecret name value => Storage.upsertSecret name value db
  | .deleteSecret name => Storage.deleteSecret name db

def Rejected (registry : ProtocolRegistry) (record : ProtocolProfileRecord) : Prop :=
  ∃ adapter, registry.get record.kind = some adapter ∧
    ¬∃ config version migrated, json.parse record.configJson = .ok config ∧
      record.schemaVersion ≤ 4294967295 ∧
      adapter.migrateConfig record.schemaVersion config = .ok (version, migrated) ∧ 0 < version

/-- The migration has nothing to do for the profile: it is in its adapter's schema,
with its core and its resource chosen. -/
structure Current (registry : ProtocolRegistry) (record : ProtocolProfileRecord) : Prop where
  schema : ∀ adapter config version migrated, registry.get record.kind = some adapter →
    json.parse record.configJson = .ok config →
    adapter.migrateConfig record.schemaVersion config = .ok (version, migrated) →
    version = record.schemaVersion ∧ json.parse (json.print migrated) = .ok config
  core : (registry.get record.kind).isSome = true → record.preferredCoreId = none →
    legacyRuntimePreference record.kind = none
  resource : (registry.get record.kind).isSome = true → record.managedResourceId ≠ none

/-- The value under a key after a group of settings is written. -/
def latest (settings : OrderedMap String String) (values : List (String × String)) (key : String) :
    Option String :=
  ((values.reverse.find? fun entry ↦ trim entry.1 = key).map (·.2)).or (settings.get? key)

def Announces (settings : OrderedMap String String) (values : List (String × String)) : Prop :=
  ∃ before entry after, values = before ++ entry :: after ∧ entry.1 ∈ runtimeKeys ∧
    latest settings before (trim entry.1) ≠ some entry.2

def unlisted (values : List (String × String)) : List (String × String) :=
  values.filter fun entry ↦ entry.1 ∉ runtimeKeys

/-- When a call announces what it changes: a migration of which some row is rejected
or all enabled ones are current, settings that an exactly named entry changes or that
the other entries leave as they are. -/
def Mutator.Announced (db : Database) : Mutator → Prop
  | .migrateProtocolAdapterConfigs registry =>
    (∃ record ∈ db.profiles.rows, Rejected json registry record) ∨
      ∀ record ∈ db.profiles.rows, record.enabled = true → Current json registry record
  | .upsertSettings values => Announces db.settings values ∨
      ∀ key ∈ runtimeKeys, latest db.settings (unlisted values) key = db.settings.get? key
  | _ => True

variable {json} {t : DateTime} {db db' : Database} {registry : ProtocolRegistry}
variable {record row : ProtocolProfileRecord} {rows rows' : List ProtocolProfileRecord}

theorem disciplined_error {α : Type} {message : String} :
    Disciplined json t db ((.error message, db) : Except String α × Database) :=
  ⟨rfl, rfl⟩

theorem disciplined_ok {α : Type} {value : α}
    (h : db.desiredGeneration < db'.desiredGeneration ∨
      runtimeView json t db' = runtimeView json t db) :
    Disciplined json t db ((.ok value, db') : Except String α × Database) := by
  intro hchanged
  exact h.resolve_right hchanged

theorem disciplined_map {α : Type} {result : Except String α × Database} :
    Disciplined json t db (result.map (·.map fun _ ↦ ()) id) ↔ Disciplined json t db result := by
  obtain ⟨outcome, db'⟩ := result
  cases outcome with
  | ok value => exact Iff.rfl
  | error message => exact Iff.rfl

theorem runtimeProfiles_eq (h : List.Forall₂ (fun row row' ↦ row'.enabled = row.enabled) rows rows') :
    runtimeProfiles json rows' = runtimeProfiles json rows ↔
      List.Forall₂ (fun row row' ↦ row.enabled = true → row'.runtime json = row.runtime json)
        rows rows' := by
  induction h with
  | nil => exact ⟨fun _ ↦ .nil, fun _ ↦ rfl⟩
  | @cons row row' rows rows' henabled _ ih =>
    rw [List.forall₂_cons, ← ih]
    cases hrow : row.enabled with
    | false => simp [runtimeProfiles, hrow, henabled]
    | true => simp [runtimeProfiles, hrow, henabled]

theorem runtimeView_eq (hprofiles : runtimeProfiles json db'.profiles.rows =
    runtimeProfiles json db.profiles.rows) (husers : db'.users = db.users)
    (hsettings : db'.settings = db.settings) : runtimeView json t db' = runtimeView json t db := by
  simp only [runtimeView, authorized, hprofiles, husers, hsettings]

theorem apply_runtime {input : UpdateProtocolProfile} {hport : 0 < input.port ∧ input.port ≤ 65535}
    (h : input.runtimeDiffers json record = false) :
    (input.apply json t record hport).runtime json = record.runtime json := by
  simp only [UpdateProtocolProfile.runtimeDiffers, Bool.or_eq_false_iff, bne_eq_false_iff_eq] at h
  obtain ⟨⟨⟨⟨hserver, hportEq⟩, hconfig⟩, hcore⟩, hresource⟩ := h
  simp [ProtocolProfileRecord.runtime, UpdateProtocolProfile.apply, hserver, hportEq, hconfig,
    hcore, hresource]

theorem createProtocolProfile_disciplined {input : NewProtocolProfile} :
    Disciplined json t db (createProtocolProfile json t input db) := by
  cases hbody : insertProtocolProfile json t input db with
  | error message =>
    rw [createProtocolProfile, transact_error hbody]
    exact disciplined_error
  | ok inserted =>
    obtain ⟨created, hcreated⟩ := createProfile_ok hbody
    rw [hcreated]
    obtain ⟨record, profiles, -, henabled, -, hrows, hdb⟩ := insertProfile_ok hbody
    rw [hdb]
    apply disciplined_ok
    cases hinput : input.enabled with
    | true =>
      left
      rw [bumpWhen_generation]
      exact Nat.lt_succ_self _
    | false =>
      right
      have hdisabled : record.enabled = false := henabled.trans hinput
      apply runtimeView_eq
      · rw [bumpWhen_profiles, hrows]
        simp [runtimeProfiles, hdisabled]
      · rw [bumpWhen_users]
      · rw [bumpWhen_settings]

theorem updateProtocolProfile_disciplined {input : UpdateProtocolProfile} :
    Disciplined json t db (updateProtocolProfile json t input db) := by
  cases hbody : rewriteProtocolProfile json t input db with
  | error message =>
    rw [updateProtocolProfile, transact_error hbody]
    exact disciplined_error
  | ok outcome =>
    obtain ⟨⟨existing, wrote⟩, db'⟩ := outcome
    obtain ⟨updated, hupdated⟩ := updateProfile_ok hbody
    rw [hupdated]
    obtain ⟨hget, -, hwrote⟩ := rewriteProfile_ok hbody
    apply disciplined_ok
    rcases hwrote with ⟨-, -, rfl⟩ | ⟨-, -, hport, profiles, hupdate, rfl⟩
    · exact .inr rfl
    have hrows := Table.update_some hupdate
    cases hchanged : input.runtimeChanged json existing with
    | true =>
      left
      rw [bumpWhen_generation]
      exact Nat.lt_succ_self _
    | false =>
      right
      simp only [UpdateProtocolProfile.runtimeChanged, Bool.or_eq_false_iff, bne_eq_false_iff_eq,
        Bool.and_eq_false_iff] at hchanged
      apply runtimeView_eq
      · rw [bumpWhen_profiles, hrows, runtimeProfiles_eq]
        · rw [List.forall₂_map_right_iff, List.forall₂_same]
          intro row hrow henabled
          split
          next hselected =>
            cases (update_selects hget hrow).mp hselected
            apply apply_runtime
            exact hchanged.2.resolve_left (by simp [hchanged.1, henabled])
          next => rfl
        · rw [List.forall₂_map_right_iff, List.forall₂_same]
          intro row hrow
          split
          next hselected =>
            cases (update_selects hget hrow).mp hselected
            exact hchanged.1
          next => rfl
      · rw [bumpWhen_users]
      · rw [bumpWhen_settings]

theorem deleteProtocolProfile_disciplined {name : String} {expected : DateTime} :
    Disciplined json t db (deleteProtocolProfileAudited name expected db) := by
  unfold deleteProtocolProfileAudited
  cases hbody : removeProtocolProfile name expected db with
  | error message =>
    rw [transact_error hbody]
    exact disciplined_error
  | ok outcome =>
    rw [transact_ok hbody]
    obtain ⟨enabled, db'⟩ := outcome
    obtain ⟨existing, hget, -, -, -, rfl⟩ := removeProfile_ok hbody
    obtain ⟨hmem, hname⟩ := getByName_some hget
    apply disciplined_ok
    cases henabled : existing.enabled with
    | true =>
      left
      rw [bumpWhen_generation]
      exact Nat.lt_succ_self _
    | false =>
      right
      apply runtimeView_eq
      · rw [bumpWhen_profiles]
        simp only [runtimeProfiles, Table.delete, List.filter_filter]
        congr 1
        apply List.filter_congr
        intro row hrow
        by_cases hrowName : row.name = trim name
        · rw [eq_of_name hrow hmem (hrowName.trans hname.symm), henabled]
          rfl
        · simp [hrowName]
      · rw [bumpWhen_users]
      · rw [bumpWhen_settings]

theorem action_authorized {action : Users.Action} {users users' : Users.Database}
    (h : action.run t users = .ok users') :
    users.desiredGeneration < users'.desiredGeneration ∨
      authorized users' t = authorized users t := by
  have hedited : ∀ {current updated bumped}, Edited t users users' current updated bumped →
      users.desiredGeneration < users'.desiredGeneration ∨
        authorized users' t = authorized users t := by
    intro current updated bumped he
    cases bumped with
    | true => exact .inl (by simp [he.generation])
    | false => exact .inr he.authorized_eq
  cases action with
  | createUser uuid token input =>
    obtain ⟨⟨user, _⟩, hrun, rfl⟩ := Except.map_eq_ok.mp h
    exact .inl (by simp [(createUser_created hrun).generation])
  | updateUserAudited input =>
    obtain ⟨⟨result, _⟩, hrun, rfl⟩ := Except.map_eq_ok.mp h
    obtain ⟨_, _, _, -, -, he⟩ := updateUser_edited hrun
    exact hedited he
  | rotateUserRuntimeIdentityAudited id expected replacement =>
    obtain ⟨⟨result, _⟩, hrun, rfl⟩ := Except.map_eq_ok.mp h
    obtain ⟨_, _, he⟩ := rotate_edited hrun
    exact hedited he
  | setUserEnabled id enabled =>
    obtain ⟨⟨result, _⟩, hrun, rfl⟩ := Except.map_eq_ok.mp h
    obtain ⟨_, _, _, -, -, he⟩ := setEnabled_edited hrun
    exact hedited he
  | resetUserSubscriptionToken id token =>
    obtain ⟨⟨newToken, _⟩, hrun, rfl⟩ := Except.map_eq_ok.mp h
    obtain rfl : token = newToken := by
      obtain ⟨_, -, hrun⟩ := Except.bind_eq_ok.mp hrun
      obtain ⟨_, -, hrun⟩ := Except.bind_eq_ok.mp hrun
      exact congrArg Prod.fst (Except.pure_eq_ok.mp hrun)
    obtain ⟨_, _, -, he⟩ := resetToken_edited hrun
    exact hedited he
  | deleteUser id =>
    obtain ⟨⟨result, _⟩, hrun, rfl⟩ := Except.map_eq_ok.mp h
    obtain ⟨current, -, hd⟩ := deleteUser_deleted hrun
    cases hallowed : (current.accessStateAt t).allowed with
    | true => exact .inl (by simp [hd.generation, hallowed])
    | false => exact .inr (hd.authorized_eq hallowed)
  | evaluateUserLifecycle scope =>
    obtain ⟨⟨result, _⟩, hrun, rfl⟩ := Except.map_eq_ok.mp h
    obtain ⟨_, he⟩ := evaluate_evaluated hrun
    exact .inr (by simp only [authorized, he.users])

theorem actUser_disciplined {action : Users.Action} :
    Disciplined json t db (actUser t action db) := by
  unfold actUser transact
  cases haction : action.run t db.toDatabase with
  | error message =>
    simp only [haction, bind, Except.bind]
    exact disciplined_error
  | ok users =>
    simp only [haction, bind, Except.bind, pure, Except.pure]
    apply disciplined_ok
    rcases action_authorized haction with hlt | heq
    · exact .inl hlt
    · right
      simp only [runtimeView]
      rw [heq]

theorem current_iff {adapter : ProtocolAdapter} {config migrated : Value} {version : ℕ}
    (hadapter : registry.get record.kind = some adapter)
    (hconfig : json.parse record.configJson = .ok config)
    (hmigrate : adapter.migrateConfig record.schemaVersion config = .ok (version, migrated)) :
    Current json registry record ↔
      version = record.schemaVersion ∧ json.parse (json.print migrated) = .ok config ∧
        (record.preferredCoreId.orElse fun _ ↦ legacyRuntimePreference record.kind) =
          record.preferredCoreId ∧
        (record.managedResourceId.orElse fun _ ↦ some s!"legacy-profile-{record.id}") =
          record.managedResourceId := by
  constructor
  · intro hcurrent
    obtain ⟨hversion, hparse⟩ := hcurrent.schema adapter config version migrated hadapter hconfig
      hmigrate
    refine ⟨hversion, hparse, ?_, ?_⟩
    · cases hcore : record.preferredCoreId with
      | none => exact hcurrent.core (by simp [hadapter]) hcore
      | some core => rfl
    · cases hresource : record.managedResourceId with
      | none => exact absurd hresource (hcurrent.resource (by simp [hadapter]))
      | some resource => rfl
  · rintro ⟨hversion, hparse, hcore, hresource⟩
    refine ⟨?_, ?_, ?_⟩
    · intro adapter' config' version' migrated' hadapter' hconfig' hmigrate'
      cases hadapter.symm.trans hadapter'
      cases hconfig.symm.trans hconfig'
      cases hmigrate.symm.trans hmigrate'
      exact ⟨hversion, hparse⟩
    · intro _ hnone
      rw [hnone] at hcore
      exact hcore
    · intro _ hnone
      rw [hnone] at hresource
      cases hresource

theorem migrateRecord_ok (h : migrateRecord json registry t record = .ok row) :
    row.id = record.id ∧ row.name = record.name ∧ row.enabled = record.enabled ∧
      (row.runtime json = record.runtime json ↔ Current json registry record) := by
  unfold migrateRecord at h
  cases hadapter : registry.get record.kind with
  | none =>
    simp only [hadapter] at h
    cases h
    refine ⟨rfl, rfl, rfl, fun _ ↦ ⟨?_, ?_, ?_⟩, fun _ ↦ rfl⟩
    · intro adapter _ _ _ hsome
      rw [hadapter] at hsome
      cases hsome
    · simp [hadapter]
    · simp [hadapter]
  | some adapter =>
    simp only [hadapter] at h
    obtain ⟨config, hconfig, h⟩ := Except.bind_eq_ok.mp h
    obtain ⟨-, h⟩ := Except.guard_eq_ok.mp h
    obtain ⟨⟨version, migrated⟩, hmigrate, h⟩ := Except.bind_eq_ok.mp h
    simp only at h
    split at h
    next hversion =>
      rw [current_iff hadapter hconfig hmigrate]
      have hrow := Except.pure_eq_ok.mp h
      -- Where nothing changed the row is the rewritten one as well.
      split at hrow
      next hsame =>
        subst hrow
        refine ⟨rfl, rfl, rfl, fun _ ↦ ?_, fun _ ↦ rfl⟩
        refine ⟨congrArg ProtocolProfileRecord.schemaVersion hsame, ?_,
          congrArg ProtocolProfileRecord.preferredCoreId hsame,
          congrArg ProtocolProfileRecord.managedResourceId hsame⟩
        rw [← hconfig]
        exact congrArg (json.parse ·.configJson) hsame
      next =>
        subst hrow
        refine ⟨rfl, rfl, rfl, ?_⟩
        simp only [ProtocolProfileRecord.runtime, RuntimeProfile.mk.injEq, true_and, hconfig]
    next => cases h

theorem migrateRecord_error : (∃ row, migrateRecord json registry t record = .ok row) ↔
    ¬Rejected json registry record := by
  unfold Rejected migrateRecord
  cases hadapter : registry.get record.kind with
  | none => simp
  | some adapter =>
    simp only [Option.some.injEq, exists_eq_left', not_not]
    constructor
    · rintro ⟨row, h⟩
      obtain ⟨config, hconfig, h⟩ := Except.bind_eq_ok.mp h
      obtain ⟨hsize, h⟩ := Except.guard_eq_ok.mp h
      obtain ⟨⟨version, migrated⟩, hmigrate, h⟩ := Except.bind_eq_ok.mp h
      simp only at h
      split at h
      next hversion => exact ⟨config, version, migrated, hconfig, by omega, hmigrate, hversion⟩
      next => cases h
    · rintro ⟨config, version, migrated, hconfig, hsize, hmigrate, hversion⟩
      have hsmall : ¬4294967295 < record.schemaVersion := by omega
      simp only [hconfig, hmigrate, bind, Except.bind, if_neg hsmall, dif_pos hversion]
      exact ⟨_, rfl⟩

theorem migrateRows_ok (h : migrateRows json registry t db = .ok ((), db')) :
    ∃ profiles, db.profiles.rows.mapM (migrateRecord json registry t) = .ok profiles.rows ∧
      db' = { db with profiles } := by
  obtain ⟨rows, hrows, h⟩ := Except.bind_eq_ok.mp h
  obtain ⟨profiles, hunique, h⟩ := Except.bind_eq_ok.mp h
  have hdb := congrArg Prod.snd (Except.pure_eq_ok.mp h)
  rw [← Table.ofRows_some (checkUnique_ok hunique)] at hrows
  exact ⟨profiles, hrows, hdb.symm⟩

theorem migrateRows_error {message : String} (h : migrateRows json registry t db = .error message) :
    ∃ record ∈ db.profiles.rows, Rejected json registry record := by
  by_contra hnone
  push Not at hnone
  obtain ⟨rows, hrows⟩ := Except.exists_mapM_ok fun record hrecord ↦
    migrateRecord_error.mpr (hnone record hrecord)
  have hkeys : List.Forall₂ (fun record row : ProtocolProfileRecord ↦
      row.id = record.id ∧ row.name = record.name) db.profiles.rows rows :=
    (Except.mapM_eq_ok.mp hrows).imp fun _ _ h ↦ ⟨(migrateRecord_ok h).1, (migrateRecord_ok h).2.1⟩
  have hdistinct : rows.Pairwise fun a b ↦ ¬ProtocolProfileRecord.Clash a b := by
    apply Table.pairwise_of_forall₂ ?_ hkeys db.profiles.distinct
    rintro a a' b b' ⟨hid, hname⟩ ⟨hid', hname'⟩ hclash
    exact hclash.imp (fun h ↦ hid.symm.trans (h.trans hid'))
      fun h ↦ hname.symm.trans (h.trans hname')
  have hok : migrateRows json registry t db = .ok ((), { db with profiles := ⟨rows, hdistinct⟩ }) := by
    refine Except.bind_eq_ok.mpr ⟨rows, hrows, Except.bind_eq_ok.mpr ⟨⟨rows, hdistinct⟩, ?_, rfl⟩⟩
    rw [Table.ofRows_of hdistinct]
    rfl
  rw [h] at hok
  cases hok

theorem migrate_disciplined :
    Disciplined json t db (migrateProtocolAdapterConfigs json registry t db) ↔
      (Mutator.migrateProtocolAdapterConfigs registry).Announced json db := by
  unfold migrateProtocolAdapterConfigs
  cases hbody : migrateRows json registry t db with
  | error message =>
    rw [transact_error hbody]
    exact ⟨fun _ ↦ .inl (migrateRows_error hbody), fun _ ↦ disciplined_error⟩
  | ok outcome =>
    obtain ⟨⟨⟩, db'⟩ := outcome
    rw [transact_ok hbody]
    obtain ⟨profiles, hrows, rfl⟩ := migrateRows_ok hbody
    have henabled : List.Forall₂ (fun record row : ProtocolProfileRecord ↦
        row.enabled = record.enabled) db.profiles.rows profiles.rows :=
      (Except.mapM_eq_ok.mp hrows).imp fun _ _ h ↦ (migrateRecord_ok h).2.2.1
    have hnotRejected : ¬∃ record ∈ db.profiles.rows, Rejected json registry record := by
      rintro ⟨record, hrecord, hrejected⟩
      obtain ⟨row, -, hrow⟩ := (Except.exists_of_mapM hrows).1 record hrecord
      exact migrateRecord_error.mp ⟨row, hrow⟩ hrejected
    have hview : runtimeView json t { db with profiles } = runtimeView json t db ↔
        runtimeProfiles json profiles.rows = runtimeProfiles json db.profiles.rows :=
      ⟨congrArg RuntimeView.profiles, fun h ↦ runtimeView_eq h rfl rfl⟩
    show (_ → db.desiredGeneration < db.desiredGeneration) ↔ _
    rw [Mutator.Announced, or_iff_right hnotRejected, lt_self_iff_false, imp_false, not_not, hview,
      runtimeProfiles_eq henabled]
    apply Except.forall₂_mapM hrows
    intro record row hrow
    rw [(migrateRecord_ok hrow).2.2.2]

section Settings

variable {settings : OrderedMap String String} {values : List (String × String)}
variable {entry : String × String} {key : String}

theorem latest_append : latest settings (values ++ [entry]) key =
    if trim entry.1 = key then some entry.2 else latest settings values key := by
  unfold latest
  rw [List.reverse_append, List.reverse_singleton, List.singleton_append, List.find?_cons]
  by_cases h : trim entry.1 = key
  · simp [h]
  · simp [h]

theorem announces_append : Announces settings (values ++ [entry]) ↔
    Announces settings values ∨
      entry.1 ∈ runtimeKeys ∧ latest settings values (trim entry.1) ≠ some entry.2 := by
  constructor
  · rintro ⟨before, other, after, heq, hkey, hchange⟩
    rcases List.eq_nil_or_concat after with rfl | ⟨rest, last, rfl⟩
    · obtain ⟨rfl, hother⟩ := List.append_inj' heq rfl
      cases hother
      exact .inr ⟨hkey, hchange⟩
    · rw [List.concat_eq_append, ← List.cons_append, ← List.append_assoc] at heq
      obtain ⟨rfl, -⟩ := List.append_inj' heq rfl
      exact .inl ⟨before, other, rest, rfl, hkey, hchange⟩
  · rintro (⟨before, other, after, rfl, hkey, hchange⟩ | ⟨hkey, hchange⟩)
    · exact ⟨before, other, after ++ [entry], by simp, hkey, hchange⟩
    · exact ⟨values, entry, [], rfl, hkey, hchange⟩

theorem writeSettings_spec :
    ((values.foldl (writeSetting runtimeKeys) (false, settings)).1 = true ↔
        Announces settings values) ∧
      ∀ key, (values.foldl (writeSetting runtimeKeys) (false, settings)).2.get? key =
        latest settings values key := by
  induction values using List.reverseRecOn with
  | nil => exact ⟨⟨nofun, fun ⟨before, _, _, h, _⟩ ↦ by simp at h⟩, fun _ ↦ rfl⟩
  | append_singleton values entry ih =>
    rw [List.foldl_append, List.foldl_cons, List.foldl_nil]
    constructor
    · rw [announces_append, ← ih.1, ← ih.2]
      simp [writeSetting]
    · intro key
      rw [latest_append, ← ih.2, writeSetting, OrderedMap.get?_insert]

theorem latest_unlisted (h : ¬Announces settings values) :
    latest settings (unlisted values) key = latest settings values key := by
  induction values using List.reverseRecOn with
  | nil => rfl
  | append_singleton values entry ih =>
    rw [announces_append, not_or] at h
    obtain ⟨hvalues, hentry⟩ := h
    rw [latest_append, ← ih hvalues, unlisted, List.filter_append]
    by_cases hkey : entry.1 ∈ runtimeKeys
    · have hsame : latest settings values (trim entry.1) = some entry.2 := by
        by_contra hne
        exact hentry ⟨hkey, hne⟩
      split
      next htrim =>
        subst htrim
        rw [← hsame, ← ih hvalues]
        simp [hkey, unlisted]
      next => simp [hkey, unlisted]
    · simp only [hkey, not_false_eq_true, decide_true, List.filter_cons_of_pos, List.filter_nil]
      rw [latest_append]
      rfl

end Settings

theorem upsertSettings_disciplined {values : List (String × String)} :
    Disciplined json t db (upsertSettingsWithRuntimeKeys values runtimeKeys db) ↔
      (Mutator.upsertSettings values).Announced json db := by
  have hspec := @writeSettings_spec db.settings values
  unfold upsertSettingsWithRuntimeKeys transact
  beta_reduce
  generalize values.foldl (writeSetting runtimeKeys) (false, db.settings) = written at hspec ⊢
  obtain ⟨noted, settings⟩ := written
  obtain ⟨hnoted, hstored⟩ := hspec
  rw [Mutator.Announced]
  by_cases hannounces : Announces db.settings values
  · obtain rfl : noted = true := hnoted.mpr hannounces
    refine ⟨fun _ ↦ .inl hannounces, fun _ ↦ ?_⟩
    apply disciplined_ok
    left
    exact Nat.lt_succ_self _
  · obtain rfl : noted = false := by
      by_contra hnot
      exact hannounces (hnoted.mp (by simpa using hnot))
    have hview : runtimeView json t { db with settings } = runtimeView json t db ↔
        ∀ key ∈ runtimeKeys, settings.get? key = db.settings.get? key := by
      simp [runtimeView, runtimeKeys]
    rw [or_iff_right hannounces]
    show (_ → db.desiredGeneration < db.desiredGeneration) ↔ _
    rw [lt_self_iff_false, imp_false, not_not]
    refine hview.trans (forall₂_congr fun key _ ↦ ?_)
    rw [latest_unlisted hannounces, ← hstored]

theorem upsertSecret_disciplined {name value : String} :
    Disciplined json t db (upsertSecret name value db) := by
  apply disciplined_ok
  left
  exact Nat.lt_succ_self _

theorem deleteSecret_disciplined {name : String} :
    Disciplined json t db (deleteSecret name db) := by
  unfold deleteSecret transact
  by_cases hfound : db.secrets.contains (trim name) = true
  · simp only [hfound]
    apply disciplined_ok
    left
    exact Nat.lt_succ_self _
  · simp only [hfound]
    exact disciplined_error

/-- A call keeps the discipline of generations exactly when it announces its changes. -/
theorem generation_discipline_iff (m : Mutator) :
    Disciplined json t db (m.run json t db) ↔ m.Announced json db := by
  cases m with
  | createProtocolProfile input =>
    exact iff_of_true (disciplined_map.mpr createProtocolProfile_disciplined) trivial
  | updateProtocolProfile input =>
    exact iff_of_true (disciplined_map.mpr updateProtocolProfile_disciplined) trivial
  | deleteProtocolProfileAudited name expected =>
    exact iff_of_true (disciplined_map.mpr deleteProtocolProfile_disciplined) trivial
  | migrateProtocolAdapterConfigs registry => exact migrate_disciplined
  | user action => exact iff_of_true actUser_disciplined trivial
  | markUserLifecycleReconcilePublished generation =>
    exact iff_of_true (disciplined_ok (.inr rfl)) trivial
  | upsertSettings values => exact disciplined_map.trans upsertSettings_disciplined
  | upsertSecret name value => exact iff_of_true upsertSecret_disciplined trivial
  | deleteSecret name => exact iff_of_true deleteSecret_disciplined trivial

def hysteriaAdapter : ProtocolAdapter where
  manifest :=
    { apiVersion := adapterApiVersion
      id := "hysteria2"
      displayName := "Hysteria 2"
      schemaVersion := 1
      requiredCoreCapabilities := {"hysteria2"}
      userParticipation := .sharedCredential
      listenerNetwork := .udp
      composition := ⟨"hysteria2", "quic", "tls", none, .stable, none⟩ }
  validateConfig := fun _ _ ↦ .ok ()
  migrateConfig := fun _ config ↦ .ok (1, config)
  clientSecretReferences := fun _ ↦ .ok []
  serverSecretReferences := fun _ ↦ .ok []
  renderClient := fun context ↦ .ok (.object [("name", .string context.profile.name)])
  renderServer := fun context ↦ .ok ⟨context.profile.name, "hysteria2", .object [], none, []⟩

def hysteriaRegistry : ProtocolRegistry := ProtocolRegistry.empty.add hysteriaAdapter

def unplacedDatabase : Database :=
  { initDb with
    profiles := ⟨[unplaced], unplaced_distinct⟩
    nextProfileId := 2
    desiredGeneration := 1 }

theorem migration_unannounced :
    ¬Disciplined emptyObject 0 unplacedDatabase
      ((Mutator.migrateProtocolAdapterConfigs hysteriaRegistry).run emptyObject 0
        unplacedDatabase) := by
  have hfound : hysteriaRegistry.get "hysteria2" = some hysteriaAdapter := by
    simp [hysteriaRegistry, ProtocolRegistry.get, ProtocolRegistry.add, hysteriaAdapter]
  refine migrate_disciplined.not.mpr ?_
  rintro (⟨record, hrecord, adapter, hadapter, hrejected⟩ | hcurrent)
  · obtain rfl := List.mem_singleton.mp hrecord
    cases hfound.symm.trans hadapter
    exact hrejected ⟨.object [], 1, .object [], rfl, by decide, rfl, by decide⟩
  · have hresource := (hcurrent unplaced (List.mem_singleton.mpr rfl) rfl).resource
    exact hresource (by rw [show unplaced.kind = "hysteria2" from rfl, hfound]; rfl) rfl

end StealthHub.Storage

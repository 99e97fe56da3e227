import StealthHub.Storage.Profiles
import StealthHub.Users.Authorization

set_option autoImplicit false

namespace StealthHub.Users

/-- An operation on an existing user that leaves it in place. -/
def Action.EditsUser : Action → Prop
  | .updateUserAudited _ => True
  | .rotateUserRuntimeIdentityAudited .. => True
  | .setUserEnabled .. => True
  | .resetUserSubscriptionToken .. => True
  | _ => False

def Action.editsVersion (id : ℕ) (expected : DateTime) : Action → Bool
  | .updateUserAudited input => input.id = id && input.expectedUpdatedAt = expected
  | .rotateUserRuntimeIdentityAudited id' expected' _ => id' = id && expected' = expected
  | _ => false

/-- How many edits of one version a run commits. A transaction that fails is rolled back. -/
def committedEdits (id : ℕ) (expected : DateTime) : Database → List (DateTime × Action) → ℕ
  | _, [] => 0
  | db, (now, action) :: rest =>
    match action.run now db with
    | .ok db' => (action.editsVersion id expected).toNat + committedEdits id expected db' rest
    | .error _ => committedEdits id expected db rest

variable {now expected : DateTime} {db db' : Database} {action : Action} {id : ℕ}
variable {current updated : UserRecord} {changed : Bool} {generation : Option ℕ}

theorem lt_nextUserUpdatedAt {stamp : DateTime} : stamp < nextUserUpdatedAt stamp now := by
  unfold nextUserUpdatedAt
  split
  next hnow => exact hnow
  next => exact Int.lt_add_one_of_le (Int.le_refl stamp)

/-- One row is replaced, by one of a later stamp. -/
structure Restamped (db db' : Database) (current : UserRecord) : Prop where
  current_mem : current ∈ db.users.rows
  rows : ∀ x ∈ db'.users.rows, x.id = current.id ∧ current.updatedAt < x.updatedAt ∨
    x ∈ db.users.rows ∧ x ≠ current

theorem commitEdited_restamped
    (h : commitEdited now updated changed db = .ok (generation, db'))
    (hcurrent : current ∈ db.users.rows) (hid : updated.id = current.id)
    (hstamp : updated.updatedAt = nextUserUpdatedAt current.updatedAt now) :
    Restamped db db' current := by
  obtain ⟨db₁, hwrite, h⟩ := Except.bind_eq_ok.mp h
  obtain ⟨users, hupdate, rfl⟩ := writeUser_ok hwrite
  have hdb : upsertUserLifecycleCheckpoint (bumpWhen changed { db with users }).2 updated
      (updated.accessStateAt now) now (bumpWhen changed { db with users }).1 = db' :=
    congrArg Prod.snd (Except.pure_eq_ok.mp h)
  subst hdb
  refine ⟨hcurrent, fun x hx ↦ ?_⟩
  rw [upsertCheckpoint_users, bumpWhen_users] at hx
  rcases (Table.mem_update_of_unique hupdate hcurrent (by simp [hid]) fun other hother h ↦
    eq_of_id hother hcurrent ((of_decide_eq_true h).trans hid)).mp hx with rfl | hold
  · exact .inl ⟨hid, hstamp ▸ lt_nextUserUpdatedAt⟩
  · exact .inr hold

theorem editsUser_restamped (hedits : action.EditsUser) (h : action.run now db = .ok db') :
    ∃ current, Restamped db db' current ∧ ∀ id expected,
      action.editsVersion id expected = true → current.id = id ∧ current.updatedAt = expected := by
  cases action with
  | updateUserAudited input =>
    obtain ⟨⟨result, after⟩, hrun, hdb⟩ := Except.map_eq_ok.mp h
    subst hdb
    obtain ⟨⟨⟩, -, hrun⟩ := Except.bind_eq_ok.mp hrun
    obtain ⟨current, hget, hrun⟩ := Except.bind_eq_ok.mp hrun
    obtain ⟨updated, hedit, hrun⟩ := Except.bind_eq_ok.mp hrun
    obtain ⟨⟨generation, _⟩, hcommit, hrun⟩ := Except.bind_eq_ok.mp hrun
    obtain ⟨hmem, hid⟩ := getUser_ok hget
    obtain ⟨hstamp, -, hupdated⟩ := editUser_ok hedit
    cases Except.pure_eq_ok.mp hrun
    refine ⟨current, commitEdited_restamped hcommit hmem (by rw [hupdated]) (by rw [hupdated]), ?_⟩
    intro id expected hversion
    simp only [Action.editsVersion, Bool.and_eq_true, decide_eq_true_eq] at hversion
    exact ⟨hid.trans hversion.1, hstamp.trans hversion.2⟩
  | rotateUserRuntimeIdentityAudited id' expected' replacement =>
    obtain ⟨⟨result, after⟩, hrun, hdb⟩ := Except.map_eq_ok.mp h
    subst hdb
    obtain ⟨current, hget, hrun⟩ := Except.bind_eq_ok.mp hrun
    obtain ⟨hstamp, hrun⟩ := Except.guard_eq_ok.mp hrun
    obtain ⟨⟨generation, _⟩, hcommit, hrun⟩ := Except.bind_eq_ok.mp hrun
    obtain ⟨hmem, hid⟩ := getUser_ok hget
    cases Except.pure_eq_ok.mp hrun
    refine ⟨current, commitEdited_restamped hcommit hmem rfl rfl, fun id expected hversion ↦ ?_⟩
    simp only [Action.editsVersion, Bool.and_eq_true, decide_eq_true_eq] at hversion
    exact ⟨hid.trans hversion.1, (not_not.mp hstamp).trans hversion.2⟩
  | setUserEnabled id' enabled =>
    obtain ⟨⟨result, after⟩, hrun, hdb⟩ := Except.map_eq_ok.mp h
    subst hdb
    obtain ⟨current, hget, hrun⟩ := Except.bind_eq_ok.mp hrun
    obtain ⟨-, hrun⟩ := Except.guard_eq_ok.mp hrun
    obtain ⟨⟨generation, _⟩, hcommit, hrun⟩ := Except.bind_eq_ok.mp hrun
    cases Except.pure_eq_ok.mp hrun
    exact ⟨current, commitEdited_restamped hcommit (getUser_ok hget).1 rfl rfl, nofun⟩
  | resetUserSubscriptionToken id' token =>
    obtain ⟨⟨result, after⟩, hrun, hdb⟩ := Except.map_eq_ok.mp h
    subst hdb
    obtain ⟨current, hget, hrun⟩ := Except.bind_eq_ok.mp hrun
    obtain ⟨⟨generation, _⟩, hcommit, hrun⟩ := Except.bind_eq_ok.mp hrun
    cases Except.pure_eq_ok.mp hrun
    exact ⟨current, commitEdited_restamped hcommit (getUser_ok hget).1 rfl rfl, nofun⟩
  | createUser => cases hedits
  | deleteUser => cases hedits
  | evaluateUserLifecycle => cases hedits

theorem committedEdits_left {steps : List (DateTime × Action)}
    (hsteps : ∀ step ∈ steps, step.2.EditsUser)
    (hleft : ∀ user ∈ db.users.rows, user.id = id → expected < user.updatedAt) :
    committedEdits id expected db steps = 0 := by
  induction steps generalizing db with
  | nil => rfl
  | cons step rest ih =>
    rw [List.forall_mem_cons] at hsteps
    rw [committedEdits]
    split
    next db' hrun =>
      obtain ⟨current, hrestamped, hversion⟩ := editsUser_restamped hsteps.1 hrun
      cases hedits : step.2.editsVersion id expected with
      | true =>
        obtain ⟨hid, hstamp⟩ := hversion id expected hedits
        have hlater := hleft current hrestamped.current_mem hid
        exact absurd (hstamp ▸ hlater) (lt_irrefl _)
      | false =>
        rw [ih hsteps.2]
        · rfl
        intro user huser hid
        rcases hrestamped.rows user huser with ⟨hsame, hlater⟩ | ⟨hold, -⟩
        · exact (hleft current hrestamped.current_mem (hsame.symm.trans hid)).trans hlater
        · exact hleft user hold hid
    next => exact ih hsteps.2 hleft

theorem committedEdits_le {steps : List (DateTime × Action)}
    (hsteps : ∀ step ∈ steps, step.2.EditsUser) : committedEdits id expected db steps ≤ 1 := by
  induction steps generalizing db with
  | nil => exact Nat.zero_le 1
  | cons step rest ih =>
    rw [List.forall_mem_cons] at hsteps
    rw [committedEdits]
    split
    next db' hrun =>
      obtain ⟨current, hrestamped, hversion⟩ := editsUser_restamped hsteps.1 hrun
      cases hedits : step.2.editsVersion id expected with
      | true =>
        obtain ⟨hid, hstamp⟩ := hversion id expected hedits
        rw [committedEdits_left hsteps.2]
        · exact Nat.le_refl 1
        intro user huser huserId
        rcases hrestamped.rows user huser with ⟨-, hlater⟩ | ⟨hold, hne⟩
        · exact hstamp ▸ hlater
        · exact absurd (eq_of_id hold hrestamped.current_mem (huserId.trans hid.symm)) hne
      | false =>
        rw [Bool.toNat_false, Nat.zero_add]
        exact ih hsteps.2
    next => exact ih hsteps.2

end StealthHub.Users

namespace StealthHub.Storage

open Text
open Users (DateTime UserRecord checkUnique)

/-- What a session submits for a profile. -/
inductive ProfileEdit where
  | update (input : UpdateProtocolProfile)
  | delete (name : String) (expectedUpdatedAt : DateTime)

namespace ProfileEdit

def name : ProfileEdit → String
  | .update input => input.name
  | .delete name _ => name

/-- The version that the session has loaded. -/
def expectedUpdatedAt : ProfileEdit → Option DateTime
  | .update input => input.expectedUpdatedAt
  | .delete _ expectedUpdatedAt => some expectedUpdatedAt

def run (json : Json) (now : DateTime) (edit : ProfileEdit) (db : Database) : Database :=
  match edit with
  | .update input => (updateProtocolProfile json now input db).2
  | .delete name expectedUpdatedAt => (deleteProtocolProfileAudited name expectedUpdatedAt db).2

/-- The transaction commits a change. -/
def Commits (json : Json) (now : DateTime) (edit : ProfileEdit) (db : Database) : Prop :=
  edit.run json now db ≠ db

def Effective (json : Json) (db : Database) (row : ProtocolProfileRecord) : ProfileEdit → Prop
  | .update input => input.changed json row = true ∧ 0 < input.port ∧ input.port ≤ 65535
  | .delete name _ => protocolProfileReferenceCount db name = 0

/-- The row is the version that the session has loaded, and its edit has an effect. -/
structure Accepted (json : Json) (db : Database) (row : ProtocolProfileRecord)
    (edit : ProfileEdit) : Prop where
  found : getProtocolProfileByName db edit.name = some row
  loaded : ∀ expected ∈ edit.expectedUpdatedAt, expected = row.updatedAt
  effective : edit.Effective json db row

end ProfileEdit

def UpdateProtocolProfile.differs (json : Json) (a b : UpdateProtocolProfile) : Bool :=
  trim a.displayName != trim b.displayName || a.enabled != b.enabled ||
    (trim a.server != trim b.server || a.port != b.port ||
      json.print a.config != json.print b.config || a.preferredCoreId != b.preferredCoreId ||
      a.managedResourceId != b.managedResourceId)

/-- An edit that has no version of its own to refuse after an update: the clock of the
update reads the stamp that both sessions have loaded. -/
structure Overwrites (json : Json) (db : Database) (now : DateTime) (input : UpdateProtocolProfile)
    (row : ProtocolProfileRecord) (second : ProfileEdit) : Prop where
  first : (ProfileEdit.update input).Accepted json db row
  repeated : ∀ expected ∈ input.expectedUpdatedAt, expected = now
  second : match second with
    | .update other => other.differs json input = true ∧ 0 < other.port ∧ other.port ≤ 65535
    | .delete name _ => protocolProfileReferenceCount db name = 0

section Edits

variable {json : Json} {now : DateTime} {db db' : Database} {row : ProtocolProfileRecord}
variable {input other : UpdateProtocolProfile} {edit : ProfileEdit} {name : String}

theorem getByName_congr {name' : String} (h : trim name = trim name') :
    getProtocolProfileByName db name = getProtocolProfileByName db name' := by
  rw [getProtocolProfileByName, getProtocolProfileByName, h]

theorem changed_apply (hport : 0 < input.port ∧ input.port ≤ 65535) :
    other.changed json (input.apply json now row hport) = other.differs json input :=
  rfl

theorem differs_self : input.differs json input = false := by
  simp [UpdateProtocolProfile.differs]

theorem update_unclashing (json : Json) (now : DateTime)
    (hget : getProtocolProfileByName db name = some row) (hport : 0 < input.port ∧ input.port ≤ 65535) :
    ∃ profiles, db.profiles.update
      (fun other ↦ other.name = row.name && other.updatedAt = row.updatedAt)
      (fun _ ↦ input.apply json now row hport) = some profiles := by
  have hkey : ∀ x ∈ db.profiles.rows, ∀ y,
      y = (if (x.name = row.name && x.updatedAt = row.updatedAt) = true then
        input.apply json now row hport else x) → y.id = x.id ∧ y.name = x.name := by
    rintro x hx y rfl
    split
    next hselected =>
      rw [(update_selects hget hx).mp hselected]
      exact ⟨rfl, rfl⟩
    next => exact ⟨rfl, rfl⟩
  refine Table.update_of fun a ha b hb hclash ↦ ?_
  obtain ⟨haId, haName⟩ := hkey a ha _ rfl
  obtain ⟨hbId, hbName⟩ := hkey b hb _ rfl
  exact hclash.imp (fun h ↦ haId.symm.trans (h.trans hbId))
    fun h ↦ haName.symm.trans (h.trans hbName)

theorem update_accepted (now : DateTime)
    (h : (ProfileEdit.update input).Accepted json db row) :
    ∃ hport, getProtocolProfileByName ((ProfileEdit.update input).run json now db) input.name =
        some (input.apply json now row hport) ∧ ∀ name,
      protocolProfileReferenceCount ((ProfileEdit.update input).run json now db) name =
        protocolProfileReferenceCount db name := by
  obtain ⟨hget, hloaded, hchanged, hport⟩ := h
  have hget : getProtocolProfileByName db input.name = some row := hget
  obtain ⟨hmem, hname⟩ := getByName_some hget
  have hselects : ∀ other ∈ db.profiles.rows,
      (other.name = row.name && other.updatedAt = row.updatedAt) = true → other = row :=
    fun other hother ↦ (update_selects hget hother).mp
  obtain ⟨profiles, hupdate⟩ := update_unclashing json now hget hport
  have hrun : rewriteProtocolProfile json now input db = .ok ((row, true),
      (bumpWhen (input.runtimeChanged json row) { db with profiles }).2) := by
    have hkept : ¬input.expectedUpdatedAt.any (· ≠ row.updatedAt) = true := by
      rw [Option.any_eq_true]
      rintro ⟨expected, hexpected, hne⟩
      exact of_decide_eq_true hne (hloaded expected hexpected)
    rw [rewriteProtocolProfile, hget]
    refine Except.guard_eq_ok.mpr ⟨hkept, ?_⟩
    rw [if_neg (by simp [hchanged]), dif_pos hport, hupdate]
    rfl
  obtain ⟨record, hrecord⟩ := updateProfile_ok hrun
  have hdb : (ProfileEdit.update input).run json now db =
      (bumpWhen (input.runtimeChanged json row) { db with profiles }).2 :=
    congrArg Prod.snd hrecord
  rw [hdb]
  refine ⟨hport, getByName_of_mem ?_ hname, fun name ↦ ?_⟩
  · rw [bumpWhen_profiles, Table.mem_update_of_unique hupdate hmem (by simp) hselects]
    exact .inl rfl
  · simp [protocolProfileReferenceCount]

theorem delete_accepted (now : DateTime) {expected : DateTime}
    (h : (ProfileEdit.delete name expected).Accepted json db row) :
    getProtocolProfileByName ((ProfileEdit.delete name expected).run json now db) name = none := by
  obtain ⟨hget, hloaded, hcount⟩ := h
  have hstamp : row.updatedAt = expected := (hloaded expected rfl).symm
  have hrun : removeProtocolProfile name expected db = .ok (row.enabled,
      (bumpWhen row.enabled { db with
        profiles := db.profiles.delete fun row ↦
          row.name = trim name && row.updatedAt = expected }).2) := by
    have hget : getProtocolProfileByName db name = some row := hget
    rw [removeProtocolProfile, hget]
    refine Except.guard_eq_ok.mpr ⟨not_not.mpr hstamp, ?_⟩
    exact Except.guard_eq_ok.mpr ⟨not_not.mpr hcount, rfl⟩
  have hdb : (ProfileEdit.delete name expected).run json now db = (bumpWhen row.enabled { db with
        profiles := db.profiles.delete fun row ↦
          row.name = trim name && row.updatedAt = expected }).2 :=
    congrArg Prod.snd (transact_ok hrun)
  rw [hdb]
  by_contra hfound
  obtain ⟨found, hfound⟩ := Option.ne_none_iff_exists'.mp hfound
  obtain ⟨hmem, hname⟩ := getByName_some hfound
  rw [bumpWhen_profiles, Table.mem_delete] at hmem
  obtain ⟨hrow, hrowName⟩ := getByName_some hget
  have hsame := eq_of_name hmem.1 hrow (hname.trans hrowName.symm)
  rw [hsame, Bool.and_eq_false_iff] at hmem
  rcases hmem.2 with hother | hother
  · exact of_decide_eq_false hother hrowName
  · exact of_decide_eq_false hother hstamp

theorem commits_iff : edit.Commits json now db ↔ ∃ row, edit.Accepted json db row := by
  constructor
  · intro hcommits
    cases edit with
    | update input =>
      cases hrun : rewriteProtocolProfile json now input db with
      | error message =>
        refine absurd ?_ hcommits
        simp [ProfileEdit.run, updateProtocolProfile, transact_error hrun]
      | ok result =>
        obtain ⟨⟨row, wrote⟩, db'⟩ := result
        obtain ⟨record, hrecord⟩ := updateProfile_ok hrun
        obtain ⟨hget, hloaded, ⟨-, -, hdb⟩ | ⟨hchanged, -, hport, -⟩⟩ := rewriteProfile_ok hrun
        · exact absurd ((congrArg Prod.snd hrecord).trans hdb) hcommits
        · refine ⟨row, hget, fun expected hexpected ↦ ?_, hchanged, hport⟩
          rw [Option.any_eq_false] at hloaded
          simpa using hloaded expected hexpected
    | delete name expected =>
      cases hrun : removeProtocolProfile name expected db with
      | error message => exact absurd (congrArg Prod.snd (transact_error hrun)) hcommits
      | ok result =>
        obtain ⟨row, hget, hstamp, hcount, -, -⟩ := removeProfile_ok hrun
        refine ⟨row, hget, fun other hother ↦ ?_, hcount⟩
        exact (Option.some.inj hother).symm.trans hstamp.symm
  · rintro ⟨row, haccepted⟩ hsame
    cases edit with
    | update input =>
      obtain ⟨hport, hget, -⟩ := update_accepted now haccepted
      have hrow : row = input.apply json now row hport :=
        Option.some.inj (haccepted.found.symm.trans (hsame ▸ hget))
      have hchanged : input.changed json row = true := haccepted.effective.1
      rw [hrow, changed_apply, differs_self] at hchanged
      cases hchanged
    | delete name expected =>
      have hgone := delete_accepted now haccepted
      rw [hsame] at hgone
      exact absurd (hgone.symm.trans haccepted.found) (by simp)

theorem commits_both_iff {first second : ProfileEdit} {now₁ now₂ : DateTime}
    (hname : trim first.name = trim second.name)
    (hexpected : first.expectedUpdatedAt = second.expectedUpdatedAt) :
    first.Commits json now₁ db ∧ second.Commits json now₂ (first.run json now₁ db) ↔
      ∃ input row, first = .update input ∧ Overwrites json db now₁ input row second := by
  rw [commits_iff, commits_iff]
  constructor
  · rintro ⟨⟨row, hfirst⟩, left, hsecond⟩
    cases first with
    | update input =>
      obtain ⟨hport, hget, hcount⟩ := update_accepted now₁ hfirst
      obtain ⟨hleft, hloaded, heffective⟩ := hsecond
      rw [← getByName_congr hname] at hleft
      cases hget.symm.trans hleft
      refine ⟨input, row, rfl, hfirst, fun expected h ↦ hloaded expected (hexpected ▸ h), ?_⟩
      cases second with
      | update other => exact heffective
      | delete name expected => exact (hcount name).symm.trans heffective
    | delete name expected =>
      have hgone := delete_accepted now₁ hfirst
      have hfound := hsecond.found
      rw [← getByName_congr hname] at hfound
      exact absurd (hgone.symm.trans hfound) (by simp)
  · rintro ⟨input, row, rfl, hfirst, hrepeated, hsecond⟩
    obtain ⟨hport, hget, hcount⟩ := update_accepted now₁ hfirst
    refine ⟨⟨row, hfirst⟩, input.apply json now₁ row hport, ?_, ?_, ?_⟩
    · rw [← getByName_congr hname]
      exact hget
    · intro expected h
      rw [← hexpected] at h
      exact hrepeated expected h
    · cases second with
      | update other => exact hsecond
      | delete name expected => exact (hcount name).trans hsecond

end Edits

/-- Of two edits of one version of a profile, both commit only if the clock of the first reads
the stamp they have loaded; of the edits of one version of a user, at most one commits. -/
theorem one_edit_per_version (json : Json) (db : Database) (now₁ now₂ : DateTime)
    (first second : ProfileEdit) (users : Users.Database) (steps : List (DateTime × Users.Action))
    (id : ℕ) (expected : DateTime) :
    (trim first.name = trim second.name → first.expectedUpdatedAt = second.expectedUpdatedAt →
      (¬(first.Commits json now₁ db ∧ second.Commits json now₂ (first.run json now₁ db)) ↔
        ∀ input row, first = .update input → ¬Overwrites json db now₁ input row second)) ∧
    ((∀ step ∈ steps, step.2.EditsUser) →
      Users.committedEdits id expected users steps ≤ 1) := by
  refine ⟨fun hname hexpected ↦ ?_, Users.committedEdits_le⟩
  rw [commits_both_iff hname hexpected]
  push Not
  exact ⟨fun h input row hfirst hoverwrites ↦ h input row hfirst hoverwrites,
    fun h input row hfirst hoverwrites ↦ h input row hfirst hoverwrites⟩

def renamed (displayName : String) : UpdateProtocolProfile where
  name := "FAST"
  displayName
  expectedUpdatedAt := some 0
  enabled := true
  server := "node.example.test"
  port := 443
  preferredCoreId := none
  managedResourceId := none
  config := .object []

def oneProfile : Database :=
  { initDb with profiles := ⟨[unplaced], unplaced_distinct⟩ }

theorem renamed_overwrites :
    Overwrites emptyObject oneProfile 0 (renamed "Rapid") unplaced (.update (renamed "Quick")) where
  first :=
    { found := by decide
      loaded := by decide
      effective := by
        refine ⟨?_, by decide, by decide⟩
        decide }
  repeated := by decide
  second := by
    refine ⟨?_, by decide, by decide⟩
    decide

theorem both_edits_commit :
    ¬∀ (json : Json) (db : Database) (now₁ now₂ : DateTime) (first second : ProfileEdit),
      trim first.name = trim second.name → first.expectedUpdatedAt = second.expectedUpdatedAt →
      (∀ a b, first = .update a → second = .update b → b.differs json a = true) →
      ¬(first.Commits json now₁ db ∧ second.Commits json now₂ (first.run json now₁ db)) := by
  intro h
  have hdiffers : ∀ a b, ProfileEdit.update (renamed "Rapid") = .update a →
      ProfileEdit.update (renamed "Quick") = .update b → b.differs emptyObject a = true := by
    intro a b ha hb
    cases ha
    cases hb
    decide
  have hname : trim (ProfileEdit.update (renamed "Rapid")).name =
      trim (ProfileEdit.update (renamed "Quick")).name := rfl
  have hexpected : (ProfileEdit.update (renamed "Rapid")).expectedUpdatedAt =
      (ProfileEdit.update (renamed "Quick")).expectedUpdatedAt := rfl
  exact h emptyObject oneProfile 0 0 _ _ hname hexpected hdiffers
    ((commits_both_iff hname hexpected).mpr ⟨_, _, rfl, renamed_overwrites⟩)

def rotatedTwice : List (DateTime × Users.Action) :=
  [(1, .rotateUserRuntimeIdentityAudited 1 0 "u-2"),
    (1, .rotateUserRuntimeIdentityAudited 1 0 "u-3")]

theorem one_edit_per_version_later_clock :
    ¬((ProfileEdit.update (renamed "Rapid")).Commits emptyObject 1 oneProfile ∧
        (ProfileEdit.update (renamed "Quick")).Commits emptyObject 1
          ((ProfileEdit.update (renamed "Rapid")).run emptyObject 1 oneProfile)) ∧
      0 < Users.committedEdits 1 0 Users.aliceCreated.db rotatedTwice ∧
        Users.committedEdits 1 0 Users.aliceCreated.db rotatedTwice ≤ 1 := by
  have h := one_edit_per_version emptyObject oneProfile 1 1 (.update (renamed "Rapid"))
    (.update (renamed "Quick")) Users.aliceCreated.db rotatedTwice 1 0
  refine ⟨(h.1 rfl rfl).mpr ?_, by decide, h.2 ?_⟩
  · intro input row hfirst hoverwrites
    cases hfirst
    exact absurd (hoverwrites.repeated 0 rfl) (by decide)
  · intro step hstep
    rcases List.mem_pair.mp hstep with rfl | rfl <;> trivial

end StealthHub.Storage

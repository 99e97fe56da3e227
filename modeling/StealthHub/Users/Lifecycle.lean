import Mathlib.Logic.Relation
import StealthHub.Data.Result
import StealthHub.Users.Store

set_option autoImplicit false

namespace StealthHub.Users

variable {db db' : Database} {now : DateTime} {user current updated : UserRecord}
variable {row : LifecycleState} {id : ℕ} {bumped : Bool}

/-- What the runtime authorizes: the credential and its label. -/
def UserRecord.identity (user : UserRecord) : String × String := (user.uuid, user.username)

/-- The identities of the users that are allowed at an instant. -/
def authorized (db : Database) (now : DateTime) : Finset (String × String) :=
  ((db.users.rows.filter fun user ↦ (user.accessStateAt now).allowed).map (·.identity)).toFinset

theorem mem_authorized {p : String × String} :
    p ∈ authorized db now ↔
      ∃ user ∈ db.users.rows, (user.accessStateAt now).allowed = true ∧ user.identity = p := by
  simp [authorized, and_assoc]

theorem expired_mono {a b : DateTime} (hab : a ≤ b)
    (h : (user.accessStateAt a).expired = true) : (user.accessStateAt b).expired = true := by
  obtain ⟨deadline, hd, hle⟩ := (Option.any_eq_true _ _).mp h
  refine (Option.any_eq_true _ _).mpr ⟨deadline, hd, ?_⟩
  have hda : deadline ≤ a := by simpa using hle
  simpa using hda.trans hab

theorem allowed_iff :
    (user.accessStateAt now).allowed = true ↔
      (user.accessStateAt now).disabled = false ∧ (user.accessStateAt now).expired = false ∧
        (user.accessStateAt now).quotaExceeded = false := by
  simp [UserAccessState.allowed, and_assoc]

theorem allowed_of_allowed {a b : DateTime} (ha : (user.accessStateAt a).allowed = true)
    (hb : (user.accessStateAt b).expired = false) : (user.accessStateAt b).allowed = true := by
  rw [allowed_iff] at ha ⊢
  exact ⟨ha.1, hb, ha.2.2⟩

theorem allowed_antitone {a b : DateTime} (hab : a ≤ b)
    (hb : (user.accessStateAt b).allowed = true) : (user.accessStateAt a).allowed = true := by
  refine allowed_of_allowed hb ?_
  by_contra he
  have hexpired := expired_mono hab (by simpa using he)
  rw [(allowed_iff.mp hb).2.1] at hexpired
  cases hexpired

theorem not_expired_of_allowed (h : (user.accessStateAt now).allowed = true) :
    (user.accessStateAt now).expired = false :=
  (allowed_iff.mp h).2.1

theorem eq_of_id {a b : UserRecord} (ha : a ∈ db.users.rows) (hb : b ∈ db.users.rows)
    (h : a.id = b.id) : a = b :=
  db.users.eq_of_clash ha hb (.inl h)

theorem getUser_ok (h : getUserByIdInTransaction db id = .ok user) :
    user ∈ db.users.rows ∧ user.id = id := by
  unfold getUserByIdInTransaction at h
  cases hf : db.users.find? (·.id = id) with
  | none => rw [hf] at h; cases h
  | some found =>
    rw [hf] at h
    cases h
    obtain ⟨hmem, hid⟩ := Table.find?_some hf
    exact ⟨hmem, by simpa using hid⟩

@[simp] theorem bumpWhen_users : (bumpWhen bumped db).2.users = db.users := by
  cases bumped <;> rfl

@[simp] theorem bumpWhen_lifecycle : (bumpWhen bumped db).2.lifecycle = db.lifecycle := by
  cases bumped <;> rfl

@[simp] theorem bumpWhen_generation :
    (bumpWhen bumped db).2.desiredGeneration = db.desiredGeneration + bumped.toNat := by
  cases bumped <;> rfl

section Checkpoint

variable {state : UserAccessState} {observedAt : DateTime} {pending : Option ℕ}

@[simp] theorem upsertCheckpoint_users :
    (upsertUserLifecycleCheckpoint db user state observedAt pending).users = db.users := rfl

@[simp] theorem upsertCheckpoint_generation :
    (upsertUserLifecycleCheckpoint db user state observedAt pending).desiredGeneration =
      db.desiredGeneration := rfl

def LifecycleState.Records (row : LifecycleState) (state : UserAccessState) : Prop :=
  row.allowed = state.allowed ∧ row.expired = state.expired

theorem upsertCheckpoint_self :
    ∃ row, (upsertUserLifecycleCheckpoint db user state observedAt pending).lifecycle.get? user.id =
      some row ∧ row.Records state :=
  ⟨_, by rw [upsertUserLifecycleCheckpoint, OrderedMap.get?_insert, if_pos rfl], rfl, rfl⟩

theorem upsertCheckpoint_of_ne (h : id ≠ user.id) :
    (upsertUserLifecycleCheckpoint db user state observedAt pending).lifecycle.get? id =
      db.lifecycle.get? id := by
  rw [upsertUserLifecycleCheckpoint, OrderedMap.get?_insert, if_neg h.symm]

end Checkpoint

/-- What an operation on one existing user commits: one row is replaced and its
checkpoint taken anew. Where the generation stays, so does the user's access, and
the identity of a user with access. -/
structure Edited (now : DateTime) (db db' : Database) (current updated : UserRecord)
    (bumped : Bool) : Prop where
  current_mem : current ∈ db.users.rows
  id_eq : updated.id = current.id
  users : ∀ x, x ∈ db'.users.rows ↔ x = updated ∨ x ∈ db.users.rows ∧ x ≠ current
  checkpoint : ∃ row, db'.lifecycle.get? updated.id = some row ∧
    row.Records (updated.accessStateAt now)
  others : ∀ id, id ≠ updated.id → db'.lifecycle.get? id = db.lifecycle.get? id
  generation : db'.desiredGeneration = db.desiredGeneration + bumped.toNat
  steady : bumped = false →
    (current.accessStateAt now).allowed = (updated.accessStateAt now).allowed ∧
      ((current.accessStateAt now).allowed = true → updated.identity = current.identity)

theorem writeUser_ok (h : writeUser db updated = .ok db') :
    ∃ users, db.users.update (·.id = updated.id) (fun _ ↦ updated) = some users ∧
      db' = { db with users } := by
  obtain ⟨users, hu, hdb⟩ := Except.bind_eq_ok.mp h
  exact ⟨users, checkUnique_ok hu, (Except.pure_eq_ok.mp hdb).symm⟩

theorem commitEdited_ok {generation : Option ℕ}
    (h : commitEdited now updated bumped db = .ok (generation, db'))
    (hcurrent : current ∈ db.users.rows) (hid : updated.id = current.id)
    (hsteady : bumped = false →
      (current.accessStateAt now).allowed = (updated.accessStateAt now).allowed ∧
        ((current.accessStateAt now).allowed = true → updated.identity = current.identity)) :
    Edited now db db' current updated bumped := by
  obtain ⟨db₁, hwrite, h⟩ := Except.bind_eq_ok.mp h
  obtain ⟨users, hupdate, rfl⟩ := writeUser_ok hwrite
  have hdb : upsertUserLifecycleCheckpoint (bumpWhen bumped { db with users }).2 updated
      (updated.accessStateAt now) now (bumpWhen bumped { db with users }).1 = db' :=
    congrArg Prod.snd (Except.pure_eq_ok.mp h)
  subst hdb
  refine ⟨hcurrent, hid, fun x ↦ ?_, upsertCheckpoint_self, fun id hne ↦ ?_, ?_, hsteady⟩
  · rw [upsertCheckpoint_users, bumpWhen_users]
    refine Table.mem_update_of_unique hupdate hcurrent (by simp [hid]) fun other hother h ↦ ?_
    exact eq_of_id hother hcurrent ((of_decide_eq_true h).trans hid)
  · rw [upsertCheckpoint_of_ne hne, bumpWhen_lifecycle]
  · rw [upsertCheckpoint_generation, bumpWhen_generation]

/-- The update is accepted for the row. -/
structure UpdateUser.Applies (input : UpdateUser) (db : Database) (user : UserRecord) : Prop where
  id_eq : user.id = input.id
  stamp : user.updatedAt = input.expectedUpdatedAt
  fields : validateUserFields (Text.trim input.username) input.trafficLimitBytes = .ok ()
  changed : ¬(user.username = Text.trim input.username ∧ user.expiresAt = input.expiresAt ∧
    user.trafficLimitBytes = input.trafficLimitBytes)
  free : ∀ other ∈ db.users.rows, other.username = Text.trim input.username → other.id = user.id

theorem editUser_ok {input : UpdateUser} (h : editUser now input current = .ok updated) :
    current.updatedAt = input.expectedUpdatedAt ∧
      ¬(current.username = Text.trim input.username ∧ current.expiresAt = input.expiresAt ∧
        current.trafficLimitBytes = input.trafficLimitBytes) ∧
      updated = { current with
        username := Text.trim input.username
        trafficLimitBytes := input.trafficLimitBytes
        expiresAt := input.expiresAt
        updatedAt := nextUserUpdatedAt current.updatedAt now } := by
  simp only [editUser] at h
  split at h
  · cases h
  next hstamp =>
    split at h
    · cases h
    next hchanged => exact ⟨by simpa using hstamp, hchanged, (Except.ok.inj h).symm⟩

theorem Edited.name_free (h : Edited now db db' current updated bumped) :
    ∀ other ∈ db.users.rows, other.username = updated.username → other.id = current.id := by
  intro other hother hname
  by_contra hid
  have hne : other ≠ current := fun h ↦ hid (congrArg UserRecord.id h)
  have heq := db'.users.eq_of_clash ((h.users other).mpr (.inr ⟨hother, hne⟩))
    ((h.users updated).mpr (.inl rfl)) (.inr (.inl hname))
  exact hid (heq ▸ h.id_eq)

theorem updateUser_edited {input : UpdateUser} {result : UserMutationResult}
    (h : updateUserAudited now input db = .ok (result, db')) :
    ∃ current updated bumped, input.Applies db current ∧
      updated.accessStateAt now = .evaluate current.enabled input.expiresAt
        input.trafficLimitBytes current.trafficUsedBytes now ∧
      Edited now db db' current updated bumped := by
  obtain ⟨⟨⟩, hfields, h⟩ := Except.bind_eq_ok.mp h
  obtain ⟨current, hget, h⟩ := Except.bind_eq_ok.mp h
  obtain ⟨updated, hedit, h⟩ := Except.bind_eq_ok.mp h
  obtain ⟨⟨generation, _⟩, hcommit, h⟩ := Except.bind_eq_ok.mp h
  obtain ⟨hmem, hid⟩ := getUser_ok hget
  obtain ⟨hstamp, hchanged, hupdated⟩ := editUser_ok hedit
  cases Except.pure_eq_ok.mp h
  have hedited := commitEdited_ok hcommit hmem (by rw [hupdated]) fun hb ↦ by
    -- No bump: neither the label of an authorized user nor the access changed.
    simp only [Bool.or_eq_false_iff, Bool.and_eq_false_iff, bne_eq_false_iff_eq] at hb
    refine ⟨hb.2, fun hallowed ↦ ?_⟩
    rcases hb.1 with hname | ⟨hblocked, -⟩
    · rw [hupdated]
      exact Prod.ext rfl hname.symm
    · rw [hallowed] at hblocked
      cases hblocked
  refine ⟨current, updated, _, ⟨hid, hstamp, hfields, hchanged, ?_⟩, by rw [hupdated]; rfl, hedited⟩
  intro other hother hname
  exact hedited.name_free other hother (by rw [hname, hupdated])

theorem rotate_edited {expected : DateTime} {replacement : String} {result : UserMutationResult}
    (h : rotateUserRuntimeIdentityAudited now id expected replacement db = .ok (result, db')) :
    ∃ current updated, Edited now db db' current updated true := by
  obtain ⟨current, hget, h⟩ := Except.bind_eq_ok.mp h
  obtain ⟨-, h⟩ := Except.guard_eq_ok.mp h
  obtain ⟨⟨generation, _⟩, hcommit, h⟩ := Except.bind_eq_ok.mp h
  cases Except.pure_eq_ok.mp h
  exact ⟨current, _, commitEdited_ok hcommit (getUser_ok hget).1 rfl nofun⟩

theorem setEnabled_edited {enabled : Bool} {result : UserMutationResult}
    (h : setUserEnabled now id enabled db = .ok (result, db')) :
    ∃ current updated bumped, current.id = id ∧ current.enabled ≠ enabled ∧
      Edited now db db' current updated bumped := by
  obtain ⟨current, hget, h⟩ := Except.bind_eq_ok.mp h
  obtain ⟨henabled, h⟩ := Except.guard_eq_ok.mp h
  obtain ⟨⟨generation, _⟩, hcommit, h⟩ := Except.bind_eq_ok.mp h
  obtain ⟨hmem, hid⟩ := getUser_ok hget
  cases Except.pure_eq_ok.mp h
  refine ⟨current, _, _, hid, henabled, commitEdited_ok hcommit hmem rfl fun hb ↦ ?_⟩
  exact ⟨by simpa using hb, fun _ ↦ rfl⟩

theorem resetToken_edited {newToken token : String}
    (h : resetUserSubscriptionToken now id newToken db = .ok (token, db')) :
    ∃ current updated, current.id = id ∧ Edited now db db' current updated false := by
  obtain ⟨current, hget, h⟩ := Except.bind_eq_ok.mp h
  obtain ⟨⟨generation, _⟩, hcommit, h⟩ := Except.bind_eq_ok.mp h
  obtain ⟨hmem, hid⟩ := getUser_ok hget
  cases Except.pure_eq_ok.mp h
  refine ⟨current, _, hid, commitEdited_ok hcommit hmem rfl fun _ ↦ ?_⟩
  exact ⟨rfl, fun _ ↦ rfl⟩

theorem Edited.authorized_eq (h : Edited now db db' current updated false) :
    authorized db' now = authorized db now := by
  obtain ⟨hallowed, hidentity⟩ := h.steady rfl
  ext p
  rw [mem_authorized, mem_authorized]
  constructor
  · rintro ⟨user, huser, huserAllowed, hp⟩
    rcases (h.users user).mp huser with rfl | ⟨hmem, -⟩
    · have hcurrent := hallowed.trans huserAllowed
      exact ⟨current, h.current_mem, hcurrent, (hidentity hcurrent).symm.trans hp⟩
    · exact ⟨user, hmem, huserAllowed, hp⟩
  · rintro ⟨user, huser, huserAllowed, hp⟩
    by_cases heq : user = current
    · subst heq
      exact ⟨updated, (h.users updated).mpr (.inl rfl), hallowed.symm.trans huserAllowed,
        (hidentity huserAllowed).trans hp⟩
    · exact ⟨user, (h.users user).mpr (.inr ⟨huser, heq⟩), huserAllowed, hp⟩

/-- What a creation commits. -/
structure Created (now : DateTime) (db db' : Database) (user : UserRecord) : Prop where
  users : ∀ x, x ∈ db'.users.rows ↔ x ∈ db.users.rows ∨ x = user
  fresh : ∀ other ∈ db.users.rows, other.id ≠ user.id
  checkpoint : ∃ row, db'.lifecycle.get? user.id = some row ∧ row.Records (user.accessStateAt now)
  others : ∀ id, id ≠ user.id → db'.lifecycle.get? id = db.lifecycle.get? id
  generation : db'.desiredGeneration = db.desiredGeneration + 1

theorem createUser_created {uuid token : String} {input : NewUser}
    (h : createUser now uuid token input db = .ok (user, db')) : Created now db db' user := by
  obtain ⟨-, -, h⟩ := Except.bind_eq_ok.mp h
  obtain ⟨users, hunique, h⟩ := Except.bind_eq_ok.mp h
  have hinsert := checkUnique_ok hunique
  cases Except.pure_eq_ok.mp h
  refine ⟨fun x ↦ ?_, fun other hother hid ↦ ?_, upsertCheckpoint_self, fun id hne ↦ ?_, rfl⟩
  · exact Table.mem_insert hinsert
  · exact (Table.insert_some hinsert).2 other hother (.inl hid)
  · exact upsertCheckpoint_of_ne hne

/-- What a deletion commits. -/
structure Deleted (now : DateTime) (db db' : Database) (current : UserRecord) : Prop where
  current_mem : current ∈ db.users.rows
  users : ∀ x, x ∈ db'.users.rows ↔ x ∈ db.users.rows ∧ x ≠ current
  others : ∀ id, id ≠ current.id → db'.lifecycle.get? id = db.lifecycle.get? id
  generation : db'.desiredGeneration =
    db.desiredGeneration + (current.accessStateAt now).allowed.toNat

theorem deleteUser_deleted {result : UserMutationResult}
    (h : deleteUser now id db = .ok (result, db')) :
    ∃ current, current.id = id ∧ Deleted now db db' current := by
  obtain ⟨current, hget, h⟩ := Except.bind_eq_ok.mp h
  obtain ⟨hmem, rfl⟩ := getUser_ok hget
  have hdb : (bumpWhen (current.accessStateAt now).allowed
      { db with
        users := db.users.delete (·.id = current.id)
        lifecycle := db.lifecycle.erase current.id }).2 = db' :=
    congrArg Prod.snd (Except.pure_eq_ok.mp h)
  subst hdb
  refine ⟨current, rfl, hmem, fun x ↦ ?_, fun id hne ↦ ?_, by rw [bumpWhen_generation]⟩
  · rw [bumpWhen_users, Table.mem_delete, decide_eq_false_iff_not]
    refine and_congr_right fun hx ↦ not_congr ⟨fun hid ↦ eq_of_id hx hmem hid, ?_⟩
    rintro rfl
    rfl
  · rw [bumpWhen_lifecycle, OrderedMap.get?_erase, if_neg hne.symm]

theorem Deleted.authorized_eq (h : Deleted now db db' current)
    (hblocked : (current.accessStateAt now).allowed = false) :
    authorized db' now = authorized db now := by
  ext p
  rw [mem_authorized, mem_authorized]
  constructor
  · rintro ⟨user, huser, hallowed, hp⟩
    exact ⟨user, ((h.users user).mp huser).1, hallowed, hp⟩
  · rintro ⟨user, huser, hallowed, hp⟩
    refine ⟨user, (h.users user).mpr ⟨huser, ?_⟩, hallowed, hp⟩
    intro heq
    rw [heq, hblocked] at hallowed
    cases hallowed

/-- What a lifecycle evaluation commits. Without a transition among the candidates
the generation stays. -/
structure Evaluated (now : DateTime) (scope : LifecycleEvaluationScope) (db db' : Database)
    (bumped : Bool) : Prop where
  users : db'.users = db.users
  candidate : ∀ user ∈ db.users.rows, user.id ∈ candidateIds now db scope →
    ∃ row, db'.lifecycle.get? user.id = some row ∧ row.Records (user.accessStateAt now)
  others : ∀ id row, id ∉ candidateIds now db scope → db.lifecycle.get? id = some row →
    ∃ row', db'.lifecycle.get? id = some row' ∧ row'.allowed = row.allowed ∧
      row'.expired = row.expired
  generation : db'.desiredGeneration = db.desiredGeneration + bumped.toNat
  steady : bumped = false → ∀ user ∈ db.users.rows, user.id ∈ candidateIds now db scope →
    ∀ row, db.lifecycle.get? user.id = some row →
      row.allowed = (user.accessStateAt now).allowed

theorem evaluateCandidate_ok {candidate : UserRecord × UserAccessState × Bool}
    (h : evaluateCandidate now db id = .ok candidate) :
    candidate.1 ∈ db.users.rows ∧ candidate.1.id = id ∧
      candidate.2.1 = candidate.1.accessStateAt now ∧
      (candidate.2.2 = false → ∀ row, db.lifecycle.get? id = some row →
        row.allowed = (candidate.1.accessStateAt now).allowed) := by
  obtain ⟨user, hget, h⟩ := Except.bind_eq_ok.mp h
  obtain ⟨hmem, hid⟩ := getUser_ok hget
  cases Except.pure_eq_ok.mp h
  refine ⟨hmem, hid, rfl, fun hsteady row hrow ↦ ?_⟩
  simpa [hrow] using hsteady

theorem storeCheckpoints_spec (now : DateTime) (generation : Option ℕ)
    (evaluated : List (UserRecord × UserAccessState × Bool)) (db : Database) (id : ℕ) :
    (∃ candidate ∈ evaluated, candidate.1.id = id ∧
        ∃ row, (storeCheckpoints now generation evaluated db).lifecycle.get? id = some row ∧
          row.Records candidate.2.1) ∨
      (∀ candidate ∈ evaluated, candidate.1.id ≠ id) ∧
        (storeCheckpoints now generation evaluated db).lifecycle.get? id =
          db.lifecycle.get? id := by
  unfold storeCheckpoints
  induction evaluated generalizing db with
  | nil => exact .inr ⟨fun _ h ↦ absurd h List.not_mem_nil, rfl⟩
  | cons candidate rest ih =>
    obtain ⟨user, state, transition⟩ := candidate
    rw [List.foldl_cons]
    rcases ih (upsertUserLifecycleCheckpoint db user state now
      (if transition then generation else none)) with ⟨candidate, hc, h⟩ | ⟨hrest, hkeep⟩
    · exact .inl ⟨candidate, List.mem_cons_of_mem _ hc, h⟩
    by_cases hid : user.id = id
    · subst hid
      refine .inl ⟨_, List.mem_cons_self, rfl, ?_⟩
      rw [hkeep]
      exact upsertCheckpoint_self
    · refine .inr ⟨List.forall_mem_cons.mpr ⟨hid, hrest⟩, ?_⟩
      rw [hkeep, upsertCheckpoint_of_ne (Ne.symm hid)]

@[simp] theorem storeCheckpoints_users {generation : Option ℕ}
    {evaluated : List (UserRecord × UserAccessState × Bool)} :
    (storeCheckpoints now generation evaluated db).users = db.users :=
  List.foldlRecOn (motive := fun stored : Database ↦ stored.users = db.users) evaluated _ rfl
    fun _ h _ _ ↦ h

@[simp] theorem storeCheckpoints_generation {generation : Option ℕ}
    {evaluated : List (UserRecord × UserAccessState × Bool)} :
    (storeCheckpoints now generation evaluated db).desiredGeneration = db.desiredGeneration :=
  List.foldlRecOn (motive := fun stored : Database ↦ stored.desiredGeneration = db.desiredGeneration)
    evaluated _ rfl fun _ h _ _ ↦ h

@[simp] theorem advancePending_users {generation : Option ℕ} :
    (advancePending generation db).users = db.users := by
  cases generation with
  | none => rfl
  | some _ => rfl

@[simp] theorem advancePending_generation {generation : Option ℕ} :
    (advancePending generation db).desiredGeneration = db.desiredGeneration := by
  cases generation with
  | none => rfl
  | some _ => rfl

theorem advancePending_get? {generation : Option ℕ} (h : db.lifecycle.get? id = some row) :
    ∃ row', (advancePending generation db).lifecycle.get? id = some row' ∧
      row'.allowed = row.allowed ∧ row'.expired = row.expired := by
  cases generation with
  | none => exact ⟨row, h, rfl, rfl⟩
  | some generation =>
    refine ⟨markPending generation row, ?_, rfl, rfl⟩
    rw [advancePending, Option.elim_some, OrderedMap.get?_mapValues, h, Option.map_some]

theorem evaluate_evaluated {scope : LifecycleEvaluationScope} {result : UserLifecycleEvaluation}
    (h : evaluateUserLifecycle now scope db = .ok (result, db')) :
    ∃ bumped, Evaluated now scope db db' bumped := by
  obtain ⟨evaluated, hmap, h⟩ := Except.bind_eq_ok.mp h
  obtain ⟨hall, hback⟩ := Except.exists_of_mapM hmap
  set bumped := decide (0 < evaluated.countP fun candidate ↦ candidate.2.2) with hbumped
  set generation := (bumpWhen bumped db).1
  have hdb : storeCheckpoints now generation evaluated
      (advancePending generation (bumpWhen bumped db).2) = db' :=
    congrArg Prod.snd (Except.pure_eq_ok.mp h)
  have hloop := fun id ↦ storeCheckpoints_spec now generation evaluated
    (advancePending generation (bumpWhen bumped db).2) id
  rw [hdb] at hloop
  refine ⟨bumped, by simp [← hdb], fun user hu hcandidate ↦ ?_, fun id row hid hrow ↦ ?_,
    by simp [← hdb], fun hsteady user hu hcandidate row hrow ↦ ?_⟩
  · obtain ⟨candidate, hc, heval⟩ := hall user.id hcandidate
    obtain ⟨-, hid, -, -⟩ := evaluateCandidate_ok heval
    rcases hloop user.id with ⟨other, ho, hoid, row, hrow, hrecords⟩ | ⟨hnone, -⟩
    · obtain ⟨_, _, heval'⟩ := hback other ho
      obtain ⟨homem, -, hstate, -⟩ := evaluateCandidate_ok heval'
      rw [hstate, eq_of_id homem hu hoid] at hrecords
      exact ⟨row, hrow, hrecords⟩
    · exact absurd hid (hnone candidate hc)
  · rcases hloop id with ⟨other, ho, hoid, -⟩ | ⟨-, hkeep⟩
    · obtain ⟨candidateId, hmem, heval⟩ := hback other ho
      rw [← hoid, (evaluateCandidate_ok heval).2.1] at hid
      exact absurd hmem hid
    · rw [hkeep]
      exact advancePending_get? (by rwa [bumpWhen_lifecycle])
  · obtain ⟨candidate, hc, heval⟩ := hall user.id hcandidate
    obtain ⟨hmem, hid, -, hcheck⟩ := evaluateCandidate_ok heval
    rw [← eq_of_id hmem hu hid]
    refine hcheck ?_ row hrow
    have hzero : evaluated.countP (fun candidate ↦ candidate.2.2) = 0 := by
      simpa [hbumped] using hsteady
    simpa using List.countP_eq_zero.mp hzero candidate hc

end StealthHub.Users

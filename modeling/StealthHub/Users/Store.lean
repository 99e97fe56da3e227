import Mathlib.Data.Finset.Image
import Mathlib.Data.List.Sort
import StealthHub.Data.OrderedMap
import StealthHub.Data.Result
import StealthHub.Data.Table
import StealthHub.Data.Text

set_option autoImplicit false

namespace StealthHub.Users

/-- Nanoseconds since the epoch. Stored instants are texts with a fixed offset,
which compare as the instants do. -/
abbrev DateTime := ℤ

structure UserAccessState where
  disabled : Bool
  expired : Bool
  quotaExceeded : Bool
  deriving DecidableEq

def UserAccessState.evaluate (enabled : Bool) (expiresAt : Option DateTime)
    (trafficLimitBytes : Option ℤ) (trafficUsedBytes : ℤ) (now : DateTime) : UserAccessState where
  disabled := !enabled
  expired := expiresAt.any (· ≤ now)
  quotaExceeded := trafficLimitBytes.any (· ≤ trafficUsedBytes)

def UserAccessState.allowed (state : UserAccessState) : Bool :=
  !state.disabled && !state.expired && !state.quotaExceeded

structure UserRecord where
  id : ℕ
  username : String
  uuid : String
  subscriptionToken : String
  enabled : Bool
  trafficLimitBytes : Option ℤ
  trafficUsedBytes : ℤ
  expiresAt : Option DateTime
  createdAt : DateTime
  updatedAt : DateTime
  deriving DecidableEq

def UserRecord.accessStateAt (user : UserRecord) (now : DateTime) : UserAccessState :=
  .evaluate user.enabled user.expiresAt user.trafficLimitBytes user.trafficUsedBytes now

/-- The columns of `users` declared unique. -/
def UserRecord.Clash (a b : UserRecord) : Prop :=
  a.id = b.id ∨ a.username = b.username ∨ a.uuid = b.uuid ∨
    a.subscriptionToken = b.subscriptionToken

instance : DecidableRel UserRecord.Clash := fun _ _ ↦ inferInstanceAs (Decidable (_ ∨ _))

instance : Std.Symm UserRecord.Clash :=
  ⟨fun _ _ h ↦ h.imp Eq.symm (.imp Eq.symm (.imp Eq.symm Eq.symm))⟩

abbrev UserTable := Table UserRecord UserRecord.Clash

/-- A row of `user_lifecycle_state`. -/
structure LifecycleState where
  allowed : Bool
  disabled : Bool
  expired : Bool
  quotaExceeded : Bool
  sourceUpdatedAt : DateTime
  observedAt : DateTime
  pendingGeneration : Option ℕ

structure Database where
  users : UserTable
  /-- The next id that `AUTOINCREMENT` hands out. -/
  nextId : ℕ
  lifecycle : OrderedMap ℕ LifecycleState
  desiredGeneration : ℕ

structure NewUser where
  username : String
  trafficLimitBytes : Option ℤ
  expiresAt : Option DateTime

structure UpdateUser where
  id : ℕ
  expectedUpdatedAt : DateTime
  username : String
  trafficLimitBytes : Option ℤ
  expiresAt : Option DateTime

structure UserMutationResult where
  user : UserRecord
  generation : Option ℕ
  accessChanged : Bool

structure UserLifecycleEvaluation where
  evaluatedUsers : ℕ
  accessTransitions : ℕ
  pendingGeneration : Option ℕ

/-- The database that `init_db` leaves in an empty file. -/
def initDb : Database where
  users := .empty
  nextId := 1
  lifecycle := .empty
  desiredGeneration := 0

/-- A byte outside ASCII passes neither test, so characters stand for bytes. -/
def validUserName (value : String) : Bool :=
  (3 ≤ Text.len value && Text.len value ≤ 64) &&
    value.toList.head?.any Text.isAsciiAlphanumeric &&
    value.toList.all fun c ↦ Text.isAsciiAlphanumeric c || c = '.' || c = '_' || c = '-'

def validateUserFields (username : String) (trafficLimitBytes : Option ℤ) : Except String Unit :=
  if !validUserName username then .error "invalid user name"
  else if trafficLimitBytes.any (· ≤ 0) then .error "traffic limit must be positive when present"
  else .ok ()

def nextUserUpdatedAt (current now : DateTime) : DateTime :=
  if current < now then now else current + 1

def getUserByIdInTransaction (db : Database) (id : ℕ) : Except String UserRecord :=
  (db.users.find? (·.id = id)).elim (.error "user not found") .ok

/-- A statement that violates a unique column fails, and its transaction with it. -/
def checkUnique {α : Type} (result : Option α) : Except String α :=
  result.elim (.error "UNIQUE constraint failed") .ok

def bumpDesiredGeneration (db : Database) : Database :=
  { db with desiredGeneration := db.desiredGeneration + 1 }

/-- `generation` is `Some` exactly when the transaction advances it. -/
def bumpWhen (changed : Bool) (db : Database) : Option ℕ × Database :=
  if changed then (some (db.desiredGeneration + 1), bumpDesiredGeneration db) else (none, db)

def upsertUserLifecycleCheckpoint (db : Database) (user : UserRecord) (state : UserAccessState)
    (observedAt : DateTime) (pendingGeneration : Option ℕ) : Database :=
  { db with
    lifecycle := db.lifecycle.insert user.id
      { allowed := state.allowed
        disabled := state.disabled
        expired := state.expired
        quotaExceeded := state.quotaExceeded
        sourceUpdatedAt := user.updatedAt
        observedAt
        pendingGeneration :=
          pendingGeneration.orElse fun _ ↦
            (db.lifecycle.get? user.id).bind (·.pendingGeneration) } }

/-- The identity and the token are drawn by the caller's random source. -/
def createUser (now : DateTime) (uuid subscriptionToken : String) (input : NewUser)
    (db : Database) : Except String (UserRecord × Database) := do
  let username := Text.trim input.username
  validateUserFields username input.trafficLimitBytes
  let user : UserRecord :=
    { id := db.nextId
      username
      uuid
      subscriptionToken
      enabled := true
      trafficLimitBytes := input.trafficLimitBytes
      trafficUsedBytes := 0
      expiresAt := input.expiresAt
      createdAt := now
      updatedAt := now }
  let users ← checkUnique (db.users.insert user)
  let (generation, db) := bumpWhen true { db with users, nextId := db.nextId + 1 }
  return (user, upsertUserLifecycleCheckpoint db user (user.accessStateAt now) now generation)

/-- The checks that `update_user_audited` makes on the row it read, and the row it
writes. -/
def editUser (now : DateTime) (input : UpdateUser) (current : UserRecord) :
    Except String UserRecord :=
  let username := Text.trim input.username
  if current.updatedAt ≠ input.expectedUpdatedAt then
    .error "user changed since this form was loaded"
  else if current.username = username ∧ current.expiresAt = input.expiresAt ∧
      current.trafficLimitBytes = input.trafficLimitBytes then
    .error "user update contains no changes"
  else
    .ok { current with
      username
      trafficLimitBytes := input.trafficLimitBytes
      expiresAt := input.expiresAt
      updatedAt := nextUserUpdatedAt current.updatedAt now }

/-- The row was read in the same transaction, so the statement rewrites one row. -/
def writeUser (db : Database) (updated : UserRecord) : Except String Database := do
  let users ← checkUnique (db.users.update (·.id = updated.id) fun _ ↦ updated)
  return { db with users }

def commitEdited (now : DateTime) (updated : UserRecord) (changed : Bool) (db : Database) :
    Except String (Option ℕ × Database) := do
  let db ← writeUser db updated
  let (generation, db) := bumpWhen changed db
  return (generation,
    upsertUserLifecycleCheckpoint db updated (updated.accessStateAt now) now generation)

def updateUserAudited (now : DateTime) (input : UpdateUser) (db : Database) :
    Except String (UserMutationResult × Database) := do
  let username := Text.trim input.username
  validateUserFields username input.trafficLimitBytes
  let current ← getUserByIdInTransaction db input.id
  let updated ← editUser now input current
  let previousAccess := current.accessStateAt now
  let currentAccess := updated.accessStateAt now
  let accessChanged := previousAccess.allowed != currentAccess.allowed
  -- Runtime configurations carry the name as a label of every authorized user.
  let runtimeLabelChanged :=
    current.username != username && (previousAccess.allowed || currentAccess.allowed)
  let (generation, db) ← commitEdited now updated (runtimeLabelChanged || accessChanged) db
  return (⟨updated, generation, accessChanged⟩, db)

def rotateUserRuntimeIdentityAudited (now : DateTime) (id : ℕ) (expectedUpdatedAt : DateTime)
    (replacement : String) (db : Database) : Except String (UserMutationResult × Database) := do
  let current ← getUserByIdInTransaction db id
  if current.updatedAt ≠ expectedUpdatedAt then
    throw "user changed since this confirmation was loaded"
  else
    let updated :=
      { current with
        uuid := replacement
        updatedAt := nextUserUpdatedAt current.updatedAt now }
    let (generation, db) ← commitEdited now updated true db
    return (⟨updated, generation, false⟩, db)

def setUserEnabled (now : DateTime) (id : ℕ) (enabled : Bool) (db : Database) :
    Except String (UserMutationResult × Database) := do
  let current ← getUserByIdInTransaction db id
  if current.enabled = enabled then
    throw "user already has the requested enabled state"
  else
    let updated :=
      { current with
        enabled
        updatedAt := nextUserUpdatedAt current.updatedAt now }
    let accessChanged :=
      (current.accessStateAt now).allowed != (updated.accessStateAt now).allowed
    let (generation, db) ← commitEdited now updated accessChanged db
    return (⟨updated, generation, accessChanged⟩, db)

def resetUserSubscriptionToken (now : DateTime) (id : ℕ) (newToken : String) (db : Database) :
    Except String (String × Database) := do
  let current ← getUserByIdInTransaction db id
  let updated :=
    { current with
      subscriptionToken := newToken
      updatedAt := nextUserUpdatedAt current.updatedAt now }
  let (_, db) ← commitEdited now updated false db
  return (newToken, db)

/-- The checkpoint goes with the row, by `ON DELETE CASCADE`. -/
def deleteUser (now : DateTime) (id : ℕ) (db : Database) :
    Except String (UserMutationResult × Database) := do
  let current ← getUserByIdInTransaction db id
  let db :=
    { db with
      users := db.users.delete (·.id = id)
      lifecycle := db.lifecycle.erase id }
  let accessChanged := (current.accessStateAt now).allowed
  let (generation, db) := bumpWhen accessChanged db
  return (⟨current, generation, accessChanged⟩, db)

inductive LifecycleEvaluationScope
  | repair
  | deadlines

/-- `NULL` sorts first, and compares with nothing in a condition. -/
def expiresBefore (a b : UserRecord) : Prop :=
  match a.expiresAt, b.expiresAt with
  | none, _ => True
  | some _, none => False
  | some a, some b => a ≤ b

instance : DecidableRel expiresBefore := fun a b ↦ by
  unfold expiresBefore
  split <;> infer_instance

def deadlineReached (now : DateTime) (user : UserRecord) (row : LifecycleState) : Bool :=
  user.expiresAt.any (· ≤ now) && !row.expired

def deadlineLifted (now : DateTime) (user : UserRecord) (row : LifecycleState) : Bool :=
  user.expiresAt.any (now < ·) && row.expired

def candidateIds (now : DateTime) (db : Database) : LifecycleEvaluationScope → List ℕ
  | .repair =>
    let rows := db.users.rows.filter fun user ↦
      match db.lifecycle.get? user.id with
      | none => true
      | some row =>
        row.sourceUpdatedAt != user.updatedAt || deadlineReached now user row ||
          deadlineLifted now user row
    (rows.insertionSort expiresBefore).map (·.id)
  | .deadlines =>
    let reached := db.users.rows.filter fun user ↦
      (db.lifecycle.get? user.id).any (deadlineReached now user)
    let lifted := db.users.rows.filter fun user ↦
      (db.lifecycle.get? user.id).any (deadlineLifted now user)
    ((reached ++ lifted).map (·.id)).insertionSort (· ≤ ·)

def evaluateCandidate (now : DateTime) (db : Database) (id : ℕ) :
    Except String (UserRecord × UserAccessState × Bool) := do
  let user ← getUserByIdInTransaction db id
  let current := user.accessStateAt now
  let accessTransition :=
    match db.lifecycle.get? id with
    | none => !current.allowed
    | some row => row.allowed != current.allowed
  return (user, current, accessTransition)

def markPending (generation : ℕ) (row : LifecycleState) : LifecycleState :=
  { row with pendingGeneration := row.pendingGeneration.map fun _ ↦ generation }

def advancePending (newGeneration : Option ℕ) (db : Database) : Database :=
  newGeneration.elim db fun generation ↦
    { db with lifecycle := db.lifecycle.mapValues fun _ ↦ markPending generation }

def storeCheckpoints (now : DateTime) (newGeneration : Option ℕ)
    (evaluated : List (UserRecord × UserAccessState × Bool)) (db : Database) : Database :=
  evaluated.foldl
    (fun db (user, state, accessTransition) ↦
      upsertUserLifecycleCheckpoint db user state now
        (if accessTransition then newGeneration else none)) db

def evaluateUserLifecycle (now : DateTime) (scope : LifecycleEvaluationScope) (db : Database) :
    Except String (UserLifecycleEvaluation × Database) := do
  let existingPending := (db.lifecycle.values.filterMap (·.pendingGeneration)).max?
  let evaluated ← (candidateIds now db scope).mapM (evaluateCandidate now db)
  let transitionCount := evaluated.countP fun candidate ↦ candidate.2.2
  let (newGeneration, db) := bumpWhen (0 < transitionCount) db
  let db := storeCheckpoints now newGeneration evaluated (advancePending newGeneration db)
  return (⟨evaluated.length, transitionCount, newGeneration.orElse fun _ ↦ existingPending⟩, db)

def evaluateDueUserLifecycleTransitions (now : DateTime) (db : Database) :
    Except String (UserLifecycleEvaluation × Database) :=
  evaluateUserLifecycle now .deadlines db

/-- Clears the rows of the outbox up to a generation. -/
def markUserLifecycleReconcilePublished (generation : ℕ) (db : Database) : Database :=
  { db with
    lifecycle := db.lifecycle.mapValues fun _ row ↦
      if row.pendingGeneration.any (· ≤ generation) then { row with pendingGeneration := none }
      else row }

theorem checkUnique_ok {α : Type} {result : Option α} {a : α} (h : checkUnique result = .ok a) :
    result = some a :=
  Except.elim_eq_ok.mp h

end StealthHub.Users

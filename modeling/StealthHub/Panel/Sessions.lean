import StealthHub.Data.OrderedMap
import StealthHub.Data.Text
import StealthHub.Effect.Concurrent
import StealthHub.Users.Store

set_option autoImplicit false

namespace StealthHub.Panel

open Effect Effect.Program Text Relation
open Users (DateTime)

structure AdminRecord where
  username : String
  passwordHash : String
  /-- How many rotations went before this hash. The code does not count them. -/
  rotation : ℕ
  deriving DecidableEq

structure AdminSessionRecord where
  adminId : ℕ
  tokenHash : String
  expiresAt : DateTime
  lastSeenAt : DateTime
  /-- The rotation of the hash that the login was verified against. -/
  rotation : ℕ
  deriving DecidableEq

/-- The administrators by their identifiers, and the sessions. -/
structure SessionStore where
  admins : OrderedMap ℕ AdminRecord
  sessions : List AdminSessionRecord

/-- What the handlers ask for. A session is created for an administrator as the login loaded
it; the code passes the identifier alone. -/
inductive SessionOp
  | adminCount
  | retryAfter
  | recordFailure
  | recordSuccess
  | getAdminByUsername (username : String)
  | getAdminById (id : ℕ)
  | verifyPassword (password passwordHash : String)
  | hashPassword (password : String)
  | now
  | generateSessionToken
  | createAdminSession (adminId : ℕ) (admin : AdminRecord) (tokenHash : String)
    (expiresAt : DateTime)
  | getValidAdminSession (tokenHash : String)
  | touchAdminSession (tokenHash : String)
  | deleteAdminSession (tokenHash : String)
  | deleteExpiredAdminSessions
  | updateAdminPasswordAndRevokeSessions (adminId : ℕ) (passwordHash : String)

def SessionReply : SessionOp → Type
  | .adminCount => Except String ℕ
  | .retryAfter => Option ℕ
  | .now => DateTime
  | .recordFailure | .recordSuccess => Unit
  | .getAdminByUsername _ => Except String (Option (ℕ × AdminRecord))
  | .getAdminById _ => Except String (Option AdminRecord)
  | .verifyPassword _ _ => Except String (Option Bool)
  | .hashPassword _ | .generateSessionToken => Except String String
  | .getValidAdminSession _ => Except String (Option AdminSessionRecord)
  | .createAdminSession _ _ _ _ | .touchAdminSession _ | .deleteAdminSession _
  | .deleteExpiredAdminSessions | .updateAdminPasswordAndRevokeSessions _ _ => Except String Unit

inductive Response
  | redirect (location : String)
  | loginFailed
  | rateLimited (retryAfter : ℕ)
  | passwordWorkersBusy
  | badRequest (message : String)
  | forbidden (message : String)
  | internalError (context error : String)

abbrev Handler (α : Type) := Program SessionReply Response α

def orInternalError {α : Type} (context : String) (p : Handler (Except String α)) : Handler α :=
  p.bind fun
    | .ok a => .done a
    | .error e => .fail (.internalError context e)

namespace SessionStore

variable (s : SessionStore)

def getAdminByUsername (username : String) : Option (ℕ × AdminRecord) :=
  s.admins.entries.find? fun entry ↦ entry.2.username = trim username

def withSessions (sessions : List AdminSessionRecord) : SessionStore := { s with sessions }

def updateAdminPassword (adminId : ℕ) (passwordHash : String) : Except String SessionStore :=
  match s.admins.get? adminId with
  | none => .error "administrator not found"
  | some admin => .ok {
      admins := s.admins.insert adminId
        { admin with passwordHash, rotation := admin.rotation + 1 }
      sessions := s.sessions.filter fun session ↦ session.adminId ≠ adminId }

end SessionStore

/-- What a request may find and leave. A request of the database that fails leaves it as it was. -/
def SessionStep (verify : String → String → Bool) (s : SessionStore) :
    (op : SessionOp) → SessionReply op → SessionStore → Prop
  | .adminCount, r, t => t = s ∧ ∀ count, r = .ok count → count = s.admins.entries.length
  | .retryAfter, _, t | .recordFailure, _, t | .recordSuccess, _, t | .hashPassword _, _, t
  | .now, _, t | .generateSessionToken, _, t => t = s
  | .getAdminByUsername username, r, t =>
    t = s ∧ ∀ found, r = .ok found → found = s.getAdminByUsername username
  | .getAdminById id, r, t => t = s ∧ ∀ found, r = .ok found → found = s.admins.get? id
  | .verifyPassword password passwordHash, r, t =>
    t = s ∧ ∀ accepted, r = .ok (some accepted) → accepted = verify password passwordHash
  | .getValidAdminSession tokenHash, r, t => t = s ∧ ∀ session, r = .ok (some session) →
    session ∈ s.sessions ∧ session.tokenHash = tokenHash
  | .createAdminSession adminId admin tokenHash expiresAt, r, t => r ≠ .ok () ∧ t = s ∨
    r = .ok () ∧ ∃ now, t = s.withSessions
      (s.sessions ++ [⟨adminId, tokenHash, expiresAt, now, admin.rotation⟩])
  | .touchAdminSession tokenHash, _, t => t = s ∨ ∃ now, t = s.withSessions
    (s.sessions.map fun session ↦
      if session.tokenHash = tokenHash then { session with lastSeenAt := now } else session)
  | .deleteAdminSession tokenHash, _, t =>
    t = s ∨ t = s.withSessions (s.sessions.filter fun session ↦ session.tokenHash ≠ tokenHash)
  | .deleteExpiredAdminSessions, _, t => t = s ∨ ∃ now : DateTime, t = s.withSessions
    (s.sessions.filter fun session ↦ now < session.expiresAt)
  | .updateAdminPasswordAndRevokeSessions adminId passwordHash, r, t => r ≠ .ok () ∧ t = s ∨
    r = .ok () ∧ s.updateAdminPassword adminId passwordHash = .ok t

def minute : ℤ := 60000000000

def sessionTouchIntervalMinutes : ℤ := 5

def adminSessionTtlDays : ℤ := 7

def minAdminPasswordLen : ℕ := 12

def maxAdminPasswordLen : ℕ := 1024

def dummyPasswordHash : String :=
  "$argon2id$v=19$m=19456,t=2,p=1$gTSHLOLVD71RNAjjkqaKvQ$cCpCPgJOl06K2/RHtedp/MTm/4u+0n4JeNlYF00eQj4"

section handlers

variable (hashSessionToken csrfTokenForSessionToken : String → String)

/-- A failure to prune the expired sessions is only logged. -/
def createSessionRedirect (adminId : ℕ) (admin : AdminRecord) (location : String) :
    Handler Response := do
  let _ ← request SessionOp.deleteExpiredAdminSessions
  let token ← orInternalError "generate administrator session"
    (request SessionOp.generateSessionToken)
  let now : DateTime ← request SessionOp.now
  let expiresAt := now + adminSessionTtlDays * 24 * 60 * minute
  orInternalError "create administrator session"
    (request (SessionOp.createAdminSession adminId admin (hashSessionToken token) expiresAt))
  return .redirect location

def failedLogin : Handler Response := do
  let _ ← request SessionOp.recordFailure
  return .loginFailed

structure LoginForm where
  username : String
  password : String

def loginUnknown (form : LoginForm) : Handler Response := do
  match ← orInternalError "verify dummy administrator password"
      (request (SessionOp.verifyPassword form.password dummyPasswordHash)) with
  | some _ => failedLogin
  | none => return .passwordWorkersBusy

def loginAdmin (form : LoginForm) (adminId : ℕ) (admin : AdminRecord) : Handler Response := do
  match ← orInternalError "verify administrator password"
      (request (SessionOp.verifyPassword form.password admin.passwordHash)) with
  | some true => do
    let _ ← request SessionOp.recordSuccess
    createSessionRedirect hashSessionToken adminId admin "/admin"
  | some false => failedLogin
  | none => return .passwordWorkersBusy

def loginAction (form : LoginForm) : Handler Response := do
  let count : Except String ℕ ← request SessionOp.adminCount
  if count.toOption = some 0 then return .redirect "/admin/setup"
  else
    let retryAfter : Option ℕ ← request SessionOp.retryAfter
    match retryAfter with
    | some seconds => return .rateLimited seconds
    | none =>
      if maxAdminPasswordLen < len form.password then failedLogin
      else
        match ← orInternalError "load administrator for login"
            (request (SessionOp.getAdminByUsername form.username)) with
        | none => loginUnknown form
        | some (adminId, admin) => loginAdmin hashSessionToken form adminId admin

def currentAdmin (token : String) : Handler (Option (ℕ × AdminRecord)) := do
  let tokenHash := hashSessionToken token
  let session : Option AdminSessionRecord ← orInternalError "validate administrator session"
    (request (SessionOp.getValidAdminSession tokenHash))
  match session with
  | none => return none
  | some session =>
    let admin : Option AdminRecord ← orInternalError "validate administrator session"
      (request (SessionOp.getAdminById session.adminId))
    match admin with
    | some admin =>
      let now : DateTime ← request SessionOp.now
      if session.lastSeenAt ≤ now - sessionTouchIntervalMinutes * minute then
        orInternalError "validate administrator session"
          (request (SessionOp.touchAdminSession tokenHash))
      return some (session.adminId, admin)
    | none =>
      orInternalError "validate administrator session"
        (request (SessionOp.deleteAdminSession tokenHash))
      return none

def requireAdmin (token : Option String) : Handler (ℕ × AdminRecord) := do
  let admin : Option (ℕ × AdminRecord) ← match token with
    | none => pure none
    | some token => currentAdmin hashSessionToken token
  match admin with
  | some admin => return admin
  | none =>
    let count : ℕ ← orInternalError "inspect administrator state" (request SessionOp.adminCount)
    .fail (.redirect (if count = 0 then "/admin/setup" else "/admin/login"))

structure PasswordChangeForm where
  csrfToken : String
  currentPassword : String
  newPassword : String
  newPasswordConfirm : String

def checkPasswordChange (token : Option String) (form : PasswordChangeForm) :
    Except Response Unit :=
  if token.map csrfTokenForSessionToken ≠ some form.csrfToken then
    .error (.forbidden
      "Security token is missing or invalid. Please reload the page and try again.")
  else if maxAdminPasswordLen < len form.currentPassword then
    .error (.forbidden "Current password is incorrect.")
  else if len form.newPassword < minAdminPasswordLen ∨ maxAdminPasswordLen < len form.newPassword then
    .error (.badRequest "New password must be 12-1024 characters long.")
  else if form.newPassword ≠ form.newPasswordConfirm then
    .error (.badRequest "New password confirmation does not match.")
  else .ok ()

def changePasswordAction (token : Option String) (form : PasswordChangeForm) :
    Handler Response := do
  let (adminId, admin) ← requireAdmin hashSessionToken token
  Program.lift (checkPasswordChange csrfTokenForSessionToken token form)
  match ← orInternalError "verify current administrator password"
      (request (SessionOp.verifyPassword form.currentPassword admin.passwordHash)) with
  | none => return .passwordWorkersBusy
  | some false => return .forbidden "Current password is incorrect."
  | some true =>
    let passwordHash ← orInternalError "hash replacement administrator password"
      (request (SessionOp.hashPassword form.newPassword))
    orInternalError "rotate administrator password"
      (request (SessionOp.updateAdminPasswordAndRevokeSessions adminId passwordHash))
    return .redirect "/admin/login"

/-- A request of a browser. -/
inductive SessionRequest
  | login (form : LoginForm)
  | changePassword (token : Option String) (form : PasswordChangeForm)

def SessionRequest.handle : SessionRequest → Handler Response
  | .login form => loginAction hashSessionToken form
  | .changePassword token form =>
    changePasswordAction hashSessionToken csrfTokenForSessionToken token form

end handlers

section rotation

variable {verify : String → String → Bool} {hashSessionToken csrfTokenForSessionToken : String → String}
variable {s t : SessionStore} {op : SessionOp} {r : SessionReply op} {adminId : ℕ}
variable {admin later : AdminRecord}

def AdminRecord.Since (admin later : AdminRecord) : Prop :=
  later = admin ∨ admin.rotation < later.rotation

/-- The administrator has the record, or had it. -/
def Known (adminId : ℕ) (admin : AdminRecord) (s : SessionStore) : Prop :=
  ∃ later, s.admins.get? adminId = some later ∧ admin.Since later

def Rotates (s t : SessionStore) : Prop :=
  ∀ adminId admin, s.admins.get? adminId = some admin → Known adminId admin t

def AsksKnown (s : SessionStore) : SessionOp → Prop
  | .createAdminSession adminId admin _ _ => Known adminId admin s
  | _ => True

/-- No session was authorized by a hash that a rotation has replaced. -/
def Revoked (s : SessionStore) : Prop :=
  ∀ session ∈ s.sessions, ∀ admin, s.admins.get? session.adminId = some admin →
    ¬session.rotation < admin.rotation

/-- A session is created while the administrator is still as the login loaded it. -/
def CreatesCurrent (s : SessionStore) : (op : SessionOp) → SessionReply op → Prop
  | .createAdminSession adminId admin _ _, r => r = .ok () → s.admins.get? adminId = some admin
  | _, _ => True

theorem AdminRecord.Since.trans {first : AdminRecord} (h : first.Since admin)
    (h' : admin.Since later) : first.Since later := by
  rcases h' with rfl | hlt'
  · exact h
  · rcases h with rfl | hlt
    · exact .inr hlt'
    · exact .inr (hlt.trans hlt')

theorem Known.after (hst : Rotates s t) (h : Known adminId admin s) : Known adminId admin t := by
  obtain ⟨later, hget, hsince⟩ := h
  obtain ⟨latest, hlatest, hsince'⟩ := hst adminId later hget
  exact ⟨latest, hlatest, hsince.trans hsince'⟩

theorem Known.always (hst : ReflTransGen Rotates s t) (h : Known adminId admin s) :
    Known adminId admin t := by
  induction hst with
  | refl => exact h
  | tail _ hstep ih => exact ih.after hstep

theorem known_of_get (h : s.admins.get? adminId = some admin) : Known adminId admin s :=
  ⟨admin, h, .inl rfl⟩

theorem updateAdminPassword_ok {passwordHash : String}
    (h : s.updateAdminPassword adminId passwordHash = .ok t) :
    ∃ admin, s.admins.get? adminId = some admin ∧
      t.admins = s.admins.insert adminId
        { admin with passwordHash, rotation := admin.rotation + 1 } ∧
      t.sessions = s.sessions.filter fun session ↦ session.adminId ≠ adminId := by
  rw [SessionStore.updateAdminPassword] at h
  split at h
  · cases h
  next admin hadmin =>
    cases h
    exact ⟨admin, hadmin, rfl, rfl⟩

theorem updateAdminPassword_rotates {passwordHash : String}
    (h : s.updateAdminPassword adminId passwordHash = .ok t) : Rotates s t := by
  obtain ⟨old, hold, hadmins, -⟩ := updateAdminPassword_ok h
  intro id admin hget
  rw [Known, hadmins, OrderedMap.get?_insert]
  split_ifs with hid
  · subst hid
    cases hget.symm.trans hold
    exact ⟨_, rfl, .inr (Nat.lt_succ_self _)⟩
  · exact ⟨admin, hget, .inl rfl⟩

theorem rotates_of_admins (h : t.admins = s.admins) : Rotates s t := by
  intro adminId admin hget
  rw [← h] at hget
  exact known_of_get hget

theorem step_admins (h : SessionStep verify s op r t) : t.admins = s.admins ∨
    ∃ adminId passwordHash, op = .updateAdminPasswordAndRevokeSessions adminId passwordHash ∧
      s.updateAdminPassword adminId passwordHash = .ok t := by
  cases op with
  | updateAdminPasswordAndRevokeSessions adminId passwordHash =>
    rcases h with ⟨-, rfl⟩ | ⟨-, h⟩
    · exact .inl rfl
    · exact .inr ⟨_, _, rfl, h⟩
  | createAdminSession =>
    rcases h with ⟨-, rfl⟩ | ⟨-, -, rfl⟩
    · exact .inl rfl
    · exact .inl rfl
  | touchAdminSession | deleteExpiredAdminSessions =>
    rcases h with rfl | ⟨-, rfl⟩
    · exact .inl rfl
    · exact .inl rfl
  | deleteAdminSession =>
    rcases h with rfl | rfl
    · exact .inl rfl
    · exact .inl rfl
  | adminCount | getAdminByUsername | getAdminById | verifyPassword | getValidAdminSession =>
    obtain ⟨rfl, -⟩ := h
    exact .inl rfl
  | retryAfter | recordFailure | recordSuccess | hashPassword | now | generateSessionToken =>
    obtain rfl := h
    exact .inl rfl

theorem step_rotates (h : SessionStep verify s op r t) : Rotates s t := by
  rcases step_admins h with hadmins | ⟨adminId, passwordHash, -, hrotated⟩
  · exact rotates_of_admins hadmins
  · exact updateAdminPassword_rotates hrotated

theorem revoked_of_sessions (hs : Revoked s) (hadmins : t.admins = s.admins)
    (hsessions : ∀ session ∈ t.sessions, ∃ old ∈ s.sessions, old.adminId = session.adminId ∧
      old.rotation = session.rotation) : Revoked t := by
  intro session hsession admin hget
  obtain ⟨old, hold, hid, hrotation⟩ := hsessions session hsession
  rw [hadmins, ← hid] at hget
  rw [← hrotation]
  exact hs old hold admin hget

theorem updateAdminPassword_revoked {passwordHash : String} (hs : Revoked s)
    (h : s.updateAdminPassword adminId passwordHash = .ok t) : Revoked t := by
  obtain ⟨old, -, hadmins, hsessions⟩ := updateAdminPassword_ok h
  intro session hsession admin hget
  rw [hsessions, List.mem_filter, decide_eq_true_eq] at hsession
  rw [hadmins, OrderedMap.get?_insert, if_neg hsession.2.symm] at hget
  exact hs session hsession.1 admin hget

theorem created_revoked {tokenHash : String} {expiresAt now : DateTime} (hs : Revoked s)
    (hknown : Known adminId admin s) :
    Revoked (s.withSessions (s.sessions ++ [⟨adminId, tokenHash, expiresAt, now, admin.rotation⟩])) ↔
      s.admins.get? adminId = some admin := by
  obtain ⟨later, hget, hsince⟩ := hknown
  constructor
  · intro ht
    rcases hsince with rfl | hlt
    · exact hget
    · exact absurd hlt (ht _ (List.mem_append_right _ List.mem_cons_self) later hget)
  · intro hcurrent session hsession found hfound
    rcases List.mem_append.mp hsession with hold | hnew
    · exact hs session hold found hfound
    · obtain rfl := List.mem_singleton.mp hnew
      cases hfound.symm.trans hcurrent
      exact lt_irrefl _

theorem step_revoked (hasks : AsksKnown s op) (hs : Revoked s) (h : SessionStep verify s op r t) :
    Revoked t ↔ CreatesCurrent s op r := by
  have hsub {p : AdminSessionRecord → Bool} : Revoked (s.withSessions (s.sessions.filter p)) :=
    revoked_of_sessions hs rfl fun session hsession ↦
      ⟨session, List.mem_of_mem_filter hsession, rfl, rfl⟩
  cases op with
  | createAdminSession adminId admin tokenHash expiresAt =>
    rcases h with ⟨hfailed, rfl⟩ | ⟨hr, now, rfl⟩
    · exact iff_of_true hs fun hr ↦ absurd hr hfailed
    · rw [created_revoked hs hasks]
      exact ⟨fun hcurrent _ ↦ hcurrent, fun hcurrent ↦ hcurrent hr⟩
  | updateAdminPasswordAndRevokeSessions adminId passwordHash =>
    refine iff_of_true ?_ trivial
    rcases h with ⟨-, rfl⟩ | ⟨-, hrotated⟩
    · exact hs
    · exact updateAdminPassword_revoked hs hrotated
  | touchAdminSession tokenHash =>
    refine iff_of_true ?_ trivial
    rcases h with rfl | ⟨now, rfl⟩
    · exact hs
    · refine revoked_of_sessions hs rfl fun session hsession ↦ ?_
      obtain ⟨old, hold, rfl⟩ := List.mem_map.mp hsession
      refine ⟨old, hold, ?_, ?_⟩ <;> split_ifs <;> rfl
  | deleteExpiredAdminSessions =>
    refine iff_of_true ?_ trivial
    rcases h with rfl | ⟨now, rfl⟩
    · exact hs
    · exact hsub
  | deleteAdminSession tokenHash =>
    refine iff_of_true ?_ trivial
    rcases h with rfl | rfl
    · exact hs
    · exact hsub
  | adminCount | getAdminByUsername | getAdminById | verifyPassword | getValidAdminSession =>
    obtain ⟨rfl, -⟩ := h
    exact iff_of_true hs trivial
  | retryAfter | recordFailure | recordSuccess | hashPassword | now | generateSessionToken =>
    obtain rfl := h
    exact iff_of_true hs trivial

def CreatesNone (op : SessionOp) : Prop := ∀ s, AsksKnown s op

theorem orInternalError_uses {α : Type} {context : String} {p : Handler (Except String α)}
    (hp : p.Uses CreatesNone) : (orInternalError context p).Uses CreatesNone := by
  refine uses_bind hp fun result ↦ ?_
  cases result with
  | ok a => trivial
  | error e => trivial

theorem request_uses (hop : CreatesNone op) : (request op : Handler (SessionReply op)).Uses
    CreatesNone := ⟨hop, fun _ ↦ trivial⟩

theorem failedLogin_uses : failedLogin.Uses CreatesNone := ⟨fun _ ↦ trivial, fun _ ↦ trivial⟩

theorem currentAdmin_uses (token : String) :
    (currentAdmin hashSessionToken token).Uses CreatesNone := by
  refine uses_bind (orInternalError_uses (request_uses fun _ ↦ trivial)) fun session ↦ ?_
  cases session with
  | none => trivial
  | some session =>
    refine uses_bind (orInternalError_uses (request_uses fun _ ↦ trivial)) fun admin ↦ ?_
    cases admin with
    | none =>
      exact uses_bind (orInternalError_uses (request_uses fun _ ↦ trivial)) fun _ ↦ trivial
    | some admin =>
      refine uses_bind (request_uses fun _ ↦ trivial) fun now ↦ ?_
      split_ifs
      · exact uses_bind (orInternalError_uses (request_uses fun _ ↦ trivial)) fun _ ↦ trivial
      · trivial

theorem requireAdmin_uses (token : Option String) :
    (requireAdmin hashSessionToken token).Uses CreatesNone := by
  have hnone : ((orInternalError "inspect administrator state" (request SessionOp.adminCount)).bind
      fun count : ℕ ↦ (.fail (.redirect (if count = 0 then "/admin/setup" else "/admin/login")) :
        Handler (ℕ × AdminRecord))).Uses CreatesNone :=
    uses_bind (orInternalError_uses (request_uses fun _ ↦ trivial)) fun _ ↦ trivial
  cases token with
  | none => exact hnone
  | some token =>
    refine uses_bind (currentAdmin_uses token) fun admin ↦ ?_
    cases admin with
    | some admin => trivial
    | none => exact hnone

theorem changePasswordAction_uses (token : Option String) (form : PasswordChangeForm) :
    (changePasswordAction hashSessionToken csrfTokenForSessionToken token form).Uses
      CreatesNone := by
  refine uses_bind (requireAdmin_uses token) fun admin ↦ uses_bind (uses_lift _) fun _ ↦
    uses_bind (orInternalError_uses (request_uses fun _ ↦ trivial)) fun verified ↦ ?_
  match verified with
  | none => trivial
  | some false => trivial
  | some true =>
    exact uses_bind (orInternalError_uses (request_uses fun _ ↦ trivial)) fun _ ↦
      uses_bind (orInternalError_uses (request_uses fun _ ↦ trivial)) fun _ ↦ trivial

abbrev Waits {α : Type} (verify : String → String → Bool) (Q : α → SessionStore → Prop)
    (p : Handler α) (s : SessionStore) : Prop :=
  p.Conforms (SessionStep verify) Rotates AsksKnown Q s

theorem uses_waits {α : Type} {p : Handler α} (h : p.Uses CreatesNone)
    (hknown : Known adminId admin s) :
    Waits verify (fun _ t ↦ True ∧ Known adminId admin t) p s :=
  h.conforms.frame (fun _ _ _ _ ↦ step_rotates) (fun _ _ ↦ Known.after) hknown

theorem waits_bind {α β : Type} {p : Handler α} {k : α → Handler β} {R : β → SessionStore → Prop}
    (h : p.Uses CreatesNone) (hknown : Known adminId admin s)
    (hk : ∀ a t, Known adminId admin t → Waits verify R (k a) t) :
    Waits verify R (p.bind k) s :=
  conforms_bind (uses_waits h hknown) fun a t ht ↦ hk a t (ht t .refl).2

theorem orInternalError_waits {α : Type} {context : String} {p : Handler (Except String α)}
    (h : Waits verify (fun _ _ ↦ True) p s) :
    Waits verify (fun _ _ ↦ True) (orInternalError context p) s := by
  refine conforms_bind h fun result s _ ↦ ?_
  cases result with
  | ok a => exact fun _ _ ↦ trivial
  | error e => trivial

theorem createSessionRedirect_waits {location : String} (hknown : Known adminId admin s) :
    Waits verify (fun _ _ ↦ True) (createSessionRedirect hashSessionToken adminId admin location)
      s := by
  refine waits_bind (request_uses fun _ ↦ trivial) hknown fun _ s hknown ↦ ?_
  refine waits_bind (orInternalError_uses (request_uses fun _ ↦ trivial)) hknown
    fun token s hknown ↦ ?_
  refine waits_bind (request_uses fun _ ↦ trivial) hknown fun now s hknown ↦ ?_
  have hcreated : Waits verify (fun _ _ ↦ True) (request (SessionOp.createAdminSession adminId admin
      (hashSessionToken token) (now + adminSessionTtlDays * 24 * 60 * minute))) s :=
    fun s' hs ↦ ⟨hknown.always hs, fun _ _ _ _ _ ↦ trivial⟩
  exact conforms_bind (orInternalError_waits hcreated) fun _ _ _ _ _ ↦ trivial

theorem loginAdmin_waits {form : LoginForm} (hknown : Known adminId admin s) :
    Waits verify (fun _ _ ↦ True) (loginAdmin hashSessionToken form adminId admin) s := by
  refine waits_bind (orInternalError_uses (request_uses fun _ ↦ trivial)) hknown
    fun verified s hknown ↦ ?_
  match verified with
  | none => exact fun _ _ ↦ trivial
  | some false => exact failedLogin_uses.conforms
  | some true =>
    exact waits_bind (request_uses fun _ ↦ trivial) hknown fun _ _ hknown ↦
      createSessionRedirect_waits hknown

theorem getAdminByUsername_known {username : String}
    (h : s.getAdminByUsername username = some (adminId, admin)) : Known adminId admin s := by
  rw [SessionStore.getAdminByUsername] at h
  exact known_of_get (OrderedMap.mem_entries.mp (List.mem_of_find?_eq_some h))

theorem loadAdmin_waits {context username : String} :
    Waits verify (fun found t ↦ ∀ adminId admin, found = some (adminId, admin) →
      Known adminId admin t)
      (orInternalError context (request (SessionOp.getAdminByUsername username))) s := by
  refine fun s' _ ↦ ⟨trivial, fun r t hstep ↦ ?_⟩
  obtain ⟨rfl, hfound⟩ := hstep
  cases r with
  | error e => trivial
  | ok found =>
    intro later hlater adminId admin hloaded
    rw [hfound found rfl] at hloaded
    exact (getAdminByUsername_known hloaded).always hlater

theorem request_waits (hop : CreatesNone op) :
    Waits verify (fun _ _ ↦ True) (request op : Handler (SessionReply op)) s :=
  (request_uses hop).conforms

theorem loginAction_waits {form : LoginForm} :
    Waits verify (fun _ _ ↦ True) (loginAction hashSessionToken form) s := by
  have hcount : CreatesNone .adminCount := fun _ ↦ trivial
  have hretry : CreatesNone .retryAfter := fun _ ↦ trivial
  refine conforms_bind (request_waits hcount) fun count s _ ↦ ?_
  split
  · exact fun _ _ ↦ trivial
  refine conforms_bind (request_waits hretry) fun retryAfter s _ ↦ ?_
  cases retryAfter with
  | some seconds => exact fun _ _ ↦ trivial
  | none =>
    simp only
    split
    · exact failedLogin_uses.conforms
    refine conforms_bind loadAdmin_waits fun found s hfound ↦ ?_
    match found with
    | none =>
      refine Uses.conforms (uses_bind (orInternalError_uses (request_uses fun _ ↦ trivial))
        fun verified ↦ ?_)
      cases verified with
      | some accepted => exact failedLogin_uses
      | none => trivial
    | some (adminId, admin) => exact loginAdmin_waits (hfound s .refl adminId admin rfl)

theorem handle_waits (request : SessionRequest) : Waits verify (fun _ _ ↦ True)
    (request.handle hashSessionToken csrfTokenForSessionToken) s := by
  cases request with
  | login form => exact loginAction_waits
  | changePassword token form => exact (changePasswordAction_uses token form).conforms

/-- Over every interleaving of logins and password changes, no session outlives a rotation if
and only if every session is created while the administrator is as the login loaded it. -/
theorem sessions_revoked_iff {requests : ℕ → SessionRequest}
    {configs : List (Config ℕ SessionReply Response Response SessionStore)} (hs : Revoked s)
    (hrun : List.IsChain (Turn (SessionStep verify)) (⟨fun i ↦ (requests i).handle hashSessionToken
      csrfTokenForSessionToken, s⟩ :: configs)) :
    (∀ config ∈ configs, Revoked config.shared) ↔
      List.IsChain (Turn (keepingTo (SessionStep verify) CreatesCurrent))
        (⟨fun i ↦ (requests i).handle hashSessionToken csrfTokenForSessionToken, s⟩ :: configs) :=
  forall_shared_iff (fun _ _ _ _ ↦ step_rotates) (fun _ _ _ _ ↦ step_revoked) hrun
    (fun i ↦ handle_waits (requests i)) hs

end rotation

section demonstration

variable {s : SessionStore}

def sessionAnswer (s : SessionStore) : (op : SessionOp) → SessionReply op × SessionStore
  | .adminCount => (.ok s.admins.entries.length, s)
  | .retryAfter => (none, s)
  | .recordFailure | .recordSuccess => ((), s)
  | .now => ((0 : ℤ), s)
  | .getAdminByUsername username => (.ok (s.getAdminByUsername username), s)
  | .getAdminById id => (.ok (s.admins.get? id), s)
  | .verifyPassword password passwordHash => (.ok (some (password == passwordHash)), s)
  | .hashPassword password => (.ok password, s)
  | .generateSessionToken => (.ok "token", s)
  | .createAdminSession adminId admin tokenHash expiresAt =>
    (.ok (), s.withSessions (s.sessions ++ [⟨adminId, tokenHash, expiresAt, 0, admin.rotation⟩]))
  | .getValidAdminSession tokenHash =>
    (.ok (s.sessions.find? fun session ↦ session.tokenHash = tokenHash), s)
  | .touchAdminSession _ | .deleteAdminSession _ | .deleteExpiredAdminSessions => (.ok (), s)
  | .updateAdminPasswordAndRevokeSessions adminId passwordHash =>
    match s.updateAdminPassword adminId passwordHash with
    | .ok t => (.ok (), t)
    | .error e => (.error e, s)

theorem sessionAnswer_step (s : SessionStore) (op : SessionOp) :
    SessionStep (· == ·) s op (sessionAnswer s op).1 (sessionAnswer s op).2 := by
  cases op with
  | createAdminSession => exact .inr ⟨rfl, 0, rfl⟩
  | touchAdminSession | deleteAdminSession | deleteExpiredAdminSessions => exact .inl rfl
  | updateAdminPasswordAndRevokeSessions adminId passwordHash =>
    cases hrotated : s.updateAdminPassword adminId passwordHash with
    | ok t =>
      simp only [sessionAnswer, hrotated]
      exact .inr ⟨rfl, hrotated⟩
    | error e =>
      simp only [sessionAnswer, hrotated]
      exact .inl ⟨nofun, rfl⟩
  | getValidAdminSession tokenHash =>
    refine ⟨rfl, fun session hsession ↦ ?_⟩
    have hfound := Except.ok.inj hsession
    exact ⟨List.mem_of_find?_eq_some hfound, by simpa using List.find?_some hfound⟩
  | adminCount | getAdminByUsername | getAdminById =>
    exact ⟨rfl, fun _ h ↦ (Except.ok.inj h).symm⟩
  | verifyPassword => exact ⟨rfl, fun _ h ↦ (Option.some.inj (Except.ok.inj h)).symm⟩
  | retryAfter | recordFailure | recordSuccess | hashPassword | now | generateSessionToken =>
    rfl

def loggedIn : SessionStore where
  admins := .ofList [(1, ⟨"admin", "first password", 0⟩)]
  sessions := [⟨1, "session", 1, 0, 0⟩]

def rotating : ℕ → SessionRequest
  | 0 => .login ⟨"admin", "first password"⟩
  | _ + 1 => .changePassword (some "session")
    ⟨"session", "first password", "second password", "second password"⟩

def rotatingPrograms (i : ℕ) : Handler Response := (rotating i).handle id id

theorem loggedIn_revoked : Revoked loggedIn := by
  intro session hsession admin hget
  rw [List.mem_singleton.mp hsession] at hget ⊢
  have hfirst : loggedIn.admins.get? 1 = some ⟨"admin", "first password", 0⟩ := rfl
  cases hget.symm.trans hfirst
  exact lt_irrefl 0

def outlived (s : SessionStore) : Bool :=
  s.sessions.any fun session ↦
    (s.admins.get? session.adminId).any fun admin ↦ session.rotation < admin.rotation

theorem not_revoked_of_outlived (h : outlived s = true) : ¬Revoked s := by
  intro hs
  obtain ⟨session, hsession, hrotated⟩ := List.any_eq_true.mp h
  obtain ⟨admin, hget, hlt⟩ := (Option.any_eq_true _ _).mp hrotated
  exact hs session hsession admin hget (of_decide_eq_true hlt)

theorem rotated_turns : ∃ config : Config ℕ SessionReply Response Response SessionStore,
    ReflTransGen (Turn (SessionStep (· == ·))) ⟨rotatingPrograms, loggedIn⟩ config ∧
      outlived config.shared = true := by
  have hlogin := (exec_run sessionAnswer_step 8 (rotatingPrograms 0) loggedIn).turns
    (i := 0) rotatingPrograms rfl
  set loaded := exec sessionAnswer 8 (rotatingPrograms 0) loggedIn
  have hchange := (exec_run sessionAnswer_step 20 (rotatingPrograms 1) loaded.2).turns
    (i := 1) (Function.update rotatingPrograms 0 loaded.1) rfl
  set changed := exec sessionAnswer 20 (rotatingPrograms 1) loaded.2
  have hcreate := (exec_run sessionAnswer_step 1 loaded.1 changed.2).turns
    (i := 0) (Function.update (Function.update rotatingPrograms 0 loaded.1) 1 changed.1) rfl
  refine ⟨_, (hlogin.trans hchange).trans hcreate, ?_⟩
  decide

theorem session_outlives_rotation :
    ¬∀ (verify : String → String → Bool) (hashSessionToken csrfTokenForSessionToken : String → String)
      (requests : ℕ → SessionRequest) (s : SessionStore)
      (configs : List (Config ℕ SessionReply Response Response SessionStore)), Revoked s →
      List.IsChain (Turn (SessionStep verify)) (⟨fun i ↦ (requests i).handle hashSessionToken
        csrfTokenForSessionToken, s⟩ :: configs) →
      ∀ config ∈ configs, Revoked config.shared := by
  intro hall
  obtain ⟨config, hturns, houtlived⟩ := rotated_turns
  obtain ⟨configs, hchain, config, hmem, houtlived⟩ := exists_chain
    (P := fun s ↦ outlived s = true) hturns (by decide) houtlived
  exact not_revoked_of_outlived houtlived
    (hall _ id id rotating loggedIn configs loggedIn_revoked hchain config hmem)

def currentAnswer (s : SessionStore) : (op : SessionOp) → SessionReply op × SessionStore
  | .createAdminSession adminId admin tokenHash expiresAt =>
    if s.admins.get? adminId = some admin then
      sessionAnswer s (.createAdminSession adminId admin tokenHash expiresAt)
    else (.error "refused", s)
  | op => sessionAnswer s op

theorem currentAnswer_keeps (s : SessionStore) (op : SessionOp) :
    keepingTo (SessionStep (· == ·)) CreatesCurrent s op (currentAnswer s op).1
      (currentAnswer s op).2 := by
  cases op with
  | createAdminSession adminId admin tokenHash expiresAt =>
    by_cases hcurrent : s.admins.get? adminId = some admin
    · simp only [currentAnswer, if_pos hcurrent]
      exact ⟨sessionAnswer_step s _, fun _ ↦ hcurrent⟩
    · simp only [currentAnswer, if_neg hcurrent]
      exact ⟨.inl ⟨nofun, rfl⟩, nofun⟩
  | _ => exact ⟨sessionAnswer_step s _, trivial⟩

theorem sessions_revoked_login : ∃ configs,
    List.IsChain (Turn (SessionStep (· == ·))) (⟨rotatingPrograms, loggedIn⟩ :: configs) ∧
      (∃ config ∈ configs, (config.shared.admins.get? 1).map AdminRecord.rotation = some 1) ∧
        ∀ config ∈ configs, Revoked config.shared := by
  have hturns := Config.exec_turns currentAnswer_keeps 20 [0, 1] ⟨rotatingPrograms, loggedIn⟩
  obtain ⟨configs, hchain, hrotated⟩ := exists_chain
    (P := fun s ↦ (s.admins.get? 1).map AdminRecord.rotation = some 1) hturns (by decide)
    (by decide)
  have hplain := hchain.imp fun _ _ hturn ↦ hturn.of_keepingTo
  exact ⟨configs, hplain, hrotated, (sessions_revoked_iff loggedIn_revoked hplain).mpr hchain⟩

end demonstration

end StealthHub.Panel

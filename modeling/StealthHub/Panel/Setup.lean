import StealthHub.Effect.Interleave
import StealthHub.Panel.Sessions

set_option autoImplicit false

namespace Effect.Program

universe u v w

open Relation

section embedded

variable {Op Op' : Type u} {Reply : Op → Type} {Reply' : Op' → Type} {ε α : Type} {S : Type v}
variable {step : S → (op : Op) → Reply op → S → Prop} {A : S → Op → Prop} {Q : α → S → Prop}
variable {step' : S → (op : Op') → Reply' op → S → Prop} {A' : S → Op' → Prop} {G : S → S → Prop}

theorem Conforms.embed {f : Op → Op'} {reply : ∀ op, Reply' (f op) → Reply op}
    (hasks : ∀ s op, A s op → A' s (f op))
    (hstep : ∀ s op r t, step' s (f op) r t → step s op (reply op r) t) {p : Program Reply ε α}
    {s : S} (h : p.Conforms step G A Q s) : (p.embed f reply).Conforms step' G A' Q s := by
  induction p generalizing s with
  | done a => exact h
  | fail e => trivial
  | call op next ih =>
    intro s' hs
    obtain ⟨hop, hnext⟩ := h s' hs
    exact ⟨hasks s' op hop, fun r t ht ↦ ih _ (hnext _ t (hstep s' op r t ht))⟩

end embedded

section runs

variable {Op : Type u} {Reply : Op → Type} {ε α : Type} {S : Type v} {ι : Type w} [DecidableEq ι]
variable {step : S → (op : Op) → Reply op → S → Prop} {A : S → Op → Prop} {Q : α → S → Prop}
variable {G : S → S → Prop} {c c' : Config ι Reply ε α S}

theorem Config.Conform.run {P : S → Prop} (hc : c.Conform step G A Q) (hP : P c.shared)
    (hG : ∀ s op r t, step s op r t → G s t)
    (hstep : ∀ s op r t, A s op → P s → step s op r t → P t)
    (hrun : ReflTransGen (Turn step) c c') : c'.Conform step G A Q ∧ P c'.shared := by
  induction hrun with
  | refl => exact ⟨hc, hP⟩
  | tail _ hturn ih =>
    obtain ⟨hconform, hP⟩ := ih
    refine ⟨hturn.conform hG hconform, ?_⟩
    obtain @⟨i, op, next, r, t, hprogram, hanswer⟩ := hturn
    have hown := hconform i
    rw [hprogram] at hown
    exact hstep _ _ _ _ (hown _ .refl).1 hP hanswer

theorem Turn.changes (hG : ∀ s op r t, step s op r t → G s t)
    (hrun : ReflTransGen (Turn step) c c') : ReflTransGen G c.shared c'.shared := by
  induction hrun with
  | refl => exact .refl
  | tail _ hturn ih =>
    obtain @⟨i, op, next, r, t, hprogram, hanswer⟩ := hturn
    exact ih.tail (hG _ _ _ _ hanswer)

end runs

end Effect.Program

namespace StealthHub.Panel

open Effect Effect.Program Text Relation
open Users (DateTime)

/-- What the handlers ask for while there may be no administrator yet. -/
inductive SetupOp
  | createFirstAdminAudited (username passwordHash : String)
  | session (op : SessionOp)

def SetupReply : SetupOp → Type
  | .createFirstAdminAudited _ _ => Except String (ℕ × AdminRecord)
  | .session op => SessionReply op

/-- The row is inserted only where the table is empty. -/
def SetupStep (verify : String → String → Bool) (s : SessionStore) :
    (op : SetupOp) → SetupReply op → SessionStore → Prop
  | .createFirstAdminAudited username passwordHash, r, t =>
    (∃ error, r = .error error) ∧ t = s ∨ s.admins.entries = [] ∧ ∃ id,
      r = .ok (id, ⟨trim username, passwordHash, 0⟩) ∧
        t = { s with admins := s.admins.insert id ⟨trim username, passwordHash, 0⟩ }
  | .session op, r, t => SessionStep verify s op r t

inductive SetupResponse
  | session (response : Response)
  | conflict (message : String)

abbrev SetupHandler (α : Type) := Program SetupReply Response α

def amongSetups {α : Type} (p : Handler α) : SetupHandler α := p.embed SetupOp.session fun _ r ↦ r

structure SetupAdminForm where
  setupToken : String
  username : String
  password : String
  passwordConfirm : String

def minSetupTokenLen : ℕ := 32

def setupTokenMatches (setupToken candidate : String) : Bool :=
  minSetupTokenLen ≤ len setupToken && trim candidate = setupToken

def validAccountName (value : String) (minimumLength : ℕ) : Bool :=
  minimumLength ≤ len value && len value ≤ 64 && value.toList.head?.any isAsciiAlphanumeric &&
    value.toList.all fun c ↦ isAsciiAlphanumeric c || c = '.' || c = '_' || c = '-'

def checkSetup (setupToken : String) (form : SetupAdminForm) : Except Response Unit :=
  if !setupTokenMatches setupToken form.setupToken then
    .error (.forbidden "The one-time setup token is missing or invalid.")
  else if !validAccountName (trim form.username) 3 then
    .error (.badRequest ("Username must be 3-64 ASCII letters, digits, dots, underscores or hyphens " ++
      "and must start with a letter or digit."))
  else if len form.password < minAdminPasswordLen ∨ maxAdminPasswordLen < len form.password then
    .error (.badRequest "Password must be 12-1024 characters long")
  else if form.password ≠ form.passwordConfirm then
    .error (.badRequest "Password confirmation does not match")
  else .ok ()

section handlers

variable (setupToken : String) (hashSessionToken csrfTokenForSessionToken : String → String)

def setupAdminAction (form : SetupAdminForm) : SetupHandler SetupResponse := do
  let count : ℕ ← amongSetups
    (orInternalError "inspect initial admin state" (request SessionOp.adminCount))
  if count ≠ 0 then return .session (.redirect "/admin/login")
  else
    Program.lift (checkSetup setupToken form)
    let passwordHash : String ← amongSetups (orInternalError "hash initial admin password"
      (request (SessionOp.hashPassword form.password)))
    let created : Except String (ℕ × AdminRecord) ←
      request (SetupOp.createFirstAdminAudited (trim form.username) passwordHash)
    match created with
    | .error _ =>
      return .conflict "Initial setup has already been completed or the username is unavailable."
    | .ok (adminId, admin) =>
      let response ← amongSetups (createSessionRedirect hashSessionToken adminId admin "/admin")
      return .session response

/-- A request of a browser, also before there is an administrator. -/
inductive PanelRequest
  | setup (form : SetupAdminForm)
  | session (request : SessionRequest)

def PanelRequest.handle : PanelRequest → SetupHandler SetupResponse
  | .setup form => setupAdminAction setupToken hashSessionToken form
  | .session request => do
    let response ← amongSetups (request.handle hashSessionToken csrfTokenForSessionToken)
    return .session response

end handlers

variable {verify : String → String → Bool} {setupToken : String}
  {hashSessionToken csrfTokenForSessionToken : String → String} {requests : ℕ → PanelRequest}
  {s t : SessionStore} {op : SetupOp} {r : SetupReply op} {form : SetupAdminForm} {adminId : ℕ}
  {admin : AdminRecord} {username : String}

def SetUp (setupToken : String) (requests : ℕ → PanelRequest) (username : String) : Prop :=
  ∃ i form, requests i = .setup form ∧ checkSetup setupToken form = .ok () ∧
    username = trim form.username

def Asks (setupToken : String) (requests : ℕ → PanelRequest) (s : SessionStore) : SetupOp → Prop
  | .createFirstAdminAudited username _ => SetUp setupToken requests username
  | .session op => AsksKnown s op

/-- There is at most one administrator, whom a request with the token has set up, and all sessions
are sessions of an administrator. -/
structure Owned (setupToken : String) (requests : ℕ → PanelRequest) (s : SessionStore) : Prop where
  one : ∀ adminId admin other found, s.admins.get? adminId = some admin →
    s.admins.get? other = some found → adminId = other
  named : ∀ adminId admin, s.admins.get? adminId = some admin →
    SetUp setupToken requests admin.username
  sessions : ∀ session ∈ s.sessions, ∃ admin, s.admins.get? session.adminId = some admin

/-- An administrator stays, under the same name. -/
def KeepsOwner (s t : SessionStore) : Prop :=
  ∀ adminId admin, s.admins.get? adminId = some admin →
    ∃ later, t.admins.get? adminId = some later ∧ later.username = admin.username

theorem get?_ne_some (h : s.admins.entries = []) (adminId : ℕ) (admin : AdminRecord) :
    s.admins.get? adminId ≠ some admin := by
  intro hget
  have hmem := OrderedMap.mem_entries.mpr hget
  rw [h] at hmem
  cases hmem

theorem setupStep_rotates (h : SetupStep verify s op r t) : Rotates s t := by
  cases op with
  | session op => exact step_rotates h
  | createFirstAdminAudited username passwordHash =>
    rcases h with ⟨-, rfl⟩ | ⟨hempty, -⟩
    · exact rotates_of_admins rfl
    · exact fun adminId admin hget ↦ absurd hget (get?_ne_some hempty adminId admin)

theorem updateAdminPassword_keeps {passwordHash : String}
    (h : s.updateAdminPassword adminId passwordHash = .ok t) : KeepsOwner s t ∧ KeepsOwner t s := by
  obtain ⟨old, hold, hadmins, -⟩ := updateAdminPassword_ok h
  constructor
  · intro id found hget
    rw [hadmins, OrderedMap.get?_insert]
    split_ifs with hid
    · subst hid
      obtain rfl := Option.some.inj (hold.symm.trans hget)
      exact ⟨_, rfl, rfl⟩
    · exact ⟨found, hget, rfl⟩
  · intro id found hget
    rw [hadmins, OrderedMap.get?_insert] at hget
    split_ifs at hget with hid
    · subst hid
      cases hget
      exact ⟨old, hold, rfl⟩
    · exact ⟨found, hget, rfl⟩

theorem keepsOwner_of_admins (h : t.admins = s.admins) : KeepsOwner s t := by
  intro adminId admin hget
  rw [← h] at hget
  exact ⟨admin, hget, rfl⟩

theorem step_keeps {op : SessionOp} {r : SessionReply op} (h : SessionStep verify s op r t) :
    KeepsOwner s t ∧ KeepsOwner t s := by
  rcases step_admins h with hadmins | ⟨adminId, passwordHash, -, hrotated⟩
  · exact ⟨keepsOwner_of_admins hadmins, keepsOwner_of_admins hadmins.symm⟩
  · exact updateAdminPassword_keeps hrotated

theorem setupStep_keeps (h : SetupStep verify s op r t) : KeepsOwner s t := by
  cases op with
  | session op => exact (step_keeps h).1
  | createFirstAdminAudited username passwordHash =>
    rcases h with ⟨-, rfl⟩ | ⟨hempty, -⟩
    · exact keepsOwner_of_admins rfl
    · exact fun adminId admin hget ↦ absurd hget (get?_ne_some hempty adminId admin)

theorem KeepsOwner.always (h : ReflTransGen KeepsOwner s t) : KeepsOwner s t := by
  induction h with
  | refl => exact fun _ admin hget ↦ ⟨admin, hget, rfl⟩
  | tail _ hstep ih =>
    intro adminId admin hget
    obtain ⟨later, hlater, hname⟩ := ih adminId admin hget
    obtain ⟨last, hlast, hsame⟩ := hstep adminId later hlater
    exact ⟨last, hlast, hsame.trans hname⟩

theorem step_sessions {op : SessionOp} {r : SessionReply op} (hasks : AsksKnown s op)
    (h : SessionStep verify s op r t) {session : AdminSessionRecord} (hsession : session ∈ t.sessions) :
    (∃ old ∈ s.sessions, old.adminId = session.adminId) ∨
      ∃ admin, s.admins.get? session.adminId = some admin := by
  have hsame (hsession : session ∈ s.sessions) :
      ∃ old ∈ s.sessions, old.adminId = session.adminId := ⟨session, hsession, rfl⟩
  cases op with
  | createAdminSession adminId admin tokenHash expiresAt =>
    rcases h with ⟨-, rfl⟩ | ⟨-, now, rfl⟩
    · exact .inl (hsame hsession)
    rcases List.mem_append.mp hsession with hold | hnew
    · exact .inl (hsame hold)
    · obtain rfl := List.mem_singleton.mp hnew
      obtain ⟨later, hget, -⟩ := hasks
      exact .inr ⟨later, hget⟩
  | updateAdminPasswordAndRevokeSessions adminId passwordHash =>
    rcases h with ⟨-, rfl⟩ | ⟨-, hrotated⟩
    · exact .inl (hsame hsession)
    · obtain ⟨-, -, -, hsessions⟩ := updateAdminPassword_ok hrotated
      rw [hsessions] at hsession
      exact .inl (hsame (List.mem_of_mem_filter hsession))
  | touchAdminSession tokenHash =>
    rcases h with rfl | ⟨now, rfl⟩
    · exact .inl (hsame hsession)
    · obtain ⟨old, hold, rfl⟩ := List.mem_map.mp hsession
      refine .inl ⟨old, hold, ?_⟩
      split_ifs
      · rfl
      · rfl
  | deleteExpiredAdminSessions =>
    rcases h with rfl | ⟨now, rfl⟩
    · exact .inl (hsame hsession)
    · exact .inl (hsame (List.mem_of_mem_filter hsession))
  | deleteAdminSession tokenHash =>
    rcases h with rfl | rfl
    · exact .inl (hsame hsession)
    · exact .inl (hsame (List.mem_of_mem_filter hsession))
  | adminCount | getAdminByUsername | getAdminById | verifyPassword | getValidAdminSession =>
    obtain ⟨rfl, -⟩ := h
    exact .inl (hsame hsession)
  | retryAfter | recordFailure | recordSuccess | hashPassword | now | generateSessionToken =>
    obtain rfl := h
    exact .inl (hsame hsession)

theorem owned_step (hasks : Asks setupToken requests s op) (hs : Owned setupToken requests s)
    (h : SetupStep verify s op r t) : Owned setupToken requests t := by
  cases op with
  | session op =>
    obtain ⟨hkeeps, hback⟩ := step_keeps h
    exact {
      one := fun id admin other found hget hfound ↦ by
        obtain ⟨admin', hget', -⟩ := hback id admin hget
        obtain ⟨found', hfound', -⟩ := hback other found hfound
        exact hs.one id admin' other found' hget' hfound'
      named := fun id admin hget ↦ by
        obtain ⟨admin', hget', hname⟩ := hback id admin hget
        rw [← hname]
        exact hs.named id admin' hget'
      sessions := fun session hsession ↦ by
        rcases step_sessions hasks h hsession with ⟨old, hold, hid⟩ | ⟨admin, hget⟩
        · obtain ⟨admin, hget⟩ := hs.sessions old hold
          rw [hid] at hget
          obtain ⟨later, hlater, -⟩ := hkeeps _ admin hget
          exact ⟨later, hlater⟩
        · obtain ⟨later, hlater, -⟩ := hkeeps _ admin hget
          exact ⟨later, hlater⟩ }
  | createFirstAdminAudited username passwordHash =>
    rcases h with ⟨-, rfl⟩ | ⟨hempty, id, -, rfl⟩
    · exact hs
    have hone : ∀ other found, (s.admins.insert id ⟨trim username, passwordHash, 0⟩).get? other =
        some found → id = other ∧ found = ⟨trim username, passwordHash, 0⟩ := by
      intro other found hget
      rw [OrderedMap.get?_insert] at hget
      split_ifs at hget with hid
      · exact ⟨hid, (Option.some.inj hget).symm⟩
      · exact absurd hget (get?_ne_some hempty other found)
    exact {
      one := fun first admin other found hget hfound ↦
        (hone first admin hget).1.symm.trans (hone other found hfound).1
      named := fun other found hget ↦ by
        obtain ⟨i, form, hform, hchecked, hname⟩ := hasks
        rw [(hone other found hget).2]
        refine ⟨i, form, hform, hchecked, ?_⟩
        rw [hname, trim_trim]
      sessions := fun session hsession ↦ by
        obtain ⟨admin, hget⟩ := hs.sessions session hsession
        exact absurd hget (get?_ne_some hempty session.adminId admin) }

abbrev SetupWaits {α : Type} (verify : String → String → Bool) (setupToken : String)
    (requests : ℕ → PanelRequest) (Q : α → SessionStore → Prop) (p : SetupHandler α)
    (s : SessionStore) : Prop :=
  p.Conforms (SetupStep verify) Rotates (Asks setupToken requests) Q s

theorem amongSetups_waits {α : Type} {Q : α → SessionStore → Prop} {p : Handler α}
    (h : Waits verify Q p s) : SetupWaits verify setupToken requests Q (amongSetups p) s := by
  refine h.embed ?_ ?_
  · exact fun _ _ hop ↦ hop
  · exact fun _ _ _ _ hstep ↦ hstep

theorem amongSetups_conforms {α : Type} {p : Handler α} (h : p.Uses CreatesNone) :
    SetupWaits verify setupToken requests (fun _ _ ↦ True) (amongSetups p) s :=
  amongSetups_waits h.conforms

theorem setupAdminAction_waits {i : ℕ} (hform : requests i = .setup form) :
    SetupWaits verify setupToken requests (fun _ _ ↦ True)
      (setupAdminAction setupToken hashSessionToken form) s := by
  refine conforms_bind (amongSetups_conforms
    (orInternalError_uses (request_uses fun _ ↦ trivial))) fun count s _ ↦ ?_
  split_ifs
  · exact fun _ _ ↦ trivial
  have hchecked : SetupWaits verify setupToken requests
      (fun _ _ ↦ checkSetup setupToken form = .ok ()) (lift (checkSetup setupToken form)) s :=
    conforms_lift fun _ hok _ _ ↦ hok
  refine conforms_bind hchecked fun _ s hok ↦ ?_
  have hok := hok s .refl
  refine conforms_bind (amongSetups_conforms
    (orInternalError_uses (request_uses fun _ ↦ trivial))) fun passwordHash s _ ↦ ?_
  refine fun s' _ ↦ ⟨⟨i, form, hform, hok, rfl⟩, fun r t hcreated ↦ ?_⟩
  rcases hcreated with ⟨⟨error, rfl⟩, -⟩ | ⟨-, adminId, rfl, rfl⟩
  · exact fun _ _ ↦ trivial
  · change SetupWaits verify setupToken requests _ ((amongSetups (createSessionRedirect
      hashSessionToken adminId ⟨trim (trim form.username), passwordHash, 0⟩ "/admin")).bind
        fun response ↦ .done (SetupResponse.session response)) _
    refine conforms_bind (amongSetups_waits (createSessionRedirect_waits (known_of_get ?_)))
      fun _ _ _ _ _ ↦ trivial
    rw [OrderedMap.get?_insert, if_pos rfl]

theorem handle_setup_waits (i : ℕ) : SetupWaits verify setupToken requests (fun _ _ ↦ True)
    ((requests i).handle setupToken hashSessionToken csrfTokenForSessionToken) s := by
  cases hrequest : requests i with
  | setup form => exact setupAdminAction_waits hrequest
  | session request =>
    exact conforms_bind (amongSetups_waits (handle_waits request)) fun _ _ _ _ _ ↦ trivial

/-- A panel that nobody has set up. -/
def noAdministrators : SessionStore := ⟨.empty, []⟩

theorem noAdministrators_owned : Owned setupToken requests noAdministrators where
  one := fun adminId admin _ _ hget _ ↦ absurd hget (get?_ne_some rfl adminId admin)
  named := fun adminId admin hget ↦ absurd hget (get?_ne_some rfl adminId admin)
  sessions := List.forall_mem_nil _

/-- However many setups, logins and password changes race on a panel that nobody has set up, there
is at most one administrator, whom a request with the one-time token has set up and who stays under
that name, and nobody else has a session. -/
theorem one_owner (verify : String → String → Bool) (setupToken : String)
    (hashSessionToken csrfTokenForSessionToken : String → String) (requests : ℕ → PanelRequest)
    {c c' : Config ℕ SetupReply Response SetupResponse SessionStore}
    (hrun : ReflTransGen (Turn (SetupStep verify)) ⟨fun i ↦ (requests i).handle setupToken
      hashSessionToken csrfTokenForSessionToken, noAdministrators⟩ c)
    (hrest : ReflTransGen (Turn (SetupStep verify)) c c') :
    Owned setupToken requests c'.shared ∧ KeepsOwner c.shared c'.shared := by
  have hconform : Config.Conform (SetupStep verify) Rotates (Asks setupToken requests)
      (fun _ _ ↦ True) ⟨fun i ↦ (requests i).handle setupToken hashSessionToken
        csrfTokenForSessionToken, noAdministrators⟩ := fun i ↦ handle_setup_waits i
  obtain ⟨-, howned⟩ := hconform.run noAdministrators_owned (fun _ _ _ _ ↦ setupStep_rotates)
    (fun _ _ _ _ ↦ owned_step) (hrun.trans hrest)
  exact ⟨howned, .always (Turn.changes (fun _ _ _ _ ↦ setupStep_keeps) hrest)⟩

def setupAnswer (s : SessionStore) : (op : SetupOp) → SetupReply op × SessionStore
  | .session op => sessionAnswer s op
  | .createFirstAdminAudited username passwordHash =>
    if s.admins.entries = [] then
      (.ok (1, ⟨trim username, passwordHash, 0⟩),
        { s with admins := s.admins.insert 1 ⟨trim username, passwordHash, 0⟩ })
    else (.error "initial administrator already exists", s)

theorem setupAnswer_step (s : SessionStore) (op : SetupOp) :
    SetupStep (· == ·) s op (setupAnswer s op).1 (setupAnswer s op).2 := by
  cases op with
  | session op => exact sessionAnswer_step s op
  | createFirstAdminAudited username passwordHash =>
    by_cases hempty : s.admins.entries = []
    · rw [setupAnswer, if_pos hempty]
      exact .inr ⟨hempty, 1, rfl, rfl⟩
    · rw [setupAnswer, if_neg hempty]
      exact .inl ⟨⟨_, rfl⟩, rfl⟩

def demoToken : String := "0123456789abcdef0123456789abcdef"

def racing : ℕ → PanelRequest
  | 0 => .setup ⟨demoToken, "alice", "first password", "first password"⟩
  | _ + 1 => .setup ⟨demoToken, "bob", "other password", "other password"⟩

def racingSetups : Config ℕ SetupReply Response SetupResponse SessionStore :=
  ⟨fun i ↦ (racing i).handle demoToken id id, noAdministrators⟩

def bothCounted : Config ℕ SetupReply Response SetupResponse SessionStore :=
  racingSetups.exec setupAnswer 1 [0, 1]

def bothAnswered : Config ℕ SetupReply Response SetupResponse SessionStore :=
  bothCounted.exec setupAnswer 9 [1, 0]

theorem one_owner_racing : (bothAnswered.shared.admins.entries.map (·.2.username)) = ["bob"] ∧
    Owned demoToken racing bothAnswered.shared ∧
      KeepsOwner bothCounted.shared bothAnswered.shared := by
  have hcounted := Config.exec_turns setupAnswer_step 1 [0, 1] racingSetups
  have hanswered := Config.exec_turns setupAnswer_step 9 [1, 0] bothCounted
  refine ⟨?_, one_owner _ demoToken id id racing hcounted hanswered⟩
  decide

end StealthHub.Panel

import StealthHub.Users.Lifecycle

set_option autoImplicit false

namespace StealthHub.Users

inductive Action
  | createUser (uuid subscriptionToken : String) (input : NewUser)
  | updateUserAudited (input : UpdateUser)
  | rotateUserRuntimeIdentityAudited (id : ℕ) (expectedUpdatedAt : DateTime) (replacement : String)
  | setUserEnabled (id : ℕ) (enabled : Bool)
  | resetUserSubscriptionToken (id : ℕ) (newToken : String)
  | deleteUser (id : ℕ)
  | evaluateUserLifecycle (scope : LifecycleEvaluationScope)

def Action.run (now : DateTime) (db : Database) : Action → Except String Database
  | .createUser uuid token input => Prod.snd <$> Users.createUser now uuid token input db
  | .updateUserAudited input => Prod.snd <$> Users.updateUserAudited now input db
  | .rotateUserRuntimeIdentityAudited id expected replacement =>
    Prod.snd <$> Users.rotateUserRuntimeIdentityAudited now id expected replacement db
  | .setUserEnabled id enabled => Prod.snd <$> Users.setUserEnabled now id enabled db
  | .resetUserSubscriptionToken id token =>
    Prod.snd <$> Users.resetUserSubscriptionToken now id token db
  | .deleteUser id => Prod.snd <$> Users.deleteUser now id db
  | .evaluateUserLifecycle scope => Prod.snd <$> Users.evaluateUserLifecycle now scope db

/-- A database under its clock, with the identities that were allowed at the
instant its generation was committed. -/
structure Timeline where
  db : Database
  clock : DateTime
  committed : Finset (String × String)

namespace Timeline

def start (clock : DateTime) : Timeline := ⟨initDb, clock, ∅⟩

def commit (s : Timeline) (now : DateTime) (db : Database) : Timeline where
  db
  clock := now
  committed :=
    if db.desiredGeneration = s.db.desiredGeneration then s.committed else authorized db now

/-- A transaction that fails is rolled back. -/
def act (s : Timeline) (now : DateTime) (action : Action) : Timeline :=
  match action.run now s.db with
  | .ok db => s.commit now db
  | .error _ => { s with clock := now }

/-- One action, at an instant not before the last, under a condition on the state
it starts from. -/
inductive Step (P : Timeline → DateTime → Action → Prop) : Timeline → Timeline → Prop
  | act {s : Timeline} {now : DateTime} {action : Action} :
      s.clock ≤ now → P s now action → Step P s (s.act now action)

abbrev Run (P : Timeline → DateTime → Action → Prop) (clock : DateTime) (s : Timeline) : Prop :=
  Relation.ReflTransGen (Step P) (start clock) s

def Lapsed (s : Timeline) (now : DateTime) (user : UserRecord) : Prop :=
  user.identity ∈ s.committed ∧ (user.accessStateAt now).allowed = false

end Timeline

/-- No edit without a new generation hits a user whose deadline passed unscanned:
an update restores the access, a disabling, a token reset and a deletion find none
such. -/
def Timely (s : Timeline) (now : DateTime) : Action → Prop
  | .updateUserAudited input => ∀ user ∈ s.db.users.rows, input.Applies s.db user →
      s.Lapsed now user →
        (UserAccessState.evaluate user.enabled input.expiresAt input.trafficLimitBytes
          user.trafficUsedBytes now).allowed = true
  | .setUserEnabled id enabled => ∀ user ∈ s.db.users.rows, user.id = id →
      user.enabled ≠ enabled → ¬s.Lapsed now user
  | .resetUserSubscriptionToken id _ => ∀ user ∈ s.db.users.rows, user.id = id →
      ¬s.Lapsed now user
  | .deleteUser id => ∀ user ∈ s.db.users.rows, user.id = id → ¬s.Lapsed now user
  | _ => True

variable {s : Timeline} {now committedAt : DateTime} {db' : Database} {bumped : Bool}

def Observed (db : Database) (clock : DateTime) (user : UserRecord) : Prop :=
  ∃ row, db.lifecycle.get? user.id = some row ∧
    ∃ observedAt ≤ clock, row.Records (user.accessStateAt observedAt)

theorem Observed.later {db : Database} {a b : DateTime} {user : UserRecord}
    (h : Observed db a user) (hab : a ≤ b) : Observed db b user := by
  obtain ⟨row, hrow, observedAt, hle, hrecords⟩ := h
  exact ⟨row, hrow, observedAt, hle.trans hab, hrecords⟩

/-- The generation was committed at `committedAt`. An authorized identity belongs to
a user whose checkpoint still allows it, and a checkpoint allows no other user but
one whose deadline the commit had already passed. -/
structure Tracked (s : Timeline) (committedAt : DateTime) : Prop where
  past : committedAt ≤ s.clock
  observed : ∀ user ∈ s.db.users.rows, Observed s.db s.clock user
  kept : ∀ p ∈ s.committed, ∃ user ∈ s.db.users.rows, user.identity = p ∧
    ∃ row, s.db.lifecycle.get? user.id = some row ∧ row.allowed = true
  known : ∀ user ∈ s.db.users.rows, ∀ row, s.db.lifecycle.get? user.id = some row →
    row.allowed = true →
      user.identity ∈ s.committed ∨ (user.accessStateAt committedAt).expired = true

theorem tracked_start (clock : DateTime) : Tracked (.start clock) clock :=
  ⟨le_rfl, nofun, nofun, nofun⟩

theorem Tracked.committed_of_allowed (h : Tracked s committedAt) (hnow : s.clock ≤ now)
    {user : UserRecord} (hu : user ∈ s.db.users.rows)
    (hallowed : (user.accessStateAt now).allowed = true) : user.identity ∈ s.committed := by
  obtain ⟨row, hrow, observedAt, hle, hrecords, -⟩ := h.observed user hu
  rw [allowed_antitone (hle.trans hnow) hallowed] at hrecords
  rcases h.known user hu row hrow hrecords with hc | hexpired
  · exact hc
  · have hlater := expired_mono (h.past.trans hnow) hexpired
    rw [not_expired_of_allowed hallowed] at hlater
    cases hlater

theorem Tracked.later (h : Tracked s committedAt) (hnow : s.clock ≤ now) :
    Tracked { s with clock := now } committedAt where
  past := h.past.trans hnow
  observed := fun user hu ↦ (h.observed user hu).later hnow
  kept := h.kept
  known := h.known

theorem tracked_of_bump (hne : db'.desiredGeneration ≠ s.db.desiredGeneration)
    (hobserved : ∀ user ∈ db'.users.rows, Observed db' now user) :
    Tracked (s.commit now db') now := by
  have hcommitted : (s.commit now db').committed = authorized db' now := if_neg hne
  refine ⟨le_rfl, hobserved, fun p hp ↦ ?_, fun user hu row hrow hallowed ↦ ?_⟩
  · rw [hcommitted] at hp
    obtain ⟨user, hu, hallowed, hid⟩ := mem_authorized.mp hp
    obtain ⟨row, hrow, observedAt, hle, hrecords, -⟩ := hobserved user hu
    rw [allowed_antitone hle hallowed] at hrecords
    exact ⟨user, hu, hid, row, hrow, hrecords⟩
  · obtain ⟨row', hrow', observedAt, hle, hrecords, -⟩ := hobserved user hu
    cases hrow.symm.trans hrow'
    rw [hcommitted]
    by_cases hexpired : (user.accessStateAt now).expired = true
    · exact .inr hexpired
    · refine .inl (mem_authorized.mpr ⟨user, hu, ?_, rfl⟩)
      exact allowed_of_allowed (hrecords.symm.trans hallowed) (by simpa using hexpired)

theorem Tracked.created (h : Tracked s committedAt) (hnow : s.clock ≤ now) {user : UserRecord}
    (hcreated : Created now s.db db' user) : Tracked (s.commit now db') now := by
  refine tracked_of_bump (by rw [hcreated.generation]; omega) fun x hx ↦ ?_
  rcases (hcreated.users x).mp hx with hx | rfl
  · obtain ⟨row, hrow, hrecorded⟩ := (h.observed x hx).later hnow
    exact ⟨row, (hcreated.others x.id (hcreated.fresh x hx)).trans hrow, hrecorded⟩
  · obtain ⟨row, hrow, hrecords⟩ := hcreated.checkpoint
    exact ⟨row, hrow, now, le_rfl, hrecords⟩

section Edited

variable {current updated : UserRecord}

theorem Edited.ne_of_mem {db : Database} (hedited : Edited now db db' current updated bumped)
    {x : UserRecord} (hx : x ∈ db.users.rows) (hne : x ≠ current) : x.id ≠ updated.id := by
  intro hid
  exact hne (eq_of_id hx hedited.current_mem (hid.trans hedited.id_eq))

theorem Tracked.edited_observed (h : Tracked s committedAt) (hnow : s.clock ≤ now)
    (hedited : Edited now s.db db' current updated bumped) :
    ∀ user ∈ db'.users.rows, Observed db' now user := by
  intro x hx
  rcases (hedited.users x).mp hx with rfl | ⟨hx, hne⟩
  · obtain ⟨row, hrow, hrecords⟩ := hedited.checkpoint
    exact ⟨row, hrow, now, le_rfl, hrecords⟩
  · obtain ⟨row, hrow, hrecorded⟩ := (h.observed x hx).later hnow
    exact ⟨row, (hedited.others x.id (hedited.ne_of_mem hx hne)).trans hrow, hrecorded⟩

theorem Tracked.edited_steady (h : Tracked s committedAt) (hnow : s.clock ≤ now)
    (hedited : Edited now s.db db' current updated false) (hlapsed : ¬s.Lapsed now current) :
    Tracked (s.commit now db') committedAt := by
  have hcommitted : (s.commit now db').committed = s.committed := if_pos hedited.generation
  obtain ⟨hsame, hidentity⟩ := hedited.steady rfl
  refine ⟨h.past.trans hnow, h.edited_observed hnow hedited, fun p hp ↦ ?_,
    fun user hu row hrow hallowed ↦ ?_⟩
  · rw [hcommitted] at hp
    obtain ⟨user, hu, rfl, row, hrow, hallowed⟩ := h.kept p hp
    by_cases hcurrent : user = current
    · subst hcurrent
      -- The user has not lapsed, so it is allowed before and after the edit.
      have hbefore : (user.accessStateAt now).allowed = true := by
        by_contra hblocked
        exact hlapsed ⟨hp, by simpa using hblocked⟩
      obtain ⟨row', hrow', hrecords, -⟩ := hedited.checkpoint
      exact ⟨updated, (hedited.users updated).mpr (.inl rfl), hidentity hbefore, row', hrow',
        hrecords.trans (hsame.symm.trans hbefore)⟩
    · exact ⟨user, (hedited.users user).mpr (.inr ⟨hu, hcurrent⟩), rfl, row,
        (hedited.others user.id (hedited.ne_of_mem hu hcurrent)).trans hrow, hallowed⟩
  · rw [hcommitted]
    rcases (hedited.users user).mp hu with rfl | ⟨hu, hne⟩
    · obtain ⟨row', hrow', hrecords, -⟩ := hedited.checkpoint
      cases hrow.symm.trans hrow'
      have hbefore : (current.accessStateAt now).allowed = true :=
        hsame.trans (hrecords.symm.trans hallowed)
      rw [hidentity hbefore]
      exact .inl (h.committed_of_allowed hnow hedited.current_mem hbefore)
    · exact h.known user hu row
        ((hedited.others user.id (hedited.ne_of_mem hu hne)).symm.trans hrow) hallowed

theorem Tracked.edited (h : Tracked s committedAt) (hnow : s.clock ≤ now)
    (hedited : Edited now s.db db' current updated bumped)
    (hlapsed : bumped = false → ¬s.Lapsed now current) :
    ∃ committedAt, Tracked (s.commit now db') committedAt := by
  cases bumped with
  | false => exact ⟨_, h.edited_steady hnow hedited (hlapsed rfl)⟩
  | true =>
    refine ⟨now, tracked_of_bump ?_ (h.edited_observed hnow hedited)⟩
    rw [hedited.generation]
    exact Nat.succ_ne_self _

theorem Tracked.deleted (h : Tracked s committedAt) (hnow : s.clock ≤ now)
    (hdeleted : Deleted now s.db db' current) (hlapsed : ¬s.Lapsed now current) :
    ∃ committedAt, Tracked (s.commit now db') committedAt := by
  have hothers : ∀ x ∈ s.db.users.rows, x ≠ current →
      db'.lifecycle.get? x.id = s.db.lifecycle.get? x.id := fun x hx hne ↦
    hdeleted.others x.id fun hid ↦ hne (eq_of_id hx hdeleted.current_mem hid)
  have hobserved : ∀ user ∈ db'.users.rows, Observed db' now user := by
    intro x hx
    obtain ⟨hx, hne⟩ := (hdeleted.users x).mp hx
    obtain ⟨row, hrow, hrecorded⟩ := (h.observed x hx).later hnow
    exact ⟨row, (hothers x hx hne).trans hrow, hrecorded⟩
  have hgeneration := hdeleted.generation
  cases hallowed : (current.accessStateAt now).allowed with
  | true =>
    refine ⟨now, tracked_of_bump ?_ hobserved⟩
    rw [hgeneration, hallowed]
    exact Nat.succ_ne_self _
  | false =>
    rw [hallowed] at hgeneration
    have hcommitted : (s.commit now db').committed = s.committed := if_pos hgeneration
    refine ⟨committedAt, h.past.trans hnow, hobserved, fun p hp ↦ ?_, fun user hu row hrow ↦ ?_⟩
    · rw [hcommitted] at hp
      obtain ⟨user, hu, rfl, row, hrow, hrow'⟩ := h.kept p hp
      have hne : user ≠ current := by
        rintro rfl
        exact hlapsed ⟨hp, hallowed⟩
      exact ⟨user, (hdeleted.users user).mpr ⟨hu, hne⟩, rfl, row, (hothers user hu hne).trans hrow,
        hrow'⟩
    · obtain ⟨hu, hne⟩ := (hdeleted.users user).mp hu
      rw [hcommitted]
      exact h.known user hu row ((hothers user hu hne).symm.trans hrow)

end Edited

section Evaluated

variable {scope : LifecycleEvaluationScope}

theorem Tracked.evaluated_observed (h : Tracked s committedAt) (hnow : s.clock ≤ now)
    (heval : Evaluated now scope s.db db' bumped) :
    ∀ user ∈ db'.users.rows, Observed db' now user := by
  rw [heval.users]
  intro user hu
  by_cases hcandidate : user.id ∈ candidateIds now s.db scope
  · obtain ⟨row, hrow, hrecords⟩ := heval.candidate user hu hcandidate
    exact ⟨row, hrow, now, le_rfl, hrecords⟩
  · obtain ⟨row, hrow, observedAt, hle, hallowed, hexpired⟩ := (h.observed user hu).later hnow
    obtain ⟨row', hrow', hsame, hsame'⟩ := heval.others user.id row hcandidate hrow
    exact ⟨row', hrow', observedAt, hle, hsame.trans hallowed, hsame'.trans hexpired⟩

theorem Evaluated.allowed_eq {db : Database} (heval : Evaluated now scope db db' false)
    {user : UserRecord} (hu : user ∈ db.users.rows) {row : LifecycleState}
    (hrow : db.lifecycle.get? user.id = some row) :
    ∃ row', db'.lifecycle.get? user.id = some row' ∧ row'.allowed = row.allowed := by
  by_cases hcandidate : user.id ∈ candidateIds now db scope
  · obtain ⟨row', hrow', hrecords, -⟩ := heval.candidate user hu hcandidate
    exact ⟨row', hrow', hrecords.trans (heval.steady rfl user hu hcandidate row hrow).symm⟩
  · obtain ⟨row', hrow', hsame, -⟩ := heval.others user.id row hcandidate hrow
    exact ⟨row', hrow', hsame⟩

theorem Tracked.evaluated (h : Tracked s committedAt) (hnow : s.clock ≤ now)
    (heval : Evaluated now scope s.db db' bumped) :
    ∃ committedAt, Tracked (s.commit now db') committedAt := by
  cases bumped with
  | true =>
    refine ⟨now, tracked_of_bump ?_ (h.evaluated_observed hnow heval)⟩
    rw [heval.generation]
    exact Nat.succ_ne_self _
  | false =>
    have hcommitted : (s.commit now db').committed = s.committed := if_pos heval.generation
    refine ⟨committedAt, h.past.trans hnow, h.evaluated_observed hnow heval, fun p hp ↦ ?_,
      fun user hu row hrow hallowed ↦ ?_⟩
    · rw [hcommitted] at hp
      obtain ⟨user, hu, hid, row, hrow, hallowed⟩ := h.kept p hp
      obtain ⟨row', hrow', hsame⟩ := heval.allowed_eq hu hrow
      exact ⟨user, heval.users ▸ hu, hid, row', hrow', hsame.trans hallowed⟩
    · have hu : user ∈ s.db.users.rows := heval.users ▸ hu
      obtain ⟨before, hbefore, -⟩ := h.observed user hu
      obtain ⟨row', hrow', hsame⟩ := heval.allowed_eq hu hbefore
      cases hrow.symm.trans hrow'
      rw [hcommitted]
      exact h.known user hu before hbefore (hsame.symm.trans hallowed)

theorem mem_candidateIds {db : Database} {user : UserRecord} {row : LifecycleState}
    (hu : user ∈ db.users.rows) (hrow : db.lifecycle.get? user.id = some row)
    (h : deadlineReached now user row = true) : user.id ∈ candidateIds now db .deadlines := by
  simp only [candidateIds, List.mem_insertionSort, List.mem_map, List.mem_append,
    List.mem_filter]
  exact ⟨user, .inl ⟨hu, by rw [hrow]; exact h⟩, rfl⟩

theorem Tracked.due_evaluation (h : Tracked s committedAt) (hnow : s.clock ≤ now)
    (heval : Evaluated now .deadlines s.db db' bumped) :
    authorized db' now = (s.commit now db').committed := by
  cases bumped with
  | true =>
    refine (if_neg ?_).symm
    rw [heval.generation]
    exact Nat.succ_ne_self _
  | false =>
    have hcommitted : (s.commit now db').committed = s.committed := if_pos heval.generation
    rw [hcommitted]
    ext p
    rw [mem_authorized, heval.users]
    constructor
    · rintro ⟨user, hu, hallowed, rfl⟩
      exact h.committed_of_allowed hnow hu hallowed
    · intro hp
      obtain ⟨user, hu, hid, row, hrow, hallowed⟩ := h.kept p hp
      obtain ⟨row', hrow', observedAt, hle, hrecords, hexpired⟩ := h.observed user hu
      cases hrow.symm.trans hrow'
      have hbefore : (user.accessStateAt observedAt).allowed = true := hrecords.symm.trans hallowed
      refine ⟨user, hu, ?_, hid⟩
      by_cases hnowExpired : (user.accessStateAt now).expired = true
      · -- The deadline passed since the checkpoint: the user is a candidate.
        rw [not_expired_of_allowed hbefore] at hexpired
        have hcandidate : deadlineReached now user row = true := by
          rw [deadlineReached, hexpired]
          exact (Bool.and_true _).trans hnowExpired
        rw [← heval.steady rfl user hu (mem_candidateIds hu hrow hcandidate) row hrow]
        exact hallowed
      · exact allowed_of_allowed hbefore (by simpa using hnowExpired)

end Evaluated

theorem Tracked.act (h : Tracked s committedAt) (hnow : s.clock ≤ now) {action : Action}
    (htimely : Timely s now action) : ∃ committedAt, Tracked (s.act now action) committedAt := by
  unfold Timeline.act
  cases hrun : action.run now s.db with
  | error message => exact ⟨_, h.later hnow⟩
  | ok db =>
    cases action with
    | createUser uuid token input =>
      obtain ⟨⟨user, _⟩, hcreate, rfl⟩ := Except.map_eq_ok.mp hrun
      exact ⟨_, h.created hnow (createUser_created hcreate)⟩
    | updateUserAudited input =>
      obtain ⟨⟨result, _⟩, hupdate, rfl⟩ := Except.map_eq_ok.mp hrun
      obtain ⟨current, updated, bumped, happlies, haccess, hedited⟩ := updateUser_edited hupdate
      refine h.edited hnow hedited fun hb hlapsed ↦ ?_
      have hallowed := htimely current hedited.current_mem happlies hlapsed
      rw [← haccess, ← (hedited.steady hb).1, hlapsed.2] at hallowed
      cases hallowed
    | rotateUserRuntimeIdentityAudited id expected replacement =>
      obtain ⟨⟨result, _⟩, hrotate, rfl⟩ := Except.map_eq_ok.mp hrun
      obtain ⟨current, updated, hedited⟩ := rotate_edited hrotate
      exact h.edited hnow hedited nofun
    | setUserEnabled id enabled =>
      obtain ⟨⟨result, _⟩, hset, rfl⟩ := Except.map_eq_ok.mp hrun
      obtain ⟨current, updated, bumped, hid, hne, hedited⟩ := setEnabled_edited hset
      exact h.edited hnow hedited fun _ ↦ htimely current hedited.current_mem hid hne
    | resetUserSubscriptionToken id newToken =>
      obtain ⟨⟨token, _⟩, hreset, rfl⟩ := Except.map_eq_ok.mp hrun
      obtain ⟨current, updated, hid, hedited⟩ := resetToken_edited hreset
      exact h.edited hnow hedited fun _ ↦ htimely current hedited.current_mem hid
    | deleteUser id =>
      obtain ⟨⟨result, _⟩, hdelete, rfl⟩ := Except.map_eq_ok.mp hrun
      obtain ⟨current, hid, hdeleted⟩ := deleteUser_deleted hdelete
      exact h.deleted hnow hdeleted (htimely current hdeleted.current_mem hid)
    | evaluateUserLifecycle scope =>
      obtain ⟨⟨result, _⟩, heval, rfl⟩ := Except.map_eq_ok.mp hrun
      obtain ⟨bumped, hevaluated⟩ := evaluate_evaluated heval
      exact h.evaluated hnow hevaluated

theorem tracked_of_run {clock : DateTime} (h : Timeline.Run Timely clock s) :
    ∃ committedAt, Tracked s committedAt := by
  induction h with
  | refl => exact ⟨_, tracked_start clock⟩
  | tail _ hstep ih =>
    obtain ⟨hnow, htimely⟩ := hstep
    obtain ⟨committedAt, htracked⟩ := ih
    exact htracked.act hnow htimely

/-- In a run of timely actions, a committed deadline scan leaves exactly the allowed
users authorized by the current generation. -/
theorem due_evaluation_keeps_up {clock : DateTime} {result : UserLifecycleEvaluation}
    (h : Timeline.Run Timely clock s) (hnow : s.clock ≤ now)
    (heval : evaluateDueUserLifecycleTransitions now s.db = .ok (result, db')) :
    authorized db' now = (s.commit now db').committed := by
  obtain ⟨committedAt, htracked⟩ := tracked_of_run h
  obtain ⟨bumped, hevaluated⟩ := evaluate_evaluated heval
  exact htracked.due_evaluation hnow hevaluated

instance (s : Timeline) (now : DateTime) (user : UserRecord) : Decidable (s.Lapsed now user) :=
  inferInstanceAs (Decidable (_ ∧ _))

def aliceCreated : Timeline :=
  (Timeline.start 0).act 0 (.createUser "u-1" "t-1" ⟨"alice", none, some 10⟩)

def aliceReset (now : DateTime) : Timeline :=
  aliceCreated.act now (.resetUserSubscriptionToken 1 "t-2")

theorem aliceReset_run {P : Timeline → DateTime → Action → Prop} {now : DateTime}
    (hcreate : P (.start 0) 0 (.createUser "u-1" "t-1" ⟨"alice", none, some 10⟩))
    (hnow : aliceCreated.clock ≤ now)
    (hreset : P aliceCreated now (.resetUserSubscriptionToken 1 "t-2")) :
    Timeline.Run P 0 (aliceReset now) :=
  (Relation.ReflTransGen.single (.act le_rfl hcreate)).tail (.act hnow hreset)

theorem due_evaluation_keeps_up_alice :
    ∃ result db, evaluateDueUserLifecycleTransitions 20 (aliceReset 5).db = .ok (result, db) ∧
      authorized db 20 = ((aliceReset 5).commit 20 db).committed := by
  obtain ⟨⟨result, db⟩, heval⟩ : ∃ evaluated,
      evaluateDueUserLifecycleTransitions 20 (aliceReset 5).db = .ok evaluated :=
    Except.exists_of_isOk (by decide)
  have htimely : Timely aliceCreated 5 (.resetUserSubscriptionToken 1 "t-2") := by
    show ∀ user ∈ aliceCreated.db.users.rows, user.id = 1 → ¬aliceCreated.Lapsed 5 user
    decide
  have hrun : Timeline.Run Timely 0 (aliceReset 5) :=
    aliceReset_run trivial (by decide) htimely
  exact ⟨result, db, heval, due_evaluation_keeps_up hrun (by decide) heval⟩

theorem lapsed_reset_lost :
    ¬∀ (clock now : DateTime) (s : Timeline) (result : UserLifecycleEvaluation) (db : Database),
      Timeline.Run (fun _ _ _ ↦ True) clock s → s.clock ≤ now →
        evaluateDueUserLifecycleTransitions now s.db = .ok (result, db) →
          authorized db now = (s.commit now db).committed := by
  intro h
  obtain ⟨⟨result, db⟩, heval⟩ : ∃ evaluated,
      evaluateDueUserLifecycleTransitions 30 (aliceReset 20).db = .ok evaluated :=
    Except.exists_of_isOk (by decide)
  have hrun : Timeline.Run (fun _ _ _ ↦ True) 0 (aliceReset 20) :=
    aliceReset_run trivial (by decide) trivial
  have heq := h 0 30 _ result db hrun (by decide) heval
  have hne : (evaluateDueUserLifecycleTransitions 30 (aliceReset 20).db).toOption.all fun evaluated ↦
      decide (authorized evaluated.2 30 ≠ ((aliceReset 20).commit 30 evaluated.2).committed) := by
    decide
  rw [heval] at hne
  exact of_decide_eq_true hne heq

end StealthHub.Users

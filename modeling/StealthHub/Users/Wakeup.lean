import StealthHub.Users.Authorization

set_option autoImplicit false

namespace StealthHub.Users

inductive WakeupAction
  | act (action : Action)
  | markUserLifecycleReconcilePublished (generation : ℕ)

/-- A transaction that fails is rolled back. -/
def WakeupAction.run (now : DateTime) (db : Database) : WakeupAction → Database
  | .act action => (action.run now db).toOption.getD db
  | .markUserLifecycleReconcilePublished generation =>
    Users.markUserLifecycleReconcilePublished generation db

/-- A checkpoint waits for a publication of `g` or of a later generation. -/
def Waits (db : Database) (g id : ℕ) : Prop :=
  ∃ row, db.lifecycle.get? id = some row ∧ ∃ p ∈ row.pendingGeneration, g ≤ p

/-- A committed generation that the outbox still holds. -/
structure Owes (db : Database) (g : ℕ) : Prop where
  committed : g ≤ db.desiredGeneration
  waiting : ∃ id, Waits db g id

/-- The deleted user neither advances the generation nor takes the last row of the
outbox for a generation with it. -/
def Spares (now : DateTime) (db : Database) : Action → Prop
  | .deleteUser id => ∀ user ∈ db.users.rows, user.id = id →
      (user.accessStateAt now).allowed = false ∧
        ∀ g, Waits db g id → ∃ other, other ≠ id ∧ Waits db g other
  | _ => True

/-- An action under a condition on the state it starts from, or an acknowledgement
short of `g`. -/
inductive WakeupStep (P : DateTime → Database → Action → Prop) (g : ℕ) :
    Database → Database → Prop
  | act {db : Database} (now : DateTime) (action : Action) :
      P now db action → WakeupStep P g db (WakeupAction.run now db (.act action))
  | markPublished {db : Database} (now : DateTime) (generation : ℕ) : generation < g →
      WakeupStep P g db (WakeupAction.run now db (.markUserLifecycleReconcilePublished generation))

/-- What an action leaves in the outbox: all that was owed, and a new generation. -/
structure Carries (db db' : Database) : Prop where
  keeps : ∀ g, Owes db g → Owes db' g
  records : db.desiredGeneration < db'.desiredGeneration → Owes db' db'.desiredGeneration

variable {db db' : Database} {now observedAt : DateTime} {user : UserRecord} {g id : ℕ}
variable {pending : Option ℕ} {state : UserAccessState}

theorem upsertCheckpoint_owes (h : Owes db g) (hpending : ∀ p ∈ pending, g ≤ p) :
    Owes (upsertUserLifecycleCheckpoint db user state observedAt pending) g := by
  obtain ⟨hcommitted, id, row, hrow, p, hp, hle⟩ := h
  refine ⟨hcommitted, id, ?_⟩
  by_cases hid : user.id = id
  · subst hid
    refine ⟨_, by rw [upsertUserLifecycleCheckpoint, OrderedMap.get?_insert, if_pos rfl], ?_⟩
    cases pending with
    | none => exact ⟨p, by simpa [hrow] using hp, hle⟩
    | some q => exact ⟨q, rfl, hpending q rfl⟩
  · exact ⟨row, by rw [upsertCheckpoint_of_ne (Ne.symm hid), hrow], p, hp, hle⟩

theorem upsertCheckpoint_records (hcommitted : g ≤ db.desiredGeneration) :
    Owes (upsertUserLifecycleCheckpoint db user state observedAt (some g)) g :=
  ⟨hcommitted, user.id, _,
    by rw [upsertUserLifecycleCheckpoint, OrderedMap.get?_insert, if_pos rfl], g, rfl, le_rfl⟩

theorem checkpoint_carries (h : db.lifecycle = db'.lifecycle)
    (hgeneration : db.desiredGeneration = db'.desiredGeneration) (bumped : Bool) :
    Carries db (upsertUserLifecycleCheckpoint (bumpWhen bumped db').2 user state observedAt
      (bumpWhen bumped db').1) := by
  have hsame : ∀ g, Owes db g → Owes (bumpWhen bumped db').2 g := by
    rintro g ⟨hcommitted, id, hwaits⟩
    refine ⟨?_, id, ?_⟩
    · rw [bumpWhen_generation, ← hgeneration]
      exact Nat.le_add_right_of_le hcommitted
    · rw [Waits, bumpWhen_lifecycle, ← h]
      exact hwaits
  cases bumped with
  | false => exact ⟨fun g hg ↦ upsertCheckpoint_owes (hsame g hg) nofun, fun hlt ↦ by
      rw [upsertCheckpoint_generation, bumpWhen_generation, hgeneration] at hlt
      exact absurd hlt (lt_irrefl _)⟩
  | true =>
    refine ⟨fun g hg ↦ upsertCheckpoint_owes (hsame g hg) ?_, fun _ ↦ ?_⟩
    · rintro p ⟨⟩
      rw [← hgeneration]
      exact Nat.le_succ_of_le hg.committed
    · exact upsertCheckpoint_records le_rfl

theorem commitEdited_carries {updated : UserRecord} {bumped : Bool} {generation : Option ℕ}
    (h : commitEdited now updated bumped db = .ok (generation, db')) : Carries db db' := by
  obtain ⟨db₁, hwrite, h⟩ := Except.bind_eq_ok.mp h
  obtain ⟨users, -, rfl⟩ := writeUser_ok hwrite
  have hdb : upsertUserLifecycleCheckpoint (bumpWhen bumped { db with users }).2 updated
      (updated.accessStateAt now) now (bumpWhen bumped { db with users }).1 = db' :=
    congrArg Prod.snd (Except.pure_eq_ok.mp h)
  subst hdb
  have hlifecycle : db.lifecycle = ({ db with users } : Database).lifecycle := rfl
  exact checkpoint_carries hlifecycle rfl bumped

theorem createUser_carries {uuid token : String} {input : NewUser}
    (h : createUser now uuid token input db = .ok (user, db')) : Carries db db' := by
  obtain ⟨-, -, h⟩ := Except.bind_eq_ok.mp h
  obtain ⟨users, -, h⟩ := Except.bind_eq_ok.mp h
  cases Except.pure_eq_ok.mp h
  have hlifecycle : db.lifecycle =
      ({ db with users, nextId := db.nextId + 1 } : Database).lifecycle := rfl
  exact checkpoint_carries hlifecycle rfl true

theorem updateUser_carries {input : UpdateUser} {result : UserMutationResult}
    (h : updateUserAudited now input db = .ok (result, db')) : Carries db db' := by
  obtain ⟨-, -, h⟩ := Except.bind_eq_ok.mp h
  obtain ⟨current, -, h⟩ := Except.bind_eq_ok.mp h
  obtain ⟨updated, -, h⟩ := Except.bind_eq_ok.mp h
  obtain ⟨⟨generation, _⟩, hcommit, h⟩ := Except.bind_eq_ok.mp h
  cases Except.pure_eq_ok.mp h
  exact commitEdited_carries hcommit

theorem rotate_carries {expected : DateTime} {replacement : String} {result : UserMutationResult}
    (h : rotateUserRuntimeIdentityAudited now id expected replacement db = .ok (result, db')) :
    Carries db db' := by
  obtain ⟨current, -, h⟩ := Except.bind_eq_ok.mp h
  obtain ⟨-, h⟩ := Except.guard_eq_ok.mp h
  obtain ⟨⟨generation, _⟩, hcommit, h⟩ := Except.bind_eq_ok.mp h
  cases Except.pure_eq_ok.mp h
  exact commitEdited_carries hcommit

theorem setEnabled_carries {enabled : Bool} {result : UserMutationResult}
    (h : setUserEnabled now id enabled db = .ok (result, db')) : Carries db db' := by
  obtain ⟨current, -, h⟩ := Except.bind_eq_ok.mp h
  obtain ⟨-, h⟩ := Except.guard_eq_ok.mp h
  obtain ⟨⟨generation, _⟩, hcommit, h⟩ := Except.bind_eq_ok.mp h
  cases Except.pure_eq_ok.mp h
  exact commitEdited_carries hcommit

theorem resetToken_carries {newToken token : String}
    (h : resetUserSubscriptionToken now id newToken db = .ok (token, db')) : Carries db db' := by
  obtain ⟨current, -, h⟩ := Except.bind_eq_ok.mp h
  obtain ⟨⟨generation, _⟩, hcommit, h⟩ := Except.bind_eq_ok.mp h
  cases Except.pure_eq_ok.mp h
  exact commitEdited_carries hcommit

theorem deleteUser_carries {result : UserMutationResult} (hspares : Spares now db (.deleteUser id))
    (h : deleteUser now id db = .ok (result, db')) : Carries db db' := by
  obtain ⟨current, rfl, hdeleted⟩ := deleteUser_deleted h
  obtain ⟨hblocked, hcovered⟩ := hspares current hdeleted.current_mem rfl
  have hgeneration := hdeleted.generation
  rw [hblocked, Bool.toNat_false, Nat.add_zero] at hgeneration
  refine ⟨fun g hg ↦ ⟨hgeneration ▸ hg.committed, ?_⟩, fun hlt ↦ ?_⟩
  · obtain ⟨id, hwaits⟩ := hg.waiting
    obtain ⟨other, hne, row, hrow, hpending⟩ : ∃ other, other ≠ current.id ∧ Waits db g other := by
      by_cases hid : id = current.id
      · exact hcovered g (hid ▸ hwaits)
      · exact ⟨id, hid, hwaits⟩
    exact ⟨other, row, (hdeleted.others other hne).trans hrow, hpending⟩
  · rw [hgeneration] at hlt
    exact absurd hlt (lt_irrefl _)

section Evaluation

variable {generation : Option ℕ} {evaluated : List (UserRecord × UserAccessState × Bool)}

theorem storeCheckpoints_owes (hgeneration : ∀ p ∈ generation, g ≤ p) (h : Owes db g) :
    Owes (storeCheckpoints now generation evaluated db) g := by
  refine List.foldlRecOn (motive := fun stored : Database ↦ Owes stored g) evaluated _ h ?_
  rintro stored hstored ⟨user, state, transition⟩ -
  refine upsertCheckpoint_owes hstored fun p hp ↦ hgeneration p ?_
  split at hp
  · exact hp
  · cases hp

theorem storeCheckpoints_records (hcommitted : g ≤ db.desiredGeneration)
    (h : ∃ candidate ∈ evaluated, candidate.2.2 = true) :
    Owes (storeCheckpoints now (some g) evaluated db) g := by
  induction evaluated generalizing db with
  | nil =>
    obtain ⟨candidate, hmem, -⟩ := h
    cases hmem
  | cons candidate rest ih =>
    obtain ⟨user, state, transition⟩ := candidate
    rw [storeCheckpoints, List.foldl_cons]
    cases transition with
    | true =>
      refine storeCheckpoints_owes (fun p hp ↦ ?_) (upsertCheckpoint_records hcommitted)
      cases hp
      rfl
    | false =>
      refine ih hcommitted ?_
      obtain ⟨candidate, hmem, htransition⟩ := h
      rcases List.mem_cons.mp hmem with rfl | hmem
      · cases htransition
      · exact ⟨candidate, hmem, htransition⟩

theorem advancePending_owes {p : ℕ} (h : Owes db g) (hp : db.desiredGeneration < p) :
    Owes (advancePending (some p) { db with desiredGeneration := p }) g := by
  obtain ⟨hcommitted, id, row, hrow, q, hq, -⟩ := h
  have hle : g ≤ p := hcommitted.trans hp.le
  refine ⟨hle, id, markPending p row, ?_, p, ?_, hle⟩
  · simp only [advancePending, Option.elim_some, OrderedMap.get?_mapValues, hrow, Option.map_some]
  · simp only [markPending, Option.mem_def.mp hq, Option.map_some, Option.mem_def]

theorem evaluate_carries {scope : LifecycleEvaluationScope} {result : UserLifecycleEvaluation}
    (h : evaluateUserLifecycle now scope db = .ok (result, db')) : Carries db db' := by
  obtain ⟨evaluated, -, h⟩ := Except.bind_eq_ok.mp h
  have hdb : storeCheckpoints now
      (bumpWhen (0 < evaluated.countP fun candidate ↦ candidate.2.2) db).1 evaluated
      (advancePending (bumpWhen (0 < evaluated.countP fun candidate ↦ candidate.2.2) db).1
        (bumpWhen (0 < evaluated.countP fun candidate ↦ candidate.2.2) db).2) = db' :=
    congrArg Prod.snd (Except.pure_eq_ok.mp h)
  subst hdb
  by_cases htransition : 0 < evaluated.countP fun candidate ↦ candidate.2.2
  · simp only [bumpWhen, htransition, decide_true, if_true, bumpDesiredGeneration]
    refine ⟨fun g hg ↦ storeCheckpoints_owes ?_ (advancePending_owes hg (Nat.lt_succ_self _)),
      fun _ ↦ ?_⟩
    · rintro p ⟨⟩
      exact Nat.le_succ_of_le hg.committed
    · rw [storeCheckpoints_generation, advancePending_generation]
      refine storeCheckpoints_records ?_ (List.countP_pos_iff.mp htransition)
      rw [advancePending_generation]
  · simp only [bumpWhen, htransition, decide_false, Bool.false_eq_true, if_false]
    refine ⟨fun g hg ↦ storeCheckpoints_owes nofun hg, fun hlt ↦ ?_⟩
    rw [storeCheckpoints_generation, advancePending_generation] at hlt
    exact absurd hlt (lt_irrefl _)

theorem evaluate_pending {scope : LifecycleEvaluationScope} {result : UserLifecycleEvaluation}
    (h : evaluateUserLifecycle now scope db = .ok (result, db')) (hg : Owes db g) :
    ∃ p ∈ result.pendingGeneration, g ≤ p := by
  obtain ⟨evaluated, -, h⟩ := Except.bind_eq_ok.mp h
  have hresult : ((bumpWhen (0 < evaluated.countP fun candidate ↦ candidate.2.2) db).1.orElse
      fun _ ↦ (db.lifecycle.values.filterMap (·.pendingGeneration)).max?) =
        result.pendingGeneration :=
    congrArg (fun evaluation ↦ evaluation.1.pendingGeneration) (Except.pure_eq_ok.mp h)
  rw [← hresult]
  by_cases htransition : 0 < evaluated.countP fun candidate ↦ candidate.2.2
  · simp only [bumpWhen, htransition, decide_true, if_true]
    exact ⟨_, rfl, Nat.le_succ_of_le hg.committed⟩
  · simp only [bumpWhen, htransition, decide_false, Bool.false_eq_true, if_false]
    obtain ⟨id, row, hrow, p, hp, hle⟩ := hg.waiting
    have hmem : p ∈ db.lifecycle.values.filterMap (·.pendingGeneration) := by
      refine List.mem_filterMap.mpr ⟨row, ?_, hp⟩
      exact List.mem_map.mpr ⟨(id, row), OrderedMap.mem_entries.mpr hrow, rfl⟩
    cases hmax : (db.lifecycle.values.filterMap (·.pendingGeneration)).max? with
    | none =>
      rw [List.max?_eq_none_iff.mp hmax] at hmem
      cases hmem
    | some q => exact ⟨q, rfl, hle.trans ((List.max?_eq_some_iff.mp hmax).2 p hmem)⟩

end Evaluation

theorem action_carries {action : Action} (hspares : Spares now db action)
    (h : action.run now db = .ok db') : Carries db db' := by
  cases action with
  | createUser uuid token input =>
    obtain ⟨⟨user, _⟩, hrun, rfl⟩ := Except.map_eq_ok.mp h
    exact createUser_carries hrun
  | updateUserAudited input =>
    obtain ⟨⟨result, _⟩, hrun, rfl⟩ := Except.map_eq_ok.mp h
    exact updateUser_carries hrun
  | rotateUserRuntimeIdentityAudited id expected replacement =>
    obtain ⟨⟨result, _⟩, hrun, rfl⟩ := Except.map_eq_ok.mp h
    exact rotate_carries hrun
  | setUserEnabled id enabled =>
    obtain ⟨⟨result, _⟩, hrun, rfl⟩ := Except.map_eq_ok.mp h
    exact setEnabled_carries hrun
  | resetUserSubscriptionToken id newToken =>
    obtain ⟨⟨token, _⟩, hrun, rfl⟩ := Except.map_eq_ok.mp h
    exact resetToken_carries hrun
  | deleteUser id =>
    obtain ⟨⟨result, _⟩, hrun, rfl⟩ := Except.map_eq_ok.mp h
    exact deleteUser_carries hspares hrun
  | evaluateUserLifecycle scope =>
    obtain ⟨⟨result, _⟩, hrun, rfl⟩ := Except.map_eq_ok.mp h
    exact evaluate_carries hrun

theorem markPublished_get? {h p : ℕ} {row : LifecycleState}
    (hrow : db.lifecycle.get? id = some row) (hpending : row.pendingGeneration = some p)
    (hlt : h < p) :
    (markUserLifecycleReconcilePublished h db).lifecycle.get? id = some row := by
  rw [markUserLifecycleReconcilePublished, OrderedMap.get?_mapValues, hrow, Option.map_some,
    hpending, Option.any_some, if_neg (by simpa using hlt)]

theorem WakeupStep.owes (hstep : WakeupStep Spares g db db') (h : Owes db g) : Owes db' g := by
  cases hstep with
  | act now action hspares =>
    simp only [WakeupAction.run]
    cases hrun : action.run now db with
    | error message => exact h
    | ok db' => exact (action_carries hspares hrun).keeps g h
  | markPublished now generation hlt =>
    obtain ⟨hcommitted, id, row, hrow, p, hp, hle⟩ := h
    exact ⟨hcommitted, id, row, markPublished_get? hrow hp (hlt.trans_le hle), p, hp, hle⟩

theorem owes_of_run (hrun : Relation.ReflTransGen (WakeupStep Spares g) db db') (h : Owes db g) :
    Owes db' g := by
  induction hrun with
  | refl => exact h
  | tail _ hstep ih => exact hstep.owes ih

/-- A generation that an action commits is returned by every deadline scan until it is
acknowledged, and an acknowledgement clears no later generation. -/
theorem wakeup_durable (db : Database) :
    (∀ (now later : DateTime) (action : Action) (committed db' final : Database)
        (result : UserLifecycleEvaluation),
      Spares now db action → action.run now db = .ok committed →
        db.desiredGeneration < committed.desiredGeneration →
          Relation.ReflTransGen (WakeupStep Spares committed.desiredGeneration) committed db' →
            evaluateDueUserLifecycleTransitions later db' = .ok (result, final) →
              ∃ p ∈ result.pendingGeneration, committed.desiredGeneration ≤ p) ∧
      ∀ (h id p : ℕ) (row : LifecycleState), db.lifecycle.get? id = some row →
        row.pendingGeneration = some p → h < p →
          (markUserLifecycleReconcilePublished h db).lifecycle.get? id = some row := by
  refine ⟨fun now later action committed db' final result hspares hrun hlt hsteps heval ↦ ?_,
    fun h id p row hrow hpending hlt ↦ markPublished_get? hrow hpending hlt⟩
  have howes := (action_carries hspares hrun).records hlt
  exact evaluate_pending heval (owes_of_run hsteps howes)

def twoPublished : Database :=
  let db := ((Action.createUser "u-1" "t-1" ⟨"alice", none, none⟩).run 0 initDb).toOption.getD initDb
  let db := ((Action.createUser "u-2" "t-2" ⟨"bob", none, none⟩).run 0 db).toOption.getD db
  markUserLifecycleReconcilePublished db.desiredGeneration db

theorem wakeup_durable_two : ∃ committed result final,
    (Action.setUserEnabled 1 false).run 1 twoPublished = .ok committed ∧
      evaluateDueUserLifecycleTransitions 2 committed = .ok (result, final) ∧
        ∃ p ∈ result.pendingGeneration, committed.desiredGeneration ≤ p := by
  obtain ⟨committed, hrun⟩ : ∃ committed,
      (Action.setUserEnabled 1 false).run 1 twoPublished = .ok committed :=
    Except.exists_of_isOk (by decide)
  have hchecks : ((Action.setUserEnabled 1 false).run 1 twoPublished).toOption.any fun db ↦
      decide (twoPublished.desiredGeneration < db.desiredGeneration) &&
        (evaluateDueUserLifecycleTransitions 2 db).toOption.isSome := by
    decide
  rw [hrun] at hchecks
  obtain ⟨hlt, hsome⟩ := (Bool.and_eq_true _ _).mp hchecks
  cases heval : evaluateDueUserLifecycleTransitions 2 committed with
  | error message => rw [heval] at hsome; cases hsome
  | ok evaluated =>
    obtain ⟨result, final⟩ := evaluated
    have hspares : Spares 1 twoPublished (.setUserEnabled 1 false) := trivial
    exact ⟨committed, result, final, hrun, heval, (wakeup_durable _).1 1 2 _ _ _ _ _ hspares hrun
      (of_decide_eq_true hlt) .refl heval⟩

theorem deletion_forgotten :
    ¬∀ (now later : DateTime) (action : Action) (db committed db' final : Database)
        (result : UserLifecycleEvaluation),
      action.run now db = .ok committed → db.desiredGeneration < committed.desiredGeneration →
        Relation.ReflTransGen (WakeupStep (fun _ _ _ ↦ True) committed.desiredGeneration)
            committed db' →
          evaluateDueUserLifecycleTransitions later db' = .ok (result, final) →
            ∃ p ∈ result.pendingGeneration, committed.desiredGeneration ≤ p := by
  intro h
  obtain ⟨committed, hrun⟩ : ∃ committed, (Action.deleteUser 1).run 1 twoPublished = .ok committed :=
    Except.exists_of_isOk (by decide)
  have hchecks : ((Action.deleteUser 1).run 1 twoPublished).toOption.any fun db ↦
      decide (twoPublished.desiredGeneration < db.desiredGeneration) &&
        (evaluateDueUserLifecycleTransitions 2 db).toOption.any
          fun evaluated ↦ evaluated.1.pendingGeneration.isNone := by
    decide
  rw [hrun] at hchecks
  obtain ⟨hlt, hnone⟩ := (Bool.and_eq_true _ _).mp hchecks
  cases heval : evaluateDueUserLifecycleTransitions 2 committed with
  | error message => rw [heval] at hnone; cases hnone
  | ok evaluated =>
    rw [heval] at hnone
    obtain ⟨p, hp, -⟩ := h 1 2 _ _ _ _ evaluated.2 evaluated.1 hrun (of_decide_eq_true hlt) .refl
      heval
    have hnone' : evaluated.1.pendingGeneration = none := Option.isNone_iff_eq_none.mp hnone
    cases hnone'.symm.trans hp

end StealthHub.Users

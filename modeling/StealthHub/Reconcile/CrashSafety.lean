import StealthHub.Reconcile.Recover

set_option autoImplicit false

namespace StealthHub.Reconcile

open Effect Effect.Program

variable {L : Type} (active : L → Bool) (r : Reconciler)

/-- Any number of restarts, each of which runs `recover` and stops somewhere in it. -/
inductive Restarts : State L → State L → Prop
  | refl (s : State L) : Restarts s s
  | stop {s t u : State L} :
      Restarts s t → Stops (tracedStep (step active)) r.recover t u → Restarts s u

/-- No core that the transaction asked to install is left in between: a terminal
journal means that each is restored or belongs to the verified, published
generation, and otherwise the operator is called and the snapshots are kept. -/
def CrashSafe (w₀ : World L) (s : State L) : Prop :=
  ∀ j, s.state.journal = some j →
    (isTerminal j.status = true ∧ ∀ core ∈ installCalls s.log, Restored w₀ s core ∨
      s.state.applied.generation = j.generation ∧ ∀ other ∈ installCalls s.log, Verified s other) ∨
    (j.status = .recoveryRequired ∧
      ∀ core ∈ installCalls s.log, ∃ snapshot, Kept w₀ s core snapshot)

/-- `rollback` has put its marker in the journal, and a core that it has to roll
back has not been rolled back successfully. -/
def RollbackWindow (s : State L) : Prop :=
  ∃ j, s.state.journal = some j ∧ j.phase = .rollbackStarted ∧ j.status = .failed ∧
    ∃ core ∈ installCalls s.log, (core, true) ∉ rollbackCalls s.log

variable {active r} {w₀ : World L} {generation : ℕ} {s t : State L}

theorem Durable.recovering (h : Durable w₀ generation s) (hw : ¬RollbackWindow s) :
    installCalls s.log = [] ∨ Recovering w₀ s := by
  cases h with
  | before quiet => exact .inl quiet.log.installCalls_eq
  | installing j journal own status applied recoverable =>
    refine .inr (.pending j journal (.inl status) ?_ recoverable)
    rw [applied, own.target]
    exact ne_of_lt own.newer
  | published j journal own applied verified adoptable =>
    rcases adoptable with hst | hadopt
    · exact .inr (.adopted j journal (applied.trans own.target.symm) verified (.inl hst))
    · by_cases he : j.resources = []
      · exact .inl (hadopt.empty he)
      · refine .inr (.adopted j journal (applied.trans own.target.symm) verified
          (.inr ⟨hadopt.status, ?_⟩))
        simp only [newStateWasFullyVerified, Bool.and_eq_true, Bool.not_eq_true', List.all_eq_true,
          List.mem_filter, List.isEmpty_eq_false_iff]
        exact ⟨he, fun x hx ↦ hadopt.verified x hx.1 hx.2⟩
  | rollingBack j journal own status phase applied restored =>
    refine .inr (.restored j journal (by rw [status]; rfl) fun core hc ↦ restored core ?_)
    by_contra hnot
    exact hw ⟨j, journal, phase, status, core, hc, hnot⟩
  | rolledBack j journal own status applied restored =>
    exact .inr (.restored j journal (by rw [status]; rfl) restored)
  | recoveryRequired j journal own status applied recoverable =>
    refine .inr (.pending j journal (.inr status) ?_ recoverable)
    rw [applied, own.target]
    exact ne_of_lt own.newer

theorem Restarts.recovering (h : Restarts active r s t)
    (hs : installCalls s.log = [] ∨ Recovering w₀ s) :
    installCalls t.log = [] ∨ Recovering w₀ t := by
  induction h with
  | refl => exact hs
  | stop _ hstop ih =>
    rcases ih with hn | hr
    · exact .inl ((safe_recover_settled hn).stops hstop)
    · exact .inr ((safe_recover hr).stops hstop)

theorem CrashSafe.of_settled (h : installCalls s.log = [] ∨ Recovering w₀ s) (hs : Settled s) :
    CrashSafe w₀ s := by
  intro j hj
  rcases h with hn | hr
  · exact (hs j hj).imp (fun ht ↦ ⟨ht, by simp [hn]⟩) fun ht ↦ ⟨ht, by simp [hn]⟩
  cases hr with
  | pending j' hj' status unpublished recoverable =>
    obtain rfl : j' = j := Option.some.inj (hj'.symm.trans hj)
    have hst : j'.status = .recoveryRequired := by
      refine status.resolve_left fun hst ↦ ?_
      rcases hs j' hj with ht | ht <;> rw [hst] at ht <;> cases ht
    refine .inr ⟨hst, fun core hc ↦ ?_⟩
    obtain ⟨x, hx, rfl, -⟩ := recoverable.marked core hc
    exact ⟨snapshotOf x, recoverable.kept x hx⟩
  | adopted j' hj' published verified status =>
    obtain rfl : j' = j := Option.some.inj (hj'.symm.trans hj)
    have hst : j'.status = .applied := by
      refine status.resolve_right fun hst ↦ ?_
      rcases hs j' hj with ht | ht <;> rw [hst.1] at ht <;> cases ht
    exact .inl ⟨by rw [hst]; rfl, fun core _ ↦ .inr ⟨published, verified⟩⟩
  | restored j' hj' terminal restored =>
    obtain rfl : j' = j := Option.some.inj (hj'.symm.trans hj)
    exact .inl ⟨terminal, fun core hc ↦ .inl (restored core hc)⟩

theorem recover_of_terminal {j : JournalEntry} (hj : s.state.journal = some j)
    (ht : isTerminal j.status = true) :
    Completes (tracedStep (step active)) r.recover s none
      ⟨s.state, s.log ++ [⟨.loadJournal, .ok (some j)⟩] ++
        [⟨.cleanupTransactionDirectory (r.transactionDir j.generation), ()⟩]⟩ := by
  have hload : tracedStep (step active) s .loadJournal (.ok (some j))
      ⟨s.state, s.log ++ [⟨.loadJournal, .ok (some j)⟩]⟩ := ⟨⟨hj.symm, rfl⟩, rfl⟩
  have hclean : ∀ u : State L, tracedStep (step active) u
      (.cleanupTransactionDirectory (r.transactionDir j.generation)) ()
      ⟨u.state, u.log ++ [⟨.cleanupTransactionDirectory (r.transactionDir j.generation), ()⟩]⟩ :=
    fun u ↦ ⟨.refl _ u.state, rfl⟩
  refine .call hload ?_
  simp only [Except.mapError, lift, done_bind, ht, if_true]
  exact .call (hclean _) (.stop _ _)

theorem mem_rollbackCalls_of_last {core : String} {snapshot : CoreSnapshot} {log : List Answered}
    (h : lastMutation core log = some ⟨.rollbackConfig core snapshot, .ok ()⟩) :
    (core, true) ∈ rollbackCalls log := by
  have hm := List.mem_of_mem_filter (List.mem_of_getLast? h)
  exact List.mem_filterMap.mpr ⟨_, hm, rfl⟩

theorem Durable.window_unpublished (h : Durable w₀ generation s) {j : JournalEntry}
    (hj : s.state.journal = some j) (hst : j.status = .failed)
    (hn : installCalls s.log ≠ []) : s.state.applied.generation ≠ j.generation := by
  have hsame : ∀ j', s.state.journal = some j' → j'.status = .failed := fun j' hj' ↦ by
    rw [hj] at hj'
    rwa [← Option.some.inj hj']
  cases h with
  | before quiet => exact absurd quiet.log.installCalls_eq hn
  | installing j' journal own status => simp [hsame j' journal] at status
  | published j' journal own applied verified adoptable =>
    rcases adoptable with hst' | hadopt
    · simp [hsame j' journal] at hst'
    · exact absurd hadopt.status (by simp [hsame j' journal])
  | rollingBack j' journal own status phase applied restored =>
    obtain rfl : j' = j := Option.some.inj (journal.symm.trans hj)
    rw [applied, own.target]
    exact ne_of_lt own.newer
  | rolledBack j' journal own status => simp [hsame j' journal] at status
  | recoveryRequired j' journal own status => simp [hsame j' journal] at status

theorem RollbackWindow.unsafe_recover (h : Durable w₀ generation s) (hw : RollbackWindow s) :
    ∃ u, Completes (tracedStep (step active)) r.recover s none u ∧ ¬CrashSafe w₀ u := by
  obtain ⟨j, hj, -, hst, core, hc, hnot⟩ := hw
  refine ⟨_, recover_of_terminal hj (by rw [hst]; rfl), fun hsafe ↦ ?_⟩
  rcases hsafe j hj with ⟨-, hall⟩ | ⟨hrequired, -⟩
  · rcases hall core (by simp [installCalls_append, hc]) with hrestored | ⟨hpublished, -⟩
    · obtain ⟨dir, snapshot, -, hlast⟩ := hrestored.rolledBack
      have hm := mem_rollbackCalls_of_last hlast
      rw [rollbackCalls_append, rollbackCalls_append] at hm
      exact hnot (by simpa [rollbackCalls, rollbackCall] using hm)
    · exact h.window_unpublished hj hst (List.ne_nil_of_mem hc) hpublished
  · rw [hst] at hrequired
    cases hrequired

/-- Crash safety holds at a stopping point of `reconcile` exactly when the
process did not stop inside the window that `rollback` opens. -/
theorem crash_safe_iff {desired : DesiredState} {secrets : SecretResolver}
    (hs : Stops (tracedStep (step active)) (r.reconcile desired secrets) ⟨w₀, []⟩ s) :
    (∀ t u o, Restarts active r s t → Completes (tracedStep (step active)) r.recover t o u →
      CrashSafe w₀ u) ↔ ¬RollbackWindow s := by
  have hd : Durable w₀ desired.generation s := (safe_reconcile rfl rfl).stops hs
  refine ⟨fun h hw ↦ ?_, fun hw t u o ht hu ↦ ?_⟩
  · obtain ⟨u, hu, hunsafe⟩ := hw.unsafe_recover hd
    exact hunsafe (h s u none (.refl s) hu)
  · have hrec := ht.recovering (hd.recovering hw)
    have hsettled : Settled u := (safe_recover_settled rfl).completes hu
    exact .of_settled ((Restarts.stop (.refl t) ⟨_, hu⟩).recovering hrec) hsettled

def loneCore : Reconciler where
  protocols := .empty
  cores := CoreRegistry.empty.add
    { manifest :=
        { apiVersion := adapterApiVersion
          id := "web"
          displayName := "Web"
          capabilities := {"web"}
          service := "web.service"
          selectionPriority := 0 } }
  transactionRoot := ["run"]

def loneDesired : DesiredState where
  generation := 1
  profiles := []
  users := []
  settings := .empty
  infrastructure :=
    [{ resourceId := "site"
       adapterId := "web"
       schemaVersion := 1
       enabled := true
       dependencies := []
       listeners := []
       config := .object [] }]

def loneWorld : World Bool where
  applied := .default
  journal := none
  live := fun _ ↦ false
  snapshots := fun _ _ ↦ none

/-- A host that answers every request. If `installs` is false, installing a
configuration fails and leaves the core running. -/
def loneHost (installs : Bool) (w : World Bool) : (op : Op) → Reply op × World Bool
  | .loadApplied => (.ok w.applied, w)
  | .compareAndSetApplied expected next =>
    if w.applied.generation = expected then (.ok true, { w with applied := next })
    else (.ok false, w)
  | .loadJournal => (.ok w.journal, w)
  | .saveJournal entry => (.ok (), { w with journal := some entry })
  | .desiredGenerationIsCurrent _ => (.ok true, w)
  | .installed _ => (.ok true, w)
  | .compatible _ _ => (.ok true, w)
  | .stageConfig _ _ dir => (.ok (dir ++ ["candidate"]), w)
  | .validateConfig _ _ => (.ok (), w)
  | .snapshotConfig core dir =>
    (.ok ⟨dir ++ ["snapshot"], true, true⟩, w.keep core ⟨dir ++ ["snapshot"], true, true⟩)
  | .installConfig core _ =>
    (if installs then .ok () else .error "disk full", w.setLive core !installs)
  | .activateConfig core plan => (.ok (), w.setLive core !plan.fragments.isEmpty)
  | .healthcheck _ _ => (.ok (), w)
  | .verifyListeners _ _ => (.ok (), w)
  | .observeUsers _ _ => (.ok .unsupported, w)
  | .rollbackConfig core _ => (.error "not reached", w.setLive core false)
  | .prepareTransactionDirectory _ => (.ok (), w)
  | .createDirAll _ => (.ok (), w)
  | .cleanupTransactionDirectory _ => ((), w)
  | .newOperationId => ("operation", w)
  | .now => ("2026-01-01T00:00:00Z", w)

theorem loneHost_step (installs : Bool) (w : World Bool) (op : Op) :
    step id w op (loneHost installs w op).1 (loneHost installs w op).2 := by
  cases op with
  | compareAndSetApplied expected next =>
    by_cases h : w.applied.generation = expected <;> simp [loneHost, step, h]
  | prepareTransactionDirectory path | cleanupTransactionDirectory path => exact .refl path w
  | installConfig core => exact ⟨!installs, rfl⟩
  | rollbackConfig core => exact ⟨false, rfl⟩
  | activateConfig core plan => exact ⟨_, rfl, rfl⟩
  | _ => simp [loneHost, step]

def loneAnswer (installs : Bool) (s : State Bool) (op : Op) : Reply op × State Bool :=
  let answer := loneHost installs s.state op
  (answer.1, ⟨answer.2, s.log ++ [⟨op, answer.1⟩]⟩)

theorem loneAnswer_step (installs : Bool) (s : State Bool) (op : Op) :
    tracedStep (step id) s op (loneAnswer installs s op).1 (loneAnswer installs s op).2 :=
  ⟨loneHost_step installs s.state op, rfl⟩

def noSecrets : SecretResolver := fun _ ↦ .error "required secret reference is unresolved"

/-- The process stops right after `rollback` has written its marker. -/
def stoppedInRollback : State Bool :=
  (exec (loneAnswer false) 19 (loneCore.reconcile loneDesired noSecrets) ⟨loneWorld, []⟩).2

theorem stoppedInRollback_stops : Stops (tracedStep (step id))
    (loneCore.reconcile loneDesired noSecrets) ⟨loneWorld, []⟩ stoppedInRollback :=
  ⟨_, exec_run (loneAnswer_step false) _ _ _⟩

theorem stoppedInRollback_window : RollbackWindow stoppedInRollback := by
  refine ⟨stoppedInRollback.state.journal.get (by decide), ?_, ?_, ?_, "web", ?_, ?_⟩
  · simp
  · decide
  · decide
  · decide
  · decide

theorem crash_in_rollback_unsafe :
    Stops (tracedStep (step id)) (loneCore.reconcile loneDesired noSecrets)
      ⟨loneWorld, []⟩ stoppedInRollback ∧
    ¬∀ t u o, Restarts id loneCore stoppedInRollback t →
      Completes (tracedStep (step id)) loneCore.recover t o u → CrashSafe loneWorld u := by
  refine ⟨stoppedInRollback_stops, fun h ↦ ?_⟩
  have hd : Durable loneWorld 1 stoppedInRollback :=
    (safe_reconcile rfl rfl : Safe _ (Durable _ loneDesired.generation) _ _ _ _).stops stoppedInRollback_stops
  obtain ⟨u, hu, hunsafe⟩ := stoppedInRollback_window.unsafe_recover hd
  exact hunsafe (h _ u none (.refl _) hu)

def stoppedInInstall : State Bool :=
  (exec (loneAnswer true) 20 (loneCore.reconcile loneDesired noSecrets) ⟨loneWorld, []⟩).2

theorem crash_safe_iff_lone : installCalls stoppedInInstall.log = ["web"] ∧
    ∀ t u o, Restarts id loneCore stoppedInInstall t →
      Completes (tracedStep (step id)) loneCore.recover t o u → CrashSafe loneWorld u := by
  have hstops : Stops (tracedStep (step id)) (loneCore.reconcile loneDesired noSecrets)
      ⟨loneWorld, []⟩ stoppedInInstall := ⟨_, exec_run (loneAnswer_step true) _ _ _⟩
  have hwindow : ¬RollbackWindow stoppedInInstall := by
    rintro ⟨j, hj, hphase, -⟩
    have hother : ∀ j ∈ stoppedInInstall.state.journal, j.phase ≠ .rollbackStarted := by decide
    exact hother j hj hphase
  exact ⟨by decide, (crash_safe_iff hstops).mpr hwindow⟩

end StealthHub.Reconcile

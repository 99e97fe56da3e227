import StealthHub.Reconcile.History

set_option autoImplicit false

namespace StealthHub.Reconcile

open Effect Effect.Program

variable {L : Type} {active : L → Bool}

/-- The journal of a transaction for `generation` that began in world `w₀`. -/
structure Own (w₀ : World L) (generation : ℕ) (j : JournalEntry) : Prop where
  target : j.generation = generation
  previousGeneration : j.previousGeneration = w₀.applied.generation
  previousActive : j.previousActiveCoreIds = w₀.applied.activeCoreIds
  newer : w₀.applied.generation < generation

/-- Nothing that the runtimes notice has happened since `w₀`. -/
structure Quiet (w₀ : World L) (s : State L) : Prop where
  applied : s.state.applied = w₀.applied
  live : s.state.live = w₀.live
  log : NoMutation s.log

/-- A snapshot that this transaction took holds the live state from before. -/
structure Kept (w₀ : World L) (s : State L) (core : String) (snapshot : CoreSnapshot) : Prop where
  taken : ∃ dir, ⟨.snapshotConfig core dir, .ok snapshot⟩ ∈ s.log
  stored : s.state.snapshots core snapshot = some (w₀.live core)

/-- The journal tells how to undo every installation that was started. -/
structure Recoverable (w₀ : World L) (s : State L) (j : JournalEntry) : Prop where
  marked : ∀ core ∈ installCalls s.log,
    ∃ resource ∈ j.resources, resource.coreId = core ∧ resource.mutationStarted = true
  kept : ∀ resource ∈ j.resources, Kept w₀ s resource.coreId (snapshotOf resource)

/-- The core was last changed by a successful rollback to a snapshot of this
transaction, and its live state is the one from before. -/
structure Restored (w₀ : World L) (s : State L) (core : String) : Prop where
  live : s.state.live core = w₀.live core
  rolledBack : ∃ dir snapshot, ⟨.snapshotConfig core dir, .ok snapshot⟩ ∈ s.log ∧
    lastMutation core s.log = some ⟨.rollbackConfig core snapshot, .ok ()⟩

def Verified (s : State L) (core : String) : Prop :=
  ∃ plan : CorePlan, plan.coreId = core ∧ Converged s.log core plan ∧
    lastMutation core s.log = some ⟨.activateConfig core plan, .ok ()⟩

/-- Recovery takes the new generation over instead of undoing it. -/
structure Adoptable (s : State L) (j : JournalEntry) : Prop where
  status : j.status = .applying
  phase : j.phase = .publishing
  verified : ∀ resource ∈ j.resources, resource.mutationStarted = true → resource.verified = true
  empty : j.resources = [] → installCalls s.log = []

/-- Where a process can stop that reconciles `generation` from world `w₀`. -/
inductive Durable (w₀ : World L) (generation : ℕ) (s : State L) : Prop
  | before
      (quiet : Quiet w₀ s)
      (journal : s.state.journal = w₀.journal ∨ ∃ j, s.state.journal = some j ∧
        Own w₀ generation j ∧ ∀ resource ∈ j.resources, resource.mutationStarted = false)
  | installing (j : JournalEntry)
      (journal : s.state.journal = some j)
      (own : Own w₀ generation j)
      (status : j.status = .applying)
      (applied : s.state.applied = w₀.applied)
      (recoverable : Recoverable w₀ s j)
  | published (j : JournalEntry)
      (journal : s.state.journal = some j)
      (own : Own w₀ generation j)
      (applied : s.state.applied.generation = generation)
      (verified : ∀ core ∈ installCalls s.log, Verified s core)
      (adoptable : j.status = .applied ∨ Adoptable s j)
  | rollingBack (j : JournalEntry)
      (journal : s.state.journal = some j)
      (own : Own w₀ generation j)
      (status : j.status = .failed)
      (phase : j.phase = .rollbackStarted)
      (applied : s.state.applied = w₀.applied)
      (restored : ∀ core, (core, true) ∈ rollbackCalls s.log → Restored w₀ s core)
  | rolledBack (j : JournalEntry)
      (journal : s.state.journal = some j)
      (own : Own w₀ generation j)
      (status : j.status = .rolledBack)
      (applied : s.state.applied = w₀.applied)
      (restored : ∀ core ∈ installCalls s.log, Restored w₀ s core)
  | recoveryRequired (j : JournalEntry)
      (journal : s.state.journal = some j)
      (own : Own w₀ generation j)
      (status : j.status = .recoveryRequired)
      (applied : s.state.applied = w₀.applied)
      (recoverable : Recoverable w₀ s j)

variable {w₀ : World L} {generation : ℕ} {s s' : State L} {core : String}

theorem Own.congr {j j' : JournalEntry} (h : Own w₀ generation j)
    (hg : j'.generation = j.generation) (hp : j'.previousGeneration = j.previousGeneration)
    (ha : j'.previousActiveCoreIds = j.previousActiveCoreIds) : Own w₀ generation j' :=
  ⟨hg.trans h.target, hp.trans h.previousGeneration, ha.trans h.previousActive, h.newer⟩

theorem Quiet.inert (h : Quiet w₀ s) (hi : Inert s s') : Quiet w₀ s' :=
  ⟨hi.applied.trans h.applied, hi.live.trans h.live, hi.noMutation h.log⟩

theorem Kept.mono {snapshot : CoreSnapshot} (h : Kept w₀ s core snapshot) (hl : s.log ⊆ s'.log)
    (hs : s'.state.snapshots = s.state.snapshots) : Kept w₀ s' core snapshot where
  taken := h.taken.imp fun _ hd ↦ hl hd
  stored := by rw [hs, h.stored]

theorem Recoverable.inert {j : JournalEntry} (h : Recoverable w₀ s j) (hi : Inert s s')
    (hs : s'.state.snapshots = s.state.snapshots) : Recoverable w₀ s' j where
  marked core hc := h.marked core (hi.installCalls_eq ▸ hc)
  kept resource hr := (h.kept resource hr).mono hi.subset hs

theorem Restored.inert (h : Restored w₀ s core) (hi : Inert s s') : Restored w₀ s' core where
  live := by rw [hi.live, h.live]
  rolledBack := by
    obtain ⟨dir, snapshot, hm, hl⟩ := h.rolledBack
    exact ⟨dir, snapshot, hi.subset hm, by rw [hi.lastMutation_eq, hl]⟩

theorem Verified.inert (h : Verified s core) (hi : Inert s s') : Verified s' core := by
  obtain ⟨plan, hp, hc, hl⟩ := h
  exact ⟨plan, hp, hc.mono hi.subset, by rw [hi.lastMutation_eq, hl]⟩

theorem Adoptable.inert {j : JournalEntry} (h : Adoptable s j) (hi : Inert s s') :
    Adoptable s' j :=
  ⟨h.status, h.phase, h.verified, fun he ↦ by rw [hi.installCalls_eq, h.empty he]⟩

theorem Restored.other (h : Restored w₀ s core) {e : Answered} (hl : s'.log = s.log ++ [e])
    (he : mutated e ≠ some core) (hlive : s'.state.live core = s.state.live core) :
    Restored w₀ s' core where
  live := hlive.trans h.live
  rolledBack := by
    obtain ⟨dir, snapshot, hm, hlast⟩ := h.rolledBack
    refine ⟨dir, snapshot, by simp [hl, hm], ?_⟩
    rw [hl, lastMutation_append_of_ne (by simpa using he), hlast]

theorem Restored.of_rollback {snapshot : CoreSnapshot} (hk : Kept w₀ s core snapshot)
    (h : tracedStep (step active) s (.rollbackConfig core snapshot) (.ok ()) s') :
    Restored w₀ s' core := by
  obtain ⟨⟨l, hs, hw⟩, hl⟩ := h
  obtain ⟨dir, hd⟩ := hk.taken
  rw [hk.stored] at hs
  refine ⟨?_, dir, snapshot, by simp [hl, hd], ?_⟩
  · rw [hw, ← Option.some.inj hs]
    exact Function.update_self _ _ _
  · rw [hl]
    exact lastMutation_append rfl

theorem Durable.inert (h : Durable w₀ generation s) (hi : Inert s s')
    (hj : s'.state.journal = s.state.journal) (hs : s'.state.snapshots = s.state.snapshots) :
    Durable w₀ generation s' := by
  cases h with
  | before quiet journal => exact .before (quiet.inert hi) (hj ▸ journal)
  | installing j journal own status applied recoverable =>
    exact .installing j (hj.trans journal) own status (hi.applied.trans applied)
      (recoverable.inert hi hs)
  | published j journal own applied verified adoptable =>
    refine .published j (hj.trans journal) own (by rw [hi.applied, applied]) ?_
      (adoptable.imp_right (·.inert hi))
    intro core hc
    exact (verified core (hi.installCalls_eq ▸ hc)).inert hi
  | rollingBack j journal own status phase applied restored =>
    refine .rollingBack j (hj.trans journal) own status phase (hi.applied.trans applied) ?_
    intro core hc
    exact (restored core (hi.rollbackCalls_eq ▸ hc)).inert hi
  | rolledBack j journal own status applied restored =>
    refine .rolledBack j (hj.trans journal) own status (hi.applied.trans applied) ?_
    intro core hc
    exact (restored core (hi.installCalls_eq ▸ hc)).inert hi
  | recoveryRequired j journal own status applied recoverable =>
    exact .recoveryRequired j (hj.trans journal) own status (hi.applied.trans applied)
      (recoverable.inert hi hs)

theorem Durable.settled (h : Durable w₀ generation s) (hi : Inert s s')
    (hj : s'.state.journal = s.state.journal)
    (hs : ∀ j, s.state.journal = some j → j.status ≠ .applying ∧ j.status ≠ .recoveryRequired) :
    Durable w₀ generation s' := by
  cases h with
  | before quiet journal => exact .before (quiet.inert hi) (hj ▸ journal)
  | installing j journal own status => exact absurd status (hs j journal).1
  | published j journal own applied verified adoptable =>
    refine .published j (hj.trans journal) own (by rw [hi.applied, applied]) ?_
      (adoptable.imp_right (·.inert hi))
    intro core hc
    exact (verified core (hi.installCalls_eq ▸ hc)).inert hi
  | rollingBack j journal own status phase applied restored =>
    refine .rollingBack j (hj.trans journal) own status phase (hi.applied.trans applied) ?_
    intro core hc
    exact (restored core (hi.rollbackCalls_eq ▸ hc)).inert hi
  | rolledBack j journal own status applied restored =>
    refine .rolledBack j (hj.trans journal) own status (hi.applied.trans applied) ?_
    intro core hc
    exact (restored core (hi.installCalls_eq ▸ hc)).inert hi
  | recoveryRequired j journal own status => exact absurd status (hs j journal).2

end StealthHub.Reconcile

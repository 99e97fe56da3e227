import StealthHub.Reconcile.CrashSafety

set_option autoImplicit false

namespace StealthHub.Reconcile

open Effect Effect.Program

variable {L : Type} {active : L → Bool} {r : Reconciler} {desired : DesiredState}
variable {secrets : SecretResolver} {w₀ w : World L} {o : ReconcileOutcome} {t : State L}

theorem finished_of_completes
    (h : Completes (tracedStep (step active)) (r.reconcile desired secrets) ⟨w₀, []⟩ o t) :
    Finished active r desired secrets w₀ o t := (safe_reconcile rfl rfl).completes h

theorem Finished.of_applied (h : Finished active r desired secrets w₀ o t)
    (hnewer : w₀.applied.generation < desired.generation) (hst : o.status = .applied) :
    ∃ plans, Planned active r desired secrets w₀.applied plans t ∧
      (∀ e ∈ plans.entries, Converged t.log e.1 e.2.2) ∧
      t.state.applied = nextApplied desired.generation plans := by
  cases h with
  | upToDate older => exact absurd older (not_le.mpr hnewer)
  | refused status => rcases status with hs | hs | hs <;> rw [hs] at hst <;> cases hst
  | transacted plans planned well outcome =>
    cases outcome with
    | applied status published converged => exact ⟨plans, planned, converged, published⟩
    | failed status | rolledBack status | recoveryRequired status =>
      rw [status] at hst
      cases hst

theorem Finished.of_failed (h : Finished active r desired secrets w₀ o t)
    (hst : o.status = .failed ∨ o.status = .unsupported) : NoMutation t.log := by
  cases h with
  | upToDate older status quiet => exact quiet.log
  | refused status quiet => exact quiet.log
  | transacted plans planned well outcome =>
    cases outcome with
    | failed status quiet => exact quiet.log
    | applied status | rolledBack status | recoveryRequired status =>
      rw [status] at hst
      simp at hst

theorem Finished.of_rolledBack (h : Finished active r desired secrets w₀ o t)
    (hst : o.status = .rolledBack) :
    rollbackCalls t.log = (installCalls t.log).reverse.map (fun core ↦ (core, true)) ∧
      (installCalls t.log).Nodup ∧ t.state.applied = w₀.applied := by
  cases h with
  | upToDate older status =>
    rw [status] at hst
    cases hst
  | refused status => rcases status with hs | hs | hs <;> rw [hs] at hst <;> cases hst
  | transacted plans planned well outcome =>
    cases outcome with
    | rolledBack status applied order once => exact ⟨order, once, applied⟩
    | failed status | applied status | recoveryRequired status =>
      rw [status] at hst
      cases hst

theorem Finished.of_recoveryRequired (h : Finished active r desired secrets w₀ o t)
    (hst : o.status = .recoveryRequired) : t.state.applied = w₀.applied := by
  cases h with
  | upToDate older status quiet => exact quiet.applied
  | refused status quiet => exact quiet.applied
  | transacted plans planned well outcome =>
    cases outcome with
    | recoveryRequired status applied => exact applied
    | failed status quiet => exact quiet.applied
    | rolledBack status applied => exact applied
    | applied status =>
      rw [status] at hst
      cases hst

/-- The outcome of a call that runs to its end tells what happened to the cores
and to the applied state. -/
theorem reconcile_outcome (hnewer : w₀.applied.generation < desired.generation)
    (h : Completes (tracedStep (step active)) (r.reconcile desired secrets) ⟨w₀, []⟩ o t) :
    (o.status = .applied → ∃ plans,
      Planned active r desired secrets w₀.applied plans t ∧
      (∀ e ∈ plans.entries, Converged t.log e.1 e.2.2) ∧
      t.state.applied = ⟨desired.generation,
        (plans.entries.filter fun e ↦ !e.2.2.fragments.isEmpty).map Prod.fst⟩) ∧
    (o.status = .failed ∨ o.status = .unsupported → NoMutation t.log) ∧
    (o.status = .rolledBack →
      rollbackCalls t.log = (installCalls t.log).reverse.map (fun core ↦ (core, true)) ∧
      (installCalls t.log).Nodup ∧ t.state.applied = w₀.applied) ∧
    (o.status = .recoveryRequired → t.state.applied = w₀.applied) := by
  have hf := finished_of_completes h
  exact ⟨hf.of_applied hnewer, hf.of_failed, hf.of_rolledBack, hf.of_recoveryRequired⟩

def loneApplied : Except String ReconcileOutcome × State Bool :=
  (loneCore.reconcile loneDesired noSecrets).eval (loneAnswer true) ⟨loneWorld, []⟩

theorem loneApplied_completes : Completes (tracedStep (step id))
    (loneCore.reconcile loneDesired noSecrets) ⟨loneWorld, []⟩ ⟨1, .applied, none⟩
    loneApplied.2 := by
  have h : loneApplied.1.toOption = some ⟨1, .applied, none⟩ := by decide
  refine eval_completes (loneAnswer_step true) ?_
  change loneApplied.1 = _
  cases hr : loneApplied.1 with
  | error m => simp [hr, Except.toOption] at h
  | ok o => rw [show o = ⟨1, .applied, none⟩ by simpa [hr, Except.toOption] using h]

theorem reconcile_outcome_lone :
    (∃ plans, Planned id loneCore loneDesired noSecrets .default plans loneApplied.2 ∧
      (∀ e ∈ plans.entries, Converged loneApplied.2.log e.1 e.2.2) ∧
      loneApplied.2.state.applied = ⟨1,
        (plans.entries.filter fun e ↦ !e.2.2.fragments.isEmpty).map Prod.fst⟩) :=
  (reconcile_outcome (by decide) loneApplied_completes).1 rfl

def Consistent (active : L → Bool) (w : World L) : Prop :=
  ∀ core, active (w.live core) = true ↔ core ∈ w.applied.activeCoreIds

theorem mem_nextApplied {generation : ℕ} {plans : CorePlans} {core : String} :
    core ∈ (nextApplied generation plans).activeCoreIds ↔
      ∃ e ∈ plans.entries, e.1 = core ∧ e.2.2.fragments.isEmpty = false := by
  simp only [nextApplied, List.mem_map, List.mem_filter, Bool.not_eq_true']
  constructor
  · rintro ⟨e, ⟨he, hf⟩, rfl⟩
    exact ⟨e, he, rfl, hf⟩
  · rintro ⟨e, he, rfl, hf⟩
    exact ⟨e, ⟨he, hf⟩, rfl⟩

theorem Outcome.consistent {generation : ℕ} {plans : CorePlans}
    (h : Outcome active w₀ generation plans o t) (hw : WellPlanned w₀.applied plans)
    (hc : Consistent active w₀) (hst : o.status ≠ .recoveryRequired) :
    Consistent active t.state := by
  intro core
  cases h with
  | failed status quiet => rw [quiet.live, quiet.applied, hc]
  | rolledBack status applied order once live => rw [live, applied, hc]
  | recoveryRequired status => exact absurd status hst
  | applied status published converged activity untouched =>
    rw [published, mem_nextApplied]
    by_cases hk : core ∈ plans.keys
    · obtain ⟨e, he, rfl⟩ := List.mem_map.mp hk
      rw [activity e he, Bool.not_eq_true']
      refine ⟨fun hf ↦ ⟨e, he, rfl, hf⟩, fun ⟨e', he', hid, hf⟩ ↦ ?_⟩
      have hsame : e'.2 = e.2 := by
        have h₁ := OrderedMap.mem_entries.mp (show (e.1, e'.2) ∈ plans.entries from hid ▸ he')
        have h₂ := OrderedMap.mem_entries.mp (show (e.1, e.2) ∈ plans.entries from he)
        exact Option.some.inj (h₁.symm.trans h₂)
      rwa [← hsame]
    · -- a core without a plan was not active before, and nothing has touched it
      rw [untouched core hk, hc core]
      refine ⟨fun hm ↦ absurd (hw.previous core hm) hk, fun ⟨e, he, hid, _⟩ ↦ ?_⟩
      exact absurd (List.mem_map.mpr ⟨e, he, hid⟩) hk

theorem Finished.consistent (h : Finished active r desired secrets w₀ o t)
    (hc : Consistent active w₀) (hst : o.status ≠ .recoveryRequired) :
    Consistent active t.state := by
  intro core
  cases h with
  | upToDate older status quiet => rw [quiet.live, quiet.applied, hc]
  | refused status quiet => rw [quiet.live, quiet.applied, hc]
  | transacted plans planned well outcome => exact outcome.consistent well hc hst core

/-- Calls of `reconcile` one after the other, none of which asked for recovery. -/
inductive Calls (active : L → Bool) (r : Reconciler) (w₀ : World L) : World L → Prop
  | start : Calls active r w₀ w₀
  | call {w w' : World L} (desired : DesiredState) (secrets : SecretResolver)
      (o : ReconcileOutcome) :
      Calls active r w₀ w → Completes (step active) (r.reconcile desired secrets) w o w' →
      o.status ≠ .recoveryRequired → Calls active r w₀ w'

/-- No runtime is left running without its generation, or missing from it. -/
theorem no_orphaned_runtime (hidle : ∀ core, active (w₀.live core) = false)
    (hdefault : w₀.applied = .default) (h : Calls active r w₀ w) :
    {core | active (w.live core) = true} = {core | core ∈ w.applied.activeCoreIds} := by
  suffices hc : Consistent active w from Set.ext hc
  induction h with
  | start =>
    intro core
    simp [hidle core, hdefault, AppliedState.default]
  | call desired secrets o _ hcall hst ih =>
    obtain ⟨log, hrun⟩ := Run.traced hcall []
    exact (finished_of_completes hrun).consistent ih hst

theorem no_orphaned_runtime_lone :
    {core | id (loneApplied.2.state.live core) = true} =
      {core | core ∈ loneApplied.2.state.applied.activeCoreIds} := by
  have hcall : Completes (step id) (loneCore.reconcile loneDesired noSecrets) loneWorld
      ⟨1, .applied, none⟩ loneApplied.2.state := loneApplied_completes.untraced
  exact no_orphaned_runtime (fun _ ↦ rfl) rfl
    (.call loneDesired noSecrets _ .start hcall (by decide))

end StealthHub.Reconcile

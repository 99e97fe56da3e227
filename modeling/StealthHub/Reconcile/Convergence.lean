import StealthHub.Reconcile.Mirror

set_option autoImplicit false

namespace StealthHub.Reconcile

open Effect Effect.Program

variable {L : Type} {active : L → Bool} {P : System L → Prop} {s s' t u : System L}

/-- The moments of a system whose panel commits at any time and whose worker is run
again and again. `P` says where a run may be cut short. -/
inductive History (active : L → Bool) (P : System L → Prop) : System L → Prop
  | fresh {s : System L} : s.store.applied = .default → s.store.journal = none →
      s.row = .initial → History active P s
  | commit {s s' : System L} : History active P s → Commit s s' → History active P s'
  | stopped {s t : System L} (worker : Worker) {es : List (Event WorkerReply)}
      {q : WorkerProgram Unit} :
      History active P s → Trace (workerStep active) Commit (process worker) s es q t → P t →
      History active P t
  | completed {s t : System L} (worker : Worker) {es : List (Event WorkerReply)} :
      History active P s → Trace (workerStep active) Commit (process worker) s es (.done ()) t →
      History active P t

theorem since_of_commit (h : Commit s s') : Since s s' := (since_of_commits (.single h)).1

theorem History.sound (h : History active P s) : Sound s := by
  have hrun : ∀ {s t : System L} {worker : Worker} {es : List (Event WorkerReply)}
      {q : WorkerProgram Unit}, Sound s →
      Trace (workerStep active) Commit (process worker) s es q t → Sound t := by
    intro s t worker es q hs ht
    obtain ⟨m, hm, hmt⟩ := ht.run
    have hsound : Sound m := (safe_process worker hs).stops ⟨q, hm⟩
    exact hsound.since (since_of_commits hmt).1
  induction h with
  | fresh happlied hjournal hrow =>
    refine ⟨⟨fun _ ↦ by rw [happlied]; rfl, ?_, ?_⟩, fun _ ↦ by rw [hrow]; exact ⟨rfl, rfl⟩⟩
    all_goals
      intro j hj
      rw [hjournal] at hj
      cases hj
  | commit _ hc ih => exact ih.since (since_of_commit hc)
  | stopped worker _ ht _ ih => exact hrun ih ht
  | completed worker _ ht ih => exact hrun ih ht

theorem History.reported (h : History active P s) (hP : ∀ t, P t → ¬Unreported t) :
    ¬Unreported s := by
  induction h with
  | fresh happlied hjournal hrow =>
    intro ⟨j, hj, _⟩
    rw [hjournal] at hj
    cases hj
  | commit h hc ih =>
    intro hun
    exact ih ((unreported_since h.sound (since_of_commit hc)).mp hun).1
  | stopped worker _ _ ht => exact hP _ ht
  | completed worker h ht ih =>
    obtain ⟨m, hm, hmt⟩ := ht.run
    obtain ⟨hf, -⟩ := (safe_process worker h.sound).completes hm
    intro hun
    exact ih ((hf.since (since_of_commits hmt).1).unreported.mp hun).1

theorem workerStep_desired {op : WorkerOp} {r : WorkerReply op} (h : workerStep active s op r t) :
    t.row.desiredGeneration = s.row.desiredGeneration := by
  cases op with
  | markReconcileResult update =>
    cases r with
    | ok =>
      rw [show t = _ from h]
      exact markReconcileResult_desired _ _
    | error =>
      rcases h with rfl | rfl
      · rfl
      · exact markReconcileResult_desired _ _
  | reconciler op => rw [(workerStep_reconciler h).2.1]
  | publishDesiredGeneration g =>
    cases r with
    | ok => exact h ▸ rfl
    | error => rcases h with rfl | rfl <;> rfl
  | loadDesiredState =>
    cases r with
    | ok => exact h.2 ▸ rfl
    | error => exact h ▸ rfl
  | _ => exact h ▸ rfl

theorem desired_of_run {α : Type} {p q : WorkerProgram α} (h : Run (workerStep active) p s q t) :
    t.row.desiredGeneration = s.row.desiredGeneration := by
  induction h with
  | stop => rfl
  | call hs _ ih => exact ih.trans (workerStep_desired hs)

theorem Sound.mirrored_iff (h : Sound s) (hq : Quiescent s)
    (hg : s.store.applied.generation = s.row.desiredGeneration) :
    Mirrored s.row ↔ ¬Unreported s := by
  cases hj : s.store.journal with
  | none =>
    have hzero := h.files.fresh hj
    refine ⟨fun _ ⟨j, hj', _⟩ ↦ ?_, fun _ ↦ h.fresh (by omega)⟩
    rw [hj] at hj'
    cases hj'
  | some j =>
    obtain ⟨hnewer, happlied⟩ := h.files.filed j hj
    have hbound := h.files.bounded j hj
    have hgen : s.store.applied.generation = j.generation := by omega
    constructor
    · intro hm ⟨i, hi, _, _, hrest⟩
      rw [if_pos (hq i hi)] at hrest
      exact hrest hm
    · intro hun
      by_contra hm
      refine hun ⟨j, hj, hgen, by omega, ?_⟩
      rw [if_pos (hq j hj)]
      exact hm

/-- After a run that completes without a change of the panel, the panel shows the
applied generation exactly when no earlier run was cut short between publishing it
and reporting it. -/
theorem mirror_converges_iff (h : History active P s) (worker : Worker)
    (hrun : Completes (workerStep active) (process worker) s () u)
    (hg : u.store.applied.generation = u.row.desiredGeneration) :
    (Mirrored u.row ↔ ¬Unreported s) ∧ ((∀ t, P t → ¬Unreported t) → Mirrored u.row) := by
  obtain ⟨hf, hfin⟩ := (safe_process worker h.sound).completes hrun.interleaved
  have hiff : Mirrored u.row ↔ ¬Unreported s := by
    rw [hf.sound.mirrored_iff (hfin hg) hg, hf.unreported]
    simp [desired_of_run hrun]
  exact ⟨hiff, fun hP ↦ hiff.mpr (h.reported hP)⟩

def loneWorker : Worker where
  protocolRegistry := .ok .empty
  privilegedCoreRegistry := .ok loneCore.cores
  desiredResources := fun _ ↦ loneDesired.infrastructure
  transactionRoot := ["run"]

def loneSystemHost (s : System Bool) : (op : WorkerOp) → WorkerReply op × System Bool
  | .readRequest => (.ok none, s)
  | .openPool => (.ok (), s)
  | .loadDesiredState =>
    (.ok { emptyDesired with generation := s.row.desiredGeneration }, s)
  | .publishPrivilegedTlsReadiness => (.ok (), s)
  | .privilegedTlsMaterialReadiness _ => (⟨true, ""⟩, s)
  | .migrateAvailableAdapterStates => (.ok (), s)
  | .publishDesiredGeneration generation => (.ok (), { s with marker := some generation })
  | .loadPrivilegedSecrets _ => (.ok .empty, s)
  | .markReconcileResult update => (.ok (), { s with row := s.row.markReconcileResult update })
  | .probe _ => (⟨some true, some true⟩, s)
  | .replaceRuntimeUserSync _ => (.ok (), s)
  | .reconciler (.desiredGenerationIsCurrent generation) =>
    (.ok (s.desiredGenerationIsCurrent generation), s)
  | .reconciler op =>
    let answer := loneHost true s.store op
    (answer.1, { s with store := answer.2 })

theorem loneSystemHost_step (s : System Bool) (op : WorkerOp) :
    workerStep id s op (loneSystemHost s op).1 (loneSystemHost s op).2 := by
  cases op with
  | loadDesiredState => exact ⟨rfl, rfl⟩
  | reconciler op =>
    cases op with
    | desiredGenerationIsCurrent generation => exact ⟨rfl, rfl⟩
    | _ => exact ⟨_, loneHost_step true s.store _, rfl⟩
  | _ => exact rfl

def loneCommitted : System Bool :=
  ⟨loneWorld, ReconcileStateRecord.initial.bumpDesiredGeneration "change", none⟩

theorem loneCommitted_history (P : System Bool → Prop) : History id P loneCommitted := by
  have hfresh : History id P ⟨loneWorld, .initial, none⟩ := .fresh rfl rfl rfl
  exact .commit hfresh ⟨"change", rfl⟩

def loneRun (s : System Bool) : Except String Unit × System Bool :=
  (process loneWorker).eval loneSystemHost s

theorem loneRun_completes {s : System Bool} (h : (loneRun s).1.toOption = some ()) :
    Completes (workerStep id) (process loneWorker) s () (loneRun s).2 := by
  refine eval_completes loneSystemHost_step ?_
  change (loneRun s).1 = _
  cases hr : (loneRun s).1 with
  | error m => simp [hr, Except.toOption] at h
  | ok => rfl

def stoppedBeforeReport : System Bool :=
  (exec loneSystemHost 38 (process loneWorker) loneCommitted).2

theorem stoppedBeforeReport_history : History id (fun _ ↦ True) stoppedBeforeReport := by
  have hrun : Run (workerStep id) (process loneWorker) loneCommitted _ stoppedBeforeReport :=
    exec_run loneSystemHost_step _ _ _
  obtain ⟨es, htrace⟩ := (hrun.trace : ∃ es, Trace (workerStep id) Commit _ _ es _ _)
  exact .stopped loneWorker (loneCommitted_history _) htrace trivial

theorem stopped_before_report_not_mirrored :
    ¬∀ s u : System Bool, History id (fun _ ↦ True) s →
      Completes (workerStep id) (process loneWorker) s () u →
      u.store.applied.generation = u.row.desiredGeneration → Mirrored u.row := by
  intro hall
  have hcompletes : Completes (workerStep id) (process loneWorker) stoppedBeforeReport ()
      (loneRun stoppedBeforeReport).2 := loneRun_completes (by decide)
  have hmirrored := hall _ _ stoppedBeforeReport_history hcompletes (by decide)
  have hpending : (loneRun stoppedBeforeReport).2.row.appliedGeneration ≠
      (loneRun stoppedBeforeReport).2.row.desiredGeneration := by decide
  exact hpending hmirrored.1

theorem mirror_converges_iff_lone :
    Mirrored (loneRun loneCommitted).2.row ∧ ¬Unreported loneCommitted := by
  obtain ⟨hmirrored, hhistory⟩ := mirror_converges_iff
    (loneCommitted_history fun t ↦ ¬Unreported t) loneWorker
    (loneRun_completes (by decide)) (by decide)
  have hrow := hhistory fun _ ht ↦ ht
  exact ⟨hrow, hmirrored.mp hrow⟩

end StealthHub.Reconcile

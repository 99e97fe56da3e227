import StealthHub.Reconcile.PlanSpec
import StealthHub.Reconcile.Worker

set_option autoImplicit false

namespace StealthHub.Reconcile

open Effect Effect.Program

variable {L : Type} {active : L → Bool} {s t : System L} {α : Type}

theorem workerStep_reconciler {op : Op} {r : Reply op}
    (h : workerStep active s (.reconciler op) r t) :
    step active s.store op r t.store ∧ t.row = s.row ∧ t.marker = s.marker := by
  by_cases hop : ∃ g, op = .desiredGenerationIsCurrent g
  · obtain ⟨g, rfl⟩ := hop
    cases r with
    | ok current =>
      obtain ⟨-, rfl⟩ := h
      exact ⟨rfl, rfl, rfl⟩
    | error m =>
      obtain ⟨store, hs, rfl⟩ := h
      exact ⟨hs, rfl, rfl⟩
  · have h' : ∃ store, step active s.store op r store ∧ t = { s with store := store } := by
      cases op with
      | desiredGenerationIsCurrent g => exact absurd ⟨g, rfl⟩ hop
      | _ => exact h
    obtain ⟨store, hs, rfl⟩ := h'
    exact ⟨hs, rfl, rfl⟩

def WorkerOp.isAside : WorkerOp → Prop
  | .loadDesiredState => False
  | .markReconcileResult _ => False
  | .reconciler op =>
    match op with
    | .installed _ | .compatible _ _ | .loadApplied | .loadJournal | .now | .observeUsers _ _ => True
    | _ => False
  | _ => True

theorem demand_uses {allowed : WorkerOp → Prop} {p : WorkerProgram (Except String α)}
    (h : p.Uses allowed) : (demand p).Uses allowed := uses_bind h fun r ↦ uses_lift r

theorem request_uses {allowed : WorkerOp → Prop} {op : WorkerOp} (h : allowed op) :
    (request op : WorkerProgram (WorkerReply op)).Uses allowed := ⟨h, fun _ ↦ trivial⟩

theorem perform_uses {allowed : WorkerOp → Prop} {p : Program Reply String α}
    (h : p.Uses fun op ↦ allowed (.reconciler op)) : (perform p).Uses allowed := uses_embed h

theorem isAside_of_isProbe (op : Op) (h : op.isProbe) : (WorkerOp.reconciler op).isAside := by
  cases op with
  | installed | compatible => trivial
  | _ => cases h

def WorkerOp.isOpening : WorkerOp → Prop
  | .loadDesiredState | .markReconcileResult _ | .reconciler _ => False
  | _ => True

theorem WorkerOp.isOpening.isAside {op : WorkerOp} (h : op.isOpening) : op.isAside := by
  cases op with
  | loadDesiredState | markReconcileResult | reconciler => exact h.elim
  | _ => trivial

theorem readRequest_uses : readRequest.Uses WorkerOp.isOpening := by
  refine uses_bind (demand_uses (request_uses trivial)) fun request ↦ ?_
  split_ifs <;> trivial

theorem checkTls_uses (profile : ProtocolProfile) : (checkTls profile).Uses WorkerOp.isOpening := by
  refine uses_bind (request_uses trivial) fun readiness ↦ ?_
  cases readiness.ready <;> trivial

theorem prepare_uses (worker : Worker) (request : Option ReconcileRequest)
    (desired : DesiredState) : (worker.prepare request desired).Uses WorkerOp.isOpening := by
  rw [Worker.prepare]
  split_ifs
  · trivial
  refine uses_bind (uses_lift _) fun protocols ↦ ?_
  refine uses_bind (demand_uses (request_uses trivial)) fun _ ↦ ?_
  refine uses_bind (uses_foldlM fun _ profile ↦ checkTls_uses profile) fun _ ↦ ?_
  refine uses_bind (uses_lift _) fun cores ↦ ?_
  refine uses_bind (demand_uses (request_uses trivial)) fun _ ↦ ?_
  exact uses_bind (demand_uses (request_uses trivial)) fun _ ↦ trivial

theorem prepare_returns (worker : Worker) (request : Option ReconcileRequest)
    (desired : DesiredState) :
    (worker.prepare request desired).Returns fun result ↦
      result.1.generation = desired.generation := by
  rw [Worker.prepare]
  split_ifs
  · trivial
  refine returns_bind (returns_true _) fun protocols _ ↦ ?_
  refine returns_bind (returns_true _) fun _ _ ↦ ?_
  refine returns_bind (returns_true _) fun _ _ ↦ ?_
  refine returns_bind (returns_true _) fun cores _ ↦ ?_
  refine returns_bind (returns_true _) fun _ _ ↦ ?_
  exact returns_bind (returns_true _) fun _ _ ↦ rfl

theorem observeCore_uses (checkedAt : String) (result : List ProfileUserSyncObservation)
    (entry : String × CoreAdapter × CorePlan) :
    (observeCore checkedAt result entry).Uses WorkerOp.isAside := by
  obtain ⟨runtimeId, core, plan⟩ := entry
  rw [observeCore]
  split_ifs
  · trivial
  · exact uses_bind (request_uses trivial) fun _ ↦ uses_bind (request_uses trivial) fun _ ↦ trivial

theorem recordUserSync_uses (r : Reconciler) (desired : DesiredState) (secrets : SecretResolver) :
    (recordUserSync r desired secrets).Uses WorkerOp.isAside := by
  refine uses_bind (uses_attempt ?_) fun result ↦ ?_
  · refine uses_bind (demand_uses (request_uses trivial)) fun applied ↦ ?_
    refine uses_bind (perform_uses ((r.buildPlans_uses desired secrets applied).mono
      isAside_of_isProbe)) fun plans ↦ ?_
    refine uses_bind (request_uses trivial) fun checkedAt ↦ ?_
    exact uses_foldlM (observeCore_uses checkedAt)
  · cases result with
    | ok observations => exact demand_uses (request_uses trivial)
    | error m => trivial

end StealthHub.Reconcile

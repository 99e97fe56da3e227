import StealthHub.Reconcile.Convergence
import StealthHub.Reconcile.Ordered

set_option autoImplicit false

namespace StealthHub.Reconcile

open Effect Effect.Program

variable {L : Type} {active : L → Bool}

section events

variable {s t : System L} {worker : Worker} {es : List (Event WorkerReply)}
variable {q : WorkerProgram Unit}

abbrev loaded (desired : DesiredState) : Event WorkerReply :=
  .answered .loadDesiredState (.ok desired)

abbrev checked (generation : ℕ) (current : Except String Bool) : Event WorkerReply :=
  .answered (.reconciler (.desiredGenerationIsCurrent generation)) current

abbrev snapshotted (core : String) (dir : Path) (taken : Except String CoreSnapshot) :
    Event WorkerReply := .answered (.reconciler (.snapshotConfig core dir)) taken

abbrev installed (core : String) (candidate : Path) (result : Except String Unit) :
    Event WorkerReply := .answered (.reconciler (.installConfig core candidate)) result

/-- The generation that a run loads is the one it is in at its check: nothing is
installed unless the panel's store names it when the check after the snapshots is made. -/
def FreshInstalls (active : L → Bool) (worker : Worker) (s : System L)
    (es : List (Event WorkerReply)) : Prop :=
  ∀ before core candidate result after, es = before ++ installed core candidate result :: after →
    ∃ desired earlier later, before = earlier ++ checked desired.generation (.ok true) :: later ∧
      loaded desired ∈ earlier ∧ (∀ core dir taken, snapshotted core dir taken ∉ later) ∧
      ∀ p m, Trace (workerStep active) Commit (process worker) s earlier p m →
        m.row.desiredGeneration = desired.generation

/-- In a run that goes on to install, the panel does not commit between the load of
the desired state and the check. -/
def UndisturbedLoads (es : List (Event WorkerReply)) : Prop :=
  ∀ before desired between after,
    es = before ++ loaded desired :: between ++ checked desired.generation (.ok true) :: after →
    (∃ core candidate result, installed core candidate result ∈ after) → .moved ∉ between

theorem mem_of_two_splits {α : Type} {x z x' z' : List α} {y y' : α}
    (h : x ++ y :: z = x' ++ y' :: z') (hy : y ∉ x') (hne : y ≠ y') : y' ∈ x := by
  rcases List.append_eq_append_iff.mp h with ⟨rest, rfl, hrest⟩ | ⟨rest, rfl, hrest⟩
  · cases rest with
    | nil => exact absurd (List.cons.inj hrest).1 hne
    | cons a rest =>
      rw [(List.cons.inj hrest).1] at hy
      exact absurd (List.mem_append_right _ List.mem_cons_self) hy
  · cases rest with
    | nil => exact absurd (List.cons.inj hrest).1.symm hne
    | cons a rest =>
      rw [(List.cons.inj hrest).1]
      exact List.mem_append_right _ List.mem_cons_self

theorem checked_before_install (h : Trace (workerStep active) Commit (process worker) s es q t)
    {before after : List (Event WorkerReply)} {core : String} {candidate : Path}
    {result : Except String Unit} (hes : es = before ++ installed core candidate result :: after) :
    ∃ desired earlier later, before = earlier ++ checked desired.generation (.ok true) :: later ∧
      loaded desired ∈ earlier ∧ (∀ core dir taken, snapshotted core dir taken ∉ later) ∧
      (∀ g r, checked g r ∉ earlier) ∧ ∀ g r, checked g r ∉ later := by
  obtain ⟨m, hrun, -⟩ := h.traced []
  have hordered : Ordered (answers es) := (ordered_process worker s).stops ⟨q, hrun⟩
  rw [hes, answers_append, answers_answered] at hordered
  cases hordered with
  | early h =>
    exact (h _ (List.mem_append_right _ List.mem_cons_self) : False).elim
  | loaded front desired back hsplit haside hfenced =>
    rw [Fenced, reconcilerPart_append, reconcilerPart_cons] at hfenced
    obtain ⟨_, _, hpart, hearly, hlate⟩ := hfenced _ _ _ rfl fun h ↦ h
    obtain ⟨b, c, hlog, rfl, rfl⟩ := split_of_reconcilerPart hpart
    obtain ⟨earlier, later, rfl, rfl, rfl⟩ := split_of_answers hlog
    have hin : ∀ {op : Op} {r : Reply op} {log : List (Event WorkerReply)},
        .answered (.reconciler op) r ∈ log → ⟨op, r⟩ ∈ reconcilerPart (answers log) :=
      fun h ↦ mem_reconcilerPart.mpr (mem_answers.mpr h)
    refine ⟨desired, earlier, later, rfl, ?_, ?_, ?_, ?_⟩
    · rw [answers_append, answers_answered, List.append_assoc, List.cons_append] at hsplit
      refine mem_answers.mp (mem_of_two_splits hsplit (fun he ↦ haside _ he) ?_)
      intro he
      cases he
    · exact fun core dir taken he ↦ hlate _ (hin he)
    · exact fun g r he ↦ hearly _ (hin he)
    · exact fun g r he ↦ hlate _ (hin he)

theorem desired_of_trace {α : Type} {p q : WorkerProgram α}
    (h : Trace (workerStep active) Commit p s es q t) :
    t.row.desiredGeneration = s.row.desiredGeneration + moves es := by
  induction h with
  | stop => rfl
  | moved hc _ ih =>
    obtain ⟨operationId, rfl⟩ := hc
    rw [ih, moves]
    exact Nat.add_right_comm _ _ _
  | answered hs _ ih =>
    rw [ih, workerStep_desired hs]
    rfl

theorem desired_since_load {before between : List (Event WorkerReply)} {desired : DesiredState}
    (h : Trace (workerStep active) Commit (process worker) s
      (before ++ loaded desired :: between) q t) :
    t.row.desiredGeneration = desired.generation + moves between := by
  obtain ⟨p, m, -, hm⟩ := h.split
  cases hm with
  | answered hs hm =>
    obtain ⟨hgen, rfl⟩ := hs
    rw [hgen]
    exact desired_of_trace hm

theorem undisturbed_of_fresh (h : Trace (workerStep active) Commit (process worker) s es q t)
    (hfresh : FreshInstalls active worker s es) : UndisturbedLoads es := by
  intro before desired between after hes ⟨core, candidate, result, hin⟩
  obtain ⟨c, c', rfl⟩ := List.append_of_mem hin
  rw [← List.cons_append, ← List.append_assoc] at hes
  obtain ⟨d, earlier, later, hsplit, -, -, hrow⟩ := hfresh _ _ _ _ _ hes
  obtain ⟨d', earlier', later', hsplit', -, -, hno, hno'⟩ := checked_before_install h hes
  -- both splits are at the one check that comes before the installation
  have huniq : ∀ {g : ℕ} {x z : List (Event WorkerReply)},
      earlier' ++ checked d'.generation (.ok true) :: later' = x ++ checked g (.ok true) :: z →
      earlier' = x ∧ d'.generation = g := by
    intro g x z hxz
    obtain ⟨rfl, hg, -⟩ := (List.append_cons_inj_of_notMem (hno _ _) (hno' _ _)).mp hxz
    exact ⟨rfl, by simpa using hg⟩
  obtain ⟨rfl, hd⟩ := huniq (hsplit'.symm.trans hsplit)
  obtain ⟨rfl, hd'⟩ := huniq hsplit'.symm
  rw [hes, List.append_assoc] at h
  obtain ⟨p, m, hm, -⟩ := h.split
  have hmoved := desired_since_load hm
  rw [hrow p m hm] at hmoved
  exact moves_eq_zero.mp (by omega)

theorem fresh_of_undisturbed (h : Trace (workerStep active) Commit (process worker) s es q t)
    (hquiet : UndisturbedLoads es) : FreshInstalls active worker s es := by
  intro before core candidate result after hes
  obtain ⟨desired, earlier, later, rfl, hload, hsnap, -, -⟩ := checked_before_install h hes
  refine ⟨desired, earlier, later, rfl, hload, hsnap, fun p m hm ↦ ?_⟩
  obtain ⟨front, between, rfl⟩ := List.append_of_mem hload
  rw [desired_since_load hm, moves_eq_zero.mpr, Nat.add_zero]
  refine hquiet front desired between (later ++ installed core candidate result :: after) ?_
    ⟨core, candidate, result, by simp⟩
  simpa using hes

/-- A run installs only what is still desired at its check exactly when the panel
stays silent between load and check. -/
theorem stale_worker_iff (h : Trace (workerStep active) Commit (process worker) s es q t) :
    FreshInstalls active worker s es ↔ UndisturbedLoads es :=
  ⟨undisturbed_of_fresh h, fresh_of_undisturbed h⟩

end events

section unstale

variable {s t : System L} {worker : Worker} {es : List (Event WorkerReply)}
variable {generation : ℕ} {α : Type}

def WorkerOp.follows (generation : ℕ) : WorkerOp → Prop
  | .publishDesiredGeneration _ => False
  | .reconciler op => op.checks generation
  | _ => True

theorem WorkerOp.isReport.follows {op : WorkerOp} (h : op.isReport) : op.follows generation := by
  cases op with
  | reconciler op => exact Op.isEarly.checks h
  | publishDesiredGeneration => cases h
  | _ => trivial

def Unstale (log : List (Σ op, WorkerReply op)) : Prop :=
  ∀ g, ⟨.reconciler (.desiredGenerationIsCurrent g), .ok false⟩ ∉ log

theorem marker_of_commits (h : Relation.ReflTransGen Commit s t) : t.marker = s.marker := by
  induction h with
  | refl => rfl
  | tail _ hc ih =>
    obtain ⟨operationId, rfl⟩ := hc
    exact ih

theorem workerStep_marker {op : WorkerOp} {r : WorkerReply op} (hop : op.follows generation)
    (h : workerStep active s op r t) : t.marker = s.marker := by
  cases op with
  | publishDesiredGeneration => cases hop
  | reconciler op => exact (workerStep_reconciler h).2.2
  | loadDesiredState =>
    cases r with
    | ok => exact h.2 ▸ rfl
    | error => exact h ▸ rfl
  | markReconcileResult update =>
    cases r with
    | ok => exact h ▸ rfl
    | error => rcases h with rfl | rfl <;> rfl
  | _ => exact h ▸ rfl

abbrev sharedTrace (active : L → Bool) :=
  tracedStep (interleaved (workerStep active) Commit)

theorem announced_step {s t : Traced WorkerReply (System L)} {op : WorkerOp} {r : WorkerReply op}
    (hop : op.follows generation) (h : s.state.marker = some generation ∧ Unstale s.log)
    (hs : sharedTrace active s op r t) : t.state.marker = some generation ∧ Unstale t.log := by
  obtain ⟨⟨m, hm, hstep⟩, hlog⟩ := hs
  have hmarker : m.marker = some generation := (marker_of_commits hm).trans h.1
  refine ⟨(workerStep_marker hop hstep).trans hmarker, fun g he ↦ ?_⟩
  rw [hlog] at he
  rcases List.mem_append.mp he with he | he
  · exact h.2 g he
  · cases List.mem_singleton.mp he
    have hg : g = generation := hop g rfl
    have hcurrent : false = m.desiredGenerationIsCurrent g := hstep.1
    rw [System.desiredGenerationIsCurrent, hmarker, hg] at hcurrent
    simp at hcurrent

theorem unstale_step {s t : Traced WorkerReply (System L)} {op : WorkerOp} {r : WorkerReply op}
    (hop : op.isEarly) (h : Unstale s.log) (hs : sharedTrace active s op r t) : Unstale t.log := by
  intro g he
  rw [hs.2] at he
  rcases List.mem_append.mp he with he | he
  · exact h g he
  · cases List.mem_singleton.mp he
    exact hop

theorem safe_announced {p : WorkerProgram α} {s : Traced WorkerReply (System L)}
    (hp : p.Uses (WorkerOp.follows generation))
    (hs : s.state.marker = some generation ∧ Unstale s.log) :
    Safe (sharedTrace active) (fun t ↦ Unstale t.log) (fun _ t ↦ Unstale t.log)
      (fun _ t ↦ t.state.marker = some generation ∧ Unstale t.log) p s := by
  have hstep : ∀ (u : Traced WorkerReply (System L)) op r t, op.follows generation →
      u.state.marker = some generation ∧ Unstale u.log → sharedTrace active u op r t →
      t.state.marker = some generation ∧ Unstale t.log :=
    fun _ _ _ _ ↦ announced_step
  refine (safe_of_uses hp hstep hs).mono (fun _ ↦ And.right) ?_ (fun _ _ _ ↦ id)
  intro e t _ h
  exact h.2

theorem safe_unstale {p : WorkerProgram α} {s : Traced WorkerReply (System L)}
    (hp : p.Uses WorkerOp.isEarly) (hs : Unstale s.log) :
    Safe (sharedTrace active) (fun t ↦ Unstale t.log) (fun _ t ↦ Unstale t.log)
      (fun _ t ↦ Unstale t.log) p s := by
  have hstep : ∀ (u : Traced WorkerReply (System L)) op r t, op.isEarly → Unstale u.log →
      sharedTrace active u op r t → Unstale t.log := fun _ _ _ _ ↦ unstale_step
  exact safe_of_uses hp hstep hs

theorem unstale_prepare (worker : Worker) (request : Option ReconcileRequest)
    (desired : DesiredState) {s : Traced WorkerReply (System L)} (hs : Unstale s.log) :
    Safe (sharedTrace active) (fun t ↦ Unstale t.log) (fun _ t ↦ Unstale t.log)
      (fun x t ↦ t.state.marker = some x.1.generation ∧ Unstale t.log)
      (worker.prepare request desired) s := by
  rw [Worker.prepare]
  split_ifs
  · exact ⟨hs, hs⟩
  refine (safe_unstale (uses_lift _) hs).seq fun protocols _ hs ↦ ?_
  refine (safe_unstale (demand_uses (request_uses trivial)) hs).seq fun _ _ hs ↦ ?_
  refine (safe_unstale (uses_foldlM fun _ profile ↦ (checkTls_uses profile).mono
    fun _ h ↦ h.isAside.isEarly) hs).seq fun _ _ hs ↦ ?_
  refine (safe_unstale (uses_lift _) hs).seq fun cores _ hs ↦ ?_
  refine (safe_unstale (demand_uses (request_uses trivial)) hs).seq fun _ u hs ↦ ?_
  refine ⟨hs, fun published t ht ↦ ?_⟩
  have hop : (WorkerOp.publishDesiredGeneration desired.generation).isEarly := trivial
  have hs' : Unstale t.log := unstale_step hop hs ht
  cases published with
  | error => exact ⟨hs', hs'⟩
  | ok =>
    obtain ⟨⟨m, _, hstep⟩, _⟩ := ht
    have hmarker : t.state = { m with marker := some desired.generation } := hstep
    exact ⟨hs', by rw [hmarker], hs'⟩

theorem applyDesired_follows {r : Reconciler} {desired : DesiredState} {secrets : SecretResolver} :
    (applyDesired r desired secrets).Uses (WorkerOp.follows desired.generation) := by
  refine uses_bind (demand_uses (request_uses nofun)) fun applied ↦ ?_
  split_ifs
  · refine uses_bind (perform_uses reconcile_checks) fun outcome ↦ ?_
    refine uses_bind ((persistStatus_uses _ _).mono ?_) fun _ ↦ trivial
    exact fun _ ↦ WorkerOp.isReport.follows
  · trivial

theorem unstale_converge {r : Reconciler} {desired : DesiredState}
    {s : Traced WorkerReply (System L)}
    (hs : s.state.marker = some desired.generation ∧ Unstale s.log) :
    Safe (sharedTrace active) (fun t ↦ Unstale t.log) (fun _ t ↦ Unstale t.log)
      (fun _ t ↦ Unstale t.log) (converge r desired) s := by
  have hrecover := (recoverInterrupted_uses (r := r)).mono fun op h ↦
    (h.follows : op.follows desired.generation)
  refine (safe_announced hrecover hs).seq fun _ _ hs ↦ ?_
  refine (safe_announced (demand_uses (request_uses trivial)) hs).seq fun values _ hs ↦ ?_
  refine (safe_announced applyDesired_follows hs).seq fun outcome _ hs ↦ ?_
  refine (safe_unstale ?_ hs.2).seq fun _ t hs ↦ ?_
  · exact (recordUserSync_uses _ _ _).mono fun _ ↦ WorkerOp.isAside.isEarly
  · split_ifs <;> exact ⟨hs, hs⟩

theorem check_never_stale {q : WorkerProgram Unit}
    (h : Trace (workerStep active) Commit (process worker) s es q t) (g : ℕ) :
    checked g (.ok false) ∉ es := by
  have hsafe : Safe (sharedTrace active) (fun t ↦ Unstale t.log) (fun _ t ↦ Unstale t.log)
      (fun _ t ↦ Unstale t.log) (process worker) ⟨s, []⟩ := by
    have hnil : Unstale [] := fun _ he ↦ absurd he List.not_mem_nil
    have hread := readRequest_uses.mono fun _ h ↦ h.isAside.isEarly
    refine (safe_unstale hread hnil).seq fun request _ hs ↦ ?_
    refine (safe_unstale (demand_uses (request_uses trivial)) hs).seq fun _ _ hs ↦ ?_
    refine (safe_unstale (demand_uses (request_uses trivial)) hs).seq fun desired _ hs ↦ ?_
    exact (unstale_prepare worker request desired hs).seq fun x _ hs ↦ unstale_converge hs
  obtain ⟨m, hrun, -⟩ := h.traced []
  intro he
  exact hsafe.stops ⟨q, hrun⟩ g (mem_answers.mpr he)

end unstale

section demo

def installsAfterCheck (generation : ℕ) : List (Event WorkerReply) → Bool
  | [] => false
  | .answered (.reconciler (.desiredGenerationIsCurrent g)) (.ok true) :: rest =>
    (g == generation && rest.any fun
      | .answered (.reconciler (.installConfig _ _)) _ => true
      | _ => false) || installsAfterCheck generation rest
  | _ :: rest => installsAfterCheck generation rest

theorem split_of_installsAfterCheck {generation : ℕ} {es : List (Event WorkerReply)}
    (h : installsAfterCheck generation es = true) :
    ∃ before after, es = before ++ checked generation (.ok true) :: after ∧
      ∃ core candidate result, installed core candidate result ∈ after := by
  fun_induction installsAfterCheck generation es with
  | case1 => cases h
  | case2 g rest ih =>
    rcases Bool.or_eq_true_iff.mp h with h | h
    · obtain ⟨hg, hany⟩ := Bool.and_eq_true_iff.mp h
      obtain ⟨e, he, hinstall⟩ := List.any_eq_true.mp hany
      refine ⟨[], rest, by rw [beq_iff_eq.mp hg]; rfl, ?_⟩
      split at hinstall
      · exact ⟨_, _, _, he⟩
      · cases hinstall
    · obtain ⟨before, after, rfl, hin⟩ := ih h
      exact ⟨_ :: before, after, rfl, hin⟩
  | case3 e rest _ ih =>
    obtain ⟨before, after, rfl, hin⟩ := ih h
    exact ⟨e :: before, after, rfl, hin⟩

def loadedRun : WorkerProgram Unit × System Bool :=
  exec loneSystemHost 3 (process loneWorker) loneCommitted

def disturbed : System Bool :=
  { loadedRun.2 with row := loadedRun.2.row.bumpDesiredGeneration "later change" }

theorem stale_run_installs :
    ¬∀ (s t : System Bool) (es : List (Event WorkerReply)) (q : WorkerProgram Unit),
      Trace (workerStep id) Commit (process loneWorker) s es q t →
      FreshInstalls id loneWorker s es := by
  intro hall
  have hload : Trace (workerStep id) Commit (process loneWorker) loneCommitted _ loadedRun.1
    loadedRun.2 := exec_trace loneSystemHost_step 3 _ _
  have hrest : Trace (workerStep id) Commit loadedRun.1 disturbed _ _ _ :=
    exec_trace loneSystemHost_step 26 _ _
  have h := hload.append (.moved ⟨"later change", rfl⟩ hrest)
  have hin : installsAfterCheck 1 (events loneSystemHost 26 loadedRun.1 disturbed) = true := by
    decide
  obtain ⟨before, after, hsplit, hinstall⟩ := split_of_installsAfterCheck hin
  have hsame : events loneSystemHost 3 (process loneWorker) loneCommitted ++
      .moved :: events loneSystemHost 26 loadedRun.1 disturbed =
      [.answered .readRequest (.ok none), .answered .openPool (.ok ())] ++
        loaded { emptyDesired with generation := 1 } :: (.moved :: before) ++
          checked 1 (.ok true) :: after := by
    rw [hsplit]
    rfl
  exact undisturbed_of_fresh h (hall _ _ _ _ h) _ _ _ _ hsame hinstall List.mem_cons_self

theorem stale_worker_iff_lone :
    installsAfterCheck 1 (events loneSystemHost 40 (process loneWorker) loneCommitted) = true ∧
      FreshInstalls id loneWorker loneCommitted
        (events loneSystemHost 40 (process loneWorker) loneCommitted) := by
  have hundisturbed :
      UndisturbedLoads (events loneSystemHost 40 (process loneWorker) loneCommitted) := by
    intro before desired between after hsplit _ hmoved
    have hmem : .moved ∈ events loneSystemHost 40 (process loneWorker) loneCommitted := by
      rw [hsplit]
      exact List.mem_append_left _ (List.mem_append_right _ (List.mem_cons_of_mem _ hmoved))
    exact moved_not_mem_events hmem
  exact ⟨by decide, (stale_worker_iff
    (exec_trace loneSystemHost_step 40 (process loneWorker) loneCommitted)).mpr hundisturbed⟩

end demo

end StealthHub.Reconcile

import StealthHub.Reconcile.Convergence

set_option autoImplicit false

namespace StealthHub.Reconcile

open Effect Effect.Program

variable {α : Type}

/-- What a run of the worker finds around the reconcile store: a well-formed
request, what is desired, and the TLS material with the file that reports it. -/
structure Surroundings where
  request : Option ReconcileRequest
  wellFormed : ∀ request' ∈ request, request'.apiVersion = 1 ∧ request'.generation ≠ 0
  desired : DesiredState
  readinessPublished : Except String Unit
  tls : Option String → TlsMaterialReadiness

/-- Answers of these surroundings, where the database and the store of the
reconciler answer without error up to the recovery. -/
def Surroundings.Answers (around : Surroundings) : (op : WorkerOp) → WorkerReply op → Prop
  | .readRequest, r => r = .ok around.request
  | .openPool, r => r = .ok ()
  | .loadDesiredState, r => r = .ok around.desired
  | .publishPrivilegedTlsReadiness, r => r = around.readinessPublished
  | .privilegedTlsMaterialReadiness hostname, r => r = around.tls hostname
  | .migrateAvailableAdapterStates, r => r = .ok ()
  | .publishDesiredGeneration _, r => r = .ok ()
  | _, _ => True

def Surroundings.Certified (around : Surroundings) (profile : ProtocolProfile) : Prop :=
  (around.tls (profileTlsHostname profile.protocolId profile.config)).ready

/-- The checks that a run passes before it looks for an interrupted transaction. -/
structure Surroundings.Admits (around : Surroundings) (worker : Worker) : Prop where
  durable : ∀ request ∈ around.request, request.generation ≤ around.desired.generation
  protocols : worker.protocolRegistry.isOk
  published : around.readinessPublished.isOk
  certified : ∀ profile ∈ around.desired.profiles, profile.enabled →
    profileRequiresTls profile.protocolId → around.Certified profile
  cores : worker.privilegedCoreRegistry.isOk

/-- The first request of `recover` is among the answered ones. -/
def CallsRecover (es : List (Event WorkerReply)) : Prop :=
  ∃ r, .answered (.reconciler .loadJournal) r ∈ es

section walk

variable {around : Surroundings} {worker : Worker} {s : Traced WorkerReply Unit}

abbrev answering (around : Surroundings) (_ : Unit) (op : WorkerOp) (r : WorkerReply op)
    (_ : Unit) : Prop := around.Answers op r

def WorkerOp.isBefore (op : WorkerOp) : Prop := op.isOpening ∨ op = .loadDesiredState

theorem not_isBefore_loadJournal : ¬(WorkerOp.reconciler .loadJournal).isBefore := by
  intro h
  rcases h with h | h
  · exact h
  · cases h

def JournalLoaded (t : Traced WorkerReply Unit) : Prop :=
  ∃ r, ⟨.reconciler .loadJournal, r⟩ ∈ t.log

theorem safe_opening {p : WorkerProgram α} {P : α → Prop} (hp : p.Uses WorkerOp.isOpening)
    (h : Safe (tracedStep (answering around)) (fun _ ↦ True) (fun _ _ ↦ ¬around.Admits worker)
      (fun a _ ↦ P a) p s) (hs : ∀ e ∈ s.log, WorkerOp.isBefore e.1) :
    Safe (tracedStep (answering around)) (fun _ ↦ True)
      (fun _ t ↦ JournalLoaded t ↔ around.Admits worker)
      (fun a t ↦ P a ∧ ∀ e ∈ t.log, WorkerOp.isBefore e.1) p s := by
  refine (h.and (safe_recorded (hp.mono fun _ ↦ .inl) hs)).mono (fun _ _ ↦ trivial) (fun m t _ ht ↦ ?_)
    fun a t _ ht ↦ ht
  constructor
  · intro ⟨r, hr⟩
    exact absurd (ht.2 _ hr) not_isBefore_loadJournal
  · intro hadmits
    exact absurd hadmits ht.1

theorem readRequest_found :
    Safe (tracedStep (answering around)) (fun _ ↦ True) (fun _ _ ↦ ¬around.Admits worker)
      (fun request _ ↦ request = around.request) readRequest s := by
  refine ⟨trivial, fun r t ht ↦ ?_⟩
  obtain rfl : r = .ok around.request := ht.1
  have hformed : ¬around.request.any (fun request ↦
      request.apiVersion ≠ 1 ∨ request.generation = 0) := by
    intro hany
    obtain ⟨request, hrequest, hbad⟩ := (Option.any_eq_true _ _).mp hany
    obtain ⟨hversion, hgeneration⟩ := around.wellFormed request hrequest
    simp [hversion, hgeneration] at hbad
  change Safe _ _ _ _ (if _ then _ else _) t
  rw [if_neg hformed]
  exact ⟨trivial, rfl⟩

theorem checkTls_found (profile : ProtocolProfile) :
    Safe (tracedStep (answering around)) (fun _ ↦ True) (fun _ _ ↦ ¬around.Certified profile)
      (fun _ _ ↦ around.Certified profile) (checkTls profile) s := by
  refine ⟨trivial, fun r t ht ↦ ?_⟩
  obtain rfl : r = around.tls _ := ht.1
  change Safe _ _ _ _ (if _ then _ else _) t
  split_ifs with hready
  · exact ⟨trivial, hready⟩
  · exact ⟨trivial, hready⟩

theorem checks_found (profiles : List ProtocolProfile) :
    Safe (tracedStep (answering around)) (fun _ ↦ True)
      (fun _ _ ↦ ¬∀ profile ∈ profiles, around.Certified profile)
      (fun _ _ ↦ ∀ profile ∈ profiles, around.Certified profile)
      (profiles.foldlM (fun _ profile ↦ checkTls profile) ()) s := by
  refine safe_foldlM (fun done _ _ ↦ ∀ profile ∈ done, around.Certified profile) ?_
    (fun _ _ _ ↦ trivial) (fun _ h ↦ absurd h List.not_mem_nil)
  intro done profile rest _ s hl hdone
  refine (checkTls_found profile).mono (fun _ ↦ id) (fun m t _ hunready hall ↦ ?_)
    fun _ t _ hready other hother ↦ ?_
  · exact hunready (hall profile (by simp [hl]))
  · rcases List.mem_append.mp hother with hother | hother
    · exact hdone other hother
    · rw [List.mem_singleton.mp hother]
      exact hready

theorem prepare_found :
    Safe (tracedStep (answering around)) (fun _ ↦ True) (fun _ _ ↦ ¬around.Admits worker)
      (fun _ _ ↦ around.Admits worker) (worker.prepare around.request around.desired) s := by
  rw [Worker.prepare]
  split_ifs with hnewer
  · refine ⟨trivial, fun hadmits ↦ ?_⟩
    obtain ⟨request, hrequest, hlt⟩ := (Option.any_eq_true _ _).mp hnewer
    have hle := hadmits.durable request hrequest
    have hlt : around.desired.generation < request.generation := of_decide_eq_true hlt
    omega
  have hdurable : ∀ request ∈ around.request, request.generation ≤ around.desired.generation := by
    intro request hrequest
    by_contra hlt
    exact hnewer ((Option.any_eq_true _ _).mpr ⟨request, hrequest, by simpa using hlt⟩)
  cases hprotocols : worker.protocolRegistry with
  | error m =>
    refine ⟨trivial, fun hadmits ↦ ?_⟩
    have hok := hadmits.protocols
    rw [hprotocols] at hok
    cases hok
  | ok protocols =>
    refine ⟨trivial, fun r t ht ↦ ?_⟩
    obtain rfl : r = around.readinessPublished := ht.1
    cases hpublished : around.readinessPublished with
    | error m =>
      refine ⟨trivial, fun hadmits ↦ ?_⟩
      have hok := hadmits.published
      rw [hpublished] at hok
      cases hok
    | ok =>
      change Safe _ _ _ _ (Program.bind (List.foldlM (fun _ profile ↦ checkTls profile) () _) _) t
      refine Safe.seq ((checks_found _).mono (fun _ ↦ id) (fun m t _ hunready hadmits ↦ ?_)
        fun _ _ _ ↦ id) fun _ t hready ↦ ?_
      · refine hunready fun profile hprofile ↦ ?_
        obtain ⟨hmem, htls⟩ := List.mem_filter.mp hprofile
        obtain ⟨henabled, htls⟩ := Bool.and_eq_true_iff.mp htls
        exact hadmits.certified profile hmem henabled htls
      cases hcores : worker.privilegedCoreRegistry with
      | error m =>
        refine ⟨trivial, fun hadmits ↦ ?_⟩
        have hok := hadmits.cores
        rw [hcores] at hok
        cases hok
      | ok cores =>
        refine ⟨trivial, fun r t ht ↦ ?_⟩
        obtain rfl : r = .ok () := ht.1
        refine ⟨trivial, fun r t ht ↦ ?_⟩
        obtain rfl : r = .ok () := ht.1
        refine ⟨trivial, hdurable, by rw [hprotocols]; rfl, by rw [hpublished]; rfl, ?_,
          by rw [hcores]; rfl⟩
        intro profile hmem henabled htls
        exact hready profile (List.mem_filter.mpr ⟨hmem, by simp [henabled, htls]⟩)

theorem converge_loads (r : Reconciler) (desired : DesiredState) (hadmits : around.Admits worker) :
    Safe (tracedStep (answering around)) (fun _ ↦ True)
      (fun _ t ↦ JournalLoaded t ↔ around.Admits worker)
      (fun _ t ↦ JournalLoaded t ↔ around.Admits worker) (converge r desired) s := by
  refine ⟨trivial, fun reply t ht ↦ ?_⟩
  have hloaded : JournalLoaded t := ⟨reply, by rw [ht.2]; simp⟩
  have hkept : ∀ (u : Traced WorkerReply Unit) op r v, True → JournalLoaded u →
      tracedStep (answering around) u op r v → JournalLoaded v := by
    intro u op r v _ ⟨reply, hu⟩ hv
    exact ⟨reply, by rw [hv.2]; exact List.mem_append_left _ hu⟩
  exact (safe_of_uses (uses_true _) hkept hloaded).mono (fun _ _ ↦ trivial)
    (fun _ _ _ h ↦ iff_of_true h hadmits) fun _ _ _ h ↦ iff_of_true h hadmits

theorem process_found :
    Safe (tracedStep (answering around)) (fun _ ↦ True)
      (fun _ t ↦ JournalLoaded t ↔ around.Admits worker)
      (fun _ t ↦ JournalLoaded t ↔ around.Admits worker) (process worker) ⟨(), []⟩ := by
  refine (safe_opening readRequest_uses readRequest_found (fun _ h ↦ absurd h List.not_mem_nil)).seq
    fun request t ⟨hrequest, hs⟩ ↦ ?_
  subst hrequest
  refine ⟨trivial, fun r u hu ↦ ?_⟩
  obtain rfl : r = .ok () := hu.1
  refine ⟨trivial, fun r v hv ↦ ?_⟩
  obtain rfl : r = .ok around.desired := hv.1
  have hown : ∀ e ∈ v.log, WorkerOp.isBefore e.1 := by
    intro e he
    rw [hv.2, hu.2] at he
    simp only [List.mem_append, List.mem_singleton] at he
    rcases he with (he | rfl) | rfl
    · exact hs e he
    · exact .inl trivial
    · exact .inr rfl
  refine (safe_opening (prepare_uses _ _ _) prepare_found hown).seq fun result w hw ↦ ?_
  exact converge_loads _ _ hw.1

end walk

variable {L : Type} {active : L → Bool} {s t : System L}

/-- A run that ends has looked for an interrupted transaction exactly when every
check of the request, of the TLS material and of the registries was passed before. -/
theorem recover_called_iff (worker : Worker) (around : Surroundings)
    {es : List (Event WorkerReply)} {q : WorkerProgram Unit}
    (hanswers : ∀ e ∈ es, e.Obeys around.Answers)
    (htrace : Trace (workerStep active) Commit (process worker) s es q t)
    (hended : q = .done () ∨ ∃ m, q = .fail m) :
    CallsRecover es ↔ around.Admits worker := by
  have hrun := process_found.run (htrace.recorded hanswers [])
  have hiff : CallsRecover es ↔ JournalLoaded ⟨(), [] ++ answers es⟩ :=
    exists_congr fun r ↦ mem_answers.symm
  rw [hiff]
  rcases hended with rfl | ⟨m, rfl⟩
  · exact hrun.2
  · exact hrun.2

def interrupted : System Bool :=
  let stopped := (exec loneSystemHost 30 (process loneWorker) loneCommitted).2
  { stopped with row := stopped.row.bumpDesiredGeneration "enable" }

theorem interrupted_history : History id (fun _ ↦ True) interrupted := by
  have hrun : Run (workerStep id) (process loneWorker) loneCommitted _
      (exec loneSystemHost 30 (process loneWorker) loneCommitted).2 :=
    exec_run loneSystemHost_step _ _ _
  obtain ⟨es, htrace⟩ := (hrun.trace : ∃ es, Trace (workerStep id) Commit _ _ es _ _)
  have hstopped := History.stopped loneWorker (loneCommitted_history fun _ ↦ True) htrace trivial
  exact .commit hstopped ⟨"enable", rfl⟩

theorem interrupted_mutated : ∃ j, interrupted.store.journal = some j ∧ ¬isTerminal j.status ∧
    j.resources.any JournalResource.mutationStarted := by
  cases hj : interrupted.store.journal with
  | none => exact absurd hj (by decide)
  | some j =>
    refine ⟨j, rfl, ?_⟩
    have hall : interrupted.store.journal.all fun j ↦
        !isTerminal j.status && j.resources.any JournalResource.mutationStarted := by decide
    rw [hj] at hall
    simpa using hall

def speedProfile : ProtocolProfile where
  name := "speed"
  displayName := "Speed"
  protocolId := "hysteria2"
  schemaVersion := 1
  role := .speed
  server := "203.0.113.7"
  port := 443
  enabled := true
  preferredCoreId := none
  managedResourceId := none
  config := .object [("sni", .string "edge.example.com")]

def uncertified (profiles : List ProtocolProfile) : Surroundings where
  request := none
  wellFormed := nofun
  desired := { emptyDesired with generation := 2, profiles := profiles }
  readinessPublished := .ok ()
  tls := fun _ ↦ ⟨false, "certificate or key is missing"⟩

def uncertifiedEvents : List (Event WorkerReply) :=
  [.answered .readRequest (.ok none), .answered .openPool (.ok ()),
    .answered .loadDesiredState (.ok (uncertified [speedProfile]).desired),
    .answered .publishPrivilegedTlsReadiness (.ok ()),
    .answered (.privilegedTlsMaterialReadiness (some "edge.example.com"))
      ⟨false, "certificate or key is missing"⟩]

theorem interrupted_not_recovered :
    ¬∀ (worker : Worker) (around : Surroundings) (s t : System Bool)
      (es : List (Event WorkerReply)) (q : WorkerProgram Unit), History id (fun _ ↦ True) s →
      (∃ j, s.store.journal = some j ∧ ¬isTerminal j.status ∧
        j.resources.any JournalResource.mutationStarted) →
      (∀ e ∈ es, e.Obeys around.Answers) →
      Trace (workerStep id) Commit (process worker) s es q t →
      (q = .done () ∨ ∃ m, q = .fail m) → CallsRecover es := by
  intro hall
  have hgeneration : 2 = interrupted.row.desiredGeneration := by decide
  have htrace : Trace (workerStep id) Commit (process loneWorker) interrupted uncertifiedEvents
      (.fail ("TLS readiness failed for enabled profile `speed`: " ++
        "certificate or key is missing")) interrupted :=
    .answered rfl (.answered rfl (.answered ⟨hgeneration, rfl⟩
      (.answered rfl (.answered rfl (.stop _ _)))))
  have hanswers : ∀ e ∈ uncertifiedEvents, e.Obeys (uncertified [speedProfile]).Answers := by
    simp [uncertifiedEvents, Event.Obeys, Surroundings.Answers, uncertified]
  obtain ⟨r, hr⟩ := hall _ _ _ _ _ _ interrupted_history interrupted_mutated hanswers htrace
    (.inr ⟨_, rfl⟩)
  simp [uncertifiedEvents] at hr

def unreadableEvents : List (Event WorkerReply) :=
  [.answered .readRequest (.ok none), .answered .openPool (.ok ()),
    .answered .loadDesiredState (.ok (uncertified []).desired),
    .answered .publishPrivilegedTlsReadiness (.ok ()),
    .answered .migrateAvailableAdapterStates (.ok ()),
    .answered (.publishDesiredGeneration 2) (.ok ()),
    .answered (.reconciler .loadJournal) (.error "unreadable journal")]

theorem recover_called_iff_lone : CallsRecover unreadableEvents := by
  have hgeneration : 2 = interrupted.row.desiredGeneration := by decide
  have htrace : Trace (workerStep id) Commit (process loneWorker) interrupted unreadableEvents
      (.fail "unreadable journal") { interrupted with marker := some 2 } :=
    .answered rfl (.answered rfl (.answered ⟨hgeneration, rfl⟩ (.answered rfl
      (.answered rfl (.answered rfl (.answered ⟨_, rfl, rfl⟩ (.stop _ _)))))))
  have hanswers : ∀ e ∈ unreadableEvents, e.Obeys (uncertified []).Answers := by
    simp [unreadableEvents, Event.Obeys, Surroundings.Answers, uncertified]
  have hadmits : (uncertified []).Admits loneWorker := ⟨nofun, rfl, rfl, nofun, rfl⟩
  exact (recover_called_iff loneWorker (uncertified []) hanswers htrace (.inr ⟨_, rfl⟩)).mpr hadmits

end StealthHub.Reconcile

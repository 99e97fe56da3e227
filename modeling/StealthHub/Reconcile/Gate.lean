import StealthHub.Effect.Record
import StealthHub.Reconcile.Built
import StealthHub.Reconcile.Control
import StealthHub.Reconcile.CrashSafety
import StealthHub.Reconcile.Dependencies

set_option autoImplicit false

namespace StealthHub.Reconcile

open Effect Effect.Program

/-- A core answered that it is compatible with what is asked, and installed. -/
structure Answers (log : List Answered) (core : CoreAdapter) (required : Finset String) : Prop where
  compatible : ⟨.compatible core.manifest.id required, .ok true⟩ ∈ log
  installed : ⟨.installed core.manifest.id, .ok true⟩ ∈ log

/-- A profile was rendered for a registered core that can run it. -/
structure RenderedFor (r : Reconciler) (desired : DesiredState) (secrets : SecretResolver)
    (log : List Answered) (profile : ProtocolProfile) (adapter : ProtocolAdapter)
    (core : CoreAdapter) (fragment : ServerFragment) : Prop where
  protocol : r.protocols.get profile.protocolId = some adapter
  registered : r.cores.get core.manifest.id = some core
  capabilities : adapter.manifest.requiredCoreCapabilities ⊆ core.manifest.capabilities
  answers : Answers log core adapter.manifest.requiredCoreCapabilities
  rendered : adapter.renderServer ⟨profile, desired.users, secrets⟩ = .ok fragment

/-- A planned candidate was staged and validated, and the snapshot of its core is in the journal. -/
structure Secured (log : List Answered) (journal : JournalEntry)
    (entry : String × CoreAdapter × CorePlan) (candidate : Path) : Prop where
  staged : ∃ dir, ⟨.stageConfig entry.1 entry.2.2 dir, .ok candidate⟩ ∈ log
  validated : ⟨.validateConfig entry.1 candidate, .ok ()⟩ ∈ log
  snapshotted : ∃ dir, ∃ resource ∈ journal.resources, resource.coreId = entry.1 ∧
    ⟨.snapshotConfig entry.1 dir, .ok (snapshotOf resource)⟩ ∈ log

/-- The plans are what `build_plans` came to with the answers of this run. -/
def BuiltIn (r : Reconciler) (desired : DesiredState) (secrets : SecretResolver)
    (plans : CorePlans) (log : List Answered) : Prop :=
  ∃ applied before after, ⟨.loadApplied, .ok applied⟩ ∈ before ∧
    Completes (tracedStep anyAnswer) (r.buildPlans desired secrets applied) ⟨(), before⟩ plans
      ⟨(), after⟩ ∧ after <+: log

/-- What was found of the plans before anything was staged. -/
structure Checked (r : Reconciler) (desired : DesiredState) (secrets : SecretResolver)
    (plans : CorePlans) (log : List Answered) : Prop where
  built : BuiltIn r desired secrets plans log
  profiles : ∀ profile ∈ desired.profiles.filter ProtocolProfile.enabled,
    ∃ adapter core fragment plan,
      RenderedFor r desired secrets log profile adapter core fragment ∧
        plans.get? core.manifest.id = some (core, plan) ∧ fragment ∈ plan.fragments
  infrastructure : SoundGraph desired.infrastructure
  listeners : (plans.values.flatMap fun entry ↦
    entry.2.fragments.flatMap ServerFragment.listeners).Nodup

/-- What a transaction has established, with everything answered up to here. -/
structure Gate (r : Reconciler) (desired : DesiredState) (secrets : SecretResolver)
    (plans : CorePlans) (journal : JournalEntry) (log : List Answered) (core : String)
    (candidate : Path) : Prop extends Checked r desired secrets plans log where
  secured : ∀ entry ∈ plans.entries, ∃ candidate, Secured log journal entry candidate
  planned : ∃ entry ∈ plans.entries, entry.1 = core ∧ Secured log journal entry candidate
  saved : ∃ before, log = before ++ [⟨.saveJournal journal, .ok ()⟩]
  applying : journal.status = .applying
  marked : ∃ resource ∈ journal.resources, resource.coreId = core ∧
    resource.mutationStarted = true

section plan

variable {S : Type} {step : S → (op : Op) → Reply op → S → Prop} {s : Traced Reply S}
variable {r : Reconciler} {desired : DesiredState} {secrets : SecretResolver}
variable {adapter core : CoreAdapter} {required : Finset String} {fragments : Reconciler.Fragments}
variable {log log' : List Answered}

theorem Answers.mono (h : Answers log core required) (hlog : log <+: log') :
    Answers log' core required :=
  ⟨hlog.subset h.compatible, hlog.subset h.installed⟩

theorem RenderedFor.mono {profile : ProtocolProfile} {protocol : ProtocolAdapter}
    {fragment : ServerFragment}
    (h : RenderedFor r desired secrets log profile protocol core fragment) (hlog : log <+: log') :
    RenderedFor r desired secrets log' profile protocol core fragment :=
  ⟨h.protocol, h.registered, h.capabilities, h.answers.mono hlog, h.rendered⟩

theorem leaves_usable : Leaves step (fun usable t ↦ usable = true → Answers t.log adapter required)
    (usable adapter required) s := by
  refine ⟨trivial, fun reply t ht ↦ ?_⟩
  match reply, ht with
  | .error m, _ => exact ⟨trivial, trivial⟩
  | .ok false, _ => exact ⟨trivial, nofun⟩
  | .ok true, ht =>
    refine ⟨trivial, fun reply u hu ↦ ?_⟩
    match reply, hu with
    | .error m, _ => exact ⟨trivial, trivial⟩
    | .ok installed, hu =>
      refine ⟨trivial, ?_⟩
      rintro rfl
      exact ⟨by simp [hu.2, ht.2], by simp [hu.2]⟩

theorem leaves_firstUsable {adapters : List CoreAdapter} :
    Leaves step (fun found t ↦ ∀ core, found = some core → core ∈ adapters ∧
      Answers t.log core required) (firstUsable required adapters) s := by
  induction adapters generalizing s with
  | nil => exact ⟨trivial, nofun⟩
  | cons adapter rest ih =>
    refine Safe.seq leaves_usable fun usable t ht ↦ ?_
    cases usable with
    | true =>
      refine ⟨trivial, ?_⟩
      rintro core ⟨⟩
      exact ⟨List.mem_cons_self, ht rfl⟩
    | false =>
      refine Leaves.mono ih fun found u hfound core hcore ↦ ?_
      exact ⟨List.mem_cons_of_mem _ (hfound core hcore).1, (hfound core hcore).2⟩

theorem leaves_select {registry : CoreRegistry} {preferred : Option String} :
    Leaves step (fun found t ↦ ∀ core, found = some core →
      registry.get core.manifest.id = some core ∧ required ⊆ core.manifest.capabilities ∧
        Answers t.log core required) (select registry required preferred) s := by
  cases preferred with
  | none =>
    refine Leaves.mono leaves_firstUsable fun found t hfound core hcore ↦ ?_
    obtain ⟨hmem, hanswers⟩ := hfound core hcore
    obtain ⟨hvalue, hcapable⟩ := CoreRegistry.mem_compatible.mp hmem
    exact ⟨CoreRegistry.mem_values.mp hvalue, hcapable, hanswers⟩
  | some id =>
    refine Safe.seq (leaves_of_returns Reconciler.context_returns) fun adapter t hadapter ↦ ?_
    split_ifs with hrequired
    · refine Safe.seq leaves_usable fun usable u hu ↦ ?_
      cases usable with
      | false => exact ⟨trivial, trivial⟩
      | true =>
        refine ⟨trivial, ?_⟩
        rintro core ⟨⟩
        rw [registry.keyed _ _ hadapter]
        exact ⟨hadapter, hrequired, hu rfl⟩
    · exact ⟨trivial, trivial⟩

/-- The fragments of the profiles seen so far, each with a core that is registered. -/
structure Serving (r : Reconciler) (desired : DesiredState) (secrets : SecretResolver)
    (log : List Answered) (done : List ProtocolProfile) (fragments : Reconciler.Fragments) :
    Prop where
  registered : ∀ id entry, fragments.get? id = some entry → r.cores.get id = some entry.1
  served : ∀ profile ∈ done, ∃ adapter core fragment rest,
    RenderedFor r desired secrets log profile adapter core fragment ∧
      fragments.get? core.manifest.id = some (core, rest) ∧ fragment ∈ rest

variable {done : List ProtocolProfile} {fragment : ServerFragment}

theorem Serving.mono (h : Serving r desired secrets log done fragments) (hlog : log <+: log') :
    Serving r desired secrets log' done fragments := by
  refine ⟨h.registered, fun profile hprofile ↦ ?_⟩
  obtain ⟨adapter, core, fragment, rest, hrendered, hrest⟩ := h.served profile hprofile
  exact ⟨adapter, core, fragment, rest, hrendered.mono hlog, hrest⟩

theorem Serving.get?_push (h : Serving r desired secrets log done fragments)
    (fragment : ServerFragment) (id : String)
    (hcore : r.cores.get core.manifest.id = some core) :
    (Reconciler.pushFragment fragments core.manifest.id core fragment).get? id =
      if core.manifest.id = id then
        some (core, Reconciler.fragmentsOf fragments core.manifest.id ++ [fragment])
      else fragments.get? id := by
  rw [Reconciler.pushFragment, Reconciler.fragmentsOf]
  cases hget : fragments.get? core.manifest.id with
  | none => rw [OrderedMap.get?_insert]; rfl
  | some entry =>
    have hsame := Option.some.inj ((h.registered _ _ hget).symm.trans hcore)
    rw [← hsame, OrderedMap.get?_insert]
    rfl

theorem Serving.push (h : Serving r desired secrets log done fragments) (fragment : ServerFragment)
    (hcore : r.cores.get core.manifest.id = some core) :
    Serving r desired secrets log done
      (Reconciler.pushFragment fragments core.manifest.id core fragment) := by
  constructor
  · intro id entry hentry
    rw [h.get?_push _ _ hcore] at hentry
    split_ifs at hentry with hid
    · cases hentry
      exact hid ▸ hcore
    · exact h.registered id entry hentry
  · intro profile hprofile
    obtain ⟨adapter, other, kept, rest, hrendered, hget, hmem⟩ := h.served profile hprofile
    by_cases hid : core.manifest.id = other.manifest.id
    · refine ⟨adapter, other, kept, rest ++ [fragment], hrendered, ?_, by simp [hmem]⟩
      rw [h.get?_push _ _ hcore, if_pos hid, hid, Reconciler.fragmentsOf, hget]
      have hother := hrendered.registered
      rw [← hid, hcore] at hother
      rw [Option.some.inj hother]
      rfl
    · refine ⟨adapter, other, kept, rest, hrendered, ?_, hmem⟩
      rw [h.get?_push _ _ hcore, if_neg hid, hget]

theorem Checked.mono {plans : CorePlans} (h : Checked r desired secrets plans log)
    (hlog : log <+: log') : Checked r desired secrets plans log' := by
  obtain ⟨applied, before, after, hloaded, hbuilt, hafter⟩ := h.built
  refine ⟨⟨applied, before, after, hloaded, hbuilt, hafter.trans hlog⟩, fun profile hprofile ↦ ?_,
    h.infrastructure, h.listeners⟩
  obtain ⟨adapter, core, fragment, plan, hrendered, hplan⟩ := h.profiles profile hprofile
  exact ⟨adapter, core, fragment, plan, hrendered.mono hlog, hplan⟩

theorem leaves_context {α : Type} {message : String} {x : Option α} :
    Leaves step (fun a t ↦ x = some a ∧ t = s) (context message x) s := by
  cases x with
  | none => exact ⟨trivial, trivial⟩
  | some a => exact ⟨trivial, rfl, rfl⟩

theorem leaves_planProfile {profile : ProtocolProfile}
    (h : Serving r desired secrets s.log done fragments) :
    Leaves step (fun fragments' t ↦ Serving r desired secrets t.log (done ++ [profile]) fragments')
      (r.planProfile desired secrets fragments profile) s := by
  refine Safe.seq leaves_context fun protocol _ hprotocol ↦ ?_
  obtain ⟨hprotocol, rfl⟩ := hprotocol
  refine Safe.seq leaves_lift fun _ _ hconfig ↦ ?_
  obtain ⟨-, rfl⟩ := hconfig
  refine Safe.seq (Leaves.logged leaves_select) fun selected t ⟨hselected, hlog⟩ ↦ ?_
  refine Safe.seq leaves_context fun core _ hcore ↦ ?_
  obtain ⟨rfl, rfl⟩ := hcore
  obtain ⟨hregistered, hcapable, hanswers⟩ := hselected core rfl
  refine Safe.seq leaves_lift fun fragment _ hfragment ↦ ?_
  obtain ⟨hfragment, rfl⟩ := hfragment
  have hpush := (h.mono hlog).push fragment hregistered
  refine ⟨trivial, hpush.registered, fun other hother ↦ ?_⟩
  rcases List.mem_append.mp hother with hother | hother
  · exact hpush.served other hother
  rw [List.mem_singleton.mp hother]
  have hget := (h.mono hlog).get?_push fragment core.manifest.id hregistered
  rw [if_pos rfl] at hget
  exact ⟨protocol, core, fragment, _, ⟨hprotocol, hregistered, hcapable, hanswers, hfragment⟩,
    hget, List.mem_append_right _ List.mem_cons_self⟩

theorem leaves_planInfrastructure {resource : InfrastructureResource}
    (h : Serving r desired secrets s.log done fragments) :
    Leaves step (fun fragments' t ↦ Serving r desired secrets t.log done fragments')
      (r.planInfrastructure fragments resource) s := by
  refine Safe.seq leaves_lift fun _ _ hid ↦ ?_
  obtain ⟨-, rfl⟩ := hid
  split_ifs
  · exact ⟨trivial, trivial⟩
  refine Safe.seq leaves_context fun adapter _ hadapter ↦ ?_
  obtain ⟨hadapter, rfl⟩ := hadapter
  have hid := r.cores.keyed _ _ hadapter
  rw [← hid] at hadapter ⊢
  exact ⟨trivial, h.push _ hadapter⟩

theorem leaves_planPrevious {coreId : String}
    (h : Serving r desired secrets s.log done fragments) :
    Leaves step (fun fragments' t ↦ Serving r desired secrets t.log done fragments')
      (r.planPrevious fragments coreId) s := by
  rw [Reconciler.planPrevious]
  split_ifs with hcontains
  · exact ⟨trivial, h⟩
  refine Safe.seq leaves_context fun adapter _ hadapter ↦ ?_
  obtain ⟨hadapter, rfl⟩ := hadapter
  rw [OrderedMap.contains, Option.not_isSome_iff_eq_none] at hcontains
  refine ⟨trivial, fun id entry hentry ↦ ?_, fun profile hprofile ↦ ?_⟩
  · rw [OrderedMap.get?_insert] at hentry
    split_ifs at hentry with hid
    · cases hentry
      exact hid ▸ hadapter
    · exact h.registered id entry hentry
  · obtain ⟨protocol, core, fragment, rest, hrendered, hget, hmem⟩ := h.served profile hprofile
    refine ⟨protocol, core, fragment, rest, hrendered, ?_, hmem⟩
    rw [OrderedMap.get?_insert, if_neg, hget]
    rintro rfl
    rw [hget] at hcontains
    cases hcontains

theorem leaves_buildPlans {applied : AppliedState} :
    Leaves step (fun plans t ↦ ∀ profile ∈ desired.profiles.filter ProtocolProfile.enabled,
      ∃ adapter core fragment plan,
        RenderedFor r desired secrets t.log profile adapter core fragment ∧
          plans.get? core.manifest.id = some (core, plan) ∧ fragment ∈ plan.fragments)
      (r.buildPlans desired secrets applied) s := by
  have hempty : Serving r desired secrets s.log [] OrderedMap.empty := ⟨nofun, nofun⟩
  refine Safe.seq (safe_foldlM (fun done fragments t ↦
    Serving r desired secrets t.log done fragments)
    (fun _ _ _ _ _ _ h ↦ leaves_planProfile h) (fun _ _ _ ↦ trivial) hempty) fun _ t h₁ ↦ ?_
  refine Safe.seq (safe_foldlM (fun _ fragments t ↦ Serving r desired secrets t.log _ fragments)
    (fun _ _ _ _ _ _ h ↦ leaves_planInfrastructure h) (fun _ _ _ ↦ trivial) h₁) fun _ t h₂ ↦ ?_
  refine Safe.seq (safe_foldlM (fun _ fragments t ↦ Serving r desired secrets t.log _ fragments)
    (fun _ _ _ _ _ _ h ↦ leaves_planPrevious h) (fun _ _ _ ↦ trivial) h₂) fun fragments t h₃ ↦ ?_
  refine ⟨trivial, fun profile hprofile ↦ ?_⟩
  obtain ⟨adapter, core, fragment, rest, hrendered, hget, hmem⟩ := h₃.served profile hprofile
  refine ⟨adapter, core, fragment, ⟨desired.generation, core.manifest.id, rest⟩, hrendered, ?_, hmem⟩
  rw [OrderedMap.get?_mapValues, hget]
  rfl

end plan

section prepare

variable {S ρ α : Type} {step : S → (op : Op) → Reply op → S → Prop} {s : Traced Reply S}
variable {r : Reconciler} {generation : ℕ} {j : JournalEntry}

theorem leaves_saveJournal :
    Leaves step (fun _ t ↦ t.log = s.log ++ [⟨.saveJournal j, .ok ()⟩])
      (saveJournal j : Program Reply (Exit ρ) Unit) s := by
  refine ⟨trivial, fun reply t ht ↦ ?_⟩
  cases reply with
  | ok => exact ⟨trivial, ht.2⟩
  | error m => exact ⟨trivial, trivial⟩

theorem leaves_orExit {result : Except String α} {p : Program Reply (Exit ρ) ρ} :
    Leaves step (fun a t ↦ result = .ok a ∧ t = s) (orExit result p) s := by
  cases result with
  | ok a => exact ⟨trivial, rfl, rfl⟩
  | error m => exact Safe.seq (leaves_true p s) fun _ _ _ ↦ ⟨trivial, trivial⟩

def StagedFor (log : List Answered) (prepared : CoreAdapter × CorePlan × Path) : Prop :=
  ∃ dir, ⟨.stageConfig prepared.1.manifest.id prepared.2.1 dir, .ok prepared.2.2⟩ ∈ log

theorem leaves_stageCore {prepared : List (CoreAdapter × CorePlan × Path)}
    {entry : String × CoreAdapter × CorePlan} :
    Leaves step (fun result t ↦ (result.1.status = j.status ∧ result.1.resources = j.resources) ∧
      ∃ candidate, result.2 = prepared ++ [(entry.2.1, entry.2.2, candidate)] ∧
        StagedFor t.log (entry.2.1, entry.2.2, candidate))
      (r.stageCore generation (j, prepared) entry) s := by
  refine Safe.seq (leaves_true _ _) fun _ t _ ↦ ?_
  refine Safe.seq leaves_request fun staged u hu ↦ ?_
  refine Safe.seq leaves_orExit fun candidate _ hcandidate ↦ ?_
  obtain ⟨rfl, rfl⟩ := hcandidate
  refine Safe.seq leaves_saveJournal fun _ v hv ↦ ?_
  refine ⟨trivial, ⟨rfl, rfl⟩, candidate, rfl, r.transactionDir generation ++ [entry.1], ?_⟩
  rw [hv, hu]
  exact List.mem_append_left _ (List.mem_append_right _ List.mem_cons_self)

theorem leaves_validateCore {prepared : CoreAdapter × CorePlan × Path} :
    Leaves step (fun j' t ↦ (j'.status = j.status ∧ j'.resources = j.resources) ∧
      ⟨.validateConfig prepared.1.manifest.id prepared.2.2, .ok ()⟩ ∈ t.log)
      (r.validateCore j prepared) s := by
  refine Safe.seq leaves_request fun validated t ht ↦ ?_
  refine Safe.seq leaves_orExit fun _ _ hvalidated ↦ ?_
  obtain ⟨rfl, rfl⟩ := hvalidated
  refine ⟨trivial, ⟨rfl, rfl⟩, ?_⟩
  rw [ht]
  exact List.mem_append_right _ List.mem_cons_self

theorem leaves_snapshotCore {all : List PreparedCore} {prepared : CoreAdapter × CorePlan × Path}
    (hj : j.resources = marks all [] []) :
    Leaves step (fun result t ↦ (result.1.status = j.status ∧
        result.1.resources = marks result.2 [] []) ∧
      ∃ snapshot, result.2 = all ++ [⟨prepared.1, prepared.2.1, prepared.2.2, snapshot⟩] ∧
        ∃ dir, ⟨.snapshotConfig prepared.1.manifest.id dir, .ok snapshot⟩ ∈ t.log)
      (r.snapshotCore generation (j, all) prepared) s := by
  refine Safe.seq leaves_request fun taken t ht ↦ ?_
  refine Safe.seq leaves_orExit fun snapshot _ hsnapshot ↦ ?_
  obtain ⟨rfl, rfl⟩ := hsnapshot
  refine Safe.seq leaves_saveJournal fun _ u hu ↦ ?_
  refine ⟨trivial, ⟨rfl, ?_⟩, snapshot, rfl,
    r.transactionDir generation ++ [prepared.2.1.coreId], ?_⟩
  · simp [hj, marks, resourceOf, PreparedCore.id]
  · rw [hu, ht]
    exact List.mem_append_left _ (List.mem_append_right _ List.mem_cons_self)

/-- Every planned core is ready to be changed. -/
structure Ready (plans : CorePlans) (all : List PreparedCore) (log : List Answered) : Prop where
  covers : Covers plans all
  staged : ∀ p ∈ all, StagedFor log (p.core, p.plan, p.candidate)
  validated : ∀ p ∈ all, ⟨.validateConfig p.core.manifest.id p.candidate, .ok ()⟩ ∈ log
  snapshotted : ∀ p ∈ all, ∃ dir,
    ⟨.snapshotConfig p.core.manifest.id dir, .ok p.snapshot⟩ ∈ log

theorem Ready.mono {plans : CorePlans} {all : List PreparedCore} {log log' : List Answered}
    (h : Ready plans all log) (hlog : log <+: log') : Ready plans all log' where
  covers := h.covers
  staged p hp := (h.staged p hp).imp fun _ hdir ↦ hlog.subset hdir
  validated p hp := hlog.subset (h.validated p hp)
  snapshotted p hp := (h.snapshotted p hp).imp fun _ hdir ↦ hlog.subset hdir

theorem leaves_stageAll {plans : List (String × CoreAdapter × CorePlan)}
    (hj : j.status = .applying ∧ j.resources = []) :
    Leaves step (fun result t ↦ (result.1.status = .applying ∧ result.1.resources = []) ∧
      result.2.map (fun x ↦ (x.1, x.2.1)) = plans.map Prod.snd ∧ ∀ x ∈ result.2, StagedFor t.log x)
      (plans.foldlM (r.stageCore generation) (j, [])) s := by
  refine safe_foldlM (fun done (result : JournalEntry × List (CoreAdapter × CorePlan × Path))
    (t : Traced Reply S) ↦ (result.1.status = .applying ∧ result.1.resources = []) ∧
      result.2.map (fun x ↦ (x.1, x.2.1)) = done.map Prod.snd ∧ ∀ x ∈ result.2, StagedFor t.log x)
    ?_ (fun _ _ _ ↦ trivial) ⟨hj, rfl, List.forall_mem_nil _⟩
  rintro done entry rest ⟨j, prepared⟩ t - ⟨⟨hstatus, hresources⟩, hmap, hstaged⟩
  refine Leaves.mono (Leaves.logged leaves_stageCore) ?_
  rintro ⟨j', prepared'⟩ u ⟨⟨⟨hstatus', hresources'⟩, candidate, rfl, hnew⟩, hlog⟩
  refine ⟨⟨hstatus'.trans hstatus, hresources'.trans hresources⟩, ?_, fun x hx ↦ ?_⟩
  · rw [List.map_append, List.map_append, hmap]
    rfl
  · rcases List.mem_append.mp hx with hx | hx
    · exact (hstaged x hx).imp fun _ hdir ↦ hlog.subset hdir
    · rwa [List.mem_singleton.mp hx]

theorem leaves_validateAll {prepared : List (CoreAdapter × CorePlan × Path)} :
    Leaves step (fun j' t ↦ (j'.status = j.status ∧ j'.resources = j.resources) ∧
      ∀ x ∈ prepared, ⟨.validateConfig x.1.manifest.id x.2.2, .ok ()⟩ ∈ t.log)
      (prepared.foldlM r.validateCore j) s := by
  refine safe_foldlM (fun (done : List (CoreAdapter × CorePlan × Path)) (j' : JournalEntry)
    (t : Traced Reply S) ↦ (j'.status = j.status ∧ j'.resources = j.resources) ∧
      ∀ x ∈ done, ⟨.validateConfig x.1.manifest.id x.2.2, .ok ()⟩ ∈ t.log)
    ?_ (fun _ _ _ ↦ trivial) ⟨⟨rfl, rfl⟩, List.forall_mem_nil _⟩
  rintro done x rest j' t - ⟨⟨hstatus, hresources⟩, hvalidated⟩
  refine Leaves.mono (Leaves.logged leaves_validateCore) ?_
  rintro j'' u ⟨⟨⟨hstatus', hresources'⟩, hnew⟩, hlog⟩
  refine ⟨⟨hstatus'.trans hstatus, hresources'.trans hresources⟩, fun y hy ↦ ?_⟩
  rcases List.mem_append.mp hy with hy | hy
  · exact hlog.subset (hvalidated y hy)
  · rwa [List.mem_singleton.mp hy]

theorem leaves_snapshotAll {prepared : List (CoreAdapter × CorePlan × Path)}
    (hj : j.resources = []) :
    Leaves step (fun result t ↦ (result.1.status = j.status ∧
        result.1.resources = marks result.2 [] []) ∧
      result.2.map (fun p ↦ (p.core, p.plan, p.candidate)) = prepared ∧
        ∀ p ∈ result.2, ∃ dir, ⟨.snapshotConfig p.core.manifest.id dir, .ok p.snapshot⟩ ∈ t.log)
      (prepared.foldlM (r.snapshotCore generation) (j, [])) s := by
  refine safe_foldlM (fun done (result : JournalEntry × List PreparedCore)
    (t : Traced Reply S) ↦ (result.1.status = j.status ∧ result.1.resources = marks result.2 [] []) ∧
      result.2.map (fun p ↦ (p.core, p.plan, p.candidate)) = done ∧
        ∀ p ∈ result.2, ∃ dir, ⟨.snapshotConfig p.core.manifest.id dir, .ok p.snapshot⟩ ∈ t.log)
    ?_ (fun _ _ _ ↦ trivial) ?_
  rotate_left
  · exact ⟨⟨rfl, hj⟩, rfl, List.forall_mem_nil _⟩
  rintro done x rest ⟨j', all⟩ t - ⟨⟨hstatus, hresources⟩, hmap, htaken⟩
  refine Leaves.mono (Leaves.logged (leaves_snapshotCore hresources)) ?_
  rintro ⟨j'', all'⟩ u ⟨⟨⟨hstatus', hresources'⟩, snapshot, rfl, hnew⟩, hlog⟩
  refine ⟨⟨hstatus'.trans hstatus, hresources'⟩, ?_, fun p hp ↦ ?_⟩
  · rw [List.map_append, hmap]
    rfl
  · rcases List.mem_append.mp hp with hp | hp
    · exact (htaken p hp).imp fun _ hdir ↦ hlog.subset hdir
    · rwa [List.mem_singleton.mp hp]

theorem leaves_prepareTransaction {desired : DesiredState} {plans : CorePlans}
    (hj : j.resources = []) :
    Leaves step (fun result t ↦ result.1.status = .applying ∧
      result.1.resources = marks result.2 [] [] ∧ Ready plans result.2 t.log)
      (r.prepareTransaction desired plans j) s := by
  refine Safe.seq (leaves_true _ _) fun _ _ _ ↦ Safe.seq (leaves_true _ _) fun _ _ _ ↦ ?_
  refine Safe.seq (leaves_stageAll ⟨rfl, hj⟩) ?_
  rintro ⟨j₁, prepared⟩ t ⟨⟨hstatus, hresources⟩, hmap, hstaged⟩
  refine Safe.seq (Leaves.logged leaves_validateAll) ?_
  rintro j₂ u ⟨⟨⟨hstatus₂, hresources₂⟩, hvalidated⟩, hlog₂⟩
  refine Safe.seq (Leaves.logged (leaves_true _ _)) fun _ v ⟨_, hlog₃⟩ ↦ ?_
  refine Safe.seq (Leaves.logged (leaves_snapshotAll (hresources₂.trans hresources))) ?_
  rintro ⟨j₄, all⟩ w ⟨⟨⟨hstatus₄, hresources₄⟩, hall, htaken⟩, hlog₄⟩
  refine Safe.seq (Leaves.logged (leaves_true _ _)) fun _ x ⟨_, hlog₅⟩ ↦ ?_
  refine Safe.seq (Leaves.logged (leaves_true _ _)) fun current y ⟨_, hlog₆⟩ ↦ ?_
  cases current with
  | false => exact Safe.seq (leaves_true _ _) fun _ _ _ ↦ ⟨trivial, trivial⟩
  | true =>
    have hmem : ∀ p ∈ all, (p.core, p.plan, p.candidate) ∈ prepared := by
      intro p hp
      rw [← hall]
      exact List.mem_map_of_mem hp
    have hlater : u.log <+: y.log := hlog₃.trans (hlog₄.trans (hlog₅.trans hlog₆))
    refine ⟨trivial, hstatus₄.trans (hstatus₂.trans hstatus), hresources₄, ?_, ?_, ?_, ?_⟩
    · rw [Covers, OrderedMap.values, ← hmap, ← hall, List.map_map]
      rfl
    · exact fun p hp ↦ (hstaged _ (hmem p hp)).imp fun _ hdir ↦ (hlog₂.trans hlater).subset hdir
    · exact fun p hp ↦ hlater.subset (hvalidated _ (hmem p hp))
    · exact fun p hp ↦ (htaken p hp).imp fun _ hdir ↦ (hlog₅.trans hlog₆).subset hdir

end prepare

section gate

variable {S : Type} {step : S → (op : Op) → Reply op → S → Prop} {s : Traced Reply S}
variable {r : Reconciler} {desired : DesiredState} {secrets : SecretResolver}
variable {applied : AppliedState} {plans : CorePlans} {j : JournalEntry}
variable {all done rest : List PreparedCore} {p : PreparedCore} {log : List Answered}

theorem leaves_checkGraph :
    Leaves step (fun _ _ ↦ validateInfrastructureDependencies desired.infrastructure = .ok ())
      (r.checkGraph desired applied j) s := by
  have hgraph : Leaves step
      (fun _ _ ↦ validateInfrastructureDependencies desired.infrastructure = .ok ())
      (r.validateGraph desired applied) s := by
    refine Safe.seq leaves_lift fun _ t ht ↦ ?_
    exact (leaves_true _ t).mono fun _ _ _ ↦ ht.1
  refine Safe.seq (leaves_attempt hgraph) fun result t ht ↦ ?_
  cases result with
  | ok => exact ⟨trivial, ht () rfl⟩
  | error m => exact Safe.seq (leaves_true _ _) fun _ _ _ ↦ Safe.seq (leaves_true _ _) fun _ _ _ ↦
      ⟨trivial, trivial⟩

theorem leaves_planTransaction (hloaded : ⟨.loadApplied, .ok applied⟩ ∈ s.log) :
    Leaves step (fun plans t ↦ WellPlanned applied plans ∧ Checked r desired secrets plans t.log)
      (r.planTransaction desired secrets applied j) s := by
  refine Safe.seq (Leaves.logged leaves_checkGraph) fun _ t ⟨hgraph, hlog⟩ ↦ ?_
  have hbuild : Leaves step (fun plans u ↦ WellPlanned applied plans ∧
      Completes (tracedStep anyAnswer) (r.buildPlans desired secrets applied) ⟨(), t.log⟩ plans
        ⟨(), u.log⟩ ∧ _) (r.buildPlans desired secrets applied) t :=
    ((Safe.returns leaves_buildPlans (r.buildPlans_returns desired secrets applied)).reached).mono
      (fun _ ↦ id) (fun _ _ _ ↦ id) fun _ _ _ h ↦ ⟨h.1.2, h.2.recorded, h.1.1⟩
  refine Safe.seq (leaves_attempt hbuild) fun built u hbuilt ↦ ?_
  refine Safe.seq leaves_orExit fun plans _ hplans ↦ ?_
  obtain ⟨rfl, rfl⟩ := hplans
  obtain ⟨hwell, hcompletes, hprofiles⟩ := hbuilt plans rfl
  refine Safe.seq leaves_orExit fun _ _ hlisteners ↦ ?_
  obtain ⟨hlisteners, rfl⟩ := hlisteners
  exact ⟨trivial, hwell, ⟨applied, t.log, _, hlog.subset hloaded, hcompletes, List.prefix_refl _⟩,
    hprofiles, accepted_iff.mp hgraph, validateListenerPlan_ok.mp hlisteners⟩

def Gated (r : Reconciler) (desired : DesiredState) (secrets : SecretResolver)
    (log : List Answered) (op : Op) : Prop :=
  ∀ core candidate, op = .installConfig core candidate →
    ∃ plans journal, Gate r desired secrets plans journal log core candidate

theorem gated_of_isRecovery (log : List Answered) (op : Op) (h : op.isRecovery) :
    Gated r desired secrets log op := by
  rintro core candidate rfl
  cases h

theorem Ready.secured (hready : Ready plans all log) (ha : Aligned all) (hp : p ∈ all)
    {started recorded : List String} (hj : j.resources = marks all started recorded)
    {entry : String × CoreAdapter × CorePlan} (hid : p.id = entry.1) (hplan : p.plan = entry.2.2) :
    Secured log j entry p.candidate := by
  have hcore : p.core.manifest.id = entry.1 := (ha.core p hp).trans hid
  obtain ⟨dir, hstaged⟩ := hready.staged p hp
  obtain ⟨snapshotDir, hsnapshot⟩ := hready.snapshotted p hp
  have hvalidated := hready.validated p hp
  rw [hcore] at hstaged hsnapshot hvalidated
  rw [hplan] at hstaged
  refine ⟨⟨dir, hstaged⟩, hvalidated, snapshotDir, resourceOf started recorded p, ?_, hid, hsnapshot⟩
  rw [hj]
  exact List.mem_map_of_mem hp

theorem gate_of_ready (hwell : WellPlanned applied plans)
    (hchecked : Checked r desired secrets plans log) (hready : Ready plans all log)
    (ha : Aligned all) (hp : p ∈ all) (hstatus : j.status = .applying)
    (hj : j.resources = marks all (ids done ++ [p.id]) (ids done))
    (hsaved : ∃ before, log = before ++ [⟨.saveJournal j, .ok ()⟩]) :
    Gate r desired secrets plans j log p.core.manifest.id p.candidate where
  toChecked := hchecked
  secured entry hentry := by
    obtain ⟨q, hq, hplan, hid⟩ := hready.covers.mem hwell hentry
    exact ⟨q.candidate, hready.secured ha hq hj hid hplan⟩
  planned := by
    have hvalue : (p.core, p.plan) ∈ plans.values := by
      rw [← hready.covers]
      exact List.mem_map.mpr ⟨p, hp, rfl⟩
    obtain ⟨entry, hentry, hvalues⟩ := List.mem_map.mp hvalue
    have hid : p.id = entry.1 := by rw [← hwell.plan entry hentry, hvalues]; rfl
    refine ⟨entry, hentry, hid.symm.trans (ha.core p hp).symm, ?_⟩
    exact hready.secured ha hp hj hid (by rw [hvalues])
  saved := hsaved
  applying := hstatus
  marked := by
    refine ⟨resourceOf (ids done ++ [p.id]) (ids done) p, ?_, (ha.core p hp).symm, ?_⟩
    · rw [hj]
      exact List.mem_map_of_mem hp
    · simp [resourceOf]

theorem markVerified_resources (ha : Aligned all) (hp : p ∈ all) {started recorded : List String}
    (hj : j.resources = marks all started recorded) :
    (markVerified j p.id).resources = marks all started (recorded ++ [p.id]) := by
  have hverified := updateResource_verified ha hp started recorded
  rw [← hj] at hverified
  rw [markVerified, hverified, Option.getD_some]

theorem gated_installCore {generation : ℕ} (hwell : WellPlanned applied plans)
    (hchecked : Checked r desired secrets plans s.log) (hready : Ready plans all s.log)
    (ha : Aligned all) (hp : p ∈ all)
    (hj : j.status = .applying ∧ j.resources = marks all (ids done) (ids done))
    (hs : Preceded (Gated r desired secrets) s.log) :
    Safe (tracedStep step) (fun t ↦ Preceded (Gated r desired secrets) t.log)
      (fun _ t ↦ Preceded (Gated r desired secrets) t.log)
      (fun j' t ↦ Preceded (Gated r desired secrets) t.log ∧ j'.status = .applying ∧
        j'.resources = marks all (ids (done ++ [p])) (ids (done ++ [p])))
      (r.installCore generation all j p) s := by
  have hids : ids (done ++ [p]) = ids done ++ [p.id] := by simp [ids]
  have hkeep : ∀ {β : Type} {q : Program Reply (Exit ReconcileOutcome) β} {t : Traced Reply S},
      q.Uses Op.isRecovery → Preceded (Gated r desired secrets) t.log →
      Safe (tracedStep step) (fun t ↦ Preceded (Gated r desired secrets) t.log)
        (fun _ t ↦ Preceded (Gated r desired secrets) t.log)
        (fun _ t ↦ Preceded (Gated r desired secrets) t.log) q t :=
    fun hq ht ↦ safe_preceded hq gated_of_isRecovery ht
  have hroll : ∀ {β : Type} (result : Except String β) (j : JournalEntry) (error : String),
      (orExit result (r.rollback generation all j error)).Uses Op.isRecovery :=
    fun _ _ _ ↦ orExit_uses ((rollback_uses _ _ _).mono fun _ h ↦ h.1.isRecovery)
  have hsave : ∀ j : JournalEntry,
      (saveJournal j : Program Reply (Exit ReconcileOutcome) Unit).Uses Op.isRecovery :=
    fun _ ↦ propagate_uses (call_uses trivial)
  have hactivate : (Op.activateConfig p.core.manifest.id p.plan).isRecovery := trivial
  have hlisten : (Op.verifyListeners p.core.manifest.id p.plan).isRecovery := trivial
  have hstarted := updateResource_started ha hp (ids done) (ids done)
  rw [← hj.2] at hstarted
  rw [Reconciler.installCore, Reconciler.markStarted]
  rw [show p.plan.coreId = p.id from rfl, hstarted]
  let j₁ := { j with
    currentCoreId := some p.id, resources := marks all (ids done ++ [p.id]) (ids done) }
  refine (Leaves.preceded leaves_saveJournal (hsave j₁) gated_of_isRecovery hs).seq
    fun _ t hlogged ↦ ?_
  obtain ⟨ht, hlog, hsaved⟩ := hlogged
  -- the request that the gate is about
  refine ⟨ht, fun installed u hu ↦ ?_⟩
  have hu' : Preceded (Gated r desired secrets) u.log := by
    rw [hu.2]
    refine ht.concat ?_
    rintro core candidate ⟨⟩
    exact ⟨plans, j₁, gate_of_ready hwell (hchecked.mono hlog) (hready.mono hlog) ha hp hj.1 rfl
      ⟨_, hsaved⟩⟩
  refine (hkeep (hroll installed _ _) hu').seq fun _ _ h ↦ ?_
  refine (hkeep (hsave _) h).seq fun _ _ h ↦ ?_
  refine (hkeep (call_uses hactivate) h).seq fun activated _ h ↦ ?_
  refine (hkeep (hroll activated _ _) h).seq fun _ _ h ↦ ?_
  refine (hkeep (hsave _) h).seq fun _ _ h ↦ ?_
  refine (hkeep (checkHealth_uses.mono fun _ h ↦ h.1.isRecovery) h).seq fun _ _ h ↦ ?_
  refine (hkeep (call_uses hlisten) h).seq fun listening _ h ↦ ?_
  refine (hkeep (hroll listening _ _) h).seq fun _ _ h ↦ ?_
  refine (hkeep (checkUsers_uses.mono fun _ h ↦ h.1.isRecovery) h).seq fun _ _ h ↦ ?_
  refine (hkeep (hsave _) h).seq fun _ _ h ↦ ⟨h, h, hj.1, ?_⟩
  rw [hids]
  exact markVerified_resources ha hp rfl

theorem prepareTransaction_uses :
    (r.prepareTransaction desired plans j).Uses Op.isRecovery := by
  have hcall : ∀ {op : Op}, op.isRecovery → (request op : Program Reply (Exit ReconcileOutcome)
      (Reply op)).Uses Op.isRecovery := fun h ↦ call_uses h
  refine uses_bind (propagate_uses (hcall trivial)) fun _ ↦ ?_
  refine uses_bind (propagate_uses (hcall trivial)) fun _ ↦ ?_
  refine uses_bind (uses_foldlM fun state entry ↦ ?_) fun staged ↦ ?_
  · exact (stageCore_uses _ state entry).mono fun _ h ↦ h.isRecovery
  refine uses_bind (uses_foldlM fun j prepared ↦ ?_) fun j ↦ ?_
  · exact (validateCore_uses j prepared).mono fun _ h ↦ h.isRecovery
  refine uses_bind (propagate_uses (hcall trivial)) fun _ ↦ ?_
  refine uses_bind (uses_foldlM fun state prepared ↦ ?_) fun taken ↦ ?_
  · exact (snapshotCore_uses _ state prepared).mono fun _ h ↦ h.isRecovery
  refine uses_bind (propagate_uses (hcall trivial)) fun _ ↦ ?_
  refine uses_bind (propagate_uses (hcall trivial)) fun current ↦ ?_
  split_ifs
  · trivial
  · exact exitWith_uses ((failWithoutMutation_uses _).mono fun _ h ↦ h.1.isRecovery)

theorem gated_reconcile (hs : Preceded (Gated r desired secrets) s.log) :
    Safe (tracedStep step) (fun t ↦ Preceded (Gated r desired secrets) t.log)
      (fun _ t ↦ Preceded (Gated r desired secrets) t.log)
      (fun _ t ↦ Preceded (Gated r desired secrets) t.log) (r.reconcile desired secrets) s := by
  have hearly : ∀ {β : Type} {q : Program Reply (Exit ReconcileOutcome) β} {t : Traced Reply S}
      {Q : β → Traced Reply S → Prop}, Leaves step Q q t → q.Uses Op.isEarly →
      Preceded (Gated r desired secrets) t.log →
      Safe (tracedStep step) (fun t ↦ Preceded (Gated r desired secrets) t.log)
        (fun _ t ↦ Preceded (Gated r desired secrets) t.log)
        (fun b u ↦ Preceded (Gated r desired secrets) u.log ∧ t.log <+: u.log ∧ Q b u) q t :=
    fun hQ hq ht ↦ Leaves.preceded hQ (hq.mono fun _ h ↦ h.isRecovery) gated_of_isRecovery ht
  have hload : Leaves step (fun applied t ↦ ⟨.loadApplied, .ok applied⟩ ∈ t.log)
      (loadApplied : Program Reply (Exit ReconcileOutcome) AppliedState) s := by
    refine Safe.seq leaves_request fun loaded t ht ↦ ?_
    cases loaded with
    | error m => exact ⟨trivial, trivial⟩
    | ok applied => exact ⟨trivial, by simp [ht]⟩
  refine safe_handle.mpr (Safe.mono (E := fun _ t ↦ Preceded (Gated r desired secrets) t.log) ?_
    (fun _ ↦ id) (fun e t _ ht ↦ by cases e <;> exact ⟨ht, ht⟩) (fun _ _ _ ↦ id))
  refine (hearly hload (propagate_uses (call_uses trivial)) hs).seq fun applied t ⟨ht, _, hloaded⟩ ↦ ?_
  split_ifs
  · exact ⟨ht, ht⟩
  refine (hearly (leaves_true _ _) (rejectInterrupted_uses _) ht).seq fun _ t₁ ⟨ht₁, hlog₁, _⟩ ↦ ?_
  have hbegin : Leaves step (fun j _ ↦ j.resources = [])
      (Reconciler.beginJournal desired applied) t₁ := by
    refine Safe.seq leaves_request fun _ _ _ ↦ Safe.seq leaves_request fun _ _ _ ↦ ?_
    exact Safe.seq leaves_saveJournal fun _ _ _ ↦ ⟨trivial, rfl⟩
  refine (hearly hbegin (beginJournal_uses _) ht₁).seq fun j t₂ ⟨ht₂, hlog₂, hj⟩ ↦ ?_
  have hplan := @leaves_planTransaction _ step t₂ r desired secrets applied j
    ((hlog₁.trans hlog₂).subset hloaded)
  refine (hearly hplan (planTransaction_uses _) ht₂).seq
    fun plans t₃ ⟨ht₃, _, hwell, hchecked⟩ ↦ ?_
  refine (Leaves.preceded (leaves_prepareTransaction hj) prepareTransaction_uses
    gated_of_isRecovery ht₃).seq ?_
  rintro ⟨j, all⟩ t₄ ⟨ht₄, hlog₄, hstatus, hmarks, hready⟩
  have ha := hready.covers.aligned hwell
  have hloop : Safe (tracedStep step) (fun t ↦ Preceded (Gated r desired secrets) t.log)
      (fun _ t ↦ Preceded (Gated r desired secrets) t.log)
      (fun _ t ↦ Preceded (Gated r desired secrets) t.log)
      (all.foldlM (r.installCore desired.generation all) j) t₄ := by
    refine (safe_foldlM (fun done (j : JournalEntry) (t : Traced Reply S) ↦
      (Preceded (Gated r desired secrets) t.log ∧ j.status = .applying ∧
        j.resources = marks all (ids done) (ids done)) ∧ t₄.log <+: t.log) ?_
      (fun _ _ h ↦ h.1.1) ⟨⟨ht₄, hstatus, hmarks⟩, List.prefix_refl _⟩).mono (fun _ ↦ id)
      (fun _ _ _ ↦ id) fun _ _ _ h ↦ h.1.1
    rintro done p rest j t hall ⟨⟨ht, hj⟩, hlog⟩
    have hp : p ∈ all := by simp [hall]
    have hinstall := @gated_installCore _ step t r desired secrets applied plans j all done p
      desired.generation hwell (hchecked.mono (hlog₄.trans hlog)) (hready.mono hlog) ha hp hj ht
    exact hinstall.logged.mono (fun _ ↦ And.left) (fun _ _ _ ↦ And.left)
      fun _ _ _ h ↦ ⟨h.1, hlog.trans h.2⟩
  refine hloop.seq fun j t ht ↦ ?_
  exact safe_preceded (publish_uses _ _ _ _) gated_of_isRecovery ht

/-- Whenever `reconcile` calls `install_config`, all its gates have been passed. -/
theorem mutation_gate {core : String} {candidate : Path}
    {next : Except String Unit → Program Reply String ReconcileOutcome} {start : S}
    {t : Traced Reply S} (h : Run (tracedStep step) (r.reconcile desired secrets) ⟨start, []⟩
      (.call (.installConfig core candidate) next) t) :
    ∃ plans journal, Gate r desired secrets plans journal t.log core candidate := by
  have hsafe : Safe (tracedStep anyAnswer) (fun t ↦ Preceded (Gated r desired secrets) t.log)
      (fun _ t ↦ Preceded (Gated r desired secrets) t.log)
      (fun _ t ↦ Preceded (Gated r desired secrets) t.log) (r.reconcile desired secrets)
      ⟨(), []⟩ := gated_reconcile preceded_nil
  exact Safe.asked (.ok ()) (hsafe.run h.recorded) core candidate rfl

end gate

def pendingInstall {ε α : Type} : Program Reply ε α → Option (String × Path)
  | .call (.installConfig core candidate) _ => some (core, candidate)
  | _ => none

theorem pendingInstall_some {ε α : Type} {p : Program Reply ε α} {core : String} {candidate : Path}
    (h : pendingInstall p = some (core, candidate)) :
    ∃ next, p = .call (.installConfig core candidate) next := by
  unfold pendingInstall at h
  split at h
  · cases h
    exact ⟨_, rfl⟩
  · cases h

def atInstall : Program Reply String ReconcileOutcome × State Bool :=
  exec (loneAnswer true) 17 (loneCore.reconcile loneDesired noSecrets) ⟨loneWorld, []⟩

theorem mutation_gate_lone : ∃ plans journal, Gate loneCore loneDesired noSecrets plans journal
    atInstall.2.log "web" ["run", "1", "web", "candidate"] := by
  have hpending : pendingInstall atInstall.1 = some ("web", ["run", "1", "web", "candidate"]) := by
    decide
  obtain ⟨next, hnext⟩ := pendingInstall_some hpending
  have hrun := exec_run (loneAnswer_step true) 17 (loneCore.reconcile loneDesired noSecrets)
    ⟨loneWorld, []⟩
  rw [show exec (loneAnswer true) 17 (loneCore.reconcile loneDesired noSecrets) ⟨loneWorld, []⟩ =
    atInstall from rfl, hnext] at hrun
  exact mutation_gate hrun

end StealthHub.Reconcile

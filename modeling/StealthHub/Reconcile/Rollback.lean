import StealthHub.Reconcile.Requests

set_option autoImplicit false

namespace StealthHub.Reconcile

open Effect Effect.Program

def PreparedCore.id (p : PreparedCore) : String := p.plan.coreId

def ids (all : List PreparedCore) : List String := all.map PreparedCore.id

def resourceOf (started verified : List String) (p : PreparedCore) : JournalResource where
  coreId := p.id
  snapshotPath := p.snapshot.path
  serviceWasEnabled := p.snapshot.serviceWasEnabled
  serviceWasActive := p.snapshot.serviceWasActive
  mutationStarted := decide (p.id ∈ started)
  verified := decide (p.id ∈ verified)

def marks (all : List PreparedCore) (started verified : List String) : List JournalResource :=
  all.map (resourceOf started verified)

/-- Every adapter is the one its plan names, and no two plans share a core. -/
structure Aligned (all : List PreparedCore) : Prop where
  core : ∀ p ∈ all, p.core.manifest.id = p.id
  nodup : (ids all).Nodup

theorem mem_ids {all : List PreparedCore} {core : String} :
    core ∈ ids all ↔ ∃ p ∈ all, p.id = core := List.mem_map

theorem updateResource_map {all : List PreparedCore} {p : PreparedCore}
    {f g : PreparedCore → JournalResource} {update : JournalResource → JournalResource}
    (hn : (ids all).Nodup) (hp : p ∈ all) (hid : ∀ q, (f q).coreId = q.id)
    (hu : update (f p) = g p) (hg : ∀ q ∈ all, q.id ≠ p.id → f q = g q) :
    updateResource p.id update (all.map f) = some (all.map g) := by
  induction all with
  | nil => cases hp
  | cons q rest ih =>
    obtain ⟨hq, hrest⟩ := List.nodup_cons.mp hn
    rw [List.map_cons, updateResource, hid]
    rcases List.mem_cons.mp hp with rfl | hp
    · rw [if_pos rfl, hu, List.map_cons]
      have hr : rest.map f = rest.map g := by
        refine List.map_congr_left fun x hx ↦ hg x (List.mem_cons_of_mem _ hx) fun he ↦ hq ?_
        exact mem_ids.mpr ⟨x, hx, he⟩
      rw [hr]
    · have hne : q.id ≠ p.id := fun he ↦ hq (mem_ids.mpr ⟨p, hp, he.symm⟩)
      rw [if_neg hne, ih hrest hp fun x hx ↦ hg x (List.mem_cons_of_mem _ hx)]
      rw [Option.map_some, List.map_cons, hg q List.mem_cons_self hne]

theorem updateResource_started {all : List PreparedCore} {p : PreparedCore}
    (h : Aligned all) (hp : p ∈ all) (started verified : List String) :
    updateResource p.id (fun resource ↦ { resource with mutationStarted := true })
      (marks all started verified) = some (marks all (started ++ [p.id]) verified) := by
  refine updateResource_map h.nodup hp (fun _ ↦ rfl) ?_ fun q _ hq ↦ ?_
  · simp [resourceOf]
  · simp [resourceOf, hq]

theorem updateResource_verified {all : List PreparedCore} {p : PreparedCore}
    (h : Aligned all) (hp : p ∈ all) (started verified : List String) :
    updateResource p.id (fun resource ↦ { resource with verified := true })
      (marks all started verified) = some (marks all started (verified ++ [p.id])) := by
  refine updateResource_map h.nodup hp (fun _ ↦ rfl) ?_ fun q _ hq ↦ ?_
  · simp [resourceOf]
  · simp [resourceOf, hq]

theorem rollbackOrder_marks {j : JournalEntry} {done rest : List PreparedCore}
    {verified : List String} (h : Aligned (done ++ rest))
    (hj : j.resources = marks (done ++ rest) (ids done) verified) :
    mutatedResourcesInRollbackOrder j = done.reverse.map (resourceOf (ids done) verified) := by
  have hn : (ids done ++ ids rest).Nodup := by simpa [ids] using h.nodup
  have hd : (marks done (ids done) verified).filter JournalResource.mutationStarted =
      marks done (ids done) verified := by
    refine List.filter_eq_self.mpr fun x hx ↦ ?_
    obtain ⟨p, hp, rfl⟩ := List.mem_map.mp hx
    exact decide_eq_true (mem_ids.mpr ⟨p, hp, rfl⟩)
  have hr : (marks rest (ids done) verified).filter JournalResource.mutationStarted = [] := by
    refine List.filter_eq_nil_iff.mpr fun x hx ↦ ?_
    obtain ⟨p, hp, rfl⟩ := List.mem_map.mp hx
    have hnot : p.id ∉ ids done := fun hin ↦
      (List.nodup_append.mp hn).2.2 _ hin _ (mem_ids.mpr ⟨p, hp, rfl⟩) rfl
    simp [resourceOf, hnot]
  rw [mutatedResourcesInRollbackOrder, hj, marks, List.map_append, List.filter_reverse,
    List.filter_append]
  rw [marks] at hd hr
  rw [hd, hr, List.append_nil, List.map_reverse]

variable {L : Type} {active : L → Bool} {w₀ : World L} {generation : ℕ}

/-- The live state of a transaction that has called `install_config` for the
first cores and has fully verified some of them. -/
structure Underway (active : L → Bool) (w₀ : World L) (all : List PreparedCore)
    (called : List String) (verified : List PreparedCore) (s : State L) : Prop where
  applied : s.state.applied = w₀.applied
  kept : ∀ p ∈ all, Kept w₀ s p.id p.snapshot
  installs : installCalls s.log = called
  rollbacks : rollbackCalls s.log = []
  untouched : ∀ core ∉ called, s.state.live core = w₀.live core
  verified : ∀ p ∈ verified, Converged s.log p.id p.plan ∧
    lastMutation p.id s.log = some ⟨.activateConfig p.id p.plan, .ok ()⟩ ∧
    active (s.state.live p.id) = !p.plan.fragments.isEmpty

theorem Underway.inert {all verified : List PreparedCore} {called : List String}
    {s s' : State L} (h : Underway active w₀ all called verified s) (hi : Inert s s')
    (hs : s'.state.snapshots = s.state.snapshots) :
    Underway active w₀ all called verified s' where
  applied := hi.applied.trans h.applied
  kept p hp := (h.kept p hp).mono hi.subset hs
  installs := by rw [hi.installCalls_eq, h.installs]
  rollbacks := by rw [hi.rollbackCalls_eq, h.rollbacks]
  untouched core hc := by rw [hi.live, h.untouched core hc]
  verified p hp := by
    obtain ⟨hc, hl, ha⟩ := h.verified p hp
    exact ⟨hc.mono hi.subset, by rw [hi.lastMutation_eq, hl], by rw [hi.live, ha]⟩

/-- Where a reconcile call that built `plans` can end. -/
inductive Outcome (active : L → Bool) (w₀ : World L) (generation : ℕ) (plans : CorePlans)
    (o : ReconcileOutcome) (s : State L) : Prop
  | failed
      (status : o.status = .failed)
      (quiet : Quiet w₀ s)
  | applied
      (status : o.status = .applied)
      (published : s.state.applied = nextApplied generation plans)
      (converged : ∀ e ∈ plans.entries, Converged s.log e.1 e.2.2)
      (activity : ∀ e ∈ plans.entries, active (s.state.live e.1) = !e.2.2.fragments.isEmpty)
      (untouched : ∀ core ∉ plans.keys, s.state.live core = w₀.live core)
  | rolledBack
      (status : o.status = .rolledBack)
      (applied : s.state.applied = w₀.applied)
      (order : rollbackCalls s.log = (installCalls s.log).reverse.map fun core ↦ (core, true))
      (once : (installCalls s.log).Nodup)
      (live : s.state.live = w₀.live)
  | recoveryRequired
      (status : o.status = .recoveryRequired)
      (applied : s.state.applied = w₀.applied)

theorem Outcome.inert {plans : CorePlans} {o : ReconcileOutcome} {s s' : State L}
    (h : Outcome active w₀ generation plans o s) (hi : Inert s s') :
    Outcome active w₀ generation plans o s' := by
  cases h with
  | failed status quiet => exact .failed status (quiet.inert hi)
  | applied status published converged activity untouched =>
    refine .applied status (hi.applied.trans published) ?_ (by rwa [hi.live]) (by rwa [hi.live])
    exact fun e he ↦ (converged e he).mono hi.subset
  | rolledBack status applied order once live =>
    refine .rolledBack status (hi.applied.trans applied) ?_ ?_ (hi.live.trans live)
    · rw [hi.rollbackCalls_eq, hi.installCalls_eq, order]
    · rwa [hi.installCalls_eq]
  | recoveryRequired status applied =>
    exact .recoveryRequired status (hi.applied.trans applied)

/-- The state of the loop in `rollback` after it handled the cores in `handled`. -/
structure RollingBack (w₀ : World L) (generation : ℕ) (all : List PreparedCore)
    (called handled : List String) (j : JournalEntry)
    (state : OrderedMap String PreparedCore × Bool) (s : State L) : Prop where
  journal : s.state.journal = some j
  applied : s.state.applied = w₀.applied
  kept : ∀ p ∈ all, Kept w₀ s p.id p.snapshot
  installs : installCalls s.log = called
  rollbacks : (rollbackCalls s.log).map Prod.fst = handled
  untouched : ∀ core ∉ called, s.state.live core = w₀.live core
  restored : ∀ core, (core, true) ∈ rollbackCalls s.log → Restored w₀ s core
  available : ∀ p ∈ all, p.id ∉ handled → state.1.get? p.id = some p
  successful : state.2 = false → ∀ call ∈ rollbackCalls s.log, call.2 = true

theorem RollingBack.durable {all : List PreparedCore} {called handled : List String}
    {j : JournalEntry} {state : OrderedMap String PreparedCore × Bool} {s : State L}
    (h : RollingBack w₀ generation all called handled j state s) (own : Own w₀ generation j)
    (status : j.status = .failed) (phase : j.phase = .rollbackStarted) :
    Durable w₀ generation s :=
  .rollingBack j h.journal own status phase h.applied h.restored

theorem RollingBack.calm {all : List PreparedCore} {called handled : List String}
    {j : JournalEntry} {state : OrderedMap String PreparedCore × Bool} {s s' : State L}
    (h : RollingBack w₀ generation all called handled j state s) (hc : Calm s s') :
    RollingBack w₀ generation all called handled j state s' where
  journal := hc.journal.trans h.journal
  applied := hc.inert.applied.trans h.applied
  kept p hp := (h.kept p hp).mono hc.inert.subset hc.snapshots
  installs := by rw [hc.inert.installCalls_eq, h.installs]
  rollbacks := by rw [hc.inert.rollbackCalls_eq, h.rollbacks]
  untouched core hcore := by rw [hc.inert.live, h.untouched core hcore]
  restored core hm := (h.restored core (hc.inert.rollbackCalls_eq ▸ hm)).inert hc.inert
  available := h.available
  successful := by rw [hc.inert.rollbackCalls_eq]; exact h.successful

theorem safe_rollbackStep {all : List PreparedCore} {called handled : List String}
    {j : JournalEntry} {state : OrderedMap String PreparedCore × Bool} {s : State L}
    {R : ReconcileOutcome → State L → Prop} {resource : JournalResource} {p : PreparedCore}
    (ha : Aligned all) (own : Own w₀ generation j) (status : j.status = .failed)
    (phase : j.phase = .rollbackStarted) (hp : p ∈ all) (hr : resource.coreId = p.id)
    (hc : p.id ∈ called) (hnew : p.id ∉ handled)
    (h : RollingBack w₀ generation all called handled j state s) :
    Safe (tracedStep (step active)) (Durable w₀ generation) (exits R)
      (RollingBack w₀ generation all called (handled ++ [p.id]) j)
      (Reconciler.rollbackStep state resource) s := by
  rw [Reconciler.rollbackStep, hr, h.available p hp hnew]
  simp only [bind_eq, safe_bind, pure_eq, safe_done]
  refine safe_request (h.durable own status phase) fun result s' hs ↦ ?_
  have hcore := ha.core p hp
  rw [hcore] at hs
  have hlog : s'.log = s.log ++ [⟨.rollbackConfig p.id p.snapshot, result⟩] := hs.2
  have hjournal : s'.state.journal = s.state.journal := step_keepsJournal hs.1 rfl
  have hsnapshots : s'.state.snapshots = s.state.snapshots := step_keepsSnapshots hs.1 rfl
  have hsub : s.log ⊆ s'.log := hlog ▸ List.subset_append_left _ _
  obtain ⟨l, hl⟩ : ∃ l, s'.state = s.state.setLive p.id l := by
    cases result with
    | ok => exact hs.1.imp fun _ h ↦ h.2
    | error => exact hs.1
  have hother : ∀ core ≠ p.id, s'.state.live core = s.state.live core := fun core hne ↦ by
    rw [hl]
    exact Function.update_of_ne hne _ _
  have hcalls : rollbackCalls s'.log = rollbackCalls s.log ++ [(p.id, result.isOk)] := by
    rw [hlog, rollbackCalls_append]
    cases result <;> rfl
  have hnext : RollingBack w₀ generation all called (handled ++ [p.id]) j
      (state.1.erase p.id, state.2 || !result.isOk) s' := by
    refine ⟨hjournal.trans h.journal, ?_, fun q hq ↦ (h.kept q hq).mono hsub hsnapshots, ?_, ?_,
      ?_, ?_, ?_, ?_⟩
    · rw [hl]
      exact h.applied
    · rw [hlog, installCalls_append, h.installs]
      exact List.append_nil _
    · rw [hcalls, List.map_append, h.rollbacks]
      rfl
    · intro core hcore
      have hne : core ≠ p.id := fun he ↦ hcore (he ▸ hc)
      rw [hother core hne, h.untouched core hcore]
    · -- earlier cores keep their state; this one was restored if the call succeeded
      intro core hm
      rw [hcalls] at hm
      rcases List.mem_append.mp hm with hm | hm
      · have hne : core ≠ p.id := by
          rintro rfl
          exact hnew (h.rollbacks ▸ List.mem_map.mpr ⟨_, hm, rfl⟩)
        exact (h.restored core hm).other hlog (by simpa [mutated] using Ne.symm hne)
          (hother core hne)
      · cases result with
        | error => simp [Except.isOk, Except.toBool] at hm
        | ok =>
          obtain rfl : core = p.id := by simpa [Except.isOk, Except.toBool] using hm
          exact .of_rollback (h.kept p hp) hs
    · intro q hq hnot
      have hne : p.id ≠ q.id := fun he ↦ hnot (by simp [he])
      rw [OrderedMap.get?_erase, if_neg hne]
      exact h.available q hq fun hin ↦ hnot (by simp [hin])
    · intro hf call hm
      obtain ⟨hf, hok⟩ := Bool.or_eq_false_iff.mp hf
      rw [hcalls] at hm
      rcases List.mem_append.mp hm with hm | hm
      · exact h.successful hf call hm
      · obtain rfl := List.mem_singleton.mp hm
        simpa using hok
  exact ⟨hnext.durable own status phase, hnext.durable own status phase, hnext⟩

theorem RollingBack.finish {plans : CorePlans} {done rest : List PreparedCore}
    {verified : List String}
    {j j' : JournalEntry} {error completedAt : String}
    {state : OrderedMap String PreparedCore × Bool} {s : State L}
    (own : Own w₀ generation j)
    (hj : j.resources = marks (done ++ rest) (ids done) verified) (hn : (ids done).Nodup)
    (h : RollingBack w₀ generation (done ++ rest) (ids done) (ids done).reverse j state s)
    (hj' : j' = { rollbackVerdict j error state.2 with completedAt := some completedAt }) :
    ∀ s', Saved j' s s' → Durable w₀ generation s' ∧
      Outcome active w₀ generation plans (outcomeOf generation j') s' := by
  intro s' hs
  obtain ⟨fragile, hf⟩ : ∃ b, state.2 = b := ⟨_, rfl⟩
  have happlied : s'.state.applied = w₀.applied := hs.inert.applied.trans h.applied
  have hinstalls : installCalls s'.log = ids done := by rw [hs.inert.installCalls_eq, h.installs]
  rw [hf] at hj'
  subst hj'
  cases fragile with
  | true =>
    refine ⟨.recoveryRequired _ hs.journal (own.congr rfl rfl rfl) rfl happlied ⟨?_, ?_⟩,
      .recoveryRequired rfl happlied⟩
    · intro core hc
      rw [hinstalls] at hc
      obtain ⟨p, hp, rfl⟩ := mem_ids.mp hc
      refine ⟨resourceOf (ids done) verified p, ?_, rfl, by simp [resourceOf, hc]⟩
      rw [rollbackVerdict, if_pos rfl]
      exact hj ▸ List.mem_map.mpr ⟨p, List.mem_append_left _ hp, rfl⟩
    · intro resource hr
      rw [rollbackVerdict, if_pos rfl] at hr
      change resource ∈ j.resources at hr
      rw [hj] at hr
      obtain ⟨p, hp, rfl⟩ := List.mem_map.mp hr
      exact (h.kept p hp).mono hs.inert.subset hs.snapshots
  | false =>
    -- every call succeeded, so the calls and the handled cores are the same list
    have hall := h.successful hf
    have horder : rollbackCalls s.log = (ids done).reverse.map fun core ↦ (core, true) := by
      rw [← h.rollbacks, List.map_map]
      refine (List.map_id _).symm.trans (List.map_congr_left fun call hm ↦ ?_)
      exact Prod.ext rfl (hall call hm)
    have hrestored : ∀ core ∈ ids done, Restored w₀ s' core := fun core hc ↦ by
      refine (h.restored core ?_).inert hs.inert
      rw [horder]
      exact List.mem_map.mpr ⟨core, List.mem_reverse.mpr hc, rfl⟩
    refine ⟨.rolledBack _ hs.journal (own.congr rfl rfl rfl) rfl happlied
      fun core hc ↦ hrestored core (hinstalls ▸ hc),
      .rolledBack rfl happlied ?_ (hinstalls ▸ hn) ?_⟩
    · rw [hs.inert.rollbackCalls_eq, horder, hinstalls]
    · funext core
      by_cases hc : core ∈ ids done
      · exact (hrestored core hc).live
      · rw [hs.inert.live, h.untouched core hc]

theorem safe_rollback {r : Reconciler} {plans : CorePlans}
    {all done rest verified : List PreparedCore} {recorded : List String} {j : JournalEntry}
    {error : String} {s : State L} (hall : all = done ++ rest) (ha : Aligned all)
    (own : Own w₀ generation j) (hj : j.resources = marks all (ids done) recorded)
    (h : Underway active w₀ all (ids done) verified s) (hd : Durable w₀ generation s) :
    Safe (tracedStep (step active)) (Durable w₀ generation)
      (exits (Outcome active w₀ generation plans)) (Outcome active w₀ generation plans)
      (r.rollback generation all j error) s := by
  subst hall
  have hn : (ids done).Nodup := (List.nodup_append.mp (by simpa [ids] using ha.nodup)).1
  rw [Reconciler.rollback]
  simp only [bind_eq, safe_bind]
  set j₁ := { j with phase := .rollbackStarted, status := .failed, error := some error } with hj₁
  have own₁ : Own w₀ generation j₁ := own.congr rfl rfl rfl
  have horder : mutatedResourcesInRollbackOrder j₁ = _ := rollbackOrder_marks ha hj
  refine safe_saveJournal hd (fun s' hc ↦ hd.calm hc) fun s₁ hs₁ ↦ ?_
  have h₁ := h.inert hs₁.inert hs₁.snapshots
  have hloop : RollingBack w₀ generation (done ++ rest) (ids done) [] j₁
      (OrderedMap.ofList ((done ++ rest).map fun p ↦ (p.plan.coreId, p)), false) s₁ := by
    refine ⟨hs₁.journal, h₁.applied, h₁.kept, h₁.installs, by rw [h₁.rollbacks]; rfl,
      h₁.untouched, by simp [h₁.rollbacks], fun p hp _ ↦ ?_, by simp [h₁.rollbacks]⟩
    refine OrderedMap.get?_ofList ?_ (List.mem_map.mpr ⟨p, hp, rfl⟩)
    rw [List.map_map]
    exact ha.nodup
  refine ⟨hloop.durable own₁ rfl rfl, ?_⟩
  rw [horder]
  have hids : (done.reverse.map (resourceOf (ids done) recorded)).map JournalResource.coreId =
      (ids done).reverse := by
    rw [List.map_map, ids, ← List.map_reverse]
    rfl
  refine (safe_foldlM (fun handled state t ↦ RollingBack w₀ generation (done ++ rest) (ids done)
    (handled.map JournalResource.coreId) j₁ state t) ?_ (fun _ _ ht ↦ ht.durable own₁ rfl rfl)
    hloop).mono (fun _ ↦ id) (fun _ _ _ ↦ id) fun state s₂ hd₂ h₂ ↦ ?_
  · -- the resource at hand belongs to a core that no earlier iteration handled
    intro before resource after state t hl ht
    have hm : resource ∈ done.reverse.map (resourceOf (ids done) recorded) := by simp [hl]
    obtain ⟨p, hp, rfl⟩ := List.mem_map.mp hm
    have hp := List.mem_reverse.mp hp
    have hnew : p.id ∉ before.map JournalResource.coreId := by
      have hnd : ((before ++ resourceOf (ids done) recorded p :: after).map
          JournalResource.coreId).Nodup := by
        rw [← hl, hids]
        exact List.nodup_reverse.mpr hn
      rw [List.map_append, List.map_cons] at hnd
      exact fun hin ↦ (List.nodup_append.mp hnd).2.2 _ hin _ List.mem_cons_self rfl
    have hr : (resourceOf (ids done) recorded p).coreId = p.id := rfl
    simp only [List.map_append, List.map_cons, List.map_nil, hr]
    exact safe_rollbackStep ha own₁ rfl rfl (List.mem_append_left rest hp) hr
      (mem_ids.mpr ⟨p, hp, rfl⟩) hnew ht
  · rw [hids] at h₂
    refine safe_now hd₂ fun completedAt s₃ hc₃ ↦ ⟨hd₂.calm hc₃, ?_⟩
    have hd₃ := hd₂.calm hc₃
    set j₂ := { rollbackVerdict j₁ error state.2 with completedAt := some completedAt } with hj₂
    have hfin : ∀ s', Saved j₂ s₃ s' → Durable w₀ generation s' ∧
        Outcome active w₀ generation plans (outcomeOf generation j₂) s' :=
      (h₂.calm hc₃).finish own₁ hj hn hj₂
    refine safe_saveJournal hd₃ (fun s' hc ↦ hd₃.calm hc) fun s₄ hs₄ ↦ ?_
    obtain ⟨hd₄, ho₄⟩ := hfin s₄ hs₄
    refine ⟨hd₄, safe_cleanupWhen hd₄ (fun _ ↦ ⟨hd₄, ho₄⟩) fun hfinished s₅ hi₅ hj₅ ↦ ?_⟩
    have hstatus : j₂.status = .rolledBack := by simpa using hfinished
    have hd₅ : Durable w₀ generation s₅ := by
      refine hd₄.settled hi₅ hj₅ fun j' hj' ↦ ?_
      rw [hs₄.journal] at hj'
      rw [← Option.some.inj hj', hstatus]
      exact ⟨by decide, by decide⟩
    exact ⟨hd₅, hd₅, ho₄.inert hi₅⟩

end StealthHub.Reconcile

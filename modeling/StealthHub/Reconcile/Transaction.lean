import StealthHub.Reconcile.Prepare

set_option autoImplicit false

namespace StealthHub.Reconcile

open Effect Effect.Program

variable {L : Type} {active : L → Bool} {w₀ : World L} {generation : ℕ} {s s' : State L}
variable {r : Reconciler} {desired : DesiredState} {secrets : SecretResolver}

def Covers (plans : CorePlans) (all : List PreparedCore) : Prop :=
  all.map (fun p ↦ (p.core, p.plan)) = plans.values

theorem Covers.ids_eq {plans : CorePlans} {all : List PreparedCore} {applied : AppliedState}
    (h : Covers plans all) (hw : WellPlanned applied plans) : ids all = plans.keys := by
  have hv : plans.values.map (fun e ↦ e.2.coreId) = plans.keys := by
    rw [OrderedMap.values, List.map_map]
    exact List.map_congr_left fun e he ↦ hw.plan e he
  rw [← hv, ← h, List.map_map]
  rfl

theorem Covers.aligned {plans : CorePlans} {all : List PreparedCore} {applied : AppliedState}
    (h : Covers plans all) (hw : WellPlanned applied plans) : Aligned all := by
  refine ⟨fun p hp ↦ ?_, by rw [h.ids_eq hw]; exact plans.keys_nodup⟩
  have hm : (p.core, p.plan) ∈ plans.values := h ▸ List.mem_map.mpr ⟨p, hp, rfl⟩
  obtain ⟨e, he, hv⟩ := List.mem_map.mp hm
  have hc := hw.core e he
  have hpl := hw.plan e he
  rw [hv] at hc hpl
  exact hc.trans hpl.symm

theorem Covers.mem {plans : CorePlans} {all : List PreparedCore} {applied : AppliedState}
    (h : Covers plans all) (hw : WellPlanned applied plans) {e : String × CoreAdapter × CorePlan}
    (he : e ∈ plans.entries) : ∃ p ∈ all, p.plan = e.2.2 ∧ p.id = e.1 := by
  have hm : e.2 ∈ all.map fun p ↦ (p.core, p.plan) := by
    rw [h]
    exact List.mem_map.mpr ⟨e, he, rfl⟩
  obtain ⟨p, hp, hpe⟩ := List.mem_map.mp hm
  have hplan : p.plan = e.2.2 := congrArg Prod.snd hpe
  refine ⟨p, hp, hplan, ?_⟩
  rw [PreparedCore.id, hplan, hw.plan e he]

section prepare

variable {R : ReconcileOutcome → State L → Prop}
variable (hR : ∀ o s, o.status = .failed → Quiet w₀ s → R o s)

include hR in
theorem safe_stageAll {plans : CorePlans} {j : JournalEntry} (h : Before w₀ generation s)
    (hj : Open w₀ generation [] j) :
    Safe (tracedStep (step active)) (Durable w₀ generation) (exits R)
      (fun result t ↦ Before w₀ generation t ∧ Open w₀ generation [] result.1 ∧
        result.2.map (fun x ↦ (x.1, x.2.1)) = plans.values)
      (plans.entries.foldlM (r.stageCore generation) (j, [])) s := by
  refine safe_foldlM (fun staged (result : JournalEntry × List (CoreAdapter × CorePlan × Path)) t ↦
    Before w₀ generation t ∧ Open w₀ generation [] result.1 ∧
    result.2.map (fun x ↦ (x.1, x.2.1)) = staged.map Prod.snd)
    (fun staged entry rest result t _ hI ↦ ?_) (fun _ _ hI ↦ hI.1.durable) ⟨h, hj, rfl⟩
  obtain ⟨hb, hopen, hmap⟩ := hI
  refine (safe_stageCore hR hb hopen).mono (fun _ ↦ id) (fun _ _ _ ↦ id)
    fun result t _ ⟨hb', hopen', candidate, hc⟩ ↦ ⟨hb', hopen', ?_⟩
  rw [hc, List.map_append, List.map_append, hmap]
  rfl

include hR in
theorem safe_validateAll {prepared : List (CoreAdapter × CorePlan × Path)} {j : JournalEntry}
    (h : Before w₀ generation s) (hj : Open w₀ generation [] j) :
    Safe (tracedStep (step active)) (Durable w₀ generation) (exits R)
      (fun j' t ↦ Before w₀ generation t ∧ Open w₀ generation [] j')
      (prepared.foldlM r.validateCore j) s :=
  safe_foldlM (fun _ j t ↦ Before w₀ generation t ∧ Open w₀ generation [] j)
    (fun _ _ _ _ _ _ hI ↦ safe_validateCore hR hI.1 hI.2) (fun _ _ hI ↦ hI.1.durable) ⟨h, hj⟩

include hR in
theorem safe_snapshotAll {prepared : List (CoreAdapter × CorePlan × Path)} {j : JournalEntry}
    (h : Before w₀ generation s) (hj : Open w₀ generation [] j)
    (hid : ∀ x ∈ prepared, x.1.manifest.id = x.2.1.coreId) :
    Safe (tracedStep (step active)) (Durable w₀ generation) (exits R)
      (fun result t ↦ Before w₀ generation t ∧ Open w₀ generation result.2 result.1 ∧
        (∀ p ∈ result.2, Kept w₀ t p.id p.snapshot) ∧
        result.2.map (fun p ↦ (p.core, p.plan)) = prepared.map fun x ↦ (x.1, x.2.1))
      (prepared.foldlM (r.snapshotCore generation) (j, [])) s := by
  refine safe_foldlM (fun (handled : List (CoreAdapter × CorePlan × Path))
    (result : JournalEntry × List PreparedCore) t ↦
    Before w₀ generation t ∧ Open w₀ generation result.2 result.1 ∧
    (∀ p ∈ result.2, Kept w₀ t p.id p.snapshot) ∧
    result.2.map (fun p ↦ (p.core, p.plan)) = handled.map fun x ↦ (x.1, x.2.1))
    (fun handled x rest result t hl hI ↦ ?_) (fun _ _ hI ↦ hI.1.durable) ⟨h, hj, by simp, rfl⟩
  obtain ⟨hb, hopen, hk, hmap⟩ := hI
  refine (safe_snapshotCore hR hb hopen hk (hid x (by simp [hl]))).mono (fun _ ↦ id)
    (fun _ _ _ ↦ id) fun result t _ ⟨hb', _, hopen', hk', snapshot, hs⟩ ↦
    ⟨hb', hopen', hk', ?_⟩
  rw [hs, List.map_append, List.map_append, hmap]
  rfl

include hR in
theorem safe_prepareTransaction {plans : CorePlans} {applied : AppliedState} {j : JournalEntry}
    (hw : WellPlanned applied plans) (h : Before w₀ desired.generation s)
    (hu : Unmarked w₀ desired.generation j) (hj : j.resources = []) :
    Safe (tracedStep (step active)) (Durable w₀ desired.generation) (exits R)
      (fun result t ↦ Installing active w₀ desired.generation result.2 [] [] result.1 t ∧
        Covers plans result.2)
      (r.prepareTransaction desired plans j) s := by
  simp only [Reconciler.prepareTransaction, bind_eq, safe_bind]
  have hopen : Open w₀ desired.generation [] { j with coreIds := plans.keys, status := .applying } :=
    ⟨hu.own.congr rfl rfl rfl, rfl, hj⟩
  refine safe_saveUnmarked h hopen.unmarked fun s₁ _ h₁ ↦ ?_
  refine safe_propagate (safe_quietRequest rfl rfl h₁ fun _ s₂ _ h₂ _ _ ↦ ?_)
  refine (safe_stageAll hR h₂ hopen).mono (fun _ ↦ id) (fun _ _ _ ↦ id)
    fun staged s₃ _ ⟨h₃, hopen₃, hmap₃⟩ ↦ ?_
  have hid : ∀ x ∈ staged.2, x.1.manifest.id = x.2.1.coreId := fun x hx ↦ by
    have hm : (x.1, x.2.1) ∈ plans.values := hmap₃ ▸ List.mem_map.mpr ⟨x, hx, rfl⟩
    obtain ⟨e, he, hv⟩ := List.mem_map.mp hm
    have hc := hw.core e he
    rw [← hw.plan e he, hv] at hc
    exact hc
  refine (safe_validateAll hR h₃ hopen₃).mono (fun _ ↦ id) (fun _ _ _ ↦ id)
    fun j₄ s₄ _ ⟨h₄, hopen₄⟩ ↦ ?_
  have hopen₅ : Open w₀ desired.generation [] { j₄ with phase := .validated } :=
    ⟨hopen₄.own.congr rfl rfl rfl, hopen₄.status, hopen₄.resources⟩
  refine safe_saveUnmarked h₄ hopen₅.unmarked fun s₅ _ h₅ ↦ ?_
  refine (safe_snapshotAll hR h₅ hopen₅ hid).mono (fun _ ↦ id) (fun _ _ _ ↦ id)
    fun snapshotted s₆ _ ⟨h₆, hopen₆, hk₆, hmap₆⟩ ↦ ?_
  have hopen₇ : Open w₀ desired.generation snapshotted.2
      { snapshotted.1 with phase := .snapshotted } :=
    ⟨hopen₆.own.congr rfl rfl rfl, hopen₆.status, hopen₆.resources⟩
  refine safe_saveUnmarked h₆ hopen₇.unmarked fun s₇ hs₇ h₇ ↦ ?_
  refine safe_desiredGenerationIsCurrent h₇.durable fun current s₈ hc₈ ↦ ?_
  have h₈ := h₇.inert hc₈.inert hc₈.journal
  refine ⟨h₈.durable, ?_⟩
  cases current with
  | false => exact safe_exitWith (safe_failWithoutMutation hR h₈ hopen₇.unmarked)
  | true =>
    refine ⟨h₈.durable, ⟨⟨h₈.quiet.applied, fun p hp ↦ ?_, h₈.quiet.log.installCalls_eq,
      h₈.quiet.log.rollbackCalls_eq, fun core _ ↦ by rw [h₈.quiet.live], by simp⟩,
      hc₈.journal.trans hs₇.journal, hopen₇.own, hopen₇.status, hopen₇.resources⟩, ?_⟩
    · have hk₇ := (hk₆ p hp).mono hs₇.inert.subset hs₇.snapshots
      exact hk₇.mono hc₈.inert.subset hc₈.snapshots
    · exact hmap₆.trans hmap₃

end prepare

/-- The store names this generation, and every core it installed is verified. -/
structure Published (generation : ℕ) (s : State L) : Prop where
  applied : s.state.applied.generation = generation
  verified : ∀ core ∈ installCalls s.log, Verified s core

theorem Published.inert (h : Published generation s) (hi : Inert s s') :
    Published generation s' := by
  refine ⟨by rw [hi.applied, h.applied], fun core hc ↦ ?_⟩
  rw [hi.installCalls_eq] at hc
  exact (h.verified core hc).inert hi

theorem Installing.published {plans : CorePlans} {applied : AppliedState}
    {all : List PreparedCore} {j : JournalEntry} {expected : ℕ} {result : Except String Bool}
    (hw : WellPlanned applied plans) (hcov : Covers plans all)
    (h : Installing active w₀ generation all all all j s) (hphase : j.phase = .publishing)
    (hs : s'.state = { s.state with applied := nextApplied generation plans })
    (hl : s'.log = s.log ++
      [⟨.compareAndSetApplied expected (nextApplied generation plans), result⟩]) :
    Published generation s' ∧ Adoptable s' j ∧
      Outcome active w₀ generation plans ⟨generation, .applied, none⟩ s' := by
  have hsub : s.log ⊆ s'.log := hl ▸ List.subset_append_left _ _
  have hinstalls : installCalls s'.log = ids all := by
    rw [hl, installCalls_append, h.underway.installs]
    exact List.append_nil _
  have hlast : ∀ core, lastMutation core s'.log = lastMutation core s.log := fun core ↦ by
    rw [hl]
    exact lastMutation_append_of_ne (by simp [mutated])
  refine ⟨⟨by rw [hs]; rfl, fun core hc ↦ ?_⟩, ⟨h.marked.status, hphase, fun resource hr _ ↦ ?_,
    fun he ↦ ?_⟩, ?_⟩
  · rw [hinstalls] at hc
    obtain ⟨p, hp, rfl⟩ := mem_ids.mp hc
    obtain ⟨hconv, hlastp, -⟩ := h.underway.verified p hp
    exact ⟨p.plan, rfl, hconv.mono hsub, by rw [hlast, hlastp]⟩
  · rw [h.marked.resources] at hr
    obtain ⟨p, hp, rfl⟩ := List.mem_map.mp hr
    exact decide_eq_true (mem_ids.mpr ⟨p, hp, rfl⟩)
  · rw [h.marked.resources, marks, List.map_eq_nil_iff] at he
    rw [hinstalls, he]
    rfl
  · refine .applied rfl (by rw [hs]) (fun e he ↦ ?_) (fun e he ↦ ?_) fun core hc ↦ ?_
    · obtain ⟨p, hp, hplan, hid⟩ := hcov.mem hw he
      have hconv := (h.underway.verified p hp).1.mono hsub
      rwa [hplan, hid] at hconv
    · obtain ⟨p, hp, hplan, hid⟩ := hcov.mem hw he
      have hact := (h.underway.verified p hp).2.2
      rw [hplan, hid] at hact
      rw [hs]
      exact hact
    · rw [← hcov.ids_eq hw] at hc
      rw [hs]
      exact h.underway.untouched core hc

theorem safe_publish {plans : CorePlans} {all : List PreparedCore} {j : JournalEntry}
    (hw : WellPlanned w₀.applied plans) (hcov : Covers plans all)
    (h : Installing active w₀ desired.generation all all all j s) :
    Safe (tracedStep (step active)) (Durable w₀ desired.generation)
      (exits (Outcome active w₀ desired.generation plans))
      (Outcome active w₀ desired.generation plans)
      (r.publish desired w₀.applied plans all j) s := by
  have ha := hcov.aligned hw
  have hall : all ⊆ all := List.Subset.refl _
  simp only [Reconciler.publish, bind_eq, safe_bind]
  refine safe_desiredGenerationIsCurrent (h.durable hall) fun current s₁ hc₁ ↦ ?_
  have h₁ := h.calm hc₁
  refine ⟨h₁.durable hall, ?_⟩
  cases current with
  | false =>
    exact safe_rollback (List.append_nil all).symm ha h₁.marked.own h₁.marked.resources h₁.underway
      (h₁.durable hall)
  | true =>
    simp only [Bool.not_true, Bool.false_eq_true, if_false, safe_bind]
    have hm₂ : Marked w₀ desired.generation all (ids all) (ids all) { j with phase := .publishing } :=
      ⟨h₁.marked.own.congr rfl rfl rfl, h₁.marked.status, h₁.marked.resources⟩
    refine safe_savePhase h₁ hall hm₂ fun s₂ _ h₂ ↦ ?_
    refine safe_propagate (safe_request (h₂.durable hall) fun result s₃ hs₃ ↦ ?_)
    obtain ⟨hs₃, hl₃⟩ := hs₃
    rcases result with m | (_ | _)
    · -- the store may have published before it reported the error
      have hw₃ := hs₃
      refine ⟨?_, fun b hb ↦ by cases hb⟩
      rcases hw₃ with hw₃ | ⟨-, hw₃⟩
      · have hi : Inert s₂ s₃ := ⟨by rw [hw₃], by rw [hw₃], _, hl₃, by simp [NoMutation, mutated]⟩
        exact (h₂.durable hall).inert hi (by rw [hw₃]) (by rw [hw₃])
      · obtain ⟨hpub, hadopt, -⟩ := h₂.published hw hcov rfl hw₃ hl₃
        exact .published _ (by rw [hw₃]; exact h₂.journal) hm₂.own hpub.applied hpub.verified
          (.inr hadopt)
    · exact absurd (congrArg AppliedState.generation h₂.underway.applied) hs₃.1
    · have hw₃ := hs₃
      obtain ⟨hpub, hadopt, ho₃⟩ := h₂.published hw hcov rfl hw₃.2 hl₃
      have hj₃ : s₃.state.journal = some { j with phase := .publishing } := by
        rw [hw₃.2]
        exact h₂.journal
      have hd₃ : Durable w₀ desired.generation s₃ :=
        .published _ hj₃ hm₂.own hpub.applied hpub.verified (.inr hadopt)
      refine ⟨hd₃, fun b hb ↦ ?_⟩
      cases hb
      simp only [Bool.not_true, Bool.false_eq_true, if_false, safe_bind]
      refine safe_now hd₃ fun completedAt s₄ hc₄ ↦ ⟨hd₃.calm hc₄, ?_⟩
      have hpub₄ := hpub.inert hc₄.inert
      refine safe_saveJournal (hd₃.calm hc₄) (fun s' hc ↦ (hd₃.calm hc₄).calm hc) fun s₅ hs₅ ↦ ?_
      have hpub₅ := hpub₄.inert hs₅.inert
      have hd₅ : Durable w₀ desired.generation s₅ :=
        .published _ hs₅.journal (hm₂.own.congr rfl rfl rfl) hpub₅.applied hpub₅.verified (.inl rfl)
      refine ⟨hd₅, safe_cleanup hd₅ fun s₆ hi₆ hj₆ ↦ ?_⟩
      have hd₆ : Durable w₀ desired.generation s₆ := by
        refine hd₅.settled hi₆ hj₆ fun j' hj' ↦ ?_
        rw [hs₅.journal] at hj'
        rw [← Option.some.inj hj']
        constructor <;> simp
      exact ⟨hd₆, hd₆, ((ho₃.inert hc₄.inert).inert hs₅.inert).inert hi₆⟩

def Opened (s : State L) : Prop :=
  ∃ log j result, s.log = log ++ [⟨.saveJournal j, result⟩] ∧ j.status = .pending

/-- The plans are what `build_plans` answered in this run: the journal was opened,
the graph was found valid, and the plans were built. -/
structure Planned (active : L → Bool) (r : Reconciler) (desired : DesiredState)
    (secrets : SecretResolver) (applied : AppliedState) (plans : CorePlans) (s : State L) :
    Prop where
  built : ∃ opened valid built : State L, Opened opened ∧
    Completes (tracedStep (step active)) (r.validateGraph desired applied) opened () valid ∧
    Completes (tracedStep (step active)) (r.buildPlans desired secrets applied) valid plans built ∧
    built.log <+: s.log

/-- Every way in which a call that does not stop can end. -/
inductive Finished (active : L → Bool) (r : Reconciler) (desired : DesiredState)
    (secrets : SecretResolver) (w₀ : World L) (o : ReconcileOutcome) (s : State L) : Prop
  | upToDate
      (older : desired.generation ≤ w₀.applied.generation)
      (status : o.status = .applied)
      (quiet : Quiet w₀ s)
  | refused
      (status : o.status = .unsupported ∨ o.status = .failed ∨ o.status = .recoveryRequired)
      (quiet : Quiet w₀ s)
  | transacted (plans : CorePlans)
      (planned : Planned active r desired secrets w₀.applied plans s)
      (well : WellPlanned w₀.applied plans)
      (outcome : Outcome active w₀ desired.generation plans o s)

theorem safe_checkGraph {j : JournalEntry} (h : Before w₀ desired.generation s)
    (hu : Unmarked w₀ desired.generation j) :
    Safe (tracedStep (step active)) (Durable w₀ desired.generation)
      (exits (Finished active r desired secrets w₀))
      (fun _ t ↦ Before w₀ desired.generation t ∧
        Completes (tracedStep (step active)) (r.validateGraph desired w₀.applied) s () t)
      (r.checkGraph desired w₀.applied j) s := by
  simp only [Reconciler.checkGraph, bind_eq, safe_bind]
  refine (safe_probes h (r.validateGraph_uses desired w₀.applied) (returns_true _)).mono
    (fun _ ↦ id) (fun _ _ _ ↦ id) fun result s₁ _ ⟨h₁, _, hvalid⟩ ↦ ?_
  cases result with
  | ok => exact ⟨h₁.durable, h₁, (hvalid () rfl).2⟩
  | error m =>
    simp only [safe_bind]
    refine safe_now h₁.durable fun completedAt s₂ hc₂ ↦ ?_
    have h₂ := h₁.inert hc₂.inert hc₂.journal
    refine ⟨h₂.durable, ?_⟩
    refine safe_saveUnmarked h₂ ⟨hu.own.congr rfl rfl rfl, hu.unstarted⟩ fun s₃ _ h₃ ↦ ?_
    exact ⟨h₃.durable, .refused (.inl rfl) h₃.quiet⟩

theorem finished_of_failed : ∀ (o : ReconcileOutcome) (s : State L), o.status = .failed →
    Quiet w₀ s → Finished active r desired secrets w₀ o s :=
  fun _ _ hs hq ↦ .refused (.inr (.inl hs)) hq

theorem safe_planTransaction {j : JournalEntry} (h : Before w₀ desired.generation s)
    (hu : Unmarked w₀ desired.generation j) (hopen : Opened s) :
    Safe (tracedStep (step active)) (Durable w₀ desired.generation)
      (exits (Finished active r desired secrets w₀))
      (fun plans t ↦ Before w₀ desired.generation t ∧ WellPlanned w₀.applied plans ∧
        Planned active r desired secrets w₀.applied plans t)
      (r.planTransaction desired secrets w₀.applied j) s := by
  simp only [Reconciler.planTransaction, bind_eq, safe_bind]
  refine (safe_checkGraph h hu).mono (fun _ ↦ id) (fun _ _ _ ↦ id)
    fun _ s₁ _ ⟨h₁, hvalid⟩ ↦ ?_
  have hprobe : Safe (tracedStep (step active)) _
      (exits (Finished active r desired secrets w₀)) _ _ _ :=
    safe_probes h₁ (r.buildPlans_uses desired secrets w₀.applied)
      (r.buildPlans_returns desired secrets w₀.applied)
  refine hprobe.mono (fun _ ↦ id) (fun _ _ _ ↦ id) fun result s₂ _ ⟨h₂, _, hbuilt⟩ ↦ ?_
  refine safe_orExit (fun plans hok ↦ ⟨h₂.durable, ?_⟩)
    fun m _ ↦ safe_failWithoutMutation finished_of_failed h₂ hu
  obtain ⟨hwell, hrun⟩ := hbuilt plans hok
  have hplanned : Planned active r desired secrets w₀.applied plans s₂ :=
    ⟨s, s₁, s₂, hopen, hvalid, hrun, List.prefix_refl _⟩
  exact safe_orExit (fun _ _ ↦ ⟨h₂.durable, h₂.durable, h₂, hwell, hplanned⟩)
    fun m _ ↦ safe_failWithoutMutation finished_of_failed h₂ hu

theorem safe_installAll {plans : CorePlans} {all : List PreparedCore} {j : JournalEntry}
    (ha : Aligned all) (h : Installing active w₀ generation all [] [] j s) :
    Safe (tracedStep (step active)) (Durable w₀ generation)
      (exits (Outcome active w₀ generation plans))
      (Installing active w₀ generation all all all)
      (all.foldlM (r.installCore generation all) j) s := by
  refine safe_foldlM (fun done j t ↦ done ⊆ all ∧ Installing active w₀ generation all done done j t)
    (fun done p rest j t hall hI ↦ ?_) (fun _ _ hI ↦ hI.2.durable hI.1) ⟨by simp, h⟩ |>.mono
    (fun _ ↦ id) (fun _ _ _ ↦ id) fun _ _ _ hI ↦ hI.2
  refine (safe_installCore hall ha hI.2).mono (fun _ ↦ id) (fun _ _ _ ↦ id)
    fun _ _ _ h' ↦ ⟨fun q hq ↦ ?_, h'⟩
  rw [hall]
  simp at hq ⊢
  tauto

theorem safe_rejectInterrupted (h : Before w₀ desired.generation s) :
    Safe (tracedStep (step active)) (Durable w₀ desired.generation)
      (exits (Finished active r desired secrets w₀)) (fun _ t ↦ Before w₀ desired.generation t)
      (Reconciler.rejectInterrupted desired.generation) s := by
  simp only [Reconciler.rejectInterrupted, bind_eq, safe_bind]
  refine safe_propagate (safe_quietRequest rfl rfl h fun _ s₁ _ h₁ journal _ ↦ ?_)
  cases journal with
  | none => exact ⟨h₁.durable, h₁⟩
  | some j =>
    simp only
    split_ifs
    · exact ⟨h₁.durable, .refused (.inr (.inr rfl)) h₁.quiet⟩
    · exact ⟨h₁.durable, h₁⟩

theorem safe_beginJournal {R : ReconcileOutcome → State L → Prop}
    (hnewer : w₀.applied.generation < desired.generation)
    (h : Before w₀ desired.generation s) :
    Safe (tracedStep (step active)) (Durable w₀ desired.generation) (exits R)
      (fun j t ↦ Before w₀ desired.generation t ∧ Unmarked w₀ desired.generation j ∧
        j.resources = [] ∧ Opened t)
      (Reconciler.beginJournal desired w₀.applied) s := by
  simp only [Reconciler.beginJournal, bind_eq, safe_bind]
  refine safe_quietRequest rfl rfl h fun operationId s₁ _ h₁ ↦ ?_
  refine safe_quietRequest rfl rfl h₁ fun startedAt s₂ _ h₂ ↦ ?_
  have hu : Unmarked w₀ desired.generation { JournalEntry.prepared operationId startedAt
      desired.generation w₀.applied.generation with
      previousActiveCoreIds := w₀.applied.activeCoreIds } :=
    ⟨⟨rfl, rfl, rfl, hnewer⟩, by simp [JournalEntry.prepared]⟩
  refine safe_saveUnmarked h₂ hu fun s₃ hs₃ h₃ ↦ ?_
  obtain ⟨result, hlog⟩ := hs₃.record
  exact ⟨h₃.durable, h₃, hu, rfl, _, _, result, hlog, rfl⟩

theorem safe_reconcile (hs : s.state = w₀) (hl : s.log = []) :
    Safe (tracedStep (step active)) (Durable w₀ desired.generation) (fun _ _ ↦ True)
      (Finished active r desired secrets w₀) (r.reconcile desired secrets) s := by
  have hq : Quiet w₀ s := ⟨by rw [hs], by rw [hs], by simp [NoMutation, hl]⟩
  have h : Before w₀ desired.generation s := ⟨hq, .inl (by rw [hs])⟩
  refine safe_returning ?_
  simp only [bind_eq, safe_bind]
  refine safe_propagate (safe_quietRequest rfl rfl h fun loaded s₁ hs₁ h₁ applied ha ↦ ?_)
  subst ha
  obtain rfl : applied = w₀.applied := hs₁.1.1.trans (by rw [hs])
  split_ifs with hle
  · exact ⟨h₁.durable, .upToDate hle rfl h₁.quiet⟩
  have hnewer : w₀.applied.generation < desired.generation := not_le.mp hle
  simp only [safe_bind]
  refine (safe_rejectInterrupted h₁).mono (fun _ ↦ id) (fun _ _ _ ↦ id) fun _ s₂ _ h₂ ↦ ?_
  refine (safe_beginJournal hnewer h₂).mono (fun _ ↦ id) (fun _ _ _ ↦ id)
    fun j s₃ _ hs₃ ↦ ?_
  obtain ⟨h₃, hu₃, hj₃, hopen₃⟩ := hs₃
  refine (safe_planTransaction h₃ hu₃ hopen₃).mono (fun _ ↦ id) (fun _ _ _ ↦ id)
    fun plans s₄ _ hs₄ ↦ ?_
  obtain ⟨h₄, hw₄, hplanned⟩ := hs₄
  -- from here on the outcome is about these plans
  have hrest : Safe (tracedStep (step active)) (Durable w₀ desired.generation)
      (exits (Outcome active w₀ desired.generation plans))
      (Outcome active w₀ desired.generation plans)
      ((r.prepareTransaction desired plans j).bind fun x ↦
        (x.2.foldlM (r.installCore desired.generation x.2) x.1).bind
          (r.publish desired w₀.applied plans x.2)) s₄ := by
    rw [safe_bind]
    refine (safe_prepareTransaction (fun _ _ ↦ .failed) hw₄ h₄ hu₃ hj₃).mono (fun _ ↦ id)
      (fun _ _ _ ↦ id) fun prepared s₅ _ hs₅ ↦ ?_
    obtain ⟨h₅, hcov⟩ := hs₅
    rw [safe_bind]
    refine (safe_installAll (hcov.aligned hw₄) h₅).mono (fun _ ↦ id) (fun _ _ _ ↦ id)
      fun j₆ s₆ _ h₆ ↦ ?_
    exact safe_publish hw₄ hcov h₆
  have htransacted : ∀ o t, Outcome active w₀ desired.generation plans o t → s₄.log <+: t.log →
      Finished active r desired secrets w₀ o t := by
    intro o t ho hlog
    obtain ⟨opened, valid, built, ho₁, hvalid, hbuilt, hpre⟩ := hplanned
    exact .transacted plans ⟨opened, valid, built, ho₁, hvalid, hbuilt, hpre.trans hlog⟩ hw₄ ho
  have hexit : ∀ e t, exits (Outcome active w₀ desired.generation plans) e t →
      s₄.log <+: t.log → exits (Finished active r desired secrets w₀) e t := by
    intro e t he hlog
    cases e with
    | error m => trivial
    | returned o => exact htransacted o t he hlog
  have hfinal : Safe (tracedStep (step active)) (Durable w₀ desired.generation)
      (exits (Finished active r desired secrets w₀)) (Finished active r desired secrets w₀) _ s₄ :=
    hrest.logged.mono (fun _ ht ↦ ht.1) (fun e t _ ht ↦ hexit e t ht.1 ht.2)
      fun o t _ ht ↦ htransacted o t ht.1 ht.2
  simpa only [safe_bind] using hfinal

end StealthHub.Reconcile

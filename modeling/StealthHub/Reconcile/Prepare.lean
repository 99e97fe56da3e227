import StealthHub.Reconcile.Install
import StealthHub.Reconcile.PlanSpec

set_option autoImplicit false

namespace StealthHub.Reconcile

open Effect Effect.Program

variable {L : Type} {active : L → Bool} {w₀ : World L} {generation : ℕ} {s s' : State L}

/-- A journal of this transaction that records no started installation. -/
structure Unmarked (w₀ : World L) (generation : ℕ) (j : JournalEntry) : Prop where
  own : Own w₀ generation j
  unstarted : ∀ resource ∈ j.resources, resource.mutationStarted = false

/-- Everything up to the first installation looks like this. -/
structure Before (w₀ : World L) (generation : ℕ) (s : State L) : Prop where
  quiet : Quiet w₀ s
  journal : s.state.journal = w₀.journal ∨
    ∃ j, s.state.journal = some j ∧ Unmarked w₀ generation j

theorem Before.durable (h : Before w₀ generation s) : Durable w₀ generation s :=
  .before h.quiet (h.journal.imp_right fun ⟨j, hj, hu⟩ ↦ ⟨j, hj, hu.own, hu.unstarted⟩)

theorem Before.inert (h : Before w₀ generation s) (hi : Inert s s')
    (hj : s'.state.journal = s.state.journal) : Before w₀ generation s' :=
  ⟨h.quiet.inert hi, by rw [hj]; exact h.journal⟩

theorem Before.saved {j : JournalEntry} (h : Before w₀ generation s) (hs : Saved j s s')
    (hu : Unmarked w₀ generation j) : Before w₀ generation s' :=
  ⟨h.quiet.inert hs.inert, .inr ⟨j, hs.journal, hu⟩⟩

section rules

variable {ρ : Type} {R : ρ → State L → Prop}

theorem safe_quietRequest {op : Op} {Q : Reply op → State L → Prop} (hop : op.isInert)
    (hk : op.keepsJournal) (h : Before w₀ generation s)
    (hQ : ∀ r s', tracedStep (step active) s op r s' → Before w₀ generation s' → Q r s') :
    Safe (tracedStep (step active)) (Durable w₀ generation) (exits R) Q
      (request op : Program Reply (Exit ρ) (Reply op)) s := by
  refine safe_request h.durable fun r s' hs ↦ ?_
  have h' := h.inert (inert_of_step hs hop) (step_keepsJournal hs.1 hk)
  exact ⟨h'.durable, hQ r s' hs h'⟩

theorem safe_saveUnmarked {j : JournalEntry} {Q : Unit → State L → Prop}
    (h : Before w₀ generation s) (hu : Unmarked w₀ generation j)
    (hQ : ∀ s', Saved j s s' → Before w₀ generation s' → Q () s') :
    Safe (tracedStep (step active)) (Durable w₀ generation) (exits R) Q (saveJournal j) s := by
  refine safe_saveJournal h.durable (fun s' hc ↦ h.durable.calm hc) fun s' hs ↦ ?_
  exact ⟨(h.saved hs hu).durable, hQ s' hs (h.saved hs hu)⟩

theorem safe_probes {α : Type} {p : Program Reply String α} {P : α → Prop}
    {E : Exit ρ → State L → Prop} (h : Before w₀ generation s) (hp : p.Uses Op.isProbe)
    (hP : p.Returns P) :
    Safe (tracedStep (step active)) (Durable w₀ generation) E
      (fun result t ↦ Before w₀ generation t ∧ Calm s t ∧
        ∀ a, result = .ok a → P a ∧ Completes (tracedStep (step active)) p s a t)
      (p.attempt : Program Reply (Exit ρ) (Except String α)) s := by
  have hI : ∀ (u : State L) op r t, Op.isProbe op → (Before w₀ generation u ∧ Calm s u) →
      tracedStep (step active) u op r t → Before w₀ generation t ∧ Calm s t := by
    rintro u op r t hop ⟨hb, hc⟩ ht
    have hcalm : op.isCalm := by cases op <;> first | rfl | cases hop
    have hut := calm_of_step ht hcalm
    exact ⟨hb.inert hut.inert hut.journal, hc.inert.trans hut.inert,
      hut.journal.trans hc.journal, hut.snapshots.trans hc.snapshots⟩
  have hstart : Before w₀ generation s ∧ Calm s s := ⟨h, .refl s, rfl, rfl⟩
  rw [safe_attempt]
  refine (((safe_of_uses hp hI hstart).returns hP).reached).mono (fun t ht ↦ ht.1.durable)
    (fun e t _ ht ↦ ⟨ht.1, ht.2, fun a ha ↦ by cases ha⟩) fun a t _ ht ↦ ?_
  obtain ⟨⟨⟨hb, hc⟩, hPa⟩, hreach⟩ := ht
  exact ⟨hb, hc, fun b hb' ↦ by cases hb'; exact ⟨hPa, hreach⟩⟩

end rules

section programs

variable {r : Reconciler} {R : ReconcileOutcome → State L → Prop}
variable (hR : ∀ o s, o.status = .failed → Quiet w₀ s → R o s)

include hR in
theorem safe_failWithoutMutation {j : JournalEntry} {error : String}
    (h : Before w₀ generation s) (hu : Unmarked w₀ generation j) :
    Safe (tracedStep (step active)) (Durable w₀ generation) (exits R) R
      (r.failWithoutMutation j error) s := by
  rw [Reconciler.failWithoutMutation]
  simp only [bind_eq, safe_bind]
  refine safe_now h.durable fun completedAt s₁ hc₁ ↦ ?_
  have h₁ := h.inert hc₁.inert hc₁.journal
  refine ⟨h₁.durable, ?_⟩
  have hu' : Unmarked w₀ generation { j with
      status := .failed, error := some error, currentCoreId := none,
      completedAt := some completedAt } :=
    ⟨hu.own.congr rfl rfl rfl, hu.unstarted⟩
  refine safe_saveUnmarked h₁ hu' fun s₂ _ h₂ ↦ ?_
  refine safe_cleanup h₂.durable fun s₃ hi₃ hj₃ ↦ ?_
  have h₃ := h₂.inert hi₃ hj₃
  exact ⟨h₃.durable, h₃.durable, hR _ _ rfl h₃.quiet⟩

/-- The journal variable while candidates are being prepared. -/
structure Open (w₀ : World L) (generation : ℕ) (all : List PreparedCore) (j : JournalEntry) :
    Prop where
  own : Own w₀ generation j
  status : j.status = .applying
  resources : j.resources = marks all [] []

theorem Open.unmarked {all : List PreparedCore} {j : JournalEntry}
    (h : Open w₀ generation all j) : Unmarked w₀ generation j := by
  refine ⟨h.own, fun resource hr ↦ ?_⟩
  rw [h.resources] at hr
  obtain ⟨p, -, rfl⟩ := List.mem_map.mp hr
  simp [resourceOf]

include hR in
theorem safe_stageCore {j : JournalEntry} {prepared : List (CoreAdapter × CorePlan × Path)}
    {entry : String × CoreAdapter × CorePlan} (h : Before w₀ generation s)
    (hj : Open w₀ generation [] j) :
    Safe (tracedStep (step active)) (Durable w₀ generation) (exits R)
      (fun result t ↦ Before w₀ generation t ∧ Open w₀ generation [] result.1 ∧
        ∃ candidate, result.2 = prepared ++ [(entry.2.1, entry.2.2, candidate)])
      (r.stageCore generation (j, prepared) entry) s := by
  obtain ⟨coreId, core, plan⟩ := entry
  simp only [Reconciler.stageCore, bind_eq, safe_bind]
  have hj' : Open w₀ generation [] { j with currentCoreId := some coreId } :=
    ⟨hj.own.congr rfl rfl rfl, hj.status, hj.resources⟩
  refine safe_propagate (safe_quietRequest rfl rfl h fun _ s₁ _ h₁ _ _ ↦ ?_)
  refine safe_quietRequest rfl rfl h₁ fun staged s₂ _ h₂ ↦ ?_
  refine safe_orExit (fun candidate _ ↦ ⟨h₂.durable, ?_⟩)
    fun m _ ↦ safe_failWithoutMutation hR h₂ hj'.unmarked
  have hj'' : Open w₀ generation [] { j with currentCoreId := some coreId, phase := .staged } :=
    ⟨hj.own.congr rfl rfl rfl, hj.status, hj.resources⟩
  refine safe_saveUnmarked h₂ hj''.unmarked fun s₃ _ h₃ ↦ ?_
  exact ⟨h₃.durable, h₃, hj'', candidate, rfl⟩

include hR in
theorem safe_validateCore {j : JournalEntry} {prepared : CoreAdapter × CorePlan × Path}
    (h : Before w₀ generation s) (hj : Open w₀ generation [] j) :
    Safe (tracedStep (step active)) (Durable w₀ generation) (exits R)
      (fun j' t ↦ Before w₀ generation t ∧ Open w₀ generation [] j')
      (r.validateCore j prepared) s := by
  obtain ⟨core, plan, candidate⟩ := prepared
  simp only [Reconciler.validateCore, bind_eq, safe_bind]
  have hj' : Open w₀ generation [] { j with currentCoreId := some core.manifest.id } :=
    ⟨hj.own.congr rfl rfl rfl, hj.status, hj.resources⟩
  refine safe_quietRequest rfl rfl h fun validated s₁ _ h₁ ↦ ?_
  exact safe_orExit (fun _ _ ↦ ⟨h₁.durable, h₁.durable, h₁, hj'⟩)
    fun m _ ↦ safe_failWithoutMutation hR h₁ hj'.unmarked

theorem Kept.snapshot {core other : String} {dir : Path} {taken snapshot : CoreSnapshot}
    (hq : Quiet w₀ s) (h : Kept w₀ s other snapshot)
    (hs : tracedStep (step active) s (.snapshotConfig core dir) (.ok taken) s') :
    Kept w₀ s' other snapshot := by
  obtain ⟨hw, hl⟩ := hs
  obtain ⟨d, hd⟩ := h.taken
  refine ⟨⟨d, by simp [hl, hd]⟩, ?_⟩
  simp only [step] at hw
  rw [hw, World.keep]
  by_cases hc : other = core
  · subst hc
    by_cases he : snapshot = taken
    · simp [he, hq.live]
    · simp [he, h.stored]
  · simp [hc, h.stored]

theorem Kept.of_snapshot {core : String} {dir : Path} {taken : CoreSnapshot} (hq : Quiet w₀ s)
    (hs : tracedStep (step active) s (.snapshotConfig core dir) (.ok taken) s') :
    Kept w₀ s' core taken := by
  obtain ⟨hw, hl⟩ := hs
  refine ⟨⟨dir, by simp [hl]⟩, ?_⟩
  simp only [step] at hw
  simp [hw, World.keep, hq.live]

include hR in
theorem safe_snapshotCore {j : JournalEntry} {snapshotted : List PreparedCore}
    {prepared : CoreAdapter × CorePlan × Path} (h : Before w₀ generation s)
    (hj : Open w₀ generation snapshotted j) (hk : ∀ p ∈ snapshotted, Kept w₀ s p.id p.snapshot)
    (hid : prepared.1.manifest.id = prepared.2.1.coreId) :
    Safe (tracedStep (step active)) (Durable w₀ generation) (exits R)
      (fun result t ↦ Before w₀ generation t ∧ t.state.journal = some result.1 ∧
        Open w₀ generation result.2 result.1 ∧ (∀ p ∈ result.2, Kept w₀ t p.id p.snapshot) ∧
        ∃ snapshot, result.2 = snapshotted ++
          [⟨prepared.1, prepared.2.1, prepared.2.2, snapshot⟩])
      (r.snapshotCore generation (j, snapshotted) prepared) s := by
  obtain ⟨core, plan, candidate⟩ := prepared
  simp only at hid
  simp only [Reconciler.snapshotCore, bind_eq, safe_bind]
  have hu' : Unmarked w₀ generation { j with currentCoreId := some core.manifest.id } :=
    ⟨hj.own.congr rfl rfl rfl, hj.unmarked.unstarted⟩
  refine safe_quietRequest rfl rfl h fun taken s₁ hs₁ h₁ ↦ ?_
  refine safe_orExit (fun snapshot hok ↦ ⟨h₁.durable, ?_⟩)
    fun m _ ↦ safe_failWithoutMutation hR h₁ hu'
  rw [hok, hid] at hs₁
  have hk₁ : ∀ p ∈ snapshotted ++ [⟨core, plan, candidate, snapshot⟩],
      Kept w₀ s₁ p.id p.snapshot := by
    intro p hp
    rcases List.mem_append.mp hp with hp | hp
    · exact (hk p hp).snapshot h.quiet hs₁
    · obtain rfl := List.mem_singleton.mp hp
      exact .of_snapshot h.quiet hs₁
  have hopen : Open w₀ generation (snapshotted ++ [⟨core, plan, candidate, snapshot⟩])
      { j with
        currentCoreId := some core.manifest.id
        resources := j.resources ++ [⟨plan.coreId, snapshot.path, snapshot.serviceWasEnabled,
          snapshot.serviceWasActive, false, false⟩] } := by
    refine ⟨hj.own.congr rfl rfl rfl, hj.status, ?_⟩
    simp [hj.resources, marks, resourceOf, PreparedCore.id]
  refine safe_saveUnmarked h₁ hopen.unmarked fun s₂ hs₂ h₂ ↦ ?_
  exact ⟨h₂.durable, h₂, hs₂.journal, hopen,
    fun p hp ↦ (hk₁ p hp).mono hs₂.inert.subset hs₂.snapshots, snapshot, rfl⟩

end programs

end StealthHub.Reconcile

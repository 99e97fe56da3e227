import StealthHub.Reconcile.Rollback

set_option autoImplicit false

namespace StealthHub.Reconcile

open Effect Effect.Program

variable {L : Type} {active : L → Bool} {w₀ : World L} {generation : ℕ}

/-- The journal variable while cores are being installed. -/
structure Marked (w₀ : World L) (generation : ℕ) (all : List PreparedCore)
    (started recorded : List String) (j : JournalEntry) : Prop where
  own : Own w₀ generation j
  status : j.status = .applying
  resources : j.resources = marks all started recorded

/-- Inside the loop: the cores in `called` were asked to install, those in
`verified` have passed every check, and the store holds the journal `j`. -/
structure Installing (active : L → Bool) (w₀ : World L) (generation : ℕ) (all : List PreparedCore)
    (called : List PreparedCore) (verified : List PreparedCore) (j : JournalEntry)
    (s : State L) : Prop where
  underway : Underway active w₀ all (ids called) verified s
  journal : s.state.journal = some j
  marked : Marked w₀ generation all (ids called) (ids verified) j

theorem durable_underway {all called verified : List PreparedCore} {started recorded : List String}
    {j : JournalEntry} {s : State L} (h : Underway active w₀ all (ids called) verified s)
    (hj : s.state.journal = some j) (hm : Marked w₀ generation all started recorded j)
    (hs : ids called ⊆ started) (hc : called ⊆ all) : Durable w₀ generation s := by
  refine .installing j hj hm.own hm.status h.applied ⟨fun core hcore ↦ ?_, fun resource hr ↦ ?_⟩
  · rw [h.installs] at hcore
    obtain ⟨p, hp, rfl⟩ := mem_ids.mp hcore
    refine ⟨resourceOf started recorded p, ?_, rfl, decide_eq_true (hs hcore)⟩
    rw [hm.resources]
    exact List.mem_map.mpr ⟨p, hc hp, rfl⟩
  · rw [hm.resources] at hr
    obtain ⟨p, hp, rfl⟩ := List.mem_map.mp hr
    exact h.kept p hp

theorem Installing.durable {all called verified : List PreparedCore} {j : JournalEntry}
    {s : State L} (h : Installing active w₀ generation all called verified j s)
    (hc : called ⊆ all) : Durable w₀ generation s :=
  durable_underway h.underway h.journal h.marked (List.Subset.refl _) hc

theorem Installing.calm {all called verified : List PreparedCore} {j : JournalEntry}
    {s s' : State L} (h : Installing active w₀ generation all called verified j s)
    (hc : Calm s s') : Installing active w₀ generation all called verified j s' :=
  ⟨h.underway.inert hc.inert hc.snapshots, hc.journal.trans h.journal, h.marked⟩

theorem Installing.saved {all called verified : List PreparedCore} {j j' : JournalEntry}
    {s s' : State L} (h : Installing active w₀ generation all called verified j s)
    (hs : Saved j' s s') (hm : Marked w₀ generation all (ids called) (ids verified) j') :
    Installing active w₀ generation all called verified j' s' :=
  ⟨h.underway.inert hs.inert hs.snapshots, hs.journal, hm⟩

theorem safe_savePhase {ρ : Type} {R : ρ → State L → Prop} {Q : Unit → State L → Prop}
    {all called verified : List PreparedCore} {j j' : JournalEntry} {s : State L}
    (h : Installing active w₀ generation all called verified j s) (hc : called ⊆ all)
    (hm : Marked w₀ generation all (ids called) (ids verified) j')
    (hQ : ∀ s', Inert s s' → Installing active w₀ generation all called verified j' s' →
      Q () s') :
    Safe (tracedStep (step active)) (Durable w₀ generation) (exits R) Q (saveJournal j') s := by
  refine safe_saveJournal (h.durable hc) (fun s' hcalm ↦ (h.durable hc).calm hcalm) fun s' hs ↦ ?_
  exact ⟨(h.saved hs hm).durable hc, hQ s' hs.inert (h.saved hs hm)⟩

theorem Underway.mutate {all verified : List PreparedCore} {called called' : List String}
    {s s' : State L} {core : String} {e : Answered} {l : L}
    (h : Underway active w₀ all called verified s)
    (hlog : s'.log = s.log ++ [e]) (hlive : s'.state = s.state.setLive core l)
    (he : mutated e = some core) (hr : rollbackCall e = none)
    (hcalls : installCalls s'.log = called') (hsub : called ⊆ called') (hcore : core ∈ called')
    (hv : ∀ p ∈ verified, p.id ≠ core) :
    Underway active w₀ all called' verified s' := by
  have hother : ∀ other ≠ core, s'.state.live other = s.state.live other := fun other hne ↦ by
    rw [hlive]
    exact Function.update_of_ne hne _ _
  have hl : s.log ⊆ s'.log := hlog ▸ List.subset_append_left _ _
  refine ⟨?_, fun p hp ↦ (h.kept p hp).mono hl ?_, hcalls, ?_, fun other ho ↦ ?_, fun p hp ↦ ?_⟩
  · rw [hlive]
    exact h.applied
  · rw [hlive]
    rfl
  · rw [hlog, rollbackCalls_append, h.rollbacks, List.nil_append]
    simp [rollbackCalls, hr]
  · rw [hother other fun he ↦ ho (he ▸ hcore), h.untouched other fun hin ↦ ho (hsub hin)]
  · obtain ⟨hc, hlast, ha⟩ := h.verified p hp
    refine ⟨hc.mono hl, ?_, by rw [hother p.id (hv p hp), ha]⟩
    rw [hlog, lastMutation_append_of_ne, hlast]
    simpa [he] using (hv p hp).symm

/-- The core runs its plan; the checks are still to come. -/
structure Activated (active : L → Bool) (p : PreparedCore) (s : State L) : Prop where
  installed : ∃ candidate, ⟨.installConfig p.id candidate, .ok ()⟩ ∈ s.log
  activated : ⟨.activateConfig p.id p.plan, .ok ()⟩ ∈ s.log
  last : lastMutation p.id s.log = some ⟨.activateConfig p.id p.plan, .ok ()⟩
  activity : active (s.state.live p.id) = !p.plan.fragments.isEmpty

theorem Activated.inert {p : PreparedCore} {s s' : State L} (h : Activated active p s)
    (hi : Inert s s') : Activated active p s' where
  installed := h.installed.imp fun _ hc ↦ hi.subset hc
  activated := hi.subset h.activated
  last := by rw [hi.lastMutation_eq, h.last]
  activity := by rw [hi.live, h.activity]

section core

variable {r : Reconciler} {plans : CorePlans} {all done rest : List PreparedCore} {p : PreparedCore}
variable {j : JournalEntry} {s : State L}

theorem Installing.safe_rollback {error : String} (hall : all = done ++ p :: rest)
    (ha : Aligned all) (h : Installing active w₀ generation all (done ++ [p]) done j s) :
    Safe (tracedStep (step active)) (Durable w₀ generation)
      (exits (Outcome active w₀ generation plans)) (Outcome active w₀ generation plans)
      (r.rollback generation all j error) s := by
  have hall' : all = (done ++ [p]) ++ rest := by simp [hall]
  refine Reconcile.safe_rollback hall' ha h.marked.own h.marked.resources h.underway ?_
  exact h.durable fun q hq ↦ hall' ▸ List.mem_append_left _ hq

theorem safe_checkHealth (hall : all = done ++ p :: rest) (ha : Aligned all)
    (h : Installing active w₀ generation all (done ++ [p]) done j s) :
    Safe (tracedStep (step active)) (Durable w₀ generation)
      (exits (Outcome active w₀ generation plans))
      (fun _ t ↦ Calm s t ∧ (p.plan.fragments ≠ [] → ⟨.healthcheck p.id p.plan, .ok ()⟩ ∈ t.log))
      (r.checkHealth generation all j p) s := by
  have hc : done ++ [p] ⊆ all := fun q hq ↦ by rw [hall]; simp at hq ⊢; tauto
  have hcore : p.core.manifest.id = p.id := ha.core p (by simp [hall])
  rw [Reconciler.checkHealth]
  split_ifs with hf
  · refine ⟨h.durable hc, ⟨.refl s, rfl, rfl⟩, fun hne ↦ ?_⟩
    exact absurd (List.isEmpty_iff.mp hf) hne
  · simp only [bind_eq, safe_bind]
    refine safe_calm rfl (h.durable hc) fun result t ht hm ↦ ⟨(h.calm ht).durable hc, ?_⟩
    rw [hcore] at hm
    refine safe_orExit (fun a ha ↦ ⟨(h.calm ht).durable hc, ht, fun _ ↦ ?_⟩)
      fun m _ ↦ (h.calm ht).safe_rollback hall ha
    cases ha
    exact hm

theorem safe_checkUsers (hall : all = done ++ p :: rest) (ha : Aligned all)
    (h : Installing active w₀ generation all (done ++ [p]) done j s) :
    Safe (tracedStep (step active)) (Durable w₀ generation)
      (exits (Outcome active w₀ generation plans))
      (fun _ t ↦ Calm s t ∧ (hasIndividualUsers p.plan →
        ∃ n, ⟨.observeUsers p.id p.plan, .ok (.inSync n)⟩ ∈ t.log))
      (r.checkUsers generation all j p) s := by
  have hc : done ++ [p] ⊆ all := fun q hq ↦ by rw [hall]; simp at hq ⊢; tauto
  have hcore : p.core.manifest.id = p.id := ha.core p (by simp [hall])
  rw [Reconciler.checkUsers]
  split_ifs with hu
  · simp only [bind_eq, safe_bind]
    refine safe_calm rfl (h.durable hc) fun result t ht hm ↦ ⟨(h.calm ht).durable hc, ?_⟩
    rw [hcore] at hm
    -- only one of the possible observations lets the transaction continue
    match result, hm with
    | .ok (.inSync n), hm => exact ⟨(h.calm ht).durable hc, ht, fun _ ↦ ⟨n, hm⟩⟩
    | .ok .unsupported, _ => exact safe_exitWith ((h.calm ht).safe_rollback hall ha)
    | .ok (.drift _ _ _ _), _ => exact safe_exitWith ((h.calm ht).safe_rollback hall ha)
    | .error _, _ => exact safe_exitWith ((h.calm ht).safe_rollback hall ha)
  · exact ⟨h.durable hc, ⟨.refl s, rfl, rfl⟩, fun hu' ↦ absurd hu' hu⟩

theorem Underway.install {c : Path} {result : Except String Unit} {s' : State L}
    (h : Underway active w₀ all (ids done) done s) (hne : ∀ q ∈ done, q.id ≠ p.id)
    (hs : tracedStep (step active) s (.installConfig p.id c) result s') :
    Underway active w₀ all (ids (done ++ [p])) done s' := by
  obtain ⟨⟨l, hl⟩, hlog⟩ := hs
  have hids : ids (done ++ [p]) = ids done ++ [p.id] := by simp [ids]
  refine h.mutate hlog hl rfl rfl ?_ (by simp [hids]) (by simp [hids]) hne
  rw [hlog, installCalls_append, h.installs, hids]
  rfl

theorem Underway.activate {result : Except String Unit} {s' : State L}
    (h : Underway active w₀ all (ids (done ++ [p])) done s) (hne : ∀ q ∈ done, q.id ≠ p.id)
    (hs : tracedStep (step active) s (.activateConfig p.id p.plan) result s') :
    Underway active w₀ all (ids (done ++ [p])) done s' := by
  have hlive : ∃ l, s'.state = s.state.setLive p.id l := by
    cases result with
    | ok => exact hs.1.imp fun _ h ↦ h.2
    | error => exact hs.1
  obtain ⟨l, hl⟩ := hlive
  refine h.mutate hs.2 hl rfl rfl ?_ (List.Subset.refl _) (by simp [ids]) hne
  rw [hs.2, installCalls_append, h.installs]
  exact List.append_nil _

theorem Activated.of_step {s' : State L} (hi : ∃ c, ⟨.installConfig p.id c, .ok ()⟩ ∈ s.log)
    (hs : tracedStep (step active) s (.activateConfig p.id p.plan) (.ok ()) s') :
    Activated active p s' := by
  obtain ⟨⟨l, hl, hw⟩, hlog⟩ := hs
  refine ⟨hi.imp fun c hc ↦ by simp [hlog, hc], by simp [hlog], ?_, ?_⟩
  · rw [hlog]
    exact lastMutation_append rfl
  · rw [hw, ← hl]
    exact congrArg active (Function.update_self _ _ _)

theorem Installing.verify {j' : JournalEntry} {s' : State L} (ha : Aligned all) (hp : p ∈ all)
    (h : Installing active w₀ generation all (done ++ [p]) done j s)
    (hact : Activated active p s) (hc : Converged s.log p.id p.plan)
    (hj' : j' = markVerified j p.id) (hs : Saved j' s s') :
    Installing active w₀ generation all (done ++ [p]) (done ++ [p]) j' s' := by
  have hmark := updateResource_verified ha hp (ids (done ++ [p])) (ids done)
  rw [← h.marked.resources] at hmark
  have hu := h.underway.inert hs.inert hs.snapshots
  have hact' := hact.inert hs.inert
  refine ⟨⟨hu.applied, hu.kept, hu.installs, hu.rollbacks, hu.untouched, fun q hq ↦ ?_⟩,
    hs.journal, ?_⟩
  · rcases List.mem_append.mp hq with hq | hq
    · exact hu.verified q hq
    · obtain rfl := List.mem_singleton.mp hq
      exact ⟨hc.mono hs.inert.subset, hact'.last, hact'.activity⟩
  · subst hj'
    refine ⟨h.marked.own.congr rfl rfl rfl, h.marked.status, ?_⟩
    rw [markVerified, hmark]
    simp [ids]

theorem safe_installCore (hall : all = done ++ p :: rest) (ha : Aligned all)
    (h : Installing active w₀ generation all done done j s) :
    Safe (tracedStep (step active)) (Durable w₀ generation)
      (exits (Outcome active w₀ generation plans))
      (Installing active w₀ generation all (done ++ [p]) (done ++ [p]))
      (r.installCore generation all j p) s := by
  have hp : p ∈ all := by simp [hall]
  have hcore : p.core.manifest.id = p.id := ha.core p hp
  have hdone : done ⊆ all := fun q hq ↦ by simp [hall, hq]
  have hnext : done ++ [p] ⊆ all := fun q hq ↦ by rw [hall]; simp at hq ⊢; tauto
  have hne : ∀ q ∈ done, q.id ≠ p.id := fun q hq he ↦ by
    have hn : (ids done ++ p.id :: ids rest).Nodup := by simpa [hall, ids] using ha.nodup
    exact (List.nodup_append.mp hn).2.2 _ (mem_ids.mpr ⟨q, hq, rfl⟩) _ List.mem_cons_self he
  have hids : ids (done ++ [p]) = ids done ++ [p.id] := by simp [ids]
  have hmark := updateResource_started ha hp (ids done) (ids done)
  rw [← h.marked.resources, ← hids] at hmark
  simp only [Reconciler.installCore, Reconciler.markStarted, bind_eq, safe_bind]
  rw [show p.plan.coreId = p.id from rfl, hmark]
  refine ⟨h.durable hdone, ?_⟩
  set j₁ := { j with
    currentCoreId := some p.id, resources := marks all (ids (done ++ [p])) (ids done) } with hj₁
  have hm₁ : Marked w₀ generation all (ids (done ++ [p])) (ids done) j₁ :=
    ⟨h.marked.own.congr rfl rfl rfl, h.marked.status, rfl⟩
  -- the marker is durable before the adapter is called
  refine safe_saveJournal (h.durable hdone) (fun s' hc ↦ (h.durable hdone).calm hc) fun s₁ hs₁ ↦ ?_
  have hu₁ := h.underway.inert hs₁.inert hs₁.snapshots
  have hd₁ : Durable w₀ generation s₁ :=
    durable_underway hu₁ hs₁.journal hm₁ (by simp [hids]) hdone
  refine ⟨hd₁, safe_request hd₁ fun installed s₂ hs₂ ↦ ?_⟩
  rw [hcore] at hs₂
  have h₂ : Installing active w₀ generation all (done ++ [p]) done j₁ s₂ :=
    ⟨hu₁.install hne hs₂, (step_keepsJournal hs₂.1 rfl).trans hs₁.journal, hm₁⟩
  refine ⟨h₂.durable hnext, safe_orExit (fun a hok ↦ ⟨h₂.durable hnext, ?_⟩)
    fun m _ ↦ h₂.safe_rollback hall ha⟩
  have hinst : ∃ c, ⟨.installConfig p.id c, .ok ()⟩ ∈ s₂.log :=
    ⟨p.candidate, by rw [hs₂.2, hok]; simp⟩
  refine safe_savePhase h₂ hnext ⟨?_, hm₁.status, rfl⟩ fun s₃ hi₃ h₃ ↦ ?_
  · exact hm₁.own.congr rfl rfl rfl
  refine safe_request (h₃.durable hnext) fun activated s₄ hs₄ ↦ ?_
  rw [hcore] at hs₄
  have h₄ : Installing active w₀ generation all (done ++ [p]) done { j₁ with phase := .installed } s₄ :=
    ⟨h₃.underway.activate hne hs₄, (step_keepsJournal hs₄.1 rfl).trans h₃.journal, h₃.marked⟩
  refine ⟨h₄.durable hnext, safe_orExit (fun a hok ↦ ⟨h₄.durable hnext, ?_⟩)
    fun m _ ↦ h₄.safe_rollback hall ha⟩
  have hact₄ : Activated active p s₄ := by
    rw [hok] at hs₄
    exact .of_step (hinst.imp fun c hc ↦ hi₃.subset hc) hs₄
  refine safe_savePhase h₄ hnext ⟨?_, hm₁.status, rfl⟩ fun s₅ hi₅ h₅ ↦ ?_
  · exact hm₁.own.congr rfl rfl rfl
  -- from here on the transaction only observes the core
  refine (safe_checkHealth hall ha h₅).mono (fun _ ↦ id) (fun _ _ _ ↦ id)
    fun _ s₆ _ hs₆ ↦ ?_
  obtain ⟨hc₆, hhealthy⟩ := hs₆
  have h₆ := h₅.calm hc₆
  refine safe_calm rfl (h₆.durable hnext) fun listening s₇ hc₇ hm₇ ↦ ⟨(h₆.calm hc₇).durable hnext, ?_⟩
  rw [hcore] at hm₇
  have h₇ := h₆.calm hc₇
  refine safe_orExit (fun a hok ↦ ⟨h₇.durable hnext, ?_⟩) fun m _ ↦ h₇.safe_rollback hall ha
  rw [hok] at hm₇
  refine (safe_checkUsers hall ha h₇).mono (fun _ ↦ id) (fun _ _ _ ↦ id)
    fun _ s₈ _ hs₈ ↦ ?_
  obtain ⟨hc₈, hinSync⟩ := hs₈
  have h₈ := h₇.calm hc₈
  have hact₈ : Activated active p s₈ :=
    hact₄.inert (((hi₅.trans hc₆.inert).trans hc₇.inert).trans hc₈.inert)
  have hconv : Converged s₈.log p.id p.plan :=
    ⟨hact₈.installed, hact₈.activated, fun hf ↦ hc₈.inert.subset (hc₇.inert.subset (hhealthy hf)),
      hc₈.inert.subset hm₇, hinSync⟩
  refine safe_saveJournal (h₈.durable hnext) (fun s' hc ↦ (h₈.durable hnext).calm hc) fun s₉ hs₉ ↦ ?_
  have h₉ := h₈.verify ha hp hact₈ hconv rfl hs₉
  exact ⟨h₉.durable hnext, h₉.durable hnext, h₉⟩

end core

end StealthHub.Reconcile

import Mathlib.Logic.Relator
import StealthHub.Panel.Composable
import StealthHub.Reconcile.Handover

set_option autoImplicit false

namespace StealthHub.Panel

open Effect Effect.Program Reconcile Adapters

variable {r : Reconciler} {host : Host} {desired : DesiredState} {secrets : SecretResolver}
variable {applied : AppliedState} {plans : CorePlans} {s : PortHost}
variable {served served' provided provided' placements : List Placement}

theorem serves_unique : Relator.RightUnique fun profile placement ↦
    ∃ adapter, r.Serves host desired secrets profile placement adapter := by
  rintro profile ⟨core, fragment⟩ ⟨core', fragment'⟩ ⟨adapter, h⟩ ⟨adapter', h'⟩
  obtain rfl : adapter = adapter' := Option.some.inj (h.registered.symm.trans h'.registered)
  have hcore := Option.some.inj (Except.ok.inj (h.core.symm.trans h'.core))
  have hfragment := Except.ok.inj (h.fragment.symm.trans h'.fragment)
  exact Prod.ext hcore hfragment

theorem provides_unique : Relator.RightUnique r.Provides := by
  intro resource placement placement' h h'
  have hcore := Option.some.inj (h.core.symm.trans h'.core)
  exact Prod.ext hcore (h.fragment.trans h'.fragment.symm)

theorem holds_placed (h : r.Placed host desired secrets served provided)
    (hplans : (r.buildPlans desired secrets applied).under host = .ok plans) :
    Reconciler.Holds plans (served ++ provided) := by
  obtain ⟨served', provided', h', hholds⟩ := Reconciler.buildPlans_holds hplans
  have hserved := List.right_unique_forall₂' serves_unique h.profiles h'.profiles
  have hprovided := List.right_unique_forall₂' provides_unique h.infrastructure h'.infrastructure
  rwa [hserved, hprovided]

/-- What is placed has no listener that is held by a core of a greater identifier. -/
def PlacedInOrder (s : PortHost) (placements : List Placement) : Prop :=
  ∀ placement ∈ placements, ∀ claim ∈ placement.2.listeners, ∀ holder,
    s.owner claim = some holder → holder ≤ placement.1.manifest.id

theorem mem_planListeners (h : Reconciler.Holds plans placements) {id : String} {core : CoreAdapter}
    {plan : CorePlan} (hget : plans.get? id = some (core, plan)) {claim : ListenerClaim} :
    claim ∈ planListeners plan ↔
      ∃ placement ∈ placements, placement.1.manifest.id = id ∧ claim ∈ placement.2.listeners := by
  simp only [planListeners, h.fragments id core plan hget, List.mem_flatMap, List.mem_map,
    List.mem_filter, decide_eq_true_eq]
  constructor
  · rintro ⟨_, ⟨placement, ⟨hmem, hid⟩, rfl⟩, hclaim⟩
    exact ⟨placement, hmem, hid, hclaim⟩
  · rintro ⟨placement, hmem, hid, hclaim⟩
    exact ⟨_, ⟨placement, ⟨hmem, hid⟩, rfl⟩, hclaim⟩

theorem carried_owner {generation : ℕ} {t : PortHost} (h : Carried generation plans t)
    (hholds : Reconciler.Holds plans placements) {placement : Placement} (hmem : placement ∈ placements) {claim : ListenerClaim}
    (hclaim : claim ∈ placement.2.listeners) :
    t.owner claim = some placement.1.manifest.id := by
  obtain ⟨⟨other, plan⟩, hplanned⟩ := hholds.planned placement hmem
  rw [h.sound.bound, h.installed _ (OrderedMap.mem_entries.mpr hplanned)]
  exact (mem_planListeners hholds hplanned).mpr ⟨placement, hmem, rfl, hclaim⟩

theorem placed_inOrder_iff (h : Reconciler.Holds plans placements) :
    InOrder s plans ↔ PlacedInOrder s placements := by
  constructor
  · intro horder placement hmem claim hclaim
    obtain ⟨⟨core, plan⟩, hget⟩ := h.planned placement hmem
    refine horder _ (OrderedMap.mem_entries.mpr hget) claim ?_
    exact (mem_planListeners h hget).mpr ⟨placement, hmem, rfl, hclaim⟩
  · rintro hplaced ⟨id, core, plan⟩ he claim hclaim
    obtain ⟨placement, hmem, rfl, hlistens⟩ :=
      (mem_planListeners h (OrderedMap.mem_entries.mp he)).mp hclaim
    exact hplaced placement hmem claim hlistens

theorem plannable (hgraph : (r.validateGraph desired applied).under host = .ok ())
    (hplaced : r.Placed host desired secrets served provided)
    (hapart : ((served ++ provided).flatMap fun placement ↦ placement.2.listeners).Nodup) :
    ∃ plans, Reconcile.Plannable r host desired secrets applied plans := by
  obtain ⟨-, -, -, hprevious⟩ := Reconciler.validateGraph_ok.mp hgraph
  obtain ⟨plans, hplans⟩ := Reconciler.buildPlans_exists hplaced hprevious
  refine ⟨plans, hgraph, hplans, validateListenerPlan_ok.mpr ?_⟩
  exact (holds_placed hplaced hplans).claims.nodup_iff.mpr hapart

theorem ends_migration (hs : PortHost.Sound s) (hsmooth : host.Smooth)
    (hgraph : (r.validateGraph desired s.applied).under host = .ok ())
    (hplaced : r.Placed host desired secrets served provided)
    (hapart : ((served ++ provided).flatMap fun placement ↦ placement.2.listeners).Nodup) :
    (r.reconcile desired secrets).Ends (answer host) (fun _ _ ↦ False)
      (fun outcome _ ↦ outcome.status = .applied ↔
        desired.generation ≤ s.applied.generation ∨ PlacedInOrder s (served ++ provided)) s := by
  obtain ⟨plans, hplans⟩ := plannable hgraph hplaced hapart
  refine (ends_reconcile hsmooth hs).mono (fun _ _ ↦ id) ?_
  rintro outcome t ⟨hstatus, -⟩
  rw [hstatus, ← placed_inOrder_iff (holds_placed hplaced hplans.built)]
  refine or_congr_right ⟨?_, fun horder ↦ ⟨plans, hplans, horder⟩⟩
  rintro ⟨plans', hplans', horder⟩
  rwa [hplans'.unique hplans] at horder

/-- The cores take their listeners in the order of their identifiers, so a listener can move
to a core of a greater identifier only. -/
theorem reconcile_applied_iff (hsettled : PortHost.Settled s) (hsmooth : host.Smooth)
    (hgraph : (r.validateGraph desired s.applied).under host = .ok ())
    (hplaced : r.Placed host desired secrets served provided)
    (hapart : ((served ++ provided).flatMap fun placement ↦ placement.2.listeners).Nodup) :
    ∃ outcome, ((r.reconcile desired secrets).eval (answer host) s).1 = .ok outcome ∧
      (outcome.status = .applied ↔
        desired.generation ≤ s.applied.generation ∨ PlacedInOrder s (served ++ provided)) := by
  rcases (ends_migration hsettled.sound hsmooth hgraph hplaced hapart).eval with
    ⟨_, _, ⟨⟩⟩ | ⟨outcome, houtcome, hstatus⟩
  exact ⟨outcome, houtcome, hstatus⟩

section demonstration

def smoothHost : Host
  | .installed _ | .compatible _ _ | .desiredGenerationIsCurrent _ => .ok true
  | .validateConfig _ _ | .prepareTransactionDirectory _ | .createDirAll _ => .ok ()
  | .observeUsers _ _ => .ok (.inSync 0)
  | .cleanupTransactionDirectory _ => ()
  | .newOperationId | .now => ""
  | .loadApplied | .compareAndSetApplied _ _ | .loadJournal | .saveJournal _
  | .stageConfig _ _ _ | .snapshotConfig _ _ | .installConfig _ _ | .activateConfig _ _
  | .healthcheck _ _ | .verifyListeners _ _ | .rollbackConfig _ _ => .error "not asked"

theorem smoothHost_smooth : smoothHost.Smooth :=
  ⟨fun _ ↦ rfl, fun _ _ ↦ rfl, fun _ ↦ rfl, fun _ ↦ rfl, fun _ _ ↦ ⟨0, rfl⟩⟩

theorem smoothHost_runs (core : CoreAdapter) (required : Finset String) :
    smoothHost.Runs core required := ⟨rfl, rfl⟩

def singBoxCore : CoreAdapter :=
  ⟨(ManagedCoreAdapter.new "sing-box" "sing-box" "infiproxy-sing-box.service" .singBox
    singBoxCapabilities 50).manifest⟩

theorem singBox_registered : builtInCores.get singBoxCore.manifest.id = some singBoxCore :=
  builtInCores_get.mpr ⟨by simp [coreAdapters, builtInAdapters, singBoxCore], rfl⟩

theorem singBox_capable : {"hysteria2"} ⊆ singBoxCore.manifest.capabilities := by decide

theorem hysteria_registered : builtInCores.get hysteriaCore.manifest.id = some hysteriaCore :=
  builtInCores_get.mpr ⟨by simp [coreAdapters, builtInAdapters, hysteriaCore], rfl⟩

theorem hysteria_capable : {"hysteria2"} ⊆ hysteriaCore.manifest.capabilities := by decide

def preferring (core : String) : ProtocolProfile :=
  { hysteriaProfile "HYSTERIA" 8443 with preferredCoreId := some core }

def preferringDesired (generation : ℕ) (core : String) : DesiredState where
  generation := generation
  profiles := [preferring core]
  users := []
  settings := .empty
  infrastructure := []

theorem preferring_selected {core : CoreAdapter} (hget : builtInCores.get core.manifest.id = some core)
    (hcapable : {"hysteria2"} ⊆ core.manifest.capabilities) :
    (select builtInCores hysteria2.toAdapter.manifest.requiredCoreCapabilities
      (preferring core.manifest.id).preferredCoreId).under smoothHost = .ok (some core) :=
  select_preferred.mpr ⟨hget, hcapable, smoothHost_runs _ _⟩

theorem preferring_graph {core : CoreAdapter} {generation : ℕ}
    (hget : builtInCores.get core.manifest.id = some core)
    (hcapable : {"hysteria2"} ⊆ core.manifest.capabilities)
    (happlied : ∀ id ∈ applied.activeCoreIds, ∃ core, builtInCores.get id = some core) :
    (builtInReconciler.validateGraph (preferringDesired generation core.manifest.id) applied).under
      smoothHost = .ok () := by
  rw [Reconciler.validateGraph_ok, builtInReconciler_protocols, builtInReconciler_cores]
  refine ⟨by rfl, fun profile hmem ↦ ?_, nofun, happlied⟩
  rw [List.mem_singleton.mp (List.mem_of_mem_filter hmem)]
  exact ⟨_, core, hysteria2_registered, preferring_selected hget hcapable⟩

theorem preferring_placed {core : CoreAdapter} (generation : ℕ)
    (hget : builtInCores.get core.manifest.id = some core)
    (hcapable : {"hysteria2"} ⊆ core.manifest.capabilities) :
    ∃ fragment, fragment.listeners = [⟨.udp, 8443⟩] ∧
      builtInReconciler.Placed smoothHost (preferringDesired generation core.manifest.id)
        (fun _ ↦ .ok "value") [(core, fragment)] [] := by
  obtain ⟨fragment, hfragment⟩ : ∃ fragment, hysteria2.toAdapter.renderServer
      ⟨preferring core.manifest.id, [], fun _ ↦ .ok "value"⟩ = .ok fragment := ⟨_, rfl⟩
  have hserves : builtInReconciler.Serves smoothHost
      (preferringDesired generation core.manifest.id) (fun _ ↦ .ok "value")
      (preferring core.manifest.id) (core, fragment) hysteria2.toAdapter := by
    refine ⟨?_, rfl, ?_, hfragment⟩
    · rw [builtInReconciler_protocols]
      exact hysteria2_registered
    · rw [builtInReconciler_cores]
      exact preferring_selected hget hcapable
  refine ⟨fragment, ?_, .cons ⟨_, hserves⟩ .nil, .nil⟩
  cases hfragment
  rfl

theorem preferring_settled {core : CoreAdapter}
    (hget : builtInCores.get core.manifest.id = some core)
    (hcapable : {"hysteria2"} ⊆ core.manifest.capabilities) :
    ∃ s, PortHost.Settled s ∧ s.applied.generation = 1 ∧
      (∀ id ∈ s.applied.activeCoreIds, ∃ core, builtInCores.get id = some core) ∧
      s.owner ⟨.udp, 8443⟩ = some core.manifest.id := by
  obtain ⟨fragment, hlisteners, hplaced⟩ := preferring_placed 1 hget hcapable
  have hgraph : (builtInReconciler.validateGraph (preferringDesired 1 core.manifest.id)
      PortHost.idle.applied).under smoothHost = .ok () := preferring_graph hget hcapable nofun
  obtain ⟨plans, hplans⟩ := plannable hgraph hplaced (by simp [hlisteners])
  have horder : InOrder .idle plans := fun _ _ _ _ _ ↦ nofun
  rcases (ends_reconcile smoothHost_smooth PortHost.Settled.idle.sound).eval with
    ⟨_, _, ⟨⟩⟩ | ⟨outcome, houtcome, hstatus, hcarried⟩
  have happlied := hstatus.mpr (.inr ⟨plans, hplans, horder⟩)
  rcases hcarried happlied with ⟨hle, -⟩ | ⟨plans', hplans', hcarried⟩
  · exact absurd hle (Nat.not_succ_le_zero 0)
  obtain rfl := hplans.unique hplans'
  have hholds := holds_placed hplaced hplans.built
  refine ⟨_, .reconciled .idle smoothHost_smooth houtcome happlied, ?_, ?_, ?_⟩
  · rw [hcarried.applied]
    rfl
  · rw [hcarried.applied]
    intro id hid
    obtain ⟨⟨id, other, plan⟩, hentry, rfl⟩ := List.mem_map.mp hid
    obtain ⟨hentry, hnonempty⟩ := List.mem_filter.mp hentry
    rw [hholds.fragments id other plan (OrderedMap.mem_entries.mp hentry)] at hnonempty
    by_cases hid : core.manifest.id = id
    · exact hid ▸ ⟨core, hget⟩
    · simp [hid] at hnonempty
  · have hmem : (core, fragment) ∈ [(core, fragment)] ++ [] := by simp
    exact carried_owner hcarried hholds hmem (by simp [hlisteners])

theorem migration_rolled_back :
    ¬∀ (r : Reconciler) (host : Host) (desired : DesiredState) (secrets : SecretResolver)
      (s : PortHost) (served provided : List Placement), PortHost.Settled s → host.Smooth →
      (r.validateGraph desired s.applied).under host = .ok () →
      r.Placed host desired secrets served provided →
      ((served ++ provided).flatMap fun placement ↦ placement.2.listeners).Nodup →
      ∃ outcome, ((r.reconcile desired secrets).eval (answer host) s).1 = .ok outcome ∧
        outcome.status = .applied := by
  intro hall
  obtain ⟨s, hsettled, hgeneration, happlied, howner⟩ :=
    preferring_settled singBox_registered singBox_capable
  obtain ⟨fragment, hlisteners, hplaced⟩ := preferring_placed 2 hysteria_registered hysteria_capable
  have hgraph := @preferring_graph _ hysteriaCore 2 hysteria_registered hysteria_capable happlied
  have hapart : (([(hysteriaCore, fragment)] ++ []).flatMap
      fun placement : Placement ↦ placement.2.listeners).Nodup := by simp [hlisteners]
  obtain ⟨outcome, houtcome, hstatus⟩ := hall _ _ _ _ s _ _ hsettled smoothHost_smooth hgraph
    hplaced hapart
  rcases (ends_migration hsettled.sound smoothHost_smooth hgraph hplaced hapart).eval with
    ⟨_, _, ⟨⟩⟩ | ⟨outcome', houtcome', hiff⟩
  cases houtcome.symm.trans houtcome'
  rcases hiff.mp hstatus with hle | horder
  · rw [hgeneration] at hle
    exact absurd hle (by decide)
  · have hholder := horder (hysteriaCore, fragment) List.mem_cons_self ⟨.udp, 8443⟩
      (hlisteners ▸ List.mem_cons_self) _ howner
    have hlater : ¬"sing-box" ≤ "hysteria" := by decide
    exact hlater hholder

theorem reconcile_applied_preferring : ∃ s, PortHost.Settled s ∧
    s.owner ⟨.udp, 8443⟩ = some "hysteria" ∧
    ∃ outcome, ((builtInReconciler.reconcile (preferringDesired 2 "sing-box")
        fun _ ↦ .ok "value").eval (answer smoothHost) s).1 = .ok outcome ∧
      outcome.status = .applied := by
  obtain ⟨s, hsettled, -, happlied, howner⟩ :=
    preferring_settled hysteria_registered hysteria_capable
  obtain ⟨fragment, hlisteners, hplaced⟩ := preferring_placed 2 singBox_registered singBox_capable
  have hgraph := @preferring_graph _ singBoxCore 2 singBox_registered singBox_capable happlied
  have horder : PlacedInOrder s ([(singBoxCore, fragment)] ++ []) := by
    intro placement hplacement claim hclaim holder hholder
    cases List.mem_singleton.mp hplacement
    rw [hlisteners] at hclaim
    rw [List.mem_singleton.mp hclaim, howner] at hholder
    cases hholder
    show "hysteria" ≤ "sing-box"
    decide
  obtain ⟨outcome, houtcome, hstatus⟩ := reconcile_applied_iff hsettled smoothHost_smooth hgraph
    hplaced (by simp [hlisteners])
  exact ⟨s, hsettled, howner, outcome, houtcome, hstatus.mpr (.inr horder)⟩

end demonstration

end StealthHub.Panel

import StealthHub.Panel.Inventory
import StealthHub.Panel.Subscription
import StealthHub.Routing.Document

set_option autoImplicit false

namespace StealthHub.Panel

open Adapters Effect Effect.Program Reconcile Routing

def runtimeCapabilities (host : Host) (cores : CoreRegistry) : Finset String :=
  (cores.adapters.values.filter fun core ↦
      (host (.installed core.manifest.id)).toOption = some true).foldr
    (fun core capabilities ↦ core.manifest.capabilities ∪ capabilities) ∅

/-- The input of a subscription on a host. -/
def MihomoGenerationInput.on (input : MihomoGenerationInput) (host : Host) (cores : CoreRegistry) :
    MihomoGenerationInput :=
  { input with availableCoreCapabilities := some (runtimeCapabilities host cores) }

variable {host : Host} {cores : CoreRegistry} {registry : ProtocolRegistry}
variable {required : Finset String} {preferred : Option String} {profile : ProtocolProfile}
variable {adapter : ProtocolAdapter} {input : MihomoGenerationInput}
variable {output : MihomoGenerationOutput} {serialize : Value → Except String String}

theorem mem_union {capability : String} {adapters : List CoreAdapter} :
    capability ∈ adapters.foldr (fun core capabilities ↦
        core.manifest.capabilities ∪ capabilities) ∅ ↔
      ∃ core ∈ adapters, capability ∈ core.manifest.capabilities := by
  induction adapters with
  | nil => simp
  | cons core rest ih => rw [List.foldr_cons, Finset.mem_union, ih, List.exists_mem_cons_iff]

/-- Every capability is declared by some installed core. -/
def Covered (host : Host) (cores : CoreRegistry) (required : Finset String) : Prop :=
  ∀ capability ∈ required, ∃ id core, cores.get id = some core ∧
    host (.installed id) = .ok true ∧ capability ∈ core.manifest.capabilities

theorem covered_iff : required ⊆ runtimeCapabilities host cores ↔ Covered host cores required := by
  refine forall₂_congr fun capability _ ↦ ?_
  rw [runtimeCapabilities, mem_union]
  simp only [List.mem_filter, decide_eq_true_eq, Except.toOption_eq_some]
  constructor
  · rintro ⟨core, ⟨hmem, hinstalled⟩, hcapable⟩
    exact ⟨_, core, CoreRegistry.mem_values.mp hmem, hinstalled, hcapable⟩
  · rintro ⟨id, core, hget, hinstalled, hcapable⟩
    obtain rfl := cores.keyed _ _ hget
    exact ⟨core, ⟨CoreRegistry.mem_values.mpr hget, hinstalled⟩, hcapable⟩

/-- One core alone has what the profile needs, is compatible and installed, and if the profile
has no preference the host has an answer for every core before it. -/
def Deployable (host : Host) (cores : CoreRegistry) (required : Finset String) :
    Option String → Prop
  | some preferred => ∃ core, cores.get preferred = some core ∧
      required ⊆ core.manifest.capabilities ∧ host.Runs core required
  | none => host.Answers required (cores.compatible required) ∧
      ∃ core ∈ cores.compatible required, host.Runs core required

theorem deployable_iff : Deployable host cores required preferred ↔
    ∃ core, (select cores required preferred).under host = .ok (some core) := by
  cases preferred with
  | some id => exact exists_congr fun core ↦ select_preferred.symm
  | none => exact firstUsable_some.symm

theorem Deployable.covered (h : Deployable host cores required preferred) :
    Covered host cores required := by
  intro capability hcapability
  cases preferred with
  | some id =>
    obtain ⟨core, hget, hcapable, hruns⟩ := h
    exact ⟨_, core, cores.keyed _ _ hget ▸ hget, hruns.installed, hcapable hcapability⟩
  | none =>
    obtain ⟨-, core, hmem, hruns⟩ := h
    obtain ⟨hvalue, hcapable⟩ := CoreRegistry.mem_compatible.mp hmem
    exact ⟨_, core, CoreRegistry.mem_values.mp hvalue, hruns.installed, hcapable hcapability⟩

theorem mem_rendered (hmem : profile ∈ input.profiles) (henabled : profile.enabled = true)
    (hadapter : registry.get profile.protocolId = some adapter) :
    profile ∈ renderedProfiles (MihomoGenerationInput.on input host cores) registry ↔
      Covered host cores adapter.manifest.requiredCoreCapabilities := by
  rw [renderedProfiles, List.mem_filter, List.mem_filter, rendersProfile, hadapter,
    ← covered_iff]
  simp [MihomoGenerationInput.on, hmem, henabled]

theorem generate_rendered (h : generateMihomoYamlDetailed serialize input registry = .ok output) :
    List.Forall₂ (Renders input registry) (renderedProfiles input registry)
      output.document.proxies := by
  obtain ⟨rendered, pools, hrendered, -, -, hproxies, -⟩ := generate_steps h
  obtain ⟨proxies, hp, -, hrenders⟩ := renderProfiles_renders hrendered
  rwa [hproxies, hp]

/-- A subscription goes by the capabilities of all installed cores together: it offers what the
reconciler could deploy just where one usable core has them. -/
theorem servable_iff (h : generateMihomoYamlDetailed serialize
      (MihomoGenerationInput.on input host cores) registry = .ok output) :
    List.Forall₂ (Renders (MihomoGenerationInput.on input host cores) registry)
        (renderedProfiles (MihomoGenerationInput.on input host cores) registry)
        output.document.proxies ∧
      ∀ profile ∈ input.profiles, profile.enabled = true → ∀ adapter,
        registry.get profile.protocolId = some adapter →
          ((profile ∈ renderedProfiles (MihomoGenerationInput.on input host cores) registry ↔
              ∃ core, (select cores adapter.manifest.requiredCoreCapabilities
                profile.preferredCoreId).under host = .ok (some core)) ↔
            (Covered host cores adapter.manifest.requiredCoreCapabilities →
              Deployable host cores adapter.manifest.requiredCoreCapabilities
                profile.preferredCoreId)) := by
  refine ⟨generate_rendered h, fun profile hmem henabled adapter hadapter ↦ ?_⟩
  rw [mem_rendered hmem henabled hadapter, ← deployable_iff]
  exact ⟨Iff.mp, fun hserved ↦ ⟨hserved, Deployable.covered⟩⟩

section demonstration

def outdatedHost : Host
  | .compatible _ _ => .ok false
  | op => readyHost op

theorem tunnel_core : ∃ core, builtInCores.get "mihomo" = some core ∧
    {"trusttunnel-h2"} ⊆ core.manifest.capabilities := by
  obtain ⟨core, hcore, hid, hcapable⟩ : ∃ core ∈ coreAdapters, core.manifest.id = "mihomo" ∧
      {"trusttunnel-h2"} ⊆ core.manifest.capabilities := by decide
  exact ⟨core, builtInCores_get.mpr ⟨hcore, hid⟩, hcapable⟩

theorem tunnel_covered {host : Host} (h : host (.installed "mihomo") = .ok true) :
    Covered host builtInCores {"trusttunnel-h2"} := by
  obtain ⟨core, hget, hcapable⟩ := tunnel_core
  exact fun capability hcapability ↦ ⟨_, core, hget, h, hcapable hcapability⟩

theorem tunnel_on_generated {host : Host} (h : host (.installed "mihomo") = .ok true) :
    ∃ output, generateMihomoYamlDetailed (fun _ ↦ .ok "document")
      (MihomoGenerationInput.on (tunnelInput [tunnelProfile]) host builtInCores)
      builtInProtocols = .ok output :=
  tunnel_generated (covered_iff.mpr (tunnel_covered h))

theorem outdated_offered :
    ¬∀ (serialize : Value → Except String String) (host : Host) (cores : CoreRegistry)
      (registry : ProtocolRegistry) (input : MihomoGenerationInput)
      (output : MihomoGenerationOutput) (profile : ProtocolProfile) (adapter : ProtocolAdapter),
      generateMihomoYamlDetailed serialize (MihomoGenerationInput.on input host cores) registry =
        .ok output →
      profile ∈ input.profiles → profile.enabled = true →
      registry.get profile.protocolId = some adapter →
      (profile ∈ renderedProfiles (MihomoGenerationInput.on input host cores) registry ↔
        ∃ core, (select cores adapter.manifest.requiredCoreCapabilities
          profile.preferredCoreId).under host = .ok (some core)) := by
  intro hall
  obtain ⟨output, houtput⟩ := @tunnel_on_generated outdatedHost rfl
  have hmem : tunnelProfile ∈ (tunnelInput [tunnelProfile]).profiles := List.mem_cons_self
  have hrequired : trustTunnel.toAdapter.manifest.requiredCoreCapabilities = {"trusttunnel-h2"} :=
    rfl
  have hrendered : tunnelProfile ∈ renderedProfiles
      (MihomoGenerationInput.on (tunnelInput [tunnelProfile]) outdatedHost builtInCores)
      builtInProtocols ↔ _ := mem_rendered hmem rfl trustTunnel_registered
  obtain ⟨core, hselect⟩ := (hall _ outdatedHost builtInCores builtInProtocols
    (tunnelInput [tunnelProfile]) output tunnelProfile trustTunnel.toAdapter houtput
    hmem rfl trustTunnel_registered).mp (hrendered.mpr (hrequired ▸ tunnel_covered rfl))
  have hruns := (select_preferred.mp hselect).2.2
  cases hruns.compatible

theorem servable_tunnel : ∃ output : MihomoGenerationOutput,
      List.Forall₂ (Renders (MihomoGenerationInput.on (tunnelInput [tunnelProfile]) readyHost
          builtInCores) builtInProtocols)
        (renderedProfiles (MihomoGenerationInput.on (tunnelInput [tunnelProfile]) readyHost
          builtInCores) builtInProtocols) output.document.proxies ∧
      (tunnelProfile ∈ renderedProfiles (MihomoGenerationInput.on (tunnelInput [tunnelProfile])
          readyHost builtInCores) builtInProtocols ↔
        ∃ core, (select builtInCores {"trusttunnel-h2"}
          tunnelProfile.preferredCoreId).under readyHost = .ok (some core)) := by
  obtain ⟨output, houtput⟩ := @tunnel_on_generated readyHost rfl
  obtain ⟨hrendered, hserved⟩ := servable_iff houtput
  obtain ⟨core, hget, hcapable⟩ := tunnel_core
  have hdeployable : Deployable readyHost builtInCores {"trusttunnel-h2"}
      tunnelProfile.preferredCoreId := ⟨core, hget, hcapable, readyHost_runs _ _⟩
  exact ⟨output, hrendered, (hserved tunnelProfile List.mem_cons_self rfl trustTunnel.toAdapter
    trustTunnel_registered).mpr fun _ ↦ hdeployable⟩

end demonstration

end StealthHub.Panel

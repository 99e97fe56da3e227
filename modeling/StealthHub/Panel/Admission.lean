import StealthHub.Adapters.ProtocolsSpec
import StealthHub.Reconcile.Selection
import StealthHub.Storage.Profiles

set_option autoImplicit false

namespace StealthHub.Panel

open Effect Effect.Program Reconcile Storage Text

def validDisplayName (value : String) : Bool :=
  !isEmpty (trim value) && len (trim value) ≤ 96 && !(trim value).toList.any isControl

def networkName : ListenerNetwork → String
  | .tcp => "Tcp"
  | .udp => "Udp"

def validateReferences (references : List SecretRef) (secretNames : List String) :
    Except String Unit :=
  references.forM fun reference ↦
    if secretNames.contains reference.name then .ok ()
    else .error ("required secret reference `" ++ reference.name ++ "` is missing")

def validateRuntime (cores : CoreRegistry) (required : Finset String) (preferred : Option String) :
    Except String Unit :=
  match preferred with
  | some preferred => do
    let runtime ← (cores.get preferred).elim
      (.error "preferred runtime adapter is missing") .ok
    if required ⊆ runtime.manifest.capabilities then .ok ()
    else .error "preferred runtime does not provide the required capability"
  | none =>
    if ∃ runtime ∈ cores.adapters.values, required ⊆ runtime.manifest.capabilities then .ok ()
    else .error "no runtime adapter provides the required capability"

def validateListener (protocols : ProtocolRegistry) (existing : List ProtocolProfile)
    (candidate : ProtocolProfile) (network : ListenerNetwork) : Except String Unit :=
  (existing.filter fun profile ↦ profile.enabled ∧ profile.name ≠ candidate.name).forM
    fun profile ↦
      match protocols.get profile.protocolId with
      | none => .ok ()
      | some other =>
        if profile.port = candidate.port ∧ other.manifest.listenerNetwork = network then
          .error ("listener conflict with profile `" ++ profile.name ++ "` on " ++
            networkName network ++ "/" ++ toString candidate.port)
        else .ok ()

def validateProfileCandidate (candidate : ProtocolProfile) (existing : List ProtocolProfile)
    (protocols : ProtocolRegistry) (cores : CoreRegistry) (secretNames : List String) :
    Program Reply String Unit := do
  Program.lift (if validDisplayName candidate.displayName then .ok ()
    else .error "display name is invalid or too long")
  let adapter ← context "protocol adapter is not installed" (protocols.get candidate.protocolId)
  Program.lift (adapter.validateConfig candidate.schemaVersion candidate.config)
  let references ← Program.lift (adapter.secretReferences candidate.config)
  Program.lift (validateReferences references secretNames)
  let required := adapter.manifest.requiredCoreCapabilities
  Program.lift (validateRuntime cores required candidate.preferredCoreId)
  if candidate.enabled then
    Program.lift
      (validateListener protocols existing candidate adapter.manifest.listenerNetwork)
    let selected ← select cores required candidate.preferredCoreId
    let _ ← context "no compatible installed runtime is available" selected
    pure ()
  else pure ()

/-- The candidate against what the panel has stored. -/
def validateProfileForPublish (json : Json) (db : Database) (protocols : ProtocolRegistry)
    (cores : CoreRegistry) (candidate : ProtocolProfile) : Program Reply String Unit := do
  let profiles ← Program.lift (listProtocolProfilesDecoded json db)
  validateProfileCandidate candidate profiles protocols cores (listSecretNames db)

variable {candidate profile : ProtocolProfile} {existing : List ProtocolProfile}
variable {protocols : ProtocolRegistry} {cores : CoreRegistry} {secretNames : List String}
variable {host : Host} {adapter other : ProtocolAdapter} {core : CoreAdapter}
variable {references : List SecretRef} {required : Finset String} {network : ListenerNetwork}
variable {json : Json} {db : Database}

theorem mem_secretReferences {config : Value} (h : adapter.secretReferences config = .ok references) :
    ∃ client server, adapter.clientSecretReferences config = .ok client ∧
      adapter.serverSecretReferences config = .ok server ∧
      ∀ reference, reference ∈ references ↔ reference ∈ client ∨ reference ∈ server := by
  obtain ⟨client, hclient, h⟩ := Except.bind_eq_ok.mp h
  obtain ⟨server, hserver, h⟩ := Except.bind_eq_ok.mp h
  cases Except.pure_eq_ok.mp h
  refine ⟨client, server, hclient, hserver, fun reference ↦ ?_⟩
  rw [List.mem_dedup, List.mem_insertionSort, List.mem_append]

theorem secretReferences_ok {config : Value} {client server : List SecretRef}
    (hclient : adapter.clientSecretReferences config = .ok client)
    (hserver : adapter.serverSecretReferences config = .ok server) :
    ∃ references, adapter.secretReferences config = .ok references :=
  ⟨_, Except.bind_eq_ok.mpr ⟨client, hclient, Except.bind_eq_ok.mpr ⟨server, hserver, rfl⟩⟩⟩

theorem validateReferences_ok : validateReferences references secretNames = .ok () ↔
    ∀ reference ∈ references, reference.name ∈ secretNames := by
  rw [validateReferences, Except.forM_eq_ok]
  refine forall₂_congr fun reference _ ↦ ?_
  by_cases h : reference.name ∈ secretNames
  · simp [h]
  · simp [h]

theorem validateRuntime_preferred {id : String} :
    validateRuntime cores required (some id) = .ok () ↔
      ∃ core, cores.get id = some core ∧ required ⊆ core.manifest.capabilities := by
  rw [validateRuntime, Except.bind_eq_ok]
  refine exists_congr fun core ↦ and_congr Except.elim_eq_ok ?_
  split_ifs with h
  · simp [h]
  · simp [h]

theorem validateRuntime_any : validateRuntime cores required none = .ok () ↔
    ∃ core ∈ cores.adapters.values, required ⊆ core.manifest.capabilities := by
  simp only [validateRuntime]
  split_ifs with h
  · exact iff_of_true rfl h
  · exact iff_of_false nofun h

/-- Another enabled profile that listens where the candidate does. -/
structure Conflicts (protocols : ProtocolRegistry) (network : ListenerNetwork)
    (candidate profile : ProtocolProfile) : Prop where
  enabled : profile.enabled
  other : profile.name ≠ candidate.name
  port : profile.port = candidate.port
  network : ∃ adapter, protocols.get profile.protocolId = some adapter ∧
    adapter.manifest.listenerNetwork = network

theorem validateListener_ok : validateListener protocols existing candidate network = .ok () ↔
    ∀ profile ∈ existing, ¬Conflicts protocols network candidate profile := by
  rw [validateListener, Except.forM_eq_ok]
  simp only [List.mem_filter, decide_eq_true_eq, and_imp]
  refine forall₂_congr fun profile _ ↦ ?_
  constructor
  · intro h hconflict
    obtain ⟨adapter, hadapter, hnetwork⟩ := hconflict.network
    have hok := h hconflict.enabled hconflict.other
    simp [hadapter, hconflict.port, hnetwork] at hok
  · intro h henabled hother
    cases hadapter : protocols.get profile.protocolId with
    | none => rfl
    | some adapter =>
      refine if_neg ?_
      intro ⟨hport, hnetwork⟩
      exact h ⟨henabled, hother, hport, adapter, hadapter, hnetwork⟩

/-- What the panel has seen of a candidate that it accepts. -/
structure Admitted (host : Host) (protocols : ProtocolRegistry) (cores : CoreRegistry)
    (existing : List ProtocolProfile) (secretNames : List String) (candidate : ProtocolProfile)
    (adapter : ProtocolAdapter) : Prop where
  displayName : validDisplayName candidate.displayName
  registered : protocols.get candidate.protocolId = some adapter
  config : adapter.validateConfig candidate.schemaVersion candidate.config = .ok ()
  secrets : ∃ references, adapter.secretReferences candidate.config = .ok references ∧
    ∀ reference ∈ references, reference.name ∈ secretNames
  runtime : validateRuntime cores adapter.manifest.requiredCoreCapabilities
    candidate.preferredCoreId = .ok ()
  listener : candidate.enabled → ∀ profile ∈ existing,
    ¬Conflicts protocols adapter.manifest.listenerNetwork candidate profile
  core : candidate.enabled → ∃ core, (select cores adapter.manifest.requiredCoreCapabilities
    candidate.preferredCoreId).under host = .ok (some core)

theorem validateCandidate_ok :
    (validateProfileCandidate candidate existing protocols cores secretNames).under host = .ok () ↔
      ∃ adapter, Admitted host protocols cores existing secretNames candidate adapter := by
  simp only [validateProfileCandidate, bind_eq, under_bind_ok, under_lift, context_under]
  constructor
  · rintro ⟨⟨⟩, hname, adapter, hadapter, ⟨⟩, hconfig, references, hreferences, ⟨⟩, hsecrets, ⟨⟩,
      hruntime, h⟩
    have hdisplay : validDisplayName candidate.displayName := by
      by_contra hnot
      simp [hnot] at hname
    refine ⟨adapter, hdisplay, hadapter, hconfig,
      ⟨references, hreferences, validateReferences_ok.mp hsecrets⟩, hruntime, ?_, ?_⟩
    · intro henabled
      rw [if_pos henabled] at h
      obtain ⟨⟨⟩, hlistener, -⟩ := under_bind_ok.mp h
      rw [under_lift] at hlistener
      exact validateListener_ok.mp hlistener
    · intro henabled
      rw [if_pos henabled] at h
      obtain ⟨⟨⟩, -, h⟩ := under_bind_ok.mp h
      obtain ⟨selected, hselected, h⟩ := under_bind_ok.mp h
      obtain ⟨core, hcore, -⟩ := under_bind_ok.mp h
      rw [context_under] at hcore
      exact ⟨core, hcore ▸ hselected⟩
  · rintro ⟨adapter, h⟩
    obtain ⟨references, hreferences, hsecrets⟩ := h.secrets
    refine ⟨(), if_pos h.displayName, adapter, h.registered, (), h.config, references, hreferences,
      (), validateReferences_ok.mpr hsecrets, (), h.runtime, ?_⟩
    split_ifs with henabled
    · obtain ⟨core, hcore⟩ := h.core henabled
      refine under_bind_ok.mpr ⟨(), ?_, under_bind_ok.mpr ⟨some core, hcore, rfl⟩⟩
      rw [under_lift]
      exact validateListener_ok.mpr (h.listener henabled)
    · rfl

theorem validateForPublish_ok :
    (validateProfileForPublish json db protocols cores candidate).under host = .ok () ↔
      ∃ existing, listProtocolProfilesDecoded json db = .ok existing ∧ ∃ adapter,
        Admitted host protocols cores existing (listSecretNames db) candidate adapter := by
  simp only [validateProfileForPublish, bind_eq, under_bind_ok, under_lift, validateCandidate_ok]

end StealthHub.Panel

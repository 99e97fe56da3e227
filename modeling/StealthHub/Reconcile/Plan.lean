import Mathlib.Data.Finset.Basic
import StealthHub.Reconcile.Host

set_option autoImplicit false

namespace StealthHub.Reconcile

open Effect Text

structure Reconciler where
  protocols : ProtocolRegistry
  cores : CoreRegistry
  transactionRoot : Path

abbrev CorePlans := OrderedMap String (CoreAdapter × CorePlan)

def ask {α : Type} (p : Program Reply String (Except String α)) : Program Reply String α :=
  p.bind Program.lift

def context {α : Type} (message : String) : Option α → Program Reply String α
  | some a => .done a
  | none => .fail message

/-- Declares support and is installed; the second question is only asked after
a positive first answer. -/
def usable (adapter : CoreAdapter) (required : Finset String) : Program Reply String Bool := do
  let compatible ← ask (Program.request (Op.compatible adapter.manifest.id required))
  if compatible then ask (Program.request (Op.installed adapter.manifest.id)) else pure false

def firstUsable (required : Finset String) :
    List CoreAdapter → Program Reply String (Option CoreAdapter)
  | [] => pure none
  | adapter :: rest => do
    if ← usable adapter required then pure (some adapter) else firstUsable required rest

/-- Selects an installed compatible runtime, honoring a desired preference. -/
def select (registry : CoreRegistry) (required : Finset String) (preferred : Option String) :
    Program Reply String (Option CoreAdapter) :=
  match preferred with
  | some preferred => do
    let adapter ← context "preferred core adapter is missing" (registry.get preferred)
    if required ⊆ adapter.manifest.capabilities then
      if ← usable adapter required then pure (some adapter)
      else .fail "preferred core adapter is incompatible or not installed"
    else .fail "preferred core adapter is incompatible or not installed"
  | none => firstUsable required (registry.compatible required)

def validateResourceId (value : String) : Except String Unit :=
  if isEmpty value ∨ 128 < len value ∨
      ¬(value.toList.all fun c ↦ isAsciiAlphanumeric c || c = '-' || c = '_') then
    .error "invalid managed resource ID"
  else .ok ()

/-- Depth-first search along dependencies. `fuel` bounds the depth, which the
number of resources bounds: every level adds one to the set being visited. -/
def visit (resources : OrderedMap String InfrastructureResource) :
    ℕ → Finset String × Finset String → String → Except String (Finset String × Finset String)
  | 0, _, _ => .error "infrastructure dependency cycle"
  | fuel + 1, (visiting, visited), id =>
    if id ∈ visited then .ok (visiting, visited)
    else if id ∈ visiting then .error "infrastructure dependency cycle"
    else do
      let dependencies := ((resources.get? id).map InfrastructureResource.dependencies).getD []
      let (visiting, visited) ←
        dependencies.foldlM (visit resources fuel) (insert id visiting, visited)
      .ok (visiting.erase id, insert id visited)

def validateInfrastructureDependencies (resources : List InfrastructureResource) :
    Except String Unit := do
  let active := resources.filter InfrastructureResource.enabled
  let enabled := OrderedMap.ofList (active.map fun resource ↦ (resource.resourceId, resource))
  if enabled.entries.length ≠ active.length then .error "duplicate infrastructure resource ID"
  else if enabled.values.any fun resource ↦
      resource.dependencies.any fun dependency ↦ !enabled.contains dependency then
    .error "infrastructure dependency is missing or disabled"
  else
    let _ ← enabled.keys.foldlM (visit enabled (enabled.entries.length + 1)) (∅, ∅)
    .ok ()

def validateListenerPlan (plans : CorePlans) : Except String Unit :=
  let claims := plans.values.flatMap fun entry ↦
    entry.2.fragments.flatMap ServerFragment.listeners
  if claims.Nodup then .ok () else .error "multiple resources claim the same listener"

namespace Reconciler

variable (r : Reconciler)

def validateProfile (profile : ProtocolProfile) : Program Reply String Unit := do
  let protocol ← context "desired protocol adapter is missing"
    (r.protocols.get profile.protocolId)
  let core ← select r.cores protocol.manifest.requiredCoreCapabilities profile.preferredCoreId
  let _ ← context "no installed core satisfies desired capabilities" core

def validateGraph (desired : DesiredState) (applied : AppliedState) :
    Program Reply String Unit := do
  Program.lift (validateInfrastructureDependencies desired.infrastructure)
  (desired.profiles.filter ProtocolProfile.enabled).foldlM
    (fun _ profile ↦ r.validateProfile profile) ()
  (desired.infrastructure.filter InfrastructureResource.enabled).foldlM
    (fun _ resource ↦ do
      let _ ← context "desired infrastructure adapter is missing"
        (r.cores.get resource.adapterId)) ()
  applied.activeCoreIds.foldlM
    (fun _ coreId ↦ do
      let _ ← context "previously applied core adapter is missing" (r.cores.get coreId)) ()

abbrev Fragments := OrderedMap String (CoreAdapter × List ServerFragment)

def pushFragment (fragments : Fragments) (coreId : String) (core : CoreAdapter)
    (fragment : ServerFragment) : Fragments :=
  match fragments.get? coreId with
  | some (core, rest) => fragments.insert coreId (core, rest ++ [fragment])
  | none => fragments.insert coreId (core, [fragment])

def planProfile (desired : DesiredState) (secrets : SecretResolver) (fragments : Fragments)
    (profile : ProtocolProfile) : Program Reply String Fragments := do
  let protocol ← context ("protocol adapter `" ++ profile.protocolId ++ "` is missing")
    (r.protocols.get profile.protocolId)
  Program.lift (protocol.validateConfig profile.schemaVersion profile.config)
  let selected ← select r.cores protocol.manifest.requiredCoreCapabilities profile.preferredCoreId
  let core ← context "no installed core satisfies protocol capabilities" selected
  let fragment ← Program.lift (protocol.renderServer ⟨profile, desired.users, secrets⟩)
  pure (pushFragment fragments core.manifest.id core fragment)

def planInfrastructure (fragments : Fragments) (resource : InfrastructureResource) :
    Program Reply String Fragments := do
  Program.lift (validateResourceId resource.resourceId)
  if resource.schemaVersion = 0 ∨ !resource.config.isObject then
    .fail "invalid infrastructure resource schema"
  else
    let adapter ← context ("infrastructure adapter `" ++ resource.adapterId ++ "` is missing")
      (r.cores.get resource.adapterId)
    pure (pushFragment fragments resource.adapterId adapter
      { profileId := resource.resourceId
        capability := resource.adapterId
        payload := resource.config
        expectedUserIds := none
        listeners := resource.listeners })

def planPrevious (fragments : Fragments) (coreId : String) : Program Reply String Fragments :=
  if fragments.contains coreId then pure fragments
  else do
    let core ← context ("previously applied core `" ++ coreId ++ "` is missing")
      (r.cores.get coreId)
    pure (fragments.insert coreId (core, []))

def buildPlans (desired : DesiredState) (secrets : SecretResolver) (applied : AppliedState) :
    Program Reply String CorePlans := do
  let fragments ← (desired.profiles.filter ProtocolProfile.enabled).foldlM
    (r.planProfile desired secrets) OrderedMap.empty
  let fragments ← (desired.infrastructure.filter InfrastructureResource.enabled).foldlM
    r.planInfrastructure fragments
  let fragments ← applied.activeCoreIds.foldlM r.planPrevious fragments
  pure (fragments.mapValues fun coreId entry ↦ (entry.1, ⟨desired.generation, coreId, entry.2⟩))

end Reconciler

end StealthHub.Reconcile

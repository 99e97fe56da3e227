import Mathlib.Data.Finset.Insert
import Mathlib.Data.Finset.Lattice.Basic
import Mathlib.Data.List.Sort
import StealthHub.Data.Result
import StealthHub.Data.Text
import StealthHub.Models

set_option autoImplicit false

namespace StealthHub

open Text

def adapterApiVersion : ℕ := 1

def validAdapterId (value : String) : Bool :=
  !isEmpty value && len value ≤ 64 &&
    (value.toList.all fun c ↦ isAsciiLowercase c || isAsciiDigit c || c = '-') &&
    (value.toList.head?.any isAsciiLowercase)

inductive AdapterMaturity
  | stable
  | experimental
  | unsupported
  deriving DecidableEq

structure ProtocolComposition where
  protocol : String
  transport : String
  security : String
  flow : Option String
  maturity : AdapterMaturity
  /-- The adapter of the preferred server runtime. -/
  preferredRuntime : Option String

/-- How subscription users participate in one protocol runtime. -/
inductive UserParticipation
  | none
  | sharedCredential
  | perUserUuid
  deriving DecidableEq

def UserParticipation.requiresIndividualUsers (participation : UserParticipation) : Bool :=
  participation = .perUserUuid

structure ProtocolAdapterManifest where
  apiVersion : ℕ
  id : String
  displayName : String
  schemaVersion : ℕ
  requiredCoreCapabilities : Finset String
  userParticipation : UserParticipation
  listenerNetwork : ListenerNetwork
  composition : ProtocolComposition

structure CoreAdapterManifest where
  apiVersion : ℕ
  id : String
  displayName : String
  capabilities : Finset String
  service : String
  selectionPriority : Int

def validSecretRef (value : String) : Bool :=
  !isEmpty value && len value ≤ 128 &&
    value.toList.all fun c ↦ isAsciiAlphanumeric c || c = '.' || c = '_' || c = '-'

/-- Secret reference stored in desired state instead of plaintext material. -/
structure SecretRef where
  name : String
  valid : validSecretRef name
  deriving DecidableEq

def SecretRef.parse (value : String) : Except String SecretRef :=
  if h : validSecretRef value then .ok ⟨value, h⟩ else .error "invalid secret reference"

def secretValue (value : String) : Except String String :=
  if isEmpty (trim value) ∨ startsWith (trim value) "REPLACE_WITH_" then
    .error "secret is not configured"
  else .ok (trim value)

/-- Resolves a secret reference to its value. -/
abbrev SecretResolver := String → Except String String

structure ClientRenderContext where
  profile : ProtocolProfile
  user : SubscriptionUser
  secrets : SecretResolver

structure ServerRenderContext where
  profile : ProtocolProfile
  users : List SubscriptionUser
  secrets : SecretResolver

/-- The behaviour of one protocol behind its adapter interface. -/
structure ProtocolAdapter where
  manifest : ProtocolAdapterManifest
  validateConfig : ℕ → Value → Except String Unit
  migrateConfig : ℕ → Value → Except String (ℕ × Value)
  clientSecretReferences : Value → Except String (List SecretRef)
  serverSecretReferences : Value → Except String (List SecretRef)
  /-- The server references that only the privileged worker may resolve. -/
  serverOnlySecretReferences : Value → Except String (List SecretRef) := fun _ ↦ .ok []
  renderClient : ClientRenderContext → Except String Value
  renderServer : ServerRenderContext → Except String ServerFragment

def ProtocolAdapter.secretReferences (adapter : ProtocolAdapter) (config : Value) :
    Except String (List SecretRef) := do
  let client ← adapter.clientSecretReferences config
  let server ← adapter.serverSecretReferences config
  return ((client ++ server).insertionSort fun a b ↦ a.name ≤ b.name).dedup

/-- A core adapter acts on the host, so here it is its manifest alone. -/
structure CoreAdapter where
  manifest : CoreAdapterManifest

def validCompositionValue (value : String) : Bool :=
  !isEmpty value && len value ≤ 64 &&
    (value.toList.all fun c ↦ isAsciiAlphanumeric c || c = '-' || c = '_' || c = '+' || c = '.')

def validateCapabilities (capabilities : Finset String) : Except String Unit :=
  if ∀ capability ∈ capabilities, validAdapterId capability then .ok ()
  else .error "invalid adapter capability"

def validateProtocolManifest (manifest : ProtocolAdapterManifest) : Except String Unit :=
  if manifest.apiVersion ≠ adapterApiVersion ∨ !validAdapterId manifest.id ∨
      isEmpty (trim manifest.displayName) ∨ manifest.schemaVersion = 0 ∨
      manifest.requiredCoreCapabilities = ∅ ∨
      !validCompositionValue manifest.composition.protocol ∨
      !validCompositionValue manifest.composition.transport ∨
      !validCompositionValue manifest.composition.security ∨
      (manifest.composition.flow.any fun value ↦ !validCompositionValue value) ∨
      manifest.composition.maturity = .unsupported then
    .error "invalid protocol adapter manifest"
  else validateCapabilities manifest.requiredCoreCapabilities

def validateCoreManifest (manifest : CoreAdapterManifest) : Except String Unit :=
  if manifest.apiVersion ≠ adapterApiVersion ∨ !validAdapterId manifest.id ∨
      isEmpty (trim manifest.displayName) ∨ manifest.capabilities = ∅ ∨
      isEmpty (trim manifest.service) ∨
      ¬(-1000 ≤ manifest.selectionPriority ∧ manifest.selectionPriority ≤ 1000) then
    .error "invalid core adapter manifest"
  else validateCapabilities manifest.capabilities

section registration

variable {R A : Type} {find : R → String → Option A} {key : A → String}
variable {register : R → A → Except String R}

theorem find_registered
    (hregister : ∀ r a r', register r a = .ok r' → find r (key a) = none ∧
      ∀ id, find r' id = if key a = id then some a else find r id)
    {adapters : List A} {r r' : R} (h : adapters.foldlM register r = .ok r') (id : String)
    (a : A) : find r' id = some a ↔ find r id = some a ∨ a ∈ adapters ∧ key a = id := by
  induction adapters generalizing r with
  | nil =>
    cases Except.pure_eq_ok.mp h
    simp
  | cons b rest ih =>
    rw [List.foldlM_cons] at h
    obtain ⟨middle, hstep, h⟩ := Except.bind_eq_ok.mp h
    obtain ⟨habsent, hfind⟩ := hregister r b middle hstep
    rw [ih h, hfind]
    by_cases hb : key b = id
    · subst hb
      simp only [if_true, habsent, Option.some.injEq, List.mem_cons]
      constructor
      · intro h
        rcases h with rfl | ⟨hmem, hkey⟩
        · exact .inr ⟨.inl rfl, rfl⟩
        · exact .inr ⟨.inr hmem, hkey⟩
      · intro h
        rcases h with h | ⟨rfl | hmem, hkey⟩
        · cases h
        · exact .inl rfl
        · exact .inr ⟨hmem, hkey⟩
    · simp only [if_neg hb, List.mem_cons]
      constructor
      · intro h
        rcases h with h | ⟨hmem, hkey⟩
        · exact .inl h
        · exact .inr ⟨.inr hmem, hkey⟩
      · intro h
        rcases h with h | ⟨rfl | hmem, hkey⟩
        · exact .inl h
        · exact absurd hkey hb
        · exact .inr ⟨hmem, hkey⟩

end registration

/-- Protocol adapters by the identifier of their manifest. -/
structure ProtocolRegistry where
  adapters : OrderedMap String ProtocolAdapter
  keyed : ∀ id adapter, adapters.get? id = some adapter → adapter.manifest.id = id

namespace ProtocolRegistry

def empty : ProtocolRegistry := ⟨.empty, by simp⟩

def get (registry : ProtocolRegistry) (id : String) : Option ProtocolAdapter :=
  registry.adapters.get? id

theorem keyed_insert (registry : ProtocolRegistry) (adapter : ProtocolAdapter) (id : String)
    (other : ProtocolAdapter)
    (h : (registry.adapters.insert adapter.manifest.id adapter).get? id = some other) :
    other.manifest.id = id := by
  rw [OrderedMap.get?_insert] at h
  split_ifs at h with he
  · rw [← Option.some.inj h, he]
  · exact registry.keyed id other h

def add (registry : ProtocolRegistry) (adapter : ProtocolAdapter) : ProtocolRegistry :=
  ⟨registry.adapters.insert adapter.manifest.id adapter, registry.keyed_insert adapter⟩

def register (registry : ProtocolRegistry) (adapter : ProtocolAdapter) :
    Except String ProtocolRegistry := do
  validateProtocolManifest adapter.manifest
  if registry.adapters.contains adapter.manifest.id then
    .error "duplicate protocol adapter ID"
  else
    .ok (registry.add adapter)

theorem get_of_register {registry registry' : ProtocolRegistry} {adapter : ProtocolAdapter}
    (h : registry.register adapter = .ok registry') :
    registry.get adapter.manifest.id = none ∧ ∀ id, registry'.get id =
      if adapter.manifest.id = id then some adapter else registry.get id := by
  obtain ⟨⟨⟩, -, h⟩ := Except.bind_eq_ok.mp h
  split_ifs at h with habsent
  cases h
  refine ⟨?_, fun id ↦ OrderedMap.get?_insert _ _ _ _⟩
  simpa [OrderedMap.contains, get] using habsent

theorem get_registered {adapters : List ProtocolAdapter} {registry registry' : ProtocolRegistry}
    (h : adapters.foldlM register registry = .ok registry') {id : String}
    {adapter : ProtocolAdapter} : registry'.get id = some adapter ↔
      registry.get id = some adapter ∨ adapter ∈ adapters ∧ adapter.manifest.id = id :=
  find_registered (fun _ _ _ ↦ get_of_register) h id adapter

end ProtocolRegistry

/-- Core adapters by the identifier of their manifest. -/
structure CoreRegistry where
  adapters : OrderedMap String CoreAdapter
  keyed : ∀ id adapter, adapters.get? id = some adapter → adapter.manifest.id = id

namespace CoreRegistry

def empty : CoreRegistry := ⟨.empty, by simp⟩

def get (registry : CoreRegistry) (id : String) : Option CoreAdapter := registry.adapters.get? id

theorem keyed_insert (registry : CoreRegistry) (adapter : CoreAdapter) (id : String)
    (other : CoreAdapter)
    (h : (registry.adapters.insert adapter.manifest.id adapter).get? id = some other) :
    other.manifest.id = id := by
  rw [OrderedMap.get?_insert] at h
  split_ifs at h with he
  · rw [← Option.some.inj h, he]
  · exact registry.keyed id other h

def add (registry : CoreRegistry) (adapter : CoreAdapter) : CoreRegistry :=
  ⟨registry.adapters.insert adapter.manifest.id adapter, registry.keyed_insert adapter⟩

def register (registry : CoreRegistry) (adapter : CoreAdapter) : Except String CoreRegistry := do
  validateCoreManifest adapter.manifest
  if registry.adapters.contains adapter.manifest.id then
    .error "duplicate core adapter ID"
  else
    .ok (registry.add adapter)

theorem get_of_register {registry registry' : CoreRegistry} {adapter : CoreAdapter}
    (h : registry.register adapter = .ok registry') :
    registry.get adapter.manifest.id = none ∧ ∀ id, registry'.get id =
      if adapter.manifest.id = id then some adapter else registry.get id := by
  obtain ⟨⟨⟩, -, h⟩ := Except.bind_eq_ok.mp h
  split_ifs at h with habsent
  cases h
  refine ⟨?_, fun id ↦ OrderedMap.get?_insert _ _ _ _⟩
  simpa [OrderedMap.contains, get] using habsent

theorem get_registered {adapters : List CoreAdapter} {registry registry' : CoreRegistry}
    (h : adapters.foldlM register registry = .ok registry') {id : String}
    {adapter : CoreAdapter} : registry'.get id = some adapter ↔
      registry.get id = some adapter ∨ adapter ∈ adapters ∧ adapter.manifest.id = id :=
  find_registered (fun _ _ _ ↦ get_of_register) h id adapter

/-- Adapters that declare the capabilities, the highest priority first and
adapters of equal priority in the order of their identifiers. -/
def compatible (registry : CoreRegistry) (required : Finset String) : List CoreAdapter :=
  (registry.adapters.values.filter fun adapter ↦
    required ⊆ adapter.manifest.capabilities).insertionSort fun a b ↦
      b.manifest.selectionPriority ≤ a.manifest.selectionPriority

theorem mem_compatible {registry : CoreRegistry} {required : Finset String} {core : CoreAdapter} :
    core ∈ registry.compatible required ↔
      core ∈ registry.adapters.values ∧ required ⊆ core.manifest.capabilities := by
  rw [compatible, List.mem_insertionSort, List.mem_filter, decide_eq_true_eq]

end CoreRegistry

end StealthHub

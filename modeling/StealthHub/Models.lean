import Mathlib.Data.Finset.Insert
import StealthHub.Data.OrderedMap

set_option autoImplicit false

namespace StealthHub

/-- Opaque adapter-owned JSON. -/
inductive Value
  | null
  | bool (value : Bool)
  | number (value : Int)
  | string (value : String)
  | array (items : List Value)
  | object (fields : List (String × Value))

def Value.isObject : Value → Bool
  | .object _ => true
  | _ => false

namespace Value

mutual

def same : Value → Value → Bool
  | .null, .null => true
  | .bool a, .bool b => a = b
  | .number a, .number b => a = b
  | .string a, .string b => a = b
  | .array as, .array bs => sameItems as bs
  | .object as, .object bs => sameFields as bs
  | _, _ => false

def sameItems : List Value → List Value → Bool
  | [], [] => true
  | a :: as, b :: bs => same a b && sameItems as bs
  | _, _ => false

def sameFields : List (String × Value) → List (String × Value) → Bool
  | [], [] => true
  | (m, a) :: as, (n, b) :: bs => m = n && same a b && sameFields as bs
  | _, _ => false

end

mutual

theorem same_iff : (a b : Value) → (same a b = true ↔ a = b)
  | .null, b => by cases b <;> simp [same]
  | .bool a, b => by cases b <;> simp [same]
  | .number a, b => by cases b <;> simp [same]
  | .string a, b => by cases b <;> simp [same]
  | .array as, b => by cases b <;> simp [same, sameItems_iff]
  | .object as, b => by cases b <;> simp [same, sameFields_iff]

theorem sameItems_iff : (as bs : List Value) → (sameItems as bs = true ↔ as = bs)
  | [], bs => by cases bs <;> simp [sameItems]
  | a :: as, bs => by cases bs <;> simp [sameItems, same_iff, sameItems_iff]

theorem sameFields_iff : (as bs : List (String × Value)) → (sameFields as bs = true ↔ as = bs)
  | [], bs => by cases bs <;> simp [sameFields]
  | (m, a) :: as, bs => by cases bs <;> simp [sameFields, same_iff, sameFields_iff, Prod.ext_iff]

end

instance : DecidableEq Value := fun a b ↦ decidable_of_iff _ (same_iff a b)

def get? (name : String) : Value → Option Value
  | .object fields => fields.lookup name
  | _ => none

def asStr : Value → Option String
  | .string value => some value
  | _ => none

def asArray : Value → Option (List Value)
  | .array items => some items
  | _ => none

def asObject : Value → Option (List (String × Value))
  | .object fields => some fields
  | _ => none

def asPort : Value → Option ℕ
  | .number n => if 0 ≤ n ∧ n ≤ 65535 then some n.toNat else none
  | _ => none

def text? (name : String) (value : Value) : Option String := (value.get? name).bind asStr

def items (name : String) (value : Value) : List Value :=
  ((value.get? name).bind asArray).getD []

end Value

inductive ProxyRole
  | autoSafe
  | speed
  | compatibility
  | ruAccess
  | manual
  deriving DecidableEq

/-- One adapter-owned protocol profile. `name` is the stable machine identity
that routing and runtime state refer to. -/
structure ProtocolProfile where
  name : String
  displayName : String
  protocolId : String
  schemaVersion : ℕ
  role : ProxyRole
  server : String
  port : ℕ
  enabled : Bool
  preferredCoreId : Option String
  managedResourceId : Option String
  config : Value

structure SubscriptionUser where
  username : String
  uuid : String
  subscriptionToken : String
  deriving DecidableEq

structure PanelSettings where
  panelName : String
  subscriptionDomain : String
  nodeDomain : String
  deriving DecidableEq

inductive ListenerNetwork
  | tcp
  | udp
  deriving DecidableEq

structure ListenerClaim where
  network : ListenerNetwork
  port : ℕ
  deriving DecidableEq

/-- Adapter-produced server fragment. `expectedUserIds` is `none` for shared
or absent authorization. -/
structure ServerFragment where
  profileId : String
  capability : String
  payload : Value
  expectedUserIds : Option (Finset String)
  listeners : List ListenerClaim

/-- Candidate generated for one runtime adapter. -/
structure CorePlan where
  generation : ℕ
  coreId : String
  fragments : List ServerFragment

abbrev Path := List String

/-- Opaque snapshot locator kept in a private transaction directory. -/
structure CoreSnapshot where
  path : Path
  serviceWasEnabled : Bool
  serviceWasActive : Bool
  deriving DecidableEq

inductive UserSyncObservation
  | unsupported
  | inSync (userCount : ℕ)
  | drift (expectedCount observedCount missingCount unexpectedCount : ℕ)
  deriving DecidableEq

structure InfrastructureResource where
  resourceId : String
  adapterId : String
  schemaVersion : ℕ
  enabled : Bool
  dependencies : List String
  listeners : List ListenerClaim
  config : Value

/-- Complete requested state for one monotonic generation. -/
structure DesiredState where
  generation : ℕ
  profiles : List ProtocolProfile
  users : List SubscriptionUser
  settings : OrderedMap String String
  infrastructure : List InfrastructureResource

inductive ReconcileStatus
  | pending
  | applying
  | applied
  | failed
  | rolledBack
  | unsupported
  | recoveryRequired
  deriving DecidableEq

inductive JournalPhase
  | prepared
  | staged
  | validated
  | snapshotted
  | installed
  | activated
  | healthy
  | publishing
  | published
  | rollbackStarted
  | rolledBack
  | recoveryRequired
  deriving DecidableEq

/-- Last generation proven healthy and atomically published. -/
structure AppliedState where
  generation : ℕ
  activeCoreIds : List String
  deriving DecidableEq

def AppliedState.default : AppliedState := ⟨0, []⟩

/-- Recovery information written before a live resource can be mutated. -/
structure JournalResource where
  coreId : String
  snapshotPath : Path
  serviceWasEnabled : Bool
  serviceWasActive : Bool
  mutationStarted : Bool
  verified : Bool
  deriving DecidableEq

structure JournalEntry where
  operationId : String
  generation : ℕ
  previousGeneration : ℕ
  previousActiveCoreIds : List String
  phase : JournalPhase
  status : ReconcileStatus
  coreIds : List String
  currentCoreId : Option String
  resources : List JournalResource
  error : Option String
  startedAt : String
  completedAt : Option String
  deriving DecidableEq

def JournalEntry.prepared (operationId startedAt : String) (generation previousGeneration : ℕ) :
    JournalEntry where
  operationId := operationId
  generation := generation
  previousGeneration := previousGeneration
  previousActiveCoreIds := []
  phase := .prepared
  status := .pending
  coreIds := []
  currentCoreId := none
  resources := []
  error := none
  startedAt := startedAt
  completedAt := none

structure ReconcileOutcome where
  generation : ℕ
  status : ReconcileStatus
  message : Option String
  deriving DecidableEq

end StealthHub

import StealthHub.Adapters
import StealthHub.Data.Result
import StealthHub.Routing.Policy
import StealthHub.Users.Store

set_option autoImplicit false

namespace StealthHub.Storage

open Routing Users

/-- The text form of JSON documents. What was printed can be read. -/
structure Json where
  print : Value → String
  parse : String → Except String Value
  reads : ∀ value, ∃ value', parse (print value) = .ok value'

/-- A row of `protocol_profiles`, under the `CHECK` constraints of its columns. -/
structure ProtocolProfileRecord where
  id : ℕ
  name : String
  displayName : String
  kind : String
  role : ProxyRole
  enabled : Bool
  server : String
  port : ℕ
  configJson : String
  schemaVersion : ℕ
  preferredCoreId : Option String
  managedResourceId : Option String
  createdAt : DateTime
  updatedAt : DateTime
  port_valid : 0 < port ∧ port ≤ 65535
  schema_valid : 0 < schemaVersion
  deriving DecidableEq

/-- The columns of `protocol_profiles` declared unique. -/
def ProtocolProfileRecord.Clash (a b : ProtocolProfileRecord) : Prop := a.id = b.id ∨ a.name = b.name

instance : DecidableRel ProtocolProfileRecord.Clash :=
  fun _ _ ↦ inferInstanceAs (Decidable (_ ∨ _))

instance : Std.Symm ProtocolProfileRecord.Clash := ⟨fun _ _ h ↦ h.imp Eq.symm Eq.symm⟩

/-- A row of `client_transport_pools`, with its members in the order of their positions. -/
structure PoolRow where
  pool : TransportPool
  position : ℕ
  deriving DecidableEq

def SameKey {α κ : Type} (key : α → κ) (a b : α) : Prop := key a = key b

instance {α κ : Type} [DecidableEq κ] (key : α → κ) : DecidableRel (SameKey key) :=
  fun _ _ ↦ inferInstanceAs (Decidable (_ = _))

instance {α κ : Type} (key : α → κ) : Std.Symm (SameKey key) := ⟨fun _ _ h ↦ Eq.symm h⟩

abbrev PoolTable := Table PoolRow (SameKey fun row ↦ row.pool.id)

abbrev RuleTable := Table RoutingPolicyRule (SameKey (·.id))

abbrev RuleSetTable := Table RoutingRuleSet (SameKey (·.slug))

/-- The tables of the store, without those that neither a runtime nor a subscription
reads. An entry or a source belongs to an existing rule set. -/
structure Database extends Users.Database where
  profiles : Table ProtocolProfileRecord ProtocolProfileRecord.Clash
  /-- The next id of a profile that `AUTOINCREMENT` hands out. -/
  nextProfileId : ℕ
  settings : OrderedMap String String
  secrets : OrderedMap String String
  pools : PoolTable
  rules : RuleTable
  ruleSets : RuleSetTable
  entries : Table RuleEntry (SameKey (·.id))
  sources : Table RuleSetSource (SameKey (·.id))
  bootstrap : Finset String

/-- The store that `init_db` leaves in an empty file. -/
def initDb : Database :=
  { Users.initDb with
    profiles := .empty
    nextProfileId := 1
    settings := .empty
    secrets := .empty
    pools := .empty
    rules := .empty
    ruleSets := .empty
    entries := .empty
    sources := .empty
    bootstrap := ∅ }

/-- A transaction that fails is rolled back. -/
def transact {α : Type} (body : Database → Except String (α × Database)) (db : Database) :
    Except String α × Database :=
  match body db with
  | .ok (value, db') => (.ok value, db')
  | .error message => (.error message, db)

def bumpWhen (changed : Bool) (db : Database) : Option ℕ × Database :=
  if changed then
    (some (db.desiredGeneration + 1), { db with desiredGeneration := db.desiredGeneration + 1 })
  else (none, db)

variable {α : Type} {db : Database} {changed : Bool}

theorem transact_ok {body : Database → Except String (α × Database)} {value : α} {db' : Database}
    (h : body db = .ok (value, db')) : transact body db = (.ok value, db') := by
  rw [transact, h]

theorem transact_error {body : Database → Except String (α × Database)} {message : String}
    (h : body db = .error message) : transact body db = (.error message, db) := by
  rw [transact, h]

theorem transact_state (body : Database → Except String (α × Database)) :
    (transact body db).2 = db ∨ ∃ value, body db = .ok (value, (transact body db).2) := by
  cases h : body db with
  | error message => exact .inl (by rw [transact_error h])
  | ok result => exact .inr ⟨result.1, by rw [transact_ok h]⟩

theorem bumpWhen_generation :
    (bumpWhen changed db).2.desiredGeneration = db.desiredGeneration + changed.toNat := by
  cases changed <;> rfl

@[simp] theorem bumpWhen_users : (bumpWhen changed db).2.users = db.users := by
  cases changed <;> rfl

@[simp] theorem bumpWhen_profiles : (bumpWhen changed db).2.profiles = db.profiles := by
  cases changed <;> rfl

@[simp] theorem bumpWhen_secrets : (bumpWhen changed db).2.secrets = db.secrets := by
  cases changed <;> rfl

@[simp] theorem bumpWhen_settings : (bumpWhen changed db).2.settings = db.settings := by
  cases changed <;> rfl

@[simp] theorem bumpWhen_pools : (bumpWhen changed db).2.pools = db.pools := by
  cases changed <;> rfl

@[simp] theorem bumpWhen_rules : (bumpWhen changed db).2.rules = db.rules := by
  cases changed <;> rfl

@[simp] theorem bumpWhen_ruleSets : (bumpWhen changed db).2.ruleSets = db.ruleSets := by
  cases changed <;> rfl

end StealthHub.Storage

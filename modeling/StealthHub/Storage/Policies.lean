import StealthHub.Storage.Database

set_option autoImplicit false

namespace StealthHub.Storage

open Routing Text Users

/-- `ORDER BY priority, position, id`. -/
def PoolRow.listedBefore (a b : PoolRow) : Prop :=
  a.pool.priority < b.pool.priority ∨ a.pool.priority = b.pool.priority ∧
    (a.position < b.position ∨ a.position = b.position ∧ a.pool.id ≤ b.pool.id)

instance : DecidableRel PoolRow.listedBefore := fun _ _ ↦ inferInstanceAs (Decidable (_ ∨ _))

/-- `ORDER BY priority, id`. -/
def ruleListedBefore (a b : RoutingPolicyRule) : Prop :=
  a.priority < b.priority ∨ a.priority = b.priority ∧ a.id ≤ b.id

instance : DecidableRel ruleListedBefore := fun _ _ ↦ inferInstanceAs (Decidable (_ ∨ _))

def loadClientPolicy (db : Database) : ClientPolicy where
  pools := (db.pools.rows.insertionSort PoolRow.listedBefore).map (·.pool)
  rules := db.rules.rows.insertionSort ruleListedBefore

def retarget (old replacement target : String) : String :=
  if target = old then replacement else target

def redirectMember (old replacement : String) : PoolMember → PoolMember
  | .pool id => .pool (retarget old replacement id)
  | member => member

def redirectPool (old replacement : String) (pool : TransportPool) : TransportPool :=
  { pool with
    members := pool.members.map (redirectMember old replacement)
    fallbackPool := pool.fallbackPool.map (retarget old replacement) }

def redirectRule (old replacement : String) (rule : RoutingPolicyRule) : RoutingPolicyRule :=
  { rule with target := retarget old replacement rule.target }

def redirectRuleSet (old replacement : String) (ruleSet : RoutingRuleSet) : RoutingRuleSet :=
  { ruleSet with target := retarget old replacement ruleSet.target }

def replacePoolReferences (policy : ClientPolicy) (old replacement : String) : ClientPolicy where
  pools := policy.pools.map (redirectPool old replacement)
  rules := policy.rules.map (redirectRule old replacement)

/-- `UPDATE routing_rule_sets SET target=? WHERE target=?`. -/
def redirectRuleSets (old replacement : String) (ruleSets : RuleSetTable) : RuleSetTable :=
  ruleSets.rewrite (redirectRuleSet old replacement) fun _ _ h ↦ h

def poolRows (pools : List TransportPool) : List PoolRow :=
  pools.zipIdx.map fun (pool, position) ↦ ⟨pool, position⟩

def saveClientPolicy (policy : ClientPolicy) (renamedPool : Option (String × String))
    (db : Database) : Except String Database := do
  let pools ← checkUnique (Table.ofRows (poolRows policy.pools))
  let rules ← checkUnique (Table.ofRows policy.rules)
  let ruleSets := renamedPool.elim db.ruleSets fun (old, replacement) ↦
    redirectRuleSets old replacement db.ruleSets
  return (bumpWhen true { db with pools, rules, ruleSets }).2

/-- The stored object that an edit is about; a blank id stands for a new one. -/
def originalOf (originalId : Option String) : Option String := originalId.filter (!isEmpty ·)

def editTransportPool (originalId : Option String) (value : TransportPool) (policy : ClientPolicy) :
    Except String (ClientPolicy × Option (String × String)) :=
  match originalOf originalId with
  | some original =>
    match policy.pools.findIdx? (·.id = original) with
    | none => .error "unknown transport pool"
    | some index =>
      if original ≠ value.id ∧ policy.pools.any (·.id = value.id) then
        .error "transport pool ID already exists"
      else
        let policy := replacePoolReferences policy original value.id
        .ok ({ policy with pools := policy.pools.set index value },
          if original ≠ value.id then some (original, value.id) else none)
  | none =>
    if policy.pools.any (·.id = value.id) then .error "transport pool ID already exists"
    else .ok ({ policy with pools := policy.pools ++ [value] }, none)

def upsertTransportPool (originalId : Option String) (value : TransportPool)
    (profiles : List ProtocolProfile) (db : Database) : Except String Database := do
  let (policy, renamedPool) ← editTransportPool originalId value (loadClientPolicy db)
  policy.validate profiles
  saveClientPolicy policy renamedPool db

def referenced (policy : ClientPolicy) (db : Database) (id : String) : Bool :=
  (policy.pools.any fun pool ↦ pool.fallbackPool = some id || pool.members.contains (.pool id)) ||
    (policy.rules.any (·.target = id)) || 0 < db.ruleSets.rows.countP (·.target = id)

def replaceTransportPool (id : String) (replacement : Option String) (policy : ClientPolicy) :
    Except String (ClientPolicy × Option (String × String)) :=
  match replacement.filter fun value ↦ !isEmpty value && value ≠ id with
  | none => .error "transport pool is referenced; choose a replacement"
  | some replacement =>
    if !policy.pools.any (·.id = replacement) then
      .error "replacement transport pool does not exist"
    else .ok (replacePoolReferences policy id replacement, some (id, replacement))

def deleteTransportPool (id : String) (replacement : Option String)
    (profiles : List ProtocolProfile) (db : Database) : Except String Database := do
  let policy := loadClientPolicy db
  if !policy.pools.any (·.id = id) then throw "unknown transport pool"
  else
    let (policy, renamedPool) ←
      if referenced policy db id then replaceTransportPool id replacement policy
      else .ok (policy, none)
    let policy := { policy with pools := policy.pools.filter (·.id ≠ id) }
    policy.validate profiles
    saveClientPolicy policy renamedPool db

def editRoutingPolicy (originalId : Option String) (value : RoutingPolicyRule)
    (policy : ClientPolicy) : Except String ClientPolicy :=
  match originalOf originalId with
  | some original =>
    match policy.rules.findIdx? (·.id = original) with
    | none => .error "unknown routing policy"
    | some index =>
      if original ≠ value.id ∧ policy.rules.any (·.id = value.id) then
        .error "routing policy ID already exists"
      else .ok { policy with rules := policy.rules.set index value }
  | none =>
    if policy.rules.any (·.id = value.id) then .error "routing policy ID already exists"
    else .ok { policy with rules := policy.rules ++ [value] }

def upsertRoutingPolicy (originalId : Option String) (value : RoutingPolicyRule)
    (profiles : List ProtocolProfile) (db : Database) : Except String Database := do
  let policy ← editRoutingPolicy originalId value (loadClientPolicy db)
  policy.validate profiles
  saveClientPolicy policy none db

def deleteRoutingPolicy (id : String) (db : Database) : Except String Database :=
  let policy := loadClientPolicy db
  let rules := policy.rules.filter (·.id ≠ id)
  if rules.length = policy.rules.length then .error "unknown routing policy"
  else saveClientPolicy { policy with rules } none db

variable {db db' : Database} {policy : ClientPolicy} {renamedPool : Option (String × String)}
variable {pool : TransportPool} {rule : RoutingPolicyRule} {old replacement target : String}

theorem mem_loadedPools : pool ∈ (loadClientPolicy db).pools ↔
    ∃ row ∈ db.pools.rows, row.pool = pool := by
  simp [loadClientPolicy]

theorem mem_loadedRules : rule ∈ (loadClientPolicy db).rules ↔ rule ∈ db.rules.rows := by
  simp [loadClientPolicy]

theorem poolRows_pools (pools : List TransportPool) : (poolRows pools).map (·.pool) = pools := by
  simp [poolRows, List.map_map, Function.comp_def]

/-- What a save commits. -/
structure Saved (policy : ClientPolicy) (renamedPool : Option (String × String))
    (db db' : Database) : Prop where
  pools : db'.pools.rows = poolRows policy.pools
  rules : db'.rules.rows = policy.rules
  ruleSets : db'.ruleSets = renamedPool.elim db.ruleSets fun renamed ↦
    redirectRuleSets renamed.1 renamed.2 db.ruleSets
  entries : db'.entries = db.entries
  sources : db'.sources = db.sources
  bootstrap : db'.bootstrap = db.bootstrap

theorem saveClientPolicy_ok (h : saveClientPolicy policy renamedPool db = .ok db') :
    Saved policy renamedPool db db' := by
  obtain ⟨pools, hpools, h⟩ := Except.bind_eq_ok.mp h
  obtain ⟨rules, hrules, h⟩ := Except.bind_eq_ok.mp h
  cases Except.pure_eq_ok.mp h
  exact ⟨Table.ofRows_some (checkUnique_ok hpools), Table.ofRows_some (checkUnique_ok hrules),
    rfl, rfl, rfl, rfl⟩

theorem Saved.mem_pools (h : Saved policy renamedPool db db') :
    pool ∈ (loadClientPolicy db').pools ↔ pool ∈ policy.pools := by
  rw [mem_loadedPools, h.pools]
  conv_rhs => rw [← poolRows_pools policy.pools]
  rw [List.mem_map]

end StealthHub.Storage

import StealthHub.Effect.Snapshot
import StealthHub.Storage.Policies

set_option autoImplicit false

namespace StealthHub.Storage

open Effect Effect.Program Relation Routing

inductive PolicyQuery
  | pools
  | members (poolId : String)
  | rules

/-- A row of `client_transport_pools` is a pool that has no members yet. -/
def PolicyRows : PolicyQuery → Type
  | .pools => List TransportPool
  | .members _ => List PoolMember
  | .rules => List RoutingPolicyRule

def readPool (pools : List TransportPool) (row : TransportPool) :
    Program PolicyRows String (List TransportPool) := do
  let members : List PoolMember ← request (PolicyQuery.members row.id)
  return pools ++ [{ row with members }]

/-- `load_client_policy`, query by query. -/
def readClientPolicy : Program PolicyRows String ClientPolicy := do
  let rows : List TransportPool ← request PolicyQuery.pools
  let pools ← rows.foldlM readPool []
  let rules : List RoutingPolicyRule ← request PolicyQuery.rules
  return { pools, rules }

def withoutMembers (pool : TransportPool) : TransportPool := { pool with members := [] }

def storedMembers (db : Database) (poolId : String) : List PoolMember :=
  ((db.pools.find? fun row ↦ row.pool.id = poolId).map (·.pool.members)).getD []

/-- What a query finds in a committed store. -/
def queryPolicy (db : Database) : (query : PolicyQuery) → PolicyRows query
  | .pools => (loadClientPolicy db).pools.map withoutMembers
  | .members poolId => storedMembers db poolId
  | .rules => (loadClientPolicy db).rules

abbrev PolicyLoad := Reader PolicyRows String ClientPolicy Database

/-- A transaction of `save_client_policy` commits. -/
def Saves (load : PolicyLoad) (db : Database) : Prop :=
  ∃ policy renamedPool, saveClientPolicy policy renamedPool load.store = .ok db

variable {db : Database} {pool : TransportPool} {policy : ClientPolicy} {load : PolicyLoad}

theorem storedMembers_of_mem (h : pool ∈ (loadClientPolicy db).pools) :
    storedMembers db pool.id = pool.members := by
  obtain ⟨row, hrow, rfl⟩ := mem_loadedPools.mp h
  rw [storedMembers]
  cases hfind : db.pools.find? fun other ↦ other.pool.id = row.pool.id with
  | none =>
    have hnone := Table.find?_none hfind row hrow
    simp at hnone
  | some other =>
    obtain ⟨hother, hid⟩ := Table.find?_some hfind
    have heq : other = row := Table.eq_of_clash hother hrow (of_decide_eq_true hid)
    rw [heq, Option.map_some, Option.getD_some]

theorem withMembers_withoutMembers (h : pool ∈ (loadClientPolicy db).pools) :
    { withoutMembers pool with members := storedMembers db (withoutMembers pool).id } = pool := by
  have hmembers := storedMembers_of_mem h
  rw [show (withoutMembers pool).id = pool.id from rfl, hmembers]
  rfl

theorem readPools_under (rows pools : List TransportPool) :
    (rows.foldlM readPool pools).under (queryPolicy db) =
      .ok (pools ++ rows.map fun row ↦ { row with members := storedMembers db row.id }) := by
  induction rows generalizing pools with
  | nil => rw [List.map_nil, List.append_nil]; rfl
  | cons row rest ih =>
    rw [List.foldlM_cons, bind_eq]
    refine under_bind_ok.mpr ⟨_, rfl, ?_⟩
    rw [ih, List.append_assoc]
    rfl

theorem readClientPolicy_under :
    readClientPolicy.under (queryPolicy db) = .ok (loadClientPolicy db) := by
  have hpools : ((loadClientPolicy db).pools.map withoutMembers).map
      (fun row ↦ { row with members := storedMembers db row.id }) =
      (loadClientPolicy db).pools := by
    rw [List.map_map]
    have hsame := List.map_congr_left fun pool hpool ↦ @withMembers_withoutMembers db pool hpool
    exact hsame.trans (List.map_id _)
  refine under_bind_ok.mpr ⟨_, rfl, under_bind_ok.mpr ⟨_, readPools_under _ _, ?_⟩⟩
  rw [List.nil_append]
  show Except.ok (ClientPolicy.mk _ (loadClientPolicy db).rules) = _
  rw [show queryPolicy db .pools = (loadClientPolicy db).pools.map withoutMembers from rfl, hpools]

/-- A load during which each save leaves alone what it has read, or what it has still to read,
returns the policy of one committed store. -/
theorem loaded_policy_committed
    (h : ReflTransGen (Reader.Step queryPolicy fun load db ↦
      Saves load db ∧ load.Spares queryPolicy db) (.start readClientPolicy db) load)
    (hdone : load.program = .done policy) :
    ∃ committed ∈ load.committed, policy = loadClientPolicy committed := by
  obtain ⟨committed, hcommitted, hunder⟩ := Reader.snapshot h hdone
  rw [readClientPolicy_under] at hunder
  exact ⟨committed, hcommitted, (Except.ok.inj hunder).symm⟩

def samplePolicy (member : PoolMember) (condition : String) : ClientPolicy where
  pools := [{ manualPool with members := [member] }]
  rules := [⟨"rule", "Rule", true, 0, condition, manualPool.id⟩]

def sampleStore (policies : List ClientPolicy) : Database :=
  policies.foldl
    (fun db policy ↦ (saveClientPolicy policy none db).toOption.getD db) initDb

theorem sampleStore_saved (member : PoolMember) (condition : String) (policies : List ClientPolicy) :
    saveClientPolicy (samplePolicy member condition) none (sampleStore policies) =
      .ok (sampleStore (policies ++ [samplePolicy member condition])) := by
  rw [sampleStore, sampleStore, List.foldl_append]
  rfl

theorem loaded_policy_committed_rules :
    ∃ committed ∈ [sampleStore [samplePolicy .direct "first", samplePolicy .direct "second"],
        sampleStore [samplePolicy .direct "first"]],
      samplePolicy .direct "second" = loadClientPolicy committed := by
  have hsave := sampleStore_saved .direct "second" [samplePolicy .direct "first"]
  refine loaded_policy_committed (.head (.answered rfl) (.head (.answered rfl)
    (.head (.committed ⟨⟨_, _, hsave⟩, .inl ?_⟩) (.head (.answered rfl) .refl)))) rfl
  intro entry hentry
  rcases List.mem_cons.mp hentry with rfl | hentry
  · rfl
  · cases List.mem_singleton.mp hentry
    rfl

theorem loaded_policy_torn : ∃ db load policy,
    ReflTransGen (Reader.Step queryPolicy Saves) (.start readClientPolicy db) load ∧
      load.program = .done policy ∧ ∀ committed ∈ load.committed,
        policy ≠ loadClientPolicy committed := by
  have hsave := sampleStore_saved .reject "second" [samplePolicy .direct "first"]
  refine ⟨sampleStore [samplePolicy .direct "first"], _, samplePolicy .direct "second",
    .head (.answered rfl) (.head (.answered rfl)
      (.head (.committed ⟨_, _, hsave⟩) (.head (.answered rfl) .refl))), rfl, ?_⟩
  refine List.forall_mem_cons.mpr ⟨?_, List.forall_mem_singleton.mpr ?_⟩
  · decide
  · decide

end StealthHub.Storage

import Mathlib.Algebra.Group.Int.Defs
import StealthHub.Data.Sorting
import StealthHub.Routing.Validation
import StealthHub.Storage.Policies
import StealthHub.Storage.Profiles

set_option autoImplicit false

namespace StealthHub.Storage

open Routing
open Users (checkUnique)

/-- A row of `client_transport_pools`. -/
structure PoolColumns where
  id : String
  displayName : String
  kind : String
  enabled : Bool
  testUrl : Option String
  intervalSeconds : Option ℤ
  timeoutMs : Option ℤ
  toleranceMs : Option ℤ
  maxFailures : Option ℤ
  lazy : Bool
  minimumHealthyCount : Option ℤ
  fallbackPool : Option String
  priority : ℤ
  strategy : Option String
  position : ℤ
  deriving DecidableEq

/-- A row of `client_transport_pool_members`. -/
structure MemberColumns where
  poolId : String
  position : ℤ
  memberKind : String
  memberValue : Option String
  deriving DecidableEq

structure PolicyTables where
  pools : Table PoolColumns (SameKey (·.id))
  members : Table MemberColumns (SameKey fun row ↦ (row.poolId, row.position))
  rules : RuleTable

def poolKindName : PoolKind → String
  | .select => "select"
  | .urlTest => "url-test"
  | .fallback => "fallback"
  | .loadBalance => "load-balance"

def parsePoolKind : String → Except String PoolKind
  | "select" => .ok .select
  | "url-test" => .ok .urlTest
  | "fallback" => .ok .fallback
  | "load-balance" => .ok .loadBalance
  | _ => .error "invalid transport pool kind"

def parseRole : String → Except String ProxyRole
  | "auto-safe" => .ok .autoSafe
  | "speed" => .ok .speed
  | "compatibility" => .ok .compatibility
  | "ru-access" => .ok .ruAccess
  | "manual" => .ok .manual
  | _ => .error "invalid proxy role"

def encodePoolMember : PoolMember → String × Option String
  | .profile value => ("profile", some value)
  | .capability value => ("capability", some value)
  | .role value => ("role", some (roleName value))
  | .allExceptRole value => ("all-except-role", some (roleName value))
  | .pool value => ("pool", some value)
  | .allProfiles => ("all-profiles", none)
  | .direct => ("direct", none)
  | .reject => ("reject", none)

/-- `ok_or_else`. -/
def required (message : String) : Option String → Except String String
  | some value => .ok value
  | none => .error message

def decodePoolMember (kind : String) (value : Option String) : Except String PoolMember :=
  match kind with
  | "profile" => do
    let value ← required "profile member has no value" value
    return .profile value
  | "capability" => do
    let value ← required "capability member has no value" value
    return .capability value
  | "role" => do
    let value ← required "role member has no value" value
    let role ← parseRole value
    return .role role
  | "all-except-role" => do
    let value ← required "excluded role member has no value" value
    let role ← parseRole value
    return .allExceptRole role
  | "pool" => do
    let value ← required "pool member has no value" value
    return .pool value
  | "all-profiles" => .ok .allProfiles
  | "direct" => .ok .direct
  | "reject" => .ok .reject
  | _ => .error "invalid transport pool member kind"

def optionalU32 : Option ℤ → Except String (Option ℕ)
  | none => .ok none
  | some value =>
    if 0 ≤ value ∧ value < 2 ^ 32 then .ok (some value.toNat)
    else .error "out of range integral type conversion attempted"

def encodePool (pool : TransportPool) (position : ℕ) : PoolColumns :=
  { pool with
    kind := poolKindName pool.kind
    intervalSeconds := pool.intervalSeconds.map Int.ofNat
    timeoutMs := pool.timeoutMs.map Int.ofNat
    toleranceMs := pool.toleranceMs.map Int.ofNat
    maxFailures := pool.maxFailures.map Int.ofNat
    minimumHealthyCount := pool.minimumHealthyCount.map Int.ofNat
    position }

def encodeMember (poolId : String) (member : PoolMember) (position : ℕ) : MemberColumns where
  poolId
  position
  memberKind := (encodePoolMember member).1
  memberValue := (encodePoolMember member).2

def insertAll {α β : Type} {clash : β → β → Prop} [DecidableRel clash] (row : α → β)
    (items : List α) (table : Table β clash) : Except String (Table β clash) :=
  items.foldlM (fun table item ↦ checkUnique (table.insert (row item))) table

def insertPool (tables : PolicyTables) (pool : TransportPool × ℕ) : Except String PolicyTables := do
  let pools ← checkUnique (tables.pools.insert (encodePool pool.1 pool.2))
  let members ← insertAll (fun member ↦ encodeMember pool.1.id member.1 member.2)
    pool.1.members.zipIdx tables.members
  return { tables with pools, members }

/-- The rows that replace those of the policy before. -/
def storePolicy (policy : ClientPolicy) : Except String PolicyTables := do
  let tables ← policy.pools.zipIdx.foldlM insertPool
    { pools := .empty, members := .empty, rules := .empty }
  let rules ← insertAll id policy.rules tables.rules
  return { tables with rules }

/-- `ORDER BY priority, position, id`. -/
def PoolColumns.listedBefore (a b : PoolColumns) : Prop :=
  a.priority < b.priority ∨ a.priority = b.priority ∧
    (a.position < b.position ∨ a.position = b.position ∧ a.id ≤ b.id)

instance : DecidableRel PoolColumns.listedBefore := fun _ _ ↦ inferInstanceAs (Decidable (_ ∨ _))

def decodePool (members : List MemberColumns) (row : PoolColumns) :
    Except String TransportPool := do
  let members ← ((members.filter (·.poolId = row.id)).insertionSort fun a b ↦
    a.position ≤ b.position).mapM fun member ↦
      decodePoolMember member.memberKind member.memberValue
  let kind ← parsePoolKind row.kind
  let intervalSeconds ← optionalU32 row.intervalSeconds
  let timeoutMs ← optionalU32 row.timeoutMs
  let toleranceMs ← optionalU32 row.toleranceMs
  let maxFailures ← optionalU32 row.maxFailures
  let minimumHealthyCount ← optionalU32 row.minimumHealthyCount
  return { row with
    kind, members, intervalSeconds, timeoutMs, toleranceMs, maxFailures, minimumHealthyCount }

def loadPolicy (tables : PolicyTables) : Except String ClientPolicy := do
  let pools ← (tables.pools.rows.insertionSort PoolColumns.listedBefore).mapM
    (decodePool tables.members.rows)
  return { pools, rules := tables.rules.rows.insertionSort ruleListedBefore }

/-- The numbers of a pool are 32 bits wide. -/
def FitsU32 (pool : TransportPool) : Prop :=
  ∀ value ∈ [pool.intervalSeconds, pool.timeoutMs, pool.toleranceMs, pool.maxFailures,
    pool.minimumHealthyCount], ∀ n ∈ value, n < 2 ^ 32

section codec

variable {pool : TransportPool} {member : PoolMember} {kind : PoolKind} {role : ProxyRole}
variable {value : Option ℕ} {position : ℕ}

theorem parsePoolKind_name : parsePoolKind (poolKindName kind) = .ok kind := by
  cases kind <;> rfl

theorem decode_encodePoolMember :
    decodePoolMember (encodePoolMember member).1 (encodePoolMember member).2 = .ok member := by
  cases member with
  | role role => cases role <;> rfl
  | allExceptRole role => cases role <;> rfl
  | _ => rfl

theorem optionalU32_ofNat (h : ∀ n ∈ value, n < 2 ^ 32) :
    optionalU32 (value.map Int.ofNat) = .ok value := by
  cases value with
  | none => rfl
  | some n =>
    have hn := h n rfl
    rw [Option.map_some, optionalU32, if_pos]
    · rfl
    · rw [Int.ofNat_eq_natCast]
      omega

end codec

section insert

variable {α β : Type} {clash : β → β → Prop} [DecidableRel clash] {row : α → β}
variable {items : List α} {table table' : Table β clash}

theorem insertAll_of (h : (table.rows ++ items.map row).Pairwise fun a b ↦ ¬clash a b) :
    ∃ table', insertAll row items table = .ok table' ∧ table'.rows = table.rows ++ items.map row := by
  induction items generalizing table with
  | nil => exact ⟨table, rfl, (List.append_nil _).symm⟩
  | cons item rest ih =>
    have hfree : ∀ other ∈ table.rows, ¬clash other (row item) := fun other hother ↦
      (List.pairwise_append.mp h).2.2 other hother _ List.mem_cons_self
    obtain ⟨inserted, hinsert, hrows⟩ := Table.insert_of hfree
    have hsplit : inserted.rows ++ rest.map row = table.rows ++ (item :: rest).map row := by
      rw [hrows, List.append_assoc]
      rfl
    obtain ⟨table', hrest, htable⟩ := ih (hsplit ▸ h)
    refine ⟨table', ?_, htable.trans hsplit⟩
    rw [insertAll, List.foldlM_cons, hinsert]
    exact hrest

end insert

section store

variable {policy : ClientPolicy} {profiles : List ProtocolProfile} {pools : List TransportPool}
variable {pool : TransportPool} {items : List (TransportPool × ℕ)} {tables : PolicyTables}

def memberRows (pools : List TransportPool) : List MemberColumns :=
  pools.flatMap fun pool ↦ pool.members.zipIdx.map fun member ↦
    encodeMember pool.id member.1 member.2

theorem insertPools_of
    (hpools : (tables.pools.rows ++ items.map fun item ↦ encodePool item.1 item.2).Pairwise
      fun a b ↦ ¬SameKey (·.id) a b)
    (hmembers : (tables.members.rows ++ memberRows (items.map Prod.fst)).Pairwise
      fun a b ↦ ¬SameKey (fun row ↦ (row.poolId, row.position)) a b) :
    ∃ tables', items.foldlM insertPool tables = .ok tables' ∧
      tables'.pools.rows = tables.pools.rows ++ items.map (fun item ↦ encodePool item.1 item.2) ∧
      tables'.members.rows = tables.members.rows ++ memberRows (items.map Prod.fst) ∧
      tables'.rules = tables.rules := by
  induction items generalizing tables with
  | nil => exact ⟨tables, rfl, (List.append_nil _).symm, (List.append_nil _).symm, rfl⟩
  | cons item rest ih =>
    have hfree : ∀ other ∈ tables.pools.rows,
        ¬SameKey (·.id) other (encodePool item.1 item.2) := fun other hother ↦
      (List.pairwise_append.mp hpools).2.2 other hother _ List.mem_cons_self
    obtain ⟨pools, hinsert, hpoolRows⟩ := Table.insert_of hfree
    rw [List.map_cons, memberRows, List.flatMap_cons, ← memberRows, ← List.append_assoc] at hmembers
    obtain ⟨members, hall, hmemberRows⟩ := insertAll_of (List.pairwise_append.mp hmembers).1
    have hpools' : (pools.rows ++ rest.map fun item ↦ encodePool item.1 item.2).Pairwise
        fun a b ↦ ¬SameKey (·.id) a b := by
      rw [hpoolRows, List.append_assoc]
      exact hpools
    obtain ⟨tables', hrest, hp, hm, hr⟩ := @ih { tables with pools, members } hpools'
      (hmemberRows ▸ hmembers)
    refine ⟨tables', ?_, ?_, ?_, hr⟩
    · rw [List.foldlM_cons]
      refine Except.bind_eq_ok.mpr ⟨{ tables with pools, members }, ?_, hrest⟩
      rw [insertPool, hinsert]
      exact Except.bind_eq_ok.mpr ⟨pools, rfl, Except.bind_eq_ok.mpr ⟨members, hall, rfl⟩⟩
    · rw [hp, hpoolRows, List.append_assoc]
      rfl
    · rw [hm, hmemberRows, List.append_assoc]
      rfl

theorem mem_memberRows {row : MemberColumns} (h : row ∈ memberRows pools) :
    ∃ pool ∈ pools, row.poolId = pool.id := by
  obtain ⟨pool, hpool, hrow⟩ := List.mem_flatMap.mp h
  obtain ⟨member, -, rfl⟩ := List.mem_map.mp hrow
  exact ⟨pool, hpool, rfl⟩

theorem memberRows_pool : (pool.members.zipIdx.map fun member ↦
    encodeMember pool.id member.1 member.2).Pairwise fun a b ↦ a.position < b.position := by
  rw [List.pairwise_map]
  refine List.pairwise_iff_getElem.mpr fun i j hi hj hij ↦ ?_
  rw [List.getElem_zipIdx, List.getElem_zipIdx]
  simpa [encodeMember] using hij

theorem memberRows_distinct (hids : (pools.map (·.id)).Nodup) :
    (memberRows pools).Pairwise fun a b ↦ ¬SameKey (fun row ↦ (row.poolId, row.position)) a b := by
  induction pools with
  | nil => exact .nil
  | cons pool rest ih =>
    rw [List.map_cons, List.nodup_cons] at hids
    rw [memberRows, List.flatMap_cons, List.pairwise_append]
    refine ⟨memberRows_pool.imp fun {a b} hlt hsame ↦ ?_, ih hids.2, ?_⟩
    · have hkey : (a.poolId, a.position) = (b.poolId, b.position) := hsame
      exact hlt.ne (Prod.mk.inj hkey).2
    · intro a ha b hb hsame
      obtain ⟨member, -, rfl⟩ := List.mem_map.mp ha
      obtain ⟨other, hother, hid⟩ := mem_memberRows hb
      have hkey : (pool.id, (member.2 : ℤ)) = (b.poolId, b.position) := hsame
      exact hids.1 ((Prod.mk.inj hkey).1.trans hid ▸ List.mem_map_of_mem hother)

theorem filter_memberRows (hids : (pools.map (·.id)).Nodup) (hpool : pool ∈ pools) :
    (memberRows pools).filter (·.poolId = pool.id) =
      pool.members.zipIdx.map fun member ↦ encodeMember pool.id member.1 member.2 := by
  have hown (pool : TransportPool) : (pool.members.zipIdx.map fun member ↦
      encodeMember pool.id member.1 member.2).filter (·.poolId = pool.id) =
        pool.members.zipIdx.map fun member ↦ encodeMember pool.id member.1 member.2 := by
    refine List.filter_eq_self.mpr fun row hrow ↦ ?_
    obtain ⟨member, -, rfl⟩ := List.mem_map.mp hrow
    exact decide_eq_true rfl
  induction pools with
  | nil => cases hpool
  | cons first rest ih =>
    rw [List.map_cons, List.nodup_cons] at hids
    rw [memberRows, List.flatMap_cons, List.filter_append, ← memberRows]
    rcases List.mem_cons.mp hpool with rfl | hpool
    · have hrest : (memberRows rest).filter (·.poolId = pool.id) = [] := by
        refine List.filter_eq_nil_iff.mpr fun row hrow hid ↦ ?_
        obtain ⟨other, hother, hrowId⟩ := mem_memberRows hrow
        exact hids.1 (of_decide_eq_true hid ▸ hrowId ▸ List.mem_map_of_mem hother)
      rw [hown, hrest, List.append_nil]
    · have hne : first.id ≠ pool.id := fun h ↦ hids.1 (h ▸ List.mem_map_of_mem hpool)
      have hfirst : (first.members.zipIdx.map fun member ↦
          encodeMember first.id member.1 member.2).filter (·.poolId = pool.id) = [] := by
        refine List.filter_eq_nil_iff.mpr fun row hrow hid ↦ ?_
        obtain ⟨member, -, rfl⟩ := List.mem_map.mp hrow
        exact hne (of_decide_eq_true hid)
      rw [hfirst, List.nil_append, ih hids.2 hpool]

theorem decode_encodePool {position : ℕ} (hids : (pools.map (·.id)).Nodup) (hpool : pool ∈ pools)
    (hfits : FitsU32 pool) :
    decodePool (memberRows pools) (encodePool pool position) = .ok pool := by
  have hsorted : ((memberRows pools).filter (·.poolId = (encodePool pool position).id)).insertionSort
      (fun a b ↦ a.position ≤ b.position) =
        pool.members.zipIdx.map fun member ↦ encodeMember pool.id member.1 member.2 := by
    have hfilter := filter_memberRows hids hpool
    have hkey : (encodePool pool position).id = pool.id := rfl
    rw [hkey, hfilter]
    exact (memberRows_pool.imp fun h ↦ h.le).insertionSort_eq
  have hmembers : (pool.members.zipIdx.map fun member ↦
      encodeMember pool.id member.1 member.2).mapM (fun member ↦
        decodePoolMember member.memberKind member.memberValue) = .ok pool.members := by
    rw [Except.mapM_eq_ok, List.forall₂_map_left_iff]
    refine List.forall₂_iff_get.mpr ⟨List.length_zipIdx, fun i hi hi' ↦ ?_⟩
    simp only [List.get_eq_getElem, List.getElem_zipIdx]
    exact decode_encodePoolMember
  have hnumber {value : Option ℕ} (hvalue : value ∈ [pool.intervalSeconds, pool.timeoutMs,
      pool.toleranceMs, pool.maxFailures, pool.minimumHealthyCount]) :
      optionalU32 (value.map Int.ofNat) = .ok value := optionalU32_ofNat (hfits value hvalue)
  rw [decodePool, hsorted]
  refine Except.bind_eq_ok.mpr ⟨_, hmembers, Except.bind_eq_ok.mpr ⟨_, parsePoolKind_name, ?_⟩⟩
  refine Except.bind_eq_ok.mpr ⟨_, hnumber (by simp), Except.bind_eq_ok.mpr ⟨_, hnumber (by simp),
    Except.bind_eq_ok.mpr ⟨_, hnumber (by simp), Except.bind_eq_ok.mpr ⟨_, hnumber (by simp),
      Except.bind_eq_ok.mpr ⟨_, hnumber (by simp), rfl⟩⟩⟩⟩⟩

end store

section order

theorem sort_zipIdx {α : Type} {r : α × ℕ → α × ℕ → Prop} {s : α → α → Prop} [DecidableRel r]
    [DecidableRel s] (h : ∀ a i b j, i < j → (r (a, i) (b, j) ↔ s a b)) (l : List α) (k : ℕ) :
    ((l.zipIdx k).insertionSort r).map Prod.fst = l.insertionSort s := by
  have hinsert (a : α) (i : ℕ) (items : List (α × ℕ)) (hlater : ∀ item ∈ items, i < item.2) :
      (items.orderedInsert r (a, i)).map Prod.fst = (items.map Prod.fst).orderedInsert s a := by
    induction items with
    | nil => rfl
    | cons item rest ih =>
      rw [List.forall_mem_cons] at hlater
      have hiff := h a i item.1 item.2 hlater.1
      rw [List.map_cons, List.orderedInsert_cons, List.orderedInsert_cons]
      by_cases hs : s a item.1
      · rw [if_pos (hiff.mpr hs), if_pos hs]
        rfl
      · rw [if_neg fun hr ↦ hs (hiff.mp hr), if_neg hs, List.map_cons, ih hlater.2]
  induction l generalizing k with
  | nil => rfl
  | cons a rest ih =>
    rw [List.zipIdx_cons, List.insertionSort_cons, List.insertionSort_cons, hinsert, ih]
    intro item hitem
    exact Nat.lt_of_succ_le (List.le_snd_of_mem_zipIdx ((List.mem_insertionSort r).mp hitem))

def byPriority (a b : TransportPool) : Prop := a.priority ≤ b.priority

instance : DecidableRel byPriority := fun _ _ ↦ inferInstanceAs (Decidable (_ ≤ _))

instance : IsTrans TransportPool byPriority := ⟨fun _ _ _ hab hbc ↦ Int.le_trans hab hbc⟩

instance : Std.Total byPriority := ⟨fun a b ↦ Int.le_total a.priority b.priority⟩

instance : IsTrans RoutingPolicyRule ruleListedBefore where
  trans a b c hab hbc := by
    rcases hab with hab | ⟨hab, hid⟩
    · rcases hbc with hbc | ⟨hbc, -⟩
      · exact .inl (hab.trans hbc)
      · exact .inl (hbc ▸ hab)
    · rcases hbc with hbc | ⟨hbc, hid'⟩
      · exact .inl (hab ▸ hbc)
      · exact .inr ⟨hab.trans hbc, hid.trans hid'⟩

instance : Std.Total ruleListedBefore where
  total a b := by
    rcases lt_trichotomy a.priority b.priority with hlt | heq | hlt
    · exact .inl (.inl hlt)
    · exact (le_total a.id b.id).imp (fun hid ↦ .inr ⟨heq, hid⟩) fun hid ↦ .inr ⟨heq.symm, hid⟩
    · exact .inr (.inl hlt)

/-- The policy with its pools sorted stably by priority, and its rules by priority and id. -/
def inOrder (policy : ClientPolicy) : ClientPolicy where
  pools := policy.pools.insertionSort byPriority
  rules := policy.rules.insertionSort ruleListedBefore

variable {policy : ClientPolicy} {profiles : List ProtocolProfile} {db db' : Database}
variable {renamedPool : Option (String × String)} {position position' : ℕ} {a b : TransportPool}

theorem inOrder_inOrder : inOrder (inOrder policy) = inOrder policy := by
  have hpools := (List.pairwise_insertionSort byPriority policy.pools).insertionSort_eq
  have hrules := (List.pairwise_insertionSort ruleListedBefore policy.rules).insertionSort_eq
  rw [inOrder, inOrder, hpools, hrules]

theorem listed_iff (h : position < position') :
    (encodePool a position).listedBefore (encodePool b position') ↔ byPriority a b := by
  simp only [PoolColumns.listedBefore, encodePool, byPriority]
  omega

theorem sorted_pools : (policy.pools.zipIdx.insertionSort fun a b ↦
      (encodePool a.1 a.2).listedBefore (encodePool b.1 b.2)).map Prod.fst =
    policy.pools.insertionSort byPriority :=
  sort_zipIdx (fun _ _ _ _ h ↦ listed_iff h) policy.pools 0

theorem sorted_rows : ((policy.pools.zipIdx.map fun item ↦
      encodePool item.1 item.2).insertionSort PoolColumns.listedBefore) =
    (policy.pools.zipIdx.insertionSort fun a b ↦
      (encodePool a.1 a.2).listedBefore (encodePool b.1 b.2)).map fun item ↦
        encodePool item.1 item.2 :=
  (List.map_insertionSort
    (fun a b : TransportPool × ℕ ↦ (encodePool a.1 a.2).listedBefore (encodePool b.1 b.2))
    PoolColumns.listedBefore (fun item ↦ encodePool item.1 item.2) _ fun _ _ _ _ ↦ Iff.rfl).symm

theorem store_load (hpools : (policy.pools.map (·.id)).Nodup)
    (hrules : (policy.rules.map (·.id)).Nodup) (hfits : ∀ pool ∈ policy.pools, FitsU32 pool) :
    ∃ tables, storePolicy policy = .ok tables ∧ loadPolicy tables = .ok (inOrder policy) := by
  let start : PolicyTables := { pools := .empty, members := .empty, rules := .empty }
  have hfst : policy.pools.zipIdx.map Prod.fst = policy.pools := List.zipIdx_map_fst 0 _
  have hpoolRows : (start.pools.rows ++ policy.pools.zipIdx.map fun item ↦
      encodePool item.1 item.2).Pairwise fun a b ↦ ¬SameKey (·.id) a b := by
    have hkeys : ((policy.pools.zipIdx.map fun item ↦ encodePool item.1 item.2).map (·.id)).Nodup := by
      rw [List.map_map]
      have hid : (fun row : PoolColumns ↦ row.id) ∘ (fun item : TransportPool × ℕ ↦
          encodePool item.1 item.2) = (fun pool : TransportPool ↦ pool.id) ∘ Prod.fst := rfl
      rw [hid, ← List.map_map, hfst]
      exact hpools
    exact List.pairwise_map.mp hkeys
  have hmemberRows : (start.members.rows ++ memberRows (policy.pools.zipIdx.map Prod.fst)).Pairwise
      fun a b ↦ ¬SameKey (fun row ↦ (row.poolId, row.position)) a b := by
    rw [hfst]
    exact memberRows_distinct hpools
  obtain ⟨tables, hstored, hp, hm, hr⟩ := insertPools_of hpoolRows hmemberRows
  have hruleRows : (tables.rules.rows ++ policy.rules.map id).Pairwise
      fun a b ↦ ¬SameKey (·.id) a b := by
    rw [hr, List.map_id]
    exact List.pairwise_map.mp hrules
  obtain ⟨rules, hrulesStored, hruleRows⟩ := insertAll_of hruleRows
  refine ⟨{ tables with rules }, Except.bind_eq_ok.mpr ⟨tables, hstored,
    Except.bind_eq_ok.mpr ⟨rules, hrulesStored, rfl⟩⟩, ?_⟩
  have hread : (policy.pools.zipIdx.insertionSort fun a b ↦
      (encodePool a.1 a.2).listedBefore (encodePool b.1 b.2)).mapM
        (fun item ↦ decodePool tables.members.rows (encodePool item.1 item.2)) =
      .ok (policy.pools.insertionSort byPriority) := by
    rw [← sorted_pools, Except.mapM_eq_ok, List.forall₂_map_right_iff]
    refine List.forall₂_same.mpr fun item hitem ↦ ?_
    have hpool : item.1 ∈ policy.pools :=
      List.fst_mem_of_mem_zipIdx ((List.mem_insertionSort _).mp hitem)
    rw [hm, hfst]
    exact decode_encodePool hpools hpool (hfits _ hpool)
  refine Except.bind_eq_ok.mpr ⟨policy.pools.insertionSort byPriority, ?_, ?_⟩
  · have hrows : start.pools.rows ++ policy.pools.zipIdx.map (fun item ↦
        encodePool item.1 item.2) = policy.pools.zipIdx.map fun item ↦
          encodePool item.1 item.2 := List.nil_append _
    rw [hp, hrows, sorted_rows, List.mapM_map]
    exact hread
  · rw [hruleRows, hr, List.map_id]
    rfl

theorem saved_load (h : saveClientPolicy policy renamedPool db = .ok db') :
    loadClientPolicy db' = inOrder policy := by
  have hsaved := saveClientPolicy_ok h
  have hrows : ((poolRows policy.pools).insertionSort PoolRow.listedBefore).map (·.pool) =
      policy.pools.insertionSort byPriority := by
    have hsort := List.map_insertionSort
      (fun a b : TransportPool × ℕ ↦ PoolRow.listedBefore ⟨a.1, a.2⟩ ⟨b.1, b.2⟩)
      PoolRow.listedBefore (fun item ↦ (⟨item.1, item.2⟩ : PoolRow)) policy.pools.zipIdx
      fun _ _ _ _ ↦ Iff.rfl
    have hlisted (a b : TransportPool) (i j : ℕ) (hij : i < j) :
        PoolRow.listedBefore ⟨a, i⟩ ⟨b, j⟩ ↔ byPriority a b := by
      simp only [PoolRow.listedBefore, byPriority]
      omega
    have hpools : (policy.pools.zipIdx.insertionSort fun a b ↦
        PoolRow.listedBefore ⟨a.1, a.2⟩ ⟨b.1, b.2⟩).map Prod.fst =
          policy.pools.insertionSort byPriority :=
      sort_zipIdx (fun a i b j hij ↦ hlisted a b i j hij) policy.pools 0
    have hposition : poolRows policy.pools =
        policy.pools.zipIdx.map fun item ↦ (⟨item.1, item.2⟩ : PoolRow) := rfl
    rw [hposition, ← hsort, List.map_map, ← hpools]
    rfl
  rw [loadClientPolicy, hsaved.pools, hsaved.rules, hrows]
  rfl

theorem rows_refine (hvalid : policy.validate profiles = .ok ())
    (hfits : ∀ pool ∈ policy.pools, FitsU32 pool)
    (h : saveClientPolicy policy renamedPool db = .ok db') :
    ∃ tables, storePolicy policy = .ok tables ∧ loadPolicy tables = .ok (loadClientPolicy db') := by
  obtain ⟨hformed, -⟩ := validate_ok.mp hvalid
  rw [saved_load h]
  exact store_load hformed.poolIds hformed.ruleIds hfits

/-- An accepted policy is stored, read back in order, and after that stored and read as it is. -/
theorem policy_round_trip (hvalid : policy.validate profiles = .ok ())
    (hfits : ∀ pool ∈ policy.pools, FitsU32 pool) :
    (∃ tables, storePolicy policy = .ok tables ∧ loadPolicy tables = .ok (inOrder policy)) ∧
      ∃ tables, storePolicy (inOrder policy) = .ok tables ∧
        loadPolicy tables = .ok (inOrder policy) := by
  obtain ⟨hformed, -⟩ := validate_ok.mp hvalid
  have hpools : (inOrder policy).pools.Perm policy.pools :=
    List.perm_insertionSort byPriority policy.pools
  have hrules : (inOrder policy).rules.Perm policy.rules :=
    List.perm_insertionSort ruleListedBefore policy.rules
  have hagain := @store_load (inOrder policy)
    ((hpools.map _).nodup_iff.mpr hformed.poolIds) ((hrules.map _).nodup_iff.mpr hformed.ruleIds)
    fun pool hpool ↦ hfits pool (hpools.mem_iff.mp hpool)
  rw [inOrder_inOrder] at hagain
  exact ⟨store_load hformed.poolIds hformed.ruleIds hfits, hagain⟩

theorem policy_round_trip_members : ∃ tables,
    storePolicy ⟨[⟨"LATE", "Late", .select, true, [.pool "EARLY", .role .speed, .allExceptRole .manual],
        none, none, none, none, none, true, none, none, 20, none⟩,
      ⟨"EARLY", "Early", .urlTest, true, [.allProfiles, .direct, .reject], none, some 300, none,
        some 50, none, false, none, none, 10, none⟩], []⟩ = .ok tables ∧
    loadPolicy tables = .ok ⟨[⟨"EARLY", "Early", .urlTest, true, [.allProfiles, .direct, .reject],
        none, some 300, none, some 50, none, false, none, none, 10, none⟩,
      ⟨"LATE", "Late", .select, true, [.pool "EARLY", .role .speed, .allExceptRole .manual],
        none, none, none, none, none, true, none, none, 20, none⟩], []⟩ := by
  have hfits : ∀ pool ∈ ([⟨"LATE", "Late", .select, true,
        [.pool "EARLY", .role .speed, .allExceptRole .manual], none, none, none, none, none, true,
        none, none, 20, none⟩,
      ⟨"EARLY", "Early", .urlTest, true, [.allProfiles, .direct, .reject], none, some 300, none,
        some 50, none, false, none, none, 10, none⟩] : List TransportPool), FitsU32 pool := by
    simp [FitsU32]
  exact (@policy_round_trip ⟨_, []⟩ [] (by decide) hfits).1

end order

end StealthHub.Storage

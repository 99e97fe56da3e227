import StealthHub.Storage.Policies

set_option autoImplicit false

namespace StealthHub.Storage

open Routing Text Users

def clientRoutingKey : String := "client-routing"

def smartAutoKey : String := "smart-auto-client-routing-v1"

def dailyRoutingKey : String := "daily-client-routing-v2"

def smartAuto : String := "SMART-AUTO"

def legacyPools : List String :=
  ["STEALTH-TCP", "HTTPS-LIKE", "FAST-UDP", "AUTO-SAFE", "FAILOVER", "BALANCE", "SPEED",
    "RU-ACCESS"]

def replacedPools : List String :=
  legacyPools ++ ["FAST-AUTO", "REST-AUTO", "SMART-AUTO", "MANUAL"]

def legacyRules : List String :=
  ["geoip-ru", "private-10", "private-172", "private-192", "catch-all"]

def replacedRules : List String := legacyRules ++ defaultClientPolicy.rules.map (·.id)

def legacyRuleSets : List String := ["banking-direct", "direct-local", "proxy-ai", "streaming"]

def customDirect : RoutingRuleSet :=
  (defaultRoutingRuleSets.find? (·.slug = customDirectSlug)).get (by decide)

def routingSettingKey (slug field : String) : String :=
  "routing.ruleset." ++ trim slug ++ "." ++ field

def parseBoolSetting (value : String) : Bool := ["1", "true", "yes", "on"].contains (trim value)

def getSetting (db : Database) (key : String) : Option String := db.settings.get? (trim key)

def configuredRuleSet (db : Database) (ruleSet : RoutingRuleSet) : RoutingRuleSet :=
  { ruleSet with
    enabled := (getSetting db (routingSettingKey ruleSet.slug "enabled")).elim ruleSet.enabled
      parseBoolSetting
    target := (getSetting db (routingSettingKey ruleSet.slug "target")).getD ruleSet.target
    payload := (getSetting db (routingSettingKey ruleSet.slug "payload")).getD ruleSet.payload }

/-- The members of a stored pool stand at the first positions, so of the default
members those after them find their position free. -/
def fillMembers (row default : PoolRow) : PoolRow :=
  if row.pool.id = default.pool.id then
    { row with
      pool.members := row.pool.members ++ default.pool.members.drop row.pool.members.length }
  else row

theorem fillMembers_id {row default : PoolRow} :
    (fillMembers row default).pool.id = row.pool.id := by
  unfold fillMembers
  split
  next => rfl
  next => rfl

/-- `INSERT ... ON CONFLICT DO NOTHING` of a pool and of its members. -/
def insertDefaultPool (pools : PoolTable) (default : PoolRow) : PoolTable :=
  (pools.rewrite (fillMembers · default) fun a b h ↦ by
    simpa only [SameKey, fillMembers_id] using h).insertOrIgnore default

def ensureDefaultClientPolicy (db : Database) : Database :=
  { db with
    pools := (poolRows defaultClientPolicy.pools).foldl insertDefaultPool db.pools
    rules := defaultClientPolicy.rules.foldl Table.insertOrIgnore db.rules }

def installClientRouting (db : Database) : Database :=
  let ruleSets := defaultRoutingRuleSets.foldl
    (fun ruleSets ruleSet ↦ ruleSets.insertOrIgnore (configuredRuleSet db ruleSet)) db.ruleSets
  let db := ensureDefaultClientPolicy { db with ruleSets }
  { db with bootstrap := insert clientRoutingKey db.bootstrap }

def redirectRow (old : String) (row : PoolRow) : PoolRow :=
  { row with pool := redirectPool old smartAuto row.pool }

def redirectReferences (db : Database) (legacy : String) : Database :=
  { db with
    pools := db.pools.rewrite (redirectRow legacy) fun _ _ h ↦ h
    rules := db.rules.rewrite (redirectRule legacy smartAuto) fun _ _ h ↦ h
    ruleSets := redirectRuleSets legacy smartAuto db.ruleSets }

def dropPool (db : Database) (id : String) : Database :=
  { db with pools := db.pools.delete (·.pool.id = id) }

def dropRule (db : Database) (id : String) : Database :=
  { db with rules := db.rules.delete (·.id = id) }

def dropRuleSet (db : Database) (slug : String) : Database :=
  { db with
    ruleSets := db.ruleSets.delete (·.slug = slug)
    entries := db.entries.delete (·.ruleSetId = slug)
    sources := db.sources.delete (·.ruleSetId = slug) }

def dropRoutingSettings (db : Database) (slug : String) : Database :=
  { db with
    settings := ["enabled", "target", "payload"].foldl
      (fun settings field ↦ settings.erase (routingSettingKey slug field)) db.settings }

def ensureSmartAutoClientPolicy (db : Database) : Except String Database :=
  if smartAutoKey ∈ db.bootstrap then .ok db
  else do
    let db := legacyPools.foldl redirectReferences db
    let db := replacedPools.foldl dropPool db
    let db := replacedRules.foldl dropRule db
    let pools ← (poolRows defaultClientPolicy.pools).foldlM
      (fun pools row ↦ checkUnique (pools.insert row)) db.pools
    let rules ← defaultClientPolicy.rules.foldlM
      (fun rules rule ↦ checkUnique (rules.insert rule)) db.rules
    return { db with pools, rules, bootstrap := insert smartAutoKey db.bootstrap }

def ensureDailyRoutingCleanup (db : Database) : Except String Database :=
  if dailyRoutingKey ∈ db.bootstrap then .ok db
  else do
    let db := legacyPools.foldl (fun db legacy ↦ dropPool (redirectReferences db legacy) legacy) db
    let db := legacyRuleSets.foldl (fun db slug ↦ dropRoutingSettings (dropRuleSet db slug) slug) db
    let ruleSets ← checkUnique (db.ruleSets.upsert (·.slug = customDirectSlug) customDirect
      fun ruleSet ↦ { ruleSet with target := "DIRECT" })
    return { db with ruleSets, bootstrap := insert dailyRoutingKey db.bootstrap }

def ensureDefaultRoutingRuleSets (db : Database) : Except String Database := do
  let db := if clientRoutingKey ∈ db.bootstrap then db else installClientRouting db
  let db ← ensureSmartAutoClientPolicy db
  ensureDailyRoutingCleanup db

section Closed

variable {db db' : Database} {olds ids slugs : List String} {pool : TransportPool}
variable {old target : String}

theorem children_redirectPool {replacement : String} : (redirectPool old replacement pool).children =
    pool.children.map (retarget old replacement) := by
  unfold TransportPool.children redirectPool
  rw [List.map_append, List.filterMap_map, List.map_filterMap]
  congr 1
  · apply List.filterMap_congr
    intro member _
    cases member <;> rfl
  · cases pool.fallbackPool <;> rfl

def moved (olds : List String) (target : String) : String :=
  if target ∈ olds then smartAuto else target

theorem foldl_retarget (h : smartAuto ∉ olds) :
    olds.foldl (fun target old ↦ retarget old smartAuto target) target = moved olds target := by
  induction olds generalizing target with
  | nil => simp [moved]
  | cons old rest ih =>
    obtain ⟨hne, hrest⟩ := not_or.mp (List.mem_cons.not.mp h)
    rw [List.foldl_cons, ih hrest]
    by_cases heq : target = old
    · simp [moved, retarget, heq, hrest]
    · simp [moved, retarget, heq]

def movePool (olds : List String) (pool : TransportPool) : TransportPool :=
  olds.foldl (fun pool old ↦ redirectPool old smartAuto pool) pool

def moveRow (olds : List String) (row : PoolRow) : PoolRow :=
  { row with pool := movePool olds row.pool }

def moveRule (olds : List String) (rule : RoutingPolicyRule) : RoutingPolicyRule :=
  olds.foldl (fun rule old ↦ redirectRule old smartAuto rule) rule

def moveRuleSet (olds : List String) (ruleSet : RoutingRuleSet) : RoutingRuleSet :=
  olds.foldl (fun ruleSet old ↦ redirectRuleSet old smartAuto ruleSet) ruleSet

@[simp] theorem movePool_id : (movePool olds pool).id = pool.id := by
  induction olds generalizing pool with
  | nil => rfl
  | cons old rest ih => exact ih

theorem movePool_children (h : smartAuto ∉ olds) :
    (movePool olds pool).children = pool.children.map (moved olds) := by
  have hfold : (movePool olds pool).children = pool.children.map fun child ↦
      olds.foldl (fun target old ↦ retarget old smartAuto target) child := by
    clear h
    induction olds generalizing pool with
    | nil => simp [movePool]
    | cons old rest ih =>
      refine ih.trans ?_
      rw [children_redirectPool, List.map_map]
      rfl
  rw [hfold]
  exact List.map_congr_left fun child _ ↦ foldl_retarget h

@[simp] theorem moveRule_id {rule : RoutingPolicyRule} : (moveRule olds rule).id = rule.id := by
  induction olds generalizing rule with
  | nil => rfl
  | cons old rest ih => exact ih

theorem moveRule_target {rule : RoutingPolicyRule} (h : smartAuto ∉ olds) :
    (moveRule olds rule).target = moved olds rule.target := by
  rw [← foldl_retarget h]
  clear h
  induction olds generalizing rule with
  | nil => rfl
  | cons old rest ih => exact ih

@[simp] theorem moveRuleSet_slug {ruleSet : RoutingRuleSet} :
    (moveRuleSet olds ruleSet).slug = ruleSet.slug := by
  induction olds generalizing ruleSet with
  | nil => rfl
  | cons old rest ih => exact ih

theorem moveRuleSet_target {ruleSet : RoutingRuleSet} (h : smartAuto ∉ olds) :
    (moveRuleSet olds ruleSet).target = moved olds ruleSet.target := by
  rw [← foldl_retarget h]
  clear h
  induction olds generalizing ruleSet with
  | nil => rfl
  | cons old rest ih => exact ih

def moveReferences (olds : List String) (db : Database) : Database :=
  { db with
    pools := db.pools.rewrite (moveRow olds) fun _ _ h ↦ by simpa [SameKey, moveRow] using h
    rules := db.rules.rewrite (moveRule olds) fun _ _ h ↦ by simpa [SameKey] using h
    ruleSets := db.ruleSets.rewrite (moveRuleSet olds) fun _ _ h ↦ by simpa [SameKey] using h }

theorem moveReferences_nil : moveReferences [] db = db := by
  have hrow : moveRow [] = id := rfl
  have hrule : moveRule [] = id := rfl
  have hruleSet : moveRuleSet [] = id := rfl
  simp only [moveReferences, Table.rewrite, hrow, hrule, hruleSet, List.map_id]

theorem moveReferences_cons :
    moveReferences ids (redirectReferences db old) = moveReferences (old :: ids) db := by
  unfold moveReferences redirectReferences redirectRuleSets Table.rewrite
  simp only [List.map_map]
  rfl

theorem foldl_redirect : olds.foldl redirectReferences db = moveReferences olds db := by
  induction olds generalizing db with
  | nil => exact moveReferences_nil.symm
  | cons old rest ih => rw [List.foldl_cons, ih, moveReferences_cons]

theorem foldl_dropPool :
    ids.foldl dropPool db = { db with pools := db.pools.delete (·.pool.id ∈ ids) } := by
  induction ids generalizing db with
  | nil => simp [Table.delete]
  | cons id rest ih =>
    rw [List.foldl_cons, ih]
    simp [dropPool, Table.delete, List.filter_filter, Bool.and_comm]

theorem foldl_dropRule :
    ids.foldl dropRule db = { db with rules := db.rules.delete (·.id ∈ ids) } := by
  induction ids generalizing db with
  | nil => simp [Table.delete]
  | cons id rest ih =>
    rw [List.foldl_cons, ih]
    simp [dropRule, Table.delete, List.filter_filter, Bool.and_comm]

theorem foldl_redirect_drop :
    olds.foldl (fun db legacy ↦ dropPool (redirectReferences db legacy) legacy) db =
      olds.foldl dropPool (moveReferences olds db) := by
  induction olds generalizing db with
  | nil => exact moveReferences_nil.symm
  | cons old rest ih =>
    rw [List.foldl_cons, ih, List.foldl_cons, ← moveReferences_cons]
    congr 1
    simp [moveReferences, dropPool, Table.rewrite, Table.delete, List.filter_map,
      Function.comp_def, moveRow]

theorem foldl_dropRuleSet : ∃ settings entries sources,
    slugs.foldl (fun db slug ↦ dropRoutingSettings (dropRuleSet db slug) slug) db =
      { db with
        ruleSets := db.ruleSets.delete (·.slug ∈ slugs)
        settings
        entries
        sources } := by
  induction slugs generalizing db with
  | nil => exact ⟨db.settings, db.entries, db.sources, by simp [Table.delete]⟩
  | cons slug rest ih =>
    obtain ⟨settings, entries, sources, hrest⟩ := @ih (dropRoutingSettings (dropRuleSet db slug) slug)
    refine ⟨settings, entries, sources, ?_⟩
    rw [List.foldl_cons, hrest]
    simp [dropRoutingSettings, dropRuleSet, Table.delete, List.filter_filter, Bool.and_comm]

theorem mem_keptPools :
    (∃ row ∈ ((moveReferences olds db).pools.delete (·.pool.id ∈ ids)).rows, row.pool = pool) ↔
      ∃ kept ∈ (loadClientPolicy db).pools, kept.id ∉ ids ∧ movePool olds kept = pool := by
  simp only [Table.mem_delete, moveReferences, Table.mem_rewrite, mem_loadedPools,
    decide_eq_false_iff_not]
  constructor
  · rintro ⟨_, ⟨⟨row, hrow, rfl⟩, hkept⟩, hpool⟩
    exact ⟨row.pool, ⟨row, hrow, rfl⟩, by simpa [moveRow] using hkept, hpool⟩
  · rintro ⟨_, ⟨row, hrow, rfl⟩, hkept, hpool⟩
    exact ⟨moveRow olds row, ⟨⟨row, hrow, rfl⟩, by simpa [moveRow] using hkept⟩, hpool⟩

theorem mem_keptRules {rule : RoutingPolicyRule} :
    rule ∈ ((moveReferences olds db).rules.delete (·.id ∈ ids)).rows ↔
      ∃ kept ∈ (loadClientPolicy db).rules, kept.id ∉ ids ∧ moveRule olds kept = rule := by
  simp only [Table.mem_delete, moveReferences, Table.mem_rewrite, mem_loadedRules,
    decide_eq_false_iff_not]
  constructor
  · rintro ⟨⟨kept, hkept, rfl⟩, hfree⟩
    exact ⟨kept, hkept, by simpa using hfree, rfl⟩
  · rintro ⟨kept, hkept, hfree, rfl⟩
    exact ⟨⟨kept, hkept, rfl⟩, by simpa using hfree⟩

theorem insertRows_ok {α : Type} {clash : α → α → Prop} [DecidableRel clash] {t : Table α clash}
    {rows : List α} (h : (t.rows ++ rows).Pairwise fun a b ↦ ¬clash a b) :
    ∃ u, rows.foldlM (fun t row ↦ checkUnique (Table.insert t row)) t = .ok u ∧
      u.rows = t.rows ++ rows := by
  induction rows generalizing t with
  | nil => exact ⟨t, rfl, by simp⟩
  | cons row rest ih =>
    have hfree : ∀ other ∈ t.rows, ¬clash other row := by
      intro other hother
      exact (List.pairwise_append.mp h).2.2 other hother row (by simp)
    obtain ⟨u, hinsert, hrows⟩ := Table.insert_of hfree
    obtain ⟨v, hv, hvrows⟩ := @ih u (by simpa [hrows] using h)
    refine ⟨v, ?_, by simp [hvrows, hrows]⟩
    rw [List.foldlM_cons, hinsert]
    exact hv

end Closed

section Specifications

variable {db db' : Database} {gone goneRules : List String} {added : ClientPolicy}

/-- The pools and rules of a store stay, apart from some that are gone and some that
are added, with the references to the legacy pools moved. -/
structure Carried (gone goneRules : List String) (added : ClientPolicy) (db db' : Database) :
    Prop where
  pools : ∀ pool, pool ∈ (loadClientPolicy db').pools ↔
    (∃ kept ∈ (loadClientPolicy db).pools, kept.id ∉ gone ∧ movePool legacyPools kept = pool) ∨
      pool ∈ added.pools
  rules : ∀ rule, rule ∈ (loadClientPolicy db').rules ↔
    (∃ kept ∈ (loadClientPolicy db).rules, kept.id ∉ goneRules ∧
      moveRule legacyPools kept = rule) ∨ rule ∈ added.rules
  profiles : db'.profiles = db.profiles

/-- What `ensure_smart_auto_client_policy` leaves. -/
structure SmartAutoInstalled (db db' : Database) : Prop
    extends Carried replacedPools replacedRules defaultClientPolicy db db' where
  ruleSets : ∀ ruleSet, ruleSet ∈ db'.ruleSets.rows ↔
    ∃ kept ∈ db.ruleSets.rows, moveRuleSet legacyPools kept = ruleSet
  bootstrap : db'.bootstrap = insert smartAutoKey db.bootstrap

/-- What `ensure_daily_routing_cleanup` leaves. -/
structure Cleaned (db db' : Database) : Prop extends Carried legacyPools [] ⟨[], []⟩ db db' where
  ruleSets : ∀ ruleSet, ruleSet ∈ db'.ruleSets.rows ∧ ruleSet.slug ≠ customDirectSlug ↔
    ∃ kept ∈ db.ruleSets.rows, kept.slug ∉ legacyRuleSets ∧ kept.slug ≠ customDirectSlug ∧
      moveRuleSet legacyPools kept = ruleSet
  customDirect : ∃ ruleSet ∈ db'.ruleSets.rows, ruleSet.slug = customDirectSlug
  target : ∀ ruleSet ∈ db'.ruleSets.rows, ruleSet.slug = customDirectSlug →
    ruleSet.target = "DIRECT"
  bootstrap : db'.bootstrap = insert dailyRoutingKey db.bootstrap

theorem poolRows_mem {pools : List TransportPool} {pool : TransportPool} :
    (∃ row ∈ poolRows pools, row.pool = pool) ↔ pool ∈ pools := by
  rw [← List.mem_map, poolRows_pools]

theorem defaultPools_distinct : (poolRows defaultClientPolicy.pools).Pairwise fun a b ↦
    ¬SameKey (fun row : PoolRow ↦ row.pool.id) a b := by
  decide

theorem defaultRules_distinct : defaultClientPolicy.rules.Pairwise fun a b ↦
    ¬SameKey (fun rule : RoutingPolicyRule ↦ rule.id) a b := by
  decide

theorem smartAuto_ok (h : smartAutoKey ∉ db.bootstrap) :
    ∃ db', ensureSmartAutoClientPolicy db = .ok db' ∧ SmartAutoInstalled db db' := by
  have hdefaults : ∀ row ∈ poolRows defaultClientPolicy.pools, row.pool.id ∈ replacedPools := by
    decide
  unfold ensureSmartAutoClientPolicy
  simp only [if_neg h, foldl_redirect, foldl_dropPool, foldl_dropRule]
  set kept := (moveReferences legacyPools db).pools.delete (·.pool.id ∈ replacedPools) with hkept
  set keptRules := (moveReferences legacyPools db).rules.delete (·.id ∈ replacedRules) with hkeptRules
  have hpools : (kept.rows ++ poolRows defaultClientPolicy.pools).Pairwise fun a b ↦
      ¬SameKey (fun row : PoolRow ↦ row.pool.id) a b := by
    refine List.pairwise_append.mpr ⟨kept.distinct, defaultPools_distinct, ?_⟩
    intro row hrow default hdefault hsame
    have hfree := (Table.mem_delete.mp hrow).2
    rw [show row.pool.id = default.pool.id from hsame] at hfree
    simp [hdefaults default hdefault] at hfree
  have hrules : (keptRules.rows ++ defaultClientPolicy.rules).Pairwise fun a b ↦
      ¬SameKey (fun rule : RoutingPolicyRule ↦ rule.id) a b := by
    refine List.pairwise_append.mpr ⟨keptRules.distinct, defaultRules_distinct, ?_⟩
    intro rule hrule default hdefault hsame
    have hfree := (Table.mem_delete.mp hrule).2
    rw [show rule.id = default.id from hsame] at hfree
    simp [replacedRules, List.mem_map_of_mem hdefault] at hfree
  obtain ⟨pools, hpoolsOk, hpoolRows⟩ := insertRows_ok hpools
  obtain ⟨rules, hrulesOk, hruleRows⟩ := insertRows_ok hrules
  refine ⟨_, Except.bind_eq_ok.mpr ⟨pools, hpoolsOk, Except.bind_eq_ok.mpr ⟨rules, hrulesOk, rfl⟩⟩,
    ⟨?_, ?_, rfl⟩, ?_, rfl⟩
  · intro pool
    rw [mem_loadedPools, hpoolRows, ← mem_keptPools]
    simp only [List.mem_append, or_and_right, exists_or, poolRows_mem]
    exact Iff.rfl
  · intro rule
    rw [mem_loadedRules, hruleRows, List.mem_append, ← mem_keptRules]
  · intro ruleSet
    exact List.mem_map

theorem cleanup_ok (h : dailyRoutingKey ∉ db.bootstrap) :
    ∃ db', ensureDailyRoutingCleanup db = .ok db' ∧ Cleaned db db' := by
  set moved := moveReferences legacyPools db with hmoved
  obtain ⟨settings, entries, sources, hdrop⟩ := @foldl_dropRuleSet
    { moved with pools := moved.pools.delete (·.pool.id ∈ legacyPools) } legacyRuleSets
  have hkept : ∀ ruleSet, ruleSet ∈ (moved.ruleSets.delete (·.slug ∈ legacyRuleSets)).rows ↔
      ∃ kept ∈ db.ruleSets.rows, kept.slug ∉ legacyRuleSets ∧
        moveRuleSet legacyPools kept = ruleSet := by
    intro ruleSet
    simp only [Table.mem_delete, hmoved, moveReferences, Table.mem_rewrite,
      decide_eq_false_iff_not]
    constructor
    · rintro ⟨⟨kept, hkept, rfl⟩, hfree⟩
      exact ⟨kept, hkept, by simpa using hfree, rfl⟩
    · rintro ⟨kept, hkept, hfree, rfl⟩
      exact ⟨⟨kept, hkept, rfl⟩, by simpa using hfree⟩
  have hslug : customDirect.slug = customDirectSlug := rfl
  obtain ⟨ruleSets, hupsert⟩ : ∃ ruleSets,
      (moved.ruleSets.delete (·.slug ∈ legacyRuleSets)).upsert (·.slug = customDirectSlug)
        customDirect (fun ruleSet ↦ { ruleSet with target := "DIRECT" }) = some ruleSets := by
    apply Table.upsert_of
    · intro a _ b _ hsame
      have hkeeps : ∀ ruleSet : RoutingRuleSet,
          (if decide (ruleSet.slug = customDirectSlug) = true then
            { ruleSet with target := "DIRECT" } else ruleSet).slug = ruleSet.slug := by
        intro ruleSet
        split
        next => rfl
        next => rfl
      simpa only [SameKey, hkeeps] using hsame
    · intro other _ hother hsame
      simp only [SameKey, hslug] at hsame
      simp [hsame] at hother
  have hmem := fun ruleSet ↦ @Table.mem_upsert _ _ _ _ _ ruleSet _ _ _ hupsert
  unfold ensureDailyRoutingCleanup
  simp only [if_neg h, foldl_redirect_drop, foldl_dropPool]
  rw [hdrop]
  refine ⟨_, Except.bind_eq_ok.mpr ⟨ruleSets, ?_, rfl⟩, ⟨?_, ?_, rfl⟩, ?_, ?_, ?_, rfl⟩
  · rw [hupsert]
    rfl
  · intro pool
    rw [mem_loadedPools, ← mem_keptPools]
    exact (or_iff_left List.not_mem_nil).symm
  · intro rule
    rw [mem_loadedRules, or_iff_left List.not_mem_nil]
    simp only [hmoved, moveReferences, Table.mem_rewrite, mem_loadedRules, List.not_mem_nil,
      not_false_eq_true, true_and]
  · intro ruleSet
    dsimp only
    rw [hmem]
    constructor
    · rintro ⟨hrow, hne⟩
      rcases hrow with ⟨hrow, -⟩ | ⟨old, -, hold, rfl⟩ | ⟨-, rfl⟩
      · obtain ⟨kept, hkeptRow, hfree, rfl⟩ := (hkept ruleSet).mp hrow
        exact ⟨kept, hkeptRow, hfree, by simpa using hne, rfl⟩
      · exact absurd (by simpa using hold) hne
      · exact absurd hslug hne
    · rintro ⟨kept, hkeptRow, hfree, hne, rfl⟩
      refine ⟨.inl ⟨(hkept _).mpr ⟨kept, hkeptRow, hfree, rfl⟩, ?_⟩, ?_⟩
      · simpa using hne
      · simpa using hne
  · by_cases hnone : ∀ other ∈ (moved.ruleSets.delete (·.slug ∈ legacyRuleSets)).rows,
        decide (other.slug = customDirectSlug) = false
    · exact ⟨customDirect, (hmem _).mpr (.inr (.inr ⟨hnone, rfl⟩)), hslug⟩
    · push Not at hnone
      obtain ⟨old, hold, hcustom⟩ := hnone
      have hcustom : old.slug = customDirectSlug := by simpa using hcustom
      exact ⟨{ old with target := "DIRECT" },
        (hmem _).mpr (.inr (.inl ⟨old, hold, by simpa using hcustom, rfl⟩)), hcustom⟩
  · intro ruleSet hrow hcustom
    rcases (hmem ruleSet).mp hrow with ⟨-, hne⟩ | ⟨old, -, -, rfl⟩ | ⟨-, rfl⟩
    · simp [hcustom] at hne
    · rfl
    · rfl

/-- The first installation touches nothing that the upgrade after it keeps, but for
the product-owned rule set. -/
structure ClientRoutingInstalled (db db' : Database) : Prop where
  pools : ∀ pool, pool.id ∉ replacedPools →
    (pool ∈ (loadClientPolicy db').pools ↔ pool ∈ (loadClientPolicy db).pools)
  rules : ∀ rule, rule.id ∉ replacedRules →
    (rule ∈ (loadClientPolicy db').rules ↔ rule ∈ (loadClientPolicy db).rules)
  ruleSets : ∀ ruleSet, ruleSet.slug ≠ customDirectSlug →
    (ruleSet ∈ db'.ruleSets.rows ↔ ruleSet ∈ db.ruleSets.rows)
  profiles : db'.profiles = db.profiles
  bootstrap : db'.bootstrap = insert clientRoutingKey db.bootstrap

theorem mem_insertDefaultPool {pools : PoolTable} {row default : PoolRow}
    (hne : row.pool.id ≠ default.pool.id) :
    row ∈ (insertDefaultPool pools default).rows ↔ row ∈ pools.rows := by
  have hother : row ≠ default := fun h ↦ hne (congrArg (·.pool.id) h)
  unfold insertDefaultPool
  rw [Table.mem_insertOrIgnore_of_ne hother, Table.mem_rewrite]
  constructor
  · rintro ⟨old, hold, rfl⟩
    rw [fillMembers_id] at hne
    rwa [fillMembers, if_neg hne]
  · intro hrow
    exact ⟨row, hrow, by rw [fillMembers, if_neg hne]⟩

theorem clientRouting_installed : ClientRoutingInstalled db (installClientRouting db) := by
  have hpools : ∀ (defaults : List PoolRow) (pools : PoolTable) (row : PoolRow),
      (∀ default ∈ defaults, row.pool.id ≠ default.pool.id) →
        (row ∈ (defaults.foldl insertDefaultPool pools).rows ↔ row ∈ pools.rows) := by
    intro defaults
    induction defaults with
    | nil => exact fun _ _ _ ↦ Iff.rfl
    | cons default rest ih =>
      intro pools row hne
      rw [List.foldl_cons, ih _ _ fun other hother ↦ hne other (List.mem_cons_of_mem _ hother)]
      exact mem_insertDefaultPool (hne default List.mem_cons_self)
  have hrules : ∀ (defaults : List RoutingPolicyRule) (rules : RuleTable) (rule : RoutingPolicyRule),
      (∀ default ∈ defaults, rule.id ≠ default.id) →
        (rule ∈ (defaults.foldl Table.insertOrIgnore rules).rows ↔ rule ∈ rules.rows) := by
    intro defaults
    induction defaults with
    | nil => exact fun _ _ _ ↦ Iff.rfl
    | cons default rest ih =>
      intro rules rule hne
      rw [List.foldl_cons, ih _ _ fun other hother ↦ hne other (List.mem_cons_of_mem _ hother)]
      apply Table.mem_insertOrIgnore_of_ne
      intro heq
      exact hne default List.mem_cons_self (congrArg (·.id) heq)
  have hdefaults : ∀ row ∈ poolRows defaultClientPolicy.pools, row.pool.id ∈ replacedPools := by
    decide
  refine ⟨?_, ?_, ?_, rfl, rfl⟩
  · intro pool hpool
    rw [mem_loadedPools, mem_loadedPools]
    apply exists_congr
    intro row
    rw [and_congr_left_iff]
    rintro rfl
    apply hpools
    intro default hdefault heq
    exact hpool (heq ▸ hdefaults default hdefault)
  · intro rule hrule
    rw [mem_loadedRules, mem_loadedRules]
    apply hrules
    intro default hdefault heq
    apply hrule
    rw [heq]
    exact List.mem_append_right _ (List.mem_map_of_mem hdefault)
  · intro ruleSet hne
    apply Table.mem_insertOrIgnore_of_ne
    intro heq
    exact hne (congrArg (·.slug) heq)

end Specifications

end StealthHub.Storage

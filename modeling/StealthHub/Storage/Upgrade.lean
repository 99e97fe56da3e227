import StealthHub.Data.Acyclic
import StealthHub.Storage.Bootstrap

set_option autoImplicit false

namespace StealthHub.Storage

open Relation Routing Text Users

def IsPool (db : Database) (id : String) : Prop :=
  ∃ pool ∈ (loadClientPolicy db).pools, pool.id = id

def NamesPool (db : Database) (target : String) : Prop :=
  target ≠ "DIRECT" ∧ target ≠ "REJECT" ∧ stripPrefix "capability:" target = none ∧
    ∀ record ∈ db.profiles.rows, record.name ≠ target

def Resolves (db : Database) (target : String) : Prop := NamesPool db target → IsPool db target

structure PolicyClosed (db : Database) : Prop where
  pools : ∀ pool ∈ (loadClientPolicy db).pools, ∀ child ∈ pool.children, IsPool db child
  rules : ∀ rule ∈ (loadClientPolicy db).rules, Resolves db rule.target

/-- Every reference to a pool names a stored one. -/
structure RoutingClosed (db : Database) : Prop extends PolicyClosed db where
  ruleSets : ∀ ruleSet ∈ db.ruleSets.rows, Resolves db ruleSet.target

/-- A stored pool refers to another, as a member or as its fallback. -/
def PoolRefers (db : Database) (a b : String) : Prop :=
  ∃ pool ∈ (loadClientPolicy db).pools, pool.id = a ∧ b ∈ pool.children

/-- Where the cleanup moves a reference there is a pool to move it to, which does not
itself lead to what is removed. -/
structure Replaceable (db : Database) : Prop where
  child : ∀ pool ∈ (loadClientPolicy db).pools, pool.id ∉ legacyPools →
    ∀ child ∈ pool.children, child ∈ legacyPools → IsPool db smartAuto
  rule : ∀ rule ∈ (loadClientPolicy db).rules, rule.target ∈ legacyPools → Resolves db smartAuto
  ruleSet : ∀ ruleSet ∈ db.ruleSets.rows, ruleSet.slug ∉ legacyRuleSets →
    ruleSet.slug ≠ customDirectSlug → ruleSet.target ∈ legacyPools → Resolves db smartAuto
  behind : ∀ legacy ∈ legacyPools, ¬TransGen (PoolRefers db) smartAuto legacy

/-- The cleanup does not run alone, or what it needs is there. -/
def Upgradable (db : Database) : Prop :=
  smartAutoKey ∈ db.bootstrap → dailyRoutingKey ∉ db.bootstrap → Replaceable db

variable {db db' : Database} {gone goneRules : List String} {added : ClientPolicy}
variable {id target : String}

theorem smartAuto_not_legacy : smartAuto ∉ legacyPools := by decide

theorem moved_legacy (h : target ∈ legacyPools) : moved legacyPools target = smartAuto := if_pos h

theorem moved_other (h : target ∉ legacyPools) : moved legacyPools target = target := if_neg h

theorem Carried.isPool (h : Carried gone goneRules added db db') :
    IsPool db' id ↔ IsPool db id ∧ id ∉ gone ∨ ∃ pool ∈ added.pools, pool.id = id := by
  constructor
  · rintro ⟨pool, hpool, rfl⟩
    rcases (h.pools pool).mp hpool with ⟨kept, hkept, hfree, rfl⟩ | hadded
    · exact .inl ⟨⟨kept, hkept, movePool_id.symm⟩, by simpa using hfree⟩
    · exact .inr ⟨pool, hadded, rfl⟩
  · rintro (⟨⟨kept, hkept, rfl⟩, hfree⟩ | ⟨pool, hadded, rfl⟩)
    · exact ⟨_, (h.pools _).mpr (.inl ⟨kept, hkept, hfree, rfl⟩), movePool_id⟩
    · exact ⟨pool, (h.pools pool).mpr (.inr hadded), rfl⟩

theorem Carried.namesPool (h : Carried gone goneRules added db db') :
    NamesPool db' target ↔ NamesPool db target := by
  rw [NamesPool, NamesPool, h.profiles]

theorem Carried.refers {a b : String} (h : Carried gone goneRules added db db') :
    PoolRefers db' a b ↔
      a ∉ gone ∧ (PoolRefers db a b ∧ b ∉ legacyPools ∨
        b = smartAuto ∧ ∃ c, c ∈ legacyPools ∧ PoolRefers db a c) ∨
      ∃ pool ∈ added.pools, pool.id = a ∧ b ∈ pool.children := by
  have hchild : ∀ kept : TransportPool, b ∈ (movePool legacyPools kept).children ↔
      b ∈ kept.children ∧ b ∉ legacyPools ∨
        b = smartAuto ∧ ∃ c, c ∈ legacyPools ∧ c ∈ kept.children := by
    intro kept
    rw [movePool_children smartAuto_not_legacy, List.mem_map]
    constructor
    · rintro ⟨c, hc, rfl⟩
      by_cases hlegacy : c ∈ legacyPools
      · exact .inr ⟨moved_legacy hlegacy, c, hlegacy, hc⟩
      · rw [moved_other hlegacy]
        exact .inl ⟨hc, hlegacy⟩
    · rintro (⟨hb, hother⟩ | ⟨rfl, c, hlegacy, hc⟩)
      · exact ⟨b, hb, moved_other hother⟩
      · exact ⟨c, hc, moved_legacy hlegacy⟩
  constructor
  · rintro ⟨pool, hpool, rfl, hb⟩
    rcases (h.pools pool).mp hpool with ⟨kept, hkept, hfree, rfl⟩ | hadded
    · rw [movePool_id]
      refine .inl ⟨hfree, ?_⟩
      rcases (hchild kept).mp hb with ⟨hb, hother⟩ | ⟨hb, c, hlegacy, hc⟩
      · exact .inl ⟨⟨kept, hkept, rfl, hb⟩, hother⟩
      · exact .inr ⟨hb, c, hlegacy, kept, hkept, rfl, hc⟩
    · exact .inr ⟨pool, hadded, rfl, hb⟩
  · rintro (⟨hfree, ⟨⟨kept, hkept, rfl, hb⟩, hother⟩ | ⟨hb, c, hlegacy, kept, hkept, rfl, hc⟩⟩ |
      ⟨pool, hadded, rfl, hb⟩)
    · exact ⟨_, (h.pools _).mpr (.inl ⟨kept, hkept, hfree, rfl⟩), movePool_id,
        (hchild kept).mpr (.inl ⟨hb, hother⟩)⟩
    · exact ⟨_, (h.pools _).mpr (.inl ⟨kept, hkept, hfree, rfl⟩), movePool_id,
        (hchild kept).mpr (.inr ⟨hb, c, hlegacy, hc⟩)⟩
    · exact ⟨pool, (h.pools pool).mpr (.inr hadded), rfl, hb⟩

theorem PolicyClosed.isPool {a b : String} (h : PolicyClosed db) (hrefers : PoolRefers db a b) :
    IsPool db b := by
  obtain ⟨pool, hpool, -, hb⟩ := hrefers
  exact h.pools pool hpool b hb

theorem isPool_of_path {a b : String} (h : PolicyClosed db) (hpath : TransGen (PoolRefers db) a b) :
    IsPool db b := by
  obtain ⟨c, -, hlast⟩ := TransGen.tail'_iff.mp hpath
  exact h.isPool hlast

section SmartAuto

def defaultPoolIds : List String := defaultClientPolicy.pools.map (·.id)

def defaultRank (id : String) : ℕ :=
  if id = "MANUAL" then 2 else if id = smartAuto then 1 else 0

theorem replaced_iff : id ∈ replacedPools ↔ id ∈ legacyPools ∨ id ∈ defaultPoolIds :=
  List.mem_append

theorem defaultPools_descend : ∀ pool ∈ defaultClientPolicy.pools, ∀ child ∈ pool.children,
    child ∈ defaultPoolIds ∧ defaultRank child < defaultRank pool.id := by
  decide

theorem defaultRules_target : ∀ rule ∈ defaultClientPolicy.rules,
    rule.target = "DIRECT" ∨ rule.target = smartAuto := by
  decide

theorem smartAuto_default : smartAuto ∈ defaultPoolIds := by decide

variable (h : Carried replacedPools replacedRules defaultClientPolicy db db')
include h

theorem isPool_default (hid : id ∈ defaultPoolIds) : IsPool db' id := by
  obtain ⟨pool, hpool, rfl⟩ := List.mem_map.mp hid
  exact h.isPool.mpr (.inr ⟨pool, hpool, rfl⟩)

theorem isPool_moved (hid : IsPool db id) : IsPool db' (moved legacyPools id) := by
  by_cases hlegacy : id ∈ legacyPools
  · rw [moved_legacy hlegacy]
    exact isPool_default h smartAuto_default
  · rw [moved_other hlegacy]
    by_cases hdefault : id ∈ defaultPoolIds
    · exact isPool_default h hdefault
    · refine h.isPool.mpr (.inl ⟨hid, ?_⟩)
      intro hreplaced
      exact (replaced_iff.mp hreplaced).elim hlegacy hdefault

theorem resolves_moved (hresolves : Resolves db target) :
    Resolves db' (moved legacyPools target) := by
  intro hnames
  by_cases hlegacy : target ∈ legacyPools
  · rw [moved_legacy hlegacy]
    exact isPool_default h smartAuto_default
  · apply isPool_moved h
    apply hresolves
    rw [moved_other hlegacy] at hnames
    exact h.namesPool.mp hnames

theorem smartAuto_closed (hclosed : PolicyClosed db) : PolicyClosed db' := by
  refine ⟨?_, ?_⟩
  · intro pool hpool child hchild
    rcases (h.pools pool).mp hpool with ⟨kept, hkept, -, rfl⟩ | hadded
    · rw [movePool_children smartAuto_not_legacy] at hchild
      obtain ⟨old, hold, rfl⟩ := List.mem_map.mp hchild
      exact isPool_moved h (hclosed.pools kept hkept old hold)
    · exact isPool_default h (defaultPools_descend pool hadded child hchild).1
  · intro rule hrule
    rcases (h.rules rule).mp hrule with ⟨kept, hkept, -, rfl⟩ | hadded
    · rw [moveRule_target smartAuto_not_legacy]
      exact resolves_moved h (hclosed.rules kept hkept)
    · intro hnames
      rcases defaultRules_target rule hadded with hdirect | hsmart
      · exact absurd hdirect hnames.1
      · rw [hsmart]
        exact isPool_default h smartAuto_default

theorem smartAuto_acyclic (hacyclic : Acyclic (PoolRefers db)) : Acyclic (PoolRefers db') := by
  have hkept : ∀ a b, PoolRefers db' a b → a ∉ defaultPoolIds → b ∉ defaultPoolIds →
      PoolRefers db a b := by
    intro a b hrefers ha hb
    rcases h.refers.mp hrefers with ⟨-, ⟨hold, -⟩ | ⟨rfl, -⟩⟩ | ⟨pool, hadded, rfl, -⟩
    · exact hold
    · exact absurd smartAuto_default hb
    · exact absurd (List.mem_map_of_mem hadded) ha
  apply hacyclic.of_descending ?_ hkept
  · exact defaultRank
  · intro a b hrefers ha
    rcases h.refers.mp hrefers with ⟨hfree, -⟩ | ⟨pool, hadded, rfl, hb⟩
    · exact absurd (replaced_iff.mpr (.inr ha)) hfree
    · exact defaultPools_descend pool hadded b hb

theorem smartAuto_no_legacy (hid : id ∈ legacyPools) : ¬IsPool db' id := by
  intro hpool
  have hother : ∀ pool ∈ defaultClientPolicy.pools, pool.id ∉ legacyPools := by decide
  rcases h.isPool.mp hpool with ⟨-, hfree⟩ | ⟨pool, hadded, rfl⟩
  · exact hfree (replaced_iff.mpr (.inl hid))
  · exact hother pool hadded hid

end SmartAuto

section Cleanup

variable (h : Cleaned db db')
include h

theorem cleaned_isPool : IsPool db' id ↔ IsPool db id ∧ id ∉ legacyPools := by
  rw [h.isPool]
  simp

theorem cleaned_refers {a b : String} :
    PoolRefers db' a b ↔ Redirected (PoolRefers db) (· ∈ legacyPools) smartAuto a b := by
  rw [h.refers]
  simp [Redirected]

theorem cleaned_smartAuto : IsPool db' smartAuto ↔ IsPool db smartAuto := by
  rw [cleaned_isPool h]
  exact and_iff_left smartAuto_not_legacy

theorem cleaned_resolves (hresolves : Resolves db target)
    (hmoved : target ∈ legacyPools → Resolves db smartAuto) :
    Resolves db' (moved legacyPools target) := by
  intro hnames
  by_cases hlegacy : target ∈ legacyPools
  · rw [moved_legacy hlegacy] at hnames ⊢
    exact (cleaned_smartAuto h).mpr (hmoved hlegacy (h.namesPool.mp hnames))
  · rw [moved_other hlegacy] at hnames ⊢
    exact (cleaned_isPool h).mpr ⟨hresolves (h.namesPool.mp hnames), hlegacy⟩

theorem resolves_of_cleaned (hlegacy : target ∈ legacyPools)
    (hresolves : Resolves db' (moved legacyPools target)) : Resolves db smartAuto := by
  intro hnames
  rw [moved_legacy hlegacy] at hresolves
  exact (cleaned_smartAuto h).mp (hresolves (h.namesPool.mpr hnames))

theorem cleaned_iff (hclosed : PolicyClosed db) (hacyclic : Acyclic (PoolRefers db))
    (hruleSets : ∀ ruleSet ∈ db.ruleSets.rows, ruleSet.slug ≠ customDirectSlug →
      Resolves db ruleSet.target) :
    RoutingClosed db' ∧ Acyclic (PoolRefers db') ↔ Replaceable db := by
  have hgraph : Acyclic (PoolRefers db') ↔
      ∀ legacy ∈ legacyPools, ¬TransGen (PoolRefers db) smartAuto legacy := by
    have hrefers : PoolRefers db' = Redirected (PoolRefers db) (· ∈ legacyPools) smartAuto := by
      funext a b
      exact propext (cleaned_refers h)
    rw [hrefers]
    exact acyclic_redirected_iff hacyclic smartAuto_not_legacy
  rw [hgraph]
  constructor
  · rintro ⟨hclosed', hbehind⟩
    refine ⟨?_, ?_, ?_, hbehind⟩
    · intro pool hpool hfree child hchild hlegacy
      have hrefers : PoolRefers db' pool.id smartAuto := (cleaned_refers h).mpr
        ⟨hfree, .inr ⟨rfl, child, hlegacy, pool, hpool, rfl, hchild⟩⟩
      exact (cleaned_smartAuto h).mp (hclosed'.isPool hrefers)
    · intro rule hrule hlegacy
      have hmoved := hclosed'.rules _ ((h.rules _).mpr (.inl ⟨rule, hrule, List.not_mem_nil, rfl⟩))
      rw [moveRule_target smartAuto_not_legacy] at hmoved
      exact resolves_of_cleaned h hlegacy hmoved
    · intro ruleSet hruleSet hkept hother hlegacy
      have hmem := ((h.ruleSets _).mpr ⟨ruleSet, hruleSet, hkept, hother, rfl⟩).1
      have hmoved := hclosed'.ruleSets _ hmem
      rw [moveRuleSet_target smartAuto_not_legacy] at hmoved
      exact resolves_of_cleaned h hlegacy hmoved
  · intro hreplaceable
    refine ⟨⟨⟨?_, ?_⟩, ?_⟩, hreplaceable.behind⟩
    · intro pool hpool child hchild
      have hrefers := (cleaned_refers h).mp ⟨pool, hpool, rfl, hchild⟩
      obtain ⟨hfree, ⟨hold, hother⟩ | ⟨rfl, c, hlegacy, kept, hkept, hid, hc⟩⟩ := hrefers
      · exact (cleaned_isPool h).mpr ⟨hclosed.isPool hold, hother⟩
      · exact (cleaned_smartAuto h).mpr (hreplaceable.child kept hkept (hid ▸ hfree) c hc hlegacy)
    · intro rule hrule
      rcases (h.rules rule).mp hrule with ⟨kept, hkept, -, rfl⟩ | hadded
      · rw [moveRule_target smartAuto_not_legacy]
        exact cleaned_resolves h (hclosed.rules kept hkept) (hreplaceable.rule kept hkept)
      · cases hadded
    · intro ruleSet hruleSet
      by_cases hcustom : ruleSet.slug = customDirectSlug
      · intro hnames
        exact absurd (h.target ruleSet hruleSet hcustom) hnames.1
      · obtain ⟨kept, hkept, hfree, hother, rfl⟩ := (h.ruleSets ruleSet).mp ⟨hruleSet, hcustom⟩
        rw [moveRuleSet_target smartAuto_not_legacy]
        exact cleaned_resolves h (hruleSets kept hkept hother)
          (hreplaceable.ruleSet kept hkept hfree hother)

end Cleanup

theorem Carried.of_installed {installed : Database} (hfirst : ClientRoutingInstalled db installed)
    (h : Carried replacedPools replacedRules defaultClientPolicy installed db') :
    Carried replacedPools replacedRules defaultClientPolicy db db' := by
  refine ⟨?_, ?_, h.profiles.trans hfirst.profiles⟩
  · intro pool
    rw [h.pools]
    apply or_congr_left
    apply exists_congr
    intro kept
    constructor
    · rintro ⟨hkept, hfree, hpool⟩
      exact ⟨(hfirst.pools kept hfree).mp hkept, hfree, hpool⟩
    · rintro ⟨hkept, hfree, hpool⟩
      exact ⟨(hfirst.pools kept hfree).mpr hkept, hfree, hpool⟩
  · intro rule
    rw [h.rules]
    apply or_congr_left
    apply exists_congr
    intro kept
    constructor
    · rintro ⟨hkept, hfree, hrule⟩
      exact ⟨(hfirst.rules kept hfree).mp hkept, hfree, hrule⟩
    · rintro ⟨hkept, hfree, hrule⟩
      exact ⟨(hfirst.rules kept hfree).mpr hkept, hfree, hrule⟩

theorem smartAuto_replaceable (h : Carried replacedPools replacedRules defaultClientPolicy db db')
    (hclosed : PolicyClosed db) : Replaceable db' := by
  have hsmart : IsPool db' smartAuto := isPool_default h smartAuto_default
  refine ⟨fun _ _ _ _ _ _ ↦ hsmart, fun _ _ _ _ ↦ hsmart, fun _ _ _ _ _ _ ↦ hsmart, ?_⟩
  intro legacy hlegacy hpath
  exact smartAuto_no_legacy h hlegacy (isPool_of_path (smartAuto_closed h hclosed) hpath)

theorem smartAuto_then_cleanup
    (h : Carried replacedPools replacedRules defaultClientPolicy db db')
    (hclosed : PolicyClosed db) (hacyclic : Acyclic (PoolRefers db))
    (hruleSets : ∀ ruleSet ∈ db'.ruleSets.rows, ruleSet.slug ≠ customDirectSlug →
      Resolves db' ruleSet.target)
    (hcustom : dailyRoutingKey ∈ db'.bootstrap → ∀ ruleSet ∈ db'.ruleSets.rows,
      Resolves db' ruleSet.target) :
    ∃ db'', ensureDailyRoutingCleanup db' = .ok db'' ∧ RoutingClosed db'' ∧
      Acyclic (PoolRefers db'') ∧ db''.bootstrap = insert dailyRoutingKey db'.bootstrap := by
  have hclosed' := smartAuto_closed h hclosed
  have hacyclic' := smartAuto_acyclic h hacyclic
  by_cases hdaily : dailyRoutingKey ∈ db'.bootstrap
  · exact ⟨db', if_pos hdaily, ⟨hclosed', hcustom hdaily⟩, hacyclic',
      (Finset.insert_eq_of_mem hdaily).symm⟩
  · obtain ⟨db'', hrun, hcleaned⟩ := cleanup_ok hdaily
    obtain ⟨hfinal, hfinalAcyclic⟩ := (cleaned_iff hcleaned hclosed' hacyclic' hruleSets).mpr
      (smartAuto_replaceable h hclosed)
    exact ⟨db'', hrun, hfinal, hfinalAcyclic, hcleaned.bootstrap⟩

theorem ensure_done (hclient : clientRoutingKey ∈ db.bootstrap)
    (hsmart : smartAutoKey ∈ db.bootstrap) (hdaily : dailyRoutingKey ∈ db.bootstrap) :
    ensureDefaultRoutingRuleSets db = .ok db := by
  unfold ensureDefaultRoutingRuleSets
  rw [if_pos hclient]
  refine Except.bind_eq_ok.mpr ⟨db, ?_, ?_⟩
  · exact if_pos hsmart
  · exact if_pos hdaily

/-- What a run of the upgrade is to give. -/
def Upgraded (db db' : Database) : Prop :=
  ensureDefaultRoutingRuleSets db = .ok db' ∧ RoutingClosed db' ∧ Acyclic (PoolRefers db') ∧
    ensureDefaultRoutingRuleSets db' = .ok db'

/-- The later markers are only set after the first. -/
def MarkersInOrder (db : Database) : Prop :=
  clientRoutingKey ∉ db.bootstrap → smartAutoKey ∉ db.bootstrap ∧ dailyRoutingKey ∉ db.bootstrap

theorem upgraded_of_smartAuto (hclosed : RoutingClosed db) (hacyclic : Acyclic (PoolRefers db))
    (hmarkers : MarkersInOrder db) (hsmart : smartAutoKey ∉ db.bootstrap) :
    ∃ db', Upgraded db db' := by
  have hkeys : smartAutoKey ≠ clientRoutingKey ∧ dailyRoutingKey ≠ clientRoutingKey ∧
      dailyRoutingKey ≠ smartAutoKey := by
    decide
  by_cases hclient : clientRoutingKey ∈ db.bootstrap
  · obtain ⟨installed, hrun, hinstalled⟩ := smartAuto_ok hsmart
    have hruleSets : ∀ ruleSet ∈ installed.ruleSets.rows, Resolves installed ruleSet.target := by
      intro ruleSet hruleSet
      obtain ⟨kept, hkept, rfl⟩ := (hinstalled.ruleSets ruleSet).mp hruleSet
      rw [moveRuleSet_target smartAuto_not_legacy]
      exact resolves_moved hinstalled.toCarried (hclosed.ruleSets kept hkept)
    obtain ⟨db', hcleanup, hclosed', hacyclic', hbootstrap⟩ :=
      smartAuto_then_cleanup hinstalled.toCarried hclosed.toPolicyClosed hacyclic
        (fun ruleSet hruleSet _ ↦ hruleSets ruleSet hruleSet) fun _ ↦ hruleSets
    refine ⟨db', ?_, hclosed', hacyclic', ?_⟩
    · unfold ensureDefaultRoutingRuleSets
      rw [if_pos hclient]
      exact Except.bind_eq_ok.mpr ⟨installed, hrun, hcleanup⟩
    · apply ensure_done
      · simp [hbootstrap, hinstalled.bootstrap, hclient]
      · simp [hbootstrap, hinstalled.bootstrap]
      · simp [hbootstrap]
  · have hfirst : ClientRoutingInstalled db (installClientRouting db) := clientRouting_installed
    have hsmart' : smartAutoKey ∉ (installClientRouting db).bootstrap := by
      simp [hfirst.bootstrap, hkeys.1, hsmart]
    obtain ⟨installed, hrun, hinstalled⟩ := smartAuto_ok hsmart'
    have hcarried := Carried.of_installed hfirst hinstalled.toCarried
    have hdaily : dailyRoutingKey ∉ installed.bootstrap := by
      simp [hinstalled.bootstrap, hfirst.bootstrap, hkeys.2.1, hkeys.2.2, (hmarkers hclient).2]
    obtain ⟨db', hcleanup, hclosed', hacyclic', hbootstrap⟩ :=
      smartAuto_then_cleanup hcarried hclosed.toPolicyClosed hacyclic
        (by
          intro ruleSet hruleSet hother
          obtain ⟨kept, hkept, rfl⟩ := (hinstalled.ruleSets ruleSet).mp hruleSet
          rw [moveRuleSet_slug] at hother
          rw [moveRuleSet_target smartAuto_not_legacy]
          exact resolves_moved hcarried
            (hclosed.ruleSets kept ((hfirst.ruleSets kept hother).mp hkept)))
        fun h ↦ absurd h hdaily
    refine ⟨db', ?_, hclosed', hacyclic', ?_⟩
    · unfold ensureDefaultRoutingRuleSets
      rw [if_neg hclient]
      exact Except.bind_eq_ok.mpr ⟨installed, hrun, hcleanup⟩
    · apply ensure_done
      · simp [hbootstrap, hinstalled.bootstrap, hfirst.bootstrap]
      · simp [hbootstrap, hinstalled.bootstrap]
      · simp [hbootstrap]

/-- A start of the panel keeps a closed routing closed and acyclic, and a second start
changes nothing, unless the cleanup runs alone and misses its replacement. -/
theorem upgrade_closes_iff (hclosed : RoutingClosed db) (hacyclic : Acyclic (PoolRefers db))
    (hmarkers : MarkersInOrder db) : (∃ db', Upgraded db db') ↔ Upgradable db := by
  by_cases hsmart : smartAutoKey ∈ db.bootstrap
  · have hclient : clientRoutingKey ∈ db.bootstrap := by
      by_contra hclient
      exact (hmarkers hclient).1 hsmart
    by_cases hdaily : dailyRoutingKey ∈ db.bootstrap
    · have hdone := ensure_done hclient hsmart hdaily
      exact iff_of_true ⟨db, hdone, hclosed, hacyclic, hdone⟩ fun _ h ↦ absurd hdaily h
    · obtain ⟨cleaned, hrun, hcleaned⟩ := cleanup_ok hdaily
      have hresult : ensureDefaultRoutingRuleSets db = .ok cleaned := by
        unfold ensureDefaultRoutingRuleSets
        rw [if_pos hclient]
        exact Except.bind_eq_ok.mpr ⟨db, if_pos hsmart, hrun⟩
      have hagain : ensureDefaultRoutingRuleSets cleaned = .ok cleaned := by
        apply ensure_done
        · simp [hcleaned.bootstrap, hclient]
        · simp [hcleaned.bootstrap, hsmart]
        · simp [hcleaned.bootstrap]
      have hiff := cleaned_iff hcleaned hclosed.toPolicyClosed hacyclic
        fun ruleSet hruleSet _ ↦ hclosed.ruleSets ruleSet hruleSet
      constructor
      · rintro ⟨db', hdb', hclosed', hacyclic', -⟩ - -
        cases hresult.symm.trans hdb'
        exact hiff.mp ⟨hclosed', hacyclic'⟩
      · intro hupgradable
        obtain ⟨hclosed', hacyclic'⟩ := hiff.mpr (hupgradable hsmart hdaily)
        exact ⟨cleaned, hresult, hclosed', hacyclic', hagain⟩
  · exact iff_of_true (upgraded_of_smartAuto hclosed hacyclic hmarkers hsmart)
      fun h ↦ absurd h hsmart

def speedOnly (bootstrap : Finset String) : Database :=
  { initDb with
    pools := ⟨poolRows [automaticPool "SPEED" .urlTest [.role .speed] 500 (some 50) 100],
      List.pairwise_singleton _ _⟩
    rules := ⟨[⟨"rest", "Rest", true, 1000, "MATCH", "SPEED"⟩], List.pairwise_singleton _ _⟩
    bootstrap }

theorem speedOnly_pool {bootstrap : Finset String} {pool : TransportPool}
    (hpool : pool ∈ (loadClientPolicy (speedOnly bootstrap)).pools) :
    pool.id = "SPEED" ∧ pool.children = [] := by
  have hall : ∀ pool ∈ (loadClientPolicy (speedOnly ∅)).pools,
      pool.id = "SPEED" ∧ pool.children = [] := by
    decide
  exact hall pool hpool

theorem speedOnly_closed {bootstrap : Finset String} : RoutingClosed (speedOnly bootstrap) := by
  refine ⟨⟨?_, ?_⟩, nofun⟩
  · intro pool hpool child hchild
    rw [(speedOnly_pool hpool).2] at hchild
    cases hchild
  · intro rule hrule _
    have hrule' : rule ∈ (speedOnly bootstrap).rules.rows := mem_loadedRules.mp hrule
    obtain rfl := List.mem_singleton.mp hrule'
    exact ⟨_, mem_loadedPools.mpr ⟨_, List.mem_singleton.mpr rfl, rfl⟩, rfl⟩

theorem speedOnly_acyclic {bootstrap : Finset String} :
    Acyclic (PoolRefers (speedOnly bootstrap)) := by
  intro a hcycle
  obtain ⟨b, ⟨pool, hpool, -, hb⟩, -⟩ := TransGen.head'_iff.mp hcycle
  rw [(speedOnly_pool hpool).2] at hb
  cases hb

theorem upgrade_closes_iff_legacy : ∃ db', Upgraded (speedOnly {clientRoutingKey}) db' := by
  apply (upgrade_closes_iff speedOnly_closed speedOnly_acyclic _).mpr
  · intro hsmart
    have habsent : smartAutoKey ∉ (speedOnly {clientRoutingKey}).bootstrap := by decide
    exact absurd hsmart habsent
  · intro hclient
    exact absurd (Finset.mem_singleton_self _) hclient

theorem cleanup_alone_dangles :
    ¬∀ db, RoutingClosed db → Acyclic (PoolRefers db) → MarkersInOrder db →
      ∃ db', Upgraded db db' := by
  intro h
  have hmarkers : MarkersInOrder (speedOnly {clientRoutingKey, smartAutoKey}) :=
    fun hclient ↦ absurd (Finset.mem_insert_self _ _) hclient
  obtain ⟨db', hrun, hclosed, -, -⟩ := h _ speedOnly_closed speedOnly_acyclic hmarkers
  have hdaily : dailyRoutingKey ∉ (speedOnly {clientRoutingKey, smartAutoKey}).bootstrap := by
    decide
  obtain ⟨cleaned, hcleanup, hcleaned⟩ := cleanup_ok hdaily
  have hresult : ensureDefaultRoutingRuleSets (speedOnly {clientRoutingKey, smartAutoKey}) =
      .ok cleaned := hcleanup
  cases hresult.symm.trans hrun
  have hrule : (⟨"rest", "Rest", true, 1000, "MATCH", "SPEED"⟩ : RoutingPolicyRule) ∈
      (loadClientPolicy (speedOnly {clientRoutingKey, smartAutoKey})).rules :=
    mem_loadedRules.mpr (List.mem_singleton.mpr rfl)
  have hmoved := hclosed.rules _ ((hcleaned.rules _).mpr (.inl ⟨_, hrule, List.not_mem_nil, rfl⟩))
  rw [moveRule_target smartAuto_not_legacy] at hmoved
  have hresolves := resolves_of_cleaned hcleaned (by decide) hmoved
  have hnames : NamesPool (speedOnly {clientRoutingKey, smartAutoKey}) smartAuto := by
    refine ⟨by decide, by decide, by decide, nofun⟩
  obtain ⟨pool, hpool, hid⟩ := hresolves hnames
  rw [(speedOnly_pool hpool).1] at hid
  revert hid
  decide

end StealthHub.Storage

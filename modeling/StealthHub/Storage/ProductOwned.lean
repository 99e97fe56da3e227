import StealthHub.Routing.Defaults
import StealthHub.Storage.RuleSets
import StealthHub.Storage.Upgrade

set_option autoImplicit false

namespace StealthHub.Storage

open Routing Text Users

/-- The operations on rule sets and transport pools. -/
inductive RoutingAction
  | createRuleSet (value : RoutingRuleSet)
  | saveRuleSet (value : RoutingRuleSet)
  | updateRuleSet (input : UpdateRoutingRuleSet)
  | cloneRuleSet (source newSlug : String) (entryId sourceId : ℕ → String)
  | deleteRuleSet (slug : String)
  | upsertPool (originalId : Option String) (value : TransportPool)
      (profiles : List ProtocolProfile)
  | deletePool (id : String) (replacement : Option String) (profiles : List ProtocolProfile)

def RoutingAction.run (db : Database) : RoutingAction → Except String Database
  | .createRuleSet value => createRoutingRuleSet value db
  | .saveRuleSet value => saveRoutingRuleSet value db
  | .updateRuleSet input => updateRoutingRuleSet input db
  | .cloneRuleSet source newSlug entryId sourceId =>
    cloneRoutingRuleSet source newSlug entryId sourceId db
  | .deleteRuleSet slug => deleteRoutingRuleSet slug db
  | .upsertPool originalId value profiles => upsertTransportPool originalId value profiles db
  | .deletePool id replacement profiles => deleteTransportPool id replacement profiles db

/-- A rejected request leaves the store as it was. -/
def RoutingAction.step (db : Database) (action : RoutingAction) : Database :=
  match action.run db with
  | .ok db' => db'
  | .error _ => db

def runActions (actions : List RoutingAction) (db : Database) : Database :=
  actions.foldl RoutingAction.step db

/-- The store right after the installation of the defaults. -/
def Bootstrapped (db : Database) : Prop :=
  ∃ start, start.bootstrap = ∅ ∧ ensureDefaultRoutingRuleSets start = .ok db

/-- An accepted request that gives a pool with the name of the built-in target another
name, or puts another pool in its place. -/
def RoutingAction.MovesDirect (db : Database) : RoutingAction → Prop
  | .upsertPool originalId value profiles => originalId = some "DIRECT" ∧ value.id ≠ "DIRECT" ∧
      ∃ policy renamedPool, editTransportPool originalId value (loadClientPolicy db) =
        .ok (policy, renamedPool) ∧ policy.validate profiles = .ok ()
  | .deletePool id replacement profiles => id = "DIRECT" ∧
      ((loadClientPolicy db).pools.any (·.id = id)) = true ∧
      ∃ policy renamedPool, replaceTransportPool id replacement (loadClientPolicy db) =
        .ok (policy, renamedPool) ∧
        { policy with pools := policy.pools.filter (·.id ≠ id) : ClientPolicy }.validate
          profiles = .ok ()
  | _ => False

variable {db db' : Database} {policy : ClientPolicy} {renamedPool : Option (String × String)}
variable {profiles : List ProtocolProfile} {originalId replacement : Option String}
variable {value : TransportPool} {id old new : String}

theorem runActions_singleton {action : RoutingAction} : runActions [action] db = action.step db :=
  rfl

theorem runActions_append {before : List RoutingAction} {action : RoutingAction} :
    runActions (before ++ [action]) db = action.step (runActions before db) := by
  rw [runActions, List.foldl_append]
  rfl

theorem kept_redirected : CustomDirectKept (redirectRuleSets old new db.ruleSets) ↔
    ∃ ruleSet ∈ db.ruleSets.rows, ruleSet.slug = customDirectSlug ∧
      retarget old new ruleSet.target = "DIRECT" := by
  constructor
  · rintro ⟨ruleSet, hmem, hslug, htarget⟩
    obtain ⟨row, hrow, rfl⟩ := List.mem_map.mp hmem
    exact ⟨row, hrow, hslug, htarget⟩
  · rintro ⟨row, hrow, hslug, htarget⟩
    exact ⟨_, List.mem_map_of_mem hrow, hslug, htarget⟩

theorem redirected_iff (hkept : CustomDirectKept db.ruleSets) :
    CustomDirectKept (redirectRuleSets old new db.ruleSets) ↔ (old = "DIRECT" → new = "DIRECT") := by
  rw [kept_redirected]
  constructor
  · rintro ⟨ruleSet, hmem, hslug, htarget⟩ hold
    obtain ⟨direct, hdirect, hdirectSlug, hdirectTarget⟩ := hkept
    obtain rfl := db.ruleSets.eq_of_clash hmem hdirect (hslug.trans hdirectSlug.symm)
    rwa [retarget, if_pos (hdirectTarget.trans hold.symm)] at htarget
  · intro hmoves
    obtain ⟨direct, hdirect, hslug, htarget⟩ := hkept
    refine ⟨direct, hdirect, hslug, ?_⟩
    unfold retarget
    split
    next hold => exact hmoves (hold.symm.trans htarget)
    next => exact htarget

theorem saveClientPolicy_of_valid (h : policy.validate profiles = .ok ()) :
    ∃ db', saveClientPolicy policy renamedPool db = .ok db' := by
  have hformed := (validate_ok.mp h).1
  have hpools : (poolRows policy.pools).Pairwise fun a b ↦
      ¬SameKey (fun row : PoolRow ↦ row.pool.id) a b := by
    have hids : ((poolRows policy.pools).map fun row ↦ row.pool.id).Nodup := by
      have hsplit : (poolRows policy.pools).map (fun row ↦ row.pool.id) =
          policy.pools.map (·.id) := by
        conv_rhs => rw [← poolRows_pools policy.pools, List.map_map]
        rfl
      rw [hsplit]
      exact hformed.poolIds
    exact List.pairwise_map.mp hids
  have hrules : policy.rules.Pairwise fun a b ↦
      ¬SameKey (fun rule : RoutingPolicyRule ↦ rule.id) a b :=
    List.pairwise_map.mp hformed.ruleIds
  unfold saveClientPolicy
  simp only [Table.ofRows_of hpools, Table.ofRows_of hrules, checkUnique, Option.elim_some, bind,
    Except.bind]
  exact ⟨_, rfl⟩

theorem editPool_renamed {before : ClientPolicy}
    (h : editTransportPool originalId value before = .ok (policy, renamedPool)) :
    renamedPool = (originalOf originalId).bind fun original ↦
      if original ≠ value.id then some (original, value.id) else none := by
  unfold editTransportPool at h
  cases horiginal : originalOf originalId with
  | none =>
    simp only [horiginal] at h
    split at h
    · cases h
    · cases h
      rfl
  | some original =>
    simp only [horiginal] at h
    split at h
    · cases h
    · split at h
      · cases h
      · cases h
        rfl

theorem originalOf_direct : originalOf originalId = some "DIRECT" ↔ originalId = some "DIRECT" := by
  unfold originalOf
  rw [Option.filter_eq_some_iff]
  constructor
  · exact And.left
  · intro h
    exact ⟨h, by decide⟩

theorem upsertPool_kept (hkept : CustomDirectKept db.ruleSets)
    (h : upsertTransportPool originalId value profiles db = .ok db') :
    CustomDirectKept db'.ruleSets ↔ ¬(originalId = some "DIRECT" ∧ value.id ≠ "DIRECT") := by
  obtain ⟨⟨policy, renamedPool⟩, hedit, h⟩ := Except.bind_eq_ok.mp h
  obtain ⟨⟨⟩, -, h⟩ := Except.bind_eq_ok.mp h
  have hrenamed := editPool_renamed hedit
  rw [(saveClientPolicy_ok h).ruleSets, hrenamed, ← originalOf_direct]
  cases horiginal : originalOf originalId with
  | none => simpa using hkept
  | some original =>
    by_cases hsame : original = value.id
    · subst hsame
      simpa using hkept
    · simp only [Option.bind_some, ne_eq, hsame, not_false_eq_true, if_true, Option.elim_some,
        redirected_iff hkept, Option.some.injEq, not_and, not_not]

theorem upsertPool_step
    (hedit : editTransportPool originalId value (loadClientPolicy db) = .ok (policy, renamedPool))
    (hvalid : policy.validate profiles = .ok ())
    (hsave : saveClientPolicy policy renamedPool db = .ok db') :
    (RoutingAction.upsertPool originalId value profiles).step db = db' := by
  simp only [RoutingAction.step, RoutingAction.run, upsertTransportPool, hedit, hvalid, hsave, bind,
    Except.bind]

theorem replacePool_renamed {before : ClientPolicy}
    (h : replaceTransportPool id replacement before = .ok (policy, renamedPool)) :
    ∃ new, new ≠ id ∧ renamedPool = some (id, new) := by
  unfold replaceTransportPool at h
  cases hnew : replacement.filter fun value ↦ !isEmpty value && value ≠ id with
  | none =>
    rw [hnew] at h
    cases h
  | some new =>
    rw [hnew] at h
    simp only at h
    split at h
    · cases h
    · cases h
      obtain ⟨-, hne⟩ := Option.filter_eq_some_iff.mp hnew
      exact ⟨new, by simpa using (Bool.and_eq_true_iff.mp hne).2, rfl⟩

theorem deletePool_ok_iff : deleteTransportPool id replacement profiles db = .ok db' ↔
    ((loadClientPolicy db).pools.any (·.id = id)) = true ∧ ∃ policy renamedPool,
      (if referenced (loadClientPolicy db) db id then
        replaceTransportPool id replacement (loadClientPolicy db)
      else .ok (loadClientPolicy db, none)) = .ok (policy, renamedPool) ∧
      { policy with pools := policy.pools.filter (·.id ≠ id) : ClientPolicy }.validate profiles =
        .ok () ∧
      saveClientPolicy { policy with pools := policy.pools.filter (·.id ≠ id) } renamedPool db =
        .ok db' := by
  constructor
  · intro h
    obtain ⟨hany, h⟩ := Except.guard_eq_ok.mp h
    refine ⟨by simpa using hany, ?_⟩
    split at h
    next hreferenced =>
      obtain ⟨⟨policy, renamedPool⟩, hreplace, h⟩ := Except.bind_eq_ok.mp h
      obtain ⟨⟨⟩, hvalid, hsave⟩ := Except.bind_eq_ok.mp h
      exact ⟨policy, renamedPool, (if_pos hreferenced).trans hreplace, hvalid, hsave⟩
    next hfree =>
      obtain ⟨⟨policy, renamedPool⟩, hsame, h⟩ := Except.bind_eq_ok.mp h
      obtain ⟨⟨⟩, hvalid, hsave⟩ := Except.bind_eq_ok.mp h
      exact ⟨policy, renamedPool, (if_neg hfree).trans hsame, hvalid, hsave⟩
  · rintro ⟨hany, policy, renamedPool, hreplace, hvalid, hsave⟩
    refine Except.guard_eq_ok.mpr ⟨by simpa using hany, ?_⟩
    split
    next hreferenced =>
      rw [if_pos hreferenced] at hreplace
      exact Except.bind_eq_ok.mpr ⟨_, hreplace, Except.bind_eq_ok.mpr ⟨(), hvalid, hsave⟩⟩
    next hfree =>
      rw [if_neg hfree] at hreplace
      exact Except.bind_eq_ok.mpr ⟨_, hreplace, Except.bind_eq_ok.mpr ⟨(), hvalid, hsave⟩⟩

theorem referenced_direct (hkept : CustomDirectKept db.ruleSets) :
    referenced (loadClientPolicy db) db "DIRECT" = true := by
  obtain ⟨direct, hdirect, -, htarget⟩ := hkept
  have hcount : 0 < db.ruleSets.rows.countP (·.target = "DIRECT") :=
    List.countP_pos_iff.mpr ⟨direct, hdirect, by simpa using htarget⟩
  simp [referenced, hcount]

theorem deletePool_kept (hkept : CustomDirectKept db.ruleSets)
    (h : deleteTransportPool id replacement profiles db = .ok db') :
    CustomDirectKept db'.ruleSets ↔ id ≠ "DIRECT" := by
  obtain ⟨-, policy, renamedPool, hreplace, -, hsave⟩ := deletePool_ok_iff.mp h
  rw [(saveClientPolicy_ok hsave).ruleSets]
  split at hreplace
  next =>
    obtain ⟨new, hne, rfl⟩ := replacePool_renamed hreplace
    rw [Option.elim_some, redirected_iff hkept]
    constructor
    · intro hmoves hdirect
      exact hne ((hmoves hdirect).trans hdirect.symm)
    · intro hother hdirect
      exact absurd hdirect hother
  next hfree =>
    cases hreplace
    refine iff_of_true hkept ?_
    rintro rfl
    exact hfree (referenced_direct hkept)

theorem step_kept (hkept : CustomDirectKept db.ruleSets) (action : RoutingAction) :
    CustomDirectKept (action.step db).ruleSets ↔ ¬action.MovesDirect db := by
  have hedited : (∀ db', action.run db = .ok db' → RuleSetsEdited db.ruleSets db'.ruleSets) →
      CustomDirectKept (action.step db).ruleSets := by
    intro hrun
    unfold RoutingAction.step
    cases hresult : action.run db with
    | error message => exact hkept
    | ok db' => exact (hrun db' hresult).kept hkept
  cases action with
  | createRuleSet value => exact iff_of_true (hedited fun _ ↦ createRuleSet_edited) id
  | saveRuleSet value => exact iff_of_true (hedited fun _ ↦ saveRuleSet_edited) id
  | updateRuleSet input => exact iff_of_true (hedited fun _ ↦ updateRuleSet_edited) id
  | cloneRuleSet source newSlug entryId sourceId =>
    exact iff_of_true (hedited fun _ ↦ cloneRuleSet_edited) id
  | deleteRuleSet slug => exact iff_of_true (hedited fun _ ↦ deleteRuleSet_edited) id
  | upsertPool originalId value profiles =>
    simp only [RoutingAction.step, RoutingAction.run, RoutingAction.MovesDirect]
    cases hresult : upsertTransportPool originalId value profiles db with
    | error message =>
      refine iff_of_true hkept ?_
      rintro ⟨-, -, policy, renamedPool, hedit, hvalid⟩
      obtain ⟨db', hsave⟩ := @saveClientPolicy_of_valid db _ renamedPool _ hvalid
      simp only [upsertTransportPool, hedit, hvalid, hsave, bind, Except.bind] at hresult
      cases hresult
    | ok db' =>
      rw [upsertPool_kept hkept hresult]
      obtain ⟨⟨policy, renamedPool⟩, hedit, hrest⟩ := Except.bind_eq_ok.mp hresult
      obtain ⟨⟨⟩, hvalid, -⟩ := Except.bind_eq_ok.mp hrest
      simp only [hedit, Except.ok.injEq, Prod.mk.injEq, exists_and_right]
      apply not_congr
      constructor
      · rintro ⟨horiginal, hother⟩
        exact ⟨horiginal, hother, policy, ⟨renamedPool, rfl, rfl⟩, hvalid⟩
      · rintro ⟨horiginal, hother, -⟩
        exact ⟨horiginal, hother⟩
  | deletePool id replacement profiles =>
    simp only [RoutingAction.step, RoutingAction.run, RoutingAction.MovesDirect]
    cases hresult : deleteTransportPool id replacement profiles db with
    | error message =>
      refine iff_of_true hkept ?_
      rintro ⟨rfl, hany, policy, renamedPool, hreplace, hvalid⟩
      obtain ⟨db', hsave⟩ := @saveClientPolicy_of_valid db _ renamedPool _ hvalid
      have haccepted := deletePool_ok_iff.mpr ⟨hany, policy, renamedPool,
        by rw [if_pos (referenced_direct hkept)]; exact hreplace, hvalid, hsave⟩
      rw [hresult] at haccepted
      cases haccepted
    | ok db' =>
      rw [deletePool_kept hkept hresult]
      apply not_congr
      obtain ⟨hany, policy, renamedPool, hreplace, hvalid, -⟩ := deletePool_ok_iff.mp hresult
      constructor
      · rintro rfl
        rw [if_pos (referenced_direct hkept)] at hreplace
        exact ⟨rfl, hany, policy, renamedPool, hreplace, hvalid⟩
      · exact And.left

theorem bootstrapped_kept (h : Bootstrapped db) : CustomDirectKept db.ruleSets := by
  obtain ⟨start, hempty, h⟩ := h
  have hkeys : smartAutoKey ≠ clientRoutingKey ∧ dailyRoutingKey ≠ clientRoutingKey ∧
      dailyRoutingKey ≠ smartAutoKey := by
    decide
  unfold ensureDefaultRoutingRuleSets at h
  rw [if_neg (by simp [hempty])] at h
  have hfirst : ClientRoutingInstalled start (installClientRouting start) := clientRouting_installed
  obtain ⟨installed, hrun, hinstalled⟩ := @smartAuto_ok (installClientRouting start)
    (by simp [hfirst.bootstrap, hempty, hkeys.1])
  obtain ⟨cleaned, hcleanup, hcleaned⟩ := @cleanup_ok installed
    (by simp [hinstalled.bootstrap, hfirst.bootstrap, hempty, hkeys.2.1, hkeys.2.2])
  have hresult : ensureDailyRoutingCleanup installed = .ok db := by
    simpa only [hrun, bind, Except.bind] using h
  cases hcleanup.symm.trans hresult
  obtain ⟨ruleSet, hmem, hslug⟩ := hcleaned.customDirect
  exact ⟨ruleSet, hmem, hslug, hcleaned.target ruleSet hmem hslug⟩

/-- In a run from the defaults the rule set keeps its target all along exactly when no
accepted request moves a pool called DIRECT. -/
theorem custom_direct_kept_iff (hboot : Bootstrapped db) (actions : List RoutingAction) :
    (∀ before, before <+: actions → CustomDirectKept (runActions before db).ruleSets) ↔
      ∀ before action, before ++ [action] <+: actions →
        ¬action.MovesDirect (runActions before db) := by
  constructor
  · intro hall before action hpre
    have hbefore := hall before ((List.prefix_append before [action]).trans hpre)
    have hafter := hall _ hpre
    rw [runActions_append] at hafter
    exact (step_kept hbefore action).mp hafter
  · intro hfree before
    -- Induction on the length of the run, with the last request split off.
    induction before using List.reverseRecOn with
    | nil => exact fun _ ↦ bootstrapped_kept hboot
    | append_singleton before action ih =>
      intro hpre
      have hbefore := ih ((List.prefix_append before [action]).trans hpre)
      rw [runActions_append]
      exact (step_kept hbefore action).mpr (hfree before action hpre)

section Retarget

variable {rule : RoutingPolicyRule} {condition target newTarget line : String}

def PlainTarget (target : String) : Prop :=
  ¬(isEmpty target || trim target ≠ target || containsChar target ',' || hasControl target) = true

theorem completeRule_retarget (h : completeRule line target = .ok condition) :
    ∃ completed, completeRule line newTarget = .ok completed := by
  simp only [completeRule] at h ⊢
  split at h
  next => cases h
  next hmodifier =>
    rw [if_neg hmodifier]
    split at h
    next => exact ⟨_, rfl⟩
    next => cases h

theorem validateCondition_retarget (hplain : PlainTarget newTarget)
    (h : ClientPolicy.validateCondition rule = .ok ()) :
    ClientPolicy.validateCondition { rule with target := newTarget } = .ok () := by
  unfold ClientPolicy.validateCondition at h ⊢
  split at h
  next hmatch =>
    rw [if_pos hmatch]
    obtain ⟨completed, hcompleted, -⟩ := Except.bind_eq_ok.mp h
    obtain ⟨-, hcompleted⟩ := Except.guard_eq_ok.mp hcompleted
    obtain ⟨validated, hvalidated, hcompleted⟩ := Except.bind_eq_ok.mp hcompleted
    obtain ⟨line, hline, hcompleted⟩ := Except.bind_eq_ok.mp hcompleted
    obtain ⟨renewed, hrenewed⟩ := completeRule_retarget hcompleted
    exact Except.bind_eq_ok.mpr ⟨renewed, Except.guard_eq_ok.mpr ⟨hplain,
      Except.bind_eq_ok.mpr ⟨validated, hvalidated, Except.bind_eq_ok.mpr ⟨line, hline, hrenewed⟩⟩⟩,
      rfl⟩
  next hmatch => rw [if_neg hmatch]

theorem formed_redirected (hplain : PlainTarget newTarget) (h : rule.Formed) :
    (redirectRule target newTarget rule).Formed := by
  refine ⟨h.id, h.name, h.condition, ?_⟩
  intro henabled
  unfold redirectRule retarget
  split
  next => exact validateCondition_retarget hplain (h.line henabled)
  next => exact h.line henabled

end Retarget

/-- The defaults in an empty store. -/
def defaultStore : Database := (ensureDefaultRoutingRuleSets initDb).toOption.getD initDb

theorem defaultStore_bootstrapped : Bootstrapped defaultStore := by
  have hrun : ∃ db, ensureDefaultRoutingRuleSets initDb = .ok db :=
    Except.exists_of_isOk (by decide +kernel)
  obtain ⟨db, hrun⟩ := hrun
  refine ⟨initDb, rfl, ?_⟩
  rw [defaultStore, hrun]
  rfl

theorem defaultStore_policy : loadClientPolicy defaultStore = defaultClientPolicy := by
  decide +kernel

def samplePool (id : String) : TransportPool :=
  automaticPool id .urlTest [.allProfiles] 500 (some 50) 140

def addPool (id : String) : RoutingAction := .upsertPool none (samplePool id) []

def renamePool (id newId : String) : RoutingAction := .upsertPool (some id) (samplePool newId) []

theorem custom_direct_kept_iff_add :
    CustomDirectKept (runActions [addPool "DIRECT"] defaultStore).ruleSets := by
  refine (custom_direct_kept_iff defaultStore_bootstrapped [addPool "DIRECT"]).mpr ?_ _
    (List.prefix_refl _)
  intro before action hpre hmoves
  obtain rfl : action = addPool "DIRECT" := by
    simpa using hpre.subset (List.mem_append_right before (List.mem_singleton_self action))
  exact nomatch hmoves.1

def withPool (id : String) : ClientPolicy where
  pools := defaultClientPolicy.pools ++ [samplePool id]
  rules := defaultClientPolicy.rules.map (redirectRule "DIRECT" id)

theorem withPool_direct : (withPool "DIRECT").rules = defaultClientPolicy.rules := by
  apply List.map_id''
  intro rule
  unfold redirectRule retarget
  split
  next htarget => rw [← htarget]
  next => rfl

theorem withPool_valid {id : String} (hplain : PlainTarget id)
    (hids : ((withPool id).pools.map (·.id)).Nodup)
    (hidentities : ∀ pool ∈ (withPool id).pools, ClientPolicy.validatePoolIdentity pool = .ok ())
    (hpools : ∀ pool ∈ (withPool id).enabledPools,
      (withPool id).validatePool [] pool = .ok ()) : (withPool id).validate [] = .ok () := by
  have hruleIds : ((withPool id).rules.map (·.id)).Nodup := by
    rw [withPool, List.map_map]
    exact List.pairwise_map.mpr defaultRules_distinct
  have henabled : smartAuto ∈ (withPool id).enabledPoolIds ∧ id ∈ (withPool id).enabledPoolIds := by
    have hdefault : smartAuto ∈ defaultClientPolicy.enabledPoolIds := by decide
    unfold ClientPolicy.enabledPoolIds ClientPolicy.enabledPools at hdefault ⊢
    rw [withPool, List.filter_append, List.map_append]
    exact ⟨List.mem_append_left _ hdefault, List.mem_append_right _ (List.mem_singleton.mpr rfl)⟩
  refine validate_ok.mpr ⟨⟨hids, hidentities, ?_, hruleIds, ?_⟩, ?_, ?_⟩
  · exact fun pool hpool ↦ (validatePool_ok.mp (hpools pool hpool)).1
  · intro rule hrule
    obtain ⟨default, hdefault, rfl⟩ := List.mem_map.mp hrule
    exact formed_redirected hplain (defaultRules_formed default hdefault)
  · exact fun pool hpool ↦ (validatePool_ok.mp (hpools pool hpool)).2
  · intro rule hrule _
    obtain ⟨default, hdefault, rfl⟩ := List.mem_map.mp hrule
    unfold redirectRule retarget
    split
    next => simp [ClientPolicy.validTarget, henabled.2]
    next hother =>
      rcases defaultRules_target default hdefault with hdirect | hpool
      · exact absurd hdirect hother
      · simp [ClientPolicy.validTarget, hpool, henabled.1]

theorem addPool_policy :
    loadClientPolicy (runActions [addPool "DIRECT"] defaultStore) = withPool "DIRECT" := by
  have hvalid : (withPool "DIRECT").validate [] = .ok () := by
    apply withPool_valid
    · unfold PlainTarget
      decide
    all_goals decide
  have hedit : editTransportPool none (samplePool "DIRECT") defaultClientPolicy =
      .ok (withPool "DIRECT", none) := by
    have hfree : defaultClientPolicy.pools.any (·.id = (samplePool "DIRECT").id) = false := by
      decide
    unfold editTransportPool originalOf
    simp only [Option.filter_none, hfree, Bool.false_eq_true, if_false, ← withPool_direct]
    rfl
  obtain ⟨db', hsave⟩ := @saveClientPolicy_of_valid defaultStore _ none [] hvalid
  have hstep : runActions [addPool "DIRECT"] defaultStore = db' := by
    rw [← defaultStore_policy] at hedit
    rw [runActions_singleton, addPool]
    exact upsertPool_step hedit hvalid hsave
  have hsaved := saveClientPolicy_ok hsave
  have hpools : (poolRows (withPool "DIRECT").pools).Pairwise PoolRow.listedBefore := by
    decide
  have hrules : defaultClientPolicy.rules.insertionSort ruleListedBefore =
      defaultClientPolicy.rules := by
    decide
  rw [hstep, loadClientPolicy, hsaved.pools, hsaved.rules, withPool_direct,
    hpools.insertionSort_eq, hrules, poolRows_pools, ← withPool_direct]

theorem renamed_pool_retargets : ¬∀ db actions, Bootstrapped db →
    CustomDirectKept (runActions actions db).ruleSets := by
  intro h
  have hbefore := h defaultStore [addPool "DIRECT"] defaultStore_bootstrapped
  have hafter := h defaultStore ([addPool "DIRECT"] ++ [renamePool "DIRECT" "HOME"])
    defaultStore_bootstrapped
  rw [runActions_append] at hafter
  apply (step_kept hbefore (renamePool "DIRECT" "HOME")).mp hafter
  have hvalid : (withPool "HOME").validate [] = .ok () := by
    apply withPool_valid
    · unfold PlainTarget
      decide
    all_goals decide
  refine ⟨rfl, by decide, withPool "HOME", some ("DIRECT", "HOME"), ?_, hvalid⟩
  have hfound : (withPool "DIRECT").pools.findIdx? (·.id = "DIRECT") = some 4 := by decide
  have hfree : (withPool "DIRECT").pools.any (·.id = (samplePool "HOME").id) = false := by
    decide
  have hpools : (replacePoolReferences (withPool "DIRECT") "DIRECT" "HOME").pools.set 4
      (samplePool "HOME") = (withPool "HOME").pools := by
    decide
  have hrules : (replacePoolReferences (withPool "DIRECT") "DIRECT" "HOME").rules =
      (withPool "HOME").rules := by
    rw [replacePoolReferences, withPool_direct]
    rfl
  have horiginal : originalOf (some "DIRECT") = some "DIRECT" := originalOf_direct.mpr rfl
  rw [addPool_policy]
  unfold editTransportPool
  have hresult : (⟨(replacePoolReferences (withPool "DIRECT") "DIRECT" "HOME").pools.set 4
      (samplePool "HOME"), (replacePoolReferences (withPool "DIRECT") "DIRECT" "HOME").rules⟩ :
      ClientPolicy) = withPool "HOME" := by
    rw [hpools, hrules]
  simp only [horiginal, hfound, hfree, Bool.false_eq_true, and_false, if_false]
  rw [show (samplePool "HOME").id = "HOME" from rfl, hresult]
  rfl

end StealthHub.Storage

import StealthHub.Storage.Policies

set_option autoImplicit false

namespace StealthHub.Storage

open Routing Text Users

structure UpdateRoutingRuleSet where
  slug : String
  enabled : Bool
  target : String
  payload : String

def validRuleObjectId (value : String) : Bool :=
  value.toList.head?.any isAsciiAlphanumeric && len value ≤ 64 &&
    value.toList.all fun c ↦ isAsciiAlphanumeric c || c = '-' || c = '_'

def validateManagedRuleSetTarget (slug target : String) : Except String Unit :=
  if slug = customDirectSlug ∧ target ≠ "DIRECT" then
    .error "custom-direct target is fixed to DIRECT"
  else .ok ()

def supportedTarget (db : Database) (target : String) : Bool :=
  isValidRoutingTarget target ||
    (loadClientPolicy db).pools.any fun pool ↦ pool.enabled && pool.id = target

def validateRuleSetMetadata (db : Database) (value : RoutingRuleSet) : Except String Unit := do
  if !validRuleObjectId value.slug || isEmpty (trim value.title) || 80 < len value.title ||
      256 < len value.effect || hasControl value.title || hasControl value.effect then
    throw "invalid rule-set metadata"
  else
    validateManagedRuleSetTarget (trim value.slug) (trim value.target)
    if !supportedTarget db (trim value.target) then throw "unsupported routing target"
    else return ()

/-- `ORDER BY priority, id`. -/
def entryListedBefore (a b : RuleEntry) : Prop :=
  a.priority < b.priority ∨ a.priority = b.priority ∧ a.id ≤ b.id

instance : DecidableRel entryListedBefore := fun _ _ ↦ inferInstanceAs (Decidable (_ ∨ _))

def loadRuleEntries (db : Database) (ruleSetId : String) : List RuleEntry :=
  (db.entries.rows.filter (·.ruleSetId = ruleSetId)).insertionSort entryListedBefore

def loadRuleSources (db : Database) (ruleSetId : String) : List RuleSetSource :=
  (db.sources.rows.filter (·.ruleSetId = ruleSetId)).insertionSort fun a b ↦ a.id ≤ b.id

def localPayload (payload : String) : Except String String :=
  if isEmpty (trim payload) then .ok "" else (validateClassicalRulePayload payload).map joinLines

def rewriteRuleSet (slug : String) (f : RoutingRuleSet → RoutingRuleSet) (db : Database) :
    Except String Database :=
  if !db.ruleSets.rows.any (·.slug = slug) then .error "unknown rule set"
  else do
    let ruleSets ← checkUnique (db.ruleSets.update (·.slug = slug) f)
    return { db with ruleSets }

def updatePayload (slug payload : String) : Except String String :=
  if isEmpty (trim payload) && slug = customDirectSlug then .ok ""
  else (validateClassicalRulePayload payload).map joinLines

def updateRoutingRuleSet (input : UpdateRoutingRuleSet) (db : Database) :
    Except String Database := do
  let slug := trim input.slug
  let target := trim input.target
  validateManagedRuleSetTarget slug target
  if !supportedTarget db target then throw "unsupported routing target"
  else
    let payload ← updatePayload slug input.payload
    if slug = customDirectSlug ∧ input.enabled = true ∧ isEmpty payload = true then
      throw "custom-direct cannot be enabled without a rule"
    else
      rewriteRuleSet slug
        (fun ruleSet ↦ { ruleSet with enabled := input.enabled, target, payload }) db

def createRoutingRuleSet (value : RoutingRuleSet) (db : Database) : Except String Database := do
  validateRuleSetMetadata db value
  if value.enabled && isEmpty (trim value.payload) then
    throw "an enabled new rule set requires an initial local payload"
  else
    let payload ← localPayload value.payload
    let ruleSets ← checkUnique (db.ruleSets.insert
      { value with
        slug := trim value.slug
        title := trim value.title
        effect := trim value.effect
        target := trim value.target
        payload })
    return { db with ruleSets }

def checkCompiles (db : Database) (value : RoutingRuleSet) (payload : String) :
    Except String Unit :=
  if value.enabled then do
    let _ ← compileRuleSetPayload (loadRuleEntries db value.slug) payload
      (loadRuleSources db value.slug)
    return ()
  else .ok ()

def saveRoutingRuleSet (value : RoutingRuleSet) (db : Database) : Except String Database := do
  validateRuleSetMetadata db value
  let payload ← localPayload value.payload
  checkCompiles db value payload
  rewriteRuleSet (trim value.slug)
    (fun ruleSet ↦
      { ruleSet with
        title := trim value.title
        effect := trim value.effect
        target := trim value.target
        enabled := value.enabled
        payload }) db

def deleteRoutingRuleSet (slug : String) (db : Database) : Except String Database :=
  if trim slug = customDirectSlug then
    .error "custom-direct is product-owned and cannot be deleted"
  else if !db.ruleSets.rows.any (·.slug = trim slug) then .error "unknown rule set"
  else
    .ok { db with
      ruleSets := db.ruleSets.delete (·.slug = trim slug)
      entries := db.entries.delete (·.ruleSetId = trim slug)
      sources := db.sources.delete (·.ruleSetId = trim slug) }

/-- The identities of the copied entries and sources are drawn at random, here by
`entryId` and `sourceId`. -/
def cloneRoutingRuleSet (source newSlug : String) (entryId sourceId : ℕ → String) (db : Database) :
    Except String Database := do
  let sourceSet ← (db.ruleSets.find? (·.slug = source)).elim
    (.error "unknown source rule set") .ok
  let clone := { sourceSet with slug := trim newSlug, title := sourceSet.title ++ " copy" }
  validateRuleSetMetadata db clone
  let ruleSets ← checkUnique (db.ruleSets.insert clone)
  let entries ← (loadRuleEntries db source).zipIdx.foldlM
    (fun entries (entry, index) ↦ checkUnique (entries.insert
      { entry with id := entryId index, ruleSetId := clone.slug })) db.entries
  let sources ← (loadRuleSources db source).zipIdx.foldlM
    (fun sources (source, index) ↦ checkUnique (sources.insert
      { source with id := sourceId index, ruleSetId := clone.slug })) db.sources
  return { db with ruleSets, entries, sources }

/-- What an editor does to the rule sets: it rewrites the rows of a slug, inserts a
row or deletes one, and leaves the target of the product-owned one. -/
inductive RuleSetsEdited (before after : RuleSetTable) : Prop
  | rewritten (slug : String) (f : RoutingRuleSet → RoutingRuleSet)
      (update : before.update (·.slug = slug) f = some after)
      (keeps : ∀ ruleSet, (f ruleSet).slug = ruleSet.slug)
      (direct : slug = customDirectSlug → ∀ ruleSet, (f ruleSet).target = "DIRECT")
  | inserted (row : RoutingRuleSet) (insert : before.insert row = some after)
  | deleted (slug : String) (other : slug ≠ customDirectSlug)
      (delete : after = before.delete (·.slug = slug))

variable {db db' : Database} {slug target : String} {value : RoutingRuleSet}

theorem managedTarget_ok (h : validateManagedRuleSetTarget slug target = .ok ()) :
    slug = customDirectSlug → target = "DIRECT" := by
  intro hslug
  by_contra htarget
  rw [validateManagedRuleSetTarget, if_pos ⟨hslug, htarget⟩] at h
  cases h

theorem metadata_ok (h : validateRuleSetMetadata db value = .ok ()) :
    trim value.slug = customDirectSlug → trim value.target = "DIRECT" := by
  obtain ⟨-, h⟩ := Except.guard_eq_ok.mp h
  obtain ⟨⟨⟩, hmanaged, -⟩ := Except.bind_eq_ok.mp h
  exact managedTarget_ok hmanaged

theorem rewriteRuleSet_edited {f : RoutingRuleSet → RoutingRuleSet}
    (keeps : ∀ ruleSet, (f ruleSet).slug = ruleSet.slug)
    (direct : slug = customDirectSlug → ∀ ruleSet, (f ruleSet).target = "DIRECT")
    (h : rewriteRuleSet slug f db = .ok db') : RuleSetsEdited db.ruleSets db'.ruleSets := by
  obtain ⟨-, h⟩ := Except.guard_eq_ok.mp h
  obtain ⟨ruleSets, hupdate, h⟩ := Except.bind_eq_ok.mp h
  cases Except.pure_eq_ok.mp h
  exact .rewritten slug f (checkUnique_ok hupdate) keeps direct

theorem updateRuleSet_edited {input : UpdateRoutingRuleSet}
    (h : updateRoutingRuleSet input db = .ok db') : RuleSetsEdited db.ruleSets db'.ruleSets := by
  obtain ⟨⟨⟩, hmanaged, h⟩ := Except.bind_eq_ok.mp h
  obtain ⟨-, h⟩ := Except.guard_eq_ok.mp h
  obtain ⟨payload, -, h⟩ := Except.bind_eq_ok.mp h
  obtain ⟨-, h⟩ := Except.guard_eq_ok.mp h
  apply rewriteRuleSet_edited ?_ ?_ h
  · exact fun _ ↦ rfl
  · exact fun hslug _ ↦ managedTarget_ok hmanaged hslug

theorem saveRuleSet_edited (h : saveRoutingRuleSet value db = .ok db') :
    RuleSetsEdited db.ruleSets db'.ruleSets := by
  obtain ⟨⟨⟩, hmetadata, h⟩ := Except.bind_eq_ok.mp h
  obtain ⟨payload, -, h⟩ := Except.bind_eq_ok.mp h
  obtain ⟨⟨⟩, -, h⟩ := Except.bind_eq_ok.mp h
  apply rewriteRuleSet_edited ?_ ?_ h
  · exact fun _ ↦ rfl
  · exact fun hslug _ ↦ metadata_ok hmetadata hslug

theorem createRuleSet_edited (h : createRoutingRuleSet value db = .ok db') :
    RuleSetsEdited db.ruleSets db'.ruleSets := by
  obtain ⟨⟨⟩, -, h⟩ := Except.bind_eq_ok.mp h
  obtain ⟨-, h⟩ := Except.guard_eq_ok.mp h
  obtain ⟨payload, -, h⟩ := Except.bind_eq_ok.mp h
  obtain ⟨ruleSets, hinsert, h⟩ := Except.bind_eq_ok.mp h
  cases Except.pure_eq_ok.mp h
  exact .inserted _ (checkUnique_ok hinsert)

theorem cloneRuleSet_edited {source newSlug : String} {entryId sourceId : ℕ → String}
    (h : cloneRoutingRuleSet source newSlug entryId sourceId db = .ok db') :
    RuleSetsEdited db.ruleSets db'.ruleSets := by
  obtain ⟨sourceSet, -, h⟩ := Except.bind_eq_ok.mp h
  obtain ⟨⟨⟩, -, h⟩ := Except.bind_eq_ok.mp h
  obtain ⟨ruleSets, hinsert, h⟩ := Except.bind_eq_ok.mp h
  obtain ⟨entries, -, h⟩ := Except.bind_eq_ok.mp h
  obtain ⟨sources, -, h⟩ := Except.bind_eq_ok.mp h
  cases Except.pure_eq_ok.mp h
  exact .inserted _ (checkUnique_ok hinsert)

theorem deleteRuleSet_edited (h : deleteRoutingRuleSet slug db = .ok db') :
    RuleSetsEdited db.ruleSets db'.ruleSets := by
  unfold deleteRoutingRuleSet at h
  split at h
  next => cases h
  next hother =>
    split at h
    next => cases h
    next =>
      cases h
      exact .deleted (trim slug) hother rfl

/-- The product-owned rule set is there, with its fixed target. -/
def CustomDirectKept (ruleSets : RuleSetTable) : Prop :=
  ∃ ruleSet ∈ ruleSets.rows, ruleSet.slug = customDirectSlug ∧ ruleSet.target = "DIRECT"

theorem RuleSetsEdited.kept {before after : RuleSetTable} (h : RuleSetsEdited before after)
    (hkept : CustomDirectKept before) : CustomDirectKept after := by
  obtain ⟨ruleSet, hmem, hslug, htarget⟩ := hkept
  cases h with
  | rewritten slug f update keeps direct =>
    by_cases hrow : ruleSet.slug = slug
    · refine ⟨f ruleSet, ?_, (keeps ruleSet).trans hslug, direct (hrow ▸ hslug) ruleSet⟩
      exact (Table.mem_update update).mpr (.inl ⟨ruleSet, hmem, by simpa using hrow, rfl⟩)
    · refine ⟨ruleSet, ?_, hslug, htarget⟩
      exact (Table.mem_update update).mpr (.inr ⟨hmem, by simpa using hrow⟩)
  | inserted row insert =>
    exact ⟨ruleSet, (Table.mem_insert insert).mpr (.inl hmem), hslug, htarget⟩
  | deleted slug other delete =>
    subst delete
    refine ⟨ruleSet, Table.mem_delete.mpr ⟨hmem, ?_⟩, hslug, htarget⟩
    simpa [hslug] using other.symm

end StealthHub.Storage

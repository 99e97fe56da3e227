import StealthHub.Storage.BulkEntries

set_option autoImplicit false

namespace StealthHub.Storage

open Routing Text
open Users (checkUnique checkUnique_ok)

def replaceOrPush {α : Type} (id : α → String) (items : List α) (item : α) : List α :=
  match items.findIdx? (id · = id item) with
  | some index => items.set index item
  | none => items ++ [item]

def storedEntry (entry : RuleEntry) : RuleEntry := { entry with value := trim entry.value }

def upsertRuleEntry (entry : RuleEntry) (db : Database) : Except String Database := do
  entry.validate
  let ruleSet ← findRuleSet db entry.ruleSetId
  checkEntries db ruleSet (replaceOrPush (·.id) (loadRuleEntries db entry.ruleSetId) entry)
  let entries ← checkUnique (db.entries.upsert (·.id = entry.id) (storedEntry entry)
    fun _ ↦ storedEntry entry)
  return { db with entries }

def deleteRuleEntry (id : String) (db : Database) : Except String Database := do
  let row ← (db.entries.find? (·.id = id)).elim (.error "unknown rule entry") .ok
  let ruleSet ← findRuleSet db row.ruleSetId
  checkEntries db ruleSet ((loadRuleEntries db ruleSet.slug).filter (·.id ≠ id))
  return { db with entries := db.entries.delete (·.id = id) }

def getRuleSource (db : Database) (id : String) : Option RuleSetSource :=
  db.sources.find? (·.id = id)

/-- What `ON CONFLICT DO UPDATE` leaves of a stored source: its cache, and what is known of it. -/
def keepCache (current source : RuleSetSource) : RuleSetSource :=
  { current with
    ruleSetId := source.ruleSetId
    url := source.url
    format := source.format
    enabled := source.enabled
    refreshIntervalSeconds := source.refreshIntervalSeconds }

def effectiveSource (db : Database) (source : RuleSetSource) : RuleSetSource :=
  match getRuleSource db source.id with
  | some current =>
    { source with
      etag := current.etag
      lastModified := current.lastModified
      lastSuccessfulFetch := current.lastSuccessfulFetch
      checksum := current.checksum
      entryCount := current.entryCount
      lastError := current.lastError
      cachedPayload := current.cachedPayload }
  | none => source

def checkSources (db : Database) (ruleSet : RoutingRuleSet) (sources : List RuleSetSource) :
    Except String Unit :=
  if ruleSet.enabled then
    (compileRuleSetPayload (loadRuleEntries db ruleSet.slug) ruleSet.payload sources).map fun _ ↦ ()
  else .ok ()

def upsertRuleSource (source : RuleSetSource) (db : Database) : Except String Database :=
  if !validRuleObjectId source.id || !validRuleObjectId source.ruleSetId ||
      !startsWith source.url "https://" || 2048 < len source.url ||
      source.refreshIntervalSeconds < 300 || 604800 < source.refreshIntervalSeconds then
    .error "invalid remote rule source"
  else do
    let ruleSet ← findRuleSet db source.ruleSetId
    checkSources db ruleSet
      (replaceOrPush (·.id) (loadRuleSources db source.ruleSetId) (effectiveSource db source))
    let sources ← checkUnique (db.sources.upsert (·.id = source.id) source (keepCache · source))
    return { db with sources }

def deleteRuleSource (id : String) (db : Database) : Except String Database := do
  let source ← (getRuleSource db id).elim (.error "unknown rule source") .ok
  let ruleSet ← findRuleSet db source.ruleSetId
  checkSources db ruleSet ((loadRuleSources db ruleSet.slug).filter (·.id ≠ id))
  return { db with sources := db.sources.delete (·.id = id) }

def refreshed (source current : RuleSetSource) : RuleSetSource :=
  if current.id = source.id then
    { current with
      etag := source.etag
      lastModified := source.lastModified
      lastSuccessfulFetch := source.lastSuccessfulFetch
      checksum := source.checksum
      entryCount := source.entryCount
      lastError := none
      cachedPayload := source.cachedPayload }
  else current

theorem refreshed_id {source current : RuleSetSource} :
    (refreshed source current).id = current.id := by
  unfold refreshed
  split_ifs <;> rfl

def updateRuleSourceSuccess (source : RuleSetSource) (db : Database) : Except String Database :=
  if !db.sources.rows.any (·.id = source.id) then .error "unknown rule source"
  else .ok { db with
    sources := db.sources.rewrite (refreshed source) fun a b h ↦ by
      rwa [SameKey, refreshed_id, refreshed_id] at h }

def failedRefresh (id error : String) (current : RuleSetSource) : RuleSetSource :=
  if current.id = id then
    { current with lastError := some (String.ofList (error.toList.take 512)) }
  else current

theorem failedRefresh_id {id error : String} {current : RuleSetSource} :
    (failedRefresh id error current).id = current.id := by
  unfold failedRefresh
  split_ifs <;> rfl

def updateRuleSourceError (id error : String) (db : Database) : Database :=
  { db with
    sources := db.sources.rewrite (failedRefresh id error) fun a b h ↦ by
      rwa [SameKey, failedRefresh_id, failedRefresh_id] at h }

section upserts

variable {db db' : Database} {entry : RuleEntry} {source row : RuleSetSource}

end upserts

end StealthHub.Storage

import StealthHub.Panel.RuleFetch
import StealthHub.Storage.RuleObjects

set_option autoImplicit false

namespace StealthHub.Panel

open Routing Storage Text
open Users (checkUnique checkUnique_ok)

/-- No layer of a rule set has rules. -/
structure Blank (entries : List RuleEntry) (sources : List RuleSetSource)
    (ruleSet : RoutingRuleSet) : Prop where
  entries : ∀ entry ∈ entries, entry.ruleSetId = ruleSet.slug → entry.enabled = false
  payload : isEmpty (trim ruleSet.payload) = true
  sources : ∀ source ∈ sources, source.ruleSetId = ruleSet.slug → source.enabled = true →
    isEmpty (trim source.cachedPayload) = true

/-- The caches of the enabled sources are fit, and some layer has rules. -/
structure Supplied (db : Database) (ruleSet : RoutingRuleSet) : Prop where
  caches : ∀ source ∈ db.sources.rows, source.ruleSetId = ruleSet.slug → source.enabled = true →
    ∃ rules, optionalPayload source.cachedPayload = .ok rules
  filled : ¬Blank db.entries.rows db.sources.rows ruleSet

variable {db db' : Database} {ruleSet : RoutingRuleSet} {entry : RuleEntry}
variable {source : RuleSetSource} {slug : String}

theorem Supplied.congr (h : Supplied db ruleSet)
    (hentries : ∀ entry : RuleEntry, entry.ruleSetId = ruleSet.slug →
      (entry ∈ db.entries.rows → entry ∈ db'.entries.rows))
    (hsources : ∀ source : RuleSetSource, source.ruleSetId = ruleSet.slug →
      (source ∈ db'.sources.rows ↔ source ∈ db.sources.rows)) : Supplied db' ruleSet := by
  refine ⟨fun source hsource hslug ↦ h.caches source ((hsources source hslug).mp hsource) hslug,
    fun hblank ↦ h.filled ⟨fun entry hentry hslug ↦ ?_, hblank.payload, ?_⟩⟩
  · exact hblank.entries entry (hentries entry hslug hentry) hslug
  · exact fun source hsource hslug ↦
      hblank.sources source ((hsources source hslug).mpr hsource) hslug

section sets

theorem Supplied.sets {ruleSets : RuleSetTable} (h : Supplied db ruleSet) :
    Supplied { db with ruleSets } ruleSet :=
  h.congr (fun _ _ ↦ id) fun _ _ ↦ Iff.rfl

end sets

section entries

variable {entries : Table RuleEntry (SameKey (·.id))} {list : List RuleEntry}

end entries

end StealthHub.Panel

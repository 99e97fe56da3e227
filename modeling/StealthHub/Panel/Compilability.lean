import StealthHub.Panel.RuleLayers
import StealthHub.Panel.RuleSources
import StealthHub.Storage.ProductOwned

set_option autoImplicit false

namespace StealthHub.Panel

open Routing Storage Text
open RuleSources (Web parseSource sampleWeb)

variable (web : Web)

/-- What the panel does to rule sets, their entries and their sources. A refresh that succeeds
writes what `parse_source` makes of a text. -/
inductive LayerAction
  | create (value : RoutingRuleSet)
  | save (value : RoutingRuleSet)
  | update (input : UpdateRoutingRuleSet)
  | clone (source newSlug : String) (entryId sourceId : ℕ → String)
  | delete (slug : String)
  | upsertEntry (entry : RuleEntry)
  | bulkAdd (ruleSetId : String) (kind : RuleKind) (sourceTag : Option String) (newId : ℕ → String)
      (input : String)
  | deduplicate (ruleSetId : String)
  | deleteEntry (id : String)
  | upsertSource (source : RuleSetSource)
  | deleteSource (id : String)
  | refreshFailed (id error : String)
  | refreshed (source : RuleSetSource) (format : RuleSourceFormat) (text : String)

def LayerAction.run (db : Database) : LayerAction → Except String Database
  | .create value => createRoutingRuleSet value db
  | .save value => saveRoutingRuleSet value db
  | .update input => updateRoutingRuleSet input db
  | .clone source newSlug entryId sourceId => cloneRoutingRuleSet source newSlug entryId sourceId db
  | .delete slug => deleteRoutingRuleSet slug db
  | .upsertEntry entry => upsertRuleEntry entry db
  | .bulkAdd ruleSetId kind sourceTag newId input =>
    (bulkAddRuleEntries ruleSetId kind sourceTag newId input db).map (·.2)
  | .deduplicate ruleSetId => (deduplicateRuleEntries ruleSetId db).map (·.2)
  | .deleteEntry id => deleteRuleEntry id db
  | .upsertSource source => upsertRuleSource source db
  | .deleteSource id => deleteRuleSource id db
  | .refreshFailed id error => .ok (updateRuleSourceError id error db)
  | .refreshed source format text => do
    let rules ← parseSource web format text
    updateRuleSourceSuccess { source with cachedPayload := joinLines rules } db

/-- A rejected request leaves the store as it was. -/
def LayerAction.step (db : Database) (action : LayerAction) : Database :=
  (action.run web db).toOption.getD db

variable {web} {db db' : Database} {ruleSet : RoutingRuleSet} {entry : RuleEntry}
variable {source : RuleSetSource} {slug : String}

section sources

variable {sources : Table RuleSetSource (SameKey (·.id))} {list : List RuleSetSource}

end sources

end StealthHub.Panel

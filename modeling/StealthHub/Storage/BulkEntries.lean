import Mathlib.Algebra.Group.Int.Defs
import StealthHub.Storage.RuleEntries

set_option autoImplicit false

namespace StealthHub.Storage

open Routing Text
open Users (checkUnique)

def maxI32 : ℤ := 2 ^ 31 - 1

/-- `saturating_add(10)`. -/
def nextPriority (priority : ℤ) : ℤ := min (priority + 10) maxI32

def bulkValues (kind : RuleKind) (input : String) : Except String (List String) :=
  let values := ((lines input).map trim).filter fun line ↦ !isEmpty line
  if 10000 < values.length then .error "bulk rule input exceeds 10000 lines"
  else if kind = .classical then validateClassicalRulePayload input
  else .ok values

section bulk

variable (ruleSetId : String) (kind : RuleKind) (sourceTag : Option String) (newId : ℕ → String)

def bulkEntry (index : ℕ) (priority : ℤ) (value : String) : RuleEntry :=
  { id := newId index, ruleSetId, enabled := true, kind, value, comment := none, sourceTag,
    priority }

/-- The entries of the values whose key was not seen before. Their identities are drawn at random,
here by `newId`. -/
def bulkAdditions : List String → ℕ → ℤ → List String → Except String (List RuleEntry)
  | _, _, _, [] => .ok []
  | seen, index, priority, value :: rest =>
    if valueKey kind value ∈ seen then bulkAdditions seen index priority rest
    else do
      let entry := bulkEntry ruleSetId kind sourceTag newId index (nextPriority priority) value
      entry.validate
      let additions ← bulkAdditions (valueKey kind value :: seen) (index + 1)
        (nextPriority priority) rest
      return entry :: additions

def bulkAddRuleEntries (input : String) (db : Database) : Except String (ℕ × Database) := do
  let values ← bulkValues kind input
  let existing := loadRuleEntries db ruleSetId
  let priority := (existing.map (·.priority)).max?.getD 0
  let additions ← bulkAdditions ruleSetId kind sourceTag newId (existing.map entryKey) 0
    priority values
  let ruleSet ← findRuleSet db ruleSetId
  checkEntries db ruleSet (existing ++ additions)
  let entries ← additions.foldlM
    (fun entries entry ↦ checkUnique (entries.insert { entry with value := trim entry.value }))
    db.entries
  return (additions.length, { db with entries })

end bulk

/-- The values of an input, each a rule under its kind. -/
def inputValues (kind : RuleKind) (input : String) : List String :=
  if kind = .classical then ruleLines input
  else ((lines input).map trim).filter fun line ↦ !isEmpty line

/-- The rule of a value under a kind. -/
def kindRule (kind : RuleKind) (value : String) : String :=
  if kind = .classical then value else kind.mihomoName ++ "," ++ value

/-- The values that no entry has yet, each once. -/
def freshValues (kind : RuleKind) (entries : List RuleEntry) (values : List String) :
    List String :=
  retainFirst (valueKey kind) (entries.map entryKey) values

def topPriority (entries : List RuleEntry) : ℤ := (entries.map (·.priority)).max?.getD 0

def addedPriority (top : ℤ) (index : ℕ) : ℤ := min (top + 10 * (index + 1)) maxI32

def addedEntries (ruleSetId : String) (kind : RuleKind) (sourceTag : Option String)
    (newId : ℕ → String) (entries : List RuleEntry) (values : List String) : List RuleEntry :=
  (freshValues kind entries values).zipIdx.map fun x ↦
    bulkEntry ruleSetId kind sourceTag newId x.2 (addedPriority (topPriority entries) x.2) x.1

section additions

variable {ruleSetId input s t : String} {kind : RuleKind} {sourceTag : Option String}
variable {newId : ℕ → String} {db db' : Database} {ruleSet : RoutingRuleSet}
variable {values seen : List String} {entries additions : List RuleEntry}
variable {top priority : ℤ} {index n : ℕ}

theorem bulkValues_ok (h : bulkValues kind input = .ok values) :
    values = inputValues kind input ∧ ∀ value ∈ values, trim value = value := by
  obtain ⟨-, h⟩ := Except.guard_eq_ok.mp h
  rw [inputValues]
  split at h
  next hkind =>
    rw [if_pos hkind]
    exact ⟨(validatePayload_iff.mp h).2.2,
      fun value hvalue ↦ ((validatePayload_ok h).2 value hvalue).trimmed⟩
  next hkind =>
    rw [if_neg hkind]
    refine ⟨(Except.ok.inj h).symm, fun value hvalue ↦ ?_⟩
    rw [← Except.ok.inj h] at hvalue
    obtain ⟨line, -, rfl⟩ := List.mem_map.mp (List.mem_of_mem_filter hvalue)
    exact trim_trim line

theorem nextPriority_eq (h : priority = min (top + 10 * index) maxI32) :
    nextPriority priority = addedPriority top index ∧
      nextPriority priority = min (top + 10 * (index + 1 : ℕ)) maxI32 := by
  rw [nextPriority, addedPriority, h, maxI32]
  constructor <;> push_cast <;> omega

theorem bulkAdditions_ok (hpriority : priority = min (top + 10 * index) maxI32)
    (h : bulkAdditions ruleSetId kind sourceTag newId seen index priority values =
      .ok additions) :
    additions = ((retainFirst (valueKey kind) seen values).zipIdx index).map
        (fun x ↦ bulkEntry ruleSetId kind sourceTag newId x.2 (addedPriority top x.2) x.1) ∧
      ∀ entry ∈ additions, entry.validate = .ok () := by
  induction values generalizing seen index priority additions with
  | nil =>
    cases h
    exact ⟨rfl, nofun⟩
  | cons value rest ih =>
    rw [bulkAdditions] at h
    rw [retainFirst]
    split at h
    next hseen =>
      rw [if_pos hseen]
      exact ih hpriority h
    next hseen =>
      obtain ⟨⟨⟩, hvalid, h⟩ := Except.bind_eq_ok.mp h
      obtain ⟨more, hmore, h⟩ := Except.bind_eq_ok.mp h
      cases Except.pure_eq_ok.mp h
      obtain ⟨hadded, hnext⟩ := nextPriority_eq hpriority
      obtain ⟨hmap, hall⟩ := ih hnext hmore
      rw [if_neg hseen, List.zipIdx_cons, List.map_cons, ← hmap, ← hadded]
      exact ⟨rfl, List.forall_mem_cons.mpr ⟨hvalid, hall⟩⟩

theorem insertEach_ok {α β : Type} {clash : α → α → Prop} [DecidableRel clash] {row : β → α}
    {items : List β} {table table' : Table α clash}
    (h : items.foldlM (fun table item ↦ checkUnique (table.insert (row item))) table =
      .ok table') : table'.rows = table.rows ++ items.map row := by
  induction items generalizing table with
  | nil =>
    cases Except.pure_eq_ok.mp h
    exact (List.append_nil _).symm
  | cons item rest ih =>
    rw [List.foldlM_cons] at h
    obtain ⟨inserted, hinsert, h⟩ := Except.bind_eq_ok.mp h
    rw [ih h, (Table.insert_some (Users.checkUnique_ok hinsert)).1, List.append_assoc]
    rfl

theorem insertAll_ok {table table' : Table RuleEntry (SameKey (·.id))}
    (htrimmed : ∀ entry ∈ additions, trim entry.value = entry.value)
    (h : additions.foldlM (fun entries entry ↦
      checkUnique (entries.insert { entry with value := trim entry.value })) table = .ok table') :
    table'.rows = table.rows ++ additions := by
  have hsame : additions.map (fun entry ↦ { entry with value := trim entry.value }) =
      additions.map id := by
    refine List.map_congr_left fun entry hentry ↦ ?_
    rw [htrimmed entry hentry]
    rfl
  rw [insertEach_ok h, hsame, List.map_id]

theorem topPriority_le (h : ∀ entry ∈ entries, entry.priority ≤ maxI32) :
    topPriority entries ≤ maxI32 := by
  rw [topPriority]
  cases hmax : (entries.map (·.priority)).max? with
  | none => decide
  | some top =>
    obtain ⟨entry, hentry, rfl⟩ := List.mem_map.mp (List.max?_mem hmax)
    exact h entry hentry

theorem le_topPriority {entry : RuleEntry} (h : entry ∈ entries) :
    entry.priority ≤ topPriority entries := by
  rw [topPriority]
  cases hmax : (entries.map (·.priority)).max? with
  | none =>
    rw [List.max?_eq_none_iff, List.map_eq_nil_iff] at hmax
    rw [hmax] at h
    cases h
  | some top =>
    exact (List.max?_eq_some_iff.mp hmax).2 _ (List.mem_map_of_mem h)

/-- What a bulk input does to the store. -/
structure Added (ruleSetId : String) (kind : RuleKind) (sourceTag : Option String)
    (newId : ℕ → String) (values : List String) (db : Database) (n : ℕ) (db' : Database) : Prop where
  rows : db'.entries.rows = db.entries.rows ++
    addedEntries ruleSetId kind sourceTag newId (loadRuleEntries db ruleSetId) values
  valid : ∀ entry ∈ addedEntries ruleSetId kind sourceTag newId (loadRuleEntries db ruleSetId)
    values, entry.validate = .ok ()
  count : n = (freshValues kind (loadRuleEntries db ruleSetId) values).length
  sources : db'.sources = db.sources
  trimmed : ∀ value ∈ values, trim value = value

theorem mem_addedEntries {entry : RuleEntry}
    (h : entry ∈ addedEntries ruleSetId kind sourceTag newId entries values) :
    entry.value ∈ freshValues kind entries values ∧ entry.enabled = true ∧ entry.kind = kind ∧
      entry.ruleSetId = ruleSetId := by
  obtain ⟨⟨value, i⟩, hmem, rfl⟩ := List.mem_map.mp h
  exact ⟨List.fst_mem_of_mem_zipIdx hmem, rfl, rfl, rfl⟩

theorem bulkAdd_ok (hi32 : ∀ entry ∈ db.entries.rows, entry.priority ≤ maxI32)
    (h : bulkAddRuleEntries ruleSetId kind sourceTag newId input db = .ok (n, db')) :
    Added ruleSetId kind sourceTag newId (inputValues kind input) db n db' := by
  obtain ⟨values, hvalues, h⟩ := Except.bind_eq_ok.mp h
  obtain ⟨additions, hadditions, h⟩ := Except.bind_eq_ok.mp h
  obtain ⟨ruleSet, -, h⟩ := Except.bind_eq_ok.mp h
  obtain ⟨⟨⟩, -, h⟩ := Except.bind_eq_ok.mp h
  obtain ⟨table, hinserted, h⟩ := Except.bind_eq_ok.mp h
  cases Except.pure_eq_ok.mp h
  obtain ⟨rfl, htrimmed⟩ := bulkValues_ok hvalues
  have htop : topPriority (loadRuleEntries db ruleSetId) =
      min (topPriority (loadRuleEntries db ruleSetId) + 10 * (0 : ℕ)) maxI32 := by
    have hle : topPriority (loadRuleEntries db ruleSetId) ≤ maxI32 :=
      topPriority_le fun entry hentry ↦ hi32 entry (mem_loadRuleEntries.mp hentry).1
    push_cast
    omega
  obtain ⟨hmap, hvalid⟩ := bulkAdditions_ok htop hadditions
  replace hmap : additions = addedEntries ruleSetId kind sourceTag newId
      (loadRuleEntries db ruleSetId) (inputValues kind input) := hmap
  have hrows : table.rows = db.entries.rows ++ additions := by
    refine insertAll_ok (fun entry hentry ↦ ?_) hinserted
    rw [hmap] at hentry
    exact htrimmed _ (mem_of_mem_retainFirst (mem_addedEntries hentry).1).1
  refine ⟨?_, ?_, ?_, rfl, htrimmed⟩
  · rw [← hmap]
    exact hrows
  · rw [← hmap]
    exact hvalid
  · rw [hmap, addedEntries, List.length_map, List.length_zipIdx]

end additions

section order

variable {ruleSetId : String} {kind : RuleKind} {sourceTag : Option String}
variable {newId : ℕ → String} {db db' : Database} {entries : List RuleEntry}
variable {values : List String} {n count : ℕ} {top : ℤ}

/-- Where the priorities are at their limit, the identities decide on the order. -/
structure IdsAscend (newId : ℕ → String) (entries : List RuleEntry) (count : ℕ) : Prop where
  existing : ∀ entry ∈ entries, entry.priority = maxI32 → ∀ i < count, entry.id ≤ newId i
  added : ∀ i j, i < j → j < count → maxI32 ≤ topPriority entries + 10 * (i + 1) →
    newId i ≤ newId j

theorem sorted_unique {l k : List RuleEntry} (hids : (l.map (·.id)).Nodup)
    (hl : l.Pairwise entryListedBefore) (hk : k.Pairwise entryListedBefore) (h : l.Perm k) :
    l = k := by
  refine List.Perm.eq_of_pairwise (fun a b ha hb hab hba ↦ ?_) hl hk h
  have hid : a.id = b.id := by
    rcases hab with hab | ⟨heq, hab⟩
    · rcases hba with hba | ⟨heq, -⟩ <;> omega
    · rcases hba with hba | ⟨-, hba⟩
      · omega
      · exact le_antisymm hab hba
  exact List.inj_on_of_nodup_map hids ha (h.mem_iff.mpr hb) hid

theorem pairwise_added (hpriority : ∀ entry ∈ entries, entry.priority ≤ maxI32)
    (hentries : entries.Pairwise entryListedBefore) :
    (entries ++ addedEntries ruleSetId kind sourceTag newId entries values).Pairwise
        entryListedBefore ↔
      IdsAscend newId entries (freshValues kind entries values).length := by
  have htop : topPriority entries ≤ maxI32 := topPriority_le hpriority
  rw [List.pairwise_append, and_iff_right hentries, addedEntries, List.pairwise_map,
    List.pairwise_iff_getElem]
  simp only [List.length_zipIdx, List.getElem_zipIdx, Nat.zero_add, List.forall_mem_map, entryListedBefore, bulkEntry,
    addedPriority]
  constructor
  · rintro ⟨hadded, hexisting⟩
    constructor
    · intro entry hentry hlimit i hi
      have h := hexisting entry hentry (_, i) (List.mem_zipIdx_iff_getElem?.mpr
        (List.getElem?_eq_getElem hi))
      have hle := le_topPriority hentry
      rcases h with h | ⟨-, h⟩
      · simp only at h
        omega
      · exact h
    · intro i j hij hj hlimit
      rcases hadded i j (hij.trans hj) hj hij with h | ⟨-, h⟩
      · omega
      · exact h
  · rintro ⟨hexisting, hadded⟩
    constructor
    · intro i j hi hj hij
      by_cases hlimit : maxI32 ≤ topPriority entries + 10 * (i + 1)
      · exact .inr ⟨by omega, hadded i j hij hj hlimit⟩
      · exact .inl (by omega)
    · intro entry hentry x hx
      have hle := le_topPriority hentry
      have hi : x.2 < (freshValues kind entries values).length := by
        simpa using List.snd_lt_of_mem_zipIdx hx
      by_cases hlimit : entry.priority = maxI32
      · exact .inr ⟨by omega, hexisting entry hentry hlimit x.2 hi⟩
      · have hlt := hpriority entry hentry
        exact .inl (by omega)

theorem eq_of_perm_of_map {α β : Type} {f : α → β} {l k : List α} (h : l.Perm k)
    (hmap : l.map f = k.map f) (hnodup : (k.map f).Nodup) : l = k := by
  refine List.ext_getElem h.length_eq fun i hi hk ↦ ?_
  have hsame : f l[i] = f k[i] := by
    have hi' : i < (l.map f).length := by simpa using hi
    have hget := List.getElem_of_eq hmap hi'
    simpa using hget
  exact List.inj_on_of_nodup_map hnodup (h.subset (List.getElem_mem hi)) (List.getElem_mem hk) hsame

theorem filter_added : (db.entries.rows ++ addedEntries ruleSetId kind sourceTag newId entries
      values).filter (·.ruleSetId = ruleSetId) =
    db.entries.rows.filter (·.ruleSetId = ruleSetId) ++
      addedEntries ruleSetId kind sourceTag newId entries values := by
  rw [List.filter_append]
  refine congrArg _ (List.filter_eq_self.mpr fun entry hentry ↦ ?_)
  exact decide_eq_true (mem_addedEntries hentry).2.2.2

theorem Added.perm (h : Added ruleSetId kind sourceTag newId values db n db') :
    (loadRuleEntries db' ruleSetId).Perm (loadRuleEntries db ruleSetId ++
      addedEntries ruleSetId kind sourceTag newId (loadRuleEntries db ruleSetId) values) := by
  refine (List.perm_insertionSort entryListedBefore _).trans ?_
  rw [h.rows, filter_added]
  exact (List.perm_insertionSort entryListedBefore _).symm.append_right _

theorem addedEntries_values : (addedEntries ruleSetId kind sourceTag newId entries values).map
    (·.value) = freshValues kind entries values := by
  rw [addedEntries, List.map_map]
  exact List.zipIdx_map_fst 0 _

theorem Added.load_iff (h : Added ruleSetId kind sourceTag newId values db n db')
    (hi32 : ∀ entry ∈ db.entries.rows, entry.priority ≤ maxI32) :
    (∃ added, loadRuleEntries db' ruleSetId = loadRuleEntries db ruleSetId ++ added ∧
        added.length = n ∧ (∀ entry ∈ added, entry.enabled = true ∧ entry.kind = kind) ∧
        added.map (·.value) = freshValues kind (loadRuleEntries db ruleSetId) values) ↔
      IdsAscend newId (loadRuleEntries db ruleSetId)
        (freshValues kind (loadRuleEntries db ruleSetId) values).length := by
  have hold : (loadRuleEntries db ruleSetId).Pairwise entryListedBefore :=
    List.pairwise_insertionSort _ _
  have hnew : (loadRuleEntries db' ruleSetId).Pairwise entryListedBefore :=
    List.pairwise_insertionSort _ _
  have hpriority : ∀ entry ∈ loadRuleEntries db ruleSetId, entry.priority ≤ maxI32 :=
    fun entry hentry ↦ hi32 entry (mem_loadRuleEntries.mp hentry).1
  have hvalues : ((addedEntries ruleSetId kind sourceTag newId (loadRuleEntries db ruleSetId)
      values).map (·.value)).Nodup := by
    rw [addedEntries_values]
    exact List.Nodup.of_map (valueKey kind) retainFirst_keys_nodup
  have hsorted := @pairwise_added ruleSetId kind sourceTag newId _ values hpriority hold
  rw [← hsorted]
  constructor
  · rintro ⟨added, hload, -, -, hmap⟩
    have hperm : added.Perm (addedEntries ruleSetId kind sourceTag newId
        (loadRuleEntries db ruleSetId) values) :=
      (List.perm_append_left_iff _).mp (hload ▸ h.perm)
    have hsame : added = addedEntries ruleSetId kind sourceTag newId
        (loadRuleEntries db ruleSetId) values :=
      eq_of_perm_of_map hperm (hmap.trans addedEntries_values.symm) hvalues
    rw [← hsame, ← hload]
    exact hnew
  · intro hsorted
    refine ⟨_, sorted_unique loadRuleEntries_ids hnew hsorted h.perm, ?_, ?_, addedEntries_values⟩
    · rw [h.count, addedEntries, List.length_map, List.length_zipIdx]
    · exact fun entry hentry ↦ ⟨(mem_addedEntries hentry).2.1, (mem_addedEntries hentry).2.2.1⟩

end order

section rules

variable {ruleSetId input localPayload v w : String} {kind : RuleKind}
variable {sourceTag : Option String} {newId : ℕ → String} {db db' : Database}
variable {ruleSet : RoutingRuleSet} {entries : List RuleEntry} {sources : List RuleSetSource}
variable {values : List String} {n : ℕ}

/-- A rule is, up to ASCII case, one of some layer. -/
def Routed (entries : List RuleEntry) (localPayload : String) (sources : List RuleSetSource)
    (rule : String) : Prop :=
  ∃ other, Layered entries localPayload sources other ∧
    toAsciiLowercase other = toAsciiLowercase rule

/-- The layers are fit for compilation, and with the added values not all of them blank. -/
structure CompilableWith (added : List String) (entries : List RuleEntry) (localPayload : String)
    (sources : List RuleSetSource) : Prop where
  entries_ok : ∀ entry ∈ entries, entry.enabled = true → ∃ rule, entry.compiled = .ok rule
  payload_ok : ∃ rules, optionalPayload localPayload = .ok rules
  sources_ok : ∀ source ∈ sources, source.enabled = true →
    ∃ rules, optionalPayload source.cachedPayload = .ok rules
  some_layer : added ≠ [] ∨ (∃ entry ∈ entries, entry.enabled = true) ∨
    isEmpty (trim localPayload) = false ∨
      ∃ source ∈ sources, source.enabled = true ∧ isEmpty (trim source.cachedPayload) = false

theorem kindRule_key : toAsciiLowercase (kindRule kind v) = toAsciiLowercase (kindRule kind w) ↔
    valueKey kind v = valueKey kind w := by
  rw [valueKey_eq, and_iff_right rfl, kindRule, kindRule]
  split
  · rfl
  · rw [lowercase_append, lowercase_append (t := w), ← String.toList_inj, String.toList_append,
      String.toList_append, List.append_cancel_left_eq, String.toList_inj]

theorem Added.mem (h : Added ruleSetId kind sourceTag newId values db n db') {entry : RuleEntry} :
    entry ∈ loadRuleEntries db' ruleSetId ↔ entry ∈ loadRuleEntries db ruleSetId ∨
      entry ∈ addedEntries ruleSetId kind sourceTag newId (loadRuleEntries db ruleSetId) values := by
  rw [h.perm.mem_iff, List.mem_append]

theorem Added.compiled (h : Added ruleSetId kind sourceTag newId values db n db')
    {entry : RuleEntry} (hentry : entry ∈ addedEntries ruleSetId kind sourceTag newId
      (loadRuleEntries db ruleSetId) values) :
    entry.compiled = .ok (kindRule kind entry.value) := by
  obtain ⟨hvalue, -, hkind, -⟩ := mem_addedEntries hentry
  have htrim := h.trimmed _ (mem_of_mem_retainFirst hvalue).1
  have hrule : entryRule entry = kindRule entry.kind (trim entry.value) := rfl
  rw [validate_ok_entry (h.valid entry hentry), hrule, htrim, hkind]

theorem Added.compilable (h : Added ruleSetId kind sourceTag newId values db n db') :
    Compilable (loadRuleEntries db' ruleSetId) localPayload sources ↔
      CompilableWith (freshValues kind (loadRuleEntries db ruleSetId) values)
        (loadRuleEntries db ruleSetId) localPayload sources := by
  have hadded : freshValues kind (loadRuleEntries db ruleSetId) values ≠ [] ↔
      ∃ entry, entry ∈ addedEntries ruleSetId kind sourceTag newId (loadRuleEntries db ruleSetId)
        values := by
    have hvalues : (addedEntries ruleSetId kind sourceTag newId (loadRuleEntries db ruleSetId)
        values).map (·.value) = freshValues kind (loadRuleEntries db ruleSetId) values :=
      addedEntries_values
    rw [← hvalues, Ne, List.map_eq_nil_iff]
    exact ⟨List.exists_mem_of_ne_nil _, fun ⟨_, hentry⟩ ↦ List.ne_nil_of_mem hentry⟩
  constructor
  · intro hcompiles
    refine ⟨fun entry hentry ↦ hcompiles.entries_ok entry (h.mem.mpr (.inl hentry)),
      hcompiles.payload_ok, hcompiles.sources_ok, ?_⟩
    rcases hcompiles.some_layer with ⟨entry, hentry, henabled⟩ | hother
    · rcases h.mem.mp hentry with hentry | hentry
      · exact .inr (.inl ⟨entry, hentry, henabled⟩)
      · exact .inl (hadded.mpr ⟨entry, hentry⟩)
    · exact .inr (.inr hother)
  · intro hcompiles
    refine ⟨fun entry hentry henabled ↦ ?_, hcompiles.payload_ok, hcompiles.sources_ok, ?_⟩
    · rcases h.mem.mp hentry with hentry | hentry
      · exact hcompiles.entries_ok entry hentry henabled
      · exact ⟨_, h.compiled hentry⟩
    · rcases hcompiles.some_layer with hfresh | ⟨entry, hentry, henabled⟩ | hother
      · obtain ⟨entry, hentry⟩ := hadded.mp hfresh
        exact .inl ⟨entry, h.mem.mpr (.inr hentry), (mem_addedEntries hentry).2.1⟩
      · exact .inl ⟨entry, h.mem.mpr (.inl hentry), henabled⟩
      · exact .inr hother

theorem Added.routed_iff (h : Added ruleSetId kind sourceTag newId values db n db')
    (hv : v ∈ values) :
    Routed (loadRuleEntries db' ruleSetId) localPayload sources (kindRule kind v) ↔
      (valueKey kind v ∈ (loadRuleEntries db ruleSetId).map entryKey →
        Routed (loadRuleEntries db ruleSetId) localPayload sources (kindRule kind v)) := by
  constructor
  · rintro ⟨other, hother, hsame⟩ hkey
    refine ⟨other, ?_, hsame⟩
    cases hother with
    | other mem => exact .other mem
    | entry entry mem enabled compiled =>
      rcases h.mem.mp mem with hold | hadded
      · exact .entry entry hold enabled compiled
      · cases compiled.symm.trans (h.compiled hadded)
        have hfresh := (mem_of_mem_retainFirst (mem_addedEntries hadded).1).2
        rw [kindRule_key.mp hsame] at hfresh
        exact absurd hkey hfresh
  · intro hrouted
    by_cases hkey : valueKey kind v ∈ (loadRuleEntries db ruleSetId).map entryKey
    · obtain ⟨other, hother, hsame⟩ := hrouted hkey
      exact ⟨other, hother.mono fun entry hentry ↦ h.mem.mpr (.inl hentry), hsame⟩
    · have hfresh : valueKey kind v ∈ (freshValues kind (loadRuleEntries db ruleSetId) values).map
          (valueKey kind) := mem_keys_retainFirst.mpr ⟨List.mem_map_of_mem hv, hkey⟩
      obtain ⟨value, hvalue, hsame⟩ := List.mem_map.mp hfresh
      have hvalues : (addedEntries ruleSetId kind sourceTag newId (loadRuleEntries db ruleSetId)
          values).map (·.value) = freshValues kind (loadRuleEntries db ruleSetId) values :=
        addedEntries_values
      rw [← hvalues] at hvalue
      obtain ⟨entry, hentry, rfl⟩ := List.mem_map.mp hvalue
      exact ⟨_, .entry entry (h.mem.mpr (.inr hentry)) (mem_addedEntries hentry).2.1
        (h.compiled hentry), kindRule_key.mpr hsame⟩

/-- A bulk input adds every rule in order exactly if the identities ascend where the priorities
are at their limit and no rule has only a disabled entry already. -/
theorem bulk_added_rules (hi32 : ∀ entry ∈ db.entries.rows, entry.priority ≤ maxI32)
    (h : bulkAddRuleEntries ruleSetId kind sourceTag newId input db = .ok (n, db'))
    (hruleSet : findRuleSet db ruleSetId = .ok ruleSet) :
    ((∃ added, loadRuleEntries db' ruleSetId = loadRuleEntries db ruleSetId ++ added ∧
          added.length = n ∧ (∀ entry ∈ added, entry.enabled = true ∧ entry.kind = kind) ∧
          added.map (·.value) =
            freshValues kind (loadRuleEntries db ruleSetId) (inputValues kind input)) ∧
        ∀ payload, compiledRuleSetPayload db' ruleSet = .ok payload →
          ∀ value ∈ inputValues kind input, HasRule payload (kindRule kind value)) ↔
      IdsAscend newId (loadRuleEntries db ruleSetId)
          (freshValues kind (loadRuleEntries db ruleSetId) (inputValues kind input)).length ∧
        (CompilableWith
            (freshValues kind (loadRuleEntries db ruleSetId) (inputValues kind input))
            (loadRuleEntries db ruleSetId) ruleSet.payload (loadRuleSources db ruleSetId) →
          ∀ value ∈ inputValues kind input,
            valueKey kind value ∈ (loadRuleEntries db ruleSetId).map entryKey →
              Routed (loadRuleEntries db ruleSetId) ruleSet.payload (loadRuleSources db ruleSetId)
                (kindRule kind value)) := by
  obtain ⟨-, rfl⟩ := findRuleSet_ok hruleSet
  have hadded := bulkAdd_ok hi32 h
  have hafter : compiledRuleSetPayload db' ruleSet =
      compileRuleSetPayload (loadRuleEntries db' ruleSet.slug) ruleSet.payload
        (loadRuleSources db ruleSet.slug) := by
    rw [compiledRuleSetPayload, compileWith, loadRuleSources, hadded.sources]
    rfl
  rw [hadded.load_iff hi32, hafter, ← hadded.compilable]
  refine and_congr_right fun _ ↦ ?_
  constructor
  · intro hrules hcompiles value hvalue
    obtain ⟨payload, hpayload⟩ := compile_ok_iff.mpr hcompiles
    exact (hadded.routed_iff hvalue).mp ((hasRule_compiled hpayload).mp
      (hrules payload hpayload value hvalue))
  · intro hrouted payload hpayload value hvalue
    exact (hasRule_compiled hpayload).mpr ((hadded.routed_iff hvalue).mpr
      (hrouted (compile_ok_iff.mp ⟨payload, hpayload⟩) value hvalue))

theorem streaming_distinct : [(⟨"streaming", "Streaming", "", "DIRECT", true, "DOMAIN,local.test"⟩ :
    RoutingRuleSet)].Pairwise fun a b ↦ ¬SameKey (·.slug) a b :=
  List.pairwise_singleton _ _

def oneEntry (enabled : Bool) : Database :=
  { initDb with
    ruleSets := ⟨[⟨"streaming", "Streaming", "", "DIRECT", true, "DOMAIN,local.test"⟩],
      streaming_distinct⟩
    entries := ⟨[⟨"a", "streaming", enabled, .domain, "example.com", none, none, 10⟩],
      List.pairwise_singleton _ _⟩ }

def fewLines : String := "fresh.test\nexample.com\nother.test\nfresh.test\n"

def fewIds (i : ℕ) : String := if i = 0 then "b" else "c"

theorem fewLines_routed : ∀ value ∈ inputValues .domain fewLines,
    valueKey .domain value ∈ (loadRuleEntries (oneEntry true) "streaming").map entryKey →
      Routed (loadRuleEntries (oneEntry true) "streaming") "DOMAIN,local.test"
        (loadRuleSources (oneEntry true) "streaming") (kindRule .domain value) := by
  intro value hvalue hkey
  have hknown : ∀ value ∈ inputValues .domain fewLines,
      valueKey .domain value ∈ (loadRuleEntries (oneEntry true) "streaming").map entryKey →
        value = "example.com" := by
    decide
  cases hknown value hvalue hkey
  have hentry : ∃ entry ∈ loadRuleEntries (oneEntry true) "streaming", entry.enabled = true ∧
      entry.compiled = .ok "DOMAIN,example.com" := by
    decide
  obtain ⟨entry, hmem, henabled, hcompiled⟩ := hentry
  exact ⟨_, .entry entry hmem henabled hcompiled, by decide⟩

theorem bulk_added_rules_enabled : ∃ n db', bulkAddRuleEntries "streaming" .domain none fewIds
      fewLines (oneEntry true) = .ok (n, db') ∧
    (∃ added, loadRuleEntries db' "streaming" =
        loadRuleEntries (oneEntry true) "streaming" ++ added ∧
      added.map (·.value) = ["fresh.test", "other.test"]) ∧
    ∀ payload, compiledRuleSetPayload db'
        ⟨"streaming", "Streaming", "", "DIRECT", true, "DOMAIN,local.test"⟩ = .ok payload →
      ∀ value ∈ inputValues .domain fewLines, HasRule payload (kindRule .domain value) := by
  have hsome : (bulkAddRuleEntries "streaming" .domain none fewIds fewLines
      (oneEntry true)).map (·.1) = .ok 2 := by decide
  obtain ⟨⟨n, db'⟩, h, -⟩ := Except.map_eq_ok.mp hsome
  have hi32 : ∀ entry ∈ (oneEntry true).entries.rows, entry.priority ≤ maxI32 := by
    decide
  have hids : IdsAscend fewIds (loadRuleEntries (oneEntry true) "streaming")
      (freshValues .domain (loadRuleEntries (oneEntry true) "streaming")
        (inputValues .domain fewLines)).length := by
    refine ⟨by decide, fun i j hij hj _ ↦ ?_⟩
    have hfresh : (freshValues .domain (loadRuleEntries (oneEntry true) "streaming")
        (inputValues .domain fewLines)).length = 2 := by decide
    obtain rfl : i = 0 := by omega
    obtain rfl : j = 1 := by omega
    decide
  obtain ⟨⟨added, hload, -, -, hvalues⟩, hrules⟩ :=
    (bulk_added_rules hi32 h rfl).mpr ⟨hids, fun _ ↦ fewLines_routed⟩
  refine ⟨n, db', h, ⟨added, hload, hvalues.trans ?_⟩, hrules⟩
  decide

theorem bulk_added_rule_lost : ∃ n db', bulkAddRuleEntries "streaming" .domain none
      (fun _ ↦ "b") "example.com" (oneEntry false) = .ok (n, db') ∧
    ∃ payload, compiledRuleSetPayload db'
        ⟨"streaming", "Streaming", "", "DIRECT", true, "DOMAIN,local.test"⟩ = .ok payload ∧
      "example.com" ∈ inputValues .domain "example.com" ∧
      ¬HasRule payload (kindRule .domain "example.com") := by
  have hafter : (do
      let result ← bulkAddRuleEntries "streaming" .domain none (fun _ ↦ "b") "example.com"
        (oneEntry false)
      compiledRuleSetPayload result.2
        ⟨"streaming", "Streaming", "", "DIRECT", true, "DOMAIN,local.test"⟩) =
      .ok "DOMAIN,local.test" := by decide
  obtain ⟨⟨n, db'⟩, h, hpayload⟩ := Except.bind_eq_ok.mp hafter
  exact ⟨n, db', h, _, hpayload, by decide, by decide⟩

end rules

end StealthHub.Storage

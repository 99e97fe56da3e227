import StealthHub.Data.Result
import StealthHub.Data.Text

set_option autoImplicit false

namespace StealthHub.Routing

open Text

def classicalConditionTypes : List String :=
  ["DOMAIN", "DOMAIN-SUFFIX", "DOMAIN-KEYWORD", "DOMAIN-WILDCARD", "DOMAIN-REGEX", "GEOSITE",
    "IP-CIDR", "IP-CIDR6", "IP-SUFFIX", "IP-ASN", "GEOIP", "SRC-GEOIP", "SRC-IP-ASN",
    "SRC-IP-CIDR", "SRC-IP-SUFFIX", "DST-PORT", "SRC-PORT", "IN-PORT", "IN-TYPE", "IN-USER",
    "IN-NAME", "PROCESS-PATH", "PROCESS-PATH-WILDCARD", "PROCESS-PATH-REGEX", "PROCESS-NAME",
    "PROCESS-NAME-WILDCARD", "PROCESS-NAME-REGEX", "UID", "NETWORK", "DSCP"]

def noResolveConditionTypes : List String :=
  ["IP-CIDR", "IP-CIDR6", "IP-SUFFIX", "IP-ASN", "GEOIP", "SRC-GEOIP", "SRC-IP-ASN",
    "SRC-IP-CIDR", "SRC-IP-SUFFIX"]

structure RoutingRuleSet where
  slug : String
  title : String
  effect : String
  target : String
  enabled : Bool
  payload : String
  deriving DecidableEq

inductive RuleKind
  | domain
  | domainSuffix
  | domainKeyword
  | ipCidr
  | ipCidr6
  | geoip
  | geosite
  | asn
  | processName
  | dstPort
  | srcPort
  | network
  | classical
  deriving DecidableEq

def RuleKind.mihomoName : RuleKind → String
  | .domain => "DOMAIN"
  | .domainSuffix => "DOMAIN-SUFFIX"
  | .domainKeyword => "DOMAIN-KEYWORD"
  | .ipCidr => "IP-CIDR"
  | .ipCidr6 => "IP-CIDR6"
  | .geoip => "GEOIP"
  | .geosite => "GEOSITE"
  | .asn => "IP-ASN"
  | .processName => "PROCESS-NAME"
  | .dstPort => "DST-PORT"
  | .srcPort => "SRC-PORT"
  | .network => "NETWORK"
  | .classical => "CLASSICAL"

structure RuleEntry where
  id : String
  ruleSetId : String
  enabled : Bool
  kind : RuleKind
  value : String
  comment : Option String
  sourceTag : Option String
  priority : Int
  deriving DecidableEq

inductive RuleSourceFormat
  | text
  | yaml
  | mihomoClassical
  deriving DecidableEq

structure RuleSetSource where
  id : String
  ruleSetId : String
  url : String
  format : RuleSourceFormat
  enabled : Bool
  refreshIntervalSeconds : ℕ
  etag : Option String
  lastModified : Option String
  lastSuccessfulFetch : Option String
  checksum : Option String
  entryCount : ℕ
  lastError : Option String
  cachedPayload : String
  deriving DecidableEq

def hasControl (s : String) : Bool := s.toList.any isControl

/-- One line of a payload: `none` for a blank line or a comment, else the trimmed
rule. -/
def classicalLine (index : ℕ) (rawLine : String) : Except String (Option String) :=
  let line := trim rawLine
  if isEmpty line || startsWith line "#" then .ok none
  else
    match splitOnce ',' line with
    | none => .error s!"line {index + 1} must use TYPE,value syntax"
    | some (kind, rest) =>
      let kind := trim kind
      let fields := (split ',' line).map trim
      if isEmpty kind || isEmpty (trim rest) then
        .error s!"line {index + 1} has an empty rule type or value"
      else if kind ∈ ["RULE-SET", "SUB-RULE"] then
        .error s!"line {index + 1} cannot reference another rule set"
      else if kind ∈ ["AND", "OR", "NOT", "MATCH"] then
        .error s!"line {index + 1} cannot contain a logical or catch-all rule"
      else if kind ∉ classicalConditionTypes then
        .error s!"line {index + 1} uses an unsupported rule type"
      else if 1024 < len line || hasControl line then
        .error s!"line {index + 1} is too long or contains control characters"
      else if (fields.length = 3 ∧ eqIgnoreAsciiCase (fields.getD 2 "") "no-resolve" ∧
          kind ∈ noResolveConditionTypes) ∨ fields.length = 2 then
        .ok (some line)
      else .error s!"line {index + 1} must not specify a routing target"

def validateClassicalRulePayload (payload : String) : Except String (List String) := do
  let parsed ← (lines payload).zipIdx.mapM fun (rawLine, index) ↦ classicalLine index rawLine
  let rules := parsed.filterMap id
  if rules.isEmpty then throw "rule payload must contain at least one rule"
  else return rules

/-- `validated.len() != 1`, and the rule itself. -/
def singleRule : List String → Except String String
  | [rule] => .ok rule
  | _ => .error "inline routing condition must contain exactly one rule"

def completeRule (rule target : String) : Except String String :=
  let fields := (split ',' rule).map trim
  let modifier := fields.getLast?.any fun value ↦ eqIgnoreAsciiCase value "no-resolve"
  if modifier && !noResolveConditionTypes.contains (fields.headD "") then
    .error "no-resolve is unsupported for this rule type"
  else
    match if modifier then fields.dropLast else fields with
    | [kind, value] =>
      .ok (",".intercalate ([kind, value, target] ++ if modifier then ["no-resolve"] else []))
    | _ => .error "classical routing condition has ambiguous fields"

def classicalRuleWithTarget (condition target : String) : Except String String := do
  if isEmpty target || trim target ≠ target || containsChar target ',' || hasControl target then
    throw "invalid routing target"
  else
    let validated ← validateClassicalRulePayload condition
    let rule ← singleRule validated
    completeRule rule target

namespace RuleEntry

def firstRule (message : String) (validated : List String) : Except String String :=
  validated.head?.elim (.error message) .ok

def compiled (entry : RuleEntry) : Except String String := do
  let value := trim entry.value
  if entry.kind = .classical then
    let validated ← validateClassicalRulePayload value
    firstRule "empty classical rule" validated
  else
    let validated ← validateClassicalRulePayload (entry.kind.mihomoName ++ "," ++ value)
    firstRule "empty normalized rule" validated

def validate (entry : RuleEntry) : Except String Unit := do
  if isEmpty entry.id || 64 < len entry.id ||
      !entry.id.toList.all fun c ↦ isAsciiAlphanumeric c || c = '-' || c = '_' then
    throw "invalid rule entry ID"
  else if isEmpty entry.ruleSetId || 64 < len entry.ruleSetId then
    throw "invalid rule-set reference"
  else if isEmpty (trim entry.value) || 1024 < len entry.value || hasControl entry.value then
    throw "invalid normalized rule value"
  else if (entry.comment.any fun value ↦ 256 < len value || hasControl value) ||
      (entry.sourceTag.any fun value ↦ 64 < len value || hasControl value) then
    throw "invalid rule entry metadata"
  else
    let _ ← entry.compiled
    return ()

end RuleEntry

def retainFirst {α κ : Type} [DecidableEq κ] (key : α → κ) : List κ → List α → List α
  | _, [] => []
  | seen, item :: rest =>
    if key item ∈ seen then retainFirst key seen rest
    else item :: retainFirst key (key item :: seen) rest

def optionalPayload (payload : String) : Except String (List String) :=
  if isEmpty (trim payload) then .ok [] else validateClassicalRulePayload payload

def compileRuleSetPayload (entries : List RuleEntry) (localPayload : String)
    (sources : List RuleSetSource) : Except String String := do
  let fromEntries ← (entries.filter (·.enabled)).mapM RuleEntry.compiled
  let fromLocal ← optionalPayload localPayload
  let fromSources ← (sources.filter (·.enabled)).mapM fun source ↦
    optionalPayload source.cachedPayload
  let compiled :=
    retainFirst toAsciiLowercase [] (fromEntries ++ fromLocal ++ fromSources.flatten)
  if compiled.isEmpty then throw "compiled rule set is empty"
  else return joinLines compiled

def customDirectSlug : String := "custom-direct"

def routingTargets : List String :=
  ["DIRECT", "SMART-AUTO", "FAST-AUTO", "REST-AUTO", "MANUAL", "REJECT"]

def defaultRoutingRuleSets : List RoutingRuleSet :=
  [{ slug := customDirectSlug
     title := "Manual DIRECT exceptions"
     effect := "Operator-managed exceptions evaluated before Russian geodata."
     target := "DIRECT"
     enabled := false
     payload := "" }]

def isValidRoutingTarget (target : String) : Bool := routingTargets.contains target

/-- A line that the validation accepts as a rule. -/
structure ClassicalRule (line : String) : Prop where
  ne_empty : line ≠ ""
  trimmed : trim line = line
  no_control : ∀ c ∈ line.toList, isControl c = false
  accepted : ∀ index, classicalLine index line = .ok (some line)

variable {payload line rawLine rule target condition : String} {rules : List String} {index : ℕ}

theorem classicalLine_some (h : classicalLine index rawLine = .ok (some line)) :
    line = trim rawLine ∧ ClassicalRule line := by
  have key : ∀ index', classicalLine index' (trim rawLine) = .ok (some (trim rawLine)) ∧
      line = trim rawLine ∧ isEmpty (trim rawLine) = false ∧
      hasControl (trim rawLine) = false := by
    intro index'
    unfold classicalLine at h ⊢
    simp only [trim_trim] at h ⊢
    split at h
    · cases h
    next hblank =>
      rw [if_neg hblank]
      split at h
      · cases h
      next kind rest hsplit =>
        split_ifs at h ⊢ with h₁ h₂ h₃ h₄ h₅ h₆
        cases h
        simp only [Bool.or_eq_true, decide_eq_true_eq, not_or, Bool.not_eq_true] at hblank h₅
        exact ⟨rfl, rfl, hblank.1, h₅.2⟩
  obtain ⟨-, rfl, hne, hcontrol⟩ := key 0
  refine ⟨rfl, fun h ↦ ?_, trim_trim _, ?_, fun index' ↦ (key index').1⟩
  · rw [isEmpty_iff.mpr h] at hne
    cases hne
  · simpa [hasControl] using hcontrol

theorem validatePayload_ok (h : validateClassicalRulePayload payload = .ok rules) :
    rules ≠ [] ∧ ∀ rule ∈ rules, ClassicalRule rule := by
  obtain ⟨parsed, hparsed, h⟩ := Except.bind_eq_ok.mp h
  obtain ⟨hne, h⟩ := Except.guard_eq_ok.mp h
  cases Except.pure_eq_ok.mp h
  refine ⟨by simpa using hne, fun rule hrule ↦ ?_⟩
  have hsome : some rule ∈ parsed := by simpa using hrule
  obtain ⟨⟨rawLine, index⟩, -, hline⟩ := (Except.exists_of_mapM hparsed).2 _ hsome
  exact (classicalLine_some hline).2

theorem validatePayload_joinLines (hne : rules ≠ []) (h : ∀ rule ∈ rules, ClassicalRule rule) :
    validateClassicalRulePayload (joinLines rules) = .ok rules := by
  have hlines : lines (joinLines rules) = rules :=
    lines_joinLines fun rule hrule ↦ ⟨(h rule hrule).ne_empty, (h rule hrule).no_control⟩
  have hparsed : rules.zipIdx.mapM (fun x ↦ classicalLine x.2 x.1) =
      Except.ok (rules.map some) := by
    refine Except.mapM_eq_ok.mpr ?_
    rw [List.forall₂_map_right_iff]
    refine List.forall₂_iff_get.mpr ⟨List.length_zipIdx, fun i hi₁ hi₂ ↦ ?_⟩
    simp only [List.get_eq_getElem, List.getElem_zipIdx]
    exact (h _ (List.getElem_mem hi₂)).accepted _
  refine Except.bind_eq_ok.mpr ⟨rules.map some, ?_, ?_⟩
  · rw [hlines]
    exact hparsed
  · refine Except.guard_eq_ok.mpr ⟨?_, ?_⟩
    · simpa [List.filterMap_map] using hne
    · simp [List.filterMap_map]

theorem retainFirst_eq_nil {α κ : Type} [DecidableEq κ] {key : α → κ} {items : List α} :
    retainFirst key [] items = [] ↔ items = [] := by
  cases items with
  | nil => simp [retainFirst]
  | cons item rest => simp [retainFirst]

/-- Entries, local payload and sources of a rule set, each fit for compilation, and
not all of them blank. -/
structure Compilable (entries : List RuleEntry) (localPayload : String)
    (sources : List RuleSetSource) : Prop where
  entries_ok : ∀ entry ∈ entries, entry.enabled = true → ∃ rule, entry.compiled = .ok rule
  payload_ok : ∃ rules, optionalPayload localPayload = .ok rules
  sources_ok : ∀ source ∈ sources, source.enabled = true →
    ∃ rules, optionalPayload source.cachedPayload = .ok rules
  some_layer : (∃ entry ∈ entries, entry.enabled = true) ∨ isEmpty (trim localPayload) = false ∨
    ∃ source ∈ sources, source.enabled = true ∧ isEmpty (trim source.cachedPayload) = false

theorem optionalPayload_ok (h : optionalPayload payload = .ok rules) :
    (rules = [] ↔ isEmpty (trim payload) = true) ∧ ∀ rule ∈ rules, ClassicalRule rule := by
  unfold optionalPayload at h
  split at h
  next hblank =>
    cases h
    exact ⟨by simp [hblank], nofun⟩
  next hblank =>
    obtain ⟨hne, hrules⟩ := validatePayload_ok h
    exact ⟨by simp [hblank, hne], hrules⟩

theorem compile_ok_iff {entries : List RuleEntry} {localPayload : String}
    {sources : List RuleSetSource} :
    (∃ compiled, compileRuleSetPayload entries localPayload sources = .ok compiled) ↔
      Compilable entries localPayload sources := by
  constructor
  · rintro ⟨compiled, h⟩
    obtain ⟨fromEntries, hentries, h⟩ := Except.bind_eq_ok.mp h
    obtain ⟨fromLocal, hlocal, h⟩ := Except.bind_eq_ok.mp h
    obtain ⟨fromSources, hsources, h⟩ := Except.bind_eq_ok.mp h
    obtain ⟨hne, -⟩ := Except.guard_eq_ok.mp h
    obtain ⟨hentry, hentryBack⟩ := Except.exists_of_mapM hentries
    obtain ⟨hsource, hsourceBack⟩ := Except.exists_of_mapM hsources
    refine ⟨fun entry he hen ↦ ?_, ⟨_, hlocal⟩, fun source hs hen ↦ ?_, ?_⟩
    · obtain ⟨rule, -, hrule⟩ := hentry entry (List.mem_filter.mpr ⟨he, hen⟩)
      exact ⟨rule, hrule⟩
    · obtain ⟨rules, -, hrules⟩ := hsource source (List.mem_filter.mpr ⟨hs, hen⟩)
      exact ⟨rules, hrules⟩
    · by_contra hblank
      simp only [not_or, not_exists, not_and] at hblank
      obtain ⟨hnoEntry, hlocalBlank, hnoSource⟩ := hblank
      refine hne (List.isEmpty_iff.mpr (retainFirst_eq_nil.mpr ?_))
      have h₁ : fromEntries = [] := by
        refine List.eq_nil_iff_forall_not_mem.mpr fun rule hrule ↦ ?_
        obtain ⟨entry, he, -⟩ := hentryBack rule hrule
        obtain ⟨he, hen⟩ := List.mem_filter.mp he
        exact hnoEntry entry he hen
      have h₂ : fromLocal = [] := (optionalPayload_ok hlocal).1.mpr (by simpa using hlocalBlank)
      have h₃ : fromSources.flatten = [] := by
        refine List.flatten_eq_nil_iff.mpr fun rules hrules ↦ ?_
        obtain ⟨source, hs, hsrc⟩ := hsourceBack rules hrules
        obtain ⟨hs, hen⟩ := List.mem_filter.mp hs
        exact (optionalPayload_ok hsrc).1.mpr (by simpa using hnoSource source hs hen)
      rw [h₁, h₂, h₃]
      rfl
  · rintro ⟨hentry, ⟨fromLocal, hlocal⟩, hsource, hnonempty⟩
    obtain ⟨fromEntries, hentries⟩ : ∃ bs, (entries.filter (·.enabled)).mapM RuleEntry.compiled =
        .ok bs := by
      refine Except.exists_mapM_ok fun entry he ↦ ?_
      obtain ⟨he, hen⟩ := List.mem_filter.mp he
      exact hentry entry he hen
    obtain ⟨fromSources, hsources⟩ : ∃ bs, (sources.filter (·.enabled)).mapM
        (fun source ↦ optionalPayload source.cachedPayload) = .ok bs := by
      refine Except.exists_mapM_ok fun source hs ↦ ?_
      obtain ⟨hs, hen⟩ := List.mem_filter.mp hs
      exact hsource source hs hen
    refine ⟨_, Except.bind_eq_ok.mpr ⟨_, hentries, Except.bind_eq_ok.mpr ⟨_, hlocal,
      Except.bind_eq_ok.mpr ⟨_, hsources, Except.guard_eq_ok.mpr ⟨fun hempty ↦ ?_, rfl⟩⟩⟩⟩⟩
    have hnil := retainFirst_eq_nil.mp (List.isEmpty_iff.mp hempty)
    simp only [List.append_eq_nil_iff] at hnil
    obtain ⟨⟨h₁, h₂⟩, h₃⟩ := hnil
    rcases hnonempty with ⟨entry, he, hen⟩ | hlocal' | ⟨source, hs, hen, hcache⟩
    · obtain ⟨rule, hrule, -⟩ := (Except.exists_of_mapM hentries).1 entry
        (List.mem_filter.mpr ⟨he, hen⟩)
      rw [h₁] at hrule
      cases hrule
    · rw [(optionalPayload_ok hlocal).1.mp h₂] at hlocal'
      cases hlocal'
    · obtain ⟨rules, hrules, hsrc⟩ := (Except.exists_of_mapM hsources).1 source
        (List.mem_filter.mpr ⟨hs, hen⟩)
      rw [(optionalPayload_ok hsrc).1.mp (List.flatten_eq_nil_iff.mp h₃ rules hrules)] at hcache
      cases hcache

end StealthHub.Routing

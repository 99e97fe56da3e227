import StealthHub.Routing.Explained

set_option autoImplicit false

namespace StealthHub.Routing

open Text

abbrev Interpretation := String → String → Prop

/-- What a rule line says of a lower-case host name; `none` for a line of another kind,
or without a value. -/
def linePredicate (line : String) : Option (String → Prop) :=
  let fields := (split ',' line).map trim
  let value := toAsciiLowercase (fields.getD 1 "")
  if isEmpty value then
    if fields.headD "" = "MATCH" then some fun _ ↦ True else none
  else
    match fields.headD "" with
    | "DOMAIN" => some fun host ↦ host = value
    | "DOMAIN-SUFFIX" => some fun host ↦ host = value ∨ '.' :: value.toList <:+ host.toList
    | "DOMAIN-KEYWORD" => some fun host ↦ value.toList <:+: host.toList
    | "DOMAIN-WILDCARD" => some fun host ↦ Glob.Matches '*' '?' value.toList host.toList
    | "MATCH" => some fun _ ↦ True
    | _ => none

inductive Holds (I : Interpretation) (line host : String) : Prop
  | read (P : String → Prop) : linePredicate line = some P → P host → Holds I line host
  | unknown : linePredicate line = none → I line host → Holds I line host

def Applies (I : Interpretation) (host : String) (lines : List String) : Prop :=
  ∃ line ∈ lines, Holds I line host

open Classical in
/-- The first path one of whose lines holds, under an interpretation. -/
noncomputable def firstMatch (I : Interpretation) (host : String) :
    List (TopologyPath × List String) → Option TopologyPath
  | [] => none
  | (path, lines) :: rest => if Applies I host lines then some path else firstMatch I host rest

theorem mem_validDomain {host : String} (h : validDomain host = true) {c : Char}
    (hc : c ∈ host.toList) : isAsciiAlphanumeric c = true ∨ c = '-' ∨ c = '.' := by
  simp only [validDomain, Bool.and_eq_true, List.all_eq_true] at h
  rcases mem_splitOn (a := '.') hc with hdot | ⟨piece, hpiece, hmem⟩
  · exact .inr (.inr hdot)
  · have hlabel := h.2 _ (List.mem_map_of_mem hpiece)
    simp only [validLabel, Bool.and_eq_true, List.all_eq_true, String.toList_ofList,
      Bool.or_eq_true, decide_eq_true_eq] at hlabel
    exact (hlabel.2 c hmem).imp_right .inl

theorem ascii_of_validDomain {host : String} (h : validDomain host = true) :
    ∀ c ∈ host.toList, c.toNat < 128 ∧ c ≠ '*' := by
  intro c hc
  have hletters := mem_validDomain h hc
  simp only [isAsciiAlphanumeric, isAsciiLowercase, isAsciiUppercase, isAsciiDigit,
    Bool.or_eq_true, Bool.and_eq_true, decide_eq_true_eq, Char.le_def, UInt32.le_iff_toNat_le]
    at hletters
  constructor
  · rcases hletters with ((⟨-, hle⟩ | ⟨-, hle⟩) | ⟨-, hle⟩) | rfl | rfl
    · exact Nat.lt_of_le_of_lt hle (by decide)
    · exact Nat.lt_of_le_of_lt hle (by decide)
    · exact Nat.lt_of_le_of_lt hle (by decide)
    · decide
    · decide
  · rintro rfl
    exact absurd hletters (by decide)

theorem wildcardMatches_ascii {pattern text : String}
    (h : ∀ c ∈ text.toList, c.toNat < 128 ∧ c ≠ '*') :
    wildcardMatches (utf8Bytes pattern) (utf8Bytes text) = true ↔
      Glob.Matches '*' '?' pattern.toList text.toList := by
  have hbytes : utf8Bytes text = text.toList.map fun c ↦ UInt8.ofNat c.toNat := by
    rw [utf8Bytes, List.flatMap_congr fun c hc ↦ utf8EncodeChar_ascii (h c hc).1,
      List.map_eq_flatMap]
  rw [wildcardMatches, Glob.wildcardMatches_iff (by decide), hbytes]
  · refine Glob.matches_flatMap rfl rfl (fun a ↦ ?_) fun c hc ↦ utf8EncodeChar_ascii (h c hc).1
    obtain ⟨code, rest, hcode, hinj⟩ := utf8EncodeChar_head a
    exact ⟨code, rest, hcode, hinj '*' (by decide), hinj '?' (by decide),
      fun c hc ↦ hinj c (h c hc).1⟩
  · rw [hbytes, List.mem_map]
    rintro ⟨c, hc, heq⟩
    obtain ⟨code, rest, hcode, hinj⟩ := utf8EncodeChar_head c
    rw [utf8EncodeChar_ascii (h c hc).1] at hcode
    obtain ⟨rfl, -⟩ := List.cons_eq_cons.mp hcode
    exact (h c hc).2 (hinj '*' (by decide) heq)

section Path

variable {host : String} (hvalid : validDomain host = true)

include hvalid

theorem domainMatcher_matches (line : String) :
    (domainMatcher line).map (fun matcher ↦ matcher.matches host = true) =
      (linePredicate line).map (· host) := by
  have hascii := ascii_of_validDomain hvalid
  simp only [domainMatcher, linePredicate]
  generalize ((split ',' line).map trim).headD "" = kind
  generalize toAsciiLowercase (((split ',' line).map trim).getD 1 "") = value
  by_cases hvalue : isEmpty value = true
  · simp only [hvalue, if_true]
    split
    · rfl
    · rfl
    · rfl
    · rfl
    · simp [DomainMatcher.matches]
    next hkind => simp [show ¬kind = "MATCH" from hkind]
  · simp only [hvalue]
    split
    · simp [DomainMatcher.matches]
    · simp [DomainMatcher.matches, endsWith, List.isSuffixOf_iff_suffix]
    · simp [DomainMatcher.matches, contains, containsList_iff]
    · simp [DomainMatcher.matches, wildcardMatches_ascii hascii]
    · simp [DomainMatcher.matches]
    · simp [*]

variable {lines : List String} {path : TopologyPath} {matcher target : String}

theorem applies_of_match (hpath : Draws matcher target lines path)
    (hmatch : path.matchers.any (·.matches host) = true) (I : Interpretation) :
    Applies I host lines := by
  rw [hpath.matchers, List.any_eq_true] at hmatch
  obtain ⟨found, hfound, hholds⟩ := hmatch
  obtain ⟨line, hline, heq⟩ := List.mem_filterMap.mp hfound
  have h := domainMatcher_matches hvalid line
  rw [heq, Option.map_some] at h
  obtain ⟨P, hP, hPhost⟩ := Option.map_eq_some_iff.mp h.symm
  exact ⟨line, hline, .read P hP (hPhost.mpr hholds)⟩

theorem holds_of_no_match (hpath : Draws matcher target lines path)
    (hmatch : ¬path.matchers.any (·.matches host) = true) {I : Interpretation} {line : String}
    (hline : line ∈ lines) (hholds : Holds I line host) :
    domainMatcher line = none ∧ I line host := by
  have h := domainMatcher_matches hvalid line
  cases hholds with
  | unknown hnone hI =>
    rw [hnone, Option.map_none, Option.map_eq_none_iff] at h
    exact ⟨h, hI⟩
  | read P hP hPhost =>
    rw [hP, Option.map_some] at h
    obtain ⟨found, hfound, hmatches⟩ := Option.map_eq_some_iff.mp h
    refine absurd ?_ hmatch
    rw [hpath.matchers, List.any_eq_true]
    exact ⟨found, List.mem_filterMap.mpr ⟨line, hline, hfound⟩, hmatches.mpr hPhost⟩

theorem applies_of_unsupported (hpath : Draws matcher target lines path)
    (hunsupported : path.hasUnsupportedMatcher = true) {I : Interpretation}
    (hI : ∀ line, I line host) : Applies I host lines := by
  rw [hpath.unsupported] at hunsupported
  obtain ⟨line, hline, hnone⟩ := List.any_eq_true.mp hunsupported
  have h := domainMatcher_matches hvalid line
  rw [Option.isNone_iff_eq_none.mp hnone, Option.map_none, eq_comm, Option.map_eq_none_iff] at h
  exact ⟨line, hline, .unknown h (hI line)⟩

end Path

/-- What an inspection says, of the first match under each interpretation. -/
inductive Verdict (first : Interpretation → Option TopologyPath) : Option RouteInspection → Prop
  | default : (∀ I, first I = none) → Verdict first none
  | matched (inspection : RouteInspection) (path : TopologyPath) :
      inspection.outcome = .matched → inspection.path = some path →
      (∀ I, first I = some path) → Verdict first (some inspection)
  | uncertain (inspection : RouteInspection) (I J : Interpretation) :
      inspection.outcome = .uncertain → first I ≠ first J → Verdict first (some inspection)

theorem Verdict.exact {first : Interpretation → Option TopologyPath}
    {found : Option RouteInspection} (h : Verdict first found) {unmatched : RouteInspection}
    (hunmatched : unmatched.outcome = .default) :
    (∀ path, (found.getD unmatched).outcome = .matched ∧
        (found.getD unmatched).path = some path ↔ ∀ I, first I = some path) ∧
      ((found.getD unmatched).outcome = .default ↔ ∀ I, first I = none) ∧
      ((found.getD unmatched).outcome = .uncertain ↔ ∃ I J, first I ≠ first J) := by
  have hsome : Interpretation := fun _ _ ↦ True
  cases h with
  | default hnone => simp [hunmatched, hnone]
  | matched inspection path houtcome hpath hfirst => simp [houtcome, hpath, hfirst]
  | uncertain inspection I J houtcome hne =>
    have hconstant : ∀ value, ¬∀ K, first K = value :=
      fun value h ↦ hne ((h I).trans (h J).symm)
    simp only [Option.getD_some, houtcome, hconstant, reduceCtorEq, false_and, implies_true,
      iff_self, true_and, true_iff]
    exact ⟨I, J, hne⟩

theorem firstMatch_mem {I : Interpretation} {host : String} {path : TopologyPath}
    {routes : List (TopologyPath × List String)} (h : firstMatch I host routes = some path) :
    path ∈ routes.map Prod.fst := by
  induction routes with
  | nil => cases h
  | cons route rest ih =>
    rw [firstMatch] at h
    split_ifs at h
    · cases h
      exact List.mem_cons_self
    · exact List.mem_cons_of_mem _ (ih h)

def Drawn (route : TopologyPath × List String) : Prop :=
  ∃ matcher target, Draws matcher target route.2 route.1

theorem inspectPaths_verdict {host : String} (hvalid : validDomain host = true)
    {routes : List (TopologyPath × List String)} (hdrawn : ∀ route ∈ routes, Drawn route)
    (hdistinct : (routes.map Prod.fst).Nodup) :
    Verdict (fun I ↦ firstMatch I host routes)
      (RoutingTopology.inspectPaths host (routes.map Prod.fst)) := by
  induction routes with
  | nil => exact .default fun _ ↦ rfl
  | cons route rest ih =>
    obtain ⟨path, lines⟩ := route
    obtain ⟨⟨matcher, target, hpath⟩, hrest⟩ := List.forall_mem_cons.mp hdrawn
    obtain ⟨hnew, hdistinct⟩ := List.nodup_cons.mp hdistinct
    rw [List.map_cons, RoutingTopology.inspectPaths]
    by_cases hmatch : path.matchers.any (·.matches host) = true
    · rw [if_pos hmatch]
      exact .matched _ path rfl rfl fun I ↦ if_pos (applies_of_match hvalid hpath hmatch I)
    have hnone : ∀ I : Interpretation, (∀ line, ¬I line host) → ¬Applies I host lines := by
      rintro I hI ⟨line, hline, hholds⟩
      exact hI line (holds_of_no_match hvalid hpath hmatch hline hholds).2
    rw [if_neg hmatch]
    by_cases hunsupported : path.hasUnsupportedMatcher = true
    · -- the two extreme meanings of the unknown lines
      rw [if_pos hunsupported]
      refine .uncertain _ (fun _ _ ↦ True) (fun _ _ ↦ False) rfl fun heq ↦ hnew ?_
      have hpos : firstMatch (fun _ _ ↦ True) host ((path, lines) :: rest) = some path :=
        if_pos (applies_of_unsupported hvalid hpath hunsupported fun _ ↦ trivial)
      have hneg : firstMatch (fun _ _ ↦ False) host ((path, lines) :: rest) =
          firstMatch (fun _ _ ↦ False) host rest := if_neg (hnone _ fun _ ↦ id)
      exact firstMatch_mem (hneg.symm.trans (heq.symm.trans hpos))
    · rw [if_neg hunsupported]
      have hskip : (fun I ↦ firstMatch I host ((path, lines) :: rest)) =
          fun I ↦ firstMatch I host rest := by
        funext I
        refine if_neg ?_
        rintro ⟨line, hline, hholds⟩
        refine hunsupported ?_
        rw [hpath.unsupported]
        exact List.any_eq_true.mpr ⟨line, hline, by
          rw [(holds_of_no_match hvalid hpath hmatch hline hholds).1]; rfl⟩
      rw [hskip]
      exact ih hrest hdistinct

section Topology

variable (policy : ClientPolicy) (profiles : List ProtocolProfile)
variable (entries : OrderedMap String (List RuleEntry))
variable (sources : OrderedMap String (List RuleSetSource))
variable (availability : TopologyAvailability) (ruleSets : List RoutingRuleSet)

def RoutingTopology.Numbered (topology : RoutingTopology) : Prop :=
  topology.paths.map (·.order) = List.range' 1 topology.paths.length

theorem RoutingTopology.Numbered.append {topology topology' : RoutingTopology}
    (h : topology.Numbered) {path : TopologyPath} (horder : path.order = topology.paths.length + 1)
    (hpaths : topology'.paths = topology.paths ++ [path]) : topology'.Numbered := by
  rw [Numbered, hpaths, List.map_append, h, List.map_singleton, horder, List.length_append,
    List.length_singleton, List.range'_1_concat, Nat.add_comm 1]

theorem foldl_numbered {α : Type} {step : RoutingTopology → α → RoutingTopology}
    (hstep : ∀ topology a, topology.Numbered → (step topology a).Numbered) (items : List α)
    {topology : RoutingTopology} (h : topology.Numbered) :
    (items.foldl step topology).Numbered := by
  induction items generalizing topology with
  | nil => exact h
  | cons item rest ih => exact ih (hstep topology item h)

theorem build_numbered :
    (RoutingTopology.build policy profiles entries sources availability ruleSets).Numbered := by
  have hproviders : ((ruleSets.filter (·.enabled)).foldl
      (RoutingTopology.addProvider policy profiles entries sources availability)
      (RoutingTopology.addPools policy profiles)).Numbered :=
    foldl_numbered (fun _ _ h ↦ h.append rfl rfl) _ rfl
  have hrules := foldl_numbered (fun _ _ h ↦ h.append rfl rfl : ∀ topology rule,
    topology.Numbered →
      (RoutingTopology.addRule policy profiles availability topology rule).Numbered)
    (RoutingTopology.inlineRules policy) hproviders
  simp only [RoutingTopology.build, RoutingTopology.addFallback]
  split_ifs
  · exact hrules
  · exact hrules.append rfl rfl

theorem build_distinct :
    (RoutingTopology.build policy profiles entries sources availability ruleSets).paths.Nodup := by
  refine List.Nodup.of_map (·.order) ?_
  rw [build_numbered policy profiles entries sources availability ruleSets]
  exact List.nodup_range'

def routeLines : List (List String) :=
  (ruleSets.filter (·.enabled)).map (RoutingTopology.providerLines entries sources) ++
    (RoutingTopology.inlineRules policy).map fun rule ↦ [rule.condition]

/-- The paths with their rule lines; the fallback has none. -/
def routes : List (TopologyPath × List String) :=
  (RoutingTopology.build policy profiles entries sources availability ruleSets).paths.zip
    (routeLines policy entries sources ruleSets)

theorem routes_drawn : ∃ paths fallback,
    (RoutingTopology.build policy profiles entries sources availability ruleSets).paths =
        paths ++ fallback ∧
      (routes policy profiles entries sources availability ruleSets).map Prod.fst = paths ∧
      (∀ route ∈ routes policy profiles entries sources availability ruleSets, Drawn route) ∧
      (fallback = [] ∨ ∃ order, fallback = [RoutingTopology.fallbackPath order]) := by
  obtain ⟨providers, rules, fallback, hpaths, hproviders, hrules, hfallback⟩ :=
    build_paths policy profiles entries sources availability ruleSets
  have hdrawn : List.Forall₂ (fun path lines ↦ Drawn (path, lines)) (providers ++ rules)
      (routeLines policy entries sources ruleSets) := by
    refine List.rel_append ?_ ?_
    · exact List.forall₂_map_right_iff.mpr (hproviders.flip.imp fun _ _ h ↦ ⟨_, _, h⟩)
    · exact List.forall₂_map_right_iff.mpr (hrules.flip.imp fun _ _ h ↦ ⟨_, _, h⟩)
  have hroutes : routes policy profiles entries sources availability ruleSets =
      (providers ++ rules).zip (routeLines policy entries sources ruleSets) := by
    rw [routes, hpaths, ← List.append_nil (routeLines policy entries sources ruleSets),
      List.zip_append hdrawn.length_eq, List.zip_nil_right, List.append_nil, List.append_nil]
  refine ⟨providers ++ rules, fallback, hpaths, ?_, ?_, hfallback⟩
  · rw [hroutes, List.map_fst_zip (Nat.le_of_eq hdrawn.length_eq)]
  · rw [hroutes]
    rintro ⟨path, lines⟩ hroute
    exact List.forall₂_zip hdrawn hroute

theorem inspectPaths_fallback (host : String) (paths : List TopologyPath)
    {fallback : List TopologyPath}
    (h : fallback = [] ∨ ∃ order, fallback = [RoutingTopology.fallbackPath order]) :
    RoutingTopology.inspectPaths host (paths ++ fallback) =
      RoutingTopology.inspectPaths host paths := by
  induction paths with
  | nil =>
    rcases h with rfl | ⟨order, rfl⟩
    · rfl
    · rfl
  | cons path rest ih => rw [List.cons_append, RoutingTopology.inspectPaths, ih]; rfl

theorem build_verdict {host : String} (hvalid : validDomain host = true) :
    Verdict (fun I ↦
        firstMatch I host (routes policy profiles entries sources availability ruleSets))
      (RoutingTopology.inspectPaths host
        (RoutingTopology.build policy profiles entries sources availability ruleSets).paths) := by
  obtain ⟨paths, fallback, hpaths, hfst, hdrawn, hfallback⟩ :=
    routes_drawn policy profiles entries sources availability ruleSets
  have hdistinct := build_distinct policy profiles entries sources availability ruleSets
  rw [hpaths] at hdistinct ⊢
  rw [inspectPaths_fallback host paths hfallback, ← hfst]
  exact inspectPaths_verdict hvalid hdrawn (hfst ▸ hdistinct.of_append_left)

/-- Inspection is sound and exact: it names a path when that path is the first match under
every interpretation, and it is uncertain when two interpretations differ. -/
theorem inspectDomain_exact (rawDomain : String)
    (hvalid : validDomain (normalizeDomain rawDomain) = true) :
    let topology :=
      RoutingTopology.build policy profiles entries sources availability ruleSets
    let inspection := topology.inspectDomain rawDomain
    let first := fun I ↦ firstMatch I (normalizeDomain rawDomain)
      (routes policy profiles entries sources availability ruleSets)
    (∀ path, inspection.outcome = .matched ∧ inspection.path = some path ↔
        ∀ I, first I = some path) ∧
      (inspection.outcome = .default ↔ ∀ I, first I = none) ∧
      (inspection.outcome = .uncertain ↔ ∃ I J, first I ≠ first J) := by
  intro topology inspection first
  have hverdict := build_verdict policy profiles entries sources availability ruleSets hvalid
  have hinspection : inspection = (RoutingTopology.inspectPaths (normalizeDomain rawDomain)
      topology.paths).getD ⟨normalizeDomain rawDomain, .default,
        topology.paths.find? (·.targetKind = .fallback),
        "No configured domain rule definitely matches; no explicit catch-all is available"⟩ := by
    simp only [inspection, RoutingTopology.inspectDomain, hvalid, Bool.not_true]
    rfl
  rw [hinspection]
  exact hverdict.exact rfl

end Topology

theorem inspectDomain_exact_mail :
    validDomain (normalizeDomain "Mail.Example.") = true ∧
      let inspection := (RoutingTopology.build testInput.policy testInput.profiles .empty .empty
        ⟨∅, .empty⟩ testInput.routingRuleSets).inspectDomain "Mail.Example."
      inspection.outcome = .uncertain ∧
        ∃ I J, firstMatch I (normalizeDomain "Mail.Example.") (routes testInput.policy
            testInput.profiles .empty .empty ⟨∅, .empty⟩ testInput.routingRuleSets) ≠
          firstMatch J (normalizeDomain "Mail.Example.") (routes testInput.policy
            testInput.profiles .empty .empty ⟨∅, .empty⟩ testInput.routingRuleSets) := by
  have hvalid : validDomain (normalizeDomain "Mail.Example.") = true := by decide
  have houtcome : ((RoutingTopology.build testInput.policy testInput.profiles .empty .empty
      ⟨∅, .empty⟩ testInput.routingRuleSets).inspectDomain "Mail.Example.").outcome =
        .uncertain := by
    decide
  obtain ⟨-, -, huncertain⟩ := inspectDomain_exact testInput.policy testInput.profiles .empty
    .empty ⟨∅, .empty⟩ testInput.routingRuleSets "Mail.Example." hvalid
  exact ⟨hvalid, houtcome, huncertain.mp houtcome⟩

end StealthHub.Routing

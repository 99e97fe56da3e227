import StealthHub.Data.Sorting
import StealthHub.Routing.Compiled
import StealthHub.Storage.RuleSets

set_option autoImplicit false

namespace StealthHub.Storage

open Routing Text

/-- What makes two entries duplicates. -/
def valueKey (kind : RuleKind) (value : String) : String :=
  toAsciiLowercase (kind.mihomoName ++ ":" ++ value)

def entryKey (entry : RuleEntry) : String := valueKey entry.kind (trim entry.value)

def repeated {α κ : Type} [DecidableEq κ] (key : α → κ) : List κ → List α → List α
  | _, [] => []
  | seen, item :: rest =>
    if key item ∈ seen then item :: repeated key seen rest
    else repeated key (key item :: seen) rest

def findRuleSet (db : Database) (slug : String) : Except String RoutingRuleSet :=
  (db.ruleSets.find? (·.slug = slug)).elim (.error "unknown rule set") .ok

def compileWith (db : Database) (ruleSet : RoutingRuleSet) (entries : List RuleEntry) :
    Except String String :=
  compileRuleSetPayload entries ruleSet.payload (loadRuleSources db ruleSet.slug)

/-- What the stored rule set compiles to. -/
def compiledRuleSetPayload (db : Database) (ruleSet : RoutingRuleSet) : Except String String :=
  compileWith db ruleSet (loadRuleEntries db ruleSet.slug)

def checkEntries (db : Database) (ruleSet : RoutingRuleSet) (entries : List RuleEntry) :
    Except String Unit :=
  if ruleSet.enabled then (compileWith db ruleSet entries).map fun _ ↦ () else .ok ()

/-- Also counts the entries it deleted. -/
def deduplicateRuleEntries (ruleSetId : String) (db : Database) :
    Except String (ℕ × Database) := do
  let entries := loadRuleEntries db ruleSetId
  let duplicates := (repeated entryKey [] entries).map (·.id)
  let ruleSet ← findRuleSet db ruleSetId
  checkEntries db ruleSet (entries.filter fun entry ↦ entry.id ∉ duplicates)
  return (duplicates.length,
    { db with entries := db.entries.delete fun entry ↦ entry.id ∈ duplicates })

section lowercase

variable {s t : String} {entry other : RuleEntry} {rule : String} {kind : RuleKind}

theorem toList_lowercase : (toAsciiLowercase s).toList = s.toList.map lowerChar :=
  String.toList_ofList

theorem lowercase_append : toAsciiLowercase (s ++ t) = toAsciiLowercase s ++ toAsciiLowercase t := by
  rw [← String.toList_inj, toList_lowercase, String.toList_append, String.toList_append,
    List.map_append, toList_lowercase, toList_lowercase]

theorem isWhitespace_lowerChar (c : Char) : isWhitespace (lowerChar c) = isWhitespace c := by
  have hletter : ∀ n < 128, isAsciiUppercase (Char.ofNat n) = true →
      isWhitespace (lowerChar (Char.ofNat n)) = isWhitespace (Char.ofNat n) := by decide
  rcases lowerChar_cases c with h | ⟨hupper, -, hlt, -⟩
  · rw [h]
  · have h := hletter c.toNat hlt
    rw [Char.ofNat_toNat] at h
    exact h hupper

theorem trim_toAsciiLowercase : trim (toAsciiLowercase s) = toAsciiLowercase (trim s) := by
  have hspace : isWhitespace ∘ lowerChar = isWhitespace := funext isWhitespace_lowerChar
  rw [← String.toList_inj, toList_lowercase, trim, trim, String.toList_ofList,
    String.toList_ofList, toList_lowercase, trimList, trimList, List.dropWhile_map, hspace,
    ← List.map_reverse, List.dropWhile_map, hspace, List.map_reverse]

theorem isEmpty_toAsciiLowercase : isEmpty (toAsciiLowercase s) = isEmpty s := by
  rw [isEmpty, isEmpty, toList_lowercase, List.isEmpty_map]

theorem comment_toAsciiLowercase : startsWith (toAsciiLowercase s) "#" = startsWith s "#" := by
  rw [startsWith, startsWith, toList_lowercase]
  cases s.toList with
  | nil => rfl
  | cons c l =>
    have hc : lowerChar c = '#' ↔ c = '#' := lowerChar_eq_iff (by decide) (by decide)
    show (('#' == lowerChar c) && true) = (('#' == c) && true)
    rw [Bool.and_true, Bool.and_true, Bool.eq_iff_iff, beq_iff_eq, beq_iff_eq, eq_comm, hc, eq_comm]

theorem linesFrom_map {f : Char → Char} (hn : ∀ c, f c = '\n' ↔ c = '\n')
    (hr : ∀ c, f c = '\r' ↔ c = '\r') (acc l : List Char) :
    linesFrom (acc.map f) (l.map f) = (linesFrom acc l).map (List.map f) := by
  have hstrip (line : List Char) :
      stripCarriageReturn (line.map f) = (stripCarriageReturn line).map f := by
    cases line with
    | nil => rfl
    | cons c line =>
      by_cases hc : c = '\r'
      · rw [List.map_cons, (hr c).mpr hc, hc]
        rfl
      · have hc' : f c ≠ '\r' := fun h ↦ hc ((hr c).mp h)
        unfold stripCarriageReturn
        simp [hc, hc']
  induction l generalizing acc with
  | nil =>
    rw [List.map_nil, linesFrom, linesFrom, List.isEmpty_map]
    split
    · rfl
    · rw [List.map_singleton, List.map_reverse]
  | cons c l ih =>
    rw [List.map_cons, linesFrom, linesFrom]
    by_cases hc : c = '\n'
    · rw [if_pos hc, if_pos ((hn c).mpr hc), hstrip, ← List.map_reverse, List.map_cons, ← ih []]
      rfl
    · rw [if_neg hc, if_neg fun h ↦ hc ((hn c).mp h), ← ih (c :: acc)]
      rfl

theorem lines_toAsciiLowercase :
    lines (toAsciiLowercase s) = (lines s).map toAsciiLowercase := by
  have hlines := linesFrom_map (f := lowerChar) (fun c ↦ lowerChar_eq_iff (by decide) (by decide))
    (fun c ↦ lowerChar_eq_iff (by decide) (by decide)) [] s.toList
  rw [lines, toList_lowercase, ← List.map_nil (f := lowerChar), hlines, lines, List.map_map,
    List.map_map]
  refine List.map_congr_left fun line _ ↦ ?_
  rw [Function.comp, Function.comp, toAsciiLowercase, String.toList_ofList]

theorem ruleLines_toAsciiLowercase :
    ruleLines (toAsciiLowercase s) = (ruleLines s).map toAsciiLowercase := by
  have htrim : trim ∘ toAsciiLowercase = toAsciiLowercase ∘ trim :=
    funext fun _ ↦ trim_toAsciiLowercase
  rw [ruleLines, lines_toAsciiLowercase, List.map_map, htrim, ← List.map_map, List.filter_map,
    ruleLines]
  refine congrArg (List.map toAsciiLowercase) (List.filter_congr fun line _ ↦ ?_)
  rw [Function.comp, isEmpty_toAsciiLowercase, comment_toAsciiLowercase]

theorem compiled_first (h : entry.compiled = .ok rule) :
    (ruleLines (entryRule entry)).head? = some rule := by
  have hfirst {text message : String} (h : (do
      let validated ← validateClassicalRulePayload text
      RuleEntry.firstRule message validated) = Except.ok rule) :
      (ruleLines text).head? = some rule := by
    obtain ⟨validated, hvalidated, h⟩ := Except.bind_eq_ok.mp h
    rw [← (validatePayload_iff.mp hvalidated).2.2]
    exact Except.elim_eq_ok.mp h
  rw [RuleEntry.compiled] at h
  rw [entryRule]
  split at h
  next hkind =>
    rw [if_pos hkind]
    exact hfirst h
  next hkind =>
    rw [if_neg hkind]
    exact hfirst h

theorem mihomoName_plain : ':' ∉ (toAsciiLowercase kind.mihomoName).toList := by
  cases kind <;> decide

theorem mihomoName_inj {kind other : RuleKind}
    (h : toAsciiLowercase kind.mihomoName = toAsciiLowercase other.mihomoName) : kind = other := by
  let kinds : List RuleKind := [.domain, .domainSuffix, .domainKeyword, .ipCidr, .ipCidr6, .geoip,
    .geosite, .asn, .processName, .dstPort, .srcPort, .network, .classical]
  have hfind (kind : RuleKind) : kinds.find? (fun found ↦
      toAsciiLowercase found.mihomoName = toAsciiLowercase kind.mihomoName) = some kind := by
    cases kind <;> decide
  have hsame := hfind other
  rw [← h, hfind kind] at hsame
  exact Option.some.inj hsame

theorem valueKey_eq {kind other : RuleKind} :
    valueKey kind s = valueKey other t ↔
      kind = other ∧ toAsciiLowercase s = toAsciiLowercase t := by
  refine ⟨fun h ↦ ?_, fun ⟨hkind, hvalue⟩ ↦ ?_⟩
  · have hcolon : (toAsciiLowercase ":").toList = [':'] := by decide
    have hparts (kind : RuleKind) (s : String) : (valueKey kind s).toList =
        (toAsciiLowercase kind.mihomoName).toList ++ ':' :: (toAsciiLowercase s).toList := by
      rw [valueKey, lowercase_append, lowercase_append, String.toList_append, String.toList_append,
        hcolon, List.append_assoc]
      rfl
    have hlist := congrArg String.toList h
    have hname (kind : RuleKind) (s : String) : (valueKey kind s).toList.takeWhile (· ≠ ':') =
        (toAsciiLowercase kind.mihomoName).toList := by
      have hplain : ∀ c ∈ (toAsciiLowercase kind.mihomoName).toList, (c ≠ ':' : Bool) = true :=
        fun c hc ↦ by simpa using ne_of_mem_of_not_mem hc mihomoName_plain
      rw [hparts, List.takeWhile_append_of_pos hplain]
      simp
    have hkind : kind = other := by
      apply mihomoName_inj
      rw [← String.toList_inj, ← hname kind s, ← hname other t, h]
    rw [hparts, hparts, hkind] at hlist
    exact ⟨hkind, String.toList_inj.mp (List.cons_inj_right _ |>.mp (List.append_cancel_left hlist))⟩
  · rw [valueKey, valueKey, hkind, lowercase_append, hvalue, ← lowercase_append]

theorem entryRule_of_key (h : entryKey entry = entryKey other) :
    toAsciiLowercase (entryRule entry) = toAsciiLowercase (entryRule other) := by
  obtain ⟨hkind, hvalue⟩ := valueKey_eq.mp h
  rw [entryRule, entryRule, hkind]
  split
  · exact hvalue
  · rw [lowercase_append, hvalue, ← lowercase_append]

theorem compiled_of_key {rule' : String} (hkey : entryKey entry = entryKey other)
    (h : entry.compiled = .ok rule) (h' : other.compiled = .ok rule') :
    toAsciiLowercase rule = toAsciiLowercase rule' := by
  have hhead {entry : RuleEntry} {rule : String} (h : entry.compiled = .ok rule) :
      (ruleLines (toAsciiLowercase (entryRule entry))).head? = some (toAsciiLowercase rule) := by
    rw [ruleLines_toAsciiLowercase, List.head?_map, compiled_first h]
    rfl
  have hsame := hhead h
  rw [entryRule_of_key hkey, hhead h'] at hsame
  exact (Option.some.inj hsame).symm

end lowercase

section load

variable {db db' : Database} {ruleSetId slug : String} {ruleSet : RoutingRuleSet}

instance : IsTrans RuleEntry entryListedBefore where
  trans a b c hab hbc := by
    rcases hab with hab | ⟨hab, hid⟩
    · rcases hbc with hbc | ⟨hbc, -⟩
      · exact .inl (hab.trans hbc)
      · exact .inl (hbc ▸ hab)
    · rcases hbc with hbc | ⟨hbc, hid'⟩
      · exact .inl (hab ▸ hbc)
      · exact .inr ⟨hab.trans hbc, hid.trans hid'⟩

instance : Std.Total entryListedBefore where
  total a b := by
    rcases lt_trichotomy a.priority b.priority with hlt | heq | hlt
    · exact .inl (.inl hlt)
    · exact (le_total a.id b.id).imp (fun hid ↦ .inr ⟨heq, hid⟩) fun hid ↦ .inr ⟨heq.symm, hid⟩
    · exact .inr (.inl hlt)

theorem findRuleSet_ok (h : findRuleSet db slug = .ok ruleSet) :
    db.ruleSets.find? (·.slug = slug) = some ruleSet ∧ ruleSet.slug = slug := by
  have hfind := Except.elim_eq_ok.mp h
  exact ⟨hfind, by simpa using (Table.find?_some hfind).2⟩

theorem mem_loadRuleEntries {entry : RuleEntry} :
    entry ∈ loadRuleEntries db ruleSetId ↔
      entry ∈ db.entries.rows ∧ entry.ruleSetId = ruleSetId := by
  rw [loadRuleEntries, List.mem_insertionSort, List.mem_filter, decide_eq_true_iff]

theorem loadRuleEntries_ids : ((loadRuleEntries db ruleSetId).map (·.id)).Nodup := by
  have hrows : ((db.entries.rows.filter (·.ruleSetId = ruleSetId)).map (·.id)).Nodup :=
    List.pairwise_map.mpr (db.entries.distinct.filter _)
  exact ((List.perm_insertionSort entryListedBefore _).map _).nodup_iff.mpr hrows

theorem loadRuleEntries_delete {p : RuleEntry → Bool} :
    loadRuleEntries { db with entries := db.entries.delete p } ruleSetId =
      (loadRuleEntries db ruleSetId).filter fun entry ↦ !p entry := by
  rw [loadRuleEntries, loadRuleEntries, List.filter_insertionSort, List.filter_filter, Table.delete,
    List.filter_filter]
  refine congrArg _ (List.filter_congr fun entry _ ↦ ?_)
  exact Bool.and_comm _ _

end load

section deduplicate

variable {α κ : Type} [DecidableEq κ] {key : α → κ} {seen : List κ} {items : List α}
variable {db db' : Database} {ruleSetId payload localPayload : String} {ruleSet : RoutingRuleSet}
variable {entries : List RuleEntry} {sources : List RuleSetSource} {n : ℕ}

theorem mem_of_mem_repeated {item : α} (h : item ∈ repeated key seen items) : item ∈ items := by
  induction items generalizing seen with
  | nil => cases h
  | cons first rest ih =>
    rw [repeated] at h
    split at h
    · exact (List.mem_cons.mp h).elim (fun h ↦ h ▸ List.mem_cons_self)
        fun h ↦ List.mem_cons_of_mem _ (ih h)
    · exact List.mem_cons_of_mem _ (ih h)

theorem filter_repeated {name : α → String} (h : (items.map name).Nodup) :
    (items.filter fun item ↦ name item ∉ (repeated key seen items).map name) =
      retainFirst key seen items := by
  induction items generalizing seen with
  | nil => rfl
  | cons first rest ih =>
    rw [List.map_cons, List.nodup_cons] at h
    obtain ⟨hfirst, hrest⟩ := h
    rw [repeated, retainFirst]
    split
    · have hdropped : ¬decide (name first ∉ (first :: repeated key seen rest).map name) = true := by
        simp
      rw [List.filter_cons, if_neg hdropped, ← ih hrest]
      refine List.filter_congr fun item hitem ↦ ?_
      have hne : name item ≠ name first := by
        intro hname
        exact hfirst (hname ▸ List.mem_map_of_mem hitem)
      simp [hne]
    · have hkept : decide (name first ∉
          (repeated key (key first :: seen) rest).map name) = true := by
        rw [decide_eq_true_iff]
        intro hmem
        obtain ⟨item, hitem, hname⟩ := List.mem_map.mp hmem
        exact hfirst (hname ▸ List.mem_map_of_mem (mem_of_mem_repeated hitem))
      rw [List.filter_cons, if_pos hkept, ih hrest]

theorem deduplicate_of (hruleSet : findRuleSet db ruleSetId = .ok ruleSet)
    (hcheck : checkEntries db ruleSet
      (retainFirst entryKey [] (loadRuleEntries db ruleSetId)) = .ok ()) :
    deduplicateRuleEntries ruleSetId db =
      .ok ((repeated entryKey [] (loadRuleEntries db ruleSetId)).length,
        { db with
          entries := db.entries.delete fun entry ↦
            entry.id ∈ (repeated entryKey [] (loadRuleEntries db ruleSetId)).map (·.id) }) := by
  rw [← filter_repeated loadRuleEntries_ids] at hcheck
  refine Except.bind_eq_ok.mpr ⟨_, hruleSet, Except.bind_eq_ok.mpr ⟨(), hcheck, ?_⟩⟩
  rw [List.length_map]
  rfl

theorem deduplicate_ok (h : deduplicateRuleEntries ruleSetId db = .ok (n, db')) :
    loadRuleEntries db' ruleSetId = firstOccurrences entryKey (loadRuleEntries db ruleSetId) ∧
      db'.sources = db.sources := by
  obtain ⟨ruleSet, -, h⟩ := Except.bind_eq_ok.mp h
  obtain ⟨⟨⟩, -, h⟩ := Except.bind_eq_ok.mp h
  cases Except.pure_eq_ok.mp h
  refine ⟨?_, rfl⟩
  rw [loadRuleEntries_delete, ← retainFirst_eq, ← filter_repeated loadRuleEntries_ids]
  refine List.filter_congr fun entry _ ↦ ?_
  exact decide_not.symm

/-- Each enabled entry whose first copy is disabled has its rule in a layer that stays. -/
def CopiesKept (entries : List RuleEntry) (localPayload : String)
    (sources : List RuleSetSource) : Prop :=
  ∀ entry ∈ entries, entry.enabled = true →
    ∀ first ∈ firstOccurrences entryKey entries, entryKey first = entryKey entry →
      first.enabled = false →
        ∃ rule other, entry.compiled = .ok rule ∧
          Layered (firstOccurrences entryKey entries) localPayload sources other ∧
          toAsciiLowercase other = toAsciiLowercase rule

theorem layered_firstOccurrences (hcompiles : Compilable entries localPayload sources) :
    CopiesKept entries localPayload sources ↔
      ∀ rule, Layered entries localPayload sources rule →
        ∃ other, Layered (firstOccurrences entryKey entries) localPayload sources other ∧
          toAsciiLowercase other = toAsciiLowercase rule := by
  constructor
  · intro hkept rule hrule
    cases hrule with
    | other mem => exact ⟨rule, .other mem, rfl⟩
    | entry entry mem enabled compiled =>
      have hcopy : ∃ first ∈ firstOccurrences entryKey entries, entryKey first = entryKey entry :=
        exists_firstOccurrence mem
      obtain ⟨first, hfirst, hkey⟩ := hcopy
      cases henabled : first.enabled with
      | false =>
        obtain ⟨same, other, hsame, hother, heq⟩ := hkept entry mem enabled first hfirst hkey henabled
        cases compiled.symm.trans hsame
        exact ⟨other, hother, heq⟩
      | true =>
        obtain ⟨other, hother⟩ := hcompiles.entries_ok first (firstOccurrences_subset hfirst) henabled
        exact ⟨other, .entry first hfirst henabled hother, compiled_of_key hkey hother compiled⟩
  · intro hall entry hentry henabled first _ _ _
    obtain ⟨rule, hrule⟩ := hcompiles.entries_ok entry hentry henabled
    obtain ⟨other, hother, heq⟩ := hall rule (.entry entry hentry henabled hrule)
    exact ⟨rule, other, hrule, hother, heq⟩

/-- A rule set compiles to the same rules without its duplicates exactly if no enabled entry is
lost to a disabled copy before it. -/
theorem deduplicated_rules (h : deduplicateRuleEntries ruleSetId db = .ok (n, db'))
    (hruleSet : findRuleSet db ruleSetId = .ok ruleSet)
    (hbefore : compiledRuleSetPayload db ruleSet = .ok payload) :
    (∃ after, compiledRuleSetPayload db' ruleSet = .ok after ∧
        ∀ rule, HasRule after rule ↔ HasRule payload rule) ↔
      CopiesKept (loadRuleEntries db ruleSetId) ruleSet.payload
        (loadRuleSources db ruleSetId) := by
  obtain ⟨-, rfl⟩ := findRuleSet_ok hruleSet
  obtain ⟨hload, hsources⟩ := deduplicate_ok h
  have hcompiles := compile_ok_iff.mp ⟨_, hbefore⟩
  have hafter : compiledRuleSetPayload db' ruleSet =
      compileRuleSetPayload (firstOccurrences entryKey (loadRuleEntries db ruleSet.slug))
        ruleSet.payload (loadRuleSources db ruleSet.slug) := by
    rw [compiledRuleSetPayload, compileWith, hload, loadRuleSources, hsources]
    rfl
  rw [hafter, layered_firstOccurrences hcompiles]
  constructor
  · rintro ⟨after, hcompiled, hsame⟩ rule hrule
    exact (hasRule_compiled hcompiled).mp
      ((hsame rule).mpr ((hasRule_compiled hbefore).mpr ⟨rule, hrule, rfl⟩))
  · intro hall
    have hsubset : firstOccurrences entryKey (loadRuleEntries db ruleSet.slug) ⊆
        loadRuleEntries db ruleSet.slug := firstOccurrences_subset
    obtain ⟨rule, hrule⟩ := exists_layered hbefore
    obtain ⟨kept, hkept, -⟩ := hall rule hrule
    obtain ⟨after, hcompiled⟩ := compile_ok_iff.mpr
      ⟨fun entry hentry ↦ hcompiles.entries_ok entry (hsubset hentry), hcompiles.payload_ok,
        hcompiles.sources_ok, hkept.some_layer⟩
    refine ⟨after, hcompiled, fun rule ↦ ?_⟩
    rw [hasRule_compiled hcompiled, hasRule_compiled hbefore]
    constructor
    · rintro ⟨other, hother, hsame⟩
      exact ⟨other, hother.mono hsubset, hsame⟩
    · rintro ⟨other, hother, hsame⟩
      obtain ⟨kept, hkept, hother⟩ := hall other hother
      exact ⟨kept, hkept, hother.trans hsame⟩

def copiedEntries (first second : Bool) : Database :=
  { initDb with
    ruleSets := ⟨[⟨"streaming", "Streaming", "", "DIRECT", true, "DOMAIN,local.test"⟩],
      List.pairwise_singleton _ _⟩
    entries := ⟨[⟨"a", "streaming", first, .domain, "example.com", none, none, 10⟩,
      ⟨"b", "streaming", second, .domain, "Example.com", none, none, 20⟩],
      List.pairwise_pair.mpr fun h ↦ absurd (show "a" = "b" from h) (by decide)⟩ }

theorem deduplicated_rules_enabled : ∃ n db', deduplicateRuleEntries "streaming"
      (copiedEntries true true) = .ok (n, db') ∧
    ∃ after, compiledRuleSetPayload db'
        ⟨"streaming", "Streaming", "", "DIRECT", true, "DOMAIN,local.test"⟩ = .ok after ∧
      ∀ rule, HasRule after rule ↔ HasRule "DOMAIN,example.com\nDOMAIN,local.test" rule := by
  have h := @deduplicate_of (copiedEntries true true) "streaming" _ rfl (by decide +kernel)
  refine ⟨_, _, h, (deduplicated_rules h rfl (by decide +kernel)).mpr ?_⟩
  intro entry _ _ first hfirst _ hdisabled
  have henabled : ∀ first ∈ firstOccurrences entryKey
      (loadRuleEntries (copiedEntries true true) "streaming"), first.enabled = true := by
    decide +kernel
  rw [henabled first hfirst] at hdisabled
  cases hdisabled

theorem deduplicated_rule_lost : ∃ n db', deduplicateRuleEntries "streaming"
      (copiedEntries false true) = .ok (n, db') ∧
    ∃ before after,
      compiledRuleSetPayload (copiedEntries false true)
        ⟨"streaming", "Streaming", "", "DIRECT", true, "DOMAIN,local.test"⟩ = .ok before ∧
      compiledRuleSetPayload db'
        ⟨"streaming", "Streaming", "", "DIRECT", true, "DOMAIN,local.test"⟩ = .ok after ∧
      HasRule before "DOMAIN,Example.com" ∧ ¬HasRule after "DOMAIN,Example.com" := by
  refine ⟨_, _, deduplicate_of rfl (by decide +kernel), "DOMAIN,Example.com\nDOMAIN,local.test",
    "DOMAIN,local.test", ?_, ?_, ?_, ?_⟩
  · decide
  · decide +kernel
  · decide
  · decide +kernel

end deduplicate

end StealthHub.Storage

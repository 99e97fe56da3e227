import StealthHub.Routing.Payloads

set_option autoImplicit false

namespace StealthHub.Routing

open Text

section unique

variable {α κ : Type} [DecidableEq κ] {key : α → κ} {seen : List κ} {items before : List α} {x : α}

/-- The items whose key is none of the keys before them. -/
def firstOccurrences (key : α → κ) (items : List α) : List α :=
  (items.zipIdx.filter fun (item, index) ↦ key item ∉ (items.take index).map key).map (·.1)

theorem retainFirst_from (hseen : ∀ k, k ∈ seen ↔ k ∈ before.map key) :
    ((items.zipIdx before.length).filter fun (item, index) ↦
      key item ∉ ((before ++ items).take index).map key).map (·.1) =
        retainFirst key seen items := by
  induction items generalizing before seen with
  | nil => rfl
  | cons item rest ih =>
    have hpre : ((before ++ item :: rest).take before.length).map key = before.map key := by
      rw [List.take_left]
    have happend : before ++ item :: rest = before ++ [item] ++ rest := by simp
    have hlength : before.length + 1 = (before ++ [item]).length := by simp
    rw [List.zipIdx_cons, List.filter_cons, retainFirst]
    simp only [hpre, ← hseen]
    by_cases hmem : key item ∈ seen
    · have hsame : ∀ k, k ∈ seen ↔ k ∈ (before ++ [item]).map key := by
        intro k
        rw [List.map_append, List.mem_append, ← hseen]
        refine ⟨.inl, fun h ↦ h.elim id fun hk ↦ ?_⟩
        rw [List.mem_singleton.mp hk]
        exact hmem
      rw [if_neg (by simpa using hmem), if_pos hmem, hlength, happend]
      exact ih hsame
    · have hmore : ∀ k, k ∈ key item :: seen ↔ k ∈ (before ++ [item]).map key := by
        intro k
        rw [List.map_append, List.mem_append, ← hseen, List.mem_cons, or_comm, List.map_singleton,
          List.mem_singleton]
      rw [if_pos (by simpa using hmem), if_neg hmem, List.map_cons, hlength, happend, ih hmore]

theorem retainFirst_eq : retainFirst key [] items = firstOccurrences key items := by
  have hfrom := @retainFirst_from α κ _ key [] items [] fun _ ↦ Iff.rfl
  exact hfrom.symm

theorem mem_of_mem_retainFirst (h : x ∈ retainFirst key seen items) : x ∈ items ∧ key x ∉ seen := by
  induction items generalizing seen with
  | nil => cases h
  | cons item rest ih =>
    rw [retainFirst] at h
    split at h
    · obtain ⟨hrest, hseen⟩ := ih h
      exact ⟨List.mem_cons_of_mem _ hrest, hseen⟩
    next hitem =>
      rcases List.mem_cons.mp h with rfl | h
      · exact ⟨List.mem_cons_self, hitem⟩
      · obtain ⟨hrest, hseen⟩ := ih h
        exact ⟨List.mem_cons_of_mem _ hrest, fun hk ↦ hseen (List.mem_cons_of_mem _ hk)⟩

theorem retainFirst_keys_nodup : ((retainFirst key seen items).map key).Nodup := by
  induction items generalizing seen with
  | nil => exact List.nodup_nil
  | cons item rest ih =>
    rw [retainFirst]
    split
    · exact ih
    · rw [List.map_cons, List.nodup_cons]
      refine ⟨fun hmem ↦ ?_, ih⟩
      obtain ⟨other, hother, hkey⟩ := List.mem_map.mp hmem
      refine (mem_of_mem_retainFirst hother).2 ?_
      rw [hkey]
      exact List.mem_cons_self

theorem mem_keys_retainFirst {k : κ} :
    k ∈ (retainFirst key seen items).map key ↔ k ∈ items.map key ∧ k ∉ seen := by
  induction items generalizing seen with
  | nil => simp [retainFirst]
  | cons item rest ih =>
    rw [retainFirst, List.map_cons, List.mem_cons]
    split
    next hitem =>
      rw [ih]
      refine and_congr_left fun hk ↦ ⟨.inr, fun h ↦ h.resolve_left ?_⟩
      rintro rfl
      exact hk hitem
    next hitem =>
      rw [List.map_cons, List.mem_cons, ih, List.mem_cons, not_or]
      constructor
      · rintro (rfl | ⟨hrest, -, hk⟩)
        · exact ⟨.inl rfl, hitem⟩
        · exact ⟨.inr hrest, hk⟩
      · rintro ⟨rfl | hrest, hk⟩
        · exact .inl rfl
        · by_cases hne : k = key item
          · exact .inl hne
          · exact .inr ⟨hrest, hne, hk⟩

theorem retainFirst_of_nodup (hnodup : (items.map key).Nodup)
    (hseen : ∀ item ∈ items, key item ∉ seen) : retainFirst key seen items = items := by
  induction items generalizing seen with
  | nil => rfl
  | cons item rest ih =>
    rw [List.map_cons, List.nodup_cons] at hnodup
    rw [List.forall_mem_cons] at hseen
    rw [retainFirst, if_neg hseen.1, ih hnodup.2]
    intro other hother hmem
    rcases List.mem_cons.mp hmem with hkey | hmem
    · exact hnodup.1 (hkey ▸ List.mem_map_of_mem hother)
    · exact hseen.2 other hother hmem

theorem firstOccurrences_subset : firstOccurrences key items ⊆ items := by
  rw [← retainFirst_eq]
  exact fun item hitem ↦ (mem_of_mem_retainFirst hitem).1

theorem exists_firstOccurrence {item : α} (h : item ∈ items) :
    ∃ first ∈ firstOccurrences key items, key first = key item := by
  have hkey : key item ∈ (retainFirst key [] items).map key :=
    mem_keys_retainFirst.mpr ⟨List.mem_map_of_mem h, List.not_mem_nil⟩
  rw [retainFirst_eq] at hkey
  exact List.mem_map.mp hkey

end unique

section layers

variable {entry : RuleEntry} {entries : List RuleEntry} {sources : List RuleSetSource}
variable {text payload localPayload compiled rule line : String} {rules : List String}

def entryRule (entry : RuleEntry) : String :=
  if entry.kind = .classical then trim entry.value
  else entry.kind.mihomoName ++ "," ++ trim entry.value

def otherRules (localPayload : String) (sources : List RuleSetSource) : List String :=
  ruleLines localPayload ++
    (sources.filter fun source ↦ source.enabled && !isEmpty (trim source.cachedPayload)).flatMap
      fun source ↦ ruleLines source.cachedPayload

/-- The rules of all layers: the enabled entries first. -/
def layeredRules (entries : List RuleEntry) (localPayload : String)
    (sources : List RuleSetSource) : List String :=
  (entries.filter (·.enabled)).map entryRule ++ otherRules localPayload sources

theorem lines_single (hn : '\n' ∉ text.toList) (hne : text ≠ "") : lines text = [text] := by
  have hne' : text.toList ≠ [] := fun h ↦ hne (String.toList_inj.mp h)
  rw [lines, linesFrom_last hn (by simpa using hne')]
  simp [String.ofList_toList]

theorem mem_linesFrom {acc l piece : List Char} {c : Char} (h : piece ∈ linesFrom acc l)
    (hc : c ∈ piece) : c ∈ acc ∨ c ∈ l := by
  have hstrip (line : List Char) (hc : c ∈ stripCarriageReturn line) : c ∈ line := by
    unfold stripCarriageReturn at hc
    split at hc
    · exact List.mem_cons_of_mem _ hc
    · exact hc
  induction l generalizing acc with
  | nil =>
    rw [linesFrom] at h
    split at h
    · cases h
    · obtain rfl := List.mem_singleton.mp h
      exact .inl (List.mem_reverse.mp hc)
  | cons d l ih =>
    rw [linesFrom] at h
    split at h
    · rcases List.mem_cons.mp h with rfl | h
      · exact .inl (hstrip _ (List.mem_reverse.mp hc))
      · refine .inr (List.mem_cons_of_mem _ ((ih h).resolve_left ?_))
        exact List.not_mem_nil
    · rcases ih h with hacc | hl
      · rcases List.mem_cons.mp hacc with rfl | hacc
        · exact .inr List.mem_cons_self
        · exact .inl hacc
      · exact .inr (List.mem_cons_of_mem _ hl)

theorem trim_blank (h : ∀ c ∈ text.toList, isWhitespace c = true) : trim text = "" := by
  rw [trim, trimList, List.dropWhile_eq_nil_iff.mpr h]
  rfl

theorem ruleLines_blank (h : isEmpty (trim payload) = true) : ruleLines payload = [] := by
  rw [Text.isEmpty_iff] at h
  have hblank : ∀ c ∈ payload.toList, isWhitespace c = true := by
    intro c hc
    by_contra hne
    have hmem := (mem_trim (Bool.eq_false_iff.mpr hne)).mpr hc
    rw [h] at hmem
    cases hmem
  refine List.eq_nil_iff_forall_not_mem.mpr fun line hline ↦ ?_
  obtain ⟨rawLine, hraw, hrule⟩ := mem_ruleLines.mp hline
  obtain ⟨piece, hpiece, rfl⟩ := List.mem_map.mp hraw
  have hempty : trim (String.ofList piece) = "" := by
    apply trim_blank
    intro c hc
    rw [String.toList_ofList] at hc
    exact hblank c ((mem_linesFrom hpiece hc).resolve_left List.not_mem_nil)
  rw [ruleOf, hempty] at hrule
  cases hrule

theorem optionalPayload_rules (h : optionalPayload payload = .ok rules) :
    rules = ruleLines payload := by
  unfold optionalPayload at h
  split at h
  next hblank => rw [ruleLines_blank hblank, Except.ok.inj h]
  next => exact (validatePayload_iff.mp h).2.2

theorem validate_single (hn : '\n' ∉ text.toList)
    (h : validateClassicalRulePayload text = .ok rules) : rules = [trim text] := by
  obtain ⟨hne, -, rfl⟩ := validatePayload_iff.mp h
  have htext : text ≠ "" := by
    rintro rfl
    exact hne rfl
  rw [ruleLines, lines_single hn htext, List.map_singleton, List.filter_singleton] at hne ⊢
  cases hline : !isEmpty (trim text) && !startsWith (trim text) "#" with
  | true => rfl
  | false =>
    rw [hline] at hne
    exact absurd rfl hne

theorem compiled_single {text message : String} (hn : '\n' ∉ text.toList)
    (h : (do
      let validated ← validateClassicalRulePayload text
      RuleEntry.firstRule message validated) = Except.ok rule) : rule = trim text := by
  obtain ⟨validated, hvalidated, h⟩ := Except.bind_eq_ok.mp h
  rw [validate_single hn hvalidated] at h
  exact (Except.ok.inj h).symm

theorem trim_append {before after : String} (hbefore : before ≠ "") (hafter : trim after ≠ "")
    (hfirst : ∀ c ∈ before.toList.head?, isWhitespace c = false) :
    trim (before ++ trim after) = before ++ trim after := by
  have hne : before.toList ≠ [] := fun h ↦ hbefore (String.toList_inj.mp h)
  have hlast : (trimList after.toList) ≠ [] := by
    intro h
    rw [trim, h] at hafter
    exact hafter rfl
  have htrimmed : Trimmed (before.toList ++ trimList after.toList) := by
    refine ⟨?_, ?_⟩
    · rw [List.head?_append_of_ne_nil _ hne]
      exact hfirst
    · rw [List.getLast?_append_of_ne_nil _ hlast]
      exact (trimmed_trimList _).2
  rw [← String.toList_inj, trim, String.toList_ofList, String.toList_append, trim,
    String.toList_ofList, trimList_eq_self htrimmed]

theorem compiled_rule (hvalue : hasControl entry.value = false)
    (hblank : isEmpty (trim entry.value) = false) (h : entry.compiled = .ok rule) :
    rule = entryRule entry := by
  have hn : '\n' ∉ (trim entry.value).toList := by
    intro hmem
    have hcontrol : hasControl entry.value = true :=
      List.any_eq_true.mpr ⟨_, mem_of_mem_trim hmem, by decide⟩
    rw [hvalue] at hcontrol
    cases hcontrol
  rw [RuleEntry.compiled] at h
  rw [entryRule]
  split at h
  next hkind => rw [if_pos hkind, compiled_single hn h, trim_trim]
  next hkind =>
    have hname : '\n' ∉ (entry.kind.mihomoName ++ ",").toList ∧
        entry.kind.mihomoName ++ "," ≠ "" ∧
        (entry.kind.mihomoName ++ ",").toList.head?.any isWhitespace = false := by
      cases entry.kind <;> decide
    obtain ⟨hline, hne, hblanks⟩ := hname
    have hfirst : ∀ c ∈ (entry.kind.mihomoName ++ ",").toList.head?, isWhitespace c = false :=
      fun c hc ↦ Bool.eq_false_iff.mpr fun hblank ↦
        Bool.eq_false_iff.mp hblanks ((Option.any_eq_true _ _).mpr ⟨c, hc, hblank⟩)
    have hnotEmpty : trim entry.value ≠ "" := by
      intro hempty
      rw [Text.isEmpty_iff.mpr hempty] at hblank
      cases hblank
    have hsingle : '\n' ∉ (entry.kind.mihomoName ++ "," ++ trim entry.value).toList := by
      rw [String.toList_append, List.mem_append]
      exact not_or.mpr ⟨hline, hn⟩
    rw [if_neg hkind, compiled_single hsingle h, trim_append hne hnotEmpty hfirst]

theorem validate_ok_entry (h : entry.validate = .ok ()) :
    entry.compiled = .ok (entryRule entry) := by
  obtain ⟨-, h⟩ := Except.guard_eq_ok.mp h
  obtain ⟨-, h⟩ := Except.guard_eq_ok.mp h
  obtain ⟨hvalue, h⟩ := Except.guard_eq_ok.mp h
  obtain ⟨-, h⟩ := Except.guard_eq_ok.mp h
  obtain ⟨rule, hrule, -⟩ := Except.bind_eq_ok.mp h
  simp only [Bool.or_eq_true, not_or, Bool.not_eq_true] at hvalue
  obtain ⟨⟨hblank, -⟩, hcontrol⟩ := hvalue
  rw [hrule, compiled_rule hcontrol hblank hrule]

theorem compiled_classical (h : entry.compiled = .ok rule) : ClassicalRule rule := by
  have hfirst {text message : String} (h : (do
      let validated ← validateClassicalRulePayload text
      RuleEntry.firstRule message validated) = Except.ok rule) : ClassicalRule rule := by
    obtain ⟨validated, hvalidated, h⟩ := Except.bind_eq_ok.mp h
    have hhead := Except.elim_eq_ok.mp h
    exact (validatePayload_ok hvalidated).2 rule (List.mem_of_mem_head? hhead)
  rw [RuleEntry.compiled] at h
  split at h
  · exact hfirst h
  · exact hfirst h

theorem mapM_ok_map {α β : Type} {f : α → Except String β} {g : α → β} {items : List α}
    {results : List β} (hg : ∀ a ∈ items, ∀ b, f a = .ok b → b = g a)
    (h : items.mapM f = .ok results) : results = items.map g := by
  rw [Except.mapM_eq_ok] at h
  induction h with
  | nil => rfl
  | cons hfirst _ ih =>
    rw [List.forall_mem_cons] at hg
    rw [List.map_cons, hg.1 _ hfirst, ih hg.2]

theorem flatMap_filter_of_nil {α β : Type} {p : α → Bool} {g : α → List β} {items : List α}
    (h : ∀ a ∈ items, p a = false → g a = []) : (items.filter p).flatMap g = items.flatMap g := by
  induction items with
  | nil => rfl
  | cons a rest ih =>
    rw [List.forall_mem_cons] at h
    rw [List.filter_cons, List.flatMap_cons, ← ih h.2]
    split
    next => rw [List.flatMap_cons]
    next hp => rw [h.1 (Bool.eq_false_iff.mpr hp), List.nil_append]

theorem layered_sources : (sources.filter fun source ↦
      source.enabled && !isEmpty (trim source.cachedPayload)).flatMap
        (fun source ↦ ruleLines source.cachedPayload) =
      ((sources.filter (·.enabled)).map fun source ↦ ruleLines source.cachedPayload).flatten := by
  have hfilter : ((sources.filter (·.enabled)).filter
      fun source ↦ !isEmpty (trim source.cachedPayload)).flatMap
        (fun source ↦ ruleLines source.cachedPayload) =
      (sources.filter (·.enabled)).flatMap fun source ↦ ruleLines source.cachedPayload :=
    flatMap_filter_of_nil fun source _ hblank ↦ ruleLines_blank (by simpa using hblank)
  rw [List.filter_filter] at hfilter
  rw [← List.flatMap_def, ← hfilter]
  congr 1
  exact List.filter_congr fun source _ ↦ Bool.and_comm _ _

theorem compile_ok (h : compileRuleSetPayload entries localPayload sources = .ok compiled) :
    ∃ fromEntries rules, (entries.filter (·.enabled)).mapM RuleEntry.compiled = .ok fromEntries ∧
      compiled = joinLines rules ∧ rules ≠ [] ∧ (∀ rule ∈ rules, ClassicalRule rule) ∧
      rules = retainFirst toAsciiLowercase [] (fromEntries ++ otherRules localPayload sources) := by
  obtain ⟨fromEntries, hfromEntries, h⟩ := Except.bind_eq_ok.mp h
  obtain ⟨fromLocal, hlocal, h⟩ := Except.bind_eq_ok.mp h
  obtain ⟨fromSources, hsources, h⟩ := Except.bind_eq_ok.mp h
  obtain ⟨hne, h⟩ := Except.guard_eq_ok.mp h
  have hfromSources' : fromSources =
      (sources.filter (·.enabled)).map fun source ↦ ruleLines source.cachedPayload :=
    mapM_ok_map (fun source _ rules hrules ↦ optionalPayload_rules hrules) hsources
  have hclassical : ∀ rule ∈ fromEntries ++ fromLocal ++ fromSources.flatten,
      ClassicalRule rule := by
    intro rule hrule
    rw [List.mem_append, List.mem_append, List.mem_flatten] at hrule
    rcases hrule with (hrule | hrule) | ⟨rules, hrules, hrule⟩
    · obtain ⟨entry, -, hentry⟩ := (Except.exists_of_mapM hfromEntries).2 rule hrule
      exact compiled_classical hentry
    · exact (optionalPayload_ok hlocal).2 rule hrule
    · obtain ⟨source, -, hsource⟩ := (Except.exists_of_mapM hsources).2 rules hrules
      exact (optionalPayload_ok hsource).2 rule hrule
  have hlayers : fromEntries ++ fromLocal ++ fromSources.flatten =
      fromEntries ++ otherRules localPayload sources := by
    rw [otherRules, layered_sources, optionalPayload_rules hlocal, hfromSources',
      List.append_assoc]
  rw [hlayers] at hne h hclassical
  refine ⟨fromEntries, _, hfromEntries, (Except.pure_eq_ok.mp h).symm, ?_, ?_, rfl⟩
  · exact fun hnil ↦ hne (List.isEmpty_iff.mpr hnil)
  · exact fun rule hrule ↦ hclassical rule (mem_of_mem_retainFirst hrule).1

/-- A compiled rule set is the rules of its layers, each once where it first occurs, is accepted
as it is, and compiles to itself. -/
theorem compiled_rule_set (hentries : ∀ entry ∈ entries, entry.validate = .ok ())
    (h : compileRuleSetPayload entries localPayload sources = .ok compiled) :
    lines compiled = firstOccurrences toAsciiLowercase (layeredRules entries localPayload sources) ∧
      validateClassicalRulePayload compiled = .ok (lines compiled) ∧
      compileRuleSetPayload [] compiled [] = .ok compiled := by
  obtain ⟨fromEntries, rules, hfromEntries, rfl, hne, hclassical, hrules⟩ := compile_ok h
  have hfromEntries' : fromEntries = (entries.filter (·.enabled)).map entryRule := by
    refine mapM_ok_map (fun entry hentry rule hrule ↦ ?_) hfromEntries
    have hvalid := validate_ok_entry (hentries entry (List.mem_of_mem_filter hentry))
    exact (Except.ok.inj (hvalid.symm.trans hrule)).symm
  rw [hfromEntries'] at hrules
  have hlines : lines (joinLines rules) = rules :=
    lines_joinLines fun rule hrule ↦ ⟨(hclassical rule hrule).ne_empty,
      (hclassical rule hrule).no_control⟩
  have hvalid := validatePayload_joinLines hne hclassical
  have hunique : retainFirst toAsciiLowercase [] rules = rules := by
    refine retainFirst_of_nodup ?_ fun _ _ ↦ List.not_mem_nil
    rw [hrules]
    exact retainFirst_keys_nodup
  refine ⟨?_, ?_, ?_⟩
  · rw [hlines, ← retainFirst_eq, layeredRules, ← hrules]
  · rw [hlines]
    exact hvalid
  · have hpayload : optionalPayload (joinLines rules) = .ok rules := by
      rw [optionalPayload, if_neg]
      · exact hvalid
      · intro hblank
        have hnil := ruleLines_blank hblank
        exact (validatePayload_iff.mp hvalid).1 hnil
    have hall : [] ++ rules ++ ([] : List (List String)).flatten = rules := by simp
    refine Except.bind_eq_ok.mpr ⟨[], rfl, Except.bind_eq_ok.mpr ⟨rules, hpayload,
      Except.bind_eq_ok.mpr ⟨[], rfl, ?_⟩⟩⟩
    rw [hall, hunique]
    exact Except.guard_eq_ok.mpr ⟨fun hnil ↦ hne (List.isEmpty_iff.mp hnil), rfl⟩

theorem compiled_rule_set_layers :
    lines "DOMAIN-SUFFIX,example.com\nDOMAIN,local.test\nDOMAIN,imported.test" =
      firstOccurrences toAsciiLowercase (layeredRules
        [⟨"manual-one", "set-one", true, .domainSuffix, "example.com", none, some "manual", 10⟩]
        "DOMAIN,local.test\nDOMAIN-SUFFIX,Example.com"
        [⟨"source-one", "set-one", "https://example.test/rules.txt", .text, true, 3600, none, none,
          none, none, 2, none, "DOMAIN-SUFFIX,example.com\nDOMAIN,imported.test"⟩]) := by
  refine (compiled_rule_set ?_ ?_).1
  · decide
  · decide +kernel

/-- A rule of one of the layers. -/
inductive Layered (entries : List RuleEntry) (localPayload : String)
    (sources : List RuleSetSource) (rule : String) : Prop
  | entry (entry : RuleEntry) (mem : entry ∈ entries) (enabled : entry.enabled = true)
      (compiled : entry.compiled = .ok rule)
  | other (mem : rule ∈ otherRules localPayload sources)

theorem Layered.mono {before after : List RuleEntry}
    (h : Layered before localPayload sources rule) (hentries : before ⊆ after) :
    Layered after localPayload sources rule := by
  cases h with
  | entry entry mem enabled compiled => exact .entry entry (hentries mem) enabled compiled
  | other mem => exact .other mem

theorem Layered.some_layer (h : Layered entries localPayload sources rule) :
    (∃ entry ∈ entries, entry.enabled = true) ∨ isEmpty (trim localPayload) = false ∨
      ∃ source ∈ sources, source.enabled = true ∧ isEmpty (trim source.cachedPayload) = false := by
  cases h with
  | entry entry mem enabled compiled => exact .inl ⟨entry, mem, enabled⟩
  | other mem =>
    rcases List.mem_append.mp mem with hlocal | hsource
    · refine .inr (.inl (Bool.eq_false_iff.mpr fun hblank ↦ ?_))
      rw [ruleLines_blank hblank] at hlocal
      cases hlocal
    · obtain ⟨source, hmem, -⟩ := List.mem_flatMap.mp hsource
      obtain ⟨hmem, hlive⟩ := List.mem_filter.mp hmem
      obtain ⟨henabled, hblank⟩ := (Bool.and_eq_true _ _).mp hlive
      exact .inr (.inr ⟨source, hmem, henabled, by simpa using hblank⟩)

/-- A text has a rule, up to ASCII case. -/
def HasRule (payload rule : String) : Prop :=
  toAsciiLowercase rule ∈ (lines payload).map toAsciiLowercase

instance : DecidableRel HasRule := fun _ _ ↦ inferInstanceAs (Decidable (_ ∈ _))

theorem hasRule_compiled (h : compileRuleSetPayload entries localPayload sources = .ok compiled) :
    HasRule compiled rule ↔ ∃ other, Layered entries localPayload sources other ∧
      toAsciiLowercase other = toAsciiLowercase rule := by
  obtain ⟨fromEntries, rules, hfromEntries, rfl, -, hclassical, hrules⟩ := compile_ok h
  have hlines : lines (joinLines rules) = rules :=
    lines_joinLines fun rule hrule ↦ ⟨(hclassical rule hrule).ne_empty,
      (hclassical rule hrule).no_control⟩
  have hlayered : ∀ other, other ∈ fromEntries ++ otherRules localPayload sources ↔
      Layered entries localPayload sources other := by
    intro other
    rw [List.mem_append]
    constructor
    · rintro (hother | hother)
      · obtain ⟨entry, hentry, hcompiled⟩ := (Except.exists_of_mapM hfromEntries).2 other hother
        obtain ⟨hmem, henabled⟩ := List.mem_filter.mp hentry
        exact .entry entry hmem henabled hcompiled
      · exact .other hother
    · rintro (⟨entry, hmem, henabled, hcompiled⟩ | hother)
      · obtain ⟨found, hfound, hsame⟩ := (Except.exists_of_mapM hfromEntries).1 entry
          (List.mem_filter.mpr ⟨hmem, henabled⟩)
        rw [hcompiled] at hsame
        cases hsame
        exact .inl hfound
      · exact .inr hother
  rw [HasRule, hlines, hrules, mem_keys_retainFirst, List.mem_map]
  constructor
  · rintro ⟨⟨other, hother, hsame⟩, -⟩
    exact ⟨other, (hlayered other).mp hother, hsame⟩
  · rintro ⟨other, hother, hsame⟩
    exact ⟨⟨other, (hlayered other).mpr hother, hsame⟩, List.not_mem_nil⟩

theorem exists_layered (h : compileRuleSetPayload entries localPayload sources = .ok compiled) :
    ∃ rule, Layered entries localPayload sources rule := by
  obtain ⟨fromEntries, rules, -, rfl, hne, hclassical, -⟩ := compile_ok h
  obtain ⟨rule, hrule⟩ := List.exists_mem_of_ne_nil rules hne
  have hlines : lines (joinLines rules) = rules :=
    lines_joinLines fun rule hrule ↦ ⟨(hclassical rule hrule).ne_empty,
      (hclassical rule hrule).no_control⟩
  have hhas : HasRule (joinLines rules) rule := by
    rw [HasRule, hlines]
    exact List.mem_map_of_mem hrule
  obtain ⟨other, hother, -⟩ := (hasRule_compiled h).mp hhas
  exact ⟨other, hother⟩

end layers

end StealthHub.Routing

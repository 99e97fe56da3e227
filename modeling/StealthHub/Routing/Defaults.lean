import StealthHub.Routing.Compiled
import StealthHub.Routing.Validation

set_option autoImplicit false

namespace StealthHub.Routing

open Text

variable {category start : String}

def siteChar (c : Char) : Bool :=
  (isAsciiAlphanumeric c || c = '-') && !isWhitespace c && !isControl c && c ≠ ','

/-- A category that a condition can carry. -/
structure SiteCategory (category : String) : Prop where
  nonempty : category ≠ ""
  short : len category ≤ 40
  chars : category.toList.all siteChar = true
  unmodified : eqIgnoreAsciiCase category "no-resolve" = false

theorem SiteCategory.char (h : SiteCategory category) {c : Char} (hc : c ∈ category.toList) :
    (isAsciiAlphanumeric c || c = '-') = true ∧ isWhitespace c = false ∧ isControl c = false ∧
      c ≠ ',' := by
  have hchar := List.all_eq_true.mp h.chars c hc
  simp only [siteChar, Bool.and_eq_true, Bool.not_eq_true', decide_eq_true_eq] at hchar
  exact ⟨hchar.1.1.1, hchar.1.1.2, hchar.1.2, hchar.2⟩

theorem SiteCategory.trim_append {first : Char} (h : SiteCategory category)
    (hhead : start.toList.head? = some first) (hfirst : isWhitespace first = false) :
    trim (start ++ category) = start ++ category := by
  have hne : category.toList ≠ [] := fun hnil ↦ h.nonempty (String.toList_inj.mp hnil)
  have hstart : start.toList ≠ [] := fun hnil ↦ by rw [hnil] at hhead; cases hhead
  have htrimmed : Trimmed (start ++ category).toList := by
    refine ⟨fun c hc ↦ ?_, fun c hc ↦ ?_⟩
    · rw [String.toList_append, List.head?_append_of_ne_nil _ hstart, hhead] at hc
      cases hc
      exact hfirst
    · rw [String.toList_append, List.getLast?_append_of_ne_nil _ hne] at hc
      exact (h.char (List.mem_of_getLast? hc)).2.1
  rw [trim, trimList_eq_self htrimmed, String.ofList_toList]

theorem SiteCategory.append_ne (h : SiteCategory category) : start ++ category ≠ "" :=
  fun hempty ↦ h.nonempty (String.append_eq_empty_iff.mp hempty).2

theorem SiteCategory.len_append (h : SiteCategory category) :
    len (start ++ category) ≤ len start + 40 := by
  have hshort := h.short
  unfold len at hshort ⊢
  rw [String.utf8ByteSize_append]
  omega

theorem SiteCategory.trim_self (h : SiteCategory category) : trim category = category := by
  have htrimmed : Trimmed category.toList :=
    ⟨fun c hc ↦ (h.char (List.mem_of_head? hc)).2.1,
      fun c hc ↦ (h.char (List.mem_of_getLast? hc)).2.1⟩
  rw [trim, trimList_eq_self htrimmed, String.ofList_toList]

theorem geosite_trim (h : SiteCategory category) :
    trim ("GEOSITE," ++ category) = "GEOSITE," ++ category :=
  h.trim_append (show "GEOSITE,".toList.head? = some 'G' by decide) (by decide)

theorem geosite_plain (h : SiteCategory category) :
    ∀ c ∈ ("GEOSITE," ++ category).toList, isControl c = false := by
  intro c hc
  rw [String.toList_append, List.mem_append] at hc
  rcases hc with hc | hc
  · have hsite : "GEOSITE,".toList.any isControl = false := by decide
    exact Bool.eq_false_iff.mpr (List.any_eq_false.mp hsite c hc)
  · exact (h.char hc).2.2.1

theorem geosite_fields (h : SiteCategory category) :
    fields ("GEOSITE," ++ category) = ["GEOSITE", category] := by
  have hcomma : ∀ piece ∈ ["GEOSITE", category], ',' ∉ piece.toList := by
    intro piece hpiece
    rcases List.mem_pair.mp hpiece with rfl | rfl
    · decide
    · exact fun hmem ↦ (h.char hmem).2.2.2 rfl
  have hpieces : "GEOSITE," ++ category = ",".intercalate ["GEOSITE", category] := rfl
  rw [fields, hpieces, split_intercalate_comma (List.cons_ne_nil _ _) hcomma, List.map_cons,
    List.map_singleton, h.trim_self, show trim "GEOSITE" = "GEOSITE" by decide]

theorem geosite_accepted (h : SiteCategory category) :
    validateClassicalRulePayload ("GEOSITE," ++ category) = .ok ["GEOSITE," ++ category] := by
  have hplain := geosite_plain h
  have hbounded : Bounded ("GEOSITE," ++ category) := by
    refine ⟨h.len_append.trans (by decide), List.any_eq_false.mpr fun c hc ↦ ?_⟩
    rw [hplain c hc]
    exact Bool.false_ne_true
  have hcomment : startsWith ("GEOSITE," ++ category) "#" = false := by
    rw [startsWith, Bool.eq_false_iff, Ne, List.isPrefixOf_iff_prefix, String.toList_append,
      show "#".toList = ['#'] by decide, show "GEOSITE,".toList = 'G' :: "EOSITE,".toList by decide,
      List.cons_append, List.cons_prefix_cons]
    exact fun hcomment ↦ absurd hcomment.1 (by decide)
  have hrules : ruleLines ("GEOSITE," ++ category) = ["GEOSITE," ++ category] := by
    rw [ruleLines, lines_single (fun hmem ↦ absurd (hplain _ hmem) (by decide)) h.append_ne,
      List.map_singleton, geosite_trim h, List.filter_singleton, hcomment,
      Bool.eq_false_iff.mpr (mt Text.isEmpty_iff.mp h.append_ne)]
    rfl
  refine validatePayload_iff.mpr ⟨?_, ?_, hrules.symm⟩
  · rw [hrules]
    exact List.cons_ne_nil _ _
  · rw [hrules]
    intro line hmem
    rw [List.mem_singleton.mp hmem]
    exact .inl ⟨hbounded, .plain _ _ (geosite_fields h) (by decide) h.nonempty⟩

theorem geosite_formed (h : SiteCategory category) (priority : Int) :
    RoutingPolicyRule.Formed ⟨"direct-geosite-" ++ category, "Direct geosite " ++ category, true,
      priority, "GEOSITE," ++ category, "DIRECT"⟩ where
  id := by
    have hsize : len ("direct-geosite-" ++ category) ≤ 64 := h.len_append.trans (by decide)
    have hchars : ("direct-geosite-" ++ category).toList.all (fun c ↦
        isAsciiAlphanumeric c || c = '-' || c = '_') = true := by
      rw [String.toList_append, List.all_append, Bool.and_eq_true]
      exact ⟨by decide, List.all_eq_true.mpr fun c hc ↦ by rw [(h.char hc).1, Bool.true_or]⟩
    have hnonempty : isEmpty ("direct-geosite-" ++ category) = false :=
      Bool.eq_false_iff.mpr (mt Text.isEmpty_iff.mp h.append_ne)
    rw [validatePolicyId, hnonempty, hchars, decide_eq_false hsize.not_gt]
    rfl
  name := by
    have hsize : len ("Direct geosite " ++ category) ≤ 80 := h.len_append.trans (by decide)
    rw [h.trim_append (show "Direct geosite ".toList.head? = some 'D' by decide) (by decide)]
    simp [h.append_ne, hsize]
  condition := by
    intro _
    have hline : '\n' ∉ ("GEOSITE," ++ category).toList :=
      fun hmem ↦ absurd (geosite_plain h _ hmem) (by decide)
    rw [geosite_trim h, containsChar, List.contains_eq_mem, decide_eq_false hline,
      Bool.eq_false_iff.mpr (mt Text.isEmpty_iff.mp h.append_ne)]
    exact Bool.false_ne_true
  line := by
    intro _
    unfold ClientPolicy.validateCondition
    split
    next =>
      have hcompleted : ∃ line, completeRule ("GEOSITE," ++ category) "DIRECT" = .ok line := by
        have hfields := geosite_fields h
        rw [fields] at hfields
        simp only [completeRule, hfields, List.getLast?_cons_cons, List.getLast?_singleton,
          Option.any_some, h.unmodified, Bool.false_and, Bool.false_eq_true, if_false]
        exact ⟨_, rfl⟩
      rw [geosite_trim h]
      obtain ⟨line, hline⟩ := hcompleted
      have hdirect : ¬(isEmpty "DIRECT" || trim "DIRECT" ≠ "DIRECT" || containsChar "DIRECT" ',' ||
          hasControl "DIRECT") = true := by decide
      refine Except.bind_eq_ok.mpr ⟨line, Except.guard_eq_ok.mpr ⟨hdirect, ?_⟩, rfl⟩
      exact Except.bind_eq_ok.mpr ⟨_, geosite_accepted h, hline⟩
    next => rfl

theorem defaultCategories_plain : ∀ category ∈ defaultDirectGeositeCategories,
    category ≠ "" ∧ len category ≤ 40 ∧ category.toList.all siteChar = true ∧
      eqIgnoreAsciiCase category "no-resolve" = false := by
  decide

theorem defaultRules_formed : ∀ rule ∈ defaultClientPolicy.rules, rule.Formed := by
  intro rule hrule
  rcases List.mem_append.mp hrule with hsite | hother
  · obtain ⟨⟨category, position⟩, hmem, rfl⟩ := List.mem_map.mp hsite
    obtain ⟨hne, hlen, hchars, hresolve⟩ :=
      defaultCategories_plain category (List.fst_mem_of_mem_zipIdx hmem)
    exact geosite_formed ⟨hne, hlen, hchars, hresolve⟩ _
  · have hvalid : ∀ rule ∈ defaultClientPolicy.rules.drop 24,
      defaultClientPolicy.validateRule [] rule = .ok () := by decide
    exact (validateRule_ok.mp (hvalid rule hother)).1

end StealthHub.Routing

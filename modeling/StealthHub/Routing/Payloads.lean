import StealthHub.Routing.Rules

set_option autoImplicit false

namespace Text

theorem splitOnce_eq_none {s : String} {c : Char} (h : splitOnce c s = none) :
    split c s = [s] := by
  rcases dropWhile_ne s.toList c with ⟨-, hmem⟩ | ⟨rest, hdrop, -⟩
  · exact split_eq_singleton hmem
  · rw [splitOnce, hdrop] at h
    cases h

theorem split_of_splitOnce {s before after : String} {c : Char}
    (h : splitOnce c s = some (before, after)) : split c s = before :: split c after := by
  have hs := splitOnce_some h
  have hbefore : c ∉ before.toList := by
    rcases dropWhile_ne s.toList c with ⟨hdrop, -⟩ | ⟨rest, hdrop, -⟩
    · rw [splitOnce, hdrop] at h
      cases h
    · rw [splitOnce, hdrop] at h
      cases h
      rw [String.toList_ofList]
      intro hmem
      simpa using List.mem_takeWhile_imp hmem
  rw [split, hs, List.splitOn_append_cons_self_of_not_mem hbefore, List.map_cons,
    String.ofList_toList, split]

theorem not_mem_of_mem_split {s piece : String} {c : Char} (h : piece ∈ split c s) :
    c ∉ piece.toList := by
  obtain ⟨l, hl, rfl⟩ := List.mem_map.mp h
  rw [String.toList_ofList]
  exact not_mem_of_mem_splitOn hl

theorem split_intercalate_comma {pieces : List String} (hne : pieces ≠ [])
    (h : ∀ piece ∈ pieces, ',' ∉ piece.toList) : split ',' (",".intercalate pieces) = pieces :=
  split_intercalate (by decide) hne h

end Text

namespace StealthHub.Routing

open Text

/-- The comma-separated fields of a line, without the blanks around them. -/
def fields (line : String) : List String := (split ',' line).map trim

/-- The lines that are neither blank nor a comment, without the blanks around them. -/
def ruleLines (text : String) : List String :=
  ((lines text).map trim).filter fun line ↦ !isEmpty line && !startsWith line "#"

def Bounded (line : String) : Prop := len line ≤ 1024 ∧ hasControl line = false

/-- The line has a type and a value, and maybe the modifier. -/
inductive Shaped (line : String) : Prop
  | plain (kind value : String) (fields : fields line = [kind, value])
      (supported : kind ∈ classicalConditionTypes) (value_ne : value ≠ "")
  | modified (kind value modifier : String) (fields : fields line = [kind, value, modifier])
      (supported : kind ∈ noResolveConditionTypes) (value_ne : value ≠ "")
      (modifier : eqIgnoreAsciiCase modifier "no-resolve" = true)

/-- A rule in the grammar of classical payloads. -/
def Grammatical (line : String) : Prop := Bounded line ∧ Shaped line

/-- A type and the modifier, with nothing between them. -/
structure Valueless (line : String) : Prop where
  bounded : Bounded line
  shape : ∃ kind modifier, fields line = [kind, "", modifier] ∧
    kind ∈ noResolveConditionTypes ∧ eqIgnoreAsciiCase modifier "no-resolve" = true

variable {line text rawLine : String} {rules : List String} {index : ℕ}

theorem noResolve_supported : ∀ kind ∈ noResolveConditionTypes, kind ∈ classicalConditionTypes := by
  decide

theorem supported_of : ∀ kind ∈ classicalConditionTypes, isEmpty kind = false ∧
    kind ∉ ["RULE-SET", "SUB-RULE"] ∧ kind ∉ ["AND", "OR", "NOT", "MATCH"] := by
  decide

theorem classicalLine_split {kind rest : String}
    (hblank : (isEmpty (trim rawLine) || startsWith (trim rawLine) "#") = false)
    (hsplit : splitOnce ',' (trim rawLine) = some (kind, rest)) :
    classicalLine index rawLine = .ok (some (trim rawLine)) ↔
      Bounded (trim rawLine) ∧ trim kind ∈ classicalConditionTypes ∧ trim rest ≠ "" ∧
        (((fields (trim rawLine)).length = 3 ∧
          eqIgnoreAsciiCase ((fields (trim rawLine)).getD 2 "") "no-resolve" = true ∧
          trim kind ∈ noResolveConditionTypes) ∨ (fields (trim rawLine)).length = 2) := by
  simp only [classicalLine, hsplit, if_neg (Bool.eq_false_iff.mp hblank)]
  by_cases hkind : trim kind ∈ classicalConditionTypes
  · obtain ⟨hne, hnested, hlogical⟩ := supported_of _ hkind
    rw [hne, Bool.false_or, if_neg hnested, if_neg hlogical, if_neg (not_not.mpr hkind)]
    by_cases hrest : isEmpty (trim rest) = true
    · rw [if_pos hrest]
      rw [Text.isEmpty_iff] at hrest
      simp [hrest]
    · rw [if_neg hrest]
      rw [Text.isEmpty_iff] at hrest
      by_cases hbounded : Bounded (trim rawLine)
      · have hsmall : ¬(1024 < len (trim rawLine) || hasControl (trim rawLine)) = true := by
          obtain ⟨hlen, hcontrol⟩ := hbounded
          simp [hlen, hcontrol]
        rw [if_neg hsmall]
        split
        next hshape => exact iff_of_true rfl ⟨hbounded, hkind, hrest, hshape⟩
        next hshape => exact iff_of_false nofun fun h ↦ hshape h.2.2.2
      · have hlarge : (1024 < len (trim rawLine) || hasControl (trim rawLine)) = true := by
          by_contra hsmall
          refine hbounded ⟨?_, ?_⟩
          · simp at hsmall
            omega
          · simp at hsmall
            exact hsmall.2
        rw [if_pos hlarge]
        exact iff_of_false nofun fun h ↦ hbounded h.1
  · refine iff_of_false ?_ fun h ↦ hkind h.2.1
    split
    · exact nofun
    split
    · exact nofun
    split
    · exact nofun
    · exact nofun

theorem eq_of_split_singleton {s piece : String} {c : Char} (h : split c s = [piece]) :
    piece = s := by
  cases hsplit : splitOnce c s with
  | none =>
    rw [splitOnce_eq_none hsplit, List.singleton_inj] at h
    exact h.symm
  | some parts =>
    have hcons := split_of_splitOnce (show splitOnce c s = some (parts.1, parts.2) from hsplit)
    rw [h] at hcons
    have hnil := (List.cons.inj hcons).2
    have hne := List.splitOn_ne_nil c parts.2.toList
    rw [split, eq_comm, List.map_eq_nil_iff] at hnil
    exact absurd hnil hne

theorem fields_cons {kind rest : String} (hsplit : splitOnce ',' line = some (kind, rest)) :
    fields line = trim kind :: fields rest ∧ fields rest ≠ [] ∧
      (trim rest = "" ↔ fields rest = [""]) := by
  have hfields : fields line = trim kind :: fields rest := by
    rw [fields, split_of_splitOnce hsplit, List.map_cons, fields]
  have hne : fields rest ≠ [] := by
    rw [fields, Ne, List.map_eq_nil_iff, split, List.map_eq_nil_iff]
    exact List.splitOn_ne_nil _ _
  refine ⟨hfields, hne, fun hblank ↦ ?_, fun hone ↦ ?_⟩
  · cases hrest : splitOnce ',' rest with
    | none => rw [fields, splitOnce_eq_none hrest, List.map_singleton, hblank]
    | some parts =>
      have hcomma : ',' ∈ (trim rest).toList := by
        have hparts : splitOnce ',' rest = some (parts.1, parts.2) := hrest
        rw [mem_trim (by decide), splitOnce_some hparts]
        exact List.mem_append_right _ List.mem_cons_self
      rw [hblank] at hcomma
      cases hcomma
  · obtain ⟨piece, hpiece, htrim⟩ := List.map_eq_singleton_iff.mp hone
    rw [eq_of_split_singleton hpiece] at htrim
    exact htrim

theorem classicalLine_iff
    (hblank : (isEmpty (trim rawLine) || startsWith (trim rawLine) "#") = false) :
    classicalLine index rawLine = .ok (some (trim rawLine)) ↔
      Grammatical (trim rawLine) ∨ Valueless (trim rawLine) := by
  cases hsplit : splitOnce ',' (trim rawLine) with
  | none =>
    have hone : fields (trim rawLine) = [trim (trim rawLine)] := by
      rw [fields, splitOnce_eq_none hsplit, List.map_singleton]
    refine iff_of_false ?_ ?_
    · simp only [classicalLine, hsplit, if_neg (Bool.eq_false_iff.mp hblank)]
      exact nofun
    · rintro (⟨-, hshaped⟩ | ⟨-, kind, modifier, hfields, -⟩)
      · cases hshaped with
        | plain kind value hfields => simp [hone] at hfields
        | modified kind value modifier hfields => simp [hone] at hfields
      · simp [hone] at hfields
  | some parts =>
    obtain ⟨kind, rest⟩ := parts
    obtain ⟨hfields, hne, hempty⟩ := fields_cons hsplit
    rw [classicalLine_split hblank hsplit, hfields]
    constructor
    · rintro ⟨hbounded, hkind, hrest, ⟨hlength, hmodifier, hresolve⟩ | hlength⟩
      · obtain ⟨value, modifier, hvalue⟩ : ∃ value modifier, fields rest = [value, modifier] :=
          List.length_eq_two.mp (by simpa using hlength)
        rw [hvalue] at hmodifier hfields
        by_cases hblank : value = ""
        · subst hblank
          exact .inr ⟨hbounded, _, modifier, hfields, hresolve, hmodifier⟩
        · exact .inl ⟨hbounded, .modified _ value modifier hfields hresolve hblank hmodifier⟩
      · obtain ⟨value, hvalue⟩ : ∃ value, fields rest = [value] :=
          List.length_eq_one_iff.mp (by simpa using hlength)
        rw [hvalue] at hempty hfields
        refine .inl ⟨hbounded, .plain _ value hfields hkind fun hblank ↦ ?_⟩
        exact hrest (hempty.mpr (by rw [hblank]))
    · rintro (⟨hbounded, hshaped⟩ | ⟨hbounded, kind', modifier, hline, hresolve, hmodifier⟩)
      · cases hshaped with
        | plain kind' value hline hsupported hvalue =>
          rw [hfields] at hline
          obtain ⟨rfl, hrest⟩ := List.cons.inj hline
          refine ⟨hbounded, hsupported, ?_, .inr (by rw [hrest]; rfl)⟩
          rw [Ne, hempty, hrest]
          simpa using hvalue
        | modified kind' value modifier hline hresolve hvalue hmodifier =>
          rw [hfields] at hline
          obtain ⟨rfl, hrest⟩ := List.cons.inj hline
          rw [hrest]
          refine ⟨hbounded, noResolve_supported _ hresolve, ?_, .inl ⟨rfl, hmodifier, hresolve⟩⟩
          rw [Ne, hempty, hrest]
          simp
      · rw [hfields] at hline
        obtain ⟨rfl, hrest⟩ := List.cons.inj hline
        rw [hrest]
        refine ⟨hbounded, noResolve_supported _ hresolve, ?_, .inl ⟨rfl, hmodifier, hresolve⟩⟩
        rw [Ne, hempty, hrest]
        simp

def ruleOf (rawLine : String) : Option String :=
  if isEmpty (trim rawLine) || startsWith (trim rawLine) "#" then none else some (trim rawLine)

def Acceptable (line : String) : Prop := Grammatical line ∨ Valueless line

theorem classicalLine_ok_iff {parsed : Option String} :
    classicalLine index rawLine = .ok parsed ↔
      parsed = ruleOf rawLine ∧ ∀ rule, ruleOf rawLine = some rule → Acceptable rule := by
  cases hblank : isEmpty (trim rawLine) || startsWith (trim rawLine) "#" with
  | true =>
    have hline : classicalLine index rawLine = .ok none := by
      simp only [classicalLine, if_pos hblank]
    have hrule : ruleOf rawLine = none := if_pos hblank
    rw [hline, hrule, Except.ok.injEq, eq_comm]
    exact ⟨fun h ↦ ⟨h, nofun⟩, And.left⟩
  | false =>
    have hrule : ruleOf rawLine = some (trim rawLine) := if_neg (Bool.eq_false_iff.mp hblank)
    have hiff := @classicalLine_iff rawLine index hblank
    rw [hrule]
    constructor
    · intro h
      cases parsed with
      | none =>
        simp only [classicalLine, if_neg (Bool.eq_false_iff.mp hblank)] at h
        split at h
        · cases h
        · split_ifs at h
          cases h
      | some line =>
        have hline := (classicalLine_some h).1
        subst hline
        refine ⟨rfl, fun rule hsome ↦ ?_⟩
        cases hsome
        exact hiff.mp h
    · rintro ⟨rfl, haccept⟩
      exact hiff.mpr (haccept _ rfl)

theorem mapM_classicalLine {rawLines : List String} {parsed : List (Option String)} {start : ℕ} :
    (rawLines.zipIdx start).mapM (fun x ↦ classicalLine x.2 x.1) = .ok parsed ↔
      parsed = rawLines.map ruleOf ∧
        ∀ rawLine ∈ rawLines, ∀ rule, ruleOf rawLine = some rule → Acceptable rule := by
  rw [Except.mapM_eq_ok]
  induction rawLines generalizing parsed start with
  | nil => simp
  | cons rawLine rest ih =>
    rw [List.zipIdx_cons, List.forall₂_cons_left_iff, List.map_cons, List.forall_mem_cons]
    constructor
    · rintro ⟨first, others, hfirst, hothers, rfl⟩
      obtain ⟨rfl, haccept⟩ := classicalLine_ok_iff.mp hfirst
      obtain ⟨rfl, hrest⟩ := ih.mp hothers
      exact ⟨rfl, haccept, hrest⟩
    · rintro ⟨rfl, haccept, hrest⟩
      exact ⟨_, _, classicalLine_ok_iff.mpr ⟨rfl, haccept⟩, ih.mpr ⟨rfl, hrest⟩, rfl⟩

theorem filterMap_ruleOf (text : String) : ((lines text).map ruleOf).filterMap id = ruleLines text := by
  rw [ruleLines, List.filterMap_map, ← List.filterMap_eq_filter, List.filterMap_map]
  apply List.filterMap_congr
  intro rawLine _
  simp only [Function.comp_apply, id, ruleOf, Option.guard]
  by_cases hempty : isEmpty (trim rawLine) = true
  · simp [hempty]
  · by_cases hcomment : startsWith (trim rawLine) "#" = true
    · simp [hcomment]
    · simp [hempty, hcomment]

theorem mem_ruleLines {line : String} :
    line ∈ ruleLines text ↔ ∃ rawLine ∈ lines text, ruleOf rawLine = some line := by
  rw [← filterMap_ruleOf]
  simp

theorem validatePayload_iff : validateClassicalRulePayload text = .ok rules ↔
    ruleLines text ≠ [] ∧ (∀ line ∈ ruleLines text, Acceptable line) ∧ rules = ruleLines text := by
  have haccept : (∀ rawLine ∈ lines text, ∀ rule, ruleOf rawLine = some rule → Acceptable rule) ↔
      ∀ line ∈ ruleLines text, Acceptable line := by
    constructor
    · intro h line hline
      obtain ⟨rawLine, hraw, hrule⟩ := mem_ruleLines.mp hline
      exact h rawLine hraw line hrule
    · exact fun h rawLine hraw rule hrule ↦ h rule (mem_ruleLines.mpr ⟨rawLine, hraw, hrule⟩)
  rw [← haccept]
  constructor
  · intro h
    obtain ⟨parsed, hparsed, h⟩ := Except.bind_eq_ok.mp h
    obtain ⟨hne, h⟩ := Except.guard_eq_ok.mp h
    obtain ⟨rfl, hlines⟩ := mapM_classicalLine.mp hparsed
    rw [filterMap_ruleOf] at hne h
    exact ⟨fun hnil ↦ hne (List.isEmpty_iff.mpr hnil), hlines, (Except.pure_eq_ok.mp h).symm⟩
  · rintro ⟨hne, hlines, rfl⟩
    refine Except.bind_eq_ok.mpr ⟨_, mapM_classicalLine.mpr ⟨rfl, hlines⟩, ?_⟩
    rw [filterMap_ruleOf]
    exact Except.guard_eq_ok.mpr ⟨fun h ↦ hne (List.isEmpty_iff.mp h), rfl⟩

/-- The validation accepts the payloads of the grammar, with their rules. -/
def MeetsGrammar (text : String) : Prop := ∀ rules,
  validateClassicalRulePayload text = .ok rules ↔
    ruleLines text ≠ [] ∧ (∀ line ∈ ruleLines text, Grammatical line) ∧ rules = ruleLines text

theorem not_grammatical_of_valueless (h : Valueless line) : ¬Grammatical line := by
  rintro ⟨-, hshaped⟩
  obtain ⟨-, kind, modifier, hfields, -⟩ := h
  cases hshaped with
  | plain kind' value hplain =>
    rw [hfields] at hplain
    simp at hplain
  | modified kind' value modifier' hmodified _ hvalue =>
    rw [hfields] at hmodified
    simp only [List.cons.injEq] at hmodified
    exact hvalue hmodified.2.1.symm

theorem not_meetsGrammar (hvalueless : ∃ line ∈ ruleLines text, Valueless line)
    (haccept : ∀ line ∈ ruleLines text, Acceptable line) : ¬MeetsGrammar text := by
  obtain ⟨line, hline, hvalueless⟩ := hvalueless
  intro h
  have hok := validatePayload_iff.mpr ⟨List.ne_nil_of_mem hline, haccept, rfl⟩
  exact not_grammatical_of_valueless hvalueless (((h _).mp hok).2.1 line hline)

/-- The validation meets the grammar except where a modifier without a value is all that is
wrong. -/
theorem meetsGrammar_iff : MeetsGrammar text ↔
    ¬((∃ line ∈ ruleLines text, Valueless line) ∧
      ∀ line ∈ ruleLines text, Grammatical line ∨ Valueless line) := by
  constructor
  · rintro h ⟨hvalueless, haccept⟩
    exact not_meetsGrammar hvalueless haccept h
  · intro h rules
    rw [validatePayload_iff]
    refine and_congr_right fun _ ↦ and_congr_left fun _ ↦ ⟨fun haccept ↦ ?_, fun hgrammar ↦ ?_⟩
    · intro line hline
      refine (haccept line hline).resolve_right fun hvalueless ↦ ?_
      exact h ⟨⟨line, hline, hvalueless⟩, haccept⟩
    · exact fun line hline ↦ .inl (hgrammar line hline)

theorem valueless_accepted : ¬∀ text, MeetsGrammar text := by
  have hlines : ruleLines "IP-CIDR,,no-resolve" = ["IP-CIDR,,no-resolve"] := by decide
  have hvalueless : Valueless "IP-CIDR,,no-resolve" :=
    ⟨⟨by decide, by decide⟩, "IP-CIDR", "no-resolve", by decide, by decide, by decide⟩
  have hnot : ¬MeetsGrammar "IP-CIDR,,no-resolve" := by
    apply not_meetsGrammar
    · rw [hlines]
      exact ⟨_, List.mem_cons_self, hvalueless⟩
    · rw [hlines]
      exact List.forall_mem_singleton.mpr (.inr hvalueless)
  exact fun h ↦ hnot (h _)

section target

variable {rule condition target target' result result' kind value : String}

def EndsInNoResolve (rule : String) : Prop :=
  ∃ last ∈ (fields rule).getLast?, eqIgnoreAsciiCase last "no-resolve" = true

/-- A type that is no condition of its own. -/
def Unconditional (rule : String) : Prop :=
  (fields rule).headD "" ∈ ["MATCH", "RULE-SET", "SUB-RULE", "AND", "OR", "NOT"]

/-- After the type and the value there is more than the modifier. -/
def CarriesTarget (rule : String) : Prop :=
  ∃ kind value extra rest, fields rule = kind :: value :: extra :: rest ∧
    ¬(rest = [] ∧ eqIgnoreAsciiCase extra "no-resolve" = true)

/-- The fields of a completed rule. -/
inductive CompletedFields (rule target : String) : List String → Prop
  | plain (kind value : String) (fields : fields rule = [kind, value])
      (supported : kind ∈ classicalConditionTypes) (plain : ¬EndsInNoResolve rule) :
      CompletedFields rule target [kind, value, target]
  | modified (kind value modifier : String) (fields : fields rule = [kind, value, modifier])
      (supported : kind ∈ classicalConditionTypes) (modified : EndsInNoResolve rule) :
      CompletedFields rule target [kind, value, target, "no-resolve"]

theorem comma_not_mem_fields {field : String} (h : field ∈ fields rule) : ',' ∉ field.toList := by
  obtain ⟨piece, hpiece, rfl⟩ := List.mem_map.mp h
  exact fun hmem ↦ not_mem_of_mem_split hpiece (mem_of_mem_trim hmem)

theorem endsInNoResolve_iff : EndsInNoResolve rule ↔
    ((fields rule).getLast?.any fun last ↦ eqIgnoreAsciiCase last "no-resolve") = true := by
  rw [Option.any_eq_true]
  rfl

theorem CompletedFields.commas {completed : List String} (h : CompletedFields rule target completed)
    (htarget : ',' ∉ target.toList) : ∀ field ∈ completed, ',' ∉ field.toList := by
  cases h with
  | plain kind value hfields =>
    have hown : ∀ field ∈ fields rule, ',' ∉ field.toList := fun _ ↦ comma_not_mem_fields
    rw [hfields] at hown
    simp only [List.forall_mem_cons] at hown ⊢
    exact ⟨hown.1, hown.2.1, htarget, nofun⟩
  | modified kind value modifier hfields =>
    have hown : ∀ field ∈ fields rule, ',' ∉ field.toList := fun _ ↦ comma_not_mem_fields
    rw [hfields] at hown
    simp only [List.forall_mem_cons] at hown ⊢
    exact ⟨hown.1, hown.2.1, htarget, by decide, nofun⟩

theorem completeRule_ok (haccept : Acceptable rule) (h : completeRule rule target = .ok result) :
    ∃ completed, CompletedFields rule target completed ∧ result = ",".intercalate completed := by
  have hshape : (∃ kind value, fields rule = [kind, value] ∧ kind ∈ classicalConditionTypes) ∨
      ∃ kind value modifier, fields rule = [kind, value, modifier] ∧
        kind ∈ noResolveConditionTypes ∧ eqIgnoreAsciiCase modifier "no-resolve" = true := by
    rcases haccept with ⟨-, hshaped⟩ | ⟨-, kind, modifier, hfields, hresolve, hmodifier⟩
    · cases hshaped with
      | plain kind value hfields hsupported => exact .inl ⟨kind, value, hfields, hsupported⟩
      | modified kind value modifier hfields hresolve _ hmodifier =>
        exact .inr ⟨kind, value, modifier, hfields, hresolve, hmodifier⟩
    · exact .inr ⟨kind, "", modifier, hfields, hresolve, hmodifier⟩
  rw [completeRule, show (split ',' rule).map trim = fields rule from rfl] at h
  rcases hshape with ⟨kind, value, hfields, hsupported⟩ |
    ⟨kind, value, modifier, hfields, hresolve, hmodifier⟩
  · by_cases hends : EndsInNoResolve rule
    · have hany := endsInNoResolve_iff.mp hends
      rw [hfields] at hany
      simp only [hfields, hany, if_true, List.dropLast] at h
      split_ifs at h
    · have hany := Bool.eq_false_iff.mpr (mt endsInNoResolve_iff.mpr hends)
      refine ⟨_, .plain kind value hfields hsupported hends, ?_⟩
      rw [hfields] at hany
      simp only [hfields, hany, Bool.false_and, Bool.false_eq_true, if_false] at h
      exact (Except.ok.inj h).symm
  · have hends : EndsInNoResolve rule := ⟨modifier, by rw [hfields]; rfl, hmodifier⟩
    have hany := endsInNoResolve_iff.mp hends
    refine ⟨_, .modified kind value modifier hfields (noResolve_supported _ hresolve) hends, ?_⟩
    rw [hfields] at hany
    simp only [hfields, hany, Bool.true_and, if_true, List.dropLast] at h
    split_ifs at h
    exact (Except.ok.inj h).symm

theorem singleRule_eq_ok {validated : List String} :
    singleRule validated = .ok rule ↔ validated = [rule] := by
  match validated with
  | [] => simp [singleRule]
  | [other] => simp [singleRule]
  | _ :: _ :: _ => simp [singleRule]

theorem classicalRuleWithTarget_ok (h : classicalRuleWithTarget condition target = .ok result) :
    ∃ rule, ruleLines condition = [rule] ∧ CompletedFields rule target (split ',' result) := by
  obtain ⟨htarget, h⟩ := Except.guard_eq_ok.mp h
  obtain ⟨validated, hvalidated, h⟩ := Except.bind_eq_ok.mp h
  obtain ⟨rule, hrule, h⟩ := Except.bind_eq_ok.mp h
  obtain ⟨-, haccept, hlines⟩ := validatePayload_iff.mp hvalidated
  rw [singleRule_eq_ok.mp hrule] at hlines
  rw [← hlines] at haccept
  obtain ⟨completed, hcompleted, rfl⟩ := completeRule_ok (haccept rule List.mem_cons_self) h
  have hcomma : ',' ∉ target.toList := by
    simp only [Bool.or_eq_true, not_or, containsChar, List.contains_iff_mem] at htarget
    exact htarget.1.2
  refine ⟨rule, hlines.symm, ?_⟩
  rw [split_intercalate_comma ?_ (hcompleted.commas hcomma)]
  · exact hcompleted
  · cases hcompleted <;> exact List.cons_ne_nil _ _

theorem CompletedFields.set {completed completed' : List String}
    (h : CompletedFields rule target completed) (h' : CompletedFields rule target' completed') :
    completed' = completed.set 2 target' := by
  cases h with
  | plain kind value hfields =>
    cases h' with
    | plain kind' value' hfields' =>
      rw [hfields] at hfields'
      simp only [List.cons.injEq] at hfields'
      obtain ⟨rfl, rfl, -⟩ := hfields'
      rfl
    | modified kind' value' modifier hfields' => simp [hfields] at hfields'
  | modified kind value modifier hfields =>
    cases h' with
    | plain kind' value' hfields' => simp [hfields] at hfields'
    | modified kind' value' modifier' hfields' =>
      rw [hfields] at hfields'
      simp only [List.cons.injEq] at hfields'
      obtain ⟨rfl, rfl, -⟩ := hfields'
      rfl

theorem CompletedFields.conditional {completed : List String}
    (h : CompletedFields rule target completed) : ¬Unconditional rule ∧ ¬CarriesTarget rule := by
  have hsupported (kind : String) (h : kind ∈ classicalConditionTypes) :
      kind ∉ ["MATCH", "RULE-SET", "SUB-RULE", "AND", "OR", "NOT"] := by
    revert kind
    decide
  cases h with
  | plain kind value hfields hkind =>
    refine ⟨fun hun ↦ ?_, fun ⟨_, _, _, _, htarget, _⟩ ↦ ?_⟩
    · rw [Unconditional, hfields] at hun
      exact hsupported kind hkind hun
    · simp [hfields] at htarget
  | modified kind value modifier hfields hkind hends =>
    refine ⟨fun hun ↦ ?_, fun ⟨_, _, _, _, htarget, hmore⟩ ↦ ?_⟩
    · rw [Unconditional, hfields] at hun
      exact hsupported kind hkind hun
    · rw [hfields] at htarget
      simp only [List.cons.injEq] at htarget
      obtain ⟨-, -, rfl, rfl⟩ := htarget
      obtain ⟨last, hlast, hmodifier⟩ := hends
      rw [hfields] at hlast
      cases hlast
      exact hmore ⟨rfl, hmodifier⟩

/-- Completing a condition puts the target in the third field and changes nothing else; what is
no single plain condition is refused. -/
theorem rule_completed_for_target :
    (∀ condition target result, classicalRuleWithTarget condition target = .ok result →
      ∃ rule, ruleLines condition = [rule] ∧ CompletedFields rule target (split ',' result) ∧
        ∀ target' result', classicalRuleWithTarget condition target' = .ok result' →
          split ',' result' = (split ',' result).set 2 target') ∧
    ∀ condition target, (2 ≤ (ruleLines condition).length ∨
        ∃ rule ∈ ruleLines condition, Unconditional rule ∨ CarriesTarget rule) →
      ∃ e, classicalRuleWithTarget condition target = .error e := by
  constructor
  · intro condition target result h
    obtain ⟨rule, hrule, hcompleted⟩ := classicalRuleWithTarget_ok h
    refine ⟨rule, hrule, hcompleted, fun target' result' h' ↦ ?_⟩
    obtain ⟨rule', hrule', hcompleted'⟩ := classicalRuleWithTarget_ok h'
    rw [hrule, List.singleton_inj] at hrule'
    subst hrule'
    exact hcompleted.set hcompleted'
  · intro condition target hrefused
    cases h : classicalRuleWithTarget condition target with
    | error e => exact ⟨e, rfl⟩
    | ok result =>
      obtain ⟨rule, hrule, hcompleted⟩ := classicalRuleWithTarget_ok h
      rw [hrule] at hrefused
      rcases hrefused with hmany | ⟨other, hother, hrefused⟩
      · simp at hmany
      · obtain rfl := List.mem_singleton.mp hother
        obtain ⟨hconditional, hplain⟩ := hcompleted.conditional
        rcases hrefused with hrefused | hrefused
        · exact absurd hrefused hconditional
        · exact absurd hrefused hplain

theorem rule_completed_no_resolve :
    (∃ rule, ruleLines "# office\nIP-CIDR, 10.0.0.0/8,NO-RESOLVE" = [rule] ∧
      CompletedFields rule "DIRECT" ["IP-CIDR", "10.0.0.0/8", "DIRECT", "no-resolve"]) ∧
    ∃ e, classicalRuleWithTarget "MATCH" "DIRECT" = .error e := by
  have hresult : classicalRuleWithTarget "# office\nIP-CIDR, 10.0.0.0/8,NO-RESOLVE" "DIRECT" =
      .ok "IP-CIDR,10.0.0.0/8,DIRECT,no-resolve" := by decide
  have hunconditional : Unconditional "MATCH" := by
    rw [Unconditional]
    decide
  have hmatch : ∃ rule ∈ ruleLines "MATCH", Unconditional rule ∨ CarriesTarget rule :=
    ⟨"MATCH", by decide, .inl hunconditional⟩
  obtain ⟨rule, hrule, hcompleted, -⟩ := rule_completed_for_target.1 _ _ _ hresult
  have hsplit : split ',' "IP-CIDR,10.0.0.0/8,DIRECT,no-resolve" =
      ["IP-CIDR", "10.0.0.0/8", "DIRECT", "no-resolve"] := by decide
  rw [hsplit] at hcompleted
  exact ⟨⟨rule, hrule, hcompleted⟩, rule_completed_for_target.2 _ _ (.inr hmatch)⟩

end target

end StealthHub.Routing

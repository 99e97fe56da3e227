import Mathlib.Data.Prod.Lex
import StealthHub.Modules.Manifest

set_option autoImplicit false

namespace StealthHub.Modules

open Text

/-- `u64::from_str`. -/
def u64FromStr (s : String) : Option ℕ :=
  let digits := if s.toList.head? = some '+' then s.toList.tail else s.toList
  if !digits.isEmpty && digits.all isAsciiDigit then parseU64 digits else none

def strictReleaseVersion (value : String) : Option (ℕ × ℕ × ℕ) :=
  match split '.' ((stripPrefix "v" value).getD value) with
  | [major, minor, patch] => do
    return (← u64FromStr major, ← u64FromStr minor, ← u64FromStr patch)
  | _ => none

def compareComponents (left right : ℕ × ℕ × ℕ) : Ordering :=
  (compare left.1 right.1).then ((compare left.2.1 right.2.1).then (compare left.2.2 right.2.2))

def compareReleaseVersions (left right : String) : Except String Ordering := do
  let leftVersion ← (normalizedReleaseVersion left).elim
    (.error ("unsupported release version: " ++ left)) .ok
  let rightVersion ← (normalizedReleaseVersion right).elim
    (.error ("unsupported release version: " ++ right)) .ok
  return compareComponents leftVersion rightVersion

def Separator (l : List Char) : Prop := ∀ c ∈ l, isAsciiDigit c = false

instance (l : List Char) : Decidable (Separator l) := List.decidableBAll (isAsciiDigit · = false) l

/-- A decimal number of 64 bits. -/
structure Decimal (l : List Char) (n : ℕ) : Prop where
  nonempty : l ≠ []
  digits : ∀ c ∈ l, isAsciiDigit c = true
  value : parseU64 l = some n

/-- Three numbers, with what stands before, between and behind them. -/
structure Spelled (text before first between second between' third behind : List Char)
    (version : ℕ × ℕ × ℕ) : Prop where
  text : text = before ++ (first ++ (between ++ (second ++ (between' ++ (third ++ behind)))))
  major : Decimal first version.1
  minor : Decimal second version.2.1
  patch : Decimal third version.2.2
  before : Separator before
  between : Separator between ∧ between ≠ []
  between' : Separator between' ∧ between' ≠ []
  behind : Separator behind

/-- A release: a text without digits, then three numbers with dots between them, and nothing
else. -/
def Release (s : String) (version : ℕ × ℕ × ℕ) : Prop :=
  ∃ before first second third, Spelled s.toList before first ['.'] second ['.'] third [] version

def digitRuns (l : List Char) : List (List Char) :=
  (l.splitOnP (!isAsciiDigit ·)).filter (!·.isEmpty)

variable {l rest before first between second between' third behind : List Char} {c : Char}
variable {s t u : String} {n : ℕ} {version version' : ℕ × ℕ × ℕ} {runs : List (List Char)}

theorem digitRuns_cons (hc : isAsciiDigit c = false) : digitRuns (c :: l) = digitRuns l := by
  have hsplit : (c :: l).splitOnP (!isAsciiDigit ·) = [] :: l.splitOnP (!isAsciiDigit ·) := by
    rw [List.splitOnP_cons_eq_if_modifyHead, hc]
    rfl
  rw [digitRuns, hsplit]
  rfl

theorem digitRuns_separator (h : Separator before) : digitRuns (before ++ l) = digitRuns l := by
  induction before with
  | nil => rfl
  | cons c before ih =>
    obtain ⟨hc, hbefore⟩ := List.forall_mem_cons.mp h
    rw [List.cons_append, digitRuns_cons hc, ih hbefore]

theorem digitRuns_nil (h : Separator l) : digitRuns l = [] := by
  rw [← List.append_nil l, digitRuns_separator h]
  rfl

theorem digitRuns_run (hne : first ≠ []) (hdigits : ∀ c ∈ first, isAsciiDigit c = true)
    (hrest : ∀ c ∈ rest.head?, isAsciiDigit c = false) :
    digitRuns (first ++ rest) = first :: digitRuns rest := by
  have hnone : ∀ c ∈ first, (!isAsciiDigit c) = false := by
    intro c hc
    rw [hdigits c hc]
    rfl
  cases rest with
  | nil =>
    rw [List.append_nil, digitRuns, List.splitOnP_eq_singleton hnone,
      List.filter_cons_of_pos (by simpa using hne)]
    rfl
  | cons c rest =>
    have hc := hrest c rfl
    rw [digitRuns_cons hc, digitRuns, List.splitOnP_append_cons_of_forall_mem hnone c (by rw [hc]; rfl),
      List.filter_cons_of_pos (by simpa using hne)]
    rfl

theorem exists_run (l : List Char) : ∃ before rest, l = before ++ rest ∧ Separator before ∧
    (rest = [] ∨ ∃ first behind, rest = first ++ behind ∧ first ≠ [] ∧
      (∀ c ∈ first, isAsciiDigit c = true) ∧ ∀ c ∈ behind.head?, isAsciiDigit c = false) := by
  refine ⟨l.takeWhile (!isAsciiDigit ·), l.dropWhile (!isAsciiDigit ·),
    List.takeWhile_append_dropWhile.symm, ?_, ?_⟩
  · intro c hc
    simpa using List.mem_takeWhile_imp hc
  · cases hrest : l.dropWhile (!isAsciiDigit ·) with
    | nil => exact .inl rfl
    | cons c rest =>
      have hc : isAsciiDigit c = true := by
        have hhead := List.head?_dropWhile_not (!isAsciiDigit ·) l
        rw [hrest] at hhead
        simpa using hhead
      refine .inr ⟨(c :: rest).takeWhile isAsciiDigit, (c :: rest).dropWhile isAsciiDigit,
        List.takeWhile_append_dropWhile.symm, ?_, fun d hd ↦ List.mem_takeWhile_imp hd, ?_⟩
      · rw [List.takeWhile_cons_of_pos hc]
        exact List.cons_ne_nil _ _
      · intro d hd
        have hhead := List.head?_dropWhile_not isAsciiDigit (c :: rest)
        rw [Option.mem_def.mp hd] at hhead
        simpa using hhead

theorem digitRuns_eq_nil : digitRuns l = [] ↔ Separator l := by
  refine ⟨fun h ↦ ?_, digitRuns_nil⟩
  obtain ⟨before, rest, rfl, hbefore, rfl | ⟨first, behind, rfl, hne, hdigits, hbehind⟩⟩ :=
    exists_run l
  · rwa [List.append_nil]
  · rw [digitRuns_separator hbefore, digitRuns_run hne hdigits hbehind] at h
    cases h

theorem digitRuns_eq_cons : digitRuns l = first :: runs ↔ ∃ before rest,
    l = before ++ (first ++ rest) ∧ Separator before ∧ first ≠ [] ∧
      (∀ c ∈ first, isAsciiDigit c = true) ∧ (∀ c ∈ rest.head?, isAsciiDigit c = false) ∧
        digitRuns rest = runs := by
  constructor
  · intro h
    obtain ⟨before, rest, rfl, hbefore, rfl | ⟨run, behind, rfl, hne, hdigits, hbehind⟩⟩ :=
      exists_run l
    · rw [List.append_nil, digitRuns_nil hbefore] at h
      cases h
    · rw [digitRuns_separator hbefore, digitRuns_run hne hdigits hbehind] at h
      obtain ⟨rfl, hruns⟩ := List.cons_eq_cons.mp h
      exact ⟨before, behind, rfl, hbefore, hne, hdigits, hbehind, hruns⟩
  · rintro ⟨before, rest, rfl, hbefore, hne, hdigits, hrest, hruns⟩
    rw [digitRuns_separator hbefore, digitRuns_run hne hdigits hrest, hruns]

theorem normalized_iff : normalizedReleaseVersion s = some version ↔ ∃ first second third,
    digitRuns s.toList = [first, second, third] ∧ parseU64 first = some version.1 ∧
      parseU64 second = some version.2.1 ∧ parseU64 third = some version.2.2 := by
  have hstart : digitRuns (s.toList.dropWhile (!isAsciiDigit ·)) = digitRuns s.toList := by
    have hseparator : Separator (s.toList.takeWhile (!isAsciiDigit ·)) := by
      intro c hc
      simpa using List.mem_takeWhile_imp hc
    rw [← digitRuns_separator hseparator, List.takeWhile_append_dropWhile]
  obtain ⟨a, b, c⟩ := version
  rw [← hstart]
  unfold normalizedReleaseVersion
  generalize s.toList.dropWhile (!isAsciiDigit ·) = start
  cases start with
  | nil => simp [digitRuns]
  | cons d start =>
    change ((digitRuns (d :: start)).mapM parseU64 >>= _) = _ ↔ _
    rcases digitRuns (d :: start) with _ | ⟨first, _ | ⟨second, _ | ⟨third, _ | ⟨fourth, rest⟩⟩⟩⟩
    · simp
    · simp [Option.bind_eq_some_iff]
    · simp [Option.bind_eq_some_iff]
    · simp [Option.bind_eq_some_iff]
    · simp [Option.bind_eq_some_iff]

theorem Separator.ne_nil (hdigits : ∀ c ∈ first, isAsciiDigit c = true) (hne : first ≠ [])
    (h : ∀ c ∈ (between ++ (first ++ rest)).head?, isAsciiDigit c = false) : between ≠ [] := by
  rintro rfl
  obtain ⟨c, first, rfl⟩ := List.exists_cons_of_ne_nil hne
  have hc := hdigits c List.mem_cons_self
  rw [h c rfl] at hc
  cases hc

theorem head_separator (h : Separator between) (hne : between ≠ []) :
    ∀ c ∈ (between ++ rest).head?, isAsciiDigit c = false := by
  obtain ⟨c, between, rfl⟩ := List.exists_cons_of_ne_nil hne
  intro d hd
  obtain rfl := Option.some.inj hd
  exact h _ List.mem_cons_self

theorem head_behind (h : Separator behind) : ∀ c ∈ behind.head?, isAsciiDigit c = false :=
  fun c hc ↦ h c (List.mem_of_mem_head? hc)

theorem normalized_spelled : normalizedReleaseVersion s = some version ↔
    ∃ before first between second between' third behind,
      Spelled s.toList before first between second between' third behind version := by
  rw [normalized_iff]
  constructor
  · rintro ⟨first, second, third, hruns, hmajor, hminor, hpatch⟩
    obtain ⟨before, rest, htext, hbefore, hne, hdigits, hrest, hruns⟩ := digitRuns_eq_cons.mp hruns
    obtain ⟨between, rest', rfl, hbetween, hne', hdigits', hrest', hruns⟩ :=
      digitRuns_eq_cons.mp hruns
    obtain ⟨between', behind, rfl, hbetween', hne'', hdigits'', -, hruns⟩ :=
      digitRuns_eq_cons.mp hruns
    exact ⟨before, first, between, second, between', third, behind, htext,
      ⟨hne, hdigits, hmajor⟩, ⟨hne', hdigits', hminor⟩, ⟨hne'', hdigits'', hpatch⟩, hbefore,
      ⟨hbetween, Separator.ne_nil hdigits' hne' hrest⟩,
      ⟨hbetween', Separator.ne_nil hdigits'' hne'' hrest'⟩, digitRuns_eq_nil.mp hruns⟩
  · rintro ⟨before, first, between, second, between', third, behind, h⟩
    refine ⟨first, second, third, ?_, h.major.value, h.minor.value, h.patch.value⟩
    rw [h.text, digitRuns_separator h.before, digitRuns_run h.major.nonempty h.major.digits
        (head_separator h.between.1 h.between.2), digitRuns_separator h.between.1,
      digitRuns_run h.minor.nonempty h.minor.digits (head_separator h.between'.1 h.between'.2),
      digitRuns_separator h.between'.1,
      digitRuns_run h.patch.nonempty h.patch.digits (head_behind h.behind), digitRuns_nil h.behind]

theorem normalized_of_release (h : Release s version) :
    normalizedReleaseVersion s = some version := by
  obtain ⟨before, first, second, third, h⟩ := h
  exact normalized_spelled.mpr ⟨before, first, _, second, _, third, _, h⟩

theorem span_unique {p : Char → Bool} (h : ∀ c ∈ first, p c = true)
    (hrest : ∀ c ∈ rest.head?, p c = false) :
    (first ++ rest).takeWhile p = first ∧ (first ++ rest).dropWhile p = rest := by
  rw [List.takeWhile_append_of_pos h, List.dropWhile_append_of_pos h]
  cases rest with
  | nil => simp
  | cons c rest => simp [hrest c rfl]

theorem separator_unique {first' before' rest' : List Char} (hbefore : Separator before)
    (hbefore' : Separator before') (hdigits : ∀ c ∈ first, isAsciiDigit c = true)
    (hdigits' : ∀ c ∈ first', isAsciiDigit c = true) (hne : first ≠ []) (hne' : first' ≠ [])
    (hrest : ∀ c ∈ rest.head?, isAsciiDigit c = false)
    (hrest' : ∀ c ∈ rest'.head?, isAsciiDigit c = false)
    (h : before ++ (first ++ rest) = before' ++ (first' ++ rest')) :
    before = before' ∧ first = first' ∧ rest = rest' := by
  have hhead : ∀ {first : List Char} (rest : List Char), (∀ c ∈ first, isAsciiDigit c = true) →
      first ≠ [] → ∀ c ∈ (first ++ rest).head?, (!isAsciiDigit c) = false := by
    intro first rest hdigits hne c hc
    obtain ⟨d, first, rfl⟩ := List.exists_cons_of_ne_nil hne
    obtain rfl := Option.some.inj hc
    rw [hdigits _ List.mem_cons_self]
    rfl
  have hseparator : ∀ {before : List Char}, Separator before →
      ∀ c ∈ before, (!isAsciiDigit c) = true := by
    intro before hbefore c hc
    rw [hbefore c hc]
    rfl
  obtain ⟨htake, hdrop⟩ := span_unique (hseparator hbefore) (hhead rest hdigits hne)
  obtain ⟨htake', hdrop'⟩ := span_unique (hseparator hbefore') (hhead rest' hdigits' hne')
  rw [← h] at htake' hdrop'
  have hruns : first ++ rest = first' ++ rest' := hdrop.symm.trans hdrop'
  obtain ⟨hrun, hrest⟩ := span_unique hdigits hrest
  obtain ⟨hrun', hrest'⟩ := span_unique hdigits' hrest'
  rw [← hruns] at hrun' hrest'
  exact ⟨htake.symm.trans htake', hrun.symm.trans hrun', hrest.symm.trans hrest'⟩

theorem Spelled.unique {text before' first' second' third' gap gap' behind' : List Char}
    (h : Spelled text before first between second between' third behind version)
    (h' : Spelled text before' first' gap second' gap' third' behind' version') :
    between = gap ∧ between' = gap' ∧ behind = behind' := by
  obtain ⟨-, -, htext⟩ := separator_unique h.before h'.before h.major.digits h'.major.digits
    h.major.nonempty h'.major.nonempty (head_separator h.between.1 h.between.2)
    (head_separator h'.between.1 h'.between.2) (h.text.symm.trans h'.text)
  obtain ⟨hbetween, -, htext⟩ := separator_unique h.between.1 h'.between.1 h.minor.digits
    h'.minor.digits h.minor.nonempty h'.minor.nonempty (head_separator h.between'.1 h.between'.2)
    (head_separator h'.between'.1 h'.between'.2) htext
  obtain ⟨hbetween', -, hbehind⟩ := separator_unique h.between'.1 h'.between'.1 h.patch.digits
    h'.patch.digits h.patch.nonempty h'.patch.nonempty (head_behind h.behind)
    (head_behind h'.behind) htext
  exact ⟨hbetween, hbetween', hbehind⟩

/-- Where a text has three numbers, single dots are between them, and nothing is behind. -/
def SinglyDotted (s : String) : Prop :=
  ∀ before first between second between' third behind version,
    Spelled s.toList before first between second between' third behind version →
      between = ['.'] ∧ between' = ['.'] ∧ behind = []

theorem release_iff : (∀ version, normalizedReleaseVersion s = some version ↔ Release s version) ↔
    SinglyDotted s := by
  constructor
  · intro h before first between second between' third behind version hspelled
    obtain ⟨before', first', second', third', hrelease⟩ := (h version).mp
      (normalized_spelled.mpr ⟨before, first, between, second, between', third, behind, hspelled⟩)
    exact hspelled.unique hrelease
  · intro h version
    refine ⟨fun hversion ↦ ?_, normalized_of_release⟩
    obtain ⟨before, first, between, second, between', third, behind, hspelled⟩ :=
      normalized_spelled.mp hversion
    obtain ⟨rfl, rfl, rfl⟩ := h _ _ _ _ _ _ _ _ hspelled
    exact ⟨before, first, second, third, hspelled⟩

theorem stripPrefix_text : ∃ before, Separator before ∧
    s.toList = before ++ ((stripPrefix "v" s).getD s).toList := by
  cases h : stripPrefix "v" s with
  | none => exact ⟨[], List.forall_mem_nil _, rfl⟩
  | some rest => exact ⟨['v'], by decide, stripPrefix_some h⟩

theorem u64FromStr_some (h : u64FromStr s = some n) : ∃ plus digits, s.toList = plus ++ digits ∧
    Separator plus ∧ Decimal digits n := by
  have hdecimal : ∀ digits : List Char, (if !digits.isEmpty && digits.all isAsciiDigit then
      parseU64 digits else none) = some n → Decimal digits n := by
    intro digits hdigits
    split_ifs at hdigits with hall
    rw [Bool.and_eq_true, List.all_eq_true] at hall
    exact ⟨by simpa using hall.1, hall.2, hdigits⟩
  unfold u64FromStr at h
  by_cases hplus : s.toList.head? = some '+'
  · obtain ⟨rest, hrest⟩ := List.head?_eq_some_iff.mp hplus
    simp only [hrest, List.tail_cons] at h
    exact ⟨['+'], rest, hrest, by decide, hdecimal rest h⟩
  · simp only [if_neg hplus] at h
    exact ⟨[], s.toList, rfl, List.forall_mem_nil _, hdecimal _ h⟩

theorem separator_dot (h : Separator before) : Separator ('.' :: before) :=
  List.forall_mem_cons.mpr ⟨by decide, h⟩

theorem strict_normalized (h : strictReleaseVersion s = some version) :
    normalizedReleaseVersion s = some version := by
  obtain ⟨before, hbefore, htext⟩ := @stripPrefix_text s
  unfold strictReleaseVersion at h
  split at h
  next major minor patch hpieces =>
    obtain ⟨a, hmajor, h⟩ := Option.bind_eq_some_iff.mp h
    obtain ⟨b, hminor, h⟩ := Option.bind_eq_some_iff.mp h
    obtain ⟨c, hpatch, h⟩ := Option.bind_eq_some_iff.mp h
    obtain rfl := Option.some.inj h
    obtain ⟨plus, digits, hmajorText, hplus, hdigits⟩ := u64FromStr_some hmajor
    obtain ⟨plus', digits', hminorText, hplus', hdigits'⟩ := u64FromStr_some hminor
    obtain ⟨plus'', digits'', hpatchText, hplus'', hdigits''⟩ := u64FromStr_some hpatch
    have hdotted : ((stripPrefix "v" s).getD s).toList =
        major.toList ++ '.' :: (minor.toList ++ '.' :: patch.toList) := by
      have hjoin : ['.'].intercalate (((stripPrefix "v" s).getD s).toList.splitOn '.') =
          ((stripPrefix "v" s).getD s).toList := List.intercalate_splitOn '.'
      have hlists : ((stripPrefix "v" s).getD s).toList.splitOn '.' =
          [major.toList, minor.toList, patch.toList] := by
        have hmap := congrArg (List.map String.toList) hpieces
        simpa [split, Function.comp_def] using hmap
      rw [hlists] at hjoin
      rw [← hjoin]
      simp [List.intercalate]
    refine normalized_spelled.mpr ⟨before ++ plus, digits, '.' :: plus', digits', '.' :: plus'',
      digits'', [], ?_, hdigits, hdigits', hdigits'', ?_, ?_, ?_, List.forall_mem_nil _⟩
    · rw [htext, hdotted, hmajorText, hminorText, hpatchText]
      simp
    · exact List.forall_mem_append.mpr ⟨hbefore, hplus⟩
    · exact ⟨separator_dot hplus', List.cons_ne_nil _ _⟩
    · exact ⟨separator_dot hplus'', List.cons_ne_nil _ _⟩
  next => cases h

/-- The order of the components, the first one first. -/
def lexical (version : ℕ × ℕ × ℕ) : ℕ ×ₗ ℕ ×ₗ ℕ := toLex (version.1, toLex version.2)

theorem compareComponents_eq :
    compareComponents version version' = compare (lexical version) (lexical version') := rfl

theorem compare_ok {ordering : Ordering} : compareReleaseVersions s t = .ok ordering ↔
    ∃ left right, normalizedReleaseVersion s = some left ∧ normalizedReleaseVersion t = some right ∧
      compare (lexical left) (lexical right) = ordering := by
  have helim : ∀ {x : Option (ℕ × ℕ × ℕ)} {e : String} {version : ℕ × ℕ × ℕ},
      x.elim (.error e) Except.ok = .ok version ↔ x = some version := by
    intro x e version
    cases x with
    | none => simp
    | some found => simp
  rw [compareReleaseVersions, Except.bind_eq_ok]
  simp only [Except.bind_eq_ok, Except.pure_eq_ok, helim, compareComponents_eq]
  constructor
  · rintro ⟨left, hleft, right, hright, h⟩
    exact ⟨left, right, hleft, hright, h⟩
  · rintro ⟨left, right, hleft, hright, h⟩
    exact ⟨left, hleft, right, hright, h⟩

/-- A version is no later than another. -/
def NotNewer (s t : String) : Prop :=
  compareReleaseVersions s t = .ok .lt ∨ compareReleaseVersions s t = .ok .eq

theorem notNewer_iff : NotNewer s t ↔ ∃ left right, normalizedReleaseVersion s = some left ∧
    normalizedReleaseVersion t = some right ∧ lexical left ≤ lexical right := by
  rw [NotNewer, compare_ok, compare_ok]
  constructor
  · rintro (⟨left, right, hleft, hright, h⟩ | ⟨left, right, hleft, hright, h⟩)
    · exact ⟨left, right, hleft, hright, (compare_lt_iff_lt.mp h).le⟩
    · exact ⟨left, right, hleft, hright, (compare_eq_iff_eq.mp h).le⟩
  · rintro ⟨left, right, hleft, hright, h⟩
    rcases h.lt_or_eq with h | h
    · exact .inl ⟨left, right, hleft, hright, compare_lt_iff_lt.mpr h⟩
    · exact .inr ⟨left, right, hleft, hright, compare_eq_iff_eq.mpr h⟩

theorem notNewer_trans (h : NotNewer s t) (h' : NotNewer t u) : NotNewer s u := by
  obtain ⟨left, middle, hleft, hmiddle, hle⟩ := notNewer_iff.mp h
  obtain ⟨middle', right, hmiddle', hright, hle'⟩ := notNewer_iff.mp h'
  obtain rfl := Option.some.inj (hmiddle.symm.trans hmiddle')
  exact notNewer_iff.mpr ⟨left, right, hleft, hright, hle.trans hle'⟩

theorem notNewer_total (hs : normalizedReleaseVersion s = some version)
    (ht : normalizedReleaseVersion t = some version') : NotNewer s t ∨ NotNewer t s := by
  rcases le_total (lexical version) (lexical version') with h | h
  · exact .inl (notNewer_iff.mpr ⟨version, version', hs, ht, h⟩)
  · exact .inr (notNewer_iff.mpr ⟨version', version, ht, hs, h⟩)

end StealthHub.Modules

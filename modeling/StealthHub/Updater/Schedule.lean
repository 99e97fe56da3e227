import Mathlib.Data.List.Infix
import Mathlib.Logic.Function.Basic
import StealthHub.Updater.Policy

set_option autoImplicit false

namespace StealthHub.Updater

open Text EnvFile

variable {value time : String} {hour minute n : ℕ} {config : Config} {settings : Settings}

theorem parseU32_digits (h : parseU32 value = some n) :
    ∃ plus digits, value.toList = plus ++ digits ∧ (plus = [] ∨ plus = ['+']) ∧ digits ≠ [] ∧
      (∀ c ∈ digits, isAsciiDigit c = true) ∧
        digits.foldl (fun n c ↦ 10 * n + (c.toNat - 48)) 0 = n := by
  unfold parseU32 at h
  dsimp only at h
  by_cases hplus : value.toList.head? = some '+'
  · obtain ⟨digits, hvalue⟩ := List.head?_eq_some_iff.mp hplus
    rw [if_pos hplus, hvalue, List.tail_cons] at h
    split_ifs at h with hall
    simp only [Bool.and_eq_true, Bool.not_eq_true', List.isEmpty_eq_false_iff, List.all_eq_true]
      at hall
    exact ⟨['+'], digits, hvalue, .inr rfl, hall.1.1, hall.1.2, Option.some.inj h⟩
  · rw [if_neg hplus] at h
    split_ifs at h with hall
    simp only [Bool.and_eq_true, Bool.not_eq_true', List.isEmpty_eq_false_iff, List.all_eq_true]
      at hall
    exact ⟨[], value.toList, rfl, .inl rfl, hall.1.1, hall.1.2, Option.some.inj h⟩

theorem parseU32_two (hlen : len value = 2) (h : parseU32 value = some n) :
    (∃ c d, value.toList = [c, d] ∧ isAsciiDigit c = true ∧ isAsciiDigit d = true ∧
        n = 10 * (c.toNat - 48) + (d.toNat - 48)) ∨
      ∃ d, value.toList = ['+', d] ∧ isAsciiDigit d = true ∧ n = d.toNat - 48 := by
  obtain ⟨plus, digits, hvalue, hplus, hne, hdigits, hn⟩ := parseU32_digits h
  have hascii : ∀ c ∈ value.toList, c.toNat < 128 := by
    rw [hvalue]
    intro c hc
    rcases List.mem_append.mp hc with hc | hc
    · rcases hplus with rfl | rfl
      · cases hc
      · rw [List.mem_singleton.mp hc]
        decide
    · exact isAsciiDigit_ascii (hdigits c hc)
  rw [len_ascii hascii, hvalue, List.length_append] at hlen
  rcases hplus with rfl | rfl
  · obtain ⟨c, d, rfl⟩ := List.length_eq_two.mp (by simpa using hlen)
    refine .inl ⟨c, d, hvalue, hdigits c (by simp), hdigits d (by simp), ?_⟩
    rw [← hn]
    simp
  · obtain ⟨d, rfl⟩ := List.length_eq_one_iff.mp (show digits.length = 1 by simp at hlen; omega)
    refine .inr ⟨d, hvalue, hdigits d (by simp), ?_⟩
    rw [← hn]
    simp

/-- A time that the panel accepts. -/
structure Timed (time hourText minuteText : String) (hour minute : ℕ) : Prop where
  parts : (trim time).toList = hourText.toList ++ ':' :: minuteText.toList
  hourLen : len hourText = 2
  minuteLen : len minuteText = 2
  hourNumber : parseU32 hourText = some hour
  minuteNumber : parseU32 minuteText = some minute
  hourBound : hour ≤ 23
  minuteBound : minute ≤ 59

theorem parseScheduleTime_some (h : parseScheduleTime time = some (hour, minute)) :
    ∃ hourText minuteText, Timed time hourText minuteText hour minute := by
  obtain ⟨⟨hourText, minuteText⟩, hsplit, h⟩ := Option.bind_eq_some_iff.mp h
  dsimp only at h
  split_ifs at h with hlen
  obtain ⟨hourNumber, hhour, h⟩ := Option.bind_eq_some_iff.mp h
  obtain ⟨minuteNumber, hminute, h⟩ := Option.bind_eq_some_iff.mp h
  split_ifs at h with hbounds
  cases h
  simp only [Bool.or_eq_true, decide_eq_true_eq, not_or, not_not] at hlen
  exact ⟨hourText, minuteText, splitOnce_some hsplit, hlen.1, hlen.2, hhour, hminute, hbounds.1,
    hbounds.2⟩

theorem mem_trim_or {s : String} {c : Char} (h : c ∈ s.toList) :
    c ∈ (trim s).toList ∨ isWhitespace c = true := by
  cases hc : isWhitespace c with
  | false => exact .inl ((mem_trim hc).mpr h)
  | true => exact .inr rfl

theorem Timed.trimmed {hourText minuteText : String}
    (h : Timed time hourText minuteText hour minute) :
    ∀ c ∈ (trim time).toList, isAsciiDigit c = true ∨ c = '+' ∨ c = ':' := by
  have hnumber {text : String} {n : ℕ} (hn : parseU32 text = some n) :
      ∀ c ∈ text.toList, isAsciiDigit c = true ∨ c = '+' := by
    obtain ⟨plus, digits, htext, hplus, -, hdigits, -⟩ := parseU32_digits hn
    rw [htext]
    intro c hc
    rcases List.mem_append.mp hc with hc | hc
    · rcases hplus with rfl | rfl
      · cases hc
      · exact .inr (List.mem_singleton.mp hc)
    · exact .inl (hdigits c hc)
  intro c hc
  rw [h.parts, List.mem_append, List.mem_cons] at hc
  rcases hc with hc | rfl | hc
  · exact (hnumber h.hourNumber c hc).imp_right .inl
  · exact .inr (.inr rfl)
  · exact (hnumber h.minuteNumber c hc).imp_right .inl

theorem Timed.chars {hourText minuteText : String} (h : Timed time hourText minuteText hour minute) :
    ∀ c ∈ time.toList, isWhitespace c = true ∨ isAsciiDigit c = true ∨ c = '+' ∨ c = ':' := by
  intro c hc
  rcases mem_trim_or hc with hc | hblank
  · exact .inr (h.trimmed c hc)
  · exact .inl hblank

theorem loadConfig_timed (settings : Settings) (pinnedSource : Option (String × String)) :
    ∃ hourText minuteText hour minute,
      Timed (loadConfig settings pinnedSource).scheduleTime hourText minuteText hour minute := by
  have htime : (parseScheduleTime (loadConfig settings pinnedSource).scheduleTime).isSome = true := by
    rw [loadConfig]
    dsimp only
    split_ifs with hparsed
    · exact hparsed
    · decide
  obtain ⟨⟨hour, minute⟩, hparsed⟩ := Option.isSome_iff_exists.mp htime
  obtain ⟨hourText, minuteText, htimed⟩ := parseScheduleTime_some hparsed
  exact ⟨hourText, minuteText, hour, minute, htimed⟩

theorem mem_cleaned {c : Char} (h : c ∈ (cleaned value).toList) :
    c ∈ value.toList ∧ (isAsciiGraphic c = true ∨ c = ' ') := by
  rw [cleaned, String.toList_ofList, List.mem_filter, Bool.or_eq_true, decide_eq_true_eq] at h
  exact h

theorem shellEnvValue_oneLine (value : String) : '\n' ∉ (shellEnvValue value).toList := by
  intro h
  rcases mem_quoted h with h | h
  · revert h
    decide
  · exact absurd (mem_cleaned h).2 (by decide)

theorem envBool_oneLine (value : Bool) : '\n' ∉ (envBool value).toList := by
  cases value <;> decide

theorem split_ne_nil (c : Char) (s : String) : split c s ≠ [] := by
  rw [split, ne_eq, List.map_eq_nil_iff]
  exact List.splitOn_ne_nil c s.toList

def policyKeys : List String := ["AUTO_ENABLED", "SCHEDULE_TIME", "REPO", "REF"]

theorem policyKeys_named : ∀ key ∈ policyKeys, IsKey key ∧ key ≠ "" ∧ key ≠ "SCHEDULE_HOUR" ∧
    'E' ∈ key.toList := by
  have hkeys : ∀ key ∈ policyKeys, '=' ∉ key.toList ∧ '\n' ∉ key.toList ∧ key ≠ "" ∧
      key ≠ "SCHEDULE_HOUR" ∧ 'E' ∈ key.toList := by
    decide
  intro key hkey
  obtain ⟨hequals, hnewline, hrest⟩ := hkeys key hkey
  exact ⟨⟨hequals, hnewline⟩, hrest⟩

theorem policyFields_names (config : Config) : ∀ field ∈ policyFields config,
    IsKey field.1 ∧ (field.1 ≠ "SCHEDULE_HOUR" → '\n' ∉ field.2.toList) := by
  simp only [policyFields, List.forall_mem_cons]
  exact ⟨⟨⟨by decide, by decide⟩, fun _ ↦ envBool_oneLine _⟩,
    ⟨⟨by decide, by decide⟩, fun h ↦ absurd rfl h⟩,
    ⟨⟨by decide, by decide⟩, fun _ ↦ shellEnvValue_oneLine _⟩,
    ⟨⟨by decide, by decide⟩, fun _ ↦ shellEnvValue_oneLine _⟩,
    ⟨⟨by decide, by decide⟩, fun _ ↦ shellEnvValue_oneLine _⟩, List.forall_mem_nil _⟩

theorem policyFields_hour {field : String × String} (h : field ∈ policyFields config)
    (hname : field.1 = "SCHEDULE_HOUR") : field.2 ∈ split ':' config.scheduleTime := by
  obtain ⟨name, value⟩ := field
  obtain rfl : name = "SCHEDULE_HOUR" := hname
  have hvalue : value = ((split ':' config.scheduleTime).head?).getD "5" := by
    simpa [policyFields] using h
  obtain ⟨first, rest, hsplit⟩ := List.exists_cons_of_ne_nil (split_ne_nil ':' config.scheduleTime)
  rw [hvalue, hsplit]
  exact List.mem_cons_self

theorem policyFields_plain {hourText minuteText key : String}
    (htimed : Timed config.scheduleTime hourText minuteText hour minute) (hkey : key ∈ policyKeys) :
    ∀ field ∈ policyFields config, Plain key field := by
  obtain ⟨-, -, hhour, hletter⟩ := policyKeys_named key hkey
  intro field hfield
  obtain ⟨hname, hline⟩ := policyFields_names config field hfield
  refine ⟨hname, fun h ↦ hline (h ▸ hhour), fun hnewline ↦ ?_⟩
  have hscheduled : field.1 = "SCHEDULE_HOUR" := by
    by_contra h
    exact hline h hnewline
  have hvalue : ∀ c ∈ field.2.toList, c ∈ config.scheduleTime.toList := by
    have hpiece : field.2 ∈ split ':' config.scheduleTime := policyFields_hour hfield hscheduled
    exact fun c ↦ mem_of_mem_split hpiece
  have hchars (c : Char) (hc : c ∈ field.2.toList) := htimed.chars c (hvalue c hc)
  exact ⟨fun h ↦ absurd (hchars _ h) (by decide), 'E', hletter,
    fun h ↦ absurd (hchars _ h) (by decide)⟩

theorem lastAssigned_policy {hourText minuteText key : String}
    (htimed : Timed config.scheduleTime hourText minuteText hour minute) (hkey : key ∈ policyKeys) :
    lastAssigned key (policyFile config) =
      (((policyFields config).filter (·.1 = key)).map Prod.snd).getLast? := by
  obtain ⟨hname, hne, -⟩ := policyKeys_named key hkey
  exact lastAssigned_render hname hne (policyFields_plain htimed hkey)

theorem firstAssigned_policy {hourText minuteText key : String}
    (htimed : Timed config.scheduleTime hourText minuteText hour minute) (hkey : key ∈ policyKeys) :
    firstAssigned key (policyFile config) =
      (((policyFields config).filter (·.1 = key)).map Prod.snd).head? :=
  firstAssigned_render (policyKeys_named key hkey).2.1 (policyFields_plain htimed hkey)

theorem policyFields_assigned (config : Config) :
    ((policyFields config).filter (·.1 = "AUTO_ENABLED")).map Prod.snd = [envBool config.enabled] ∧
      ((policyFields config).filter (·.1 = "SCHEDULE_TIME")).map Prod.snd =
        [shellEnvValue config.scheduleTime] ∧
      ((policyFields config).filter (·.1 = "REPO")).map Prod.snd = [shellEnvValue config.repo] ∧
      ((policyFields config).filter (·.1 = "REF")).map Prod.snd = [shellEnvValue config.gitRef] := by
  refine ⟨?_, ?_, ?_, ?_⟩ <;> simp [policyFields]

theorem readBool (value : Bool) :
    replace escapedQuote "'" (unquoted (envBool value)) = envBool value ∧
      unquoted (envBool value) = envBool value := by
  cases value <;> decide

theorem policyFile_read (settings : Settings) (pinnedSource : Option (String × String)) :
    let config := loadConfig settings pinnedSource
    let file := some (policyFile config)
    readState file "AUTO_ENABLED" = envBool config.enabled ∧
      readState file "SCHEDULE_TIME" = cleaned config.scheduleTime ∧
      readState file "REPO" = cleaned config.repo ∧ readState file "REF" = cleaned config.gitRef ∧
      stateValue file "SCHEDULE_TIME" = cleaned config.scheduleTime := by
  intro config file
  obtain ⟨hourText, minuteText, hour, minute, htimed⟩ := loadConfig_timed settings pinnedSource
  have hquote : '\'' ∉ (cleaned config.scheduleTime).toList :=
    fun h ↦ absurd (htimed.chars _ (mem_cleaned h).1) (by decide)
  obtain ⟨henabled, htime, hrepo, href⟩ := policyFields_assigned config
  have hlast (key value : String) (hkey : key ∈ policyKeys)
      (hassigned : ((policyFields config).filter (·.1 = key)).map Prod.snd = [value]) :
      readState file key = replace escapedQuote "'" (unquoted value) := by
    rw [readState, Option.bind_some, lastAssigned_policy htimed hkey, hassigned,
      List.getLast?_singleton, Option.map_some, Option.getD_some]
  refine ⟨?_, ?_, ?_, ?_, ?_⟩
  · rw [hlast _ _ (by decide) henabled, (readBool config.enabled).1]
  · rw [hlast _ _ (by decide) htime, shellEnvValue, replace_unquoted_quoted]
  · rw [hlast _ _ (by decide) hrepo, shellEnvValue, replace_unquoted_quoted]
  · rw [hlast _ _ (by decide) href, shellEnvValue, replace_unquoted_quoted]
  · rw [stateValue, Option.bind_some, firstAssigned_policy htimed (by decide), htime,
      List.head?_cons, Option.map_some, Option.getD_some, shellEnvValue, unquoted_quoted hquote]

theorem cleaned_eq_iff : cleaned value = value ↔
    ∀ c ∈ value.toList, isAsciiGraphic c = true ∨ c = ' ' := by
  have hfilter : cleaned value = value ↔
      value.toList.filter (fun c ↦ isAsciiGraphic c || c = ' ') = value.toList := by
    rw [cleaned, ← String.toList_inj, String.toList_ofList]
  rw [hfilter, List.filter_eq_self]
  simp only [Bool.or_eq_true, decide_eq_true_eq]

/-- Whatever the settings hold, what the updaters read of the mirrored file is the configuration
with its visible ASCII characters and blanks, and so the configuration itself exactly where its
texts have no others. -/
theorem policy_read_back (settings : Settings) (pinnedSource : Option (String × String)) :
    let config := loadConfig settings pinnedSource
    let file := some (policyFile config)
    readState file "AUTO_ENABLED" = envBool config.enabled ∧
      (∀ field ∈ [("SCHEDULE_TIME", config.scheduleTime), ("REPO", config.repo),
          ("REF", config.gitRef)],
        readState file field.1 = cleaned field.2 ∧
          (readState file field.1 = field.2 ↔
            ∀ c ∈ field.2.toList, isAsciiGraphic c = true ∨ c = ' ')) ∧
      stateValue file "SCHEDULE_TIME" = cleaned config.scheduleTime := by
  intro config file
  obtain ⟨henabled, htime, hrepo, href, hstate⟩ := policyFile_read settings pinnedSource
  have hexact {key value : String} (hread : readState file key = cleaned value) :
      readState file key = cleaned value ∧
        (readState file key = value ↔ ∀ c ∈ value.toList, isAsciiGraphic c = true ∨ c = ' ') :=
    ⟨hread, by rw [hread, cleaned_eq_iff]⟩
  refine ⟨henabled, ?_, hstate⟩
  simp only [List.forall_mem_cons]
  exact ⟨hexact htime, hexact hrepo, hexact href, List.forall_mem_nil _⟩

theorem isAsciiDigit_iff {c : Char} : isAsciiDigit c = true ↔ 48 ≤ c.toNat ∧ c.toNat ≤ 57 := by
  rw [isAsciiDigit, Bool.and_eq_true, decide_eq_true_eq, decide_eq_true_eq]
  exact Iff.rfl

theorem char_le {c d : Char} : c ≤ d ↔ c.toNat ≤ d.toNat := Iff.rfl

theorem char_eq {c d : Char} : c = d ↔ c.toNat = d.toNat := Char.toNat_inj.symm

theorem matchesClock_digits {a b c d : Char} (htime : time.toList = [a, b, ':', c, d])
    (ha : isAsciiDigit a = true) (hb : isAsciiDigit b = true) (hc : isAsciiDigit c = true)
    (hd : isAsciiDigit d = true) (hhour : 10 * (a.toNat - 48) + (b.toNat - 48) ≤ 23)
    (hminute : 10 * (c.toNat - 48) + (d.toNat - 48) ≤ 59) :
    matchesClock time = true ∧ clockTotal time =
      60 * (10 * (a.toNat - 48) + (b.toNat - 48)) + (10 * (c.toNat - 48) + (d.toNat - 48)) := by
  rw [isAsciiDigit_iff] at ha hb hc
  rw [matchesClock, clockTotal, htime]
  simp only [Bool.and_eq_true, Bool.or_eq_true, decide_eq_true_eq, char_le, char_eq,
    isAsciiDigit_iff, hd, Char.reduceToNat, and_true]
  omega

theorem Timed.clock {hourText minuteText : String}
    (h : Timed time hourText minuteText hour minute) (htrim : trim time = time) :
    (matchesClock time = true ↔ '+' ∉ time.toList) ∧
      ('+' ∉ time.toList → clockTotal time = 60 * hour + minute) := by
  have hparts := h.parts
  rw [htrim] at hparts
  rcases parseU32_two h.hourLen h.hourNumber with ⟨a, b, hhour, ha, hb, rfl⟩ | ⟨b, hhour, -⟩
  · rcases parseU32_two h.minuteLen h.minuteNumber with ⟨c, d, hminute, hc, hd, rfl⟩ |
      ⟨d, hminute, -⟩
    · have htime : time.toList = [a, b, ':', c, d] := by
        rw [hparts, hhour, hminute]
        rfl
      obtain ⟨hmatches, htotal⟩ :=
        matchesClock_digits htime ha hb hc hd h.hourBound h.minuteBound
      refine ⟨iff_of_true hmatches ?_, fun _ ↦ htotal⟩
      rw [htime]
      simp only [List.mem_cons, List.not_mem_nil, or_false, not_or]
      have hne (e : Char) (he : isAsciiDigit e = true) : '+' ≠ e := by
        rintro rfl
        cases he
      exact ⟨hne a ha, hne b hb, by decide, hne c hc, hne d hd⟩
    · have htime : time.toList = [a, b, ':', '+', d] := by
        rw [hparts, hhour, hminute]
        rfl
      have hplus : '+' ∈ time.toList := by
        rw [htime]
        simp
      refine ⟨iff_of_false ?_ (not_not_intro hplus), fun hnone ↦ absurd hplus hnone⟩
      rw [matchesClock, htime]
      simp [char_le]
  · have hplus : '+' ∈ time.toList := by
      rw [hparts, hhour]
      simp
    refine ⟨iff_of_false ?_ (not_not_intro hplus), fun hnone ↦ absurd hplus hnone⟩
    rw [matchesClock, hparts, hhour]
    rcases parseU32_two h.minuteLen h.minuteNumber with ⟨c, d, hminute, -⟩ | ⟨d, hminute, -⟩
    · rw [hminute]
      simp
    · rw [hminute]
      simp

theorem updateWindow_ok {enabledText timeText : String} {saved : List (String × String)}
    (h : updateWindow enabledText timeText = .ok saved) : ∃ enabled hour minute,
      (enabled = true ↔ trim enabledText = "true") ∧
        parseScheduleTime (nonEmptyOrDefault timeText "05:00") = some (hour, minute) ∧
          saved = [("panel_update_enabled", envBool enabled),
            ("panel_update_time", nonEmptyOrDefault timeText "05:00"),
            ("panel_update_hour", toString hour)] := by
  obtain ⟨enabled, henabled, h⟩ := Except.bind_eq_ok.mp h
  have hiff : enabled = true ↔ trim enabledText = "true" := by
    rw [readEnabled] at henabled
    split_ifs at henabled with htrue hfalse
    · cases henabled
      exact iff_of_true rfl htrue
    · cases henabled
      exact iff_of_false (by simp) htrue
  dsimp only at h
  cases hparsed : parseScheduleTime (nonEmptyOrDefault timeText "05:00") with
  | none =>
    rw [hparsed] at h
    cases h
  | some time =>
    rw [hparsed] at h
    exact ⟨enabled, time.1, time.2, hiff, rfl, (Except.ok.inj h).symm⟩

theorem parseBoolSetting_envBool (value : Bool) : parseBoolSetting (envBool value) = value := by
  cases value <;> decide

theorem trim_nonEmptyOrDefault (value : String) :
    trim (nonEmptyOrDefault value "05:00") = nonEmptyOrDefault value "05:00" := by
  rw [nonEmptyOrDefault]
  split_ifs
  · decide
  · exact trim_trim value

theorem loadConfig_saved (settings : Settings) (pinnedSource : Option (String × String))
    (enabled : Bool) (hour' : String) (hparsed : (parseScheduleTime time).isSome = true) :
    (loadConfig (settings.saved [("panel_update_enabled", envBool enabled),
        ("panel_update_time", time), ("panel_update_hour", hour')]) pinnedSource).enabled = enabled ∧
      (loadConfig (settings.saved [("panel_update_enabled", envBool enabled),
        ("panel_update_time", time), ("panel_update_hour", hour')]) pinnedSource).scheduleTime =
          time := by
  generalize henabled : envBool enabled = enabledValue
  have hlookup : (settings.saved [("panel_update_enabled", enabledValue),
      ("panel_update_time", time), ("panel_update_hour", hour')]) "panel_update_enabled" =
        some enabledValue ∧ (settings.saved [("panel_update_enabled", enabledValue),
      ("panel_update_time", time), ("panel_update_hour", hour')]) "panel_update_time" =
        some time := by
    simp [Settings.saved, Function.update]
  generalize settings.saved [("panel_update_enabled", enabledValue),
      ("panel_update_time", time), ("panel_update_hour", hour')] = loaded at hlookup
  rw [loadConfig, settingOrDefault, settingOrDefault, settingOrDefault]
  dsimp only
  rw [hlookup.1, hlookup.2, Option.getD_some, Option.getD_some, if_pos hparsed, ← henabled,
    parseBoolSetting_envBool]
  exact ⟨rfl, rfl⟩

theorem Timed.cleaned_eq {hourText minuteText : String}
    (h : Timed time hourText minuteText hour minute) (htrim : trim time = time) :
    cleaned time = time := by
  have hgraphic : ∀ c ∈ time.toList, (isAsciiGraphic c || decide (c = ' ')) = true := by
    intro c hc
    rw [← htrim] at hc
    rw [Bool.or_eq_true, isAsciiGraphic, Bool.and_eq_true, decide_eq_true_eq, decide_eq_true_eq,
      char_le, char_le]
    rcases h.trimmed c hc with hdigit | rfl | rfl
    · obtain ⟨hlow, hhigh⟩ := isAsciiDigit_iff.mp hdigit
      refine .inl ⟨le_trans ?_ hlow, le_trans hhigh ?_⟩ <;> decide
    · decide
    · decide
  rw [cleaned, List.filter_eq_self.mpr hgraphic, String.ofList_toList]

/-- Both updaters keep the time that the owner saved, but for a sign that the panel lets pass in
front of a digit: then neither runs by itself. -/
theorem schedule_followed (settings : Settings) (pinnedSource : Option (String × String))
    (enabledText timeText : String) (saved : List (String × String))
    (h : updateWindow enabledText timeText = .ok saved) (requested : Bool)
    (latestSha appliedSha : String) (now : ℕ) :
    let config := loadConfig (settings.saved saved) pinnedSource
    let file := some (policyFile config)
    ∃ hour minute, parseScheduleTime config.scheduleTime = some (hour, minute) ∧
      (shouldUpdateNow requested file latestSha appliedSha now = true ↔ requested = true ∨
        trim enabledText = "true" ∧ latestSha ≠ appliedSha ∧ '+' ∉ config.scheduleTime.toList ∧
          60 * hour + minute ≤ now) ∧
      (automaticDue file now = .ok true ↔
        '+' ∉ config.scheduleTime.toList ∧ 60 * hour + minute ≤ now) ∧
      ((∃ message, automaticDue file now = .error message) ↔ '+' ∈ config.scheduleTime.toList) := by
  intro config file
  obtain ⟨enabled, hour, minute, henabled, hparsed, rfl⟩ := updateWindow_ok h
  have hsome : (parseScheduleTime (nonEmptyOrDefault timeText "05:00")).isSome = true := by
    rw [hparsed]
    rfl
  obtain ⟨hloaded, htime⟩ :=
    loadConfig_saved settings pinnedSource enabled (toString hour) hsome
  obtain ⟨hreadEnabled, hreadTime, -, -, hstateTime⟩ := policyFile_read
    (settings.saved [("panel_update_enabled", envBool enabled),
      ("panel_update_time", nonEmptyOrDefault timeText "05:00"),
      ("panel_update_hour", toString hour)]) pinnedSource
  change config.enabled = enabled at hloaded
  change config.scheduleTime = _ at htime
  change readState file _ = envBool config.enabled at hreadEnabled
  change readState file _ = cleaned config.scheduleTime at hreadTime
  change stateValue file _ = cleaned config.scheduleTime at hstateTime
  generalize config.scheduleTime = time at *
  subst htime
  obtain ⟨hourText, minuteText, htimed⟩ := parseScheduleTime_some hparsed
  have htrim := trim_nonEmptyOrDefault timeText
  generalize nonEmptyOrDefault timeText "05:00" = time at *
  rw [htimed.cleaned_eq htrim] at hreadTime hstateTime
  have hscheduled : scheduledTime time = time := by
    rw [scheduledTime, if_neg]
    rw [Text.isEmpty_iff]
    rintro rfl
    have hnone : parseScheduleTime "" = none := by decide
    rw [hnone] at hparsed
    cases hparsed
  obtain ⟨hmatches, htotal⟩ := htimed.clock htrim
  refine ⟨hour, minute, hparsed, ?_, ?_, ?_⟩
  · have hread : envBool enabled = "true" ↔ trim enabledText = "true" := by
      rw [← henabled]
      cases enabled <;> decide
    rw [shouldUpdateNow, hreadEnabled, hreadTime, hscheduled, hloaded]
    simp only [Bool.or_eq_true, Bool.and_eq_true, decide_eq_true_eq, hread, hmatches, and_assoc]
    refine or_congr_right (and_congr_right fun _ ↦ and_congr_right fun _ ↦ ?_)
    exact and_congr_right fun hplus ↦ by rw [htotal hplus]
  · rw [automaticDue, hstateTime, hscheduled]
    by_cases hplus : '+' ∈ time.toList
    · rw [if_neg fun hmatch ↦ hmatches.mp hmatch hplus]
      exact iff_of_false (fun h ↦ by cases h) fun h ↦ h.1 hplus
    · rw [if_pos (hmatches.mpr hplus), htotal hplus]
      simp [hplus]
  · rw [automaticDue, hstateTime, hscheduled]
    by_cases hplus : '+' ∈ time.toList
    · rw [if_neg fun hmatch ↦ hmatches.mp hmatch hplus]
      exact iff_of_true ⟨_, rfl⟩ hplus
    · rw [if_pos (hmatches.mpr hplus)]
      exact iff_of_false (by simp) hplus

theorem schedule_followed_early :
    let file := some (policyFile (loadConfig (Settings.saved (fun _ ↦ none)
      [("panel_update_enabled", "true"), ("panel_update_time", "04:30"),
        ("panel_update_hour", "4")]) none))
    ∃ hour minute, parseScheduleTime "04:30" = some (hour, minute) ∧
      (shouldUpdateNow false file "new" "old" 270 = true ↔ 60 * hour + minute ≤ 270) := by
  have hsaved : updateWindow " true" "04:30 " = .ok [("panel_update_enabled", "true"),
      ("panel_update_time", "04:30"), ("panel_update_hour", "4")] := by
    decide
  obtain ⟨hour, minute, hparsed, hdue, -⟩ :=
    schedule_followed (fun _ ↦ none) none " true" "04:30 " _ hsaved false "new" "old" 270
  have htime : (loadConfig (Settings.saved (fun _ ↦ none)
      [("panel_update_enabled", "true"), ("panel_update_time", "04:30"),
        ("panel_update_hour", "4")]) none).scheduleTime = "04:30" := by
    decide
  rw [htime] at hparsed hdue
  have htrim : trim " true" = "true" := by decide
  have hplus : '+' ∉ "04:30".toList := by decide
  refine ⟨hour, minute, hparsed, hdue.trans ⟨?_, fun h ↦ .inr ⟨htrim, by decide, hplus, h⟩⟩⟩
  rintro (h | ⟨-, -, -, h⟩)
  · cases h
  · exact h

end StealthHub.Updater

import StealthHub.Data.Text
import StealthHub.Data.Words

set_option autoImplicit false

namespace EnvFile

open Text

def fileLines (content : String) : List String := split '\n' content

/-- What a line assigns to a key; a line without `=` that is the key stands for itself. -/
def assigned (key line : String) : Option String :=
  match splitOnce '=' line with
  | some (name, value) => if name = key then some value else none
  | none => if line = key then some line else none

/-- `awk -F= '$1 == key { sub("^[^=]*=", ""); print; exit }'`. -/
def firstAssigned (key content : String) : Option String :=
  (fileLines content).findSome? (assigned key)

/-- `grep "^key=" | tail -n 1 | cut -d= -f2-`. -/
def lastAssigned (key content : String) : Option String :=
  ((fileLines content).filterMap (stripPrefix (key ++ "="))).getLast?

def assignment (field : String × String) : String := field.1 ++ "=" ++ field.2

def render : List (String × String) → String
  | [] => ""
  | field :: rest => assignment field ++ "\n" ++ render rest

/-- All occurrences of a pattern are replaced from the left; `skip` characters belong to one that
was found. -/
def replaceFrom (pattern replacement : List Char) : ℕ → List Char → List Char
  | _, [] => []
  | skip + 1, _ :: l => replaceFrom pattern replacement skip l
  | 0, c :: l =>
    if pattern.isPrefixOf (c :: l) then
      replacement ++ replaceFrom pattern replacement (pattern.length - 1) l
    else c :: replaceFrom pattern replacement 0 l

def replace (pattern replacement s : String) : String :=
  String.ofList (replaceFrom pattern.toList replacement.toList 0 s.toList)

/-- The expansion `${value#pattern}`. -/
def dropPrefix (pattern s : String) : String := (stripPrefix pattern s).getD s

/-- The expansion `${value%pattern}`, for one character. -/
def dropLast (c : Char) (s : String) : String :=
  if s.toList.getLast? = some c then String.ofList s.toList.dropLast else s

def escapedQuote : String := "'\"'\"'"

def quoted (s : String) : String := "'" ++ replace "'" escapedQuote s ++ "'"

def unquoted (s : String) : String := dropLast '\'' (dropPrefix "'" s)

/-- A name that may be assigned to. -/
structure IsKey (key : String) : Prop where
  equals : '=' ∉ key.toList
  newline : '\n' ∉ key.toList

variable {key name value line : String} {fields : List (String × String)}

theorem assigned_of (hkey : IsKey name) :
    assigned key (assignment (name, value)) = if name = key then some value else none := by
  rw [assigned, assignment, splitOnce_append rfl hkey.equals]

theorem assigned_eq_none (h : '=' ∉ line.toList) (hne : line ≠ key) : assigned key line = none := by
  have hnone : splitOnce '=' line = none := by
    cases hsplit : splitOnce '=' line with
    | none => rfl
    | some parts =>
      refine absurd ?_ h
      rw [splitOnce_some hsplit]
      exact List.mem_append_right _ List.mem_cons_self
  rw [assigned, hnone]
  exact if_neg hne

theorem stripPrefix_append (s rest : String) : stripPrefix s (s ++ rest) = some rest := by
  have hstarts : startsWith (s ++ rest) s = true := by
    rw [startsWith, List.isPrefixOf_iff_prefix, String.toList_append]
    exact List.prefix_append _ _
  rw [stripPrefix, if_pos hstarts, String.toList_append, List.drop_left, String.ofList_toList]

theorem stripPrefix_assignment (hkey : IsKey key) (hname : IsKey name) :
    stripPrefix (key ++ "=") (assignment (name, value)) =
      if name = key then some value else none := by
  split_ifs with h
  · rw [assignment, h, stripPrefix_append]
  · cases hstrip : stripPrefix (key ++ "=") (assignment (name, value)) with
    | none => rfl
    | some rest =>
      have hlist := stripPrefix_some hstrip
      have htext : assignment (name, value) = key ++ "=" ++ rest := by
        rw [← String.toList_inj, hlist, ← String.toList_append]
      have hsplit : splitOnce '=' (assignment (name, value)) = some (name, value) :=
        splitOnce_append rfl hname.equals
      rw [htext, splitOnce_append rfl hkey.equals] at hsplit
      exact absurd (congrArg Prod.fst (Option.some.inj hsplit)).symm h

theorem stripPrefix_eq_none (h : '=' ∉ line.toList) : stripPrefix (key ++ "=") line = none := by
  cases hstrip : stripPrefix (key ++ "=") line with
  | none => rfl
  | some rest =>
    refine absurd ?_ h
    rw [stripPrefix_some hstrip, String.toList_append]
    exact List.mem_append_left _ (List.mem_append_right _ List.mem_cons_self)

theorem fileLines_render :
    fileLines (render fields) = (fields.flatMap fun field ↦ fileLines (assignment field)) ++ [""] := by
  induction fields with
  | nil => rfl
  | cons field rest ih =>
    rw [render, fileLines, split_append rfl, ← fileLines, ← fileLines, ih, List.flatMap_cons,
      List.append_assoc]

theorem mem_of_mem_split {s piece : String} {c d : Char} (h : piece ∈ split c s)
    (hd : d ∈ piece.toList) : d ∈ s.toList := by
  obtain ⟨part, hpart, rfl⟩ := List.mem_map.mp h
  rw [String.toList_ofList] at hd
  rw [List.splitOn_eq_splitOnP] at hpart
  obtain ⟨before, after, hsplit, -⟩ := Words.mem_splitOnP.mp hpart
  rw [hsplit]
  exact List.mem_append_right _ (List.mem_append_left _ hd)

theorem fileLines_assignment (value : String) (hname : IsKey name) : ∃ first rest,
    fileLines (assignment (name, value)) = assignment (name, first) :: rest ∧
      (∀ line ∈ rest, ∀ c ∈ line.toList, c ∈ value.toList) ∧
      ('\n' ∉ value.toList → first = value ∧ rest = []) := by
  have hline {first : String} (hfirst : '\n' ∉ first.toList) :
      fileLines (assignment (name, first)) = [assignment (name, first)] := by
    refine split_eq_singleton ?_
    rw [assignment, String.toList_append, String.toList_append, List.mem_append, List.mem_append]
    rintro ((h | h) | h)
    · exact hname.newline h
    · exact absurd h (by decide)
    · exact hfirst h
  rcases dropWhile_ne value.toList '\n' with ⟨-, hnone⟩ | ⟨after, -, hsplit⟩
  · exact ⟨value, [], hline hnone, List.forall_mem_nil _, fun _ ↦ ⟨rfl, rfl⟩⟩
  · have hvalue : value = String.ofList (value.toList.takeWhile (· ≠ '\n')) ++ "\n" ++
        String.ofList after := by
      rw [← String.toList_inj, String.toList_append, String.toList_append, String.toList_ofList,
        String.toList_ofList, String.toList_ofList, List.append_assoc]
      exact hsplit.symm
    generalize hfirst : String.ofList (value.toList.takeWhile (· ≠ '\n')) = first at hvalue
    have hnone : '\n' ∉ first.toList := by
      rw [← hfirst, String.toList_ofList]
      intro hmem
      simpa using List.mem_takeWhile_imp hmem
    refine ⟨first, split '\n' (String.ofList after), ?_, fun line hmem c hc ↦ ?_, fun hplain ↦ ?_⟩
    · have htext : assignment (name, value) = assignment (name, first) ++ "\n" ++
          String.ofList after := by
        simp only [assignment, hvalue, String.append_assoc]
      rw [fileLines, htext, split_append rfl, ← fileLines, hline hnone]
      rfl
    · rw [hvalue, String.toList_append]
      exact List.mem_append_right _ (mem_of_mem_split hmem hc)
    · refine absurd ?_ hplain
      rw [hvalue, String.toList_append, String.toList_append]
      exact List.mem_append_left _ (List.mem_append_right _ (List.mem_singleton_self _))

/-- The value of a field may run over several lines where these cannot be taken for the key. -/
structure Plain (key : String) (field : String × String) : Prop where
  isKey : IsKey field.1
  oneLine : field.1 = key → '\n' ∉ field.2.toList
  silent : '\n' ∈ field.2.toList → '=' ∉ field.2.toList ∧ ∃ c ∈ key.toList, c ∉ field.2.toList

/-- A reader of lines that knows the assignments to a key. -/
structure Reads (key : String) (read : String → Option String) : Prop where
  assignment : ∀ name value, IsKey name →
    read (assignment (name, value)) = if name = key then some value else none
  other : ∀ line, '=' ∉ line.toList → line ≠ key → read line = none

theorem assigned_reads : Reads key (assigned key) :=
  ⟨fun _ _ ↦ assigned_of, fun _ ↦ assigned_eq_none⟩

theorem stripPrefix_reads (hkey : IsKey key) : Reads key (stripPrefix (key ++ "=")) :=
  ⟨fun _ _ ↦ stripPrefix_assignment hkey, fun _ h _ ↦ stripPrefix_eq_none h⟩

theorem filterMap_assignment {read : String → Option String} {field : String × String}
    (hread : Reads key read) (hplain : Plain key field) :
    (fileLines (assignment field)).filterMap read =
      if field.1 = key then [field.2] else [] := by
  obtain ⟨name, value⟩ := field
  obtain ⟨first, rest, hlines, hrest, hone⟩ := fileLines_assignment value hplain.isKey
  have hnone : rest.filterMap read = [] := by
    by_cases hvalue : '\n' ∈ value.toList
    · obtain ⟨hequals, c, hc, hcvalue⟩ := hplain.silent hvalue
      refine List.filterMap_eq_nil_iff.mpr fun line hline ↦ hread.other line ?_ ?_
      · exact fun h ↦ hequals (hrest line hline _ h)
      · rintro rfl
        exact hcvalue (hrest line hline c hc)
    · rw [(hone hvalue).2]
      rfl
  rw [hlines, List.filterMap_cons, hread.assignment name first hplain.isKey, hnone]
  split_ifs with hname
  · rw [(hone (hplain.oneLine hname)).1]
  · rfl

theorem filterMap_render {read : String → Option String} (hread : Reads key read) (hkey : key ≠ "")
    (hplain : ∀ field ∈ fields, Plain key field) :
    (fileLines (render fields)).filterMap read =
      (fields.filter (·.1 = key)).map Prod.snd := by
  rw [fileLines_render, List.filterMap_append, List.filterMap_cons,
    hread.other "" (List.not_mem_nil) hkey.symm, List.filterMap_nil, List.append_nil]
  induction fields with
  | nil => rfl
  | cons field rest ih =>
    rw [List.forall_mem_cons] at hplain
    rw [List.flatMap_cons, List.filterMap_append, filterMap_assignment hread hplain.1, ih hplain.2]
    by_cases hname : field.1 = key
    · rw [if_pos hname, List.filter_cons, if_pos (decide_eq_true hname)]
      rfl
    · rw [if_neg hname, List.filter_cons, if_neg (by simpa using hname)]
      rfl

theorem firstAssigned_render (hkey : key ≠ "") (hplain : ∀ field ∈ fields, Plain key field) :
    firstAssigned key (render fields) = ((fields.filter (·.1 = key)).map Prod.snd).head? := by
  rw [firstAssigned, ← filterMap_render assigned_reads hkey hplain, List.head?_filterMap]

theorem lastAssigned_render (hkey : IsKey key) (hne : key ≠ "")
    (hplain : ∀ field ∈ fields, Plain key field) :
    lastAssigned key (render fields) = ((fields.filter (·.1 = key)).map Prod.snd).getLast? := by
  rw [lastAssigned, filterMap_render (stripPrefix_reads hkey) hne hplain]

theorem mem_replaceFrom {pattern replacement l : List Char} {skip : ℕ} {c : Char}
    (h : c ∈ replaceFrom pattern replacement skip l) : c ∈ replacement ∨ c ∈ l := by
  induction l generalizing skip with
  | nil => cases skip <;> cases h
  | cons d l ih =>
    cases skip with
    | zero =>
      rw [replaceFrom] at h
      split_ifs at h
      · rcases List.mem_append.mp h with h | h
        · exact .inl h
        · exact (ih h).imp_right (List.mem_cons_of_mem d)
      · rcases List.mem_cons.mp h with rfl | h
        · exact .inr List.mem_cons_self
        · exact (ih h).imp_right (List.mem_cons_of_mem d)
    | succ skip => exact (ih h).imp_right (List.mem_cons_of_mem d)

theorem mem_quoted {s : String} {c : Char} (h : c ∈ (quoted s).toList) :
    c ∈ escapedQuote.toList ∨ c ∈ s.toList := by
  rw [quoted, String.toList_append, String.toList_append, List.mem_append, List.mem_append] at h
  rcases h with (h | h) | h
  · rw [List.mem_singleton.mp h]
    exact .inl List.mem_cons_self
  · rw [replace, String.toList_ofList] at h
    exact mem_replaceFrom h
  · rw [List.mem_singleton.mp h]
    exact .inl List.mem_cons_self

theorem replaceFrom_quote (l : List Char) :
    replaceFrom escapedQuote.toList ['\''] 0 (replaceFrom ['\''] escapedQuote.toList 0 l) = l := by
  induction l with
  | nil => rfl
  | cons c l ih =>
    by_cases hc : c = '\''
    · subst hc
      have hescape : replaceFrom ['\''] escapedQuote.toList 0 ('\'' :: l) =
          escapedQuote.toList ++ replaceFrom ['\''] escapedQuote.toList 0 l := by
        rw [replaceFrom, if_pos (by simp)]
        rfl
      -- the quote that was written is five characters, of which four are skipped
      have hread (rest : List Char) : replaceFrom escapedQuote.toList ['\''] 0
          (escapedQuote.toList ++ rest) = '\'' :: replaceFrom escapedQuote.toList ['\''] 0 rest := by
        have hprefix : escapedQuote.toList.isPrefixOf
            ('\'' :: '"' :: '\'' :: '"' :: '\'' :: rest) = true :=
          List.isPrefixOf_iff_prefix.mpr (List.prefix_append _ rest)
        change replaceFrom escapedQuote.toList ['\''] 0
          ('\'' :: '"' :: '\'' :: '"' :: '\'' :: rest) = _
        rw [replaceFrom, if_pos hprefix]
        rfl
      rw [hescape, hread, ih]
    · have hescape : replaceFrom ['\''] escapedQuote.toList 0 (c :: l) =
          c :: replaceFrom ['\''] escapedQuote.toList 0 l := by
        rw [replaceFrom, if_neg (by simp [Ne.symm hc])]
      have hplain : ¬escapedQuote.toList.isPrefixOf
          (c :: replaceFrom ['\''] escapedQuote.toList 0 l) = true := by
        intro hprefix
        obtain ⟨rest, hrest⟩ := List.isPrefixOf_iff_prefix.mp hprefix
        exact hc (List.cons.inj hrest).1.symm
      rw [hescape, replaceFrom, if_neg hplain, ih]

theorem unquoted_quotes (s : String) : unquoted ("'" ++ s ++ "'") = s := by
  have hdrop : dropPrefix "'" ("'" ++ s ++ "'") = s ++ "'" := by
    rw [dropPrefix, String.append_assoc, stripPrefix_append, Option.getD_some]
  have hlist : (s ++ "'").toList = s.toList ++ ['\''] := by
    rw [String.toList_append]
    rfl
  rw [unquoted, hdrop, dropLast, hlist, List.getLast?_concat, if_pos rfl, List.dropLast_concat,
    String.ofList_toList]

theorem replace_unquoted_quoted (s : String) :
    replace escapedQuote "'" (unquoted (quoted s)) = s := by
  have hquote : "'".toList = ['\''] := rfl
  rw [quoted, unquoted_quotes, replace, replace, hquote, String.toList_ofList, replaceFrom_quote,
    String.ofList_toList]

theorem unquoted_quoted {s : String} (h : '\'' ∉ s.toList) : unquoted (quoted s) = s := by
  have hsame (l : List Char) (h : '\'' ∉ l) :
      replaceFrom ['\''] escapedQuote.toList 0 l = l := by
    induction l with
    | nil => rfl
    | cons c l ih =>
      rw [List.mem_cons, not_or] at h
      obtain ⟨hc, hl⟩ := h
      rw [replaceFrom, if_neg (by simp [hc]), ih hl]
  have hquote : "'".toList = ['\''] := rfl
  rw [quoted, unquoted_quotes, replace, hquote, hsame s.toList h, String.ofList_toList]

end EnvFile

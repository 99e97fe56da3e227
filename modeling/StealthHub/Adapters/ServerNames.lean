import StealthHub.Adapters.Compatible
import StealthHub.Adapters.FileAdapters
import StealthHub.Adapters.Infrastructure
import StealthHub.Data.NginxLexer

set_option autoImplicit false

namespace StealthHub.Adapters

open Text Words

/-- The fields behind the first `server_name`. -/
def serverNameFields (statement : String) : List String :=
  let fields := splitWhitespace statement
  match fields.findIdx? (· = "server_name") with
  | some index => fields.drop (index + 1)
  | none => []

def nginxServerNames (content : String) : Finset String :=
  let uncommented := " ".intercalate ((lines content).map fun line ↦ (split '#' line).headD "")
  ((split ';' uncommented).flatMap serverNameFields).toFinset

/-- A directory entry of an enabled site: what `metadata` and `read_to_string` give for it. -/
structure EnabledSite where
  path : String
  metadata : Option (Bool × ℕ)
  content : Option String

def rejectDuplicateServerName (enabled : String)
    (directory : Except FileError (List (Except String EnabledSite))) (domain : String) :
    Except String Unit :=
  match directory with
  | .error .notFound => .ok ()
  | .error (.other _) => .error "read enabled Nginx sites"
  | .ok entries => entries.forM fun entry ↦ do
    let site ← entry
    if site.path = enabled then return ()
    let (isFile, len) ← site.metadata.elim
      (.error ("inspect enabled Nginx site " ++ site.path)) .ok
    if !isFile || maxNginxSiteBytes < len then
      .error "enabled Nginx site must be a bounded regular file"
    let content ← site.content.elim (.error ("read enabled Nginx site " ++ site.path)) .ok
    if domain ∈ nginxServerNames content then
      .error "subscription domain conflicts with another enabled Nginx site"

def serverName : List Char := "server_name".toList

/-- A `server_name` directive at any depth has the domain among its arguments. -/
def NamesServer (content domain : String) : Prop :=
  ∃ names, serverName :: names ∈ Nginx.directives [] (Nginx.tokens .between content.toList) ∧
    ∃ name ∈ names, eqIgnoreAsciiCase (String.ofList name) domain = true

def isGap (c : Char) : Bool := isWhitespace c || c = ';'

/-- Outside of what follows the first hash of a line, `server_name` and the domain stand alone
and in one statement. -/
structure Stated (content domain : String) (before between behind : List Char) : Prop where
  text : Nginx.uncommented false content.toList =
    before ++ (serverName ++ (between ++ (domain.toList ++ behind)))
  before : Closes isGap before
  between : between ≠ [] ∧ Opens isWhitespace between ∧ Closes isWhitespace between ∧ ';' ∉ between
  behind : Opens isGap behind

def Mentioned (content domain : String) : Prop :=
  ∃ before between behind, Stated content domain before between behind

section fields

def statements (l : List Char) : List (List (List Char)) :=
  (l.splitOn ';').map (words isWhitespace)

variable {a l r x y : List Char} {c : Char}

theorem statements_run (hx : Plain (· == ';') x) (hy : Opens (· == ';') y) :
    statements (x ++ y) = words isWhitespace x :: (statements y).tail := by
  rw [statements, statements, List.splitOn, List.splitOn]
  rcases hy.cases with rfl | ⟨y, c, rfl, hc⟩
  · rw [List.append_nil, List.splitOnP_eq_singleton hx]
    rfl
  · rw [List.splitOnP_append_cons_of_forall_mem hx c hc, ← List.nil_append (c :: y),
      List.splitOnP_append_cons_of_forall_mem (List.forall_mem_nil _) c hc]
    rfl

theorem statements_append (hc : (c == ';') = true) :
    statements (x ++ c :: y) = statements x ++ statements y := by
  obtain rfl := eq_of_beq hc
  rw [statements, List.splitOn, List.splitOnP_append_cons x y rfl, List.map_append]
  rfl

theorem Opens.white (h : Opens isGap (x ++ y)) (hx : Plain (· == ';') x) :
    Opens isWhitespace x := by
  intro c hc
  have hgap := h c (List.mem_head?_append_of_mem_head? hc)
  have hsemicolon := hx c (List.mem_of_mem_head? hc)
  simpa [isGap, beq_eq_false_iff_ne.mp hsemicolon] using hgap

theorem statements_blank (hc : isWhitespace c = true) (hy : Opens isGap y) :
    statements (x ++ c :: y) = statements (x ++ y) := by
  obtain ⟨y, rest, rfl, hplain, hrest⟩ := exists_plain (· == ';') y
  have hwhite := Opens.white hy hplain
  induction x using splitOnP_induction (· == ';') with
  | last x hx =>
    have hall : Plain (· == ';') (x ++ c :: y) := by
      intro d hd
      rcases List.mem_append.mp hd with hd | hd
      · exact hx d hd
      · rcases List.mem_cons.mp hd with rfl | hd
        · rw [beq_eq_false_iff_ne]
          rintro rfl
          cases hc
        · exact hplain d hd
    have hshort : Plain (· == ';') (x ++ y) := fun d hd ↦
      (List.mem_append.mp hd).elim (hx d) (hplain d)
    rw [← List.cons_append, ← List.append_assoc, ← List.append_assoc, statements_run hall hrest,
      statements_run hshort hrest, words_append_sep hc, words_opens hwhite]
  | more a d x _ hd ih =>
    rw [List.append_assoc, List.append_assoc, List.cons_append, List.cons_append,
      statements_append hd, statements_append hd, ih]

def cutLine (line : List Char) : List Char := line.takeWhile (!· == '#')

theorem cutLine_cons (hc : c ≠ '#') : cutLine (c :: l) = c :: cutLine l :=
  List.takeWhile_cons_of_pos (by simpa using hc)

theorem uncommented_hash (hline : '\n' ∉ l) :
    Nginx.uncommented true (l ++ y) = Nginx.uncommented true y := by
  induction l with
  | nil => rfl
  | cons c l ih =>
    rw [List.mem_cons, not_or] at hline
    rw [List.cons_append, Nginx.uncommented, if_neg (Ne.symm hline.1), Bool.true_or, if_pos rfl,
      ih hline.2]

theorem uncommented_line (hline : '\n' ∉ l) : Nginx.uncommented false (l ++ y) =
    cutLine l ++ Nginx.uncommented (decide ('#' ∈ l)) y := by
  induction l with
  | nil => rfl
  | cons c l ih =>
    rw [List.mem_cons, not_or] at hline
    by_cases hhash : c = '#'
    · subst hhash
      rw [decide_eq_true List.mem_cons_self]
      exact uncommented_hash hline.2
    · have hmem : decide ('#' ∈ c :: l) = decide ('#' ∈ l) := by
        simp [Ne.symm hhash]
      rw [List.cons_append, Nginx.uncommented_cons hhash (Ne.symm hline.1), ih hline.2,
        cutLine_cons hhash, hmem, List.cons_append]

theorem uncommented_lineEnd (hash : Bool) :
    Nginx.uncommented hash ('\n' :: l) = ' ' :: Nginx.uncommented false l := by
  rw [Nginx.uncommented, if_pos rfl]

theorem stripCarriageReturn_cases (r : List Char) :
    stripCarriageReturn r = r ∨ r = '\r' :: stripCarriageReturn r := by
  unfold stripCarriageReturn
  split
  · exact .inr rfl
  · exact .inl rfl

theorem cutLine_concat (hc : c ≠ '#') : cutLine (l ++ [c]) = cutLine l ++ [c] ∨
    cutLine (l ++ [c]) = cutLine l := by
  induction l with
  | nil => exact .inl (cutLine_cons hc)
  | cons d l ih =>
    by_cases hd : d = '#'
    · subst hd
      exact .inr rfl
    · rw [List.cons_append, cutLine_cons hd, cutLine_cons hd]
      exact ih.imp (congrArg (d :: ·)) (congrArg (d :: ·))

theorem statements_carriageReturn : statements (x ++ (cutLine r.reverse ++ ' ' :: y)) =
    statements (x ++ (cutLine (stripCarriageReturn r).reverse ++ ' ' :: y)) := by
  rcases stripCarriageReturn_cases r with h | h
  · rw [h]
  · generalize stripCarriageReturn r = line at h
    rw [h, List.reverse_cons]
    rcases cutLine_concat (l := line.reverse) (show '\r' ≠ '#' by decide) with hcut | hcut
    · rw [hcut, List.append_assoc, List.singleton_append, ← List.append_assoc,
        statements_blank rfl (opens_cons rfl), List.append_assoc]
    · rw [hcut]

theorem statements_intercalate (a : List Char) (rest : List (List Char)) :
    statements (x ++ [' '].intercalate (a :: rest)) =
      statements (x ++ (a ++ ' ' :: [' '].intercalate rest)) := by
  cases rest with
  | nil =>
    rw [List.intercalate_singleton, List.intercalate_nil, ← List.append_assoc,
      statements_blank rfl opens_nil, List.append_nil]
  | cons b rest => rw [List.intercalate_cons_cons, List.append_assoc, List.singleton_append]

theorem statements_lines (hline : '\n' ∉ r) :
    statements (x ++ [' '].intercalate ((linesFrom r l).map cutLine)) =
      statements (x ++ Nginx.uncommented false (r.reverse ++ l)) := by
  induction l generalizing r x with
  | nil =>
    rw [linesFrom, uncommented_line (by simpa using hline), Nginx.uncommented, List.append_nil]
    cases r with
    | nil => rfl
    | cons c r => rw [List.isEmpty_cons, if_neg Bool.false_ne_true, List.map_singleton,
        List.intercalate_singleton]
  | cons c l ih =>
    rw [linesFrom]
    split_ifs with hc
    · subst hc
      have hrest := ih (r := []) (x := x ++ (cutLine (stripCarriageReturn r).reverse ++ [' ']))
        List.not_mem_nil
      calc statements (x ++ [' '].intercalate
            ((stripCarriageReturn r).reverse :: linesFrom [] l |>.map cutLine))
          = statements (x ++ (cutLine (stripCarriageReturn r).reverse ++
              ' ' :: [' '].intercalate ((linesFrom [] l).map cutLine))) :=
            statements_intercalate _ _
        _ = statements (x ++ (cutLine (stripCarriageReturn r).reverse ++
              ' ' :: Nginx.uncommented false l)) := by
            simpa [List.append_assoc] using hrest
        _ = statements (x ++ (cutLine r.reverse ++ ' ' :: Nginx.uncommented false l)) :=
            statements_carriageReturn.symm
        _ = statements (x ++ Nginx.uncommented false (r.reverse ++ '\n' :: l)) := by
            rw [uncommented_line (by simpa using hline), uncommented_lineEnd]
    · rw [ih, List.reverse_cons, List.append_assoc, List.singleton_append]
      rw [List.mem_cons, not_or]
      exact ⟨Ne.symm hc, hline⟩

end fields

section names

variable {content domain : String} {a l x y : List Char} {c : Char}

theorem Closes.white (h : Closes isGap (x ++ y)) (hy : Plain (· == ';') y) :
    Closes isWhitespace y := by
  intro c hc
  have hgap := h.of_append (List.ne_nil_of_mem (List.mem_of_mem_getLast? hc)) c hc
  have hsemicolon := hy c (List.mem_of_mem_getLast? hc)
  simpa [isGap, beq_eq_false_iff_ne.mp hsemicolon] using hgap

theorem gap_of_white (hc : isWhitespace c = true) : isGap c = true := by
  rw [isGap, hc]
  rfl

theorem gap_of_semicolon (hc : (c == ';') = true) : isGap c = true := by
  obtain rfl := eq_of_beq hc
  rfl

theorem opens_gap (hx : Opens isWhitespace x) (hy : Opens (· == ';') y) : Opens isGap (x ++ y) := by
  rcases hx.cases with rfl | ⟨x, c, rfl, hc⟩
  · exact fun c hc ↦ gap_of_semicolon (hy c hc)
  · exact opens_cons (gap_of_white hc)

theorem closes_gap (hx : Closes (· == ';') x) (hy : Closes isWhitespace y) :
    Closes isGap (x ++ y) := by
  rcases hy.cases with rfl | ⟨y, c, rfl, hc⟩
  · rw [List.append_nil]
    exact fun c hc ↦ gap_of_semicolon (hx c hc)
  · rw [← List.append_assoc]
    exact closes_concat (gap_of_white hc)

theorem plain_append {sep : Char → Bool} :
    Plain sep (x ++ y) ↔ Plain sep x ∧ Plain sep y :=
  List.forall_mem_append

theorem plain_semicolon : Plain (· == ';') l ↔ ';' ∉ l := by
  simp only [Plain, beq_eq_false_iff_ne]
  exact ⟨fun h hmem ↦ h ';' hmem rfl, fun h c hc hsemicolon ↦ h (hsemicolon ▸ hc)⟩

theorem serverName_plain : Plain isWhitespace serverName ∧ Plain (· == ';') serverName := by
  decide

theorem mentioned_iff (hne : domain.toList ≠ []) (hplain : Plain isWhitespace domain.toList)
    (hsemicolon : ';' ∉ domain.toList) : Mentioned content domain ↔
      ∃ fields ∈ statements (Nginx.uncommented false content.toList),
        List.Sublist [serverName, domain.toList] fields := by
  constructor
  · rintro ⟨before, between, behind, h⟩
    obtain ⟨earlier, a, rfl, hearlier, ha⟩ := exists_last (· == ';') before
    obtain ⟨b, later, rfl, hb, hlater⟩ := exists_plain (· == ';') behind
    obtain ⟨hbetween, hopens, hcloses, hinside⟩ := h.between
    have hstatement : a ++ (serverName ++ (between ++ (domain.toList ++ b))) ∈
        (Nginx.uncommented false content.toList).splitOn ';' := by
      refine mem_splitOnP.mpr ⟨earlier, later, ?_, ?_, hearlier, hlater⟩
      · rw [h.text]
        simp only [List.append_assoc]
      · exact plain_append.mpr ⟨ha, plain_append.mpr ⟨serverName_plain.2, plain_append.mpr
          ⟨plain_semicolon.mpr hinside, plain_append.mpr ⟨plain_semicolon.mpr hsemicolon, hb⟩⟩⟩⟩
    refine ⟨_, List.mem_map_of_mem hstatement, cons_sublist_words.mpr ⟨a, _, rfl, by decide,
      serverName_plain.1, Closes.white h.before ha, ?_, cons_sublist_words.mpr ⟨between, b, rfl, hne, hplain,
        hcloses, Opens.white h.behind hb, List.nil_sublist _⟩⟩⟩
    obtain ⟨c, between, rfl⟩ := List.exists_cons_of_ne_nil hbetween
    exact opens_cons (hopens c rfl)
  · rintro ⟨fields, hfields, hsublist⟩
    obtain ⟨statement, hstatement, rfl⟩ := List.mem_map.mp hfields
    obtain ⟨earlier, later, htext, hstatement, hearlier, hlater⟩ := mem_splitOnP.mp hstatement
    obtain ⟨a, rest, rfl, -, -, ha, hrest, hsublist⟩ := cons_sublist_words.mp hsublist
    obtain ⟨between, b, rfl, -, -, hbetween, hb, -⟩ := cons_sublist_words.mp hsublist
    simp only [plain_append] at hstatement
    have hfilled : between ≠ [] := by
      rintro rfl
      obtain ⟨c, domain, hdomain⟩ := List.exists_cons_of_ne_nil hne
      rw [List.nil_append, hdomain] at hrest
      rw [hdomain] at hplain
      have hwhite := hplain c List.mem_cons_self
      rw [hrest c rfl] at hwhite
      cases hwhite
    refine ⟨earlier ++ a, between, b ++ later, ?_, closes_gap hearlier ha, ⟨hfilled, ?_, hbetween,
      plain_semicolon.mp hstatement.2.2.1⟩, opens_gap hb hlater⟩
    · rw [htext]
      simp only [List.append_assoc]
    · intro c hc
      exact hrest c (List.mem_head?_append_of_mem_head? hc)

theorem mem_drop_findIdx {α : Type} [DecidableEq α] {a b : α} {l : List α} :
    (∃ index, l.findIdx? (· = a) = some index ∧ b ∈ l.drop (index + 1)) ↔
      List.Sublist [a, b] l := by
  induction l with
  | nil => simp
  | cons c l ih =>
    by_cases hc : c = a
    · subst hc
      simp [List.findIdx?_cons]
    · rw [List.sublist_cons_iff]
      simp [List.findIdx?_cons, hc, ← ih, Ne.symm hc]

theorem sublist_ofList {u w : String} {ws : List (List Char)} :
    List.Sublist [u, w] (ws.map String.ofList) ↔ List.Sublist [u.toList, w.toList] ws := by
  have hnames : [u, w] = [u.toList, w.toList].map String.ofList := by
    rw [List.map_cons, List.map_singleton, String.ofList_toList, String.ofList_toList]
  rw [hnames, List.sublist_map_iff]
  constructor
  · rintro ⟨found, hsublist, hfound⟩
    rwa [List.map_injective_iff.mpr (fun _ _ ↦ String.ofList_inj.mp) hfound]
  · exact fun hsublist ↦ ⟨_, hsublist, rfl⟩

theorem mem_serverNameFields {statement : List Char} :
    domain ∈ serverNameFields (String.ofList statement) ↔
      List.Sublist [serverName, domain.toList] (words isWhitespace statement) := by
  have hfields : splitWhitespace (String.ofList statement) =
      (words isWhitespace statement).map String.ofList := by
    rw [splitWhitespace, String.toList_ofList]
    rfl
  have hmem : domain ∈ serverNameFields (String.ofList statement) ↔ List.Sublist
      ["server_name", domain] ((words isWhitespace statement).map String.ofList) := by
    rw [← mem_drop_findIdx, serverNameFields, hfields]
    split
    · next index hindex => simp [hindex]
    · next hnone => simp [hnone]
  rw [hmem, sublist_ofList]
  rfl

theorem mem_nginxServerNames : domain ∈ nginxServerNames content ↔
    ∃ fields ∈ statements (Nginx.uncommented false content.toList),
      List.Sublist [serverName, domain.toList] fields := by
  have hcut (line : List Char) : ((split '#' (String.ofList line)).headD "").toList =
      cutLine line := by
    rw [split, String.toList_ofList, cutLine, ← headD_splitOnP, List.splitOn]
    cases line.splitOnP (· == '#') with
    | nil => rfl
    | cons first _ => exact String.toList_ofList
  have htext : (" ".intercalate ((lines content).map fun line ↦ (split '#' line).headD "")).toList =
      [' '].intercalate ((linesFrom [] content.toList).map cutLine) := by
    rw [String.toList_intercalate, lines, List.map_map, List.map_map]
    congr 1
    exact List.map_congr_left fun line _ ↦ hcut line
  have hstatements := statements_lines (l := content.toList) (r := []) (x := []) List.not_mem_nil
  rw [List.reverse_nil, List.nil_append, List.nil_append, List.nil_append] at hstatements
  rw [nginxServerNames, List.mem_toFinset, List.mem_flatMap, ← hstatements, ← htext]
  constructor
  · rintro ⟨text, htext, hdomain⟩
    obtain ⟨statement, hstatement, rfl⟩ := List.mem_map.mp htext
    exact ⟨_, List.mem_map_of_mem hstatement, mem_serverNameFields.mp hdomain⟩
  · rintro ⟨fields, hfields, hsublist⟩
    obtain ⟨statement, hstatement, rfl⟩ := List.mem_map.mp hfields
    exact ⟨_, List.mem_map_of_mem hstatement, mem_serverNameFields.mpr hsublist⟩

end names

section duplicates

variable {content domain enabled : String} {site : EnabledSite}
variable {entries : List (Except String EnabledSite)}

theorem validDomain_chars (h : validateDomain domain = .ok ()) :
    ∀ c ∈ domain.toList, isAsciiAlphanumeric c = true ∨ c = '-' ∨ c = '.' := by
  intro c hc
  obtain ⟨-, hlabels⟩ := validateDomain_ok.mp h
  rcases mem_splitOn (a := '.') hc with hdot | ⟨label, hlabel, hc⟩
  · exact .inr (.inr hdot)
  · have hvalid := hlabels _ (List.mem_map_of_mem (f := String.ofList) hlabel)
    simp only [invalidDomainLabel, Bool.or_eq_false_iff, Bool.not_eq_false', String.toList_ofList,
      List.all_eq_true] at hvalid
    have hchar := hvalid.1.1.2 c hc
    rw [Bool.or_eq_true, decide_eq_true_eq] at hchar
    exact hchar.imp_right .inl

theorem validDomain_ne_nil (h : validateDomain domain = .ok ()) : domain.toList ≠ [] := by
  intro hnil
  obtain rfl : domain = "" := String.toList_inj.mp hnil
  cases h

theorem validDomain_plain (h : validateDomain domain = .ok ()) :
    Plain isWhitespace domain.toList ∧ ';' ∉ domain.toList := by
  constructor
  · intro c hc
    rcases validDomain_chars h c hc with hc | rfl | rfl
    · exact isAsciiAlphanumeric_not_whitespace hc
    · rfl
    · rfl
  · intro hc
    have hsemicolon := validDomain_chars h _ hc
    revert hsemicolon
    decide

theorem isWhitespace_of_blank (c : Char) (hc : Nginx.isBlank c = true) : isWhitespace c = true := by
  simp only [Nginx.isBlank, Bool.or_eq_true, decide_eq_true_eq] at hc
  rcases hc with ((rfl | rfl) | rfl) | rfl <;> rfl

theorem rejectDuplicateServerName_error (hsite : .ok site ∈ entries) (hpath : site.path ≠ enabled)
    (hcontent : site.content = some content) (hdomain : domain ∈ nginxServerNames content) :
    rejectDuplicateServerName enabled (.ok entries) domain ≠ .ok () := by
  intro h
  have hentry := Except.forM_eq_ok.mp h _ hsite
  obtain ⟨read, hread, hentry⟩ := Except.bind_eq_ok.mp hentry
  obtain rfl := Except.ok.inj hread
  rw [if_neg hpath] at hentry
  obtain ⟨⟨isFile, len⟩, -, hentry⟩ := Except.bind_eq_ok.mp hentry
  dsimp only at hentry
  split_ifs at hentry with hbounded
  · cases hentry
  obtain ⟨text, htext, hentry⟩ := Except.bind_eq_ok.mp hentry
  rw [hcontent] at htext
  obtain rfl := Except.ok.inj htext
  rw [if_pos hdomain] at hentry
  cases hentry

theorem mentioned_of_spaced (h : validateDomain domain = .ok ())
    (hspaced : Nginx.spaced (some ' ') content.toList = true) {names : List (List Char)}
    (hnames : serverName :: names ∈ Nginx.directives [] (Nginx.tokens .between content.toList))
    (hdomain : domain.toList ∈ names) : Mentioned content domain := by
  obtain ⟨hplain, hsemicolon⟩ := validDomain_plain h
  obtain ⟨statement, hstatement, hsublist⟩ :=
    Nginx.statement_of_directive isWhitespace_of_blank hspaced hnames
  refine (mentioned_iff (validDomain_ne_nil h) hplain hsemicolon).mpr
    ⟨_, List.mem_map_of_mem hstatement, List.Sublist.trans ?_ hsublist⟩
  have hwords : [serverName, domain.toList] =
      Nginx.plainWords isWhitespace [serverName, domain.toList] := by
    have hkeep : ∀ w ∈ [serverName, domain.toList], w.all (!isWhitespace ·) = true := by
      simp only [List.forall_mem_cons, List.all_eq_true]
      exact ⟨fun c hc ↦ by rw [serverName_plain.1 c hc]; rfl,
        fun c hc ↦ by rw [hplain c hc]; rfl, List.forall_mem_nil _⟩
    exact (List.filter_eq_self.mpr hkeep).symm
  rw [hwords]
  exact List.Sublist.filter _ (.cons_cons _ (List.singleton_sublist.mpr hdomain))

/-- A server name is found when it stands in the text as the scan by lines and semicolons wants
it, and in spaced files it does. -/
theorem server_names_found_iff (h : validateDomain domain = .ok ()) :
    ((NamesServer content domain → domain ∈ nginxServerNames content ∧
        ∀ enabled entries, (∃ site, .ok site ∈ entries ∧ site.path ≠ enabled ∧
          site.content = some content) →
            rejectDuplicateServerName enabled (.ok entries) domain ≠ .ok ()) ↔
      (NamesServer content domain → Mentioned content domain)) ∧
    (Nginx.spaced (some ' ') content.toList = true → (∃ names, domain.toList ∈ names ∧
      serverName :: names ∈ Nginx.directives [] (Nginx.tokens .between content.toList)) →
        Mentioned content domain) := by
  obtain ⟨hplain, hsemicolon⟩ := validDomain_plain h
  have hfound : domain ∈ nginxServerNames content ↔ Mentioned content domain := by
    rw [mem_nginxServerNames, mentioned_iff (validDomain_ne_nil h) hplain hsemicolon]
  refine ⟨⟨fun hnames hserver ↦ hfound.mp (hnames hserver).1, fun hmentioned hserver ↦ ?_⟩, ?_⟩
  · have hdomain := hfound.mpr (hmentioned hserver)
    refine ⟨hdomain, ?_⟩
    rintro enabled entries ⟨site, hsite, hpath, hcontent⟩
    exact rejectDuplicateServerName_error hsite hpath hcontent hdomain
  · rintro hspaced ⟨names, hdomain, hnames⟩
    exact mentioned_of_spaced h hspaced hnames hdomain

theorem server_names_found_example :
    Mentioned "server_name a.b;" "a.b" ∧ "a.b" ∈ nginxServerNames "server_name a.b;" ∧
      ∀ enabled entries, (∃ site, .ok site ∈ entries ∧ site.path ≠ enabled ∧
        site.content = some "server_name a.b;") →
          rejectDuplicateServerName enabled (.ok entries) "a.b" ≠ .ok () := by
  have hdirective : serverName :: ["a.b".toList] ∈
      Nginx.directives [] (Nginx.tokens .between "server_name a.b;".toList) := by decide
  obtain ⟨hfound, hspaced⟩ := @server_names_found_iff "server_name a.b;" "a.b" (by decide)
  have hmentioned := hspaced (by decide) ⟨_, List.mem_singleton_self _, hdirective⟩
  have hnames : NamesServer "server_name a.b;" "a.b" :=
    ⟨_, hdirective, _, List.mem_singleton_self _, by decide⟩
  exact ⟨hmentioned, hfound.mpr (fun _ ↦ hmentioned) hnames⟩

theorem braced_name_missed : ¬∀ content domain, validateDomain domain = .ok () →
    NamesServer content domain → domain ∈ nginxServerNames content := by
  intro h
  refine absurd (h "server {server_name a.b;}" "a.b" (by decide) ⟨["a.b".toList], ?_, _,
    List.mem_singleton_self _, by decide⟩) (by decide)
  decide

end duplicates

end StealthHub.Adapters

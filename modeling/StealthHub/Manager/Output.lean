import StealthHub.Data.Text

set_option autoImplicit false

namespace StealthHub.Manager

open Text

def redactedLine : String := "[credential-bearing line redacted]"

def credentialWords : List String :=
  ["password", "token", "authorization:", "/sub/", "private_key", "private-key", "private key",
    "cookie", "secret value", "uuid"]

def isAsciiHexdigit (c : Char) : Bool :=
  isAsciiDigit c || ('a' ≤ c && c ≤ 'f') || ('A' ≤ c && c ≤ 'F')

def isHyphenIndex (index : ℕ) : Bool := index = 8 || index = 13 || index = 18 || index = 23

def trimMatches (p : Char → Bool) (s : String) : String :=
  String.ofList ((s.toList.dropWhile p).reverse.dropWhile p).reverse

def looksLikeUuid (word : String) : Bool :=
  let value := trimMatches (fun c ↦ !isAsciiHexdigit c && c != '-') word
  len value = 36 &&
    value.toList.zipIdx.all fun (c, index) ↦
      if isHyphenIndex index then c == '-' else isAsciiHexdigit c

def opensPem (line : String) : Bool := contains (toAsciiLowercase line) "-----begin "

def closesPem (line : String) : Bool := contains (toAsciiLowercase line) "-----end "

def bearsWord (line : String) : Bool := credentialWords.any (contains (toAsciiLowercase line) ·)

def bearsCredential (line : String) : Bool :=
  bearsWord line || (splitWhitespace line).any looksLikeUuid

def visible (line : String) : String :=
  String.ofList ((line.toList.filter (!isControl ·)).take 1000)

def nextPem (pem : Bool) (line : String) : Bool := (pem || opensPem line) && !closesPem line

def safeLine (pem : Bool) (line : String) : String :=
  if pem || opensPem line || closesPem line || bearsCredential line then redactedLine
  else visible line

def safeLines (pem : Bool) : List String → List String
  | [] => []
  | line :: rest => safeLine pem line :: safeLines (nextPem pem line) rest

def safeOutput (raw : String) : String := joinLines (safeLines false ((lines raw).take 600))

/-- How a command ends. -/
inductive Outcome
  | unavailable (message : String)
  | timedOut
  /-- With its status, where it has one, and what was kept of its two streams. -/
  | exited (code : Option ℤ) (out err : String)

/-- An outcome but for what was printed: whether a command that ended has succeeded. -/
def Outcome.withheld : Outcome → Outcome
  | exited code _ _ => exited (if code = some 0 then some 0 else none) "" ""
  | outcome => outcome

def sensitiveFailure : String :=
  "Operation failed; sensitive output was withheld. Verify service state before retrying."

def sensitiveSuccess : String :=
  "Operation completed. Sensitive output withheld; refresh status to verify."

/-- What `run` tells of a command. -/
def report (sensitive : Bool) : Outcome → Except String String
  | .unavailable message => .error message
  | .timedOut => .error "Operation timed out; inspect state before retrying"
  | .exited code out err =>
    if sensitive then
      if code ≠ some 0 then .error sensitiveFailure else .ok sensitiveSuccess
    else
      let output := safeOutput (out ++ "\n" ++ err)
      if code ≠ some 0 then
        .error ("Operation failed (" ++ toString (code.getD (-1)) ++ ").\n" ++ output)
      else .ok output

section Lines

variable {pem : Bool} {line raw : String} {before block after : List String}

theorem safeLines_length (pem : Bool) (ls : List String) :
    (safeLines pem ls).length = ls.length := by
  induction ls generalizing pem with
  | nil => rfl
  | cons line rest ih => rw [safeLines, List.length_cons, ih, List.length_cons]

theorem safeLines_append (pem : Bool) (before after : List String) :
    safeLines pem (before ++ after) =
      safeLines pem before ++ safeLines (before.foldl nextPem pem) after := by
  induction before generalizing pem with
  | nil => rfl
  | cons line rest ih => rw [List.cons_append, safeLines, ih, safeLines, List.foldl_cons]; rfl

theorem safeLines_inside (h : ∀ line ∈ block.dropLast, closesPem line = false) :
    safeLines true block = List.replicate block.length redactedLine := by
  induction block with
  | nil => rfl
  | cons line rest ih =>
    have hline : safeLine true line = redactedLine := by simp [safeLine]
    rw [safeLines, hline, List.length_cons, List.replicate_succ]
    congr 1
    cases rest with
    | nil => rfl
    | cons next rest =>
      rw [List.dropLast_cons_cons] at h
      obtain ⟨hopen, hrest⟩ := List.forall_mem_cons.mp h
      have hnext : nextPem true line = true := by simp [nextPem, hopen]
      rw [hnext]
      exact ih hrest

theorem safeLines_block (hopens : ∃ line ∈ block.head?, opensPem line = true)
    (h : ∀ line ∈ block.dropLast, closesPem line = false) :
    safeLines pem block = List.replicate block.length redactedLine := by
  obtain ⟨opening, hopening, hopens⟩ := hopens
  cases block with
  | nil => cases hopening
  | cons line rest =>
    obtain rfl : line = opening := Option.some.inj hopening
    have hsame : safeLines pem (line :: rest) = safeLines true (line :: rest) := by
      simp [safeLines, safeLine, nextPem, hopens]
    rw [hsame]
    exact safeLines_inside h

/-- A block of armour, closed or cut short, does not reach the terminal. -/
theorem pem_redacted (raw : String) (before block after : List String)
    (hlines : (lines raw).take 600 = before ++ block ++ after)
    (hopens : ∃ line ∈ block.head?, opensPem line = true)
    (hinside : ∀ line ∈ block.dropLast, closesPem line = false) :
    ∃ shown rest, safeOutput raw =
        joinLines (shown ++ List.replicate block.length redactedLine ++ rest) ∧
      shown.length = before.length ∧ rest.length = after.length := by
  refine ⟨safeLines false before, safeLines ((before ++ block).foldl nextPem false) after, ?_,
    safeLines_length _ _, safeLines_length _ _⟩
  rw [safeOutput, hlines, safeLines_append, safeLines_append, safeLines_block hopens hinside]

theorem pem_redacted_key : ∃ shown rest,
    safeOutput "a\n-----BEGIN KEY-----\nb\n-----END KEY-----\nc" =
        joinLines (shown ++ List.replicate 3 redactedLine ++ rest) ∧
      shown.length = 1 ∧ rest.length = 1 :=
  pem_redacted "a\n-----BEGIN KEY-----\nb\n-----END KEY-----\nc" ["a"]
    ["-----BEGIN KEY-----", "b", "-----END KEY-----"] ["c"] (by decide)
    ⟨"-----BEGIN KEY-----", rfl, by decide⟩ (by decide)

theorem mem_safeLines {piece : String} {ls : List String} (h : piece ∈ safeLines pem ls) :
    piece = redactedLine ∨ ∃ line ∈ ls, piece = visible line ∧ bearsCredential line = false := by
  induction ls generalizing pem with
  | nil => cases h
  | cons line rest ih =>
    rcases List.mem_cons.mp h with rfl | h
    · unfold safeLine
      split_ifs with hredacted
      · exact .inl rfl
      · simp only [Bool.or_eq_true, not_or, Bool.not_eq_true] at hredacted
        exact .inr ⟨line, List.mem_cons_self, rfl, hredacted.2⟩
    · refine (ih h).imp_right ?_
      rintro ⟨other, hother, hpiece⟩
      exact ⟨other, List.mem_cons_of_mem _ hother, hpiece⟩

/-- A line that a terminal can be given. -/
structure Presentable (piece : String) : Prop where
  bounded : piece.toList.length ≤ 1000
  plain : ∀ c ∈ piece.toList, isControl c = false

theorem presentable_redacted : Presentable redactedLine := by
  have hplain : redactedLine.toList.all (!isControl ·) = true := by decide
  exact ⟨by decide, by simpa using hplain⟩

theorem presentable_visible (line : String) : Presentable (visible line) where
  bounded := by
    rw [visible, String.toList_ofList]
    exact List.length_take_le _ _
  plain c hc := by
    rw [visible, String.toList_ofList] at hc
    simpa using (List.mem_filter.mp (List.mem_of_mem_take hc)).2

theorem bearsWord_redacted : bearsWord redactedLine = false := by decide

theorem bearsWord_visible (hplain : ∀ c ∈ line.toList, isControl c = false)
    (h : bearsWord line = false) : bearsWord (visible line) = false := by
  rw [bearsWord, List.any_eq_false] at h ⊢
  intro word hword hshown
  apply h word hword
  rw [contains, containsList_iff] at hshown ⊢
  have hfilter : line.toList.filter (!isControl ·) = line.toList :=
    List.filter_eq_self.mpr fun c hc ↦ by simp [hplain c hc]
  rw [toAsciiLowercase, String.toList_ofList, visible, String.toList_ofList, hfilter,
    List.map_take] at hshown
  rw [toAsciiLowercase, String.toList_ofList]
  exact hshown.trans (List.take_prefix _ _).isInfix

/-- The output is of few lines that a terminal can be given, and a word that marks a credential is
on one of them only where a control character had kept it apart. -/
theorem safeOutput_clean (raw : String) :
    ∃ shown, safeOutput raw = joinLines shown ∧ shown.length ≤ 600 ∧
      (∀ piece ∈ shown, Presentable piece) ∧
      ∀ piece ∈ shown, bearsWord piece = true → ∃ line ∈ lines raw, piece = visible line ∧
        bearsWord line = false ∧ ∃ c ∈ line.toList, isControl c = true := by
  refine ⟨safeLines false ((lines raw).take 600), rfl, ?_, fun piece hpiece ↦ ?_,
    fun piece hpiece hbears ↦ ?_⟩
  · rw [safeLines_length]
    exact List.length_take_le _ _
  · rcases mem_safeLines hpiece with rfl | ⟨line, -, rfl, -⟩
    · exact presentable_redacted
    · exact presentable_visible line
  · rcases mem_safeLines hpiece with rfl | ⟨line, hline, rfl, hcredential⟩
    · rw [bearsWord_redacted] at hbears
      cases hbears
    · rw [bearsCredential, Bool.or_eq_false_iff] at hcredential
      refine ⟨line, List.mem_of_mem_take hline, rfl, hcredential.1, ?_⟩
      by_contra hnone
      have hplain : ∀ c ∈ line.toList, isControl c = false := by
        intro c hc
        rw [← Bool.not_eq_true]
        exact fun hcontrol ↦ hnone ⟨c, hc, hcontrol⟩
      rw [bearsWord_visible hplain hcredential.1] at hbears
      cases hbears

example : safeOutput "a\npass\x01word=b" = "a\npassword=b" := by decide

end Lines

end StealthHub.Manager

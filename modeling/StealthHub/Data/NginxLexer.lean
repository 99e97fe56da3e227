import StealthHub.Data.Words

set_option autoImplicit false

namespace Nginx

open Words

def isBlank (c : Char) : Bool := c = ' ' || c = '\t' || c = '\r' || c = '\n'

def isBrace (c : Char) : Bool := c = '{' || c = '}'

def endsToken (c : Char) : Bool := isBlank c || c = ';' || isBrace c

def isQuote (c : Char) : Bool := c = '"' || c = '\''

inductive Token
  | word (text : List Char)
  | semicolon
  | brace

/-- Where a scan stands: between two tokens, in a comment, in a word, or in a quoted token. -/
inductive Scan
  | between
  | comment
  | word (text : List Char)
  | quoted (mark : Char) (text : List Char)

def mark (c : Char) : List Token :=
  if c = ';' then [.semicolon] else if isBrace c then [.brace] else []

def tokens : Scan → List Char → List Token
  | .word text, [] => [.word text]
  | _, [] => []
  | .between, c :: l =>
    if endsToken c then mark c ++ tokens .between l
    else if c = '#' then tokens .comment l
    else if isQuote c then tokens (.quoted c []) l
    else tokens (.word [c]) l
  | .comment, c :: l => tokens (if c = '\n' then .between else .comment) l
  | .word text, c :: l =>
    if endsToken c then .word text :: (mark c ++ tokens .between l)
    else tokens (.word (text ++ [c])) l
  | .quoted opening text, c :: l =>
    if c = opening then .word text :: tokens .between l
    else tokens (.quoted opening (text ++ [c])) l

/-- The simple directives at any depth, each with its arguments. A brace ends the head of a
block, or the block. -/
def directives (ws : List (List Char)) : List Token → List (List (List Char))
  | [] => []
  | .word text :: rest => directives (ws ++ [text]) rest
  | .semicolon :: rest => ws :: directives [] rest
  | .brace :: rest => directives [] rest

/-- What a text is without the part of each line from its first hash on, with blanks for line
ends; `hash` behind such a hash. -/
def uncommented (hash : Bool) : List Char → List Char
  | [] => []
  | c :: l =>
    if c = '\n' then ' ' :: uncommented false l
    else if hash || c = '#' then uncommented true l
    else c :: uncommented false l

/-- Outside of comments no quotes, hashes only at the start of a token, and nothing but the end
of a token behind a brace; `previous` is the character before, nothing in a comment. -/
def spaced : Option Char → List Char → Bool
  | _, [] => true
  | none, c :: l => spaced (if c = '\n' then some c else none) l
  | some previous, c :: l =>
    if c = '#' then endsToken previous && spaced none l
    else !isQuote c && (!isBrace previous || endsToken c) && spaced (some c) l

def Scan.words (ws : List (List Char)) : Scan → List (List Char)
  | .word text => ws ++ [text]
  | _ => ws

def plainWords (white : Char → Bool) (ws : List (List Char)) : List (List Char) :=
  ws.filter (·.all (!white ·))

/-- `p` is what a statement says before the rest of the text is read. -/
inductive Tracks (white : Char → Bool) (ws : List (List Char)) (p : List Char) :
    Scan → Option Char → Prop
  | between {c : Char} (hc : endsToken c = true)
      (hws : List.Sublist (plainWords white ws) (words white p))
      (hp : Closes white p ∨ (isBrace c = true ∧ ws = [])) : Tracks white ws p .between (some c)
  | comment (hws : List.Sublist (plainWords white ws) (words white p)) :
      Tracks white ws p .comment none
  | word {text before : List Char} {c : Char} (hc : endsToken c = false) (hp : p = before ++ text)
      (hne : text ≠ []) (hbefore : Closes white before)
      (hws : List.Sublist (plainWords white ws) (words white before)) :
      Tracks white ws p (.word text) (some c)

variable {white : Char → Bool} {c : Char} {l p text : List Char} {ws : List (List Char)}
variable {scan : Scan} {previous : Option Char} {directive : List (List Char)}

theorem plainWords_append (ws us : List (List Char)) :
    plainWords white (ws ++ us) = plainWords white ws ++ plainWords white us :=
  List.filter_append ws us

theorem plainWords_sublist_words (hne : text ≠ []) :
    List.Sublist (plainWords white [text]) (words white text) := by
  by_cases hplain : text.all (!white ·) = true
  · have hw : Plain white text := by
      intro c hc
      simpa using List.all_eq_true.mp hplain c hc
    rw [words_plain hne hw]
    exact List.filter_sublist
  · simp [plainWords, hplain]

theorem Tracks.sublist (h : Tracks white ws p scan previous) :
    List.Sublist (plainWords white (scan.words ws)) (words white p) := by
  cases h with
  | between hc hws hp => exact hws
  | comment hws => exact hws
  | word hc hp hne hbefore hws =>
    rw [hp, Scan.words, plainWords_append, words_closes hbefore]
    exact hws.append (plainWords_sublist_words hne)

theorem words_concat (hc : white c = true) : words white (p ++ [c]) = words white p := by
  rw [words_append_sep hc, words_nil, List.append_nil]

theorem directives_endsToken (h : Tracks white ws p scan previous) (hprevious : previous ≠ none)
    (hc : endsToken c = true) : directives ws (tokens scan (c :: l)) =
      directives (scan.words ws) (mark c ++ tokens .between l) := by
  cases h with
  | between => rw [tokens, if_pos hc]; rfl
  | comment => exact absurd rfl hprevious
  | word => rw [tokens, if_pos hc]; rfl

theorem mem_splitOn_first (hp : ';' ∉ p) : p ∈ (p ++ ';' :: l).splitOn ';' := by
  have hplain : ∀ c ∈ p, (c == ';') = false := by
    intro c hc
    rw [beq_eq_false_iff_ne]
    rintro rfl
    exact hp hc
  rw [List.splitOn, List.splitOnP_append_cons_of_forall_mem hplain ';' rfl]
  exact List.mem_cons_self

theorem splitOn_later {q : List Char} (h : q ∈ l.splitOn ';') :
    q ∈ (p ++ ';' :: l).splitOn ';' := by
  rw [List.splitOn, List.splitOnP_append_cons p l rfl]
  exact List.mem_append_right _ h

theorem uncommented_cons (hhash : c ≠ '#') (hline : c ≠ '\n') :
    uncommented false (c :: l) = c :: uncommented false l := by
  rw [uncommented, if_neg hline, if_neg (by simpa using hhash)]

theorem spaced_cons {c₀ : Char} (hhash : c ≠ '#') (h : spaced (some c₀) (c :: l) = true) :
    isQuote c = false ∧ (isBrace c₀ = true → endsToken c = true) ∧ spaced (some c) l = true := by
  rw [spaced, if_neg hhash] at h
  simp only [Bool.and_eq_true, Bool.not_eq_true', Bool.or_eq_true] at h
  obtain ⟨⟨hquote, hbrace⟩, hl⟩ := h
  refine ⟨hquote, fun hc₀ ↦ hbrace.resolve_left ?_, hl⟩
  rw [hc₀]
  decide

theorem mark_blank (hc : isBlank c = true) : mark c = [] := by
  simp only [isBlank, Bool.or_eq_true, decide_eq_true_eq] at hc
  rcases hc with ((rfl | rfl) | rfl) | rfl <;> rfl

theorem mark_brace (hc : isBrace c = true) : mark c = [.brace] := by
  simp only [isBrace, Bool.or_eq_true, decide_eq_true_eq] at hc
  rcases hc with rfl | rfl <;> rfl

theorem endsToken_cases (hc : endsToken c = true) :
    isBlank c = true ∨ c = ';' ∨ isBrace c = true := by
  simpa [endsToken, or_assoc] using hc

theorem Tracks.blank {d : Char} (h : Tracks white ws p scan previous) (hc : isBlank c = true)
    (hd : white d = true) : Tracks white (scan.words ws) (p ++ [d]) .between (some c) := by
  refine .between ?_ ?_ (.inl (closes_concat hd))
  · rw [endsToken, hc]
    rfl
  · rw [words_concat hd]
    exact h.sublist

theorem tracks_nil (hc : endsToken c = true) (h : Closes white p ∨ isBrace c = true) :
    Tracks white [] p .between (some c) :=
  .between hc (List.nil_sublist _) (h.imp_right fun hc ↦ ⟨hc, rfl⟩)

theorem Tracks.letter {c₀ : Char} (h : Tracks white ws p scan (some c₀))
    (hc : endsToken c = false) (hquote : isQuote c = false) (hhash : c ≠ '#')
    (hbrace : isBrace c₀ = true → endsToken c = true) : ∃ scan',
      Tracks white ws (p ++ [c]) scan' (some c) ∧ tokens scan (c :: l) = tokens scan' l := by
  cases h with
  | between hc₀ hws hp =>
    refine ⟨.word [c], .word hc rfl (List.cons_ne_nil c []) ?_ hws, ?_⟩
    · refine hp.resolve_right fun h ↦ ?_
      rw [hbrace h.1] at hc
      cases hc
    · rw [tokens, hc, if_neg Bool.false_ne_true, if_neg hhash, hquote, if_neg Bool.false_ne_true]
  | @word text before _ hc₀ hp hne hbefore hws =>
    refine ⟨.word (text ++ [c]), .word hc ?_ (List.append_ne_nil_of_right_ne_nil text (List.cons_ne_nil c [])) hbefore hws, ?_⟩
    · rw [hp, List.append_assoc]
    · rw [tokens, hc, if_neg Bool.false_ne_true]

theorem Tracks.statement (hblank : ∀ c, isBlank c = true → white c = true)
    (h : Tracks white ws p scan previous) (hp : ';' ∉ p) (hspaced : spaced previous l = true)
    (hdirective : directive ∈ directives ws (tokens scan l)) :
    ∃ statement ∈ (p ++ uncommented previous.isNone l).splitOn ';',
      List.Sublist (plainWords white directive) (words white statement) := by
  induction l generalizing scan previous ws p with
  | nil =>
    cases h with
    | between => cases hdirective
    | comment => cases hdirective
    | word => cases hdirective
  | cons c l ih =>
    have later {d : Char} (hd : d ≠ ';') : ';' ∉ p ++ [d] := by
      rw [List.mem_append, List.mem_singleton]
      exact fun h ↦ h.elim hp fun h ↦ hd h.symm
    -- a character that stays, or a line end
    have hstep {scan' : Scan} {ws' : List (List Char)} {d : Char}
        (h' : Tracks white ws' (p ++ [d]) scan' (some c)) (hd : d ≠ ';')
        (hspaced : spaced (some c) l = true)
        (hdirective : directive ∈ directives ws' (tokens scan' l))
        (hcut : uncommented previous.isNone (c :: l) = d :: uncommented false l) :
        ∃ statement ∈ (p ++ uncommented previous.isNone (c :: l)).splitOn ';',
          List.Sublist (plainWords white directive) (words white statement) := by
      have hrest := ih h' (later hd) hspaced hdirective
      rwa [List.append_assoc, List.singleton_append, Option.isNone_some, ← hcut] at hrest
    cases previous with
    | none =>
      cases h with
      | comment hws =>
        by_cases hline : c = '\n'
        · subst hline
          exact hstep (Tracks.blank (.comment hws) rfl (hblank ' ' rfl)) (by decide) hspaced
            hdirective rfl
        · rw [spaced, if_neg hline] at hspaced
          rw [tokens, if_neg hline] at hdirective
          have hcut : uncommented true (c :: l) = uncommented true l := by
            rw [uncommented, if_neg hline, Bool.true_or, if_pos rfl]
          rw [Option.isNone_none, hcut]
          exact ih (.comment hws) hp hspaced hdirective
    | some c₀ =>
      by_cases hhash : c = '#'
      · subst hhash
        rw [spaced, if_pos rfl, Bool.and_eq_true] at hspaced
        cases h with
        | between hc hws =>
          exact ih (.comment hws) hp hspaced.2 hdirective
        | word hc =>
          rw [hc] at hspaced
          exact absurd hspaced.1 Bool.false_ne_true
      · obtain ⟨hquote, hbrace, hspaced⟩ := spaced_cons hhash hspaced
        by_cases hend : endsToken c = true
        · rw [directives_endsToken h (by simp) hend] at hdirective
          rcases endsToken_cases hend with hc | rfl | hc
          · rw [mark_blank hc, List.nil_append] at hdirective
            by_cases hline : c = '\n'
            · subst hline
              exact hstep (h.blank hc (hblank ' ' rfl)) (by decide) hspaced hdirective rfl
            · refine hstep (h.blank hc (hblank c hc)) ?_ hspaced hdirective
                (uncommented_cons hhash hline)
              rintro rfl
              cases hc
          · rw [Option.isNone_some, uncommented_cons hhash (by decide)]
            rcases List.mem_cons.mp hdirective with rfl | hdirective
            · exact ⟨p, mem_splitOn_first hp, h.sublist⟩
            · obtain ⟨statement, hstatement, hsublist⟩ := ih (tracks_nil hend (.inl closes_nil))
                List.not_mem_nil hspaced hdirective
              exact ⟨statement, splitOn_later hstatement, hsublist⟩
          · rw [mark_brace hc] at hdirective
            refine hstep (tracks_nil hend (.inr hc)) ?_ hspaced hdirective
              (uncommented_cons hhash ?_)
            · rintro rfl
              cases hc
            · rintro rfl
              cases hc
        · obtain ⟨scan', h', htokens⟩ := h.letter (by simpa using hend) hquote hhash hbrace
          rw [htokens] at hdirective
          refine hstep h' ?_ hspaced hdirective (uncommented_cons hhash ?_)
          · rintro rfl
            exact hend rfl
          · rintro rfl
            exact hend rfl

theorem statement_of_directive (hblank : ∀ c, isBlank c = true → white c = true)
    (hspaced : spaced (some ' ') l = true) (h : directive ∈ directives [] (tokens .between l)) :
    ∃ statement ∈ (uncommented false l).splitOn ';',
      List.Sublist (plainWords white directive) (words white statement) :=
  Tracks.statement hblank (tracks_nil rfl (.inl closes_nil)) List.not_mem_nil hspaced h

end Nginx

import Mathlib.Algebra.GroupWithZero.Nat
import Mathlib.Data.Nat.Notation
import Mathlib.Data.List.Basic
import Mathlib.Data.List.TakeWhile
import Mathlib.Tactic.Cases

set_option autoImplicit false

namespace Text

/-- Unicode `White_Space`. -/
def isWhitespace (c : Char) : Bool :=
  let n := c.toNat
  (9 ≤ n && n ≤ 13) || n = 0x20 || n = 0x85 || n = 0xa0 || n = 0x1680 ||
    (0x2000 ≤ n && n ≤ 0x200a) || n = 0x2028 || n = 0x2029 || n = 0x202f || n = 0x205f ||
    n = 0x3000

/-- Unicode category `Cc`. -/
def isControl (c : Char) : Bool := c.toNat < 0x20 || (0x7f ≤ c.toNat && c.toNat ≤ 0x9f)

def isAsciiDigit (c : Char) : Bool := '0' ≤ c && c ≤ '9'

def isAsciiLowercase (c : Char) : Bool := 'a' ≤ c && c ≤ 'z'

def isAsciiUppercase (c : Char) : Bool := 'A' ≤ c && c ≤ 'Z'

def isAsciiAlphanumeric (c : Char) : Bool :=
  isAsciiLowercase c || isAsciiUppercase c || isAsciiDigit c

def lowerChar (c : Char) : Char := if isAsciiUppercase c then Char.ofNat (c.toNat + 32) else c

def toAsciiLowercase (s : String) : String := String.ofList (s.toList.map lowerChar)

def eqIgnoreAsciiCase (s t : String) : Bool := toAsciiLowercase s = toAsciiLowercase t

/-- Length in bytes of the UTF-8 encoding. -/
def len (s : String) : ℕ := s.utf8ByteSize

def isEmpty (s : String) : Bool := s.toList.isEmpty

def trimList (l : List Char) : List Char :=
  ((l.dropWhile isWhitespace).reverse.dropWhile isWhitespace).reverse

def trim (s : String) : String := String.ofList (trimList s.toList)

/-- The pieces between occurrences of a separator, at least one. -/
def split (c : Char) (s : String) : List String := (s.toList.splitOn c).map String.ofList

def splitWhitespace (s : String) : List String :=
  ((s.toList.splitOnP isWhitespace).filter (!·.isEmpty)).map String.ofList

def splitOnce (c : Char) (s : String) : Option (String × String) :=
  match s.toList.dropWhile (· ≠ c) with
  | [] => none
  | _ :: rest => some (String.ofList (s.toList.takeWhile (· ≠ c)), String.ofList rest)

def rsplitOnce (c : Char) (s : String) : Option (String × String) :=
  match s.toList.reverse.dropWhile (· ≠ c) with
  | [] => none
  | _ :: rest => some (String.ofList rest.reverse,
      String.ofList (s.toList.reverse.takeWhile (· ≠ c)).reverse)

/-- `u16::from_str`: decimal digits, after a plus sign or none. -/
def parseU16 (s : String) : Option ℕ :=
  let digits := if s.toList.head? = some '+' then s.toList.tail else s.toList
  let value := digits.foldl (fun n c ↦ 10 * n + (c.toNat - 48)) 0
  if !digits.isEmpty && digits.all isAsciiDigit && value ≤ 65535 then some value else none

def startsWith (s p : String) : Bool := p.toList.isPrefixOf s.toList

def endsWith (s p : String) : Bool := p.toList.isSuffixOf s.toList

def stripPrefix (p s : String) : Option String :=
  if startsWith s p then some (String.ofList (s.toList.drop p.toList.length)) else none

def containsChar (s : String) (c : Char) : Bool := s.toList.contains c

def containsList (t : List Char) : List Char → Bool
  | [] => t.isEmpty
  | c :: l => t.isPrefixOf (c :: l) || containsList t l

def contains (s t : String) : Bool := containsList t.toList s.toList

def trimEndMatches (c : Char) (s : String) : String :=
  String.ofList (s.toList.reverse.dropWhile (· = c)).reverse

def stripCarriageReturn : List Char → List Char
  | '\r' :: l => l
  | l => l

/-- `line` holds the characters of the current line, last first. -/
def linesFrom (line : List Char) : List Char → List (List Char)
  | [] => if line.isEmpty then [] else [line.reverse]
  | c :: l =>
    if c = '\n' then (stripCarriageReturn line).reverse :: linesFrom [] l
    else linesFrom (c :: line) l

def lines (s : String) : List String := (linesFrom [] s.toList).map String.ofList

def joinLines (l : List String) : String := "\n".intercalate l

@[simp] theorem isEmpty_iff {s : String} : isEmpty s = true ↔ s = "" := by
  rw [isEmpty, List.isEmpty_iff, ← String.toList_inj]
  rfl

def Trimmed (l : List Char) : Prop :=
  (∀ c ∈ l.head?, isWhitespace c = false) ∧ (∀ c ∈ l.getLast?, isWhitespace c = false)

theorem head?_dropWhile (p : Char → Bool) (l : List Char) :
    ∀ c ∈ (l.dropWhile p).head?, p c = false := by
  intro c hc
  have h := List.head?_dropWhile_not p l
  rw [Option.mem_def.mp hc] at h
  simpa using h

theorem dropWhile_eq_self {p : Char → Bool} {l : List Char} (h : ∀ c ∈ l.head?, p c = false) :
    l.dropWhile p = l := by
  cases l with
  | nil => rfl
  | cons c l => simp [List.dropWhile, h c rfl]

theorem trimmed_trimList (l : List Char) : Trimmed (trimList l) := by
  refine ⟨fun c hc ↦ ?_, fun c hc ↦ ?_⟩
  · -- the first character is the first of the text whose front is already trimmed
    have hs : (trimList l) <+: l.dropWhile isWhitespace := by
      have h := List.reverse_prefix.mpr
        (List.dropWhile_suffix (l := (l.dropWhile isWhitespace).reverse) isWhitespace)
      simpa [trimList] using h
    obtain ⟨rest, hr⟩ := hs
    refine head?_dropWhile isWhitespace l c ?_
    rw [← hr]
    cases ht : trimList l with
    | nil => simp [ht] at hc
    | cons d m => simpa [ht] using hc
  · rw [trimList, List.getLast?_reverse] at hc
    exact head?_dropWhile _ _ c hc

theorem trimList_eq_self {l : List Char} (h : Trimmed l) : trimList l = l := by
  have hl : ∀ c ∈ l.reverse.head?, isWhitespace c = false := by
    simpa only [List.head?_reverse] using h.2
  rw [trimList, dropWhile_eq_self h.1, dropWhile_eq_self hl, List.reverse_reverse]

theorem trim_trim (s : String) : trim (trim s) = trim s := by
  rw [trim, trim, String.toList_ofList, trimList_eq_self (trimmed_trimList _)]

theorem mem_of_mem_trimList {l : List Char} {c : Char} (h : c ∈ trimList l) : c ∈ l := by
  rw [trimList, List.mem_reverse] at h
  have h' := List.mem_reverse.mp ((List.dropWhile_suffix _).subset h)
  exact (List.dropWhile_suffix _).subset h'

theorem mem_of_mem_trim {s : String} {c : Char} (h : c ∈ (trim s).toList) : c ∈ s.toList := by
  rw [trim, String.toList_ofList] at h
  exact mem_of_mem_trimList h

theorem linesFrom_append {line l : List Char} (hl : '\n' ∉ l) (rest : List Char) :
    linesFrom line (l ++ '\n' :: rest) =
      (stripCarriageReturn (l.reverse ++ line)).reverse :: linesFrom [] rest := by
  induction l generalizing line with
  | nil => simp [linesFrom]
  | cons c l ih =>
    have hc : c ≠ '\n' := fun h ↦ hl (by simp [h])
    rw [List.cons_append, linesFrom, if_neg hc, ih (fun h ↦ hl (List.mem_cons_of_mem _ h))]
    simp

theorem linesFrom_last {line l : List Char} (hl : '\n' ∉ l) (hne : l ++ line ≠ []) :
    linesFrom line l = [(l.reverse ++ line).reverse] := by
  induction l generalizing line with
  | nil => simp_all [linesFrom]
  | cons c l ih =>
    have hc : c ≠ '\n' := fun h ↦ hl (by simp [h])
    rw [linesFrom, if_neg hc, ih (fun h ↦ hl (List.mem_cons_of_mem _ h)) (by simp)]
    simp

theorem stripCarriageReturn_eq_self {l : List Char} (h : '\r' ∉ l) : stripCarriageReturn l = l := by
  cases l with
  | nil => rfl
  | cons c l =>
    have hc : c ≠ '\r' := fun e ↦ h (by simp [e])
    unfold stripCarriageReturn
    split <;> simp_all

theorem linesFrom_intercalate {ls : List (List Char)}
    (h : ∀ l ∈ ls, l ≠ [] ∧ '\n' ∉ l ∧ '\r' ∉ l) :
    linesFrom [] (['\n'].intercalate ls) = ls := by
  induction ls with
  | nil => rfl
  | cons l ls ih =>
    obtain ⟨hne, hn, hr⟩ := h l List.mem_cons_self
    cases ls with
    | nil =>
      have hlast : linesFrom [] l = [(l.reverse ++ []).reverse] :=
        linesFrom_last hn (by simpa using hne)
      simpa using hlast
    | cons m ms =>
      have hrest := ih fun x hx ↦ h x (List.mem_cons_of_mem _ hx)
      have hi : ['\n'].intercalate (l :: m :: ms) = l ++ '\n' :: ['\n'].intercalate (m :: ms) := by
        simp [List.intercalate]
      rw [hi, linesFrom_append hn, hrest, List.append_nil,
        stripCarriageReturn_eq_self (by simpa using hr), List.reverse_reverse]

theorem lines_joinLines {ls : List String}
    (h : ∀ l ∈ ls, l ≠ "" ∧ ∀ c ∈ l.toList, isControl c = false) : lines (joinLines ls) = ls := by
  have hls : ∀ l ∈ ls.map String.toList, l ≠ [] ∧ '\n' ∉ l ∧ '\r' ∉ l := by
    intro l hl
    obtain ⟨s, hs, rfl⟩ := List.mem_map.mp hl
    obtain ⟨hne, hc⟩ := h s hs
    refine ⟨fun he ↦ hne (String.toList_inj.mp he), fun hn ↦ ?_, fun hr ↦ ?_⟩
    · exact absurd (hc _ hn) (by decide)
    · exact absurd (hc _ hr) (by decide)
  have hj : (joinLines ls).toList = ['\n'].intercalate (ls.map String.toList) := by
    rw [joinLines, String.toList_intercalate]
    rfl
  rw [lines, hj, linesFrom_intercalate hls, List.map_map]
  simp [Function.comp_def, String.ofList_toList]

theorem containsList_iff {t l : List Char} : containsList t l = true ↔ t <:+: l := by
  induction l with
  | nil => rw [containsList, List.isEmpty_iff, List.infix_nil]
  | cons c l ih =>
    rw [containsList, Bool.or_eq_true, List.isPrefixOf_iff_prefix, ih, List.infix_cons_iff]

theorem mem_splitOn {l : List Char} {a c : Char} (h : c ∈ l) :
    c = a ∨ ∃ piece ∈ l.splitOn a, c ∈ piece := by
  have hl : [a].intercalate (l.splitOn a) = l := List.intercalate_splitOn a
  rw [← hl] at h
  generalize l.splitOn a = pieces at h
  induction pieces with
  | nil => cases h
  | cons piece pieces ih =>
    cases pieces with
    | nil => exact .inr ⟨piece, List.mem_cons_self, by simpa using h⟩
    | cons next rest =>
      rw [List.intercalate_cons_cons, List.mem_append, List.mem_append,
        List.mem_singleton] at h
      rcases h with (h | h) | h
      · exact .inr ⟨piece, List.mem_cons_self, h⟩
      · exact .inl h
      · exact (ih h).imp_right fun ⟨p, hp, hc⟩ ↦ ⟨p, List.mem_cons_of_mem _ hp, hc⟩

theorem not_mem_of_mem_splitOn {l piece : List Char} {a : Char} (h : piece ∈ l.splitOn a) :
    a ∉ piece := by
  induction l generalizing piece with
  | nil =>
    rw [List.splitOn_eq_singleton List.not_mem_nil, List.mem_singleton] at h
    rw [h]
    exact List.not_mem_nil
  | cons c l ih =>
    rw [List.splitOn_cons_eq_if_modifyHead] at h
    split at h
    · rcases List.mem_cons.mp h with rfl | h
      · exact List.not_mem_nil
      · exact ih h
    next hc =>
      cases hl : l.splitOn a with
      | nil => exact absurd hl (List.splitOn_ne_nil a l)
      | cons first rest =>
        rw [hl, List.modifyHead_cons] at h
        rw [hl] at ih
        rcases List.mem_cons.mp h with rfl | h
        · intro ha
          rcases List.mem_cons.mp ha with rfl | ha
          · exact hc (beq_self_eq_true a)
          · exact ih List.mem_cons_self ha
        · exact ih (List.mem_cons_of_mem _ h)

theorem mem_dropWhile {p : Char → Bool} {l : List Char} {c : Char} (hc : p c = false) :
    c ∈ l.dropWhile p ↔ c ∈ l := by
  induction l with
  | nil => rfl
  | cons d l ih =>
    by_cases hd : p d
    · have hne : c ≠ d := fun e ↦ by simp [← e, hc] at hd
      rw [List.dropWhile_cons_of_pos hd, ih, List.mem_cons, or_iff_right hne]
    · rw [List.dropWhile_cons_of_neg hd]

theorem mem_trim {s : String} {c : Char} (hc : isWhitespace c = false) :
    c ∈ (trim s).toList ↔ c ∈ s.toList := by
  rw [trim, String.toList_ofList, trimList, List.mem_reverse, mem_dropWhile hc, List.mem_reverse,
    mem_dropWhile hc]

theorem mem_trimEndMatches {s : String} {c d : Char} (hne : c ≠ d) :
    c ∈ (trimEndMatches d s).toList ↔ c ∈ s.toList := by
  rw [trimEndMatches, String.toList_ofList, List.mem_reverse, mem_dropWhile (by simpa using hne),
    List.mem_reverse]

theorem dropWhile_ne (l : List Char) (c : Char) : l.dropWhile (· ≠ c) = [] ∧ c ∉ l ∨
    ∃ rest, l.dropWhile (· ≠ c) = c :: rest ∧ l.takeWhile (· ≠ c) ++ c :: rest = l := by
  have hsplit := List.takeWhile_append_dropWhile (p := (· ≠ c)) (l := l)
  cases hdrop : l.dropWhile (· ≠ c) with
  | nil =>
    rw [List.dropWhile_eq_nil_iff] at hdrop
    exact .inl ⟨rfl, fun hmem ↦ by simpa using hdrop c hmem⟩
  | cons d rest =>
    have hd : d = c := by
      have hhead := head?_dropWhile (· ≠ c) l d (by rw [hdrop]; rfl)
      simpa using hhead
    rw [hdrop, hd] at hsplit
    exact .inr ⟨rest, by rw [hd], hsplit⟩

theorem rsplitOnce_eq_none {s : String} {c : Char} : rsplitOnce c s = none ↔ c ∉ s.toList := by
  rcases dropWhile_ne s.toList.reverse c with ⟨hdrop, hmem⟩ | ⟨rest, hdrop, hsplit⟩
  · rw [rsplitOnce, hdrop]
    exact iff_of_true rfl fun h ↦ hmem (List.mem_reverse.mpr h)
  · rw [rsplitOnce, hdrop]
    refine iff_of_false nofun fun h ↦ h (List.mem_reverse.mp ?_)
    rw [← hsplit]
    exact List.mem_append_right _ List.mem_cons_self

theorem splitOnce_some {s before after : String} {c : Char}
    (h : splitOnce c s = some (before, after)) :
    s.toList = before.toList ++ c :: after.toList := by
  rcases dropWhile_ne s.toList c with ⟨hdrop, -⟩ | ⟨rest, hdrop, hsplit⟩
  · rw [splitOnce, hdrop] at h
    cases h
  · rw [splitOnce, hdrop] at h
    cases h
    rw [String.toList_ofList, String.toList_ofList]
    exact hsplit.symm

theorem stripPrefix_some {p s rest : String} (h : stripPrefix p s = some rest) :
    s.toList = p.toList ++ rest.toList := by
  rw [stripPrefix] at h
  split_ifs at h with hpre
  obtain ⟨tail, htail⟩ := List.isPrefixOf_iff_prefix.mp hpre
  rw [← Option.some.inj h, ← htail, String.toList_ofList, List.drop_left]

theorem len_ofList (l : List Char) : len (String.ofList l) = (l.map Char.utf8Size).sum := by
  induction l with
  | nil => rfl
  | cons c l ih =>
    have hcons : String.ofList (c :: l) = String.ofList [c] ++ String.ofList l := by
      rw [← String.ofList_append]
      rfl
    rw [len, hcons, String.utf8ByteSize_append, List.map_cons, List.sum_cons, ← ih]
    simp [len]

theorem isAsciiDigit_ascii {c : Char} (h : isAsciiDigit c = true) : c.toNat < 128 := by
  obtain ⟨-, hhigh⟩ := (Bool.and_eq_true _ _).mp h
  exact Nat.lt_of_le_of_lt (of_decide_eq_true hhigh) (by decide)

theorem utf8Size_ascii {c : Char} (h : c.toNat < 128) : c.utf8Size = 1 :=
  Char.utf8Size_eq_one_iff.mpr (Nat.le_of_lt_succ h)

theorem lowerChar_cases (c : Char) : lowerChar c = c ∨ isAsciiUppercase c = true ∧
    isAsciiLowercase (lowerChar c) = true ∧ c.toNat < 128 ∧ (lowerChar c).toNat < 128 := by
  have hupper : ∀ n < 128, isAsciiUppercase (Char.ofNat n) = true →
      isAsciiLowercase (lowerChar (Char.ofNat n)) = true ∧
        (lowerChar (Char.ofNat n)).toNat < 128 := by decide
  by_cases hc : isAsciiUppercase c = true
  · have hlt : c.toNat < 128 := by
      obtain ⟨-, hhigh⟩ := (Bool.and_eq_true _ _).mp hc
      exact Nat.lt_of_le_of_lt (of_decide_eq_true hhigh) (by decide)
    have h := hupper c.toNat hlt
    rw [Char.ofNat_toNat] at h
    exact .inr ⟨hc, (h hc).1, hlt, (h hc).2⟩
  · rw [lowerChar, if_neg hc]
    exact .inl rfl

theorem isAsciiAlphanumeric_not_whitespace {c : Char} (h : isAsciiAlphanumeric c) :
    isWhitespace c = false := by
  have hrange : 48 ≤ c.toNat ∧ c.toNat ≤ 122 := by
    simp only [isAsciiAlphanumeric, isAsciiLowercase, isAsciiUppercase, isAsciiDigit,
      Bool.or_eq_true, Bool.and_eq_true, decide_eq_true_eq, Char.le_def, UInt32.le_iff_toNat_le,
      Char.reduceVal, UInt32.reduceToNat] at h
    have hval : c.val.toNat = c.toNat := rfl
    omega
  simp only [isWhitespace, Bool.or_eq_false_iff, Bool.and_eq_false_iff, decide_eq_false_iff_not]
  omega

theorem isAsciiAlphanumeric_lowerChar (c : Char) :
    isAsciiAlphanumeric (lowerChar c) = isAsciiAlphanumeric c := by
  rcases lowerChar_cases c with h | ⟨hupper, hlower, -⟩
  · rw [h]
  · simp [isAsciiAlphanumeric, hupper, hlower]

theorem lowerChar_eq_iff {c d : Char} (hd : isAsciiUppercase d = false)
    (hd' : isAsciiLowercase d = false) : lowerChar c = d ↔ c = d := by
  rcases lowerChar_cases c with h | ⟨hupper, hlower, -⟩
  · rw [h]
  · refine iff_of_false ?_ ?_
    · rintro rfl
      rw [hlower] at hd'
      cases hd'
    · rintro rfl
      rw [hupper] at hd
      cases hd

theorem len_toAsciiLowercase (s : String) : len (toAsciiLowercase s) = len s := by
  have hsize : Char.utf8Size ∘ lowerChar = Char.utf8Size := by
    funext c
    rcases lowerChar_cases c with h | ⟨-, -, hlt, hlt'⟩
    · exact congrArg Char.utf8Size h
    · exact (utf8Size_ascii hlt').trans (utf8Size_ascii hlt).symm
  rw [toAsciiLowercase, len_ofList, List.map_map, hsize, ← len_ofList, String.ofList_toList]

theorem len_ascii {s : String} (h : ∀ c ∈ s.toList, c.toNat < 128) : len s = s.toList.length := by
  have hmap : s.toList.map Char.utf8Size = s.toList.map fun _ ↦ 1 :=
    List.map_congr_left fun c hc ↦ utf8Size_ascii (h c hc)
  rw [← String.ofList_toList (s := s), len_ofList, String.toList_ofList, hmap, List.map_const',
    List.sum_replicate_nat, Nat.mul_one]

theorem splitOn_map {f : Char → Char} {c : Char} (hf : ∀ d, f d = c ↔ d = c) (l : List Char) :
    (l.map f).splitOn c = (l.splitOn c).map (List.map f) := by
  induction l with
  | nil => rfl
  | cons d l ih =>
    rw [List.map_cons, List.splitOn_cons_eq_if_modifyHead, List.splitOn_cons_eq_if_modifyHead, ih]
    by_cases hd : d = c
    · rw [if_pos (beq_iff_eq.mpr hd), if_pos (beq_iff_eq.mpr ((hf d).mpr hd)), List.map_cons]
      rfl
    · rw [if_neg (fun h ↦ hd (beq_iff_eq.mp h)),
        if_neg (fun h ↦ hd ((hf d).mp (beq_iff_eq.mp h)))]
      cases l.splitOn c with
      | nil => rfl
      | cons first rest => rfl

theorem split_toAsciiLowercase {c : Char} (hc : isAsciiUppercase c = false)
    (hc' : isAsciiLowercase c = false) (s : String) :
    split c (toAsciiLowercase s) = (split c s).map toAsciiLowercase := by
  rw [split, toAsciiLowercase, String.toList_ofList,
    splitOn_map (fun d ↦ lowerChar_eq_iff hc hc'), split, List.map_map, List.map_map]
  refine List.map_congr_left fun piece _ ↦ ?_
  rw [Function.comp, Function.comp, toAsciiLowercase, String.toList_ofList]

theorem split_intercalate {c : Char} {separator : String} (hseparator : separator.toList = [c])
    {pieces : List String} (hne : pieces ≠ []) (h : ∀ piece ∈ pieces, c ∉ piece.toList) :
    split c (separator.intercalate pieces) = pieces := by
  rw [split, String.toList_intercalate, hseparator, List.splitOn_intercalate]
  · simp only [List.map_map, Function.comp_def, String.ofList_toList, List.map_id']
  · simpa using h
  · simpa using hne

theorem split_eq_singleton {s : String} {c : Char} (h : c ∉ s.toList) : split c s = [s] := by
  rw [split, List.splitOn_eq_singleton h, List.map_singleton, String.ofList_toList]

theorem split_append {s t : String} {c : Char} {separator : String}
    (hseparator : separator.toList = [c]) :
    split c (s ++ separator ++ t) = split c s ++ split c t := by
  rw [split, String.toList_append, String.toList_append, hseparator, List.append_assoc,
    List.singleton_append, List.splitOn_append_cons_self, List.map_append]
  rfl

theorem splitOnce_append {before after : String} {c : Char} {separator : String}
    (hseparator : separator.toList = [c]) (h : c ∉ before.toList) :
    splitOnce c (before ++ separator ++ after) = some (before, after) := by
  have hs : (before ++ separator ++ after).toList = before.toList ++ c :: after.toList := by
    rw [String.toList_append, String.toList_append, hseparator, List.append_assoc]
    rfl
  have hbefore : ∀ d ∈ before.toList, decide (d ≠ c) = true := by
    intro d hd
    have hne : d ≠ c := by
      intro e
      exact h (e ▸ hd)
    simpa using hne
  rw [splitOnce, hs, List.dropWhile_append_of_pos hbefore, List.takeWhile_append_of_pos hbefore]
  simp [String.ofList_toList]

theorem empty_mem_split {c : Char} {s : String} (h : [c, c] <:+: s.toList) : "" ∈ split c s := by
  obtain ⟨before, after, h⟩ := h
  have hs : s.toList = before ++ c :: (c :: after) := by rw [← h]; simp
  have hempty : (c :: after).splitOn c = [] :: after.splitOn c := by
    rw [List.splitOn_cons_eq_if_modifyHead, if_pos (beq_self_eq_true c)]
  rw [split, hs, List.splitOn_append_cons_self, hempty]
  exact List.mem_map_of_mem (f := String.ofList)
    (List.mem_append_right _ (List.mem_cons_self : ([] : List Char) ∈ _))

theorem utf8EncodeChar_ascii {c : Char} (h : c.toNat < 128) :
    String.utf8EncodeChar c = [UInt8.ofNat c.toNat] := by
  rw [String.utf8EncodeChar]
  exact if_pos (Nat.le_of_lt_succ h)

theorem utf8EncodeChar_head (a : Char) : ∃ code rest, String.utf8EncodeChar a = code :: rest ∧
    ∀ c : Char, c.toNat < 128 → code = UInt8.ofNat c.toNat → a = c := by
  have hfirst : ∀ n < 256, ∀ c : Char, c.toNat < 128 →
      UInt8.ofNat n = UInt8.ofNat c.toNat → n = c.toNat := by
    intro n hn c hc h
    have h' := congrArg UInt8.toNat h
    simp only [UInt8.toNat_ofNat'] at h'
    omega
  simp only [String.utf8EncodeChar]
  split_ifs with h₁ h₂ h₃
  · have ha : a.toNat < 256 := Nat.lt_of_le_of_lt h₁ (by decide)
    exact ⟨_, _, rfl, fun c hc h ↦ Char.toNat_inj.mp (hfirst _ ha c hc h)⟩
  · refine ⟨_, _, rfl, fun c hc h ↦ ?_⟩
    have hcode := hfirst _ (by omega) c hc h
    omega
  · refine ⟨_, _, rfl, fun c hc h ↦ ?_⟩
    have hcode := hfirst _ (by omega) c hc h
    omega
  · refine ⟨_, _, rfl, fun c hc h ↦ ?_⟩
    have hcode := hfirst _ (by omega) c hc h
    omega

end Text

import StealthHub.Data.Text

set_option autoImplicit false

instance octet_neZero : NeZero 256 := ⟨by decide⟩

instance group_neZero : NeZero 65536 := ⟨by decide⟩

structure Ipv4Addr where
  a : Fin 256
  b : Fin 256
  c : Fin 256
  d : Fin 256
  deriving DecidableEq

structure Ipv6Addr where
  segments : List (Fin 65536)
  eight : segments.length = 8
  deriving DecidableEq

inductive IpAddr
  | v4 (addr : Ipv4Addr)
  | v6 (addr : Ipv6Addr)
  deriving DecidableEq

namespace Text

def isIpv4Octet (s : String) : Bool :=
  let digits := s.toList
  !digits.isEmpty && digits.length ≤ 3 && digits.all isAsciiDigit &&
    (digits.length = 1 || digits.head? ≠ some '0') &&
    digits.foldl (fun n c ↦ 10 * n + (c.toNat - 48)) 0 ≤ 255

def isIpv4 (s : String) : Bool :=
  let octets := split '.' s
  octets.length = 4 && octets.all isIpv4Octet

def isIpv6Group (s : String) : Bool :=
  let digits := s.toList
  !digits.isEmpty && digits.length ≤ 4 &&
    digits.all fun c ↦ isAsciiDigit c || ('a' ≤ c && c ≤ 'f') || ('A' ≤ c && c ≤ 'F')

def ipv6GroupCount (allowIpv4 : Bool) : List String → Option ℕ
  | [] => some 0
  | [last] =>
    if isIpv6Group last then some 1 else if allowIpv4 && isIpv4 last then some 2 else none
  | group :: rest =>
    if isIpv6Group group then (ipv6GroupCount allowIpv4 rest).map (· + 1) else none

/-- The groups before and after the first `::`. -/
def splitCompression : List Char → Option (List Char × List Char)
  | ':' :: ':' :: rest => some ([], rest)
  | c :: rest => (splitCompression rest).map fun (head, tail) ↦ (c :: head, tail)
  | [] => none

def ipv6Groups (l : List Char) : List String :=
  if l.isEmpty then [] else (l.splitOn ':').map String.ofList

def isIpv6 (s : String) : Bool :=
  match splitCompression s.toList with
  | none => ipv6GroupCount true (ipv6Groups s.toList) = some 8
  | some (head, tail) =>
    match ipv6GroupCount false (ipv6Groups head), ipv6GroupCount true (ipv6Groups tail) with
    | some before, some after => before + after ≤ 7
    | _, _ => false

def isIpAddr (s : String) : Bool := isIpv4 s || isIpv6 s

example : (["1.1.1.1", "::1", "fe80::1:2", "1:2:3:4:5:6:7:8", "::ffff:10.0.0.1"].all isIpAddr &&
    ["01.1.1.1", "1.1.1", "256.1.1.1", "1:2:3", "1::2::3", "12345::", ""].all
      fun s ↦ !isIpAddr s) = true := by
  decide

section parse

def parseIpv4Octet (s : String) : Option (Fin 256) :=
  if isIpv4Octet s then
    some (Fin.ofNat 256 (s.toList.foldl (fun n c ↦ 10 * n + (c.toNat - 48)) 0))
  else none

def parseIpv4 (s : String) : Option Ipv4Addr :=
  match split '.' s with
  | [a, b, c, d] => do
    return ⟨← parseIpv4Octet a, ← parseIpv4Octet b, ← parseIpv4Octet c, ← parseIpv4Octet d⟩
  | _ => none

def hexDigitValue (c : Char) : ℕ :=
  if isAsciiDigit c then c.toNat - 48 else (lowerChar c).toNat - 87

def ipv6Group (s : String) : Fin 65536 :=
  Fin.ofNat 65536 (s.toList.foldl (fun n c ↦ 16 * n + hexDigitValue c) 0)

def ipv4Groups (addr : Ipv4Addr) : List (Fin 65536) :=
  [Fin.ofNat 65536 (256 * addr.a + addr.b), Fin.ofNat 65536 (256 * addr.c + addr.d)]

def parseIpv6Groups (allowIpv4 : Bool) : List String → Option (List (Fin 65536))
  | [] => some []
  | [last] =>
    if isIpv6Group last then some [ipv6Group last]
    else if allowIpv4 then (parseIpv4 last).map ipv4Groups else none
  | group :: rest =>
    if isIpv6Group group then (parseIpv6Groups allowIpv4 rest).map (ipv6Group group :: ·) else none

/-- The groups around a `::`, which stands for at least one group of zeros. -/
def decompress (before after : List (Fin 65536)) : Option Ipv6Addr :=
  if h : before.length + after.length ≤ 7 then
    some ⟨before ++ List.replicate (8 - (before.length + after.length)) 0 ++ after, by
      simp only [List.length_append, List.length_replicate]
      omega⟩
  else none

def parseIpv6 (s : String) : Option Ipv6Addr :=
  match splitCompression s.toList with
  | none => (parseIpv6Groups true (ipv6Groups s.toList)).bind fun groups ↦
    if h : groups.length = 8 then some ⟨groups, h⟩ else none
  | some (head, tail) =>
    (parseIpv6Groups false (ipv6Groups head)).bind fun before ↦
      (parseIpv6Groups true (ipv6Groups tail)).bind (decompress before)

def parseIpAddr (s : String) : Option IpAddr :=
  match parseIpv4 s with
  | some addr => some (.v4 addr)
  | none => (parseIpv6 s).map .v6

theorem parseIpv4Octet_isSome {s : String} : (parseIpv4Octet s).isSome = isIpv4Octet s := by
  rw [parseIpv4Octet]
  split_ifs with h
  · exact h.symm
  · exact ((Bool.not_eq_true _).mp h).symm

theorem parseIpv4_isSome {s : String} : (parseIpv4 s).isSome = isIpv4 s := by
  rw [parseIpv4, isIpv4]
  match split '.' s with
  | [a, b, c, d] =>
    simp only [List.length_cons, List.length_nil, List.all_cons, List.all_nil, Bool.and_true,
      ← parseIpv4Octet_isSome]
    cases parseIpv4Octet a <;> cases parseIpv4Octet b <;> cases parseIpv4Octet c <;>
      cases parseIpv4Octet d <;> rfl
  | [] | [_] | [_, _] | [_, _, _] => rfl
  | _ :: _ :: _ :: _ :: _ :: rest => simp

theorem parseIpv6Groups_length {allowIpv4 : Bool} {texts : List String} :
    (parseIpv6Groups allowIpv4 texts).map List.length = ipv6GroupCount allowIpv4 texts := by
  fun_induction ipv6GroupCount allowIpv4 texts with
  | case1 => rfl
  | case2 last hlast => rw [parseIpv6Groups, if_pos hlast]; rfl
  | case3 last hlast hipv4 =>
    obtain ⟨hallow, hipv4⟩ := (Bool.and_eq_true _ _).mp hipv4
    rw [← parseIpv4_isSome, Option.isSome_iff_exists] at hipv4
    obtain ⟨addr, haddr⟩ := hipv4
    rw [parseIpv6Groups, if_neg hlast, if_pos hallow, haddr]
    rfl
  | case4 last hlast hipv4 =>
    rw [parseIpv6Groups, if_neg hlast]
    split_ifs with hallow
    · rw [hallow, Bool.true_and, ← parseIpv4_isSome, Option.not_isSome_iff_eq_none] at hipv4
      rw [hipv4]
      rfl
    · rfl
  | case5 group rest hrest hgroup ih =>
    rw [parseIpv6Groups.eq_3 _ _ _ hrest, if_pos hgroup, ← ih, Option.map_map, Option.map_map]
    rfl
  | case6 group rest hrest hgroup =>
    rw [parseIpv6Groups.eq_3 _ _ _ hrest, if_neg hgroup]
    rfl

theorem parseIpv6_isSome {s : String} : (parseIpv6 s).isSome = isIpv6 s := by
  rw [parseIpv6, isIpv6]
  cases splitCompression s.toList with
  | none =>
    simp only [← parseIpv6Groups_length]
    cases parseIpv6Groups true (ipv6Groups s.toList) with
    | none => rfl
    | some groups => by_cases h : groups.length = 8 <;> simp [h]
  | some parts =>
    obtain ⟨head, tail⟩ := parts
    simp only [← parseIpv6Groups_length]
    cases parseIpv6Groups false (ipv6Groups head) with
    | none => rfl
    | some before =>
      cases parseIpv6Groups true (ipv6Groups tail) with
      | none => rfl
      | some after => by_cases h : before.length + after.length ≤ 7 <;> simp [decompress, h]

theorem splitCompression_none {l : List Char} (h : ':' ∉ l) : splitCompression l = none := by
  induction l with
  | nil => rfl
  | cons c l ih =>
    rw [List.mem_cons, not_or] at h
    obtain ⟨hc, hl⟩ := h
    rw [splitCompression.eq_2 _ _ fun rest hcolon _ ↦ hc hcolon.symm, ih hl]
    rfl

theorem ipv6GroupCount_singleton (last : String) : ipv6GroupCount true [last] ≠ some 8 := by
  rw [ipv6GroupCount]
  split_ifs <;> decide

theorem colon_mem_of_parseIpv6 {s : String} {addr : Ipv6Addr} (h : parseIpv6 s = some addr) :
    ':' ∈ s.toList := by
  have hipv6 : isIpv6 s = true := by rw [← parseIpv6_isSome, h]; rfl
  by_contra hcolon
  rw [isIpv6, splitCompression_none hcolon, ipv6Groups, List.splitOn_eq_singleton hcolon] at hipv6
  have hcount := of_decide_eq_true hipv6
  split_ifs at hcount
  · cases hcount
  · exact ipv6GroupCount_singleton _ hcount

end parse

section display

def ipv4Text (addr : Ipv4Addr) : String :=
  ".".intercalate ([addr.a, addr.b, addr.c, addr.d].map fun octet ↦ toString octet.val)

def hexText (segment : Fin 65536) : String := String.ofList (Nat.toDigits 16 segment.val)

/-- Where a run of zero segments starts, and how long it is. -/
structure Span where
  start : ℕ
  len : ℕ

def nextSpan (spans : Span × Span) (entry : Fin 65536 × ℕ) : Span × Span :=
  let (longest, current) := spans
  if entry.1 = 0 then
    let current : Span :=
      ⟨if current.len = 0 then entry.2 else current.start, current.len + 1⟩
    (if longest.len < current.len then current else longest, current)
  else (longest, ⟨0, 0⟩)

def longestZeroes (segments : List (Fin 65536)) : Span :=
  (segments.zipIdx.foldl nextSpan (⟨0, 0⟩, ⟨0, 0⟩)).1

def segmentsText (segments : List (Fin 65536)) : String := ":".intercalate (segments.map hexText)

def embeddedIpv4 (high low : Fin 65536) : Ipv4Addr :=
  ⟨Fin.ofNat 256 (high.val / 256), Fin.ofNat 256 high.val, Fin.ofNat 256 (low.val / 256),
    Fin.ofNat 256 low.val⟩

def ipv6Text (addr : Ipv6Addr) : String :=
  match addr.segments with
  | [0, 0, 0, 0, 0, 0xffff, high, low] => "::ffff:" ++ ipv4Text (embeddedIpv4 high low)
  | segments =>
    let zeroes := longestZeroes segments
    if 1 < zeroes.len then
      segmentsText (segments.take zeroes.start) ++ "::" ++
        segmentsText (segments.drop (zeroes.start + zeroes.len))
    else segmentsText segments

def ipAddrText : IpAddr → String
  | .v4 addr => ipv4Text addr
  | .v6 addr => ipv6Text addr

example : (["::1", "::", "2001:db8::1", "::ffff:10.0.0.1", "1:2:3:4:5:6:7:8", "fe80:0:0:1::",
    "127.0.0.1"].all fun s ↦ (parseIpAddr s).map ipAddrText = some s) = true := by
  decide

def isAddressChar (c : Char) : Bool :=
  isAsciiDigit c || ('a' ≤ c && c ≤ 'f') || c = '.' || c = ':'

theorem mem_toDigits {base n : ℕ} (hbase : 1 < base) {c : Char} (h : c ∈ Nat.toDigits base n) :
    ∃ digit < base, c = Nat.digitChar digit := by
  induction n using Nat.strongRecOn with
  | ind n ih =>
    rw [Nat.toDigits_eq_if hbase] at h
    split_ifs at h with hn
    · exact ⟨n, hn, List.mem_singleton.mp h⟩
    · rcases List.mem_append.mp h with h | h
      · exact ih _ (Nat.div_lt_self (by omega) hbase) h
      · exact ⟨_, Nat.mod_lt _ (by omega), List.mem_singleton.mp h⟩

theorem digitChar_address : ∀ digit < 16, isAddressChar (Nat.digitChar digit) = true ∧
    Nat.digitChar digit ≠ ':' ∧ Nat.digitChar digit ≠ '.' := by decide

theorem octetText_digits : ∀ octet : Fin 256, (toString octet.val).toList ≠ [] ∧
    (toString octet.val).toList.length ≤ 3 ∧
    (toString octet.val).toList.all isAsciiDigit = true := by decide +kernel

theorem forall_mem_intercalate {p : Char → Prop} {separator : String} {pieces : List String}
    (hseparator : ∀ c ∈ separator.toList, p c)
    (hpieces : ∀ piece ∈ pieces, ∀ c ∈ piece.toList, p c) :
    ∀ c ∈ (separator.intercalate pieces).toList, p c := by
  rw [String.toList_intercalate]
  induction pieces with
  | nil => exact List.forall_mem_nil _
  | cons piece rest ih =>
    obtain ⟨hpiece, hrest⟩ := List.forall_mem_cons.mp hpieces
    cases rest with
    | nil => simpa using hpiece
    | cons next rest =>
      rw [List.map_cons, List.map_cons, List.intercalate_cons_cons]
      intro c hc
      rcases List.mem_append.mp hc with hc | hc
      · rcases List.mem_append.mp hc with hc | hc
        · exact hpiece c hc
        · exact hseparator c hc
      · exact ih hrest c hc

theorem ipv4Text_chars (addr : Ipv4Addr) :
    ∀ c ∈ (ipv4Text addr).toList, isAsciiDigit c = true ∨ c = '.' := by
  refine forall_mem_intercalate ?_ ?_
  · intro c hc
    exact .inr (List.mem_singleton.mp hc)
  · intro piece hpiece c hc
    obtain ⟨octet, -, rfl⟩ := List.mem_map.mp hpiece
    exact .inl (List.all_eq_true.mp (octetText_digits octet).2.2 c hc)

theorem split_ipv4Text (addr : Ipv4Addr) : split '.' (ipv4Text addr) =
    [addr.a, addr.b, addr.c, addr.d].map fun octet ↦ toString octet.val := by
  have hdot : ∀ octet : Fin 256, '.' ∉ (toString octet.val).toList := by
    intro octet hmem
    exact absurd (List.all_eq_true.mp (octetText_digits octet).2.2 _ hmem) (by decide)
  have hseparator : ".".toList = ['.'] := by decide
  rw [split, ipv4Text, String.toList_intercalate, hseparator, List.splitOn_intercalate]
  · simp only [List.map_map, Function.comp_def, String.ofList_toList]
  · simp only [List.map_cons, List.map_nil, List.forall_mem_cons]
    exact ⟨hdot _, hdot _, hdot _, hdot _, List.forall_mem_nil _⟩
  · simp

theorem len_ipv4Text (addr : Ipv4Addr) : len (ipv4Text addr) ≤ 15 := by
  have hascii : ∀ c ∈ (ipv4Text addr).toList, c.toNat < 128 := by
    intro c hc
    rcases ipv4Text_chars addr c hc with hdigit | rfl
    · exact isAsciiDigit_ascii hdigit
    · decide
  rw [len_ascii hascii, ipv4Text, String.toList_intercalate]
  have ha := (octetText_digits addr.a).2.1
  have hb := (octetText_digits addr.b).2.1
  have hc := (octetText_digits addr.c).2.1
  have hd := (octetText_digits addr.d).2.1
  simp only [List.map_cons, List.map_nil, List.intercalate_cons_cons, List.intercalate_singleton,
    List.length_append]
  have hseparator : ".".toList.length = 1 := by decide
  omega

theorem segmentsText_address (segments : List (Fin 65536)) :
    ∀ c ∈ (segmentsText segments).toList, isAddressChar c = true := by
  refine forall_mem_intercalate ?_ ?_
  · intro c hc
    rw [List.mem_singleton.mp hc]
    decide
  · intro piece hpiece c hc
    obtain ⟨segment, -, rfl⟩ := List.mem_map.mp hpiece
    rw [hexText, String.toList_ofList] at hc
    obtain ⟨digit, hdigit, rfl⟩ := mem_toDigits (by decide) hc
    exact (digitChar_address digit hdigit).1

theorem ipv4Text_address (addr : Ipv4Addr) :
    ∀ c ∈ (ipv4Text addr).toList, isAddressChar c = true := by
  intro c hc
  rcases ipv4Text_chars addr c hc with hdigit | rfl
  · simp [isAddressChar, hdigit]
  · decide

theorem ipv6Text_address (addr : Ipv6Addr) :
    ∀ c ∈ (ipv6Text addr).toList, isAddressChar c = true := by
  intro c hc
  rw [ipv6Text] at hc
  split at hc
  · rw [String.toList_append, List.mem_append] at hc
    rcases hc with hc | hc
    · exact List.all_eq_true.mp (by decide : "::ffff:".toList.all isAddressChar = true) c hc
    · exact ipv4Text_address _ c hc
  · simp only at hc
    split_ifs at hc
    · simp only [String.toList_append, List.mem_append] at hc
      rcases hc with (hc | hc) | hc
      · exact segmentsText_address _ c hc
      · exact List.all_eq_true.mp (by decide : "::".toList.all isAddressChar = true) c hc
      · exact segmentsText_address _ c hc
    · exact segmentsText_address _ c hc

theorem colon_mem_segmentsText {segments : List (Fin 65536)} (h : 1 < segments.length) :
    ':' ∈ (segmentsText segments).toList := by
  obtain ⟨a, b, rest, rfl⟩ : ∃ a b rest, segments = a :: b :: rest := by
    match segments, h with
    | a :: b :: rest, _ => exact ⟨a, b, rest, rfl⟩
  rw [segmentsText, String.toList_intercalate, List.map_cons, List.map_cons, List.map_cons,
    List.map_cons, List.intercalate_cons_cons]
  exact List.mem_append_left _ (List.mem_append_right _ List.mem_cons_self)

theorem colon_mem_ipv6Text (addr : Ipv6Addr) : ':' ∈ (ipv6Text addr).toList := by
  rw [ipv6Text]
  split
  · rw [String.toList_append]
    exact List.mem_append_left _ (by decide)
  · simp only
    split_ifs
    · rw [String.toList_append, String.toList_append]
      exact List.mem_append_left _ (List.mem_append_right _ (by decide))
    · exact colon_mem_segmentsText (by rw [addr.eight]; decide)

theorem colon_not_mem_ipv4Text (addr : Ipv4Addr) : ':' ∉ (ipv4Text addr).toList := by
  intro h
  rcases ipv4Text_chars addr _ h with hdigit | hdot
  · exact absurd hdigit (by decide)
  · exact absurd hdot (by decide)

theorem ipAddrText_address (addr : IpAddr) :
    ∀ c ∈ (ipAddrText addr).toList, isAddressChar c = true := by
  cases addr with
  | v4 addr => exact ipv4Text_address addr
  | v6 addr => exact ipv6Text_address addr

end display

end Text

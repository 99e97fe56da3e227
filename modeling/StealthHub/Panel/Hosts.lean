import StealthHub.Adapters.Infrastructure
import StealthHub.Data.IpAddr
import StealthHub.Data.Result

set_option autoImplicit false

namespace StealthHub.Panel

open Text Adapters

def normalizeOptionalPort (value : String) : Except String String :=
  if isEmpty value then .ok ""
  else
    match stripPrefix ":" value with
    | none => .error "Unexpected data after host."
    | some port =>
      match (parseU16 port).filter fun port ↦ port ≠ 0 with
      | some port => .ok (":" ++ toString port)
      | none => .error "Port must be a number from 1 to 65535."

def normalizeBracketedHost (bracketed : String) : Except String String :=
  match splitOnce ']' bracketed with
  | none => .error "Bracketed IPv6 host is incomplete."
  | some (address, suffix) =>
    match parseIpAddr address with
    | none => .error "Bracketed host must be a valid IPv6 address."
    | some (.v4 _) => .error "Brackets are only valid around an IPv6 address."
    | some (.v6 ip) => do
      let port ← normalizeOptionalPort suffix
      return "[" ++ ipv6Text ip ++ "]" ++ port

def hostAndPort (value : String) : Except String (String × String) :=
  match rsplitOnce ':' value with
  | some (host, port) => do return (host, ← normalizeOptionalPort (":" ++ port))
  | none => .ok (value, "")

def invalidHostLabel (label : String) : Bool :=
  isEmpty label || 63 < len label ||
    !(label.toList.all fun c ↦ isAsciiAlphanumeric c || c = '-') ||
    !(label.toList.head?.any isAsciiAlphanumeric) || !(label.toList.getLast?.any isAsciiAlphanumeric)

def normalizePlainHost (host portSuffix : String) : Except String String :=
  let host := trimEndMatches '.' host
  if isEmpty host || 253 < len host then .error "Host is empty or too long."
  else
    match parseIpAddr host with
    | some (.v6 _) => .error "IPv6 addresses must be enclosed in brackets."
    | some (.v4 ip) => .ok (ipv4Text ip ++ portSuffix)
    | none =>
      if !eqIgnoreAsciiCase host "localhost" && (split '.' host).any invalidHostLabel then
        .error "Host must be a valid DNS name, IPv4 address, or bracketed IPv6 address."
      else .ok (toAsciiLowercase host ++ portSuffix)

def normalizePublicHost (value : String) : Except String String :=
  let value := trimEndMatches '.' (trim value)
  if isEmpty value then .error "Host must not be empty."
  else if contains value "://" || containsChar value '/' || containsChar value '\\' then
    .error "Use host only, without scheme, path, or trailing slash."
  else if 261 < len value then .error "Host is too long."
  else
    match stripPrefix "[" value with
    | some bracketed => normalizeBracketedHost bracketed
    | none =>
      if 1 < value.toList.count ':' then .error "IPv6 addresses must be enclosed in brackets."
      else do
        let (host, portSuffix) ← hostAndPort value
        normalizePlainHost host portSuffix

example : (["Panel.Example.COM.", "127.0.0.1:8443", "[2001:db8::1]:443", "LOCALHOST:+080"].map
    fun host ↦ (normalizePublicHost host).toOption) = [some "panel.example.com",
      some "127.0.0.1:8443", some "[2001:db8::1]:443", some "localhost:80"] := by
  decide

example : (["https://example.com", "_service.example.com", "-bad.example.com", "example.com:0",
    "2001:db8::1"].all fun host ↦ !(normalizePublicHost host).isOk) = true := by
  decide

section host

variable {a value host s port portSuffix label : String}

theorem normalizeOptionalPort_ok (h : normalizeOptionalPort value = .ok port) :
    value = "" ∧ port = "" ∨ ∃ n : ℕ, port = ":" ++ toString n := by
  rw [normalizeOptionalPort] at h
  split_ifs at h with hempty
  · exact .inl ⟨Text.isEmpty_iff.mp hempty, (Except.ok.inj h).symm⟩
  · cases hpre : stripPrefix ":" value with
    | none => rw [hpre] at h; cases h
    | some digits =>
      rw [hpre] at h
      simp only at h
      split at h
      · exact .inr ⟨_, (Except.ok.inj h).symm⟩
      · cases h

theorem port_ends (n : ℕ) (text : String) :
    ':' ∈ (text ++ (":" ++ toString n)).toList ∧
      ∃ c, (text ++ (":" ++ toString n)).toList.getLast? = some c ∧ c ≠ 'l' := by
  have hdigits : (toString n).toList = Nat.toDigits 10 n := by simp [toString, Nat.repr]
  have hne : Nat.toDigits 10 n ≠ [] := Nat.toDigits_ne_nil
  rw [String.toList_append, String.toList_append, hdigits]
  refine ⟨by simp, (Nat.toDigits 10 n).getLast hne, ?_, ?_⟩
  · rw [List.getLast?_append_of_ne_nil _ (by simp), List.getLast?_append_of_ne_nil _ hne,
      List.getLast?_eq_some_getLast hne]
  · obtain ⟨digit, hdigit, hc⟩ := mem_toDigits (by decide) (List.getLast_mem hne)
    rw [hc]
    exact (by decide : ∀ digit < 10, Nat.digitChar digit ≠ 'l') digit hdigit

theorem not_local {c : Char} (hlast : s.toList.getLast? = some c) (hc : c ≠ 'l') :
    endsWith s ".local" = false := by
  rw [Bool.eq_false_iff]
  intro hends
  obtain ⟨before, hs⟩ := List.isSuffixOf_iff_suffix.mp hends
  rw [← hs, List.getLast?_append_of_ne_nil _ (by decide)] at hlast
  exact hc (Option.some.inj (hlast.symm.trans (by decide)))

/-- What no plan of the infrastructure accepts: the colon is in no domain, and a text that ends
in a port or a bracket is under no `.local`. -/
structure Ported (s : String) : Prop where
  colon : ':' ∈ s.toList
  foreign : endsWith s ".local" = false

theorem Ported.invalid (h : Ported s) : validateDomain s ≠ .ok () := by
  intro hok
  obtain ⟨-, hlabels⟩ := validateDomain_ok.mp hok
  rcases mem_splitOn (a := '.') h.colon with hdot | ⟨piece, hpiece, hcolon⟩
  · cases hdot
  · have hvalid := hlabels _ (List.mem_map_of_mem (f := String.ofList) hpiece)
    simp only [invalidDomainLabel, Bool.or_eq_false_iff, Bool.not_eq_false', String.toList_ofList,
      List.all_eq_true] at hvalid
    exact absurd (hvalid.1.1.2 ':' hcolon) (by decide)

theorem ported_port (n : ℕ) (text : String) : Ported (text ++ (":" ++ toString n)) := by
  obtain ⟨hcolon, c, hlast, hc⟩ := port_ends n text
  exact ⟨hcolon, not_local hlast hc⟩

theorem ported_bracketed (ip : Ipv6Addr) : Ported ("[" ++ ipv6Text ip ++ "]") := by
  refine ⟨?_, ?_⟩
  · rw [String.toList_append, String.toList_append]
    exact List.mem_append_left _ (List.mem_append_right _ (colon_mem_ipv6Text ip))
  · refine not_local (c := ']') ?_ (by decide)
    rw [String.toList_append, List.getLast?_append_of_ne_nil _ (by decide)]
    decide

theorem normalizeBracketedHost_ok (h : normalizeBracketedHost value = .ok s) :
    ':' ∈ value.toList ∧ Ported s := by
  rw [normalizeBracketedHost] at h
  split at h
  · cases h
  next address suffix hsplit =>
    split at h
    · cases h
    · cases h
    next ip hip =>
      obtain ⟨port, hport, h⟩ := Except.bind_eq_ok.mp h
      rw [← Except.ok.inj h]
      have hparsed : parseIpv6 address = some ip := by
        rw [parseIpAddr] at hip
        split at hip
        · cases hip
        · obtain ⟨addr, haddr, heq⟩ := Option.map_eq_some_iff.mp hip
          cases heq
          exact haddr
      refine ⟨?_, ?_⟩
      · rw [splitOnce_some hsplit]
        exact List.mem_append_left _ (colon_mem_of_parseIpv6 hparsed)
      · rcases normalizeOptionalPort_ok hport with ⟨-, rfl⟩ | ⟨n, rfl⟩
        · rw [String.append_empty]
          exact ported_bracketed ip
        · exact ported_port n _

theorem domainLabel_valid (hne : label.toList ≠ []) (hlen : len label ≤ 63)
    (hall : ∀ c ∈ label.toList, isAsciiAlphanumeric c = true ∨ c = '-')
    (hhead : label.toList.head? ≠ some '-') (hlast : label.toList.getLast? ≠ some '-') :
    invalidDomainLabel label = false := by
  have hstart : startsWith label "-" = false := by
    refine Bool.eq_false_iff.mpr fun hstarts ↦ hhead ?_
    obtain ⟨rest, hrest⟩ := List.isPrefixOf_iff_prefix.mp hstarts
    rw [← hrest]
    rfl
  have hend : endsWith label "-" = false := by
    refine Bool.eq_false_iff.mpr fun hends ↦ hlast ?_
    obtain ⟨rest, hrest⟩ := List.isSuffixOf_iff_suffix.mp hends
    rw [← hrest, List.getLast?_append_of_ne_nil _ (by decide)]
    decide
  have hchars : (label.toList.all fun c ↦ isAsciiAlphanumeric c || c = '-') = true := by
    simpa only [List.all_eq_true, Bool.or_eq_true, decide_eq_true_eq] using hall
  have hfilled : isEmpty label = false := by
    rw [isEmpty, List.isEmpty_eq_false_iff]
    exact hne
  rw [invalidDomainLabel, hstart, hend, hchars, hfilled, decide_eq_false (by omega)]
  rfl

theorem hostLabel_domainLabel (h : invalidHostLabel label = false) :
    invalidDomainLabel (toAsciiLowercase label) = false := by
  simp only [invalidHostLabel, Bool.or_eq_false_iff, Bool.not_eq_false', List.all_eq_true,
    Bool.or_eq_true, decide_eq_true_eq, decide_eq_false_iff_not, not_lt, Option.any_eq_true] at h
  obtain ⟨⟨⟨⟨hfilled, hlen⟩, hall⟩, first, hhead, hfirst⟩, last, hlast, hend⟩ := h
  have hhyphen : ∀ c, isAsciiAlphanumeric c = true → some (lowerChar c) ≠ some '-' := by
    intro c hc heq
    rw [← isAsciiAlphanumeric_lowerChar, Option.some.inj heq] at hc
    exact absurd hc (by decide)
  have htext : (toAsciiLowercase label).toList = label.toList.map lowerChar := String.toList_ofList
  refine domainLabel_valid ?_ ?_ ?_ ?_ ?_
  · rw [htext, ne_eq, List.map_eq_nil_iff]
    rintro hnil
    rw [hnil] at hhead
    cases hhead
  · rwa [len_toAsciiLowercase]
  · rw [htext, List.forall_mem_map]
    intro c hc
    refine (hall c hc).imp (fun halnum ↦ ?_) fun heq ↦ ?_
    · rwa [isAsciiAlphanumeric_lowerChar]
    · rw [heq]
      decide
  · rw [htext, List.head?_map, hhead]
    exact hhyphen first hfirst
  · rw [htext, List.getLast?_map, hlast]
    exact hhyphen last hend

theorem octet_domainLabel (octet : Fin 256) : invalidDomainLabel (toString octet.val) = false := by
  obtain ⟨hne, hlen, hdigits⟩ := octetText_digits octet
  rw [List.all_eq_true] at hdigits
  have hhyphen : ∀ c ∈ (toString octet.val).toList, c ≠ '-' := by
    rintro c hc rfl
    exact absurd (hdigits _ hc) (by decide)
  refine domainLabel_valid hne ?_ (fun c hc ↦ .inl ?_) (fun hhead ↦ ?_) fun hlast ↦ ?_
  · rw [len_ascii fun c hc ↦ isAsciiDigit_ascii (hdigits c hc)]
    omega
  · simp [isAsciiAlphanumeric, hdigits c hc]
  · exact hhyphen '-' (List.mem_of_mem_head? hhead) rfl
  · exact hhyphen '-' (List.mem_of_getLast? hlast) rfl

theorem normalizePlainHost_ok (h : normalizePlainHost host portSuffix = .ok s) :
    ∃ text, s = text ++ portSuffix ∧ validateDomain text = .ok () := by
  rw [normalizePlainHost] at h
  generalize trimEndMatches '.' host = host at h
  split at h
  · cases h
  next hlen =>
  simp only [Bool.or_eq_true, not_or, decide_eq_true_eq, not_lt] at hlen
  split at h
  · cases h
  next ip _ =>
    refine ⟨_, (Except.ok.inj h).symm, ?_⟩
    rw [validateDomain_ok, split_ipv4Text]
    refine ⟨(len_ipv4Text ip).trans (by decide), fun label hlabel ↦ ?_⟩
    obtain ⟨octet, -, rfl⟩ := List.mem_map.mp hlabel
    exact octet_domainLabel octet
  · split at h
    · cases h
    next hname =>
    refine ⟨_, (Except.ok.inj h).symm, ?_⟩
    simp only [Bool.and_eq_true, not_and, Bool.not_eq_true', Bool.not_eq_true] at hname
    by_cases hlocalhost : eqIgnoreAsciiCase host "localhost" = true
    · rw [of_decide_eq_true hlocalhost]
      decide
    · have hlabels := hname (Bool.eq_false_iff.mpr hlocalhost)
      rw [List.any_eq_false] at hlabels
      rw [validateDomain_ok, len_toAsciiLowercase, split_toAsciiLowercase (by decide) (by decide)]
      refine ⟨hlen.2, fun label hlabel ↦ ?_⟩
      obtain ⟨piece, hpiece, rfl⟩ := List.mem_map.mp hlabel
      exact hostLabel_domainLabel (Bool.eq_false_iff.mpr (hlabels piece hpiece))

theorem hostAndPort_none (hcolon : ':' ∉ value.toList)
    (h : hostAndPort value = .ok (host, portSuffix)) : portSuffix = "" := by
  rw [hostAndPort, rsplitOnce_eq_none.mpr hcolon] at h
  cases h
  rfl

theorem hostAndPort_some (hcolon : ':' ∈ value.toList)
    (h : hostAndPort value = .ok (host, portSuffix)) : ∃ n : ℕ, portSuffix = ":" ++ toString n := by
  cases hsplit : rsplitOnce ':' value with
  | none => exact absurd hcolon (rsplitOnce_eq_none.mp hsplit)
  | some parts =>
    obtain ⟨before, digits⟩ := parts
    rw [hostAndPort, hsplit] at h
    obtain ⟨port, hport, h⟩ := Except.bind_eq_ok.mp h
    cases h
    rcases normalizeOptionalPort_ok hport with ⟨hempty, -⟩ | hdigits
    · have hlist := congrArg String.toList hempty
      rw [String.toList_append] at hlist
      exact absurd hlist (by simp)
    · exact hdigits

theorem normalizePublicHost_ok (h : normalizePublicHost a = .ok s) :
    if ':' ∈ a.toList then Ported s else validateDomain s = .ok () := by
  have hcolon : ':' ∈ (trimEndMatches '.' (trim a)).toList ↔ ':' ∈ a.toList := by
    rw [mem_trimEndMatches (by decide), mem_trim (by decide)]
  rw [normalizePublicHost] at h
  simp only at h
  generalize trimEndMatches '.' (trim a) = value at h hcolon
  rw [← if_congr hcolon rfl rfl]
  split at h
  · cases h
  split at h
  · cases h
  split at h
  · cases h
  split at h
  next bracketed hbracket =>
    obtain ⟨hmem, hported⟩ := normalizeBracketedHost_ok h
    rw [if_pos]
    · exact hported
    · rw [stripPrefix_some hbracket]
      exact List.mem_append_right _ hmem
  · split at h
    · cases h
    obtain ⟨⟨host, portSuffix⟩, hhost, h⟩ := Except.bind_eq_ok.mp h
    split_ifs with hmem
    · obtain ⟨n, rfl⟩ := hostAndPort_some hmem hhost
      obtain ⟨text, rfl, -⟩ := normalizePlainHost_ok h
      exact ported_port n text
    · rw [hostAndPort_none hmem hhost] at h
      obtain ⟨text, rfl, hvalid⟩ := normalizePlainHost_ok h
      rwa [String.append_empty]

def Plannable (domain : String) : Prop :=
  endsWith domain ".local" = true ∨ validateDomain domain = .ok ()

theorem plannable_iff {a s : String} (h : normalizePublicHost a = .ok s) :
    Plannable s ↔ ':' ∉ a.toList := by
  have hhost := normalizePublicHost_ok h
  split_ifs at hhost with hcolon
  · refine iff_of_false ?_ (not_not_intro hcolon)
    rintro (hlocal | hvalid)
    · rw [hhost.foreign] at hlocal
      cases hlocal
    · exact hhost.invalid hvalid
  · exact iff_of_true (.inr hhost) hcolon

end host

end StealthHub.Panel

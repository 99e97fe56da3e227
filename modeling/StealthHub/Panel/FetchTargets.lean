import StealthHub.Effect.Record
import StealthHub.Panel.RuleSources

set_option autoImplicit false

namespace StealthHub.Panel.RuleSources

open Effect Effect.Program Routing Text

def SpecialIpv4 (address : Ipv4Addr) : Prop :=
  address.a = 10 ∨ address.a = 172 ∧ address.b.val / 16 = 1 ∨
    address.a = 192 ∧ address.b = 168 ∨ -- private
    address.a = 127 ∨ -- loopback
    address.a = 169 ∧ address.b = 254 ∨ -- link-local
    address.a = 192 ∧ address.b = 0 ∧ address.c = 2 ∨
    address.a = 198 ∧ address.b = 51 ∧ address.c = 100 ∨
    address.a = 203 ∧ address.b = 0 ∧ address.c = 113 ∨ -- documentation
    address.a.val / 16 = 14 ∨ -- multicast
    address.a = 0 ∨ -- this network, with the unspecified address
    address.a = 100 ∧ address.b.val / 64 = 1 ∨ -- shared
    address.a = 198 ∧ address.b.val / 2 = 9 ∨ -- benchmarking
    address.a.val / 16 = 15 -- reserved, with the broadcast address

def SpecialIpv6 (address : Ipv6Addr) : Prop :=
  address.segments = [0, 0, 0, 0, 0, 0, 0, 1] ∨ address.segments = [0, 0, 0, 0, 0, 0, 0, 0] ∨
    ∃ first rest, address.segments = first :: rest ∧
      (first.val / 256 = 255 ∨ first.val / 512 = 126 ∨ first.val / 64 = 1018)

def Maps (address : Ipv6Addr) (embedded : Ipv4Addr) : Prop :=
  ∃ high low, address.segments = [0, 0, 0, 0, 0, 0xffff, high, low] ∧
    embeddedIpv4 high low = embedded

/-- The other forms in which an IPv6 address leads to an IPv4 address. -/
inductive Tunnels (address : Ipv6Addr) : Ipv4Addr → Prop
  | compatible (high low : Fin 65536) (h : address.segments = [0, 0, 0, 0, 0, 0, high, low]) :
    Tunnels address (embeddedIpv4 high low)
  | sixToFour (high low : Fin 65536) (rest : List (Fin 65536))
      (h : address.segments = 0x2002 :: high :: low :: rest) :
    Tunnels address (embeddedIpv4 high low)
  | nat64 (high low : Fin 65536)
      (h : address.segments = [0x64, 0xff9b, 0, 0, 0, 0, high, low]) :
    Tunnels address (embeddedIpv4 high low)

def Public : IpAddr → Prop
  | .v4 address => ¬SpecialIpv4 address
  | .v6 address => ¬SpecialIpv6 address ∧
      ∀ embedded, Maps address embedded ∨ Tunnels address embedded → ¬SpecialIpv4 embedded

/-- An IPv6 address that leads to a special IPv4 address without being mapped to it. -/
def LeadsInside : IpAddr → Prop
  | .v4 _ => False
  | .v6 address => ∃ embedded, Tunnels address embedded ∧ SpecialIpv4 embedded

/-- The answer of a lookup that the fetch takes. -/
def Passes (addresses : List IpAddr) : Prop :=
  addresses ≠ [] ∧ ∀ address ∈ addresses, forbiddenAddress address = false

section addresses

variable {value base size : ℕ}

theorem inBlock_iff : inBlock value base size = true ↔ base ≤ value ∧ value < base + size := by
  simp [inBlock]

theorem forbiddenIpv4_iff {address : Ipv4Addr} :
    forbiddenIpv4 address = true ↔ SpecialIpv4 address := by
  simp only [forbiddenIpv4, Bool.or_eq_true, decide_eq_true_eq, SpecialIpv4, Fin.ext_iff]
  -- each block is one of the leading octets
  obtain ⟨value, hv⟩ : ∃ value, ipv4Bits address = value := ⟨_, rfl⟩
  rw [hv]
  obtain ⟨⟨a, ha⟩, ⟨b, hb⟩, ⟨c, hc⟩, ⟨d, hd⟩⟩ := address
  have hbits : ((a * 256 + b) * 256 + c) * 256 + d = value := hv
  have hten : inBlock value 0x0a000000 0x1000000 = true ↔ a = 10 := by
    rw [inBlock_iff]; omega
  have h172 : inBlock value 0xac100000 0x100000 = true ↔ a = 172 ∧ b / 16 = 1 := by
    rw [inBlock_iff]; omega
  have h192 : inBlock value 0xc0a80000 0x10000 = true ↔ a = 192 ∧ b = 168 := by
    rw [inBlock_iff]; omega
  have hloopback : inBlock value 0x7f000000 0x1000000 = true ↔ a = 127 := by
    rw [inBlock_iff]; omega
  have hlink : inBlock value 0xa9fe0000 0x10000 = true ↔ a = 169 ∧ b = 254 := by
    rw [inBlock_iff]; omega
  have hdocument : inBlock value 0xc0000200 0x100 = true ↔ a = 192 ∧ b = 0 ∧ c = 2 := by
    rw [inBlock_iff]; omega
  have hdocument' : inBlock value 0xc6336400 0x100 = true ↔ a = 198 ∧ b = 51 ∧ c = 100 := by
    rw [inBlock_iff]; omega
  have hdocument'' : inBlock value 0xcb007100 0x100 = true ↔ a = 203 ∧ b = 0 ∧ c = 113 := by
    rw [inBlock_iff]; omega
  have hmulticast : inBlock value 0xe0000000 0x10000000 = true ↔ a / 16 = 14 := by
    rw [inBlock_iff]; omega
  have hthis : inBlock value 0 0x1000000 = true ↔ a = 0 := by
    rw [inBlock_iff]; omega
  have hshared : inBlock value 0x64400000 0x400000 = true ↔ a = 100 ∧ b / 64 = 1 := by
    rw [inBlock_iff]; omega
  have hbenchmark : inBlock value 0xc6120000 0x20000 = true ↔ a = 198 ∧ b / 2 = 9 := by
    rw [inBlock_iff]; omega
  have hreserved : inBlock value 0xf0000000 0x10000000 = true ↔ a / 16 = 15 := by
    rw [inBlock_iff]; omega
  have hbroadcast : value = 0xffffffff → a / 16 = 15 := by omega
  have hunspecified : value = 0 → a = 0 := by omega
  clear hbits hv
  rw [hten, h172, h192, hloopback, hlink, hdocument, hdocument', hdocument'', hmulticast, hthis,
    hshared, hbenchmark, hreserved]
  change _ ↔ a = 10 ∨ a = 172 ∧ b / 16 = 1 ∨ a = 192 ∧ b = 168 ∨ a = 127 ∨ a = 169 ∧ b = 254 ∨
    a = 192 ∧ b = 0 ∧ c = 2 ∨ a = 198 ∧ b = 51 ∧ c = 100 ∨ a = 203 ∧ b = 0 ∧ c = 113 ∨
    a / 16 = 14 ∨ a = 0 ∨ a = 100 ∧ b / 64 = 1 ∨ a = 198 ∧ b / 2 = 9 ∨ a / 16 = 15
  by_cases hall : value = 0xffffffff
  · simp [hall, hbroadcast hall]
  · by_cases hnone : value = 0
    · simp [hnone, hunspecified hnone]
    · simp only [hall, hnone, or_false, or_assoc]

theorem forbiddenIpv6_iff {address : Ipv6Addr} :
    forbiddenIpv6 address = true ↔ SpecialIpv6 address := by
  simp only [forbiddenIpv6, Bool.or_eq_true, decide_eq_true_eq, or_assoc]
  obtain ⟨segments, height⟩ := address
  match segments, height with
  | first :: rest, _ =>
    have hranges : 0xff00 ≤ first.val ∨ inBlock first.val 0xfc00 0x200 = true ∨
        inBlock first.val 0xfe80 0x40 = true ↔
        first.val / 256 = 255 ∨ first.val / 512 = 126 ∨ first.val / 64 = 1018 := by
      have hfirst := first.isLt
      rw [inBlock_iff, inBlock_iff]
      omega
    have hsome : (∃ f r, first :: rest = f :: r ∧
        (f.val / 256 = 255 ∨ f.val / 512 = 126 ∨ f.val / 64 = 1018)) ↔
        (first.val / 256 = 255 ∨ first.val / 512 = 126 ∨ first.val / 64 = 1018) := by
      constructor
      · rintro ⟨f, r, heq, h⟩
        cases heq
        exact h
      · intro h
        exact ⟨first, rest, rfl, h⟩
    rw [SpecialIpv6, hsome, ← hranges]
    rfl

theorem toIpv4Mapped_eq_some {address : Ipv6Addr} {mapped : Ipv4Addr} :
    toIpv4Mapped address = some mapped ↔ Maps address mapped := by
  obtain ⟨segments, height⟩ := address
  match segments, height with
  | [a, b, c, d, e, f, high, low], _ =>
    simp only [toIpv4Mapped, Maps, List.replicate, List.cons.injEq, and_true]
    constructor
    · intro h
      split_ifs at h with hzero
      obtain ⟨⟨ha, hb, hc, hd, he⟩, hf⟩ := hzero
      exact ⟨high, low, ⟨ha, hb, hc, hd, he, hf, rfl, rfl⟩, Option.some.inj h⟩
    · rintro ⟨_, _, ⟨ha, hb, hc, hd, he, hf, rfl, rfl⟩, rfl⟩
      exact if_pos ⟨⟨ha, hb, hc, hd, he⟩, hf⟩

theorem Maps.alone {address : Ipv6Addr} {mapped embedded : Ipv4Addr} (h : Maps address mapped) :
    ¬Tunnels address embedded ∧ ¬SpecialIpv6 address := by
  obtain ⟨high, low, hsegments, -⟩ := h
  constructor
  · rintro (⟨_, _, h⟩ | ⟨_, _, _, h⟩ | ⟨_, _, h⟩)
    all_goals
      rw [hsegments] at h
      simp at h
  · rintro (h | h | ⟨first, rest, h, hfirst⟩)
    · rw [hsegments] at h
      simp at h
    · rw [hsegments] at h
      simp at h
    · rw [hsegments] at h
      cases h
      simp at hfirst

theorem public_iff {address : IpAddr} (hpasses : forbiddenAddress address = false) :
    Public address ↔ ¬LeadsInside address := by
  cases address with
  | v4 address =>
    have hspecial : ¬SpecialIpv4 address := by
      rw [← forbiddenIpv4_iff, Bool.not_eq_true]
      exact hpasses
    simp [Public, LeadsInside, hspecial]
  | v6 address =>
    rw [forbiddenAddress] at hpasses
    cases hmapped : toIpv4Mapped address with
    | some mapped =>
      rw [hmapped] at hpasses
      have hmaps := toIpv4Mapped_eq_some.mp hmapped
      have hspecial : ¬SpecialIpv4 mapped := by
        rw [← forbiddenIpv4_iff, Bool.not_eq_true]
        exact hpasses
      have hleads : ¬LeadsInside (.v6 address) := by
        rintro ⟨embedded, htunnels, -⟩
        exact hmaps.alone.1 htunnels
      refine iff_of_true ⟨(@Maps.alone _ _ mapped hmaps).2, ?_⟩ hleads
      rintro embedded (hembedded | hembedded)
      · have hsame : some mapped = some embedded := by
          rw [← hmapped, toIpv4Mapped_eq_some.mpr hembedded]
        rw [← Option.some.inj hsame]
        exact hspecial
      · exact absurd hembedded hmaps.alone.1
    | none =>
      rw [hmapped] at hpasses
      have hspecial : ¬SpecialIpv6 address := by
        rw [← forbiddenIpv6_iff, Bool.not_eq_true]
        exact hpasses
      have hmaps : ∀ embedded, ¬Maps address embedded := by
        intro embedded h
        rw [toIpv4Mapped_eq_some.mpr h] at hmapped
        cases hmapped
      simp only [Public, LeadsInside, hspecial, not_false_eq_true, hmaps, false_or, true_and]
      push Not
      rfl

end addresses

section connections

/-- A URL that the fetch may ask for. -/
structure SecureUrl (web : Web) (url : web.Url) : Prop where
  scheme : web.scheme url = "https"
  username : web.username url = ""
  password : web.password url = none

def connectionOf {Url : Type} : SourceOp Url → Option (Url × List IpAddr)
  | .send url addresses _ _ _ => some (url, addresses)
  | _ => none

def connections {Url : Type} (ops : List (SourceOp Url)) : List (Url × List IpAddr) :=
  ops.filterMap connectionOf

instance (addresses : List IpAddr) : Decidable (Passes addresses) :=
  inferInstanceAs (Decidable (_ ∧ _))

def takenAnswer {Url : Type} : (Σ op : SourceOp Url, SourceReply op) → Option (List IpAddr)
  | ⟨.lookupHost _ _, (.ok addresses : Except String (List IpAddr))⟩ =>
    if Passes addresses then some addresses else none
  | _ => none

def takenAnswers {Url : Type} (log : List (Σ op : SourceOp Url, SourceReply op)) :
    List (List IpAddr) := log.filterMap takenAnswer

/-- All connections are secure and go to public addresses, and there are not too many. -/
structure ReachesPublic (web : Web) (ops : List (SourceOp web.Url)) : Prop where
  secure (url : web.Url) (addresses : List IpAddr) :
    (url, addresses) ∈ connections ops → SecureUrl web url
  isPublic (url : web.Url) (addresses : List IpAddr) :
    (url, addresses) ∈ connections ops → ∀ address ∈ addresses, Public address
  count : (connections ops).length ≤ maxRedirects + 1

variable {web : Web} {source : RuleSetSource} {url : web.Url} {redirects : ℕ}
  {q : SourceProgram web (Option RuleSetSource)} {t : Traced (@SourceReply web.Url) Unit}
  {log rest : List (Σ op : SourceOp web.Url, SourceReply op)}

theorem mem_takenAnswers {addresses : List IpAddr} : addresses ∈ takenAnswers log ↔
    Passes addresses ∧ ∃ host port,
      ⟨.lookupHost host port, (.ok addresses : Except String (List IpAddr))⟩ ∈ log := by
  rw [takenAnswers, List.mem_filterMap]
  constructor
  · rintro ⟨⟨op, reply⟩, hmem, htaken⟩
    cases op with
    | lookupHost host port =>
      obtain e | found : Except String (List IpAddr) := reply
      · cases htaken
      · rw [takenAnswer] at htaken
        split_ifs at htaken with hpasses
        cases htaken
        exact ⟨hpasses, host, port, hmem⟩
    | _ => cases htaken
  · rintro ⟨hpasses, host, port, hmem⟩
    exact ⟨_, hmem, if_pos hpasses⟩

def afterLookup (host : String) (port : ℕ)
    (found : SourceReply (@SourceOp.lookupHost web.Url host port)) :
    SourceProgram web (List IpAddr) :=
  match (found : Except String (List IpAddr)) with
  | .error _ => .fail "resolve remote rule source"
  | .ok addresses =>
    if addresses.isEmpty || addresses.any forbiddenAddress then
      .fail "remote rule source resolves to a forbidden address"
    else .done addresses

def afterSend (source : RuleSetSource) (redirects : ℕ) (url : web.Url) (addresses : List IpAddr)
    (reply : SourceReply
      (.send url addresses source.etag source.lastModified source.url : SourceOp web.Url)) :
    SourceProgram web (Option RuleSetSource) :=
  (lift (reply : Except String Response)).bind fun response ↦
    if response.status = 304 then return none
    else if 300 ≤ response.status ∧ response.status < 400 then
      match redirects with
      | 0 => .fail "remote rule source exceeded redirect limit"
      | redirects + 1 => do
        let target ← lift (redirectTarget web url response)
        fetchFrom web source redirects target
    else do
      let updated ← lift (accept web source response)
      return some updated

theorem validateRemoteUrl_eq {host : String} (hsecure : SecureUrl web url)
    (hhost : web.hostStr url = some host)
    (hlocal : (eqIgnoreAsciiCase host "localhost" || endsWith host ".localhost") = false) :
    validateRemoteUrl web url = .call (.lookupHost host ((web.portOrKnownDefault url).getD 443))
      (afterLookup host ((web.portOrKnownDefault url).getD 443)) := by
  have hif : ¬(decide (web.scheme url ≠ "https") || !isEmpty (web.username url) ||
      (web.password url).isSome) = true := by
    rw [hsecure.scheme, hsecure.username, hsecure.password]
    decide
  rw [validateRemoteUrl, if_neg hif, hhost]
  dsimp only
  rw [if_neg (by rw [hlocal]; exact Bool.false_ne_true)]
  refine congrArg (Program.call _) (funext fun found ↦ ?_)
  obtain e | addresses : Except String (List IpAddr) := found
  · rfl
  · rfl

theorem validateRemoteUrl_cases (url : web.Url) :
    (∃ e, validateRemoteUrl web url = .fail e) ∨ SecureUrl web url ∧
      ∃ host port, validateRemoteUrl web url =
        .call (.lookupHost host port) (afterLookup host port) := by
  by_cases hurl : (decide (web.scheme url ≠ "https") || !isEmpty (web.username url) ||
      (web.password url).isSome) = true
  · rw [validateRemoteUrl, if_pos hurl]
    exact .inl ⟨_, rfl⟩
  have hsecure : SecureUrl web url := by
    simp only [Bool.or_eq_true, decide_eq_true_eq, Bool.not_eq_true', not_or, ne_eq, not_not,
      Bool.not_eq_false, Text.isEmpty_iff, Option.not_isSome_iff_eq_none] at hurl
    exact ⟨hurl.1.1, hurl.1.2, hurl.2⟩
  cases hhost : web.hostStr url with
  | none =>
    rw [validateRemoteUrl, if_neg hurl, hhost]
    exact .inl ⟨_, rfl⟩
  | some host =>
    cases hlocal : eqIgnoreAsciiCase host "localhost" || endsWith host ".localhost" with
    | true =>
      rw [validateRemoteUrl, if_neg hurl, hhost]
      dsimp only
      rw [if_pos hlocal]
      exact .inl ⟨_, rfl⟩
    | false => exact .inr ⟨hsecure, host, _, validateRemoteUrl_eq hsecure hhost hlocal⟩

theorem refused_iff {addresses : List IpAddr} :
    (addresses.isEmpty || addresses.any forbiddenAddress) = true ↔ ¬Passes addresses := by
  rw [Bool.or_eq_true, List.isEmpty_iff, List.any_eq_true, Passes]
  constructor
  · rintro (hempty | ⟨address, hmem, hforbidden⟩) ⟨hne, hall⟩
    · exact hne hempty
    · rw [hall address hmem] at hforbidden
      cases hforbidden
  · intro h
    by_contra hnone
    push Not at hnone
    exact h ⟨hnone.1, fun address hmem ↦ by simpa using hnone.2 address hmem⟩

theorem afterLookup_taken {host : String} {port : ℕ} {addresses : List IpAddr}
    (hpasses : Passes addresses) :
    (afterLookup host port (.ok addresses) : SourceProgram web (List IpAddr)) =
      .done addresses := by
  rw [afterLookup, if_neg (refused_iff.not.mpr (not_not.mpr hpasses))]

theorem afterLookup_cases (host : String) (port : ℕ)
    (found : SourceReply (@SourceOp.lookupHost web.Url host port)) :
    (∃ e, afterLookup host port found = .fail e ∧
      takenAnswer ⟨.lookupHost host port, found⟩ = none) ∨
    ∃ addresses, afterLookup host port found = .done addresses ∧
      takenAnswer ⟨.lookupHost host port, found⟩ = some addresses := by
  obtain e | addresses : Except String (List IpAddr) := found
  · exact .inl ⟨_, rfl, rfl⟩
  · by_cases hpasses : Passes addresses
    · exact .inr ⟨addresses, afterLookup_taken hpasses, if_pos hpasses⟩
    · refine .inl ⟨"remote rule source resolves to a forbidden address", ?_, if_neg hpasses⟩
      rw [afterLookup, if_pos (refused_iff.mpr hpasses)]

theorem afterSend_cases {addresses : List IpAddr} (reply : SourceReply
      (.send url addresses source.etag source.lastModified source.url : SourceOp web.Url)) :
    (afterSend source redirects url addresses reply).pending = [] ∨
      ∃ fewer target, redirects = fewer + 1 ∧
        afterSend source redirects url addresses reply = fetchFrom web source fewer target := by
  obtain e | response : Except String Response := reply
  · exact .inl rfl
  · simp only [afterSend, lift, done_bind]
    split_ifs
    · exact .inl rfl
    · cases redirects with
      | zero => exact .inl rfl
      | succ fewer =>
        cases htarget : redirectTarget web url response with
        | error e =>
          refine .inl ?_
          simp [pending]
        | ok target =>
          refine .inr ⟨fewer, target, rfl, ?_⟩
          simp
    · cases haccept : accept web source response with
      | error e =>
        refine .inl ?_
        simp [pending]
      | ok updated =>
        refine .inl ?_
        simp [pending]

theorem fetchFrom_eq : fetchFrom web source redirects url =
    (validateRemoteUrl web url).bind fun addresses ↦
      .call (.send url addresses source.etag source.lastModified source.url)
        (afterSend source redirects url addresses) := by
  cases redirects <;> rfl

/-- The connections of a run are secure, one for each answer that was taken, and go to the
addresses of that answer. -/
structure Connects (web : Web) (count : ℕ) (ops : List (SourceOp web.Url))
    (log : List (Σ op : SourceOp web.Url, SourceReply op)) : Prop where
  secure : ∀ connection ∈ connections ops, SecureUrl web connection.1
  answers : (connections ops).map Prod.snd = takenAnswers log
  count : (connections ops).length ≤ count

theorem Connects.none : Connects web redirects [] [] :=
  ⟨fun _ h ↦ absurd h List.not_mem_nil, rfl, Nat.zero_le _⟩

theorem Connects.passed {host : String} {port : ℕ}
    {found : SourceReply (@SourceOp.lookupHost web.Url host port)}
    (htaken : takenAnswer ⟨.lookupHost host port, found⟩ = Option.none) :
    Connects web redirects [.lookupHost host port] [⟨.lookupHost host port, found⟩] where
  secure _ h := absurd h List.not_mem_nil
  answers := by
    rw [takenAnswers, List.filterMap_cons_none htaken]
    rfl
  count := Nat.zero_le _

theorem Connects.connect {host : String} {port : ℕ}
    {found : SourceReply (@SourceOp.lookupHost web.Url host port)} {addresses : List IpAddr}
    {etag lastModified : Option String} {sourceUrl : String} {ops : List (SourceOp web.Url)}
    (hsecure : SecureUrl web url)
    (htaken : takenAnswer ⟨.lookupHost host port, found⟩ = some addresses)
    (hafter : takenAnswers log = takenAnswers rest) (h : Connects web redirects ops rest) :
    Connects web (redirects + 1)
      (.lookupHost host port :: .send url addresses etag lastModified sourceUrl :: ops)
      (⟨.lookupHost host port, found⟩ :: log) where
  secure connection hmem := by
    rcases List.mem_cons.mp hmem with rfl | hmem
    · exact hsecure
    · exact h.secure connection hmem
  answers := by
    have hanswers : takenAnswers (⟨.lookupHost host port, found⟩ :: log) =
        addresses :: takenAnswers log := List.filterMap_cons_some htaken
    rw [hanswers, hafter, ← h.answers]
    rfl
  count := Nat.succ_le_succ h.count

theorem connects_of_run (hrun : Run (tracedStep anyAnswer) (fetchFrom web source redirects url)
    ⟨(), log⟩ q t) :
    ∃ rest, t.log = log ++ rest ∧ Connects web (redirects + 1) (asked q rest) rest := by
  induction redirects using Nat.strong_induction_on generalizing url log with
  | _ redirects ih =>
    rw [fetchFrom_eq] at hrun
    rcases validateRemoteUrl_cases url with ⟨e, hrefused⟩ | ⟨hsecure, host, port, hlookup⟩
    · rw [hrefused] at hrun
      obtain ⟨rfl, rfl⟩ := hrun.still rfl
      exact ⟨[], (List.append_nil _).symm, .none⟩
    rw [hlookup, call_bind] at hrun
    rcases hrun.call_cases with ⟨rfl, rfl⟩ | ⟨found, ⟨_, _⟩, ⟨-, rfl⟩, hrun⟩
    · exact ⟨[], (List.append_nil _).symm, ⟨fun _ h ↦ absurd h List.not_mem_nil, rfl,
        Nat.zero_le _⟩⟩
    rcases afterLookup_cases host port found with
      ⟨e, hafter, htaken⟩ | ⟨addresses, hafter, htaken⟩
    · rw [hafter, fail_bind] at hrun
      obtain ⟨rfl, rfl⟩ := hrun.still rfl
      exact ⟨_, rfl, .passed htaken⟩
    rw [hafter, done_bind] at hrun
    rcases hrun.call_cases with ⟨rfl, rfl⟩ | ⟨reply, ⟨_, _⟩, ⟨-, rfl⟩, hrun⟩
    · exact ⟨_, rfl, .connect hsecure htaken rfl .none⟩
    obtain hended | ⟨fewer, target, rfl, hnext⟩ :
        (afterSend source redirects url addresses reply).pending = [] ∨
          ∃ fewer target, redirects = fewer + 1 ∧
            afterSend source redirects url addresses reply = fetchFrom web source fewer target :=
      afterSend_cases reply
    · obtain ⟨rfl, rfl⟩ := hrun.still hended
      refine ⟨_, List.append_assoc _ _ _, ?_⟩
      rw [asked, hended, List.append_nil]
      refine .connect hsecure htaken ?_ .none
      rfl
    · rw [hnext] at hrun
      obtain ⟨rest, hlog, hconnects⟩ := ih fewer (Nat.lt_succ_self _) hrun
      refine ⟨⟨_, found⟩ :: ⟨_, reply⟩ :: rest, by rw [hlog]; simp, ?_⟩
      refine .connect hsecure htaken ?_ hconnects
      rfl

/-- Every connection of a fetch is secure and goes to public addresses, as long as no lookup that
the fetch takes answers with an IPv6 address that leads to a special IPv4 address. -/
theorem fetch_reachesPublic_iff (web : Web) (source : RuleSetSource)
    (q : SourceProgram web (Option RuleSetSource)) (t : Traced (@SourceReply web.Url) Unit)
    (hrun : Run (tracedStep anyAnswer) (fetch web source) ⟨(), []⟩ q t) :
    ReachesPublic web (asked q t.log) ↔ ∀ (host : String) (port : ℕ) (addresses : List IpAddr),
      ⟨.lookupHost host port, (.ok addresses : Except String (List IpAddr))⟩ ∈ t.log →
        Passes addresses → ∀ address ∈ addresses, ¬LeadsInside address := by
  have hconnects : Connects web (maxRedirects + 1) (asked q t.log) t.log := by
    rw [fetch] at hrun
    cases hurl : web.parseUrl source.url with
    | error e =>
      rw [hurl] at hrun
      obtain ⟨rfl, rfl⟩ := hrun.still rfl
      exact .none
    | ok url =>
      rw [hurl] at hrun
      obtain ⟨rest, hlog, hconnects⟩ := connects_of_run hrun
      rw [hlog]
      exact hconnects
  have hpublic {addresses : List IpAddr} (hpasses : Passes addresses) :
      (∀ address ∈ addresses, Public address) ↔ ∀ address ∈ addresses, ¬LeadsInside address :=
    forall₂_congr fun address hmem ↦ public_iff (hpasses.2 address hmem)
  constructor
  · intro hreaches host port addresses hmem hpasses
    have htaken : addresses ∈ takenAnswers t.log := mem_takenAnswers.mpr ⟨hpasses, host, port, hmem⟩
    rw [← hconnects.answers] at htaken
    obtain ⟨⟨url, _⟩, hconnection, rfl⟩ := List.mem_map.mp htaken
    exact (hpublic hpasses).mp (hreaches.isPublic url _ hconnection)
  · intro hanswers
    refine ⟨fun url addresses hmem ↦ hconnects.secure _ hmem, fun url addresses hmem ↦ ?_,
      hconnects.count⟩
    have htaken : addresses ∈ takenAnswers t.log := by
      rw [← hconnects.answers]
      exact List.mem_map_of_mem hmem
    obtain ⟨hpasses, host, port, hlookup⟩ := mem_takenAnswers.mp htaken
    exact (hpublic hpasses).mpr (hanswers host port addresses hlookup hpasses)

end connections

section demonstration

def sampleSource : RuleSetSource where
  id := "source"
  ruleSetId := "set"
  url := "https://rules.example.test/list"
  format := .text
  enabled := true
  refreshIntervalSeconds := 300
  etag := none
  lastModified := none
  lastSuccessfulFetch := none
  checksum := none
  entryCount := 0
  lastError := none
  cachedPayload := ""

def publicAddress : IpAddr := .v4 ⟨1, 1, 1, 1⟩

/-- `64:ff9b::7f00:1`, which a NAT64 gateway takes to the loopback address. -/
def translatedLoopback : IpAddr := .v6 ⟨[0x64, 0xff9b, 0, 0, 0, 0, 0x7f00, 1], rfl⟩

theorem translatedLoopback_leadsInside : LeadsInside translatedLoopback := by
  refine ⟨_, .nat64 0x7f00 1 rfl, ?_⟩
  rw [← forbiddenIpv4_iff]
  decide

def sampleLog (address : IpAddr) : List (Σ op : SourceOp sampleWeb.Url, SourceReply op) :=
  [⟨.lookupHost "rules.example.test" 443, (.ok [address] : Except String (List IpAddr))⟩]

def sampleUrl : sampleWeb.Url := ("https://rules.example.test/list" : String)

theorem sampleUrl_validated : validateRemoteUrl sampleWeb sampleUrl =
    .call (.lookupHost "rules.example.test" 443) (afterLookup "rules.example.test" 443) :=
  validateRemoteUrl_eq ⟨rfl, rfl, rfl⟩ rfl (by decide)

def sampleSend (address : IpAddr) : SourceProgram sampleWeb (Option RuleSetSource) :=
  .call (.send sampleUrl [address] sampleSource.etag sampleSource.lastModified sampleSource.url)
    (afterSend sampleSource maxRedirects sampleUrl [address])

theorem sampleSend_run {address : IpAddr} (h : forbiddenAddress address = false) :
    Run (tracedStep anyAnswer) (fetch sampleWeb sampleSource) ⟨(), []⟩ (sampleSend address)
      ⟨(), sampleLog address⟩ := by
  have hpasses : Passes [address] := by
    refine ⟨List.cons_ne_nil _ _, fun a ha ↦ ?_⟩
    rw [List.mem_singleton.mp ha]
    exact h
  have hfetch : fetch sampleWeb sampleSource =
      fetchFrom sampleWeb sampleSource maxRedirects sampleUrl := rfl
  rw [hfetch, fetchFrom_eq, sampleUrl_validated]
  have hstep : tracedStep anyAnswer ⟨(), []⟩ (@SourceOp.lookupHost sampleWeb.Url _ _)
      (.ok [address] : Except String (List IpAddr)) ⟨(), sampleLog address⟩ := ⟨trivial, rfl⟩
  refine Run.call hstep ?_
  rw [afterLookup_taken hpasses]
  exact Run.stop _ _

theorem sample_connections (address : IpAddr) :
    connections (asked (sampleSend address) (sampleLog address)) = [(sampleUrl, [address])] := rfl

theorem translated_loopback_reached :
    ¬∀ (web : Web) (source : RuleSetSource) (q : SourceProgram web (Option RuleSetSource))
      (t : Traced (@SourceReply web.Url) Unit),
      Run (tracedStep anyAnswer) (fetch web source) ⟨(), []⟩ q t →
        ReachesPublic web (asked q t.log) := by
  intro h
  have hforbidden : forbiddenAddress translatedLoopback = false := by decide
  have hreaches := h sampleWeb sampleSource _ _ (sampleSend_run hforbidden)
  have hpublic := hreaches.isPublic sampleUrl [translatedLoopback]
    (by rw [sample_connections]; exact List.mem_cons_self) translatedLoopback List.mem_cons_self
  exact (public_iff hforbidden).mp hpublic translatedLoopback_leadsInside

theorem fetch_reachesPublic_iff_sample :
    ReachesPublic sampleWeb (asked (sampleSend publicAddress) (sampleLog publicAddress)) := by
  refine (fetch_reachesPublic_iff sampleWeb sampleSource _ ⟨(), sampleLog publicAddress⟩
    (sampleSend_run (by decide))).mpr ?_
  intro host port addresses hmem _ address haddress
  cases List.mem_singleton.mp hmem
  rw [List.mem_singleton.mp haddress]
  exact not_false

end demonstration

end StealthHub.Panel.RuleSources

import Mathlib.Data.List.Induction
import Mathlib.Data.List.Nodup
import Mathlib.Data.List.Perm.Subperm
import StealthHub.Data.IpAddr
import StealthHub.Data.OrderedMap

set_option autoImplicit false

namespace StealthHub.Panel

open Text

/-- In nanoseconds. -/
def loginRateLimitWindow : ℕ := 15 * 60 * 10 ^ 9

def loginRateLimitMaxFailures : ℕ := 5

def loginRateLimitMaxKeys : ℕ := 2048

/-- What a login reads of its request. -/
structure LoginRequest where
  /-- The header that the proxy in front of the panel sets. -/
  realIp : Option String
  peer : IpAddr
  username : String

def isLoopback : IpAddr → Bool
  | .v4 addr => addr.a = 127
  | .v6 addr => addr.segments = [0, 0, 0, 0, 0, 0, 0, 1]

def trustedForwardedSource (request : LoginRequest) : Option IpAddr :=
  request.realIp.bind fun value ↦ parseIpAddr (trim value)

def loginSource (request : LoginRequest) : IpAddr :=
  if isLoopback request.peer then (trustedForwardedSource request).getD request.peer
  else request.peer

def loginSourceHint (request : LoginRequest) : String := ipAddrText (loginSource request)

def loginUsername (request : LoginRequest) : String :=
  let username := String.ofList ((toAsciiLowercase (trim request.username)).toList.take 128)
  if isEmpty username then "<empty>" else username

def sourceKey (source : String) : String := "source:" ++ source

def accountKey (username source : String) : String :=
  "account-source:" ++ (username ++ ("@" ++ source))

def loginRateLimitKeys (request : LoginRequest) : List String :=
  [sourceKey (loginSourceHint request), accountKey (loginUsername request) (loginSourceHint request)]

structure LoginAttempt where
  failures : ℕ
  windowStartedAt : ℕ
  deriving DecidableEq

abbrev LoginAttempts := OrderedMap String LoginAttempt

def LoginAttempt.isOpen (attempt : LoginAttempt) (now : ℕ) : Bool :=
  now - attempt.windowStartedAt < loginRateLimitWindow

def pruneLoginAttempts (attempts : LoginAttempts) (now : ℕ) : LoginAttempts :=
  attempts.filter fun _ attempt ↦ attempt.isOpen now

/-- One key of `retry_after`, with the waiting times found so far. -/
def checkKey (now : ℕ) (state : LoginAttempts × List ℕ) (key : String) : LoginAttempts × List ℕ :=
  match state.1.get? key with
  | none => state
  | some attempt =>
    if loginRateLimitWindow ≤ now - attempt.windowStartedAt then (state.1.erase key, state.2)
    else if loginRateLimitMaxFailures ≤ attempt.failures then
      (state.1, state.2 ++ [loginRateLimitWindow - (now - attempt.windowStartedAt)])
    else state

def retryAfter (attempts : LoginAttempts) (keys : List String) (now : ℕ) :
    Option ℕ × LoginAttempts :=
  let (attempts, waits) := keys.foldl (checkKey now) (pruneLoginAttempts attempts now, [])
  (waits.max?, attempts)

/-- One key of `record_failure`; the count saturates. -/
def recordKey (now : ℕ) (attempts : LoginAttempts) (key : String) : LoginAttempts :=
  if !attempts.contains key && loginRateLimitMaxKeys ≤ attempts.entries.length then attempts
  else
    let attempt := (attempts.get? key).getD ⟨0, now⟩
    let attempt :=
      if loginRateLimitWindow ≤ now - attempt.windowStartedAt then ⟨0, now⟩ else attempt
    attempts.insert key { attempt with failures := min (attempt.failures + 1) 4294967295 }

def recordFailure (attempts : LoginAttempts) (keys : List String) (now : ℕ) : LoginAttempts :=
  keys.foldl (recordKey now) (pruneLoginAttempts attempts now)

def recordSuccess (attempts : LoginAttempts) (keys : List String) : LoginAttempts :=
  keys.foldl OrderedMap.erase attempts

inductive LimiterCall
  | retryAfter
  | recordFailure
  | recordSuccess
  deriving DecidableEq

structure LimiterEvent where
  time : ℕ
  call : LimiterCall
  request : LoginRequest

def LimiterEvent.apply (attempts : LoginAttempts) (event : LimiterEvent) : LoginAttempts :=
  match event.call with
  | .retryAfter => (retryAfter attempts (loginRateLimitKeys event.request) event.time).2
  | .recordFailure => recordFailure attempts (loginRateLimitKeys event.request) event.time
  | .recordSuccess => recordSuccess attempts (loginRateLimitKeys event.request)

/-- What the limiter holds after a sequence of calls. -/
def attemptsAfter (events : List LimiterEvent) : LoginAttempts :=
  events.foldl LimiterEvent.apply .empty

variable {attempts : LoginAttempts} {attempt : LoginAttempt} {key source : String}
variable {keys : List String} {now : ℕ} {request request' : LoginRequest}
variable {event : LimiterEvent} {events : List LimiterEvent}

section keys

theorem at_not_mem_source (request : LoginRequest) : '@' ∉ (loginSourceHint request).toList := by
  intro h
  exact absurd (ipAddrText_address _ _ h) (by decide)

theorem sourceKey_inj {source' : String} : sourceKey source = sourceKey source' ↔ source = source' := by
  rw [sourceKey, sourceKey, String.append_right_inj]

theorem sourceKey_ne_accountKey {source' username : String} :
    sourceKey source ≠ accountKey username source' := by
  intro h
  have hlist := congrArg String.toList h
  simp [sourceKey, accountKey] at hlist

theorem append_at_inj {l l' s s' : List Char} (hs : '@' ∉ s) (hs' : '@' ∉ s')
    (h : l ++ '@' :: s = l' ++ '@' :: s') : s = s' := by
  have hread : ∀ l s : List Char, '@' ∉ s →
      (l ++ '@' :: s).reverse.takeWhile (· ≠ '@') = s.reverse := by
    intro l s hs
    rw [List.reverse_append, List.reverse_cons, List.append_assoc,
      List.takeWhile_append_of_pos fun c hc ↦ ?_]
    · simp
    · have hc : c ∈ s := List.mem_reverse.mp hc
      exact decide_eq_true fun heq ↦ hs (heq ▸ hc)
  have hboth := hread l s hs
  rw [h, hread l' s' hs'] at hboth
  exact (List.reverse_inj.mp hboth).symm

theorem source_of_keys (h : key ∈ loginRateLimitKeys request)
    (h' : key ∈ loginRateLimitKeys request') :
    loginSourceHint request = loginSourceHint request' := by
  simp only [loginRateLimitKeys, List.mem_cons, List.not_mem_nil, or_false] at h h'
  rcases h with rfl | rfl <;> rcases h' with h' | h'
  · exact sourceKey_inj.mp h'
  · exact absurd h' sourceKey_ne_accountKey
  · exact absurd h'.symm sourceKey_ne_accountKey
  · have hlist := congrArg String.toList h'
    simp only [accountKey, String.toList_append] at hlist
    have htail := List.append_cancel_left hlist
    exact String.toList_inj.mp
      (append_at_inj (at_not_mem_source request) (at_not_mem_source request') htail)

theorem sourceKey_mem (request : LoginRequest) :
    sourceKey (loginSourceHint request) ∈ loginRateLimitKeys request := List.mem_cons_self

end keys

section calls

def Pruned (attempts : LoginAttempts) (now : ℕ) : Prop :=
  ∀ key attempt, attempts.get? key = some attempt → attempt.isOpen now = true

theorem get?_prune : (pruneLoginAttempts attempts now).get? key =
    (attempts.get? key).filter (·.isOpen now) := OrderedMap.get?_filter _ _ _

theorem prune_pruned (attempts : LoginAttempts) (now : ℕ) :
    Pruned (pruneLoginAttempts attempts now) now := by
  intro key attempt h
  rw [get?_prune, Option.filter_eq_some_iff] at h
  exact h.2

theorem prune_of_pruned (h : Pruned attempts now) : pruneLoginAttempts attempts now = attempts := by
  obtain ⟨entries, hsorted⟩ := attempts
  simp only [pruneLoginAttempts, OrderedMap.filter, OrderedMap.mk.injEq, List.filter_eq_self]
  exact fun entry hentry ↦ h entry.1 entry.2 (OrderedMap.mem_entries.mp hentry)

def waitOf (attempts : LoginAttempts) (now : ℕ) (key : String) : Option ℕ :=
  (attempts.get? key).bind fun attempt ↦
    if loginRateLimitMaxFailures ≤ attempt.failures then
      some (loginRateLimitWindow - (now - attempt.windowStartedAt))
    else none

theorem checkKeys_pruned (h : Pruned attempts now) (found : List ℕ) :
    keys.foldl (checkKey now) (attempts, found) =
      (attempts, found ++ keys.filterMap (waitOf attempts now)) := by
  induction keys generalizing found with
  | nil => simp
  | cons key rest ih =>
    have hstep : checkKey now (attempts, found) key =
        (attempts, found ++ (waitOf attempts now key).toList) := by
      rw [checkKey, waitOf]
      cases hget : attempts.get? key with
      | none => simp
      | some attempt =>
        have hopen : ¬loginRateLimitWindow ≤ now - attempt.windowStartedAt :=
          Nat.not_le.mpr (of_decide_eq_true (h key attempt hget))
        simp only [if_neg hopen, Option.bind_some]
        split_ifs
        · rfl
        · simp
    rw [List.foldl_cons, hstep, ih, List.append_assoc]
    cases hwait : waitOf attempts now key <;> simp [hwait]

theorem retryAfter_eq : retryAfter attempts keys now =
    ((keys.filterMap (waitOf (pruneLoginAttempts attempts now) now)).max?,
      pruneLoginAttempts attempts now) := by
  rw [retryAfter, checkKeys_pruned (prune_pruned attempts now)]
  rfl

theorem retryAfter_isSome : (retryAfter attempts keys now).1.isSome ↔ ∃ key ∈ keys, ∃ attempt,
    attempts.get? key = some attempt ∧ attempt.isOpen now = true ∧
      loginRateLimitMaxFailures ≤ attempt.failures := by
  rw [retryAfter_eq, List.isSome_max?_iff, ne_eq, List.filterMap_eq_nil_iff]
  simp only [not_forall, waitOf, get?_prune, Option.bind_eq_none_iff, ite_eq_right_iff,
    Option.filter_eq_some_iff, reduceCtorEq, imp_false, not_not, exists_prop, and_assoc]

theorem get?_recordKey_of_ne {other : String} (h : other ≠ key) :
    (recordKey now attempts other).get? key = attempts.get? key := by
  rw [recordKey]
  split_ifs
  · rfl
  · rw [OrderedMap.get?_insert, if_neg h]

theorem get?_recordKey_held (hheld : attempts.get? key = some attempt)
    (hopen : attempt.isOpen now = true) : (recordKey now attempts key).get? key =
      some { attempt with failures := min (attempt.failures + 1) 4294967295 } := by
  have hopen : ¬loginRateLimitWindow ≤ now - attempt.windowStartedAt :=
    Nat.not_le.mpr (of_decide_eq_true hopen)
  rw [recordKey, if_neg (by simp [OrderedMap.contains, hheld]), OrderedMap.get?_insert, if_pos rfl,
    hheld, Option.getD_some, if_neg hopen]

theorem get?_recordKey_new (habsent : attempts.get? key = none)
    (hroom : attempts.entries.length < loginRateLimitMaxKeys) :
    (recordKey now attempts key).get? key = some ⟨1, now⟩ := by
  rw [recordKey, if_neg (by simp [hroom.not_ge]), OrderedMap.get?_insert, if_pos rfl, habsent,
    Option.getD_none, Nat.sub_self, if_neg (by decide)]
  rfl

theorem recordKey_full (habsent : attempts.get? key = none)
    (hfull : loginRateLimitMaxKeys ≤ attempts.entries.length) :
    recordKey now attempts key = attempts := by
  rw [recordKey, if_pos (by simp [OrderedMap.contains, habsent, hfull])]

theorem get?_recordSuccess : (recordSuccess attempts keys).get? key =
    if key ∈ keys then none else attempts.get? key := by
  rw [recordSuccess]
  induction keys generalizing attempts with
  | nil => simp
  | cons other rest ih =>
    rw [List.foldl_cons, ih, OrderedMap.get?_erase]
    by_cases h : key = other
    · simp [h]
    · simp [h, Ne.symm h]

end calls

section windows

/-- The failures of one source that count together: those since the first one, while the window
is open that it opened. -/
structure FailureWindow where
  start : ℕ
  count : ℕ

def Begins (window : Option FailureWindow) (time : ℕ) : Prop :=
  ∀ open' ∈ window, loginRateLimitWindow ≤ time - open'.start

instance (window : Option FailureWindow) (time : ℕ) : Decidable (Begins window time) :=
  match window with
  | none => isTrue nofun
  | some open' => decidable_of_iff (loginRateLimitWindow ≤ time - open'.start)
    ⟨fun h _ hmem ↦ Option.some.inj hmem ▸ h, fun h ↦ h open' rfl⟩

def nextWindow (source : String) (window : Option FailureWindow) (event : LimiterEvent) :
    Option FailureWindow :=
  if loginSourceHint event.request ≠ source then window
  else match event.call with
    | .retryAfter => window
    | .recordSuccess => none
    | .recordFailure =>
      if Begins window event.time then some ⟨event.time, 1⟩
      else window.map fun open' ↦ ⟨open'.start, open'.count + 1⟩

def failureWindow (source : String) (events : List LimiterEvent) : Option FailureWindow :=
  events.foldl (nextWindow source) none

/-- So many failures of the source have been recorded that it is to be refused. -/
def Blocked (source : String) (events : List LimiterEvent) (now : ℕ) : Prop :=
  ∃ window ∈ failureWindow source events, loginRateLimitMaxFailures ≤ window.count ∧
    now - window.start < loginRateLimitWindow

/-- Every failure that begins a window of the source finds room for its key. -/
def Roomy (source : String) (events : List LimiterEvent) : Prop :=
  ∀ before event after, events = before ++ event :: after → event.call = .recordFailure →
    loginSourceHint event.request = source → Begins (failureWindow source before) event.time →
    (pruneLoginAttempts (attemptsAfter before) event.time).entries.length < loginRateLimitMaxKeys

/-- The calls come in the order of their times. -/
def InTime (events : List LimiterEvent) (now : ℕ) : Prop :=
  (events.Pairwise fun a b ↦ a.time ≤ b.time) ∧ ∀ event ∈ events, event.time ≤ now

theorem inTime_concat : InTime (events ++ [event]) now ↔
    InTime events event.time ∧ event.time ≤ now ∧ ∀ e ∈ events, e.time ≤ now := by
  simp only [InTime, List.pairwise_append, List.pairwise_singleton, List.mem_singleton,
    forall_eq, true_and, List.mem_append, or_imp, forall_and]
  tauto

theorem Roomy.init (h : Roomy source (events ++ [event])) : Roomy source events := by
  intro before e after hsplit
  exact h before e (after ++ [event]) (by rw [hsplit, List.append_assoc, List.cons_append])

/-- While the window of the source is open, the limiter holds it under the key of the source. -/
structure Tracks (source : String) (window : Option FailureWindow) (now : ℕ)
    (attempts : LoginAttempts) : Prop where
  held : ∀ open' ∈ window, now - open'.start < loginRateLimitWindow →
    attempts.get? (sourceKey source) = some ⟨min open'.count 4294967295, open'.start⟩
  only : ∀ attempt, attempts.get? (sourceKey source) = some attempt →
    attempt.isOpen now = true → ¬Begins window now

variable {window : Option FailureWindow}

theorem Tracks.mono {later : ℕ} (h : Tracks source window now attempts) (hle : now ≤ later) :
    Tracks source window later attempts := by
  refine ⟨fun open' hmem hopen ↦ h.held open' hmem (by omega), fun attempt hget hopen hbegins ↦ ?_⟩
  have hopen : later - attempt.windowStartedAt < loginRateLimitWindow := of_decide_eq_true hopen
  refine h.only attempt hget (decide_eq_true (by omega)) fun open' hmem ↦ ?_
  by_contra hnow
  have hheld := h.held open' hmem (by omega)
  rw [hget] at hheld
  have hstart := congrArg LoginAttempt.windowStartedAt (Option.some.inj hheld)
  have hover := hbegins open' hmem
  simp only at hstart
  omega

theorem Tracks.prune (h : Tracks source window now attempts) :
    Tracks source window now (pruneLoginAttempts attempts now) := by
  refine ⟨fun open' hmem hopen ↦ ?_, fun attempt hget hopen ↦ ?_⟩
  · rw [get?_prune, h.held open' hmem hopen]
    exact Option.filter_some_pos (decide_eq_true hopen)
  · rw [get?_prune, Option.filter_eq_some_iff] at hget
    exact h.only attempt hget.1 hopen

theorem Tracks.congr {attempts' : LoginAttempts} (h : Tracks source window now attempts)
    (hsame : attempts'.get? (sourceKey source) = attempts.get? (sourceKey source)) :
    Tracks source window now attempts' :=
  ⟨fun open' hmem hopen ↦ hsame.trans (h.held open' hmem hopen),
    fun attempt hget ↦ h.only attempt (hsame ▸ hget)⟩

theorem get?_recordKeys_of_not_mem (h : key ∉ keys) :
    (keys.foldl (recordKey now) attempts).get? key = attempts.get? key := by
  induction keys generalizing attempts with
  | nil => rfl
  | cons other rest ih =>
    rw [List.mem_cons, not_or] at h
    rw [List.foldl_cons, ih h.2, get?_recordKey_of_ne (Ne.symm h.1)]

theorem sourceKey_not_mem (h : loginSourceHint request ≠ source) :
    sourceKey source ∉ loginRateLimitKeys request := by
  simp only [loginRateLimitKeys, List.mem_cons, List.not_mem_nil, or_false, not_or]
  exact ⟨fun heq ↦ h (sourceKey_inj.mp heq).symm, sourceKey_ne_accountKey⟩

theorem get?_recordFailure_source (request : LoginRequest) :
    (recordFailure attempts (loginRateLimitKeys request) now).get?
        (sourceKey (loginSourceHint request)) =
      (recordKey now (pruneLoginAttempts attempts now)
        (sourceKey (loginSourceHint request))).get? (sourceKey (loginSourceHint request)) := by
  rw [recordFailure, loginRateLimitKeys, List.foldl_cons]
  refine get?_recordKeys_of_not_mem ?_
  rw [List.mem_singleton]
  exact sourceKey_ne_accountKey

theorem Tracks.failure (h : Tracks (loginSourceHint request) window now attempts)
    (hroom : Begins window now →
      (pruneLoginAttempts attempts now).entries.length < loginRateLimitMaxKeys) :
    Tracks (loginSourceHint request)
      (if Begins window now then some ⟨now, 1⟩
        else window.map fun open' ↦ ⟨open'.start, open'.count + 1⟩) now
      (recordFailure attempts (loginRateLimitKeys request) now) := by
  have hpruned := h.prune
  by_cases hbegins : Begins window now
  · have habsent : (pruneLoginAttempts attempts now).get? (sourceKey (loginSourceHint request)) =
        none := by
      refine Option.eq_none_iff_forall_ne_some.mpr fun attempt hget ↦ ?_
      exact hpruned.only attempt hget (prune_pruned _ _ _ _ hget) hbegins
    have hnew := (get?_recordFailure_source request).trans
      (get?_recordKey_new habsent (hroom hbegins))
    rw [if_pos hbegins]
    refine ⟨fun open' hmem _ ↦ ?_, fun attempt hget _ hover ↦ ?_⟩
    · cases hmem
      exact hnew
    · have hzero := hover ⟨now, 1⟩ rfl
      simp only [Nat.sub_self] at hzero
      exact absurd hzero (by decide)
  · rw [if_neg hbegins]
    simp only [Begins, not_forall] at hbegins
    obtain ⟨open', hmem, hopen⟩ := hbegins
    cases hmem
    have hopen : now - open'.start < loginRateLimitWindow := Nat.not_le.mp hopen
    have hheld := (get?_recordFailure_source request).trans
      (get?_recordKey_held (hpruned.held open' rfl hopen) (decide_eq_true hopen))
    refine ⟨fun next hmem _ ↦ ?_, fun attempt hget _ hover ↦ ?_⟩
    · cases hmem
      rw [hheld]
      simp only [Option.some.injEq, LoginAttempt.mk.injEq, and_true]
      omega
    · exact absurd (hover _ rfl) hopen.not_ge

theorem Tracks.apply (h : Tracks source window event.time attempts)
    (hroom : event.call = .recordFailure → loginSourceHint event.request = source →
      Begins window event.time →
        (pruneLoginAttempts attempts event.time).entries.length < loginRateLimitMaxKeys) :
    Tracks source (nextWindow source window event) event.time
      (LimiterEvent.apply attempts event) := by
  obtain ⟨time, call, request⟩ := event
  by_cases hsource : loginSourceHint request = source
  · subst hsource
    rw [nextWindow, if_neg (not_not.mpr rfl)]
    cases call with
    | retryAfter =>
      simp only [LimiterEvent.apply, retryAfter_eq]
      exact h.prune
    | recordFailure => exact h.failure (hroom rfl rfl)
    | recordSuccess =>
      have hgone : (recordSuccess attempts (loginRateLimitKeys request)).get?
          (sourceKey (loginSourceHint request)) = none := by
        rw [get?_recordSuccess, if_pos (sourceKey_mem request)]
      refine ⟨nofun, fun attempt hget ↦ ?_⟩
      cases hgone.symm.trans hget
  · rw [nextWindow, if_pos hsource]
    have hother := sourceKey_not_mem hsource
    cases call with
    | retryAfter =>
      simp only [LimiterEvent.apply, retryAfter_eq]
      exact h.prune
    | recordFailure => exact h.prune.congr (get?_recordKeys_of_not_mem hother)
    | recordSuccess =>
      refine h.congr ?_
      show (recordSuccess attempts (loginRateLimitKeys request)).get? _ = _
      rw [get?_recordSuccess, if_neg hother]

theorem tracks (hroomy : Roomy source events) (htime : InTime events now) :
    Tracks source (failureWindow source events) now (attemptsAfter events) := by
  induction events using List.reverseRecOn generalizing now with
  | nil => exact ⟨nofun, nofun⟩
  | append_singleton events event ih =>
    obtain ⟨hbefore, hnow, -⟩ := inTime_concat.mp htime
    rw [failureWindow, attemptsAfter, List.foldl_concat, List.foldl_concat]
    refine Tracks.mono (Tracks.apply (ih hroomy.init hbefore) ?_) hnow
    exact hroomy events event [] rfl

theorem refused_of_blocked (hroomy : Roomy (loginSourceHint request) events)
    (htime : InTime events now) (hblocked : Blocked (loginSourceHint request) events now) :
    (retryAfter (attemptsAfter events) (loginRateLimitKeys request) now).1.isSome := by
  obtain ⟨window, hwindow, hcount, hopen⟩ := hblocked
  refine retryAfter_isSome.mpr ⟨_, sourceKey_mem request, _,
    (tracks hroomy htime).held window hwindow hopen, decide_eq_true hopen, ?_⟩
  simp only [loginRateLimitMaxFailures] at hcount ⊢
  omega

end windows

section admission

def Recorded (events : List LimiterEvent) (attempts : LoginAttempts) : Prop :=
  ∀ key attempt, attempts.get? key = some attempt → ∃ event ∈ events,
    event.call = .recordFailure ∧ key ∈ loginRateLimitKeys event.request ∧
      event.time = attempt.windowStartedAt

theorem Recorded.prune (h : Recorded events attempts) :
    Recorded events (pruneLoginAttempts attempts now) := by
  intro key attempt hget
  rw [get?_prune, Option.filter_eq_some_iff] at hget
  exact h key attempt hget.1

theorem Recorded.recordKey (h : Recorded events attempts) (hevent : event ∈ events)
    (hcall : event.call = .recordFailure) (hkey : key ∈ loginRateLimitKeys event.request) :
    Recorded events (recordKey event.time attempts key) := by
  intro other attempt hget
  by_cases hother : key = other
  · subst hother
    rw [Panel.recordKey] at hget
    split_ifs at hget with hfull
    · exact h key attempt hget
    · rw [OrderedMap.get?_insert, if_pos rfl] at hget
      cases hget
      simp only
      split_ifs
      · exact ⟨event, hevent, hcall, hkey, rfl⟩
      · cases hheld : attempts.get? key with
        | none => exact ⟨event, hevent, hcall, hkey, rfl⟩
        | some held => exact h key held hheld
  · rw [get?_recordKey_of_ne hother] at hget
    exact h other attempt hget

theorem Recorded.recordKeys (h : Recorded events attempts) (hevent : event ∈ events)
    (hcall : event.call = .recordFailure)
    (hkeys : ∀ key ∈ keys, key ∈ loginRateLimitKeys event.request) :
    Recorded events (keys.foldl (Panel.recordKey event.time) attempts) := by
  induction keys generalizing attempts with
  | nil => exact h
  | cons key rest ih =>
    obtain ⟨hkey, hrest⟩ := List.forall_mem_cons.mp hkeys
    exact ih (h.recordKey hevent hcall hkey) hrest

theorem recorded (events : List LimiterEvent) : Recorded events (attemptsAfter events) := by
  induction events using List.reverseRecOn with
  | nil => nofun
  | append_singleton events event ih =>
    have hkept : Recorded (events ++ [event]) (attemptsAfter events) := by
      intro key attempt hget
      obtain ⟨found, hfound, h⟩ := ih key attempt hget
      exact ⟨found, List.mem_append_left _ hfound, h⟩
    rw [attemptsAfter, List.foldl_concat, LimiterEvent.apply]
    split
    · rw [retryAfter_eq]
      exact hkept.prune
    next hcall =>
      exact hkept.prune.recordKeys (List.mem_append_right _ List.mem_cons_self) hcall fun _ ↦ id
    · intro key attempt hget
      rw [get?_recordSuccess] at hget
      split_ifs at hget
      exact hkept key attempt hget

theorem admitted_of_none (hnone : ∀ event ∈ events, event.call = .recordFailure →
      loginSourceHint event.request = loginSourceHint request →
      loginRateLimitWindow ≤ now - event.time) :
    (retryAfter (attemptsAfter events) (loginRateLimitKeys request) now).1 = none := by
  rw [← Option.not_isSome_iff_eq_none, retryAfter_isSome]
  rintro ⟨key, hkey, attempt, hget, hopen, -⟩
  obtain ⟨event, hevent, hcall, hkey', htime⟩ := recorded events key attempt hget
  have hover := hnone event hevent hcall (source_of_keys hkey' hkey)
  rw [htime] at hover
  exact absurd (of_decide_eq_true hopen) hover.not_gt

/-- A source is refused for the window of its fifth failure, if there was room to begin it, and
never without a failure of its own. -/
theorem limiter_refuses (events : List LimiterEvent) (now : ℕ) (request : LoginRequest)
    (htime : InTime events now) :
    (Roomy (loginSourceHint request) events → Blocked (loginSourceHint request) events now →
        (retryAfter (attemptsAfter events) (loginRateLimitKeys request) now).1.isSome) ∧
      ((∀ event ∈ events, event.call = .recordFailure →
          loginSourceHint event.request = loginSourceHint request →
          loginRateLimitWindow ≤ now - event.time) →
        (retryAfter (attemptsAfter events) (loginRateLimitKeys request) now).1 = none) :=
  ⟨fun hroomy ↦ refused_of_blocked hroomy htime, admitted_of_none⟩

end admission

section room

theorem recordKey_mono (h : ∃ attempt, attempts.get? key = some attempt) {other : String} :
    ∃ attempt, (recordKey now attempts other).get? key = some attempt := by
  by_cases hother : other = key
  · subst hother
    rw [recordKey]
    split_ifs
    · exact h
    · exact ⟨_, (OrderedMap.get?_insert _ _ _ _).trans (if_pos rfl)⟩
  · rwa [get?_recordKey_of_ne hother]

theorem recordKey_holds
    (hroom : (recordKey now attempts key).entries.length < loginRateLimitMaxKeys) :
    ∃ attempt, (recordKey now attempts key).get? key = some attempt := by
  rw [recordKey] at hroom ⊢
  split_ifs at hroom ⊢ with hfull
  · rw [Bool.and_eq_true, decide_eq_true_eq] at hfull
    exact absurd hroom hfull.2.not_gt
  · exact ⟨_, (OrderedMap.get?_insert _ _ _ _).trans (if_pos rfl)⟩

theorem length_le_of_held {attempts' : LoginAttempts}
    (h : ∀ key, (∃ attempt, attempts.get? key = some attempt) →
      ∃ attempt, attempts'.get? key = some attempt) :
    attempts.entries.length ≤ attempts'.entries.length := by
  have hsub : attempts.keys ⊆ attempts'.keys := by
    intro key hkey
    exact OrderedMap.mem_keys.mpr (h key (OrderedMap.mem_keys.mp hkey))
  have hle := (List.subperm_of_subset attempts.keys_nodup hsub).length_le
  rwa [OrderedMap.keys, OrderedMap.keys, List.length_map, List.length_map] at hle

theorem recordKeys_mono (h : ∃ attempt, attempts.get? key = some attempt) :
    ∃ attempt, (keys.foldl (recordKey now) attempts).get? key = some attempt := by
  induction keys generalizing attempts with
  | nil => exact h
  | cons other rest ih => exact ih (recordKey_mono h)

theorem recordKeys_hold
    (hroom : (keys.foldl (recordKey now) attempts).entries.length < loginRateLimitMaxKeys)
    (hkey : key ∈ keys) :
    ∃ attempt, (keys.foldl (recordKey now) attempts).get? key = some attempt := by
  induction keys generalizing attempts with
  | nil => cases hkey
  | cons other rest ih =>
    rw [List.foldl_cons] at hroom ⊢
    rcases List.mem_cons.mp hkey with rfl | hkey
    · refine recordKeys_mono (recordKey_holds (lt_of_le_of_lt ?_ hroom))
      exact length_le_of_held fun _ ↦ recordKeys_mono
    · exact ih hroom hkey

def failuresAt (now : ℕ) (requests : List LoginRequest) : List LimiterEvent :=
  requests.map fun request ↦ ⟨now, .recordFailure, request⟩

theorem failuresAt_pruned (now : ℕ) (requests : List LoginRequest) :
    Pruned (attemptsAfter (failuresAt now requests)) now := by
  intro key attempt hget
  obtain ⟨event, hevent, -, -, htime⟩ := recorded _ key attempt hget
  obtain ⟨request, -, rfl⟩ := List.mem_map.mp hevent
  rw [LoginAttempt.isOpen, ← htime, Nat.sub_self]
  decide

theorem failuresAt_concat (now : ℕ) (requests : List LoginRequest) (request : LoginRequest) :
    attemptsAfter (failuresAt now (requests ++ [request])) =
      (loginRateLimitKeys request).foldl (recordKey now)
        (attemptsAfter (failuresAt now requests)) := by
  rw [failuresAt, List.map_append, List.map_singleton, attemptsAfter, List.foldl_concat]
  show recordFailure (attemptsAfter (failuresAt now requests)) (loginRateLimitKeys request) now = _
  rw [recordFailure, prune_of_pruned (failuresAt_pruned now requests)]

theorem failuresAt_hold {requests : List LoginRequest}
    (hroom : (attemptsAfter (failuresAt now requests)).entries.length < loginRateLimitMaxKeys)
    (hrequest : request ∈ requests) (hkey : key ∈ loginRateLimitKeys request) :
    ∃ attempt, (attemptsAfter (failuresAt now requests)).get? key = some attempt := by
  induction requests using List.reverseRecOn with
  | nil => cases hrequest
  | append_singleton requests last ih =>
    rw [failuresAt_concat] at hroom ⊢
    rcases List.mem_append.mp hrequest with hrequest | hrequest
    · refine recordKeys_mono (ih (lt_of_le_of_lt ?_ hroom) hrequest)
      exact length_le_of_held fun _ ↦ recordKeys_mono
    · rw [List.mem_singleton.mp hrequest] at hkey
      exact recordKeys_hold hroom hkey

theorem failuresAt_full {requests : List LoginRequest} (hfull : loginRateLimitMaxKeys ≤
      (attemptsAfter (failuresAt now requests)).entries.length)
    (hnew : ∀ other ∈ requests, loginSourceHint other ≠ loginSourceHint request) (count : ℕ) :
    attemptsAfter (failuresAt now (requests ++ List.replicate count request)) =
      attemptsAfter (failuresAt now requests) := by
  have habsent : ∀ key ∈ loginRateLimitKeys request,
      (attemptsAfter (failuresAt now requests)).get? key = none := by
    intro key hkey
    refine Option.eq_none_iff_forall_ne_some.mpr fun attempt hget ↦ ?_
    obtain ⟨event, hevent, -, hheld, -⟩ := recorded _ key attempt hget
    obtain ⟨other, hother, rfl⟩ := List.mem_map.mp hevent
    exact hnew other hother (source_of_keys hheld hkey)
  induction count with
  | zero => rw [List.replicate_zero, List.append_nil]
  | succ count ih =>
    rw [List.replicate_succ', ← List.append_assoc, failuresAt_concat, ih, loginRateLimitKeys,
      List.foldl_cons, List.foldl_cons, List.foldl_nil]
    have hsource := habsent _ (sourceKey_mem request)
    have haccount := habsent _ (List.mem_cons_of_mem _ List.mem_cons_self)
    rw [recordKey_full hsource hfull, recordKey_full haccount hfull]

end room

section demonstration

def bitLetters (n : ℕ) : List Char := (List.range 11).map fun i ↦ if n.testBit i then 'b' else 'a'

theorem bitLetters_mem {n : ℕ} {c : Char} (h : c ∈ bitLetters n) : c = 'a' ∨ c = 'b' := by
  obtain ⟨i, -, rfl⟩ := List.mem_map.mp h
  split_ifs
  · exact .inr rfl
  · exact .inl rfl

theorem bitLetters_length (n : ℕ) : (bitLetters n).length = 11 := by
  rw [bitLetters, List.length_map, List.length_range]

theorem bitLetters_inj {m n : ℕ} (hm : m < 2 ^ 11) (hn : n < 2 ^ 11)
    (h : bitLetters m = bitLetters n) : m = n := by
  refine Nat.eq_of_testBit_eq fun i ↦ ?_
  by_cases hi : i < 11
  · have hbit := (List.map_inj_left.mp h) i (List.mem_range.mpr hi)
    generalize m.testBit i = x, n.testBit i = y at hbit ⊢
    revert x y
    decide
  · have hle : 2 ^ 11 ≤ 2 ^ i := Nat.pow_le_pow_right (by decide) (Nat.not_lt.mp hi)
    rw [Nat.testBit_lt_two_pow (hm.trans_le hle), Nat.testBit_lt_two_pow (hn.trans_le hle)]

def guess (n : ℕ) : LoginRequest :=
  ⟨none, .v4 ⟨10, 0, .ofNat 256 (n / 1024), .ofNat 256 (n / 4)⟩, String.ofList (bitLetters n)⟩

def victim : LoginRequest := ⟨none, .v6 ⟨[0x2001, 0xdb8, 0, 0, 0, 0, 0, 1], rfl⟩, "owner"⟩

theorem guess_source (n : ℕ) : loginSource (guess n) =
    .v4 ⟨10, 0, .ofNat 256 (n / 1024), .ofNat 256 (n / 4)⟩ := by
  rw [loginSource, guess]
  exact if_neg nofun

theorem guess_username (n : ℕ) : loginUsername (guess n) = String.ofList (bitLetters n) := by
  have hspace : ∀ c ∈ bitLetters n, isWhitespace c = false := by
    intro c hc
    rcases bitLetters_mem hc with rfl | rfl <;> decide
  have htrimmed : Trimmed (bitLetters n) :=
    ⟨fun c hc ↦ hspace c (List.mem_of_mem_head? hc), fun c hc ↦ hspace c (List.mem_of_getLast? hc)⟩
  have hlower : (bitLetters n).map lowerChar = bitLetters n := by
    refine (List.map_congr_left fun c hc ↦ ?_).trans (List.map_id' _)
    rcases bitLetters_mem hc with rfl | rfl <;> decide
  have hlength := bitLetters_length n
  have hraw : toAsciiLowercase (trim (guess n).username) = String.ofList (bitLetters n) := by
    rw [guess, trim, String.toList_ofList, trimList_eq_self htrimmed, toAsciiLowercase,
      String.toList_ofList, hlower]
  rw [loginUsername, hraw, String.toList_ofList, List.take_of_length_le (by omega)]
  refine if_neg ?_
  rw [Text.isEmpty, String.toList_ofList, List.isEmpty_iff]
  exact List.ne_nil_of_length_pos (by omega)

def guesses : List LoginRequest := (List.range 2047).map guess

theorem guesses_full : loginRateLimitMaxKeys ≤
    (attemptsAfter (failuresAt 0 guesses)).entries.length := by
  by_contra hroom
  have hroom := Nat.not_le.mp hroom
  let account := fun n ↦ accountKey (String.ofList (bitLetters n)) (loginSourceHint (guess n))
  let distinct := sourceKey (loginSourceHint (guess 0)) :: (List.range 2047).map account
  have hnodup : distinct.Nodup := by
    refine List.nodup_cons.mpr ⟨fun h ↦ ?_, ?_⟩
    · obtain ⟨n, -, h⟩ := List.mem_map.mp h
      exact sourceKey_ne_accountKey h.symm
    · refine List.Nodup.map_on (fun m hm n hn h ↦ ?_) List.nodup_range
      rw [List.mem_range] at hm hn
      refine bitLetters_inj (by omega) (by omega) ?_
      have h : accountKey _ _ = accountKey _ _ := h
      rw [accountKey, accountKey, String.append_right_inj] at h
      have hlist := congrArg String.toList h
      simp only [String.toList_append, String.toList_ofList] at hlist
      exact (List.append_inj hlist (by rw [bitLetters_length, bitLetters_length])).1
  have hheld : distinct ⊆ (attemptsAfter (failuresAt 0 guesses)).keys := by
    intro key hkey
    refine OrderedMap.mem_keys.mpr ?_
    rcases List.mem_cons.mp hkey with rfl | hkey
    · exact failuresAt_hold hroom (List.mem_map_of_mem (List.mem_range.mpr (by decide)))
        (sourceKey_mem (guess 0))
    · obtain ⟨n, hn, rfl⟩ := List.mem_map.mp hkey
      refine failuresAt_hold hroom (List.mem_map_of_mem hn) ?_
      rw [loginRateLimitKeys, guess_username]
      exact List.mem_cons_of_mem _ List.mem_cons_self
  have hlength := (List.subperm_of_subset hnodup hheld).length_le
  rw [OrderedMap.keys, List.length_map, List.length_cons, List.length_map, List.length_range]
    at hlength
  exact absurd hroom (Nat.not_lt.mpr hlength)

def attack : List LimiterEvent := failuresAt 0 (guesses ++ List.replicate 5 victim)

theorem failuresAt_inTime (now : ℕ) (requests : List LoginRequest) :
    InTime (failuresAt now requests) now := by
  refine ⟨List.pairwise_map.mpr (List.pairwise_of_forall fun _ _ ↦ le_rfl), fun event hevent ↦ ?_⟩
  obtain ⟨request, -, rfl⟩ := List.mem_map.mp hevent
  exact le_rfl

theorem failureWindow_concat (now : ℕ) (requests : List LoginRequest) (request : LoginRequest) :
    failureWindow source (failuresAt now (requests ++ [request])) =
      nextWindow source (failureWindow source (failuresAt now requests))
        ⟨now, .recordFailure, request⟩ := by
  rw [failuresAt, List.map_append, List.map_singleton, failureWindow, List.foldl_concat]
  rfl

theorem failureWindow_others {requests : List LoginRequest}
    (h : ∀ other ∈ requests, loginSourceHint other ≠ source) :
    failureWindow source (failuresAt now requests) = none := by
  induction requests using List.reverseRecOn with
  | nil => rfl
  | append_singleton requests last ih =>
    obtain ⟨hinit, hlast⟩ := List.forall_mem_append.mp h
    rw [failureWindow_concat, nextWindow, if_pos (hlast last List.mem_cons_self)]
    exact ih hinit

theorem failureWindow_repeated {requests : List LoginRequest}
    (h : ∀ other ∈ requests, loginSourceHint other ≠ loginSourceHint request) (count : ℕ) :
    failureWindow (loginSourceHint request)
        (failuresAt now (requests ++ List.replicate (count + 1) request)) =
      some ⟨now, count + 1⟩ := by
  induction count with
  | zero =>
    rw [List.replicate_one, failureWindow_concat, failureWindow_others h, nextWindow,
      if_neg (not_not.mpr rfl)]
    exact if_pos nofun
  | succ count ih =>
    have hopen : ¬Begins (some ⟨now, count + 1⟩) now := by
      intro hbegins
      have hover := hbegins _ rfl
      rw [Nat.sub_self] at hover
      exact absurd hover (by decide)
    rw [List.replicate_succ', ← List.append_assoc, failureWindow_concat, ih, nextWindow,
      if_neg (not_not.mpr rfl)]
    exact if_neg hopen

theorem victim_new : ∀ other ∈ guesses, loginSourceHint other ≠ loginSourceHint victim := by
  intro other hother
  obtain ⟨n, -, rfl⟩ := List.mem_map.mp hother
  intro hsame
  have hcolon : ':' ∈ (loginSourceHint victim).toList := by decide
  rw [← hsame, loginSourceHint, guess_source, ipAddrText] at hcolon
  exact colon_not_mem_ipv4Text _ hcolon

theorem full_limiter_forgets :
    ¬∀ (events : List LimiterEvent) (now : ℕ) (request : LoginRequest), InTime events now →
      (Blocked (loginSourceHint request) events now →
        (retryAfter (attemptsAfter events) (loginRateLimitKeys request) now).1.isSome) ∧
      ((∀ event ∈ events, event.call = .recordFailure →
          loginSourceHint event.request = loginSourceHint request →
          loginRateLimitWindow ≤ now - event.time) →
        (retryAfter (attemptsAfter events) (loginRateLimitKeys request) now).1 = none) := by
  intro hall
  have hblocked : Blocked (loginSourceHint victim) attack 0 :=
    ⟨⟨0, 5⟩, failureWindow_repeated victim_new 4, by decide, by decide⟩
  have hrefused := (hall attack 0 victim (failuresAt_inTime 0 _)).1 hblocked
  rw [attack, failuresAt_full guesses_full victim_new] at hrefused
  have hadmitted : (retryAfter (attemptsAfter (failuresAt 0 guesses)) (loginRateLimitKeys victim)
      0).1 = none := by
    refine admitted_of_none fun event hevent _ hsource ↦ ?_
    obtain ⟨other, hother, rfl⟩ := List.mem_map.mp hevent
    exact absurd hsource (victim_new other hother)
  rw [hadmitted] at hrefused
  cases hrefused

theorem victim_roomy (count : ℕ) :
    Roomy (loginSourceHint victim) (failuresAt 0 (List.replicate count victim)) := by
  intro before event after hsplit _ _ _
  refine lt_of_le_of_lt (List.length_filter_le _ _) ?_
  have hheld : (attemptsAfter before).keys ⊆ loginRateLimitKeys victim := by
    intro key hkey
    obtain ⟨attempt, hget⟩ := OrderedMap.mem_keys.mp hkey
    obtain ⟨found, hfound, -, hkey, -⟩ := recorded before key attempt hget
    have hmem : found ∈ failuresAt 0 (List.replicate count victim) := by
      rw [hsplit]
      exact List.mem_append_left _ hfound
    obtain ⟨request, hrequest, rfl⟩ := List.mem_map.mp hmem
    rwa [List.eq_of_mem_replicate hrequest] at hkey
  have hlength := (List.subperm_of_subset (attemptsAfter before).keys_nodup hheld).length_le
  rw [OrderedMap.keys, List.length_map] at hlength
  exact lt_of_le_of_lt hlength (by decide)

theorem limiter_refuses_victim :
    (retryAfter (attemptsAfter (failuresAt 0 (List.replicate 5 victim)))
        (loginRateLimitKeys victim) 1).1.isSome ∧
      (retryAfter (attemptsAfter (failuresAt 0 (List.replicate 5 victim)))
        (loginRateLimitKeys (guess 0)) 1).1 = none := by
  have htime : InTime (failuresAt 0 (List.replicate 5 victim)) 1 := by
    obtain ⟨hsorted, hbefore⟩ := failuresAt_inTime 0 (List.replicate 5 victim)
    exact ⟨hsorted, fun event hevent ↦ (hbefore event hevent).trans (Nat.zero_le 1)⟩
  constructor
  · refine (limiter_refuses _ 1 victim htime).1 (victim_roomy 5) ⟨⟨0, 5⟩, ?_, by decide, by decide⟩
    have hnone : ∀ other ∈ ([] : List LoginRequest),
        loginSourceHint other ≠ loginSourceHint victim := nofun
    exact failureWindow_repeated hnone 4
  · refine (limiter_refuses _ 1 (guess 0) htime).2 fun event hevent _ hsource ↦ ?_
    obtain ⟨request, hrequest, rfl⟩ := List.mem_map.mp hevent
    rw [List.eq_of_mem_replicate hrequest] at hsource
    exact absurd hsource.symm
      (victim_new (guess 0) (List.mem_map_of_mem (List.mem_range.mpr (by decide))))

end demonstration

end StealthHub.Panel

import StealthHub.Effect.Concurrent
import StealthHub.Panel.RuleFetch
import StealthHub.Storage.RuleSets

set_option autoImplicit false

namespace StealthHub.Panel.RuleSources

open Effect Effect.Program Relation Routing Text
open Storage (validRuleObjectId)

section programs

variable (web : Web) (id : String)

def getRuleSource : SourceProgram web (Option (RuleSetSource × ℕ)) := do
  let row : Option FoundRow ← orFail (request SourceOp.ruleSetOf)
  match row with
  | none => return none
  | some row =>
    let sources ← orFail (request (SourceOp.loadRuleSources row.ruleSetId))
    return (sources.find? (·.id = id)).map fun source ↦ (source, row.upserts)

def succeed (source : RuleSetSource) (began : ℕ) : SourceProgram web Unit := do
  let now : String ← request SourceOp.now
  orFail (request (SourceOp.updateRuleSourceSuccess
    { source with lastSuccessfulFetch := some now } began))

def refresh : SourceProgram web RuleSetSource := do
  match ← getRuleSource web id with
  | none => .fail "unknown rule source"
  | some (source, began) =>
    match ← (fetch web source).attempt with
    | .ok updated => succeed web (updated.getD source) began
    | .error error => do
      orFail (request (SourceOp.updateRuleSourceError error))
      .fail error
    match ← getRuleSource web id with
    | none => .fail "refreshed rule source disappeared"
    | some (source, _) => return source

/-- The source as it will be stored: with the cache of the row that is there. -/
def effectiveSource (source : RuleSetSource) : Option (RuleSetSource × ℕ) → RuleSetSource
  | none => source
  | some (current, _) =>
    { source with
      etag := current.etag
      lastModified := current.lastModified
      lastSuccessfulFetch := current.lastSuccessfulFetch
      checksum := current.checksum
      entryCount := current.entryCount
      lastError := current.lastError
      cachedPayload := current.cachedPayload }

def replaceSource (sources : List RuleSetSource) (source : RuleSetSource) : List RuleSetSource :=
  match sources.findIdx? (·.id = source.id) with
  | some index => sources.set index source
  | none => sources ++ [source]

def checkSource (source : RuleSetSource) (ruleSet : RoutingRuleSet) : SourceProgram web Unit :=
  if ruleSet.enabled then do
    let current ← getRuleSource web id
    let sources ← orFail (request (SourceOp.loadRuleSources source.ruleSetId))
    let entries ← orFail (request (SourceOp.loadRuleEntries source.ruleSetId))
    let _ ← lift (compileRuleSetPayload entries ruleSet.payload
      (replaceSource sources (effectiveSource source current)))
    return ()
  else return ()

def upsertRuleSource (source : RuleSetSource) : SourceProgram web Unit :=
  if !validRuleObjectId source.id || !validRuleObjectId source.ruleSetId ||
      !startsWith source.url "https://" || 2048 < len source.url ||
      source.refreshIntervalSeconds < 300 || 604800 < source.refreshIntervalSeconds then
    .fail "invalid remote rule source"
  else do
    let ruleSets ← orFail (request SourceOp.loadRoutingRuleSets)
    match ruleSets.find? (·.slug = source.ruleSetId) with
    | none => .fail "unknown rule set"
    | some ruleSet => do
      checkSource web id source ruleSet
      orFail (request (SourceOp.writeSource source))

structure RuleSourceForm where
  ruleSetId : String
  url : String
  format : String
  enabled : Bool
  refreshIntervalSeconds : ℕ

def parseFormat : String → Except String RuleSourceFormat
  | "text" => .ok .text
  | "yaml" => .ok .yaml
  | "mihomo-classical" => .ok .mihomoClassical
  | _ => .error "unsupported rule source format"

def formSource (form : RuleSourceForm) (format : RuleSourceFormat) : RuleSetSource where
  id
  ruleSetId := trim form.ruleSetId
  url := trim form.url
  format
  enabled := form.enabled
  refreshIntervalSeconds := form.refreshIntervalSeconds
  etag := none
  lastModified := none
  lastSuccessfulFetch := none
  checksum := none
  entryCount := 0
  lastError := none
  cachedPayload := ""

def saveRuleSource (form : RuleSourceForm) : SourceProgram web Unit := do
  let format ← lift (parseFormat form.format)
  upsertRuleSource web id (formSource id form format)

/-- What is called for the rule source, on schedule or by hand. -/
inductive SourceCall
  | refresh
  | save (form : RuleSourceForm)

def SourceCall.run : SourceCall → SourceProgram web Unit
  | .refresh => (RuleSources.refresh web id).bind fun _ ↦ .done ()
  | .save form => saveRuleSource web id form

end programs

/-- A response, under the URL of the rule source that was fetched. -/
structure Receipt where
  url : String
  response : Response

/-- The validators of a request, and what had been received before it. -/
structure Sent where
  url : String
  etag : Option String
  lastModified : Option String
  received : List Receipt

/-- The row of the rule source. The history beside it is not part of the code: the upserts, what
was received and sent, and whether a refresh that began after the last upsert has succeeded. -/
structure SourceStore where
  row : Option RuleSetSource
  upserts : ℕ
  received : List Receipt
  sent : List Sent
  refreshed : Bool

namespace SourceStore

variable (s : SourceStore)

def initial : SourceStore := ⟨none, 0, [], [], false⟩

/-- `ON CONFLICT DO UPDATE` leaves the cache as it is. -/
def write (source : RuleSetSource) : SourceStore :=
  { s with
    row := some (match s.row with
      | none => source
      | some row =>
        { row with
          ruleSetId := source.ruleSetId
          url := source.url
          format := source.format
          enabled := source.enabled
          refreshIntervalSeconds := source.refreshIntervalSeconds })
    upserts := s.upserts + 1
    refreshed := false }

def updateSuccess (source : RuleSetSource) (began : ℕ) : SourceStore :=
  { s with
    row := s.row.map fun row ↦
      { row with
        etag := source.etag
        lastModified := source.lastModified
        lastSuccessfulFetch := source.lastSuccessfulFetch
        checksum := source.checksum
        entryCount := source.entryCount
        lastError := none
        cachedPayload := source.cachedPayload }
    refreshed := s.refreshed || began = s.upserts }

def updateError (error : String) : SourceStore :=
  { s with
    row := s.row.map fun row ↦
      { row with lastError := some (String.ofList (error.toList.take 512)) } }

def exchange (url : String) (etag lastModified : Option String) (r : Except String Response) :
    SourceStore :=
  { s with
    sent := ⟨url, etag, lastModified, s.received⟩ :: s.sent
    received := r.toOption.elim s.received fun response ↦ ⟨url, response⟩ :: s.received }

end SourceStore

/-- What a request may find and leave. A request of the database that fails leaves it as it was. -/
def SourceStep {Url : Type} (id : String) (s : SourceStore) :
    (op : SourceOp Url) → SourceReply op → SourceStore → Prop
  | .ruleSetOf, r, t => t = s ∧ ∀ found, r = .ok found →
    found = s.row.map fun row ↦ ⟨row.ruleSetId, s.upserts⟩
  | .loadRuleSources ruleSetId, r, t => t = s ∧ ∀ sources, r = .ok sources →
    sources.find? (·.id = id) =
      s.row.filter fun row ↦ row.id = id ∧ row.ruleSetId = ruleSetId
  | .loadRoutingRuleSets, _, t | .loadRuleEntries _, _, t | .lookupHost _ _, _, t
  | .now, _, t => t = s
  | .send _ _ etag lastModified url, r, t => t = s.exchange url etag lastModified r
  | .writeSource source, r, t => r ≠ .ok () ∧ t = s ∨ r = .ok () ∧ t = s.write source
  | .updateRuleSourceSuccess source began, r, t =>
    r ≠ .ok () ∧ t = s ∨ r = .ok () ∧ s.row.isSome = true ∧ t = s.updateSuccess source began
  | .updateRuleSourceError error, _, t => t = s ∨ t = s.updateError error

section provenance

variable {web : Web} {id : String} {s t : SourceStore} {row source : RuleSetSource}
variable {op : SourceOp web.Url} {r : SourceReply op}

/-- The cache of the row is what the response brought, in the format of the row. -/
structure Holds (web : Web) (row : RuleSetSource) (response : Response) : Prop where
  etag : row.etag = bounded response.etag
  lastModified : row.lastModified = bounded response.lastModified
  payload : ∃ body rules, readBody response.chunks = .ok body ∧
    parseBody web row.format body = .ok rules ∧ row.checksum = some (web.sha256 body) ∧
    row.entryCount = rules.length ∧ row.cachedPayload = joinLines rules

/-- The cache of the row was received for the URL of the row. -/
def Owned (web : Web) (received : List Receipt) (row : RuleSetSource) : Prop :=
  ∃ receipt ∈ received, receipt.url = row.url ∧ Holds web row receipt.response

def HasValidators (etag lastModified : Option String) : Prop := etag.isSome ∨ lastModified.isSome

def Sent.Rightful (sent : Sent) : Prop :=
  HasValidators sent.etag sent.lastModified → ∃ receipt ∈ sent.received, receipt.url = sent.url ∧
    bounded receipt.response.etag = sent.etag ∧
    bounded receipt.response.lastModified = sent.lastModified

/-- The cache of a rule source belongs to its URL. -/
structure CacheOwned (web : Web) (s : SourceStore) : Prop where
  sent : ∀ sent ∈ s.sent, sent.Rightful
  cached : s.refreshed = true → ∀ row, s.row = some row → Owned web s.received row

def Validated (web : Web) (received : List Receipt) (source : RuleSetSource) : Prop :=
  HasValidators source.etag source.lastModified → Owned web received source

structure SourceInvariant (web : Web) (s : SourceStore) : Prop extends CacheOwned web s where
  validated : ∀ row, s.row = some row → Validated web s.received row

/-- An edit changes the URL or the format only of a source without validators, a refresh writes
only to a source that still has the URL and the format that were fetched, and a server answers
that nothing was modified only where it was sent a validator. -/
def KeepsOwner (s : SourceStore) : (op : SourceOp web.Url) → SourceReply op → Prop
  | .writeSource source, r => r = .ok () → ∀ row, s.row = some row →
    row.url = source.url ∧ row.format = source.format ∨ ¬HasValidators row.etag row.lastModified
  | .updateRuleSourceSuccess source _, r => r = .ok () → ∀ row, s.row = some row →
    row.url = source.url ∧ row.format = source.format
  | .send _ _ etag lastModified _, r => ∀ response, r = .ok response → response.status = 304 →
    HasValidators etag lastModified
  | _, _ => True

/-- What the code asks for is in keeping with the history. -/
def AsksOwned (s : SourceStore) : SourceOp web.Url → Prop
  | .send _ _ etag lastModified url => (Sent.mk url etag lastModified s.received).Rightful
  | .writeSource source => ¬HasValidators source.etag source.lastModified
  | .updateRuleSourceSuccess source _ => Owned web s.received source
  | _ => True

def Grows (s t : SourceStore) : Prop := s.received ⊆ t.received

def cacheOf (row : RuleSetSource) :=
  (row.url, row.format, row.etag, row.lastModified, row.checksum, row.entryCount,
    row.cachedPayload)

theorem Owned.congr {received : List Receipt} (h : Owned web received source)
    (hsame : cacheOf row = cacheOf source) : Owned web received row := by
  obtain ⟨receipt, hmem, hurl, hetag, hmodified, body, rules, hbody, hrules, hchecksum, hcount,
    hpayload⟩ := h
  simp only [cacheOf, Prod.mk.injEq] at hsame
  obtain ⟨hu, hf, he, hm, hc, hn, hp⟩ := hsame
  refine ⟨receipt, hmem, hurl.trans hu.symm, he.trans hetag, hm.trans hmodified, body, rules,
    hbody, ?_, hc.trans hchecksum, hn.trans hcount, hp.trans hpayload⟩
  rw [hf]
  exact hrules

theorem Owned.mono {received received' : List Receipt} (h : Owned web received source)
    (hsub : received ⊆ received') : Owned web received' source := by
  obtain ⟨receipt, hmem, hholds⟩ := h
  exact ⟨receipt, hsub hmem, hholds⟩

theorem Validated.mono {received received' : List Receipt} (h : Validated web received source)
    (hsub : received ⊆ received') : Validated web received' source :=
  fun hvalidators ↦ (h hvalidators).mono hsub

theorem Validated.congr {received : List Receipt} (h : Validated web received source)
    (hsame : cacheOf row = cacheOf source) : Validated web received row := by
  intro hvalidators
  refine (h ?_).congr hsame
  simp only [cacheOf, Prod.mk.injEq] at hsame
  obtain ⟨-, -, hetag, hmodified, -⟩ := hsame
  rw [← hetag, ← hmodified]
  exact hvalidators

theorem Validated.rightful (h : Validated web s.received source) :
    (Sent.mk source.url source.etag source.lastModified s.received).Rightful := by
  intro hvalidators
  obtain ⟨receipt, hmem, hurl, hholds⟩ := h hvalidators
  exact ⟨receipt, hmem, hurl, hholds.etag.symm, hholds.lastModified.symm⟩

theorem step_grows (h : SourceStep id s op r t) : Grows s t := by
  have hrefl : Grows s s := List.Subset.refl _
  cases op with
  | send url addresses etag lastModified sourceUrl =>
    obtain rfl := h
    intro receipt hreceipt
    cases r with
    | error e => exact hreceipt
    | ok response => exact List.mem_cons_of_mem _ hreceipt
  | writeSource source =>
    rcases h with ⟨-, rfl⟩ | ⟨-, rfl⟩
    · exact hrefl
    · exact hrefl
  | updateRuleSourceSuccess source began =>
    rcases h with ⟨-, rfl⟩ | ⟨-, -, rfl⟩
    · exact hrefl
    · exact hrefl
  | updateRuleSourceError error =>
    rcases h with rfl | rfl
    · exact hrefl
    · exact hrefl
  | ruleSetOf | loadRuleSources =>
    obtain ⟨rfl, -⟩ := h
    exact hrefl
  | loadRoutingRuleSets | loadRuleEntries | lookupHost | now =>
    obtain rfl := h
    exact hrefl

theorem initial_invariant : SourceInvariant web .initial := by
  refine ⟨⟨List.forall_mem_nil _, fun hrefreshed ↦ ?_⟩, fun row hrow ↦ ?_⟩
  · cases hrefreshed
  · cases hrow

theorem write_invariant (hs : SourceInvariant web s)
    (hown : ¬HasValidators source.etag source.lastModified)
    (hrule : ∀ row, s.row = some row → row.url = source.url ∧ row.format = source.format ∨
      ¬HasValidators row.etag row.lastModified) : SourceInvariant web (s.write source) := by
  refine ⟨⟨hs.sent, nofun⟩, fun written hwritten ↦ ?_⟩
  rw [SourceStore.write, Option.some.injEq] at hwritten
  subst hwritten
  cases hrow : s.row with
  | none => exact fun hvalidators ↦ absurd hvalidators hown
  | some row =>
    rcases hrule row hrow with ⟨hurl, hformat⟩ | hnone
    · refine (hs.validated row hrow).congr ?_
      simp only [cacheOf, hurl, hformat]
    · exact fun hvalidators ↦ absurd hvalidators hnone

theorem success_invariant {began : ℕ} (hs : SourceInvariant web s)
    (hown : Owned web s.received source)
    (hrule : ∀ row, s.row = some row → row.url = source.url ∧ row.format = source.format) :
    SourceInvariant web (s.updateSuccess source began) := by
  have howned : ∀ row, (s.updateSuccess source began).row = some row →
      Owned web s.received row := by
    intro written hwritten
    obtain ⟨row, hrow, rfl⟩ := Option.map_eq_some_iff.mp hwritten
    obtain ⟨hurl, hformat⟩ := hrule row hrow
    apply hown.congr
    simp only [cacheOf, hurl, hformat]
  exact ⟨⟨hs.sent, fun _ ↦ howned⟩, fun row hrow _ ↦ howned row hrow⟩

theorem error_invariant {error : String} (hs : SourceInvariant web s) :
    SourceInvariant web (s.updateError error) := by
  refine ⟨⟨hs.sent, fun hrefreshed written hwritten ↦ ?_⟩, fun written hwritten ↦ ?_⟩
  · obtain ⟨row, hrow, rfl⟩ := Option.map_eq_some_iff.mp hwritten
    exact (hs.cached hrefreshed row hrow).congr rfl
  · obtain ⟨row, hrow, rfl⟩ := Option.map_eq_some_iff.mp hwritten
    exact (hs.validated row hrow).congr rfl

theorem exchange_invariant {url : String} {etag lastModified : Option String}
    {r : Except String Response} (hs : SourceInvariant web s)
    (hsent : (Sent.mk url etag lastModified s.received).Rightful) :
    SourceInvariant web (s.exchange url etag lastModified r) := by
  have hsub : s.received ⊆ (s.exchange url etag lastModified r).received := by
    intro receipt hreceipt
    cases r with
    | error e => exact hreceipt
    | ok response => exact List.mem_cons_of_mem _ hreceipt
  refine ⟨⟨List.forall_mem_cons.mpr ⟨hsent, hs.sent⟩, ?_⟩, ?_⟩
  · exact fun hrefreshed row hrow ↦ (hs.cached hrefreshed row hrow).mono hsub
  · exact fun row hrow ↦ (hs.validated row hrow).mono hsub

theorem step_invariant (hasks : AsksOwned s op) (hs : SourceInvariant web s)
    (h : keepingTo (SourceStep id) KeepsOwner s op r t) : SourceInvariant web t := by
  obtain ⟨h, hrule⟩ := h
  cases op with
  | send url addresses etag lastModified sourceUrl =>
    obtain rfl := h
    exact exchange_invariant hs hasks
  | writeSource source =>
    rcases h with ⟨-, rfl⟩ | ⟨hr, rfl⟩
    · exact hs
    · exact write_invariant hs hasks (hrule hr)
  | updateRuleSourceSuccess source began =>
    rcases h with ⟨-, rfl⟩ | ⟨hr, -, rfl⟩
    · exact hs
    · exact success_invariant hs hasks (hrule hr)
  | updateRuleSourceError error =>
    rcases h with rfl | rfl
    · exact hs
    · exact error_invariant hs
  | ruleSetOf | loadRuleSources =>
    obtain ⟨rfl, -⟩ := h
    exact hs
  | loadRoutingRuleSets | loadRuleEntries | lookupHost | now =>
    obtain rfl := h
    exact hs

def Admitted (web : Web) (id : String) (s : SourceStore) (op : SourceOp web.Url)
    (r : SourceReply op) (t : SourceStore) : Prop :=
  SourceInvariant web s ∧ keepingTo (SourceStep id) KeepsOwner s op r t

abbrev Waits {α : Type} (id : String) (Q : α → SourceStore → Prop) (p : SourceProgram web α)
    (s : SourceStore) : Prop :=
  p.Conforms (Admitted web id) Grows AsksOwned Q s

theorem admitted_grows (h : Admitted web id s op r t) : Grows s t := step_grows h.2.1

theorem Grows.always (h : ReflTransGen Grows s t) : Grows s t := by
  induction h with
  | refl => exact List.Subset.refl _
  | tail _ hstep ih => exact List.Subset.trans ih hstep

def AsksNothing (op : SourceOp web.Url) : Prop := ∀ s, AsksOwned s op

theorem request_uses (hop : AsksNothing op) :
    (request op : SourceProgram web (SourceReply op)).Uses AsksNothing := ⟨hop, fun _ ↦ trivial⟩

theorem orFail_uses {α : Type} {p : SourceProgram web (Except String α)} (hp : p.Uses AsksNothing) :
    (orFail p).Uses AsksNothing :=
  uses_bind hp fun result ↦ uses_lift result

theorem orFail_waits {α : Type} {p : SourceProgram web (Except String α)}
    {Q : α → SourceStore → Prop}
    (hp : Waits id (fun result t ↦ ∀ a, result = .ok a → Q a t) p s) : Waits id Q (orFail p) s :=
  conforms_bind hp fun _ _ hresult ↦ conforms_lift fun a ha t ht ↦ hresult t ht a ha

theorem getRuleSource_uses : (getRuleSource web id).Uses AsksNothing := by
  refine uses_bind (orFail_uses (request_uses fun _ ↦ trivial)) fun row ↦ ?_
  cases row with
  | none => trivial
  | some row => exact uses_bind (orFail_uses (request_uses fun _ ↦ trivial)) fun _ ↦ trivial

theorem getRuleSource_waits : Waits id (fun found t ↦ ∀ source began,
    found = some (source, began) → Validated web t.received source) (getRuleSource web id) s := by
  have hruleSetOf : AsksNothing (.ruleSetOf : SourceOp web.Url) := fun _ ↦ trivial
  refine conforms_bind (orFail_uses (request_uses hruleSetOf)).conforms fun row s _ ↦ ?_
  cases row with
  | none => exact fun _ _ _ _ h ↦ nomatch h
  | some row =>
    refine conforms_bind (orFail_waits (Q := fun sources t ↦ ∀ source,
      sources.find? (·.id = id) = some source → Validated web t.received source) ?_)
      fun sources s hsources t ht source began hfound ↦ ?_
    · refine fun s' _ ↦ ⟨trivial, fun r t hstep u hu sources hr source hfound ↦ ?_⟩
      obtain ⟨hs, ⟨rfl, hrow⟩, -⟩ := hstep
      rw [hrow sources hr] at hfound
      obtain ⟨hfound, -⟩ := Option.filter_eq_some_iff.mp hfound
      exact (hs.validated source hfound).mono (Grows.always hu)
    · obtain ⟨found, hfind, heq⟩ := Option.map_eq_some_iff.mp hfound
      cases heq
      exact hsources t ht _ hfind

theorem succeed_waits {began : ℕ} (h : Owned web s.received source) :
    Waits id (fun _ _ ↦ True) (succeed web source began) s := by
  have hnow : AsksNothing (.now : SourceOp web.Url) := fun _ ↦ trivial
  refine (request_uses hnow).conforms_bind
    (K := fun s ↦ Owned web s.received source) (fun _ _ _ _ ↦ admitted_grows)
    (fun _ _ hgrows howned ↦ howned.mono hgrows) h fun now s howned ↦ ?_
  refine orFail_waits fun s' hs ↦ ⟨?_, fun _ _ _ _ _ _ _ ↦ trivial⟩
  exact (howned.mono (Grows.always hs)).congr rfl

theorem validateRemoteUrl_uses (url : web.Url) : (validateRemoteUrl web url).Uses AsksNothing := by
  rw [validateRemoteUrl]
  split
  · trivial
  cases web.hostStr url with
  | none => trivial
  | some host =>
    simp only
    split
    · trivial
    refine uses_bind (request_uses fun _ ↦ trivial) fun found ↦ ?_
    cases found with
    | error e => trivial
    | ok addresses =>
      simp only
      split
      · trivial
      · trivial

theorem accept_holds {response : Response} {updated : RuleSetSource}
    (h : accept web source response = .ok updated) :
    updated.url = source.url ∧ Holds web updated response := by
  obtain ⟨-, h⟩ := Except.guard_eq_ok.mp h
  obtain ⟨-, h⟩ := Except.guard_eq_ok.mp h
  obtain ⟨body, hbody, h⟩ := Except.bind_eq_ok.mp h
  obtain ⟨rules, hrules, h⟩ := Except.bind_eq_ok.mp h
  obtain ⟨-, h⟩ := Except.guard_eq_ok.mp h
  cases Except.pure_eq_ok.mp h
  exact ⟨rfl, rfl, rfl, body, rules, hbody, hrules, rfl, rfl, rfl⟩

/-- What a fetch leads to was received for the URL of the source: anew, or before. -/
def Fetched (web : Web) (source : RuleSetSource) (updated : Option RuleSetSource)
    (s : SourceStore) : Prop :=
  Owned web s.received (updated.getD source)

theorem accept_fetched {response : Response} {updated : RuleSetSource}
    (h : accept web source response = .ok updated) (hmem : ⟨source.url, response⟩ ∈ s.received) :
    Fetched web source (some updated) s := by
  obtain ⟨hurl, hholds⟩ := accept_holds h
  exact ⟨_, hmem, hurl.symm, hholds⟩

def Answered (source : RuleSetSource) (response : Response) (s : SourceStore) : Prop :=
  ⟨source.url, response⟩ ∈ s.received ∧
    (response.status = 304 → HasValidators source.etag source.lastModified)

theorem send_waits {url : web.Url} {addresses : List IpAddr}
    (h : Validated web s.received source) : Waits id (fun response t ↦ Answered source response t)
      (orFail (request (SourceOp.send url addresses source.etag source.lastModified source.url)) :
        SourceProgram web Response) s := by
  refine orFail_waits fun s' hs ↦ ⟨Validated.rightful (h.mono (Grows.always hs)), ?_⟩
  intro r t hstep u hu response hr
  obtain ⟨-, rfl, hrule⟩ := hstep
  obtain rfl : r = .ok response := hr
  exact ⟨Grows.always hu List.mem_cons_self, hrule response rfl⟩

theorem fetchHop_waits {redirects : ℕ} {url : web.Url} (h : Validated web s.received source)
    (hnext : ∀ n, redirects = n + 1 → ∀ (target : web.Url) (t : SourceStore),
      Validated web t.received source →
      Waits id (Fetched web source) (fetchFrom web source n target) t) :
    Waits id (Fetched web source) (fetchFrom web source redirects url) s := by
  have hmono (s t : SourceStore) (hst : Grows s t) (hs : Validated web s.received source) :
      Validated web t.received source := hs.mono hst
  rw [fetchFrom.eq_def]
  refine (validateRemoteUrl_uses url).conforms_bind (fun _ _ _ _ ↦ admitted_grows) hmono h
    fun addresses s h ↦ ?_
  have hanswer : Waits id (fun response t ↦ Answered source response t)
      (orFail (request (SourceOp.send url addresses source.etag source.lastModified source.url)) :
        SourceProgram web Response) s := send_waits h
  have hsend := hanswer.frame (fun _ _ _ _ ↦ admitted_grows) hmono h
  refine conforms_bind hsend fun response s hresponse ↦ ?_
  split
  next hstatus =>
    intro t ht
    obtain ⟨⟨-, hvalidators⟩, hvalidated⟩ := hresponse t ht
    exact hvalidated (hvalidators hstatus)
  next hstatus =>
    split
    · cases redirects with
      | zero => trivial
      | succ n =>
        refine (uses_lift _).conforms_bind (fun _ _ _ _ ↦ admitted_grows) hmono
          (hresponse s .refl).2 fun target t ht ↦ ?_
        exact hnext n rfl target t ht
    · refine conforms_bind (conforms_lift fun updated hupdated t ht ↦ ?_)
        fun updated s hupdated t ht ↦ hupdated t ht
      exact accept_fetched hupdated (hresponse t ht).1.1

theorem fetchFrom_waits {redirects : ℕ} {url : web.Url} (h : Validated web s.received source) :
    Waits id (Fetched web source) (fetchFrom web source redirects url) s := by
  induction redirects generalizing url s with
  | zero => exact fetchHop_waits h nofun
  | succ redirects ih =>
    refine fetchHop_waits h fun n hn target t ht ↦ ?_
    obtain rfl : redirects = n := Nat.succ.inj hn
    exact ih ht

theorem fetch_waits (h : Validated web s.received source) :
    Waits id (Fetched web source) (fetch web source) s := by
  rw [fetch]
  cases web.parseUrl source.url with
  | error e => trivial
  | ok url => exact fetchFrom_waits h

theorem refresh_waits : Waits id (fun _ _ ↦ True) (refresh web id) s := by
  refine conforms_bind getRuleSource_waits fun found s hfound ↦ ?_
  match found with
  | none => trivial
  | some (source, began) =>
    refine conforms_bind (conforms_attempt (fetch_waits (hfound s .refl source began rfl)))
      fun result s hresult ↦ ?_
    have hlast (t : SourceStore) : Waits id (fun _ _ ↦ True)
        ((getRuleSource web id).bind fun
          | none => .fail "refreshed rule source disappeared"
          | some (source, _) => .done source) t := by
      refine (uses_bind getRuleSource_uses fun found ↦ ?_).conforms
      cases found <;> trivial
    cases result with
    | ok updated =>
      refine conforms_bind (succeed_waits (hresult s .refl updated rfl)) fun _ t _ ↦ ?_
      exact hlast t
    | error error =>
      refine Uses.conforms (uses_bind (orFail_uses (request_uses fun _ ↦ trivial)) fun _ ↦ ?_)
      trivial

theorem checkSource_uses (source : RuleSetSource) (ruleSet : RoutingRuleSet) :
    (checkSource web id source ruleSet).Uses AsksNothing := by
  rw [checkSource]
  split
  · exact uses_bind getRuleSource_uses fun _ ↦
      uses_bind (orFail_uses (request_uses fun _ ↦ trivial)) fun _ ↦
        uses_bind (orFail_uses (request_uses fun _ ↦ trivial)) fun _ ↦
          uses_bind (uses_lift _) fun _ ↦ trivial
  · trivial

theorem upsertRuleSource_waits (h : ¬HasValidators source.etag source.lastModified) :
    Waits id (fun _ _ ↦ True) (upsertRuleSource web id source) s := by
  have hruleSets : AsksNothing (.loadRoutingRuleSets : SourceOp web.Url) := fun _ ↦ trivial
  rw [upsertRuleSource]
  split
  · trivial
  refine conforms_bind (orFail_uses (request_uses hruleSets)).conforms fun ruleSets s _ ↦ ?_
  cases ruleSets.find? (·.slug = source.ruleSetId) with
  | none => trivial
  | some ruleSet =>
    refine conforms_bind (checkSource_uses source ruleSet).conforms fun _ s _ ↦ ?_
    exact orFail_waits fun s' _ ↦ ⟨h, fun _ _ _ _ _ _ _ ↦ trivial⟩

theorem run_waits (call : SourceCall) : Waits id (fun _ _ ↦ True) (call.run web id) s := by
  cases call with
  | refresh => exact conforms_bind refresh_waits fun _ _ _ _ _ ↦ trivial
  | save form =>
    refine conforms_bind (uses_lift _).conforms fun format s _ ↦ upsertRuleSource_waits ?_
    rintro (hetag | hmodified)
    · cases hetag
    · cases hmodified

/-- Over every interleaving of edits and refreshes of a rule source whose steps keep to the rule,
its cache belongs to its URL. -/
theorem rule_source_cache_owned {ι : Type} [DecidableEq ι] {calls : ι → SourceCall}
    {config : Config ι (@SourceReply web.Url) String Unit SourceStore}
    (hrun : ReflTransGen (Turn (keepingTo (SourceStep id) KeepsOwner))
      ⟨fun i ↦ (calls i).run web id, .initial⟩ config) : CacheOwned web config.shared := by
  have hconform : Config.Conform (Admitted web id) Grows AsksOwned (fun _ _ ↦ True)
      ⟨fun i ↦ (calls i).run web id, .initial⟩ := fun i ↦ run_waits (calls i)
  have hinvariant : SourceInvariant web config.shared := by
    refine shared_of_run ?_ ?_ hconform initial_invariant hrun
    · exact fun _ _ _ _ ↦ step_grows
    · exact fun _ _ _ _ ↦ step_invariant
  exact hinvariant.toCacheOwned

end provenance

section demonstration

/-- URLs of a host behind `https://`, with a path or none. -/
def sampleWeb : Web where
  Url := String
  parseUrl := .ok
  join _ location := .ok location
  scheme _ := "https"
  username _ := ""
  password _ := none
  hostStr url := some (String.ofList ((url.toList.drop "https://".length).takeWhile (· ≠ '/')))
  portOrKnownDefault _ := none
  sha256 _ := "checksum"
  yamlPayload _ := .error "no document"
  statusError _ := "status"

def sampleResponse (etag lastModified : Option String) : Response where
  status := if etag.isSome || lastModified.isSome then 304 else 200
  location := none
  etag := some "version"
  lastModified := none
  contentLength := none
  chunks := [.ok "example.com".toUTF8]

def sampleRuleSet : RoutingRuleSet where
  slug := "set"
  title := "Set"
  effect := ""
  target := "DIRECT"
  enabled := false
  payload := ""

def sourceAnswer (id : String) (s : SourceStore) :
    (op : SourceOp String) → SourceReply op × SourceStore
  | .ruleSetOf => (.ok (s.row.map fun row ↦ ⟨row.ruleSetId, s.upserts⟩), s)
  | .loadRuleSources ruleSetId =>
    (.ok (s.row.filter fun row ↦ row.id = id ∧ row.ruleSetId = ruleSetId).toList, s)
  | .loadRoutingRuleSets => (.ok [sampleRuleSet], s)
  | .loadRuleEntries _ => (.ok [], s)
  | .lookupHost _ _ => (.ok [.v4 ⟨1, 1, 1, 1⟩], s)
  | .send _ _ etag lastModified url =>
    (.ok (sampleResponse etag lastModified),
      s.exchange url etag lastModified (.ok (sampleResponse etag lastModified)))
  | .now => ("now", s)
  | .writeSource source => (.ok (), s.write source)
  | .updateRuleSourceSuccess source began =>
    if s.row.isSome then (.ok (), s.updateSuccess source began) else (.error "unknown rule source", s)
  | .updateRuleSourceError error => (.ok (), s.updateError error)

def sampleForm (url : String) : RuleSourceForm := ⟨"set", url, "text", true, 300⟩

def sampleCalls : ℕ → SourceCall
  | 0 => .save (sampleForm "https://one.example")
  | 2 => .save (sampleForm "https://two.example")
  | _ => .refresh

theorem sourceAnswer_step {id : String} (s : SourceStore) (op : SourceOp String) :
    SourceStep id s op (sourceAnswer id s op).1 (sourceAnswer id s op).2 := by
  cases op with
  | ruleSetOf => exact ⟨rfl, fun _ h ↦ (Except.ok.inj h).symm⟩
  | loadRuleSources ruleSetId =>
    refine ⟨rfl, fun sources h ↦ ?_⟩
    obtain rfl := Except.ok.inj h
    cases s.row with
    | none => rfl
    | some row =>
      by_cases hrow : row.id = id ∧ row.ruleSetId = ruleSetId
      · simp [Option.filter, hrow]
      · simp [Option.filter, hrow]
  | writeSource source => exact .inr ⟨rfl, rfl⟩
  | updateRuleSourceSuccess source began =>
    by_cases hrow : s.row.isSome
    · simp only [sourceAnswer, if_pos hrow]
      exact .inr ⟨rfl, hrow, rfl⟩
    · simp only [sourceAnswer, if_neg hrow]
      exact .inl ⟨nofun, rfl⟩
  | updateRuleSourceError error => exact .inr rfl
  | loadRoutingRuleSets | loadRuleEntries | lookupHost | send | now => rfl

def cautiousAnswer (id : String) (s : SourceStore) :
    (op : SourceOp String) → SourceReply op × SourceStore
  | .writeSource source =>
    if s.row.isSome then (.error "refused", s) else sourceAnswer id s (.writeSource source)
  | .updateRuleSourceSuccess source began =>
    if s.row.all fun row ↦ row.url = source.url ∧ row.format = source.format then
      sourceAnswer id s (.updateRuleSourceSuccess source began)
    else (.error "refused", s)
  | op => sourceAnswer id s op

theorem cautiousAnswer_keeps {id : String} (s : SourceStore) (op : SourceOp sampleWeb.Url) :
    keepingTo (SourceStep id) KeepsOwner s op (cautiousAnswer id s op).1
      (cautiousAnswer id s op).2 := by
  cases op with
  | writeSource source =>
    by_cases hrow : s.row.isSome
    · simp only [cautiousAnswer, if_pos hrow]
      exact ⟨.inl ⟨nofun, rfl⟩, nofun⟩
    · simp only [cautiousAnswer, if_neg hrow]
      refine ⟨sourceAnswer_step s _, fun _ row hsome ↦ ?_⟩
      rw [hsome] at hrow
      exact absurd rfl hrow
  | updateRuleSourceSuccess source began =>
    by_cases hrow : s.row.all fun row ↦ row.url = source.url ∧ row.format = source.format
    · simp only [cautiousAnswer, if_pos hrow]
      refine ⟨sourceAnswer_step s _, fun _ row hsome ↦ ?_⟩
      rw [hsome] at hrow
      exact of_decide_eq_true hrow
    · simp only [cautiousAnswer, if_neg hrow]
      exact ⟨.inl ⟨nofun, rfl⟩, nofun⟩
  | send url addresses etag lastModified sourceUrl =>
    refine ⟨sourceAnswer_step s _, fun response hr hstatus ↦ ?_⟩
    obtain rfl := Except.ok.inj hr
    by_cases hvalidators : (etag.isSome || lastModified.isSome) = true
    · exact (Bool.or_eq_true _ _).mp hvalidators
    · simp [sampleResponse, hvalidators] at hstatus
  | ruleSetOf | loadRuleSources | loadRoutingRuleSets | loadRuleEntries | lookupHost | now
  | updateRuleSourceError => exact ⟨sourceAnswer_step s _, trivial⟩

def sampleConfig : Config ℕ (@SourceReply sampleWeb.Url) String Unit SourceStore :=
  ⟨fun i ↦ (sampleCalls i).run sampleWeb "source", .initial⟩

theorem rule_source_cache_revalidated :
    let config := sampleConfig.exec (cautiousAnswer "source") 20 [0, 1, 3]
    config.shared.sent.length = 2 ∧ config.shared.refreshed = true ∧
      CacheOwned sampleWeb config.shared := by
  have hturns := Config.exec_turns (@cautiousAnswer_keeps "source") 20 [0, 1, 3] sampleConfig
  have howned := rule_source_cache_owned hturns
  have hran : (sampleConfig.exec (cautiousAnswer "source") 20 [0, 1, 3]).shared.sent.length = 2 ∧
      (sampleConfig.exec (cautiousAnswer "source") 20 [0, 1, 3]).shared.refreshed = true := by
    decide +kernel
  exact ⟨hran.1, hran.2, howned⟩

def misdirected (s : SourceStore) : Bool :=
  s.sent.any fun sent ↦
    sent.etag.isSome && sent.received.all fun receipt ↦ receipt.url ≠ sent.url

theorem not_owned_of_misdirected {web : Web} {s : SourceStore} (h : misdirected s = true) :
    ¬CacheOwned web s := by
  intro howned
  obtain ⟨sent, hsent, hmisdirected⟩ := List.any_eq_true.mp h
  rw [Bool.and_eq_true, List.all_eq_true] at hmisdirected
  obtain ⟨hetag, hother⟩ := hmisdirected
  obtain ⟨receipt, hreceipt, hurl, -⟩ := howned.sent sent hsent (.inl hetag)
  exact of_decide_eq_true (hother receipt hreceipt) hurl

theorem rule_source_cache_mixed :
    ¬∀ (web : Web) (id : String) (calls : ℕ → SourceCall)
      (config : Config ℕ (@SourceReply web.Url) String Unit SourceStore),
      ReflTransGen (Turn (SourceStep id)) ⟨fun i ↦ (calls i).run web id, .initial⟩ config →
      CacheOwned web config.shared := by
  intro hall
  have hturns := Config.exec_turns (@sourceAnswer_step "source") 20 [0, 1, 2, 3] sampleConfig
  refine not_owned_of_misdirected ?_ (hall sampleWeb "source" sampleCalls _ hturns)
  decide +kernel

end demonstration

end StealthHub.Panel.RuleSources

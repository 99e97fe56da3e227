import StealthHub.Adapters.ProtocolsSpec
import StealthHub.Routing.Mihomo
import StealthHub.Storage.Profiles

set_option autoImplicit false

namespace StealthHub.Panel

open Text Storage Routing Adapters

def loadReference (db : Database) (secrets : OrderedMap String String) (reference : SecretRef) :
    OrderedMap String String :=
  if secrets.contains reference.name then secrets
  else match getSecret db reference.name with
    | some value => secrets.insert reference.name value
    | none => secrets

def loadProfileSecrets (db : Database) (registry : ProtocolRegistry)
    (secrets : OrderedMap String String) (profile : ProtocolProfile) :
    Except String (OrderedMap String String) := do
  let adapter ← (registry.get profile.protocolId).elim
    (.error "protocol adapter is unavailable") .ok
  let references ← adapter.clientSecretReferences profile.config
  return references.foldl (loadReference db) secrets

def loadSecretValuesMap (db : Database) (profiles : List ProtocolProfile)
    (registry : ProtocolRegistry) : Except String (OrderedMap String String) :=
  profiles.foldlM (loadProfileSecrets db registry) .empty

/-- The text of the document for the stored profiles of `input`. -/
def mihomoSubscription (serialize : Value → Except String String) (db : Database)
    (registry : ProtocolRegistry) (input : MihomoGenerationInput) : Except String String := do
  let secrets ← loadSecretValuesMap db input.profiles registry
  let generated ← generateMihomoYamlDetailed serialize { input with secrets } registry
  return generated.yaml

/-- The client references of a profile can be read. -/
def Declares (registry : ProtocolRegistry) (profile : ProtocolProfile) (refs : List SecretRef) :
    Prop :=
  ∃ adapter, registry.get profile.protocolId = some adapter ∧
    adapter.clientSecretReferences profile.config = .ok refs

variable {db : Database} {registry : ProtocolRegistry} {profile : ProtocolProfile}
variable {profiles : List ProtocolProfile} {secrets secrets' : OrderedMap String String}
variable {refs : List SecretRef} {name : String}

theorem loadProfileSecrets_ok : loadProfileSecrets db registry secrets profile = .ok secrets' ↔
    ∃ refs, Declares registry profile refs ∧ refs.foldl (loadReference db) secrets = secrets' := by
  rw [loadProfileSecrets, Except.bind_eq_ok]
  simp only [Except.elim_eq_ok, Except.bind_eq_ok, Except.pure_eq_ok]
  constructor
  · rintro ⟨adapter, hadapter, refs, hrefs, h⟩
    exact ⟨refs, ⟨adapter, hadapter, hrefs⟩, h⟩
  · rintro ⟨refs, ⟨adapter, hadapter, hrefs⟩, h⟩
    exact ⟨adapter, hadapter, refs, hrefs, h⟩

def Holds (db : Database) (names : List String) (secrets : OrderedMap String String) : Prop :=
  ∀ name, secrets.get? name = if name ∈ names then getSecret db name else none

theorem holds_loadReference {names : List String} (reference : SecretRef)
    (h : Holds db names secrets) :
    Holds db (names ++ [reference.name]) (loadReference db secrets reference) := by
  intro name
  have hname := h name
  have hreference := h reference.name
  rw [loadReference]
  simp only [List.mem_append, List.mem_singleton]
  by_cases hcontains : secrets.contains reference.name
  · obtain ⟨value, hvalue⟩ := Option.isSome_iff_exists.mp hcontains
    rw [if_pos hcontains, hname]
    rw [hvalue] at hreference
    by_cases heq : name = reference.name
    · subst heq
      split_ifs at hreference with hmem
      simp [hmem]
    · simp [heq]
  · have hnone : secrets.get? reference.name = none := by
      simpa [OrderedMap.contains] using hcontains
    rw [if_neg hcontains]
    by_cases heq : name = reference.name
    · subst heq
      cases hget : getSecret db reference.name with
      | none => simpa using hnone
      | some value => simp
    · cases hget : getSecret db reference.name with
      | none => simpa [heq] using hname
      | some value =>
        rw [OrderedMap.get?_insert, if_neg (Ne.symm heq), hname]
        simp [heq]

theorem holds_loadReferences {names : List String} (h : Holds db names secrets) :
    Holds db (names ++ refs.map SecretRef.name) (refs.foldl (loadReference db) secrets) := by
  induction refs generalizing names secrets with
  | nil => simpa using h
  | cons reference rest ih =>
    have hrest := ih (holds_loadReference reference h)
    rwa [List.append_assoc] at hrest

theorem holds_loadProfiles {names : List String} (h : Holds db names secrets)
    (hload : profiles.foldlM (loadProfileSecrets db registry) secrets = .ok secrets') :
    ∃ names', Holds db (names ++ names') secrets' ∧
      ∀ profile ∈ profiles, ∃ refs, Declares registry profile refs ∧
        ∀ reference ∈ refs, reference.name ∈ names' := by
  induction profiles generalizing names secrets with
  | nil =>
    cases Except.pure_eq_ok.mp hload
    exact ⟨[], by simpa using h, fun _ hmem ↦ absurd hmem List.not_mem_nil⟩
  | cons profile rest ih =>
    rw [List.foldlM_cons] at hload
    obtain ⟨middle, hstep, hload⟩ := Except.bind_eq_ok.mp hload
    obtain ⟨refs, hrefs, rfl⟩ := loadProfileSecrets_ok.mp hstep
    obtain ⟨names', hholds, hall⟩ := ih (holds_loadReferences h) hload
    refine ⟨refs.map SecretRef.name ++ names', by rwa [← List.append_assoc], ?_⟩
    intro other hother
    rcases List.mem_cons.mp hother with rfl | hother
    · refine ⟨refs, hrefs, fun reference hreference ↦ ?_⟩
      exact List.mem_append_left _ (List.mem_map_of_mem hreference)
    · obtain ⟨refs', hrefs', hnames⟩ := hall other hother
      exact ⟨refs', hrefs', fun reference hreference ↦
        List.mem_append_right _ (hnames reference hreference)⟩

theorem load_isOk_iff : (∃ secrets', profiles.foldlM (loadProfileSecrets db registry) secrets =
    .ok secrets') ↔ ∀ profile ∈ profiles, ∃ refs, Declares registry profile refs := by
  induction profiles generalizing secrets with
  | nil => simp [pure, Except.pure]
  | cons profile rest ih =>
    simp only [List.foldlM_cons, Except.bind_eq_ok, loadProfileSecrets_ok, List.forall_mem_cons]
    constructor
    · intro ⟨secrets', middle, ⟨refs, hrefs, _⟩, hrest⟩
      exact ⟨⟨refs, hrefs⟩, ih.mp ⟨secrets', hrest⟩⟩
    · intro ⟨⟨refs, hrefs⟩, hrest⟩
      obtain ⟨secrets', h⟩ := ih.mpr hrest
      exact ⟨secrets', _, ⟨refs, hrefs, rfl⟩, h⟩

theorem foldlM_congr {ε α β : Type} {f g : α → β → Except ε α} {l : List β}
    (h : ∀ b ∈ l, ∀ a, f a b = g a b) (a : α) : l.foldlM f a = l.foldlM g a := by
  induction l generalizing a with
  | nil => rfl
  | cons b rest ih =>
    rw [List.foldlM_cons, List.foldlM_cons, h b List.mem_cons_self]
    refine congrArg _ (funext fun a' ↦ ih (fun c hc ↦ h c (List.mem_cons_of_mem _ hc)) a')

/-- The profiles agree on the enabled ones, and the secrets on what these reference. -/
structure SameEnabled (registry : ProtocolRegistry) (profiles profiles' : List ProtocolProfile)
    (secrets secrets' : OrderedMap String String) : Prop where
  enabled : profiles.filter (·.enabled) = profiles'.filter (·.enabled)
  secrets : ∀ profile ∈ profiles, ∃ refs, Declares registry profile refs ∧
    ∀ reference ∈ refs, secrets.get? reference.name = secrets'.get? reference.name

theorem renderProfile_congr {input : MihomoGenerationInput} {adapter : ProtocolAdapter}
    {profiles' : List ProtocolProfile} {rendered : RenderedProfiles}
    (hadapter : registry.get profile.protocolId = some adapter)
    (hproxy : adapter.renderClient ⟨profile, input.user, mapSecretResolver secrets⟩ =
      adapter.renderClient ⟨profile, input.user, mapSecretResolver secrets'⟩) :
    renderProfile { input with profiles, secrets } registry rendered profile =
      renderProfile { input with profiles := profiles', secrets := secrets' } registry
        rendered profile := by
  simp only [renderProfile, hadapter, hproxy]

theorem generate_congr {serialize : Value → Except String String} {input : MihomoGenerationInput}
    {profiles' : List ProtocolProfile}
    (h : SameEnabled builtInProtocols profiles profiles' secrets secrets') :
    generateMihomoYamlDetailed serialize { input with profiles, secrets } builtInProtocols =
      generateMihomoYamlDetailed serialize
        { input with profiles := profiles', secrets := secrets' } builtInProtocols := by
  have hrender : ∀ profile ∈ profiles.filter (·.enabled), ∀ rendered,
      renderProfile { input with profiles, secrets } builtInProtocols rendered profile =
        renderProfile { input with profiles := profiles', secrets := secrets' } builtInProtocols
          rendered profile := by
    intro profile hprofile rendered
    obtain ⟨refs, ⟨adapter, hadapter, hrefs⟩, hsame⟩ :=
      h.secrets profile (List.mem_of_mem_filter hprofile)
    obtain ⟨json, hjson, rfl, -⟩ := builtInProtocols_get.mp hadapter
    refine renderProfile_congr hadapter (renderClient_congr hjson hrefs fun reference hmem ↦ ?_)
    rw [mapSecretResolver, mapSecretResolver, hsame reference hmem]
  have hfold := foldlM_congr hrender ⟨[], [], []⟩
  rw [h.enabled] at hfold
  unfold generateMihomoYamlDetailed
  dsimp only
  rw [h.enabled, hfold]

/-- A profile that no subscription shows. -/
def Unavailable (registry : ProtocolRegistry) (profile : ProtocolProfile) : Prop :=
  registry.get profile.protocolId = none ∨ profile.enabled = false

variable {serialize : Value → Except String String} {input : MihomoGenerationInput}
variable {before after : List ProtocolProfile}

theorem subscription_ok {yaml : String} :
    mihomoSubscription serialize db registry input = .ok yaml ↔
      ∃ secrets generated, loadSecretValuesMap db input.profiles registry = .ok secrets ∧
        generateMihomoYamlDetailed serialize { input with secrets } registry = .ok generated ∧
        generated.yaml = yaml := by
  rw [mihomoSubscription, Except.bind_eq_ok]
  simp only [Except.bind_eq_ok, Except.pure_eq_ok]
  constructor
  · rintro ⟨secrets, hload, generated, hgenerated, h⟩
    exact ⟨secrets, generated, hload, hgenerated, h⟩
  · rintro ⟨secrets, generated, hload, hgenerated, h⟩
    exact ⟨secrets, hload, generated, hgenerated, h⟩

theorem generate_added (hdisabled : profile.enabled = false)
    (hload : loadSecretValuesMap db (before ++ after) builtInProtocols = .ok secrets)
    (hload' : loadSecretValuesMap db (before ++ profile :: after) builtInProtocols = .ok secrets') :
    generateMihomoYamlDetailed serialize { input with profiles := before ++ after, secrets }
        builtInProtocols =
      generateMihomoYamlDetailed serialize
        { input with profiles := before ++ profile :: after, secrets := secrets' }
        builtInProtocols := by
  have hempty : Holds db [] .empty := fun _ ↦ rfl
  obtain ⟨names, hholds, hnames⟩ := holds_loadProfiles hempty hload
  obtain ⟨names', hholds', hnames'⟩ := holds_loadProfiles hempty hload'
  refine generate_congr ⟨by simp [hdisabled], fun other hother ↦ ?_⟩
  have hmem : other ∈ before ++ profile :: after := by
    simp only [List.mem_append, List.mem_cons] at hother ⊢
    tauto
  obtain ⟨refs, ⟨adapter, hadapter, hrefs⟩, hlisted⟩ := hnames other hother
  obtain ⟨refs', ⟨adapter', hadapter', hrefs'⟩, hlisted'⟩ := hnames' other hmem
  cases hadapter.symm.trans hadapter'
  cases hrefs.symm.trans hrefs'
  refine ⟨refs, ⟨adapter, hadapter, hrefs⟩, fun reference hreference ↦ ?_⟩
  rw [hholds, hholds', List.nil_append, List.nil_append, if_pos (hlisted reference hreference),
    if_pos (hlisted' reference hreference)]

theorem load_without (h : loadSecretValuesMap db (before ++ profile :: after) registry =
    .ok secrets') : ∃ secrets, loadSecretValuesMap db (before ++ after) registry = .ok secrets := by
  refine load_isOk_iff.mpr fun other hother ↦ load_isOk_iff.mp ⟨_, h⟩ other ?_
  simp only [List.mem_append, List.mem_cons] at hother ⊢
  tauto

theorem declares_of_load
    (h : loadSecretValuesMap db (before ++ profile :: after) registry = .ok secrets') :
    ∃ refs, Declares registry profile refs :=
  load_isOk_iff.mp ⟨_, h⟩ profile (by simp)

theorem load_with (h : loadSecretValuesMap db (before ++ after) registry = .ok secrets)
    (hrefs : ∃ refs, Declares registry profile refs) :
    ∃ secrets', loadSecretValuesMap db (before ++ profile :: after) registry = .ok secrets' := by
  refine load_isOk_iff.mpr fun other hother ↦ ?_
  rw [List.mem_append, List.mem_cons, ← or_assoc, or_right_comm] at hother
  rcases hother with hother | rfl
  · exact load_isOk_iff.mp ⟨_, h⟩ other (List.mem_append.mpr hother)
  · exact hrefs

/-- A stored profile that no subscription shows never brings one into being, and it
leaves a subscription as it was exactly when its references can be read: its protocol is
registered and its configuration passes the checks of the adapter. -/
theorem unavailable_unchanged_iff (serialize : Value → Except String String) (db : Database)
    (input : MihomoGenerationInput) (before after : List ProtocolProfile)
    (hunavailable : Unavailable builtInProtocols profile) (yaml : String) :
    (mihomoSubscription serialize db builtInProtocols
          { input with profiles := before ++ profile :: after } = .ok yaml →
        mihomoSubscription serialize db builtInProtocols
          { input with profiles := before ++ after } = .ok yaml) ∧
      (mihomoSubscription serialize db builtInProtocols
          { input with profiles := before ++ after } = .ok yaml →
        (mihomoSubscription serialize db builtInProtocols
            { input with profiles := before ++ profile :: after } = .ok yaml ↔
          ∃ refs, Declares builtInProtocols profile refs)) := by
  have hdisabled : (∃ refs, Declares builtInProtocols profile refs) → profile.enabled = false := by
    intro ⟨refs, adapter, hadapter, _⟩
    refine hunavailable.resolve_left fun hnone ↦ ?_
    rw [hnone] at hadapter
    cases hadapter
  refine ⟨fun hafter ↦ ?_, fun hbefore ↦ ⟨fun hafter ↦ ?_, fun hrefs ↦ ?_⟩⟩
  · obtain ⟨secrets', generated, hload', hgenerated, hyaml⟩ := subscription_ok.mp hafter
    obtain ⟨secrets, hload⟩ := load_without hload'
    rw [← generate_added (hdisabled (declares_of_load hload')) hload hload'] at hgenerated
    exact subscription_ok.mpr ⟨secrets, generated, hload, hgenerated, hyaml⟩
  · obtain ⟨secrets', _, hload', -⟩ := subscription_ok.mp hafter
    exact declares_of_load hload'
  · obtain ⟨secrets, generated, hload, hgenerated, hyaml⟩ := subscription_ok.mp hbefore
    obtain ⟨secrets', hload'⟩ := load_with hload hrefs
    rw [generate_added (hdisabled hrefs) hload hload'] at hgenerated
    exact subscription_ok.mpr ⟨secrets', generated, hload', hgenerated, hyaml⟩

def tunnelProfile : ProtocolProfile where
  name := "TUNNEL"
  displayName := "Tunnel"
  protocolId := "trusttunnel-h2"
  schemaVersion := 1
  role := .compatibility
  server := "node.example.test"
  port := 15443
  enabled := true
  preferredCoreId := some "mihomo"
  managedResourceId := none
  config := .object [("sni", .string "node.example.test")]

def historicalProfile : ProtocolProfile :=
  { tunnelProfile with name := "OLD", protocolId := "removed-protocol", enabled := false }

def tunnelInput (profiles : List ProtocolProfile) : MihomoGenerationInput where
  settings := ⟨"Panel", "sub.example.test", "node.example.test"⟩
  user := ⟨"alice", "u-1", "t-1"⟩
  profiles := profiles
  secrets := .empty
  routingRuleSets := []
  policy := ⟨[], []⟩
  dnsPolicy := defaultDnsPolicy
  availableCoreCapabilities := some {"trusttunnel-h2"}

theorem tunnel_rendered {input : MihomoGenerationInput} {capabilities : Finset String}
    (hcapabilities : input.availableCoreCapabilities = some capabilities)
    (hcovered : {"trusttunnel-h2"} ⊆ capabilities) : ∃ proxy,
    renderProfile input builtInProtocols ⟨[], [], []⟩ tunnelProfile =
      .ok ⟨[proxy], [tunnelProfile], []⟩ := by
  obtain ⟨proxy, hproxy⟩ : ∃ proxy, trustTunnel.toAdapter.renderClient
      ⟨tunnelProfile, input.user, mapSecretResolver input.secrets⟩ = .ok proxy := ⟨_, rfl⟩
  refine ⟨proxy, ?_⟩
  rw [renderProfile, show builtInProtocols.get tunnelProfile.protocolId = _ from
    trustTunnel_registered]
  simp only [hcapabilities, Option.any_some]
  rw [if_neg (by rw [decide_eq_true_eq, not_not]; exact hcovered), hproxy]
  rfl

theorem tunnel_generated {capabilities : Finset String}
    (hcovered : {"trusttunnel-h2"} ⊆ capabilities) :
    ∃ output, generateMihomoYamlDetailed (fun _ ↦ .ok "document")
      { tunnelInput [tunnelProfile] with availableCoreCapabilities := some capabilities }
      builtInProtocols = .ok output := by
  obtain ⟨proxy, hproxy⟩ := @tunnel_rendered
    { tunnelInput [tunnelProfile] with availableCoreCapabilities := some capabilities } _ rfl hcovered
  have hloop : ([tunnelProfile].filter (·.enabled)).foldlM (renderProfile
      { tunnelInput [tunnelProfile] with availableCoreCapabilities := some capabilities }
      builtInProtocols) ⟨[], [], []⟩ = .ok ⟨[proxy], [tunnelProfile], []⟩ := by
    rw [show [tunnelProfile].filter (·.enabled) = [tunnelProfile] from rfl, List.foldlM_cons, hproxy]
    rfl
  have htoken : isEmpty (trim "t-1") = false := by decide
  have hdns : defaultDnsPolicy.validate = .ok () := by decide
  exact generate_exists (List.cons_ne_nil _ _) htoken hloop (List.cons_ne_nil _ _) rfl hdns rfl
    fun _ ↦ ⟨"document", rfl⟩

theorem tunnel_subscription : mihomoSubscription (fun _ ↦ .ok "document") initDb builtInProtocols
    (tunnelInput [tunnelProfile]) = .ok "document" := by
  obtain ⟨output, houtput⟩ := tunnel_generated (Finset.Subset.refl {"trusttunnel-h2"})
  have hload : loadSecretValuesMap initDb [tunnelProfile] builtInProtocols = .ok .empty := by
    rw [loadSecretValuesMap, List.foldlM_cons, loadProfileSecrets,
      show builtInProtocols.get tunnelProfile.protocolId = _ from trustTunnel_registered]
    rfl
  refine subscription_ok.mpr ⟨.empty, output, hload, houtput, ?_⟩
  exact (Except.ok.inj (generate_yaml houtput)).symm

theorem historical_unregistered : builtInProtocols.get historicalProfile.protocolId = none := by
  rw [Option.eq_none_iff_forall_ne_some]
  intro adapter hadapter
  obtain ⟨json, hjson, -, hid⟩ := builtInProtocols_get.mp hadapter
  have hother : ∀ json ∈ protocols, json.manifest.id ≠ "removed-protocol" := by decide
  exact hother json hjson hid

theorem historical_blocks_subscription :
    ¬∀ (serialize : Value → Except String String) (db : Database) (input : MihomoGenerationInput)
      (before after : List ProtocolProfile) (profile : ProtocolProfile) (yaml : String),
      Unavailable builtInProtocols profile →
      mihomoSubscription serialize db builtInProtocols
        { input with profiles := before ++ after } = .ok yaml →
      mihomoSubscription serialize db builtInProtocols
        { input with profiles := before ++ profile :: after } = .ok yaml := by
  intro hall
  have hadded := hall _ _ (tunnelInput []) [] [tunnelProfile] historicalProfile _
    (.inl historical_unregistered) tunnel_subscription
  obtain ⟨secrets', _, hload, -⟩ := subscription_ok.mp hadded
  obtain ⟨refs, adapter, hadapter, -⟩ := @declares_of_load _ _ _ _ [] [tunnelProfile] hload
  rw [historical_unregistered] at hadapter
  cases hadapter

def spareProfile : ProtocolProfile := { tunnelProfile with name := "SPARE", enabled := false }

theorem unavailable_unchanged_tunnel :
    mihomoSubscription (fun _ ↦ .ok "document") initDb builtInProtocols
        (tunnelInput [tunnelProfile]) = .ok "document" ∧
      mihomoSubscription (fun _ ↦ .ok "document") initDb builtInProtocols
        (tunnelInput [spareProfile, tunnelProfile]) = .ok "document" := by
  have hdeclares : Declares builtInProtocols spareProfile [] :=
    ⟨trustTunnel.toAdapter, trustTunnel_registered, rfl⟩
  have hadded := (unavailable_unchanged_iff (fun _ ↦ .ok "document") initDb (tunnelInput []) []
    [tunnelProfile] (.inr rfl : Unavailable builtInProtocols spareProfile) "document").2
  exact ⟨tunnel_subscription, (hadded tunnel_subscription).mpr ⟨[], hdeclares⟩⟩

end StealthHub.Panel

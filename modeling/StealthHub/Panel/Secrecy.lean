import StealthHub.Adapters.ClientReads
import StealthHub.Panel.SharedSecrets

set_option autoImplicit false

namespace StealthHub.Panel

open Text Storage Routing Adapters

/-- `load_secret_values_map`, then `generate_mihomo_yaml_detailed`. -/
def loadAndGenerate (serialize : Value → Except String String) (db : Database)
    (input : MihomoGenerationInput) : Except String MihomoGenerationOutput := do
  let secrets ← loadSecretValuesMap db input.profiles builtInProtocols
  generateMihomoYamlDetailed serialize { input with secrets } builtInProtocols

def ServerOnly (input : MihomoGenerationInput) (name : String) : Prop :=
  ∃ keeper ∈ input.profiles, KeptFromPanel keeper name

/-- The contents of `secret_values` differ in such names only. -/
def SameOutside (input : MihomoGenerationInput) (db db' : Database) : Prop :=
  ∀ name, ¬ServerOnly input name → db.secrets.get? name = db'.secrets.get? name

def offered (registry : ProtocolRegistry) (input : MihomoGenerationInput)
    (profile : ProtocolProfile) : Option ProtocolAdapter :=
  (registry.get profile.protocolId).filter fun adapter ↦
    !input.availableCoreCapabilities.any fun capabilities ↦
      ¬adapter.manifest.requiredCoreCapabilities ⊆ capabilities

def outdated (registry : ProtocolRegistry) (input : MihomoGenerationInput)
    (profile : ProtocolProfile) : Bool :=
  (offered registry input profile).any fun adapter ↦
    profile.schemaVersion ≠ adapter.manifest.schemaVersion

def Leaks (input : MihomoGenerationInput) : Prop :=
  ∃ profile ∈ (input.profiles.filter (·.enabled)).takeWhile (!outdated builtInProtocols input ·),
    ∃ adapter, offered builtInProtocols input profile = some adapter ∧
      ∃ refs, adapter.clientSecretReferences profile.config = .ok refs ∧
        ∃ reference ∈ refs, ServerOnly input reference.name

variable {db db' : Database} {input : MihomoGenerationInput} {profile : ProtocolProfile}
variable {profiles stored : List ProtocolProfile} {secrets secrets' : OrderedMap String String}
variable {rendered : RenderedProfiles} {registry : ProtocolRegistry} {adapter : ProtocolAdapter}
variable {e : String}

theorem loadAndGenerate_loaded {serialize : Value → Except String String}
    (h : loadSecretValuesMap db input.profiles builtInProtocols = .ok secrets) :
    loadAndGenerate serialize db input =
      generateMihomoYamlDetailed serialize { input with secrets } builtInProtocols := by
  rw [loadAndGenerate, h]
  rfl

def BuiltInOnly (registry : ProtocolRegistry) : Prop :=
  ∀ id adapter, registry.get id = some adapter → ∃ json ∈ protocols, json.toAdapter = adapter

theorem builtInProtocols_only : BuiltInOnly builtInProtocols := by
  intro id adapter h
  obtain ⟨json, hjson, hadapter, -⟩ := builtInProtocols_get.mp h
  exact ⟨json, hjson, hadapter⟩

theorem offered_eq_some : offered registry input profile = some adapter ↔
    registry.get profile.protocolId = some adapter ∧
      ¬(input.availableCoreCapabilities.any fun capabilities ↦
        ¬adapter.manifest.requiredCoreCapabilities ⊆ capabilities) = true := by
  rw [offered, Option.filter_eq_some_iff, Bool.not_eq_true', ← Bool.not_eq_true]

theorem renderProfile_skipped (h : offered registry input profile = none) :
    (∃ skipped, renderProfile { input with secrets } registry rendered profile =
      .ok skipped) ∧
      renderProfile { input with secrets } registry rendered profile =
        renderProfile { input with secrets := secrets' } registry rendered profile := by
  cases hadapter : registry.get profile.protocolId with
  | none =>
    simp only [renderProfile, hadapter]
    exact ⟨⟨_, rfl⟩, trivial⟩
  | some adapter =>
    by_cases havailable : input.availableCoreCapabilities.any fun capabilities ↦
        ¬adapter.manifest.requiredCoreCapabilities ⊆ capabilities
    · simp only [renderProfile, hadapter]
      rw [if_pos havailable, if_pos havailable]
      exact ⟨⟨_, rfl⟩, rfl⟩
    · rw [offered_eq_some.mpr ⟨hadapter, havailable⟩] at h
      cases h

theorem renderProfile_offered (h : offered registry input profile = some adapter) :
    renderProfile { input with secrets } registry rendered profile =
      (adapter.renderClient ⟨profile, input.user, mapSecretResolver secrets⟩).map fun proxy ↦
        { rendered with
          proxies := rendered.proxies ++ [proxy]
          availableProfiles := rendered.availableProfiles ++ [profile] } := by
  obtain ⟨hadapter, havailable⟩ := offered_eq_some.mp h
  simp only [renderProfile, hadapter]
  rw [if_neg havailable]
  cases adapter.renderClient ⟨profile, input.user, mapSecretResolver secrets⟩ <;> rfl

theorem renderProfile_outdated (hregistry : BuiltInOnly registry)
    (h : outdated registry input profile = true) :
    renderProfile { input with secrets } registry rendered profile =
      .error "unsupported adapter configuration schema" := by
  obtain ⟨adapter, hadapter, hversion⟩ := Option.any_eq_true _ _ |>.mp h
  obtain ⟨json, -, rfl⟩ := hregistry _ _ (offered_eq_some.mp hadapter).1
  have hinvalid : json.validateConfig profile.schemaVersion profile.config =
      .error "unsupported adapter configuration schema" := by
    rw [JsonProtocolAdapter.validateConfig, if_pos]
    exact .inl (of_decide_eq_true hversion)
  rw [renderProfile_offered hadapter]
  change Except.map _ (json.renderClient ⟨profile, input.user, mapSecretResolver secrets⟩) = _
  rw [JsonProtocolAdapter.renderClient, hinvalid]
  rfl

theorem validated_of_current {json : JsonProtocolAdapter} {refs : List SecretRef}
    (hadapter : offered registry input profile = some json.toAdapter)
    (hrefs : json.clientSecretReferences profile.config = .ok refs)
    (h : outdated registry input profile = false) :
    json.validateConfig profile.schemaVersion profile.config = .ok () := by
  rw [outdated, hadapter, Option.any_some, decide_eq_false_iff_not, not_not] at h
  rw [h]
  exact (references_ok.mp hrefs).1

theorem renders_congr (hregistry : BuiltInOnly registry) (hdeclares : ∀ profile ∈ stored, ∃ refs,
      Declares registry profile refs ∧ ∀ reference ∈ refs,
        ¬ServerOnly input reference.name →
          secrets.get? reference.name = secrets'.get? reference.name)
    (hleaks : ¬∃ profile ∈ stored.takeWhile (!outdated registry input ·),
      ∃ adapter, offered registry input profile = some adapter ∧
        ∃ refs, adapter.clientSecretReferences profile.config = .ok refs ∧
          ∃ reference ∈ refs, ServerOnly input reference.name) :
    stored.foldlM (renderProfile { input with secrets } registry) rendered =
      stored.foldlM (renderProfile { input with secrets := secrets' } registry) rendered := by
  induction stored generalizing rendered with
  | nil => rfl
  | cons profile rest ih =>
    rw [List.foldlM_cons, List.foldlM_cons]
    cases houtdated : outdated registry input profile with
    | true =>
      rw [renderProfile_outdated hregistry houtdated, renderProfile_outdated hregistry houtdated]
      rfl
    | false =>
      rw [List.takeWhile_cons_of_pos (by rw [houtdated]; rfl), List.exists_mem_cons_iff,
        not_or] at hleaks
      have hsame : renderProfile { input with secrets } registry rendered profile =
          renderProfile { input with secrets := secrets' } registry rendered profile := by
        cases hoffered : offered registry input profile with
        | none => exact (renderProfile_skipped hoffered).2
        | some adapter =>
          obtain ⟨refs, ⟨registered, hregistered, hrefs⟩, hagree⟩ :=
            hdeclares profile List.mem_cons_self
          cases (offered_eq_some.mp hoffered).1.symm.trans hregistered
          obtain ⟨json, hjson, rfl⟩ := hregistry _ _ hregistered
          have hclient : json.renderClient ⟨profile, input.user, mapSecretResolver secrets⟩ =
              json.renderClient ⟨profile, input.user, mapSecretResolver secrets'⟩ := by
            refine renderClient_congr hjson hrefs fun reference hmem ↦ ?_
            rw [mapSecretResolver, mapSecretResolver, hagree reference hmem]
            exact fun hkept ↦ hleaks.1 ⟨_, hoffered, refs, hrefs, reference, hmem, hkept⟩
          rw [renderProfile_offered hoffered, renderProfile_offered hoffered]
          exact congrArg _ hclient
      rw [hsame]
      refine congrArg _ (funext fun later ↦ ih ?_ hleaks.2)
      exact fun other hother ↦ hdeclares other (List.mem_cons_of_mem _ hother)

theorem renders_error (hregistry : BuiltInOnly registry) (hresolves : ∀ profile ∈ stored, ∃ refs,
      Declares registry profile refs ∧ ∀ reference ∈ refs,
        (ServerOnly input reference.name → mapSecretResolver secrets reference.name = .error e) ∧
          (¬ServerOnly input reference.name → ∃ value,
            mapSecretResolver secrets reference.name = .ok value))
    (hleaks : ∃ profile ∈ stored.takeWhile (!outdated registry input ·),
      ∃ adapter, offered registry input profile = some adapter ∧
        ∃ refs, adapter.clientSecretReferences profile.config = .ok refs ∧
          ∃ reference ∈ refs, ServerOnly input reference.name) :
    stored.foldlM (renderProfile { input with secrets } registry) rendered = .error e := by
  induction stored generalizing rendered with
  | nil =>
    obtain ⟨profile, hprofile, -⟩ := hleaks
    cases hprofile
  | cons profile rest ih =>
    cases houtdated : outdated registry input profile with
    | true =>
      obtain ⟨other, hother, -⟩ := hleaks
      rw [List.takeWhile_cons_of_neg (by rw [houtdated]; decide)] at hother
      cases hother
    | false =>
      rw [List.takeWhile_cons_of_pos (by rw [houtdated]; rfl), List.exists_mem_cons_iff] at hleaks
      have hrest : ∀ other ∈ rest, _ := fun other hother ↦
        hresolves other (List.mem_cons_of_mem _ hother)
      rw [List.foldlM_cons]
      cases hoffered : offered registry input profile with
      | none =>
        obtain ⟨skipped, hskipped⟩ := (@renderProfile_skipped _ _ secrets secrets _ _ hoffered).1
        rw [hskipped]
        refine ih hrest (hleaks.resolve_left ?_)
        rintro ⟨adapter, hadapter, -⟩
        rw [hoffered] at hadapter
        cases hadapter
      | some adapter =>
        obtain ⟨refs, ⟨registered, hregistered, hrefs⟩, hresolved⟩ :=
          hresolves profile List.mem_cons_self
        cases (offered_eq_some.mp hoffered).1.symm.trans hregistered
        obtain ⟨json, hjson, rfl⟩ := hregistry _ _ hregistered
        have hvalid := validated_of_current hoffered hrefs houtdated
        rw [renderProfile_offered hoffered]
        change (Except.map _ (json.renderClient _) >>= _) = _
        cases hclient : json.renderClient ⟨profile, input.user, mapSecretResolver secrets⟩ with
        | error e' =>
          obtain ⟨reference, hmem, herror⟩ := renderClient_error hjson hvalid hrefs hclient
          obtain ⟨hkept, hothers⟩ := hresolved reference hmem
          by_cases hname : ServerOnly input reference.name
          · cases herror.symm.trans (hkept hname)
            rfl
          · obtain ⟨value, hvalue⟩ := hothers hname
            rw [hvalue] at herror
            cases herror
        | ok proxy =>
          refine ih hrest (hleaks.resolve_left ?_)
          rintro ⟨again, hagain, refs', hrefs', reference, hmem, hname⟩
          cases hoffered.symm.trans hagain
          cases hrefs.symm.trans hrefs'
          obtain ⟨value, hvalue⟩ := renderClient_resolved hjson hrefs hclient reference hmem
          rw [(hresolved reference hmem).1 hname] at hvalue
          cases hvalue

theorem load_error {registry : ProtocolRegistry}
    (h : profiles.foldlM (loadProfileSecrets db registry) secrets = .error e) :
    profiles.foldlM (loadProfileSecrets db' registry) secrets' = .error e := by
  induction profiles generalizing secrets secrets' with
  | nil => cases h
  | cons profile rest ih =>
    rw [List.foldlM_cons] at h ⊢
    rw [loadProfileSecrets] at h ⊢
    cases hadapter : (registry.get profile.protocolId).elim
        (.error "protocol adapter is unavailable") Except.ok with
    | error e' =>
      rw [hadapter] at h
      exact h
    | ok adapter =>
      rw [hadapter] at h
      change ((adapter.clientSecretReferences profile.config >>= _) >>= _) = _ at h
      change ((adapter.clientSecretReferences profile.config >>= _) >>= _) = _
      cases hrefs : adapter.clientSecretReferences profile.config with
      | error e' =>
        rw [hrefs] at h
        exact h
      | ok refs =>
        rw [hrefs] at h
        exact ih h

theorem declares_unique {refs refs' : List SecretRef} (h : Declares builtInProtocols profile refs)
    (h' : Declares builtInProtocols profile refs') : refs = refs' := by
  obtain ⟨adapter, hadapter, hrefs⟩ := h
  obtain ⟨adapter', hadapter', hrefs'⟩ := h'
  cases hadapter.symm.trans hadapter'
  exact Except.ok.inj (hrefs.symm.trans hrefs')

theorem loaded_get? (hload : loadSecretValuesMap db profiles builtInProtocols = .ok secrets) :
    ∀ profile ∈ profiles, ∃ refs, Declares builtInProtocols profile refs ∧
      ∀ reference ∈ refs, secrets.get? reference.name = db.secrets.get? reference.name := by
  have hempty : Holds db [] .empty := fun _ ↦ rfl
  obtain ⟨names, hholds, hnames⟩ := holds_loadProfiles hempty hload
  intro profile hprofile
  obtain ⟨refs, hdeclares, hlisted⟩ := hnames profile hprofile
  refine ⟨refs, hdeclares, fun reference hmem ↦ ?_⟩
  rw [hholds, List.nil_append, if_pos (hlisted reference hmem), getSecret, reference.trim_name]

theorem exists_contents (value : String → Option String) (names : List String) :
    ∃ contents : OrderedMap String String, ∀ name, contents.get? name =
      if name ∈ names then value name else none := by
  induction names with
  | nil => exact ⟨.empty, fun _ ↦ rfl⟩
  | cons first names ih =>
    obtain ⟨contents, hcontents⟩ := ih
    have hother : ∀ name, first ≠ name →
        contents.get? name = if name ∈ first :: names then value name else none := by
      intro name hne
      have hmem : name ∈ first :: names ↔ name ∈ names :=
        List.mem_cons.trans (or_iff_right (Ne.symm hne))
      rw [hcontents]
      simp only [hmem]
    cases hvalue : value first with
    | none =>
      refine ⟨contents.erase first, fun name ↦ ?_⟩
      rw [OrderedMap.get?_erase]
      split_ifs with hsame hmem
      · rw [← hsame, hvalue]
      · rfl
      · rw [hother name hsame, if_pos ‹_›]
      · rw [hother name hsame, if_neg ‹_›]
    | some stored =>
      refine ⟨contents.insert first stored, fun name ↦ ?_⟩
      rw [OrderedMap.get?_insert]
      split_ifs with hsame hmem
      · rw [← hsame, hvalue]
      · rw [hsame] at hmem
        exact absurd List.mem_cons_self hmem
      · rw [hother name hsame, if_pos ‹_›]
      · rw [hother name hsame, if_neg ‹_›]

def referredNames (profiles : List ProtocolProfile) : List String :=
  profiles.flatMap fun profile ↦
    (((builtInProtocols.get profile.protocolId).bind fun adapter ↦
      (adapter.clientSecretReferences profile.config).toOption).getD []).map SecretRef.name

theorem mem_referredNames {refs : List SecretRef} {reference : SecretRef}
    (hprofile : profile ∈ profiles) (h : Declares builtInProtocols profile refs)
    (hmem : reference ∈ refs) : reference.name ∈ referredNames profiles := by
  obtain ⟨adapter, hadapter, hrefs⟩ := h
  refine List.mem_flatMap.mpr ⟨profile, hprofile, ?_⟩
  rw [hadapter, Option.bind_some, hrefs]
  exact List.mem_map_of_mem hmem

theorem leaks_error {serialize : Value → Except String String}
    (hdeclares : ∀ profile ∈ input.profiles, ∃ refs, Declares builtInProtocols profile refs)
    (htoken : isEmpty (trim input.user.subscriptionToken) = false) (hleaks : Leaks input)
    (hkept : ∀ name ∈ referredNames input.profiles, ServerOnly input name →
      ((db.secrets.get? name).elim (.error "required secret reference is unresolved") secretValue) =
        .error e)
    (hothers : ∀ name ∈ referredNames input.profiles, ¬ServerOnly input name →
      db.secrets.get? name = some "value") :
    loadAndGenerate serialize db input = .error e := by
  obtain ⟨secrets, hload⟩ := load_isOk_iff.mpr hdeclares
  have hfold : (input.profiles.filter (·.enabled)).foldlM
      (renderProfile { input with secrets } builtInProtocols) ⟨[], [], []⟩ = .error e := by
    refine renders_error builtInProtocols_only (fun profile hprofile ↦ ?_) hleaks
    obtain ⟨refs, hrefs, hget⟩ := loaded_get? hload profile (List.mem_of_mem_filter hprofile)
    refine ⟨refs, hrefs, fun reference hmem ↦ ?_⟩
    have hname := mem_referredNames (List.mem_of_mem_filter hprofile) hrefs hmem
    rw [mapSecretResolver, hget reference hmem]
    refine ⟨hkept _ hname, fun hopen ↦ ?_⟩
    rw [hothers _ hname hopen]
    exact ⟨"value", by decide⟩
  have henabled : (input.profiles.filter (·.enabled)).isEmpty = false := by
    obtain ⟨profile, hprofile, -⟩ := hleaks
    rw [List.isEmpty_eq_false_iff]
    rintro hnil
    rw [hnil] at hprofile
    cases hprofile
  rw [loadAndGenerate_loaded hload]
  simp only [generateMihomoYamlDetailed, henabled, htoken, hfold, bind, Except.bind,
    Bool.false_eq_true, if_false]

theorem leaks_differ (serialize : Value → Except String String)
    (hdeclares : ∀ profile ∈ input.profiles, ∃ refs, Declares builtInProtocols profile refs)
    (htoken : isEmpty (trim input.user.subscriptionToken) = false) (hleaks : Leaks input) :
    ∃ db db', SameOutside input db db' ∧
      loadAndGenerate serialize db input ≠ loadAndGenerate serialize db' input := by
  classical
  have hcontents : ∀ kept : Option String, ∃ contents : OrderedMap String String, ∀ name,
      contents.get? name = if name ∈ referredNames input.profiles then
        if ServerOnly input name then kept else some "value" else none :=
    fun kept ↦ exists_contents _ _
  obtain ⟨missing, hmissing⟩ := hcontents none
  obtain ⟨unset, hunset⟩ := hcontents (some "REPLACE_WITH_KEY")
  have hfirst := @leaks_error { initDb with secrets := missing } input
    "required secret reference is unresolved" serialize hdeclares htoken hleaks
    (fun name hname hkept ↦ by
      change (missing.get? name).elim _ _ = _
      rw [hmissing, if_pos hname, if_pos hkept]
      rfl)
    (fun name hname hopen ↦ by
      change missing.get? name = _
      rw [hmissing, if_pos hname, if_neg hopen])
  have hsecond := @leaks_error { initDb with secrets := unset } input
    "secret is not configured" serialize hdeclares htoken hleaks
    (fun name hname hkept ↦ by
      change (unset.get? name).elim _ _ = _
      rw [hunset, if_pos hname, if_pos hkept]
      decide)
    (fun name hname hopen ↦ by
      change unset.get? name = _
      rw [hunset, if_pos hname, if_neg hopen])
  refine ⟨{ initDb with secrets := missing }, { initDb with secrets := unset },
    fun name hopen ↦ ?_, ?_⟩
  · change missing.get? name = unset.get? name
    rw [hmissing, hunset, if_neg hopen, if_neg hopen]
  · rw [hfirst, hsecond]
    decide

/-- The condition under which a subscription keeps what is kept from the panel: nothing is
rendered, or nothing that is rendered reads it. -/
def KeepsSecrets (input : MihomoGenerationInput) : Prop :=
  (∃ profile ∈ input.profiles, ∀ refs, ¬Declares builtInProtocols profile refs) ∨
    isEmpty (trim input.user.subscriptionToken) = true ∨ ¬Leaks input

theorem renders_same (hload : loadSecretValuesMap db input.profiles builtInProtocols = .ok secrets)
    (hload' : loadSecretValuesMap db' input.profiles builtInProtocols = .ok secrets')
    (hagree : SameOutside input db db') (hleaks : ¬Leaks input) :
    (input.profiles.filter (·.enabled)).foldlM
        (renderProfile { input with secrets } builtInProtocols) rendered =
      (input.profiles.filter (·.enabled)).foldlM
        (renderProfile { input with secrets := secrets' } builtInProtocols) rendered := by
  refine renders_congr builtInProtocols_only (fun profile hprofile ↦ ?_) hleaks
  have hmem := List.mem_of_mem_filter hprofile
  obtain ⟨refs, hdeclares, hget⟩ := loaded_get? hload profile hmem
  obtain ⟨refs', hdeclares', hget'⟩ := loaded_get? hload' profile hmem
  cases declares_unique hdeclares hdeclares'
  refine ⟨refs, hdeclares, fun reference hreference hopen ↦ ?_⟩
  rw [hget reference hreference, hget' reference hreference, hagree _ hopen]

theorem loadAndGenerate_same {serialize : Value → Except String String} (h : KeepsSecrets input)
    (hagree : SameOutside input db db') :
    loadAndGenerate serialize db input = loadAndGenerate serialize db' input := by
  cases hload : loadSecretValuesMap db input.profiles builtInProtocols with
  | error e =>
    have hload' : loadSecretValuesMap db' input.profiles builtInProtocols = .error e :=
      load_error hload
    rw [loadAndGenerate, loadAndGenerate, hload, hload']
  | ok secrets =>
    have hall := load_isOk_iff.mp ⟨secrets, hload⟩
    obtain ⟨secrets', hload'⟩ : ∃ secrets',
        loadSecretValuesMap db' input.profiles builtInProtocols = .ok secrets' :=
      load_isOk_iff.mpr hall
    rw [loadAndGenerate_loaded hload, loadAndGenerate_loaded hload']
    unfold generateMihomoYamlDetailed
    dsimp only
    rcases h with ⟨profile, hprofile, hnone⟩ | htoken | hleaks
    · obtain ⟨refs, hdeclares⟩ := hall profile hprofile
      exact absurd hdeclares (hnone refs)
    · rw [if_pos htoken, if_pos htoken]
    · rw [renders_same hload hload' hagree hleaks]

/-- What a subscription comes to does not depend on what is kept from the panel, if and only if
no client that it renders reads such a name, or nothing is rendered at all. -/
theorem secrecy_iff (serialize : Value → Except String String) (input : MihomoGenerationInput) :
    (∀ db db', SameOutside input db db' →
      loadAndGenerate serialize db input = loadAndGenerate serialize db' input) ↔
    KeepsSecrets input := by
  refine ⟨fun hsame ↦ ?_, fun h db db' ↦ loadAndGenerate_same h⟩
  by_contra h
  rw [KeepsSecrets, not_or, not_or, not_not] at h
  obtain ⟨hdeclares, htoken, hleaks⟩ := h
  have hall : ∀ profile ∈ input.profiles, ∃ refs, Declares builtInProtocols profile refs := by
    intro profile hprofile
    by_contra hnone
    exact hdeclares ⟨profile, hprofile, not_exists.mp hnone⟩
  obtain ⟨db, db', hagree, hdiffer⟩ := leaks_differ serialize hall
    (Bool.of_not_eq_true htoken) hleaks
  exact hdiffer (hsame db db' hagree)

section demonstration

def aliasedProfile : ProtocolProfile :=
  { realityProfile with
    config := .object [("server_name", .string "www.example.test"),
      ("public_key_secret", .string "node.public"), ("short_id_secret", .string "node.key"),
      ("private_key_secret", .string "node.key")] }

def aliasedInput : MihomoGenerationInput :=
  { tunnelInput [aliasedProfile] with availableCoreCapabilities := none }

def aliasedDb (key : String) : Database :=
  { initDb with
    secrets := ((OrderedMap.empty.insert "node.public" "pub").insert "node.key" key) }

theorem aliasedDb_get? (key name : String) : (aliasedDb key).secrets.get? name =
    if "node.key" = name then some key else if "node.public" = name then some "pub" else none := by
  rw [aliasedDb, OrderedMap.get?_insert, OrderedMap.get?_insert]
  rfl

theorem publicReference_valid : validSecretRef "node.public" = true := rfl

theorem keyReference_valid : validSecretRef "node.key" = true := rfl

def aliasedReferences : List SecretRef :=
  [⟨"node.public", publicReference_valid⟩, ⟨"node.key", keyReference_valid⟩]

def aliasedSecrets (key : String) : OrderedMap String String :=
  aliasedReferences.foldl (loadReference (aliasedDb key)) .empty

theorem aliased_declares : Declares builtInProtocols aliasedProfile aliasedReferences :=
  ⟨_, reality_registered, rfl⟩

theorem aliased_keeps : ServerOnly aliasedInput "node.key" :=
  ⟨aliasedProfile, List.mem_cons_self, _, reality_registered, [⟨"node.key", rfl⟩], rfl, _,
    List.mem_singleton_self _, rfl⟩

theorem aliased_loaded (key : String) : loadSecretValuesMap (aliasedDb key) [aliasedProfile]
    builtInProtocols = .ok (aliasedSecrets key) := by
  have hload : loadProfileSecrets (aliasedDb key) builtInProtocols .empty aliasedProfile =
      .ok (aliasedSecrets key) :=
    loadProfileSecrets_ok.mpr ⟨_, aliased_declares, rfl⟩
  simp only [loadSecretValuesMap, List.foldlM_cons, List.foldlM_nil, bind_pure, hload]

def shortId (proxy : Value) : Option String :=
  (proxy.get? "reality-opts").bind fun options ↦ options.text? "short-id"

theorem aliased_rendered (key : String) (h : key = "ab12" ∨ key = "cd34") :
    (vlessRealityTcp.renderClient ⟨aliasedProfile, aliasedInput.user,
      mapSecretResolver (aliasedSecrets key)⟩).toOption.bind shortId = some key := by
  rcases h with rfl | rfl <;> decide

theorem aliased_generated (key : String) (h : key = "ab12" ∨ key = "cd34") :
    ∃ output, loadAndGenerate (fun _ ↦ .ok "document") (aliasedDb key) aliasedInput = .ok output ∧
      output.document.proxies.map shortId = [some key] := by
  obtain ⟨proxy, hproxy, hkey⟩ := Option.bind_eq_some_iff.mp (aliased_rendered key h)
  rw [Except.toOption_eq_some] at hproxy
  have hoffered : offered builtInProtocols aliasedInput aliasedProfile = some vlessRealityTcp.toAdapter :=
    offered_eq_some.mpr ⟨reality_registered, nofun⟩
  have hloop : [aliasedProfile].foldlM
      (renderProfile { aliasedInput with secrets := aliasedSecrets key } builtInProtocols)
      ⟨[], [], []⟩ = .ok ⟨[proxy], [aliasedProfile], []⟩ := by
    rw [List.foldlM_cons, renderProfile_offered hoffered]
    change (Except.map _ (vlessRealityTcp.renderClient _) >>= _) = _
    rw [hproxy]
    rfl
  have htoken : isEmpty (trim "t-1") = false := by decide
  have hdns : defaultDnsPolicy.validate = .ok () := by decide
  obtain ⟨output, houtput⟩ := @generate_exists
    { aliasedInput with secrets := aliasedSecrets key } builtInProtocols
    ⟨[proxy], [aliasedProfile], []⟩ (fun _ ↦ .ok "document") _ _ (List.cons_ne_nil _ _) htoken hloop
    (List.cons_ne_nil _ _) rfl hdns rfl fun _ ↦ ⟨"document", rfl⟩
  refine ⟨output, ?_, ?_⟩
  · rw [loadAndGenerate_loaded (aliased_loaded key)]
    exact houtput
  · obtain ⟨rendered, pools, hrendered, -, -, hproxies, -⟩ := generate_steps houtput
    have hrendered' : [aliasedProfile].foldlM
        (renderProfile { aliasedInput with secrets := aliasedSecrets key } builtInProtocols)
        ⟨[], [], []⟩ = .ok rendered := hrendered
    obtain rfl := Except.ok.inj (hloop.symm.trans hrendered')
    rw [hproxies, List.map_singleton, hkey]

theorem aliased_key_published :
    ¬∀ (serialize : Value → Except String String) (db db' : Database)
      (input : MihomoGenerationInput), SameOutside input db db' →
      (∀ name, (db.secrets.get? name).isSome = (db'.secrets.get? name).isSome) →
      loadAndGenerate serialize db input = loadAndGenerate serialize db' input := by
  intro hall
  have hsame := hall (fun _ ↦ .ok "document") (aliasedDb "ab12") (aliasedDb "cd34") aliasedInput
    (fun name hopen ↦ ?_) (fun name ↦ ?_)
  · obtain ⟨output, houtput, hfirst⟩ := aliased_generated "ab12" (.inl rfl)
    obtain ⟨output', houtput', hsecond⟩ := aliased_generated "cd34" (.inr rfl)
    rw [houtput, houtput'] at hsame
    cases hsame
    rw [hfirst] at hsecond
    exact absurd hsecond (by decide)
  · have hother : "node.key" ≠ name := by
      rintro rfl
      exact hopen aliased_keeps
    rw [aliasedDb_get?, aliasedDb_get?, if_neg hother, if_neg hother]
  · rw [aliasedDb_get?, aliasedDb_get?]
    split_ifs <;> rfl

end demonstration

end StealthHub.Panel

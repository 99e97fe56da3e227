import StealthHub.Adapters.Cores
import StealthHub.Adapters.ProtocolsSpec

set_option autoImplicit false

namespace OrderedMap

variable {α β : Type} [LinearOrder α]

theorem get?_ofList_of_agree {entries : List (α × β)} {k : α} {v : β} (h : (k, v) ∈ entries)
    (hagree : ∀ w, (k, w) ∈ entries → w = v) : (ofList entries).get? k = some v := by
  induction entries using List.reverseRecOn with
  | nil => cases h
  | append_singleton rest last ih =>
    rw [ofList, List.foldl_concat, get?_insert]
    split_ifs with hk
    · subst hk
      rw [hagree last.2 (List.mem_append_right _ (List.mem_singleton_self _))]
    · refine ih ?_ fun w hw ↦ hagree w (List.mem_append_left _ hw)
      rcases List.mem_append.mp h with h | h
      · exact h
      · exact absurd (congrArg Prod.fst (List.mem_singleton.mp h)).symm hk

theorem mem_of_get?_ofList {entries : List (α × β)} {k : α} {v : β}
    (h : (ofList entries).get? k = some v) : (k, v) ∈ entries := by
  induction entries using List.reverseRecOn with
  | nil => cases h
  | append_singleton rest last ih =>
    rw [ofList, List.foldl_concat, get?_insert] at h
    split_ifs at h with hk
    · subst hk
      rw [← Option.some.inj h]
      exact List.mem_append_right _ (List.mem_singleton_self _)
    · exact List.mem_append_left _ (ih h)

end OrderedMap

namespace StealthHub

open Text

theorem Value.get?_object (fields : OrderedMap String Value) (name : String) :
    (Value.object fields.entries).get? name = fields.get? name := by
  rw [Value.get?, OrderedMap.get?]
  induction fields.entries with
  | nil => rfl
  | cons entry rest ih =>
    obtain ⟨key, found⟩ := entry
    by_cases hname : key = name
    · simp [hname]
    · simp [List.lookup_cons, hname, beq_eq_false_iff_ne.mpr (Ne.symm hname), ih]

namespace Adapters

variable {adapter : JsonProtocolAdapter} {context : ServerRenderContext} {fragment : ServerFragment}
variable {field : ConfigField} {raw value : String}

def JsonProtocolAdapter.individuals (adapter : JsonProtocolAdapter)
    (context : ServerRenderContext) : List SubscriptionUser :=
  if adapter.manifest.userParticipation.requiresIndividualUsers then context.users else []

def serverPayload (adapter : JsonProtocolAdapter) (context : ServerRenderContext)
    (secrets : List (String × Value)) : Value :=
  .object [("server", .string context.profile.server), ("port", .number context.profile.port),
    ("config", context.profile.config),
    ("users", .array ((adapter.individuals context).map fun user ↦
      .object [("username", .string user.username), ("uuid", .string user.uuid)])),
    ("resolved_secrets", .object (OrderedMap.ofList secrets).entries),
    ("managed_resource_id", (context.profile.managedResourceId.map .string).getD .null)]

/-- A fragment and the secrets it was rendered with. -/
structure Renders (adapter : JsonProtocolAdapter) (context : ServerRenderContext)
    (secrets : List (String × Value)) (fragment : ServerFragment) : Prop where
  config : adapter.validateConfig context.profile.schemaVersion context.profile.config = .ok ()
  resolved : adapter.resolveSecrets context = .ok secrets
  profileId : fragment.profileId = context.profile.name
  capability : fragment.capability = adapter.manifest.id
  payload : fragment.payload = serverPayload adapter context secrets
  listeners : fragment.listeners = [⟨adapter.manifest.listenerNetwork, context.profile.port⟩]

theorem renderServer_renders (h : adapter.renderServer context = .ok fragment) :
    ∃ secrets, Renders adapter context secrets fragment := by
  obtain ⟨⟨⟩, hconfig, h⟩ := Except.bind_eq_ok.mp h
  obtain ⟨secrets, hsecrets, h⟩ := Except.bind_eq_ok.mp h
  cases Except.pure_eq_ok.mp h
  refine ⟨secrets, hconfig, hsecrets, rfl, rfl, ?_, rfl⟩
  rw [serverPayload, JsonProtocolAdapter.individuals]
  split_ifs <;> rfl

theorem renderServer_exists {secrets : List (String × Value)}
    (hconfig : adapter.validateConfig context.profile.schemaVersion context.profile.config = .ok ())
    (hsecrets : adapter.resolveSecrets context = .ok secrets) :
    ∃ fragment, adapter.renderServer context = .ok fragment :=
  ⟨_, Except.bind_eq_ok.mpr ⟨(), hconfig, Except.bind_eq_ok.mpr ⟨secrets, hsecrets, rfl⟩⟩⟩

theorem resolveSecrets_exists {references : List SecretRef}
    (hreferences : adapter.serverSecretReferences context.profile.config = .ok references)
    (h : ∀ reference ∈ references, ∃ value, context.secrets reference.name = .ok value) :
    ∃ secrets, adapter.resolveSecrets context = .ok secrets := by
  have hall : ∀ reference ∈ references, ∃ entry, (do
      return (reference.name, Value.string (← context.secrets reference.name)) :
        Except String (String × Value)) = .ok entry := by
    intro reference hmem
    obtain ⟨value, hvalue⟩ := h reference hmem
    exact ⟨_, Except.bind_eq_ok.mpr ⟨value, hvalue, rfl⟩⟩
  obtain ⟨secrets, hsecrets⟩ := Except.exists_mapM_ok hall
  exact ⟨secrets, Except.bind_eq_ok.mpr ⟨references, hreferences, hsecrets⟩⟩

section payload

variable {secrets : List (String × Value)}

theorem payloadObject_rendered (h : Renders adapter context secrets fragment) :
    payloadObject fragment = .ok (serverPayload adapter context secrets) := by
  rw [payloadObject, h.payload]
  rfl

theorem payloadConfig_rendered (h : Renders adapter context secrets fragment) :
    payloadConfig (serverPayload adapter context secrets) = .ok context.profile.config := by
  rw [payloadConfig, Except.elim_eq_ok, Option.filter_eq_some_iff]
  exact ⟨rfl, (validateConfig_ok.mp h.config).2.1⟩

theorem payloadPort_rendered (hport : context.profile.port ≤ 65535) :
    payloadPort (serverPayload adapter context secrets) = .ok context.profile.port := by
  rw [payloadPort, Except.elim_eq_ok]
  show Value.asPort (.number context.profile.port) = _
  rw [Value.asPort, if_pos (by omega), Int.toNat_natCast]

theorem payloadUsers_rendered : payloadUsers (serverPayload adapter context secrets) =
    .ok ((adapter.individuals context).map fun user ↦
      .object [("username", .string user.username), ("uuid", .string user.uuid)]) := rfl

theorem payloadSecrets_rendered : payloadSecrets (serverPayload adapter context secrets) =
    .ok (.object (OrderedMap.ofList secrets).entries) := rfl

theorem mem_resolved (h : adapter.resolveSecrets context = .ok secrets) {name : String}
    {found : Value} : (name, found) ∈ secrets ↔ ∃ references,
      adapter.serverSecretReferences context.profile.config = .ok references ∧
        ∃ reference ∈ references, reference.name = name ∧ ∃ value,
          context.secrets name = .ok value ∧ found = .string value := by
  obtain ⟨references, hreferences, h⟩ := Except.bind_eq_ok.mp h
  obtain ⟨hall, hback⟩ := Except.exists_of_mapM h
  constructor
  · intro hmem
    obtain ⟨reference, hreference, hentry⟩ := hback _ hmem
    obtain ⟨value, hvalue, hentry⟩ := Except.bind_eq_ok.mp hentry
    cases Except.pure_eq_ok.mp hentry
    exact ⟨references, hreferences, reference, hreference, rfl, value, hvalue, rfl⟩
  · rintro ⟨_, hagain, reference, hreference, rfl, value, hvalue, rfl⟩
    cases hreferences.symm.trans hagain
    obtain ⟨entry, hmem, hentry⟩ := hall reference hreference
    obtain ⟨value', hvalue', hentry⟩ := Except.bind_eq_ok.mp hentry
    cases Except.pure_eq_ok.mp hentry
    cases hvalue.symm.trans hvalue'
    exact hmem

theorem resolvedSecret_rendered (h : Renders adapter context secrets fragment)
    (hfield : field ∈ adapter.fields) (hkind : field.kind = .secretRef)
    (hname : field.name ≠ "public_key_secret")
    (hraw : context.profile.config.text? field.name = some raw) (hne : trim raw ≠ "") :
    ∃ value, context.secrets raw = .ok value ∧
      resolvedSecret (serverPayload adapter context secrets) field.name = .ok value := by
  obtain ⟨references, hreferences, -⟩ := Except.bind_eq_ok.mp h.resolved
  obtain ⟨reference, hmem, hreference⟩ := references_mem hreferences hfield hkind hname hraw hne
  have hread : ∀ found, (raw, found) ∈ secrets ↔ ∃ value, context.secrets raw = .ok value ∧
      found = .string value := by
    intro found
    rw [mem_resolved h.resolved]
    constructor
    · rintro ⟨_, -, -, -, -, hvalue⟩
      exact hvalue
    · intro hvalue
      exact ⟨references, hreferences, reference, hmem, hreference, hvalue⟩
  obtain ⟨value, hvalue⟩ : ∃ value, context.secrets raw = .ok value := by
    obtain ⟨_, hagain, hall⟩ := Except.bind_eq_ok.mp h.resolved
    cases hreferences.symm.trans hagain
    obtain ⟨entry, -, hentry⟩ := (Except.exists_of_mapM hall).1 reference hmem
    obtain ⟨value, hvalue, -⟩ := Except.bind_eq_ok.mp hentry
    exact ⟨value, hreference ▸ hvalue⟩
  refine ⟨value, hvalue, Except.bind_eq_ok.mpr ⟨_, payloadConfig_rendered h,
    Except.bind_eq_ok.mpr ⟨raw, Except.elim_eq_ok.mpr hraw,
      Except.bind_eq_ok.mpr ⟨_, payloadSecrets_rendered, Except.elim_eq_ok.mpr ?_⟩⟩⟩⟩
  rw [Value.text?, Value.get?_object, OrderedMap.get?_ofList_of_agree ((hread _).mpr
    ⟨value, hvalue, rfl⟩)]
  · rfl
  · intro found hfound
    obtain ⟨value', hvalue', rfl⟩ := (hread found).mp hfound
    cases hvalue.symm.trans hvalue'
    rfl

theorem resolvedSecret_some (h : Renders adapter context secrets fragment) {name : String}
    (hread : resolvedSecret (serverPayload adapter context secrets) name = .ok value) :
    ∃ reference : SecretRef, context.profile.config.text? name = some reference.name ∧
      context.secrets reference.name = .ok value := by
  obtain ⟨config, hconfig, hread⟩ := Except.bind_eq_ok.mp hread
  cases (payloadConfig_rendered h).symm.trans hconfig
  obtain ⟨raw, hraw, hread⟩ := Except.bind_eq_ok.mp hread
  obtain ⟨_, hsecrets, hread⟩ := Except.bind_eq_ok.mp hread
  cases payloadSecrets_rendered.symm.trans hsecrets
  rw [Except.elim_eq_ok, Value.text?, Value.get?_object, Option.bind_eq_some_iff] at hread
  obtain ⟨found, hfound, hvalue⟩ := hread
  obtain ⟨-, -, reference, -, rfl, value', hvalue', rfl⟩ :=
    (mem_resolved h.resolved).mp (OrderedMap.mem_of_get?_ofList hfound)
  cases hvalue
  exact ⟨reference, Except.elim_eq_ok.mp hraw, hvalue'⟩

end payload

end Adapters

end StealthHub

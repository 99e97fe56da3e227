import Mathlib.Data.List.Pairwise
import StealthHub.Adapters.Discovery

set_option autoImplicit false

namespace StealthHub.Adapters

open Text Except

section naming

variable {α β : Type} [DecidableEq β] {f : α → β} {l : List α} {a : α}

theorem filter_eq_singleton (h : (l.map f).Nodup) (ha : a ∈ l) :
    l.filter (fun b ↦ f b = f a) = [a] := by
  induction l with
  | nil => cases ha
  | cons head rest ih =>
    obtain ⟨hhead, hrest⟩ := List.nodup_cons.mp h
    rcases List.mem_cons.mp ha with rfl | ha
    · have hnone : rest.filter (fun b ↦ f b = f a) = [] := by
        refine List.filter_eq_nil_iff.mpr fun b hb hsame ↦ hhead ?_
        exact List.mem_map.mpr ⟨b, hb, of_decide_eq_true hsame⟩
      rw [List.filter_cons, if_pos (decide_eq_true rfl), hnone]
    · rw [List.filter_cons, if_neg]
      · exact ih hrest ha
      · intro hsame
        exact hhead (List.mem_map.mpr ⟨a, ha, (of_decide_eq_true hsame).symm⟩)

theorem append_right_cancel {first second suffix : String} (h : first ++ suffix = second ++ suffix) :
    first = second := by
  have hchars := congrArg String.toList h
  rw [String.toList_append, String.toList_append] at hchars
  exact String.toList_inj.mp (List.append_cancel_right hchars)

theorem append_ne_self {name suffix : String} (h : suffix.toList ≠ []) : name ++ suffix ≠ name := by
  intro hsame
  have hchars := congrArg String.toList hsame
  rw [String.toList_append] at hchars
  exact h (List.append_right_eq_self.mp hchars)

end naming

/-- Every entry has a name of its own, and a detour is the name of exactly one entry, which
belongs to the same profile. -/
structure Unambiguous (flavor : Flavor) (plan : CorePlan) (document : Value) : Prop where
  names : ((flavor.entries document).map (Value.text? flavor.nameField)).Nodup
  detours : ∀ entry ∈ flavor.entries document, ∀ target, entry.text? "detour" = some target →
    ∃ fragment ∈ plan.fragments, ∃ emitted, flavor.emit fragment = .ok emitted ∧
      entry ∈ emitted ∧ ∃ inner ∈ emitted, (flavor.entries document).filter
        (fun found ↦ found.text? flavor.nameField = some target) = [inner]

/-- A profile whose second inbound takes the name of another profile. -/
def Clashes (flavor : Flavor) (plan : CorePlan) : Prop :=
  flavor = .singBox ∧ ∃ fragment ∈ plan.fragments,
    fragment.capability = "shadowsocks2022-shadow-tls" ∧
      ∃ other ∈ plan.fragments, other.profileId = fragment.profileId ++ "-inner"

variable {flavor : Flavor} {plan : CorePlan} {document : Value} {fragment : ServerFragment}
variable {emitted : List Value} {groups : List (List Value)} {name : String}

theorem innerName_eq_some : flavor.innerName fragment = some name ↔ flavor = .singBox ∧
    fragment.capability = "shadowsocks2022-shadow-tls" ∧
      fragment.profileId ++ "-inner" = name := by
  rw [Flavor.innerName]
  split_ifs with h
  · rw [Option.some.injEq]
    exact ⟨fun hname ↦ ⟨h.1, h.2, hname⟩, fun hname ↦ hname.2.2⟩
  · exact iff_of_false nofun fun hname ↦ h ⟨hname.1, hname.2.1⟩

theorem mem_names : name ∈ flavor.names fragment ↔
    flavor.innerName fragment = some name ∨ name = fragment.profileId := by
  rw [Flavor.names, List.mem_append, Option.mem_toList, List.mem_singleton]

theorem names_nodup : (flavor.names fragment).Nodup := by
  rw [Flavor.names]
  cases hinner : flavor.innerName fragment with
  | none => exact List.nodup_singleton _
  | some name =>
    obtain ⟨-, -, rfl⟩ := innerName_eq_some.mp hinner
    have hne : fragment.profileId ++ "-inner" ≠ fragment.profileId := append_ne_self (by decide)
    exact List.nodup_cons.mpr ⟨fun hmem ↦ hne (List.mem_singleton.mp hmem), List.nodup_singleton _⟩

theorem names_disjoint {other : ServerFragment} (h : ¬Clashes flavor plan)
    (hfragment : fragment ∈ plan.fragments) (hother : other ∈ plan.fragments)
    (hne : fragment.profileId ≠ other.profileId) :
    (flavor.names fragment).Disjoint (flavor.names other) := by
  intro name hname hname'
  rcases mem_names.mp hname with hinner | rfl <;> rcases mem_names.mp hname' with hinner' | hsame
  · obtain ⟨-, -, rfl⟩ := innerName_eq_some.mp hinner
    obtain ⟨-, -, hsame⟩ := innerName_eq_some.mp hinner'
    exact hne (append_right_cancel hsame).symm
  · obtain ⟨hflavor, hcapability, hinner⟩ := innerName_eq_some.mp hinner
    exact h ⟨hflavor, fragment, hfragment, hcapability, other, hother, (hinner.trans hsame).symm⟩
  · obtain ⟨hflavor, hcapability, hinner⟩ := innerName_eq_some.mp hinner'
    exact h ⟨hflavor, other, hother, hcapability, fragment, hfragment, hinner.symm⟩
  · exact hne hsame

theorem names_nodup_iff (hdistinct : (plan.fragments.map ServerFragment.profileId).Nodup) :
    (plan.fragments.flatMap flavor.names).Nodup ↔ ¬Clashes flavor plan := by
  rw [List.nodup_flatMap]
  constructor
  · rintro ⟨-, hpairs⟩ ⟨hflavor, fragment, hfragment, hcapability, other, hother, hname⟩
    have hne : fragment ≠ other := by
      rintro rfl
      exact append_ne_self (by decide) hname.symm
    have hsymm : Std.Symm (Function.onFun List.Disjoint flavor.names) := ⟨fun _ _ h ↦ h.symm⟩
    have hdisjoint : (flavor.names fragment).Disjoint (flavor.names other) :=
      hpairs.forall hfragment hother hne
    have hinner := innerName_eq_some.mpr ⟨hflavor, hcapability, hname.symm⟩
    exact hdisjoint (mem_names.mpr (.inl hinner)) (mem_names.mpr (.inr rfl))
  · intro h
    refine ⟨fun _ _ ↦ names_nodup, ?_⟩
    have hpairs := List.pairwise_map.mp hdistinct
    exact hpairs.imp_of_mem fun hfragment hother hne ↦ names_disjoint h hfragment hother hne

theorem emit_named (hflavor : flavor.Shared) (h : Rendered plan)
    (hports : ∀ fragment ∈ plan.fragments, ∀ listener ∈ fragment.listeners, listener.port ≤ 65535)
    (hfragment : fragment ∈ plan.fragments) (hemit : flavor.emit fragment = .ok emitted) :
    Named flavor fragment emitted := by
  obtain ⟨json, hjson, context, hrender⟩ := h.rendered fragment hfragment
  obtain ⟨secrets, hrenders⟩ := renderServer_renders hrender
  have hport := hports fragment hfragment _ (hrenders.listeners ▸ List.mem_singleton_self _)
  have hemits := emit_emits ⟨json, hjson, hrenders.capability.symm⟩ (opened_rendered hrenders hport)
    hport (fun htuic ↦ absurd htuic hflavor.2) hemit
  exact hemits.named hflavor

theorem Named.inner (h : Named flavor fragment emitted) {entry : Value} (hentry : entry ∈ emitted)
    {target : String} (hdetour : entry.text? "detour" = some target) :
    ∃ inner ∈ emitted, inner.text? flavor.nameField = some target := by
  have hinner : target ∈ (flavor.innerName fragment).toList := by
    rw [← h.detours]
    exact List.mem_filterMap.mpr ⟨entry, hentry, hdetour⟩
  have hname : some target ∈ (flavor.names fragment).map some :=
    List.mem_map_of_mem (List.mem_append_left _ hinner)
  rw [← h.names] at hname
  exact List.mem_map.mp hname

theorem document_names_nodup (hflavor : flavor.Shared) (h : Rendered plan)
    (hports : ∀ fragment ∈ plan.fragments, ∀ listener ∈ fragment.listeners, listener.port ≤ 65535)
    (hcompose : flavor.compose plan = .ok document) :
    ((flavor.entries document).map (Value.text? flavor.nameField)).Nodup ↔
      ¬Clashes flavor plan := by
  obtain ⟨groups, hgroups, hentries⟩ := compose_entries hflavor hcompose
  have hnamed : List.Forall₂ (Named flavor) plan.fragments groups := by
    have hmem := (List.forall₂_and_left _ _).mpr
      ⟨fun fragment (hfragment : fragment ∈ plan.fragments) ↦ hfragment, hgroups⟩
    exact hmem.imp fun _ _ ⟨hfragment, hemit⟩ ↦ emit_named hflavor h hports hfragment hemit
  have hnames : (flavor.entries document).map (Value.text? flavor.nameField) =
      (plan.fragments.flatMap flavor.names).map some := by
    rw [hentries, List.map_flatten, ← List.flatMap_def, List.map_flatMap]
    exact flatMap_of_forall₂ (hnamed.imp fun _ _ hnamed ↦ hnamed.names)
  rw [hnames, List.nodup_map_iff (Option.some_injective _), names_nodup_iff h.distinct]

/-- Names are unambiguous if and only if no inner name clashes. -/
theorem unambiguous_iff (hflavor : flavor.Shared) (h : Rendered plan)
    (hports : ∀ fragment ∈ plan.fragments, ∀ listener ∈ fragment.listeners, listener.port ≤ 65535)
    (hcompose : flavor.compose plan = .ok document) :
    Unambiguous flavor plan document ↔ ¬Clashes flavor plan := by
  have hnames := document_names_nodup hflavor h hports hcompose
  refine ⟨fun hunambiguous ↦ hnames.mp hunambiguous.names, fun hclash ↦ ⟨hnames.mpr hclash, ?_⟩⟩
  intro entry hentry target hdetour
  obtain ⟨groups, hgroups, hentries⟩ := compose_entries hflavor hcompose
  rw [hentries, List.mem_flatten] at hentry
  obtain ⟨emitted, hemitted, hentry⟩ := hentry
  obtain ⟨fragment, hfragment, hemit⟩ :=
    (exists_of_mapM (mapM_eq_ok.mpr hgroups)).2 emitted hemitted
  obtain ⟨inner, hinner, hname⟩ :=
    (emit_named hflavor h hports hfragment hemit).inner hentry hdetour
  refine ⟨fragment, hfragment, emitted, hemit, hentry, inner, hinner, ?_⟩
  have hmem : inner ∈ flavor.entries document := by
    rw [hentries]
    exact List.mem_flatten.mpr ⟨emitted, hemitted, hinner⟩
  rw [← hname]
  exact filter_eq_singleton (hnames.mpr hclash) hmem

def shadowTlsContext (name : String) (port : ℕ) : ServerRenderContext where
  profile :=
    { name := name
      displayName := "ShadowTLS"
      protocolId := "shadowsocks2022-shadow-tls"
      schemaVersion := 1
      role := .compatibility
      server := "node.example.test"
      port := port
      enabled := true
      preferredCoreId := some "sing-box"
      managedResourceId := none
      config := .object
        [("server_name", .string "www.example.test"), ("password_secret", .string "edge.password"),
          ("shadow_tls_password_secret", .string "edge.shadow-tls")] }
  users := []
  secrets := .ok

section demonstration

variable {other : String} {first second : ServerFragment}

theorem shadowTls_adapter : protocols[5] ∈ protocols := List.getElem_mem _

theorem shadowTls_profileId {port : ℕ}
    (h : protocols[5].renderServer (shadowTlsContext name port) = .ok first) :
    first.profileId = name := by
  obtain ⟨secrets, hrenders⟩ := renderServer_renders h
  exact hrenders.profileId

theorem shadowTls_ports {port : ℕ} (hport : port ≤ 65535)
    (h : protocols[5].renderServer (shadowTlsContext name port) = .ok first) :
    ∀ listener ∈ first.listeners, listener.port ≤ 65535 := by
  obtain ⟨secrets, hrenders⟩ := renderServer_renders h
  intro listener hlistener
  rw [hrenders.listeners] at hlistener
  rw [List.mem_singleton.mp hlistener]
  exact hport

theorem shadowTls_capability {port : ℕ}
    (h : protocols[5].renderServer (shadowTlsContext name port) = .ok first) :
    first.capability = "shadowsocks2022-shadow-tls" := by
  obtain ⟨secrets, hrenders⟩ := renderServer_renders h
  exact hrenders.capability

theorem shadowTls_legible {port : ℕ} (hport : port ≤ 65535)
    (h : protocols[5].renderServer (shadowTlsContext name port) = .ok first) :
    Legible .singBox first := by
  have hcore : builtInAdapters[2] ∈ builtInAdapters := List.getElem_mem _
  obtain ⟨secrets, hrenders⟩ := renderServer_renders h
  exact legible_rendered hcore shadowTls_adapter hrenders hport (by decide)

theorem shadowTls_composes (hne : name ≠ other)
    (hfirst : protocols[5].renderServer (shadowTlsContext name 8443) = .ok first)
    (hsecond : protocols[5].renderServer (shadowTlsContext other 9443) = .ok second) :
    Rendered ⟨1, "sing-box", [first, second]⟩ ∧
      (∀ fragment ∈ [first, second], ∀ listener ∈ fragment.listeners, listener.port ≤ 65535) ∧
        ∃ document, Flavor.singBox.compose ⟨1, "sing-box", [first, second]⟩ = .ok document := by
  refine ⟨⟨?_, ?_⟩, ?_, (compose_exists ?_).mpr trivial⟩
  · intro fragment hfragment
    rcases List.mem_pair.mp hfragment with rfl | rfl
    · exact ⟨_, shadowTls_adapter, _, hfirst⟩
    · exact ⟨_, shadowTls_adapter, _, hsecond⟩
  · rw [List.map_cons, List.map_singleton, shadowTls_profileId hfirst,
      shadowTls_profileId hsecond]
    simpa using hne
  · intro fragment hfragment
    rcases List.mem_pair.mp hfragment with rfl | rfl
    · exact shadowTls_ports (by decide) hfirst
    · exact shadowTls_ports (by decide) hsecond
  · intro fragment hfragment
    rcases List.mem_pair.mp hfragment with rfl | rfl
    · exact shadowTls_legible (by decide) hfirst
    · exact shadowTls_legible (by decide) hsecond

theorem unambiguous_iff_shadowTls : ∃ fragments document,
    fragments.map (·.capability) = ["shadowsocks2022-shadow-tls", "shadowsocks2022-shadow-tls"] ∧
      Flavor.singBox.compose ⟨1, "sing-box", fragments⟩ = .ok document ∧
        Unambiguous .singBox ⟨1, "sing-box", fragments⟩ document := by
  have hrender : (protocols[5].renderServer (shadowTlsContext "EDGE" 8443)).isOk := by decide
  have hrender' : (protocols[5].renderServer (shadowTlsContext "FAST" 9443)).isOk := by decide
  obtain ⟨first, hfirst⟩ := exists_of_isOk hrender
  obtain ⟨second, hsecond⟩ := exists_of_isOk hrender'
  obtain ⟨hrendered, hports, document, hdocument⟩ :=
    shadowTls_composes (by decide) hfirst hsecond
  have hcapabilities : [first, second].map (·.capability) =
      ["shadowsocks2022-shadow-tls", "shadowsocks2022-shadow-tls"] := by
    rw [List.map_cons, List.map_singleton, shadowTls_capability hfirst,
      shadowTls_capability hsecond]
  refine ⟨_, document, hcapabilities, hdocument,
    (unambiguous_iff (by decide) hrendered hports hdocument).mpr ?_⟩
  rintro ⟨-, fragment, hfragment, -, inner, hinner, hname⟩
  have hnames : ∀ fragment ∈ [first, second],
      fragment.profileId = "EDGE" ∨ fragment.profileId = "FAST" := by
    intro fragment hfragment
    rcases List.mem_pair.mp hfragment with rfl | rfl
    · exact .inl (shadowTls_profileId hfirst)
    · exact .inr (shadowTls_profileId hsecond)
  rcases hnames fragment hfragment with h | h <;> rcases hnames inner hinner with h' | h' <;>
    rw [h, h'] at hname <;> exact absurd hname (by decide)

theorem clashing_names :
    ¬∀ (flavor : Flavor) (plan : CorePlan) (document : Value), flavor.Shared → Rendered plan →
      (∀ fragment ∈ plan.fragments, ∀ listener ∈ fragment.listeners, listener.port ≤ 65535) →
      flavor.compose plan = .ok document → Unambiguous flavor plan document := by
  intro hall
  have hrender : (protocols[5].renderServer (shadowTlsContext "EDGE" 8443)).isOk := by decide
  have hrender' : (protocols[5].renderServer (shadowTlsContext "EDGE-inner" 9443)).isOk := by
    decide
  obtain ⟨first, hfirst⟩ := exists_of_isOk hrender
  obtain ⟨second, hsecond⟩ := exists_of_isOk hrender'
  obtain ⟨hrendered, hports, document, hdocument⟩ :=
    shadowTls_composes (by decide) hfirst hsecond
  have hunambiguous := hall .singBox _ document (by decide) hrendered hports hdocument
  refine (document_names_nodup (by decide) hrendered hports hdocument).mp hunambiguous.names ?_
  refine ⟨rfl, first, List.mem_cons_self, shadowTls_capability hfirst, second, by simp, ?_⟩
  rw [shadowTls_profileId hfirst, shadowTls_profileId hsecond]
  decide

end demonstration

end StealthHub.Adapters

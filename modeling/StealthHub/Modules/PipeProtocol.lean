import StealthHub.Modules.Manifest

set_option autoImplicit false

namespace StealthHub.Modules

open Text

def Skipped (rawLine : String) : Prop := trim rawLine = "" ∨ startsWith (trim rawLine) "#" = true

def Assigns (rawLine key value : String) : Prop :=
  startsWith (trim rawLine) "#" = false ∧
    (splitOnce '=' (trim rawLine)).map (Prod.map trim trim) = some (key, value)

/-- A value as it is stored: free of separators, without blanks around it. -/
structure Clean (value : String) : Prop where
  safe : safeText value = true
  trimmed : trim value = value

variable {content rawLine key value : String} {path : ManifestPath} {registration : Bool}
  {values values' : OrderedMap String String} {index : ℕ} {spec result : ModuleSpec}

theorem Assigns.not_skipped (h : Assigns rawLine key value) : ¬Skipped rawLine := by
  rintro (hempty | hcomment)
  · have hnone : (splitOnce '=' "").map (Prod.map trim trim) = none := by decide
    have hassigned := h.2
    rw [hempty, hnone] at hassigned
    cases hassigned
  · rw [h.1] at hcomment
    cases hcomment

theorem Assigns.trimmed (h : Assigns rawLine key value) : trim value = value := by
  obtain ⟨⟨rawKey, rawValue⟩, -, hpair⟩ := Option.map_eq_some_iff.mp h.2
  cases hpair
  exact trim_trim rawValue

theorem parseLine_eq_ok : parseLine path values index rawLine = .ok values' ↔
    Skipped rawLine ∧ values = values' ∨ ∃ key value, Assigns rawLine key value ∧ key ∈ FIELDS ∧
      safeText value = true ∧ values.get? key = none ∧ values.insert key value = values' := by
  rw [parseLine]
  by_cases hskip : Skipped rawLine
  · have hif : (isEmpty (trim rawLine) || startsWith (trim rawLine) "#") = true := by
      rw [Bool.or_eq_true, Text.isEmpty_iff]
      exact hskip
    rw [if_pos hif, Except.pure_eq_ok]
    constructor
    · intro h
      exact .inl ⟨hskip, h⟩
    · rintro (⟨-, h⟩ | ⟨key, value, hassigns, -⟩)
      · exact h
      · exact absurd hskip hassigns.not_skipped
  · have hif : ¬(isEmpty (trim rawLine) || startsWith (trim rawLine) "#") = true := by
      rw [Bool.or_eq_true, Text.isEmpty_iff]
      exact hskip
    have hcomment : startsWith (trim rawLine) "#" = false := by
      rw [← Bool.not_eq_true]
      exact fun h ↦ hskip (.inr h)
    rw [if_neg hif, Except.bind_eq_ok]
    constructor
    · rintro ⟨⟨rawKey, rawValue⟩, hsplit, h⟩
      obtain ⟨hkey, h⟩ := Except.guard_eq_ok.mp h
      obtain ⟨hsafe, h⟩ := Except.guard_eq_ok.mp h
      obtain ⟨hfresh, h⟩ := Except.guard_eq_ok.mp h
      refine .inr ⟨trim rawKey, trim rawValue, ⟨hcomment, ?_⟩, by simpa using hkey,
        by simpa using hsafe, ?_, Except.pure_eq_ok.mp h⟩
      · rw [Except.elim_eq_ok.mp hsplit]
        rfl
      · rwa [OrderedMap.contains, Option.not_isSome_iff_eq_none] at hfresh
    · rintro (⟨hskipped, -⟩ | ⟨key, value, ⟨-, hassigned⟩, hkey, hsafe, hfresh, rfl⟩)
      · exact absurd hskipped hskip
      · obtain ⟨⟨rawKey, rawValue⟩, hsplit, hpair⟩ := Option.map_eq_some_iff.mp hassigned
        cases hpair
        refine ⟨(rawKey, rawValue), Except.elim_eq_ok.mpr hsplit, ?_⟩
        refine Except.guard_eq_ok.mpr ⟨by simpa using hkey, ?_⟩
        refine Except.guard_eq_ok.mpr ⟨by simpa using hsafe, ?_⟩
        refine Except.guard_eq_ok.mpr ⟨?_, rfl⟩
        rw [OrderedMap.contains, Option.not_isSome_iff_eq_none]
        exact hfresh

theorem parseLines_get? {ls : List String} (h : parseLines path values index ls = .ok values')
    (key value : String) : values'.get? key = some value ↔
      values.get? key = some value ∨ ∃ line ∈ ls, Assigns line key value := by
  induction ls generalizing values index with
  | nil =>
    cases h
    simp
  | cons line ls ih =>
    obtain ⟨next, hline, hrest⟩ := Except.bind_eq_ok.mp h
    rw [ih hrest]
    simp only [List.mem_cons, exists_eq_or_imp, ← or_assoc]
    apply or_congr_left
    rcases parseLine_eq_ok.mp hline with ⟨hskip, rfl⟩ | ⟨k, v, hassigns, -, -, hfresh, rfl⟩
    · have hnone : ¬Assigns line key value := fun hassigns ↦ hassigns.not_skipped hskip
      simp [hnone]
    · have hone : Assigns line key value ↔ k = key ∧ v = value := by
        rw [Assigns, hassigns.2, Option.some_inj, Prod.mk.injEq]
        exact and_iff_right hassigns.1
      rw [hone, OrderedMap.get?_insert]
      by_cases hkey : k = key
      · have hnone : values.get? key = none := hkey ▸ hfresh
        simp [hkey, hnone]
      · simp [hkey]

theorem parseLines_clean {ls : List String} (h : parseLines path values index ls = .ok values')
    (hclean : ∀ key value, values.get? key = some value → Clean value) (key value : String)
    (hget : values'.get? key = some value) : Clean value := by
  induction ls generalizing values index with
  | nil =>
    cases h
    exact hclean key value hget
  | cons line ls ih =>
    obtain ⟨next, hline, hrest⟩ := Except.bind_eq_ok.mp h
    refine ih hrest fun k v hk ↦ ?_
    rcases parseLine_eq_ok.mp hline with ⟨-, rfl⟩ | ⟨k', v', hassigns, -, hsafe, -, rfl⟩
    · exact hclean k v hk
    · rw [OrderedMap.get?_insert] at hk
      split_ifs at hk
      · cases hk
        exact ⟨hsafe, hassigns.trimmed⟩
      · exact hclean k v hk

theorem readUpstream_eq_ok {upstream : UpstreamKind} :
    readUpstream path values = .ok upstream ↔ values.get? "upstream" = some upstream.fields.1 ∧
      (upstream = .release ∨ values.get? "ref" = some upstream.fields.2) := by
  rw [readUpstream, Except.bind_eq_ok]
  constructor
  · rintro ⟨kind, hkind, h⟩
    have hget := Except.elim_eq_ok.mp hkind
    split_ifs at h with hrelease hpinned hcommit
    · cases h
      rw [hget, hrelease]
      exact ⟨rfl, .inl rfl⟩
    · obtain ⟨tag, htag, h⟩ := Except.bind_eq_ok.mp h
      cases h
      rw [hget, hpinned]
      exact ⟨rfl, .inr (Except.elim_eq_ok.mp htag)⟩
    · obtain ⟨gitRef, href, h⟩ := Except.bind_eq_ok.mp h
      cases h
      rw [hget, hcommit]
      exact ⟨rfl, .inr (Except.elim_eq_ok.mp href)⟩
  · rintro ⟨hget, href⟩
    refine ⟨upstream.fields.1, Except.elim_eq_ok.mpr hget, ?_⟩
    cases upstream with
    | release => rfl
    | pinnedRelease tag =>
      have htag := href.resolve_left (by simp)
      exact Except.bind_eq_ok.mpr ⟨tag, Except.elim_eq_ok.mpr htag, rfl⟩
    | commit gitRef =>
      have hgit := href.resolve_left (by simp)
      exact Except.bind_eq_ok.mpr ⟨gitRef, Except.elim_eq_ok.mpr hgit, rfl⟩

/-- The stored values are those of a module whose file bears its name. -/
structure Reads (path : ManifestPath) (values : OrderedMap String String) (spec : ModuleSpec) :
    Prop where
  upstream : values.get? "upstream" = some spec.upstream.fields.1
  reference : spec.upstream = .release ∨ values.get? "ref" = some spec.upstream.fields.2
  id : values.get? "id" = some spec.id
  name : values.get? "name" = some spec.name
  kind : values.get? "kind" = some spec.kind
  role : values.get? "role" = some spec.role
  repo : values.get? "repo" = some spec.repo
  driver : values.get? "driver" = some spec.driver
  root : values.get? "root" = some spec.root
  binary : values.get? "binary" = some spec.binary
  service : values.get? "service" = some spec.service
  config : values.get? "config" = some spec.configPath
  assetAmd64 : values.get? "asset_amd64" = some spec.assetAmd64
  assetArm64 : values.get? "asset_arm64" = some spec.assetArm64
  stem : spec.id = path.fileStem.getD ""
  unplaced : spec.binaryPath = ""

theorem readSpec_eq_ok : readSpec path values = .ok spec ↔ Reads path values spec := by
  simp only [readSpec, Except.bind_eq_ok, valueOf, Except.elim_eq_ok, Except.guard_eq_ok,
    readUpstream_eq_ok, Except.pure_eq_ok, ne_eq, not_not]
  constructor
  · rintro ⟨_, ⟨hupstream, href⟩, _, hid, _, hname, _, hkind, _, hrole, _, hrepo, _, hdriver, _,
      hroot, _, hbinary, _, hservice, _, hconfig, _, hamd, _, harm, hstem, rfl⟩
    exact ⟨hupstream, href, hid, hname, hkind, hrole, hrepo, hdriver, hroot, hbinary, hservice,
      hconfig, hamd, harm, hstem, rfl⟩
  · intro h
    refine ⟨_, ⟨h.upstream, h.reference⟩, _, h.id, _, h.name, _, h.kind, _, h.role, _, h.repo, _,
      h.driver, _, h.root, _, h.binary, _, h.service, _, h.config, _, h.assetAmd64, _,
      h.assetArm64, h.stem, ?_⟩
    obtain ⟨id, name, kind, role, repo, upstream, driver, root, binary, binaryPath, service,
      configPath, assetAmd64, assetArm64⟩ := spec
    obtain rfl : binaryPath = "" := h.unplaced
    rfl

/-- What every accepted module keeps to. -/
structure Accepted (spec : ModuleSpec) (registration : Bool) : Prop where
  id : validId spec.id = true
  name : validateText "name" spec.name 80 = .ok ()
  kind : validateText "kind" spec.kind 48 = .ok ()
  role : validateText "role" spec.role 160 = .ok ()
  repo : validRepo spec.repo = true
  upstream : validateUpstream spec.upstream = .ok ()
  root : spec.root = "cores" ∨ spec.root = "modules"
  binary : safeFilename spec.binary = true
  service : safeService spec.service = true
  config : startsWith spec.configPath "/etc/" = true ∧ contains spec.configPath ".." = false ∧
    spec.configPath.toList.all safePathChar = true
  assets : spec.upstream.isRelease = true →
    safeAsset spec.assetAmd64 = true ∧ safeAsset spec.assetArm64 = true
  driver : validateDriver spec = .ok ()
  registered : registration = true →
    spec.upstream.isRelease = true ∧ spec.driver = "release" ∧ spec.root = "cores"

theorem validateSpec_ok (h : validateSpec spec registration = .ok result) :
    Accepted spec registration ∧
      { spec with binaryPath := currentDirectory spec.root spec.id ++ "/" ++ spec.binary } =
        result := by
  rw [validateSpec] at h
  obtain ⟨hid, h⟩ := Except.guard_eq_ok.mp h
  obtain ⟨_, hname, h⟩ := Except.bind_eq_ok.mp h
  obtain ⟨_, hkind, h⟩ := Except.bind_eq_ok.mp h
  obtain ⟨_, hrole, h⟩ := Except.bind_eq_ok.mp h
  obtain ⟨hrepo, h⟩ := Except.guard_eq_ok.mp h
  obtain ⟨_, hupstream, h⟩ := Except.bind_eq_ok.mp h
  obtain ⟨hroot, h⟩ := Except.guard_eq_ok.mp h
  obtain ⟨hbinary, h⟩ := Except.guard_eq_ok.mp h
  obtain ⟨hservice, h⟩ := Except.guard_eq_ok.mp h
  obtain ⟨hconfig, h⟩ := Except.guard_eq_ok.mp h
  obtain ⟨hassets, h⟩ := Except.guard_eq_ok.mp h
  obtain ⟨_, hdriver, h⟩ := Except.bind_eq_ok.mp h
  obtain ⟨hregistered, h⟩ := Except.guard_eq_ok.mp h
  exact ⟨{
    id := by simpa using hid
    name := hname
    kind := hkind
    role := hrole
    repo := by simpa using hrepo
    upstream := hupstream
    root := by by_contra hne; exact hroot (not_or.mp hne)
    binary := by simpa using hbinary
    service := by simpa using hservice
    config := by simpa [and_assoc] using hconfig
    assets := by simpa using hassets
    driver := hdriver
    registered := by simpa [and_assoc] using hregistered }, Except.pure_eq_ok.mp h⟩

theorem parseManifest_ok (h : parseManifest content path registration = .ok result) :
    ∃ values spec, parseLines path .empty 0 (lines content) = .ok values ∧
      Reads path values spec ∧ validateSpec spec registration = .ok result := by
  obtain ⟨values, hlines, h⟩ := Except.bind_eq_ok.mp h
  obtain ⟨spec, hspec, h⟩ := Except.bind_eq_ok.mp h
  exact ⟨values, spec, hlines, readSpec_eq_ok.mp hspec, h⟩

theorem not_mem_of_safeText {c : Char} (h : safeText value = true) (hc : safeTextChar c = false) :
    c ∉ value.toList := by
  intro hmem
  rw [List.all_eq_true.mp h c hmem] at hc
  cases hc

theorem fields_clean (upstream : UpstreamKind)
    (href : upstream = .release ∨ Clean upstream.fields.2) :
    Clean upstream.fields.1 ∧ Clean upstream.fields.2 := by
  have hnames : ∀ name ∈ ["release", "pinned-release", "commit", ""],
      safeText name = true ∧ trim name = name := by decide
  have hname {name : String} (hmem : name ∈ ["release", "pinned-release", "commit", ""]) :
      Clean name := ⟨(hnames name hmem).1, (hnames name hmem).2⟩
  cases upstream with
  | release => exact ⟨hname (by simp [UpstreamKind.fields]), hname (by simp [UpstreamKind.fields])⟩
  | pinnedRelease tag =>
    exact ⟨hname (by simp [UpstreamKind.fields]), href.resolve_left (by simp)⟩
  | commit gitRef =>
    exact ⟨hname (by simp [UpstreamKind.fields]), href.resolve_left (by simp)⟩

theorem Reads.clean (hreads : Reads path values spec)
    (hclean : ∀ key value, values.get? key = some value → Clean value) :
    ∀ value ∈ recordFields spec, Clean value := by
  obtain ⟨hupstream, href⟩ := fields_clean spec.upstream (hreads.reference.imp_right (hclean _ _))
  simp only [recordFields, List.forall_mem_cons]
  exact ⟨hclean _ _ hreads.id, hclean _ _ hreads.name, hclean _ _ hreads.kind,
    hclean _ _ hreads.role, hclean _ _ hreads.repo, hupstream, href, hclean _ _ hreads.driver,
    hclean _ _ hreads.root, hclean _ _ hreads.binary, hclean _ _ hreads.service,
    hclean _ _ hreads.config, hclean _ _ hreads.assetAmd64, hclean _ _ hreads.assetArm64,
    List.forall_mem_nil _⟩

def fieldLine (field : String × String) : String := field.1 ++ "=" ++ field.2

/-- The fields of a record as the lines of a manifest. -/
def writeFields (fields : List String) : String := joinLines ((FIELDS.zip fields).map fieldLine)

def PlainKey (key : String) : Prop :=
  '=' ∉ key.toList ∧ trim key = key ∧ safeText key = true ∧
    ∃ c ∈ key.toList.head?, isWhitespace c = false ∧ c ≠ '#'

instance (key : String) : Decidable (PlainKey key) :=
  have : Decidable (∃ c ∈ key.toList.head?, isWhitespace c = false ∧ c ≠ '#') :=
    Option.decidableExistsMem _
  inferInstanceAs (Decidable (_ ∧ _ ∧ _ ∧ _))

theorem FIELDS_plain : ∀ key ∈ FIELDS, PlainKey key := by decide

theorem FIELDS_nodup : FIELDS.Nodup := by decide

theorem fieldLine_toList (key value : String) :
    (fieldLine (key, value)).toList = key.toList ++ '=' :: value.toList := by
  simp [fieldLine]

theorem trim_fieldLine (hkey : PlainKey key) (hvalue : Clean value) :
    trim (fieldLine (key, value)) = fieldLine (key, value) := by
  obtain ⟨-, -, -, c, hc, hblank, -⟩ := hkey
  obtain ⟨rest, hrest⟩ := List.head?_eq_some_iff.mp hc
  have htrimmed : Trimmed value.toList := by
    rw [← hvalue.trimmed, trim, String.toList_ofList]
    exact trimmed_trimList _
  rw [trim, trimList_eq_self, String.ofList_toList]
  rw [fieldLine_toList]
  constructor
  · intro d hd
    rw [hrest] at hd
    obtain rfl : c = d := by simpa using hd
    exact hblank
  · intro d hd
    cases hlast : value.toList.getLast? with
    | none =>
      rw [List.getLast?_eq_none_iff] at hlast
      rw [hlast] at hd
      obtain rfl : '=' = d := by simpa using hd
      decide
    | some e =>
      have hd' : e = d := by simpa [List.getLast?_append, List.getLast?_cons, hlast] using hd
      exact hd' ▸ htrimmed.2 e hlast

theorem assigns_fieldLine (hkey : PlainKey key) (hvalue : Clean value) :
    Assigns (fieldLine (key, value)) key value := by
  have hequals : "=".toList = ['='] := by decide
  rw [Assigns, trim_fieldLine hkey hvalue, fieldLine, splitOnce_append hequals hkey.1]
  obtain ⟨-, htrim, -, c, hc, -, hhash⟩ := hkey
  constructor
  · obtain ⟨rest, hrest⟩ := List.head?_eq_some_iff.mp hc
    have hhash' : ('#' == c) = false := by
      rw [beq_eq_false_iff_ne]
      exact hhash.symm
    rw [startsWith, String.toList_append, String.toList_append, hrest]
    change ('#' == c && _) = false
    rw [hhash', Bool.false_and]
  · rw [Option.map_some, Prod.map_apply, htrim, hvalue.trimmed]

theorem parseLines_fieldLines {fields : List (String × String)}
    (hnodup : (fields.map Prod.fst).Nodup)
    (hfields : ∀ field ∈ fields, field.1 ∈ FIELDS ∧ Clean field.2)
    (hfresh : ∀ field ∈ fields, values.get? field.1 = none) :
    parseLines path values index (fields.map fieldLine) =
      .ok (fields.foldl (fun m field ↦ m.insert field.1 field.2) values) := by
  induction fields generalizing values index with
  | nil => rfl
  | cons field fields ih =>
    obtain ⟨key, value⟩ := field
    obtain ⟨hnew, hnodup⟩ := List.nodup_cons.mp hnodup
    obtain ⟨⟨hkey, hclean⟩, hfields⟩ := List.forall_mem_cons.mp hfields
    obtain ⟨hkeyFresh, hfresh⟩ := List.forall_mem_cons.mp hfresh
    have hline : parseLine path values index (fieldLine (key, value)) =
        .ok (values.insert key value) :=
      parseLine_eq_ok.mpr (.inr ⟨key, value, assigns_fieldLine (FIELDS_plain key hkey) hclean, hkey,
        hclean.safe, hkeyFresh, rfl⟩)
    rw [List.map_cons, List.foldl_cons]
    refine Except.bind_eq_ok.mpr ⟨_, hline, ih hnodup hfields fun field hmem ↦ ?_⟩
    have hne : key ≠ field.1 := by
      intro heq
      apply hnew
      exact List.mem_map.mpr ⟨field, hmem, heq.symm⟩
    rw [OrderedMap.get?_insert, if_neg hne]
    exact hfresh field hmem

theorem recordFields_length : (recordFields spec).length = FIELDS.length := rfl

theorem zip_keys : (FIELDS.zip (recordFields spec)).map Prod.fst = FIELDS := by
  rw [List.map_fst_zip (by rw [recordFields_length])]

theorem parseLines_writeFields (hclean : ∀ value ∈ recordFields spec, Clean value) :
    parseLines path .empty 0 (lines (writeFields (recordFields spec))) =
      .ok (OrderedMap.ofList (FIELDS.zip (recordFields spec))) := by
  have hfields : ∀ field ∈ FIELDS.zip (recordFields spec), field.1 ∈ FIELDS ∧ Clean field.2 := by
    intro field hmem
    obtain ⟨hkey, hvalue⟩ := List.of_mem_zip hmem
    exact ⟨hkey, hclean _ hvalue⟩
  rw [writeFields, lines_joinLines]
  · exact parseLines_fieldLines (by rw [zip_keys]; exact FIELDS_nodup) hfields fun _ _ ↦ rfl
  · intro line hline
    obtain ⟨⟨key, value⟩, hmem, rfl⟩ := List.mem_map.mp hline
    obtain ⟨hkey, hvalue⟩ := hfields _ hmem
    have hplain := FIELDS_plain key hkey
    constructor
    · intro hempty
      have hlist := fieldLine_toList key value
      rw [hempty] at hlist
      simp at hlist
    · intro c hc
      rw [fieldLine_toList, List.mem_append, List.mem_cons] at hc
      have hsafe {text : String} (h : safeText text = true) (hc : c ∈ text.toList) :
          isControl c = false := by
        have hchar := List.all_eq_true.mp h c hc
        simp only [safeTextChar, Bool.and_eq_true, Bool.not_eq_true'] at hchar
        exact hchar.1.1.2
      rcases hc with hc | rfl | hc
      · exact hsafe hplain.2.2.1 hc
      · decide
      · exact hsafe hvalue.safe hc

theorem reads_fields (hstem : spec.id = path.fileStem.getD "") (hunplaced : spec.binaryPath = "") :
    Reads path (OrderedMap.ofList (FIELDS.zip (recordFields spec))) spec := by
  have hget (key value : String) (hmem : (key, value) ∈ FIELDS.zip (recordFields spec)) :
      (OrderedMap.ofList (FIELDS.zip (recordFields spec))).get? key = some value :=
    OrderedMap.get?_ofList (by rw [zip_keys]; exact FIELDS_nodup) hmem
  exact {
    upstream := hget "upstream" _ (by simp [FIELDS, recordFields])
    reference := .inr (hget "ref" _ (by simp [FIELDS, recordFields]))
    id := hget "id" _ (by simp [FIELDS, recordFields])
    name := hget "name" _ (by simp [FIELDS, recordFields])
    kind := hget "kind" _ (by simp [FIELDS, recordFields])
    role := hget "role" _ (by simp [FIELDS, recordFields])
    repo := hget "repo" _ (by simp [FIELDS, recordFields])
    driver := hget "driver" _ (by simp [FIELDS, recordFields])
    root := hget "root" _ (by simp [FIELDS, recordFields])
    binary := hget "binary" _ (by simp [FIELDS, recordFields])
    service := hget "service" _ (by simp [FIELDS, recordFields])
    config := hget "config" _ (by simp [FIELDS, recordFields])
    assetAmd64 := hget "asset_amd64" _ (by simp [FIELDS, recordFields])
    assetArm64 := hget "asset_arm64" _ (by simp [FIELDS, recordFields])
    stem := hstem
    unplaced := hunplaced }

theorem parseManifest_writeFields (hclean : ∀ value ∈ recordFields spec, Clean value)
    (hstem : spec.id = path.fileStem.getD "") (hunplaced : spec.binaryPath = "")
    (hvalid : validateSpec spec registration = .ok result) :
    parseManifest (writeFields (recordFields spec)) path registration = .ok result := by
  refine Except.bind_eq_ok.mpr ⟨_, parseLines_writeFields hclean, ?_⟩
  exact Except.bind_eq_ok.mpr ⟨_, readSpec_eq_ok.mpr (reads_fields hstem hunplaced), hvalid⟩

theorem split_pipeRecord (hclean : ∀ value ∈ recordFields spec, Clean value) :
    split '|' (pipeRecord spec) = recordFields spec :=
  split_intercalate (by decide) (List.cons_ne_nil _ _) fun value hmem ↦
    not_mem_of_safeText (hclean value hmem).safe (by decide)

theorem pipeRecord_oneLine (hclean : ∀ value ∈ recordFields spec, Clean value) {c : Char}
    (hbar : c ≠ '|') (hc : safeTextChar c = false) : c ∉ (pipeRecord spec).toList := by
  intro hmem
  rcases mem_splitOn (a := '|') hmem with h | ⟨piece, hpiece, hmem⟩
  · exact hbar h
  · have hfield : String.ofList piece ∈ recordFields spec := by
      rw [← split_pipeRecord hclean]
      exact List.mem_map_of_mem hpiece
    have hsafe := (hclean _ hfield).safe
    apply not_mem_of_safeText hsafe hc
    rw [String.toList_ofList]
    exact hmem

/-- The record is one line of as many fields as there are names, and the manifest written back
from them is the module again. -/
theorem pipe_protocol_lossless (content : String) (path : ManifestPath) (registration : Bool)
    (spec : ModuleSpec) (h : parseManifest content path registration = .ok spec) :
    '\n' ∉ (pipeRecord spec).toList ∧ '\r' ∉ (pipeRecord spec).toList ∧
      (split '|' (pipeRecord spec)).length = FIELDS.length ∧
      parseManifest (writeFields (split '|' (pipeRecord spec))) path registration = .ok spec := by
  obtain ⟨values, read, hlines, hreads, hvalid⟩ := parseManifest_ok h
  have hclean : ∀ value ∈ recordFields read, Clean value :=
    hreads.clean (parseLines_clean hlines (by simp))
  -- the path of the binary is no field of the record
  have hrecord : recordFields spec = recordFields read := by
    rw [← (validateSpec_ok hvalid).2]
    rfl
  have hpipe : pipeRecord spec = pipeRecord read := by rw [pipeRecord, hrecord, pipeRecord]
  rw [hpipe, split_pipeRecord hclean]
  refine ⟨pipeRecord_oneLine hclean (by decide) (by decide),
    pipeRecord_oneLine hclean (by decide) (by decide), rfl, ?_⟩
  exact parseManifest_writeFields hclean hreads.stem hreads.unplaced hvalid

def demoModule (binary : String) : ModuleSpec where
  id := "demo"
  name := "Demo"
  kind := "core"
  role := "Test"
  repo := "owner/repo"
  upstream := .release
  driver := "release"
  root := "cores"
  binary
  binaryPath := ""
  service := "infiproxy-demo.service"
  configPath := "/etc/infiproxy-cores/demo/config.json"
  assetAmd64 := "demo-\x7bversion\x7d-amd64"
  assetArm64 := "demo-\x7bversion\x7d-arm64"

def demoPath : ManifestPath where
  display := "demo.module"
  fileStem := some "demo"

def demoManifest (binary : String) : String := writeFields (recordFields (demoModule binary))

def acceptedDemo (binary : String) : ModuleSpec :=
  { demoModule binary with
    binaryPath := currentDirectory "cores" "demo" ++ "/" ++ binary }

theorem demoManifest_accepted {binary : String} (hbinary : binary ∈ ["demo", ".."]) :
    parseManifest (demoManifest binary) demoPath false = .ok (acceptedDemo binary) := by
  have hsafe : ∀ binary ∈ ["demo", ".."], ∀ value ∈ recordFields (demoModule binary),
      safeText value = true ∧ trim value = value := by decide
  have hvalid : ∀ binary ∈ ["demo", ".."],
      (validateSpec (demoModule binary) false).toOption = some (acceptedDemo binary) := by
    decide
  have hclean : ∀ value ∈ recordFields (demoModule binary), Clean value := by
    intro value hmem
    exact ⟨(hsafe binary hbinary value hmem).1, (hsafe binary hbinary value hmem).2⟩
  have haccepted := Except.toOption_eq_some.mp (hvalid binary hbinary)
  exact parseManifest_writeFields hclean rfl rfl haccepted

theorem pipe_protocol_lossless_demo :
    '\n' ∉ (pipeRecord (acceptedDemo "demo")).toList ∧
      '\r' ∉ (pipeRecord (acceptedDemo "demo")).toList ∧
      (split '|' (pipeRecord (acceptedDemo "demo"))).length = FIELDS.length ∧
      parseManifest (writeFields (split '|' (pipeRecord (acceptedDemo "demo")))) demoPath false =
        .ok (acceptedDemo "demo") :=
  pipe_protocol_lossless (demoManifest "demo") demoPath false _
    (demoManifest_accepted List.mem_cons_self)

end StealthHub.Modules

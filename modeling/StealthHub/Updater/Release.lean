import StealthHub.Data.EnvFile
import StealthHub.Data.Words
import StealthHub.Updater.Pinned
import StealthHub.Updater.Status

set_option autoImplicit false

namespace StealthHub.Updater

open Text EnvFile Modules
open Manager (ManifestFile ModuleDirectory readManifest loadRegistry)

structure ReleaseAsset where
  name : String
  browserDownloadUrl : String
  digest : Option String
deriving DecidableEq

structure Release where
  tagName : String
  draft : Bool
  prerelease : Bool
  assets : List ReleaseAsset
deriving DecidableEq

structure ReleaseMetadata where
  tag : String
  assetName : String
  assetUrl : String
  digest : String
  checksumUrl : String
deriving DecidableEq

def versionOfTag (tag : String) : String :=
  match tag.toList.dropWhile (!isAsciiDigit ·) with
  | [] => tag
  | version => String.ofList version

def expectedAsset (pattern tag : String) : String :=
  replace "\x7btag\x7d" tag (replace "\x7bversion\x7d" (versionOfTag tag) pattern)

def sidecars (expected : String) : List String :=
  [expected ++ ".dgst", expected ++ ".sha256sum", "hashes.txt", "checksums.txt"]

def Release.asset (release : Release) (name : String) : Option ReleaseAsset :=
  release.assets.find? (·.name = name)

def ReleaseAsset.rawDigest (asset : ReleaseAsset) : String :=
  dropPrefix "sha256:" (asset.digest.getD "")

def outsideGitHub (url : String) : Bool := !isEmpty url && !startsWith url "https://github.com/"

def unsafeValue (value : String) : Bool := containsChar value '|' || value.toList.any isControl

def selectReleaseMetadata (pattern : String) (release : Release) : Except String ReleaseMetadata := do
  if release.draft then throw "GitHub release is a draft"
  if release.prerelease then throw "GitHub release is a prerelease"
  if !safeAsset pattern then throw "invalid asset pattern"
  let expected := expectedAsset pattern release.tagName
  let asset ← (release.asset expected).elim
    (throw ("release asset not found: " ++ expected)) Except.ok
  let checksumUrl := ((sidecars expected).findSome? release.asset).elim "" (·.browserDownloadUrl)
  let digest := asset.rawDigest
  if outsideGitHub asset.browserDownloadUrl || outsideGitHub checksumUrl then
    throw "release asset URL is outside GitHub"
  if !isEmpty digest && !isSha256 digest then throw "invalid SHA-256 digest in GitHub response"
  if [release.tagName, expected, asset.browserDownloadUrl, digest, checksumUrl].any unsafeValue then
    throw "unsafe value in GitHub response"
  return { tag := release.tagName, assetName := expected, assetUrl := asset.browserDownloadUrl
           digest := toAsciiLowercase digest, checksumUrl }

def printMetadata (metadata : ReleaseMetadata) : String :=
  "|".intercalate [metadata.tag, metadata.assetName, metadata.assetUrl, metadata.digest,
    metadata.checksumUrl]

/-- `IFS='|' read -r tag asset url digest checksum_url`. -/
def readMetadata (line : String) : ReleaseMetadata :=
  match split '|' line with
  | tag :: assetName :: assetUrl :: digest :: rest =>
    { tag, assetName, assetUrl, digest, checksumUrl := "|".intercalate rest }
  | fields =>
    { tag := fields.getD 0 "", assetName := fields.getD 1 "", assetUrl := fields.getD 2 ""
      digest := "", checksumUrl := "" }

/-- What GitHub serves: releases by the address they are asked for under, and downloads. -/
structure GitHub where
  release : String → Option Release
  download : String → Option (List UInt8)

/-- `sha256sum`, and a download as a text. -/
structure Digester where
  sha256sum : List UInt8 → String
  text : List UInt8 → String

/-- What `uname -m` says; an architecture that is not supported goes by no name. -/
def hostArch (machine : String) : String :=
  if machine = "x86_64" ∨ machine = "amd64" then "amd64"
  else if machine = "aarch64" ∨ machine = "arm64" then "arm64"
  else ""

def assetPattern (record : Record) (arch : String) : String :=
  if arch = "amd64" then record.assetAmd64 else record.assetArm64

def releaseAddress (record : Record) : String :=
  "https://api.github.com/repos/" ++ record.repo ++
    (if record.upstream = "pinned-release" then "/releases/tags/" ++ record.ref
    else "/releases/latest")

section Commands

variable (github : GitHub) (digester : Digester) (record : Record) (machine : String)

def helperMetadata : Option ReleaseMetadata :=
  (github.release (releaseAddress record)).bind fun release ↦
    (selectReleaseMetadata (assetPattern record (hostArch machine)) release).toOption

/-- What `release_metadata` prints; where the helper fails or the tag is another, this is nothing. -/
def releaseMetadata : String :=
  let metadata := (helperMetadata github record machine).elim "" printMetadata
  if record.upstream = "pinned-release" ∧ (split '|' metadata).headD "" ≠ record.ref then ""
  else metadata

def releaseDownloads : String := "https://github.com/" ++ record.repo ++ "/releases/download/"

def downloadReleaseAsset (url : String) : Option (List UInt8) :=
  if !isEmpty record.repo && startsWith url (releaseDownloads record) then github.download url
  else none

/-- The fields of a line, as `awk` counts them. -/
def fieldsOf (line : String) : List String :=
  (Words.words (fun c ↦ c = ' ' || c = '\t') line.toList).map String.ofList

def listedIn (asset line : String) : Option String :=
  match fieldsOf line with
  | checksum :: rest =>
    if checksum.toList.length = 64 ∧ (rest = [] ∨ dropPrefix "*" (rest.headD "") = asset) then
      some checksum
    else none
  | [] => none

/-- `resolve_checksum`; where the shell dies in here, the caller goes on without a checksum. -/
def resolveChecksum (asset digest checksumUrl : String) : String :=
  if isSha256 digest then toAsciiLowercase digest
  else
    let listed := do
      let content ← downloadReleaseAsset github record checksumUrl
      (fileLines (digester.text content)).findSome? (listedIn asset)
    match listed with
    | some checksum => if isSha256 checksum then toAsciiLowercase checksum else ""
    | none => ""

/-- The release as it lies in the temporary directory, where `sha256sum -c` accepts it. -/
def downloadVerified : Option Download :=
  let metadata := readMetadata (releaseMetadata github record machine)
  let checksum :=
    resolveChecksum github digester record metadata.assetName metadata.digest metadata.checksumUrl
  (downloadReleaseAsset github record metadata.assetUrl).bind fun archive ↦
    if isSha256 checksum && digester.sha256sum archive = checksum then
      some ⟨metadata.assetName, archive, checksum⟩
    else none

/-- An attempt that GitHub answers; `attempt` says how everything else goes. -/
def answered (attempt : Attempt) : Attempt :=
  let metadata := readMetadata (releaseMetadata github record machine)
  { attempt with
    metadata := some (metadata.tag, metadata.assetUrl)
    fetched := attempt.fetched.bind fun _ ↦ downloadVerified github digester record machine }

end Commands

variable {pattern asset : String} {release : Release} {metadata : ReleaseMetadata}

theorem lowerChar_isHexdigit {c : Char} (h : isAsciiHexdigit c = true) :
    isAsciiHexdigit (lowerChar c) = true := by
  have hall : ∀ n < 128, isAsciiHexdigit (Char.ofNat n) = true →
      isAsciiHexdigit (lowerChar (Char.ofNat n)) = true := by decide
  rcases lowerChar_cases c with hsame | ⟨-, -, hlt, -⟩
  · rwa [hsame]
  · have hdigit := hall c.toNat hlt
    rw [Char.ofNat_toNat] at hdigit
    exact hdigit h

theorem isSha256_toAsciiLowercase {digest : String} (h : isSha256 digest = true) :
    isSha256 (toAsciiLowercase digest) = true := by
  rw [isSha256, Bool.and_eq_true, decide_eq_true_eq] at h ⊢
  refine ⟨(len_toAsciiLowercase digest).trans h.1, ?_⟩
  rw [toAsciiLowercase, String.toList_ofList, List.all_map, List.all_eq_true]
  exact fun c hc ↦ lowerChar_isHexdigit (List.all_eq_true.mp h.2 c hc)

theorem toAsciiLowercase_idem (s : String) :
    toAsciiLowercase (toAsciiLowercase s) = toAsciiLowercase s := by
  have hall : ∀ n < 128, lowerChar (lowerChar (Char.ofNat n)) = lowerChar (Char.ofNat n) := by decide
  have hcomp : lowerChar ∘ lowerChar = lowerChar := by
    funext c
    rcases lowerChar_cases c with hsame | ⟨-, -, hlt, -⟩
    · exact congrArg lowerChar hsame
    · have hagain := hall c.toNat hlt
      rwa [Char.ofNat_toNat] at hagain
  rw [toAsciiLowercase, toAsciiLowercase, String.toList_ofList, List.map_map, hcomp]

/-- What the helper has made sure of. -/
structure Selected (pattern : String) (release : Release) (metadata : ReleaseMetadata) : Prop where
  released : release.draft = false ∧ release.prerelease = false
  tag : metadata.tag = release.tagName
  name : metadata.assetName = expectedAsset pattern release.tagName
  asset : ∃ asset ∈ release.assets, asset.name = metadata.assetName ∧
    asset.browserDownloadUrl = metadata.assetUrl ∧ metadata.digest = toAsciiLowercase asset.rawDigest ∧
    (asset.rawDigest = "" ∨ isSha256 asset.rawDigest = true)
  sidecar : metadata.checksumUrl = "" ∨ ∃ sidecar ∈ release.assets,
    sidecar.name ∈ sidecars metadata.assetName ∧ sidecar.browserDownloadUrl = metadata.checksumUrl
  plain : ∀ field ∈ [metadata.tag, metadata.assetName, metadata.assetUrl, metadata.digest,
    metadata.checksumUrl], '|' ∉ field.toList

theorem mem_of_asset {found : ReleaseAsset} (h : release.asset asset = some found) :
    found ∈ release.assets ∧ found.name = asset :=
  ⟨List.mem_of_find?_eq_some h, by simpa using List.find?_some h⟩

theorem not_mem_of_unsafeValue {value : String} (h : unsafeValue value = false) :
    '|' ∉ value.toList := by
  rw [unsafeValue, Bool.or_eq_false_iff] at h
  simpa [containsChar] using h.1

theorem selectReleaseMetadata_ok (h : selectReleaseMetadata pattern release = .ok metadata) :
    Selected pattern release metadata := by
  rw [selectReleaseMetadata] at h
  obtain ⟨hdraft, h⟩ := Except.guard_eq_ok.mp h
  obtain ⟨hprerelease, h⟩ := Except.guard_eq_ok.mp h
  obtain ⟨-, h⟩ := Except.guard_eq_ok.mp h
  obtain ⟨found, hfound, h⟩ := Except.bind_eq_ok.mp h
  obtain ⟨-, h⟩ := Except.guard_eq_ok.mp h
  obtain ⟨hdigest, h⟩ := Except.guard_eq_ok.mp h
  obtain ⟨hplain, h⟩ := Except.guard_eq_ok.mp h
  obtain ⟨hmem, hname⟩ := mem_of_asset (Except.elim_eq_ok.mp hfound)
  obtain rfl := Except.pure_eq_ok.mp h
  have hsha : found.rawDigest = "" ∨ isSha256 found.rawDigest = true := by
    by_contra hne
    obtain ⟨hempty, hsha⟩ := not_or.mp hne
    rw [← Text.isEmpty_iff] at hempty
    exact hdigest (by simp [hempty, hsha])
  refine {
    released := ⟨by simpa using hdraft, by simpa using hprerelease⟩
    tag := rfl
    name := rfl
    asset := ⟨found, hmem, hname, rfl, rfl, hsha⟩
    sidecar := ?_
    plain := ?_ }
  · cases hside : (sidecars (expectedAsset pattern release.tagName)).findSome? release.asset with
    | none => exact .inl rfl
    | some sidecar =>
      obtain ⟨name, hside, hsidecar⟩ := List.exists_of_findSome?_eq_some hside
      obtain ⟨hmem, rfl⟩ := mem_of_asset hsidecar
      exact .inr ⟨sidecar, hmem, hside, rfl⟩
  · have hsafe (value : String) (hvalue : value ∈ [release.tagName,
        expectedAsset pattern release.tagName, found.browserDownloadUrl, found.rawDigest,
        ((sidecars (expectedAsset pattern release.tagName)).findSome? release.asset).elim ""
          (·.browserDownloadUrl)]) : '|' ∉ value.toList := by
      refine not_mem_of_unsafeValue ?_
      rw [← Bool.not_eq_true]
      exact fun hunsafe ↦ hplain (List.any_eq_true.mpr ⟨value, hvalue, hunsafe⟩)
    intro field hfield
    simp only [List.mem_cons, List.not_mem_nil, or_false] at hfield
    rcases hfield with rfl | rfl | rfl | rfl | rfl
    · exact hsafe _ (by simp)
    · exact hsafe _ (by simp)
    · exact hsafe _ (by simp)
    · rw [toAsciiLowercase, String.toList_ofList, List.mem_map]
      rintro ⟨c, hc, hbar⟩
      rw [lowerChar_eq_iff (by decide) (by decide)] at hbar
      exact hsafe _ (by simp) (hbar ▸ hc)
    · exact hsafe _ (by simp)

theorem readMetadata_printMetadata (h : Selected pattern release metadata) :
    readMetadata (printMetadata metadata) = metadata := by
  unfold readMetadata printMetadata
  rw [split_intercalate rfl (List.cons_ne_nil _ _) h.plain]
  rfl

theorem tag_printMetadata (h : Selected pattern release metadata) :
    (split '|' (printMetadata metadata)).headD "" = metadata.tag := by
  rw [printMetadata, split_intercalate rfl (List.cons_ne_nil _ _) h.plain]
  rfl

section Download

variable {github : GitHub} {digester : Digester} {record : Record} {machine url : String}
  {download : Download}

def Attested (github : GitHub) (digester : Digester) (record : Record) (release : Release)
    (asset : ReleaseAsset) (sha256 : String) : Prop :=
  isSha256 asset.rawDigest = true ∧ sha256 = toAsciiLowercase asset.rawDigest ∨
    asset.rawDigest = "" ∧ ∃ sidecar ∈ release.assets, sidecar.name ∈ sidecars asset.name ∧
      ∃ listing, downloadReleaseAsset github record sidecar.browserDownloadUrl = some listing ∧
        ∃ line ∈ fileLines (digester.text listing), ∃ checksum,
          listedIn asset.name line = some checksum ∧ sha256 = toAsciiLowercase checksum

/-- A download that may be installed as the release of a tag. -/
structure Verified (github : GitHub) (digester : Digester) (record : Record)
    (machine ref : String) (release : Release) (found : ReleaseAsset) (download : Download) :
    Prop where
  served : github.release (releaseAddress record) = some release
  released : release.draft = false ∧ release.prerelease = false
  tag : release.tagName = ref
  pinned : record.upstream = "pinned-release" → ref = record.ref
  asset : found ∈ release.assets
  expected : found.name = expectedAsset (assetPattern record (hostArch machine)) ref
  name : download.name = found.name
  downloaded : downloadReleaseAsset github record found.browserDownloadUrl = some download.archive
  checked : digester.sha256sum download.archive = download.sha256
  attested : Attested github digester record release found download.sha256

theorem startsWith_releaseDownloads (record : Record) :
    startsWith "" (releaseDownloads record) = false := by
  have hne : (releaseDownloads record).toList ≠ [] := by
    unfold releaseDownloads
    simp
  cases hlist : (releaseDownloads record).toList with
  | nil => exact absurd hlist hne
  | cons c rest =>
    rw [startsWith, hlist]
    rfl

theorem downloadReleaseAsset_empty : downloadReleaseAsset github record "" = none := by
  rw [downloadReleaseAsset, startsWith_releaseDownloads, Bool.and_false]
  rfl

theorem releaseMetadata_cases (github : GitHub) (record : Record) (machine : String) :
    releaseMetadata github record machine = "" ∨ ∃ release metadata,
      github.release (releaseAddress record) = some release ∧
      Selected (assetPattern record (hostArch machine)) release metadata ∧
      releaseMetadata github record machine = printMetadata metadata ∧
      (record.upstream = "pinned-release" → metadata.tag = record.ref) := by
  unfold releaseMetadata
  cases hhelper : helperMetadata github record machine with
  | none =>
    dsimp only [Option.elim]
    split_ifs
    · exact .inl rfl
    · exact .inl rfl
  | some metadata =>
    obtain ⟨release, hserved, hoption⟩ := Option.bind_eq_some_iff.mp hhelper
    have hmetadata := selectReleaseMetadata_ok (Except.toOption_eq_some.mp hoption)
    dsimp only [Option.elim]
    rw [tag_printMetadata hmetadata]
    split_ifs with htag
    · exact .inl rfl
    · refine .inr ⟨release, metadata, hserved, hmetadata, rfl, fun hpinned ↦ ?_⟩
      by_contra hne
      exact htag ⟨hpinned, hne⟩

theorem resolveChecksum_cases (github : GitHub) (digester : Digester)
    (record : Record) (asset digest checksumUrl : String) :
    isSha256 digest = true ∧ resolveChecksum github digester record asset digest checksumUrl =
      toAsciiLowercase digest ∨
    isSha256 digest = false ∧
      (resolveChecksum github digester record asset digest checksumUrl = "" ∨
      ∃ listing, downloadReleaseAsset github record checksumUrl = some listing ∧
        ∃ line ∈ fileLines (digester.text listing), ∃ checksum,
          listedIn asset line = some checksum ∧
            resolveChecksum github digester record asset digest checksumUrl =
              toAsciiLowercase checksum) := by
  unfold resolveChecksum
  by_cases hdigest : isSha256 digest = true
  · exact .inl ⟨hdigest, if_pos hdigest⟩
  rw [if_neg hdigest]
  refine .inr ⟨by simpa using hdigest, ?_⟩
  cases hdownload : downloadReleaseAsset github record checksumUrl with
  | none => exact .inl rfl
  | some listing =>
    cases hlisted : (fileLines (digester.text listing)).findSome? (listedIn asset) with
    | none =>
      left
      dsimp only [Option.bind_eq_bind, Option.bind_some]
      rw [hlisted]
    | some checksum =>
      dsimp only [Option.bind_eq_bind, Option.bind_some]
      rw [hlisted]
      dsimp only
      split_ifs
      · obtain ⟨line, hline, hfound⟩ := List.exists_of_findSome?_eq_some hlisted
        exact .inr ⟨listing, rfl, line, hline, checksum, hfound, rfl⟩
      · exact .inl rfl

theorem exists_verified (h : downloadVerified github digester record machine = some download) :
    ∃ release asset, Verified github digester record machine
      (readMetadata (releaseMetadata github record machine)).tag release asset download := by
  obtain ⟨archive, hdownload, haccepted⟩ := Option.bind_eq_some_iff.mp h
  split_ifs at haccepted with hchecks
  obtain rfl := Option.some.inj haccepted
  obtain ⟨hsha, hsum⟩ := (Bool.and_eq_true _ _).mp hchecks
  rcases releaseMetadata_cases github record machine with
    hnone | ⟨release, metadata, hserved, hselected, hline, hpinned⟩
  · have hurl : (readMetadata "").assetUrl = "" := by decide
    rw [hnone, hurl, downloadReleaseAsset_empty] at hdownload
    cases hdownload
  rw [hline, readMetadata_printMetadata hselected] at hdownload hsha hsum ⊢
  obtain ⟨found, hmem, hname, hurl, hdigest, hraw⟩ := hselected.asset
  refine ⟨release, found, {
    served := hserved
    released := hselected.released
    tag := hselected.tag.symm
    pinned := hpinned
    asset := hmem
    expected := by rw [hname, hselected.name, hselected.tag]
    name := hname.symm
    downloaded := by rwa [hurl]
    checked := of_decide_eq_true hsum
    attested := ?_ }⟩
  dsimp only
  rcases resolveChecksum_cases github digester record metadata.assetName metadata.digest
    metadata.checksumUrl with ⟨hdigested, hchecksum⟩ | ⟨hundigested, hchecksum⟩
  · rw [hchecksum, hdigest, toAsciiLowercase_idem]
    refine .inl ⟨hraw.resolve_left fun hempty ↦ ?_, rfl⟩
    rw [hdigest, hempty] at hdigested
    exact absurd hdigested (by decide)
  · rcases hchecksum with hnone | ⟨listing, hlisting, line, hmemline, checksum, hlisted, hchecksum⟩
    · rw [hnone] at hsha
      exact absurd hsha (by decide)
    · have hempty : found.rawDigest = "" := by
        refine hraw.resolve_right fun hsha256 ↦ ?_
        rw [hdigest, isSha256_toAsciiLowercase hsha256] at hundigested
        cases hundigested
      rcases hselected.sidecar with hside | ⟨sidecar, hside, hsidename, hsideurl⟩
      · rw [hside, downloadReleaseAsset_empty] at hlisting
        cases hlisting
      · exact .inr ⟨hempty, sidecar, hside, by rwa [hname], listing, by rwa [hsideurl], line,
          hmemline, checksum, by rwa [hname], hchecksum⟩

end Download

def Act.Installs : Act → Prop
  | .install _ _ _ _ => True
  | _ => False

section Acts

variable {P : Act → Prop} {host host' : ModuleHost} {record : Record} {id : String}
  {attempt : Attempt} {action : RuntimeLifecycleAction}

theorem adds_runCoreInstaller {version : String} {download : Download}
    (h : P (.install record.id version record.binary download)) :
    Adds P host (runCoreInstaller host record version download attempt) := by
  have hact : Adds P host (host.act [.install record.id version record.binary download]) := .one h
  unfold runCoreInstaller
  dsimp only
  split_ifs
  · exact hact.trans (.same rfl)
  · exact hact.trans (.same rfl)
  · exact hact

variable (hother : ∀ act : Act, ¬act.Installs → P act)

include hother

theorem adds_restoreServiceState (service : String) :
    Adds P host (restoreServiceState host service attempt).2 := by
  have henabled : Adds P host (if attempt.wasEnabled = true then
      host.act [.service "enable" service] else host) := by
    split_ifs
    · exact .one (hother _ not_false)
    · exact .same rfl
  unfold restoreServiceState
  generalize (if attempt.wasEnabled = true then host.act [.service "enable" service]
    else host) = enabled at henabled
  dsimp only
  split_ifs
  · exact .same rfl
  · exact henabled
  · exact henabled.trans (.one (hother _ not_false))
  · exact henabled

theorem adds_rollbackSymlink (previous : Place) :
    Adds P host (rollbackSymlink host record previous attempt) := by
  unfold rollbackSymlink
  cases previous.rolledBack (host.placeOf record) with
  | none => exact .same rfl
  | some place =>
    dsimp only
    split_ifs
    · exact .same rfl
    · exact Adds.trans (.same rfl) (.one (hother _ not_false))
    · exact .same rfl

theorem adds_installReleaseModule (allowDowngrade : Bool)
    (hinstall : ∀ tag url download, attempt.metadata = some (tag, url) →
      attempt.fetched = some download →
        P (.install record.id (normalizeVersion tag) record.binary download)) :
    Adds P host (installReleaseModule host record allowDowngrade attempt).2 := by
  unfold installReleaseModule
  cases hmetadata : attempt.metadata with
  | none => exact .same rfl
  | some metadata =>
    obtain ⟨tag, url⟩ := metadata
    cases hfetched : attempt.fetched with
    | none =>
      dsimp only
      split_ifs
      all_goals exact .same rfl
    | some download =>
      have hinstalled : Adds P host (restoreServiceState (runCoreInstaller host record
          (normalizeVersion tag) download attempt) record.service attempt).2 :=
        (adds_runCoreInstaller (hinstall tag url download hmetadata hfetched)).trans
          (adds_restoreServiceState hother record.service)
      dsimp only
      split_ifs
      · exact .same rfl
      · exact .same rfl
      · exact .same rfl
      · exact .same rfl
      · exact .same rfl
      · exact hinstalled.trans (.same rfl)
      · exact hinstalled.trans (adds_rollbackSymlink hother _)

theorem adds_updateModule (id : String) (allowDowngrade : Bool)
    (hinstall : ∀ record tag url download, loadModule host.active id = some record →
      attempt.metadata = some (tag, url) → attempt.fetched = some download →
        P (.install record.id (normalizeVersion tag) record.binary download)) :
    Adds P host (updateModule host id allowDowngrade attempt).2 := by
  unfold updateModule
  cases hload : loadModule host.active id with
  | none => exact .same rfl
  | some record =>
    dsimp only
    split_ifs
    · exact .same rfl
    · exact adds_installReleaseModule hother allowDowngrade
        fun tag url download ↦ hinstall record tag url download hload

theorem adds_aside : Adds P host (host.setAside id action) :=
  adds_setAside fun _ _ ↦ hother _ not_false

theorem adds_registerOne {outcome : Outcome}
    (hinstall : ∀ record tag url download,
      loadModule ((host.registrable id).elim host.active (place host.active)) id = some record →
        attempt.metadata = some (tag, url) → attempt.fetched = some download →
          P (.install record.id (normalizeVersion tag) record.binary download))
    (h : registerOne host id attempt = some (outcome, host')) : Adds P host host' := by
  unfold registerOne at h
  split_ifs at h with hsafe
  · cases h
    exact .same rfl
  cases hsource : host.registrable id with
  | none =>
    rw [hsource] at h
    cases h
    exact adds_aside hother
  | some source =>
    rw [hsource] at h hinstall
    obtain ⟨aside, hclear⟩ := clearAside_eq { host with active := place host.active source } id
      .install
    dsimp only at h
    rw [hclear] at h
    have hadds : Adds P { host with active := place host.active source, aside }
        (updateModule { host with active := place host.active source, aside } id true attempt).2 :=
      adds_updateModule hother id true hinstall
    split_ifs at h
    revert h hadds
    generalize updateModule { host with active := place host.active source, aside } id true
      attempt = result
    obtain ⟨success, next⟩ := result
    intro hadds h
    have hnext : Adds P host next := hadds
    cases success with
    | true =>
      cases h
      exact hnext.trans (.same rfl)
    | false =>
      cases h
      have hdropped : Adds P host { next with active := drop next.active id } :=
        hnext.trans (.same rfl)
      exact hdropped.trans (adds_aside hother)

theorem adds_removeOne (id : String) : Adds P host (removeOne host id).2 := by
  unfold removeOne
  cases hload : loadModule host.active id with
  | none =>
    dsimp only
    split_ifs
    · exact .same rfl
    · exact adds_aside hother
  | some record =>
    cases hfile : lookup host.active id with
    | none =>
      dsimp only
      split_ifs
      · exact .same rfl
      · exact adds_aside hother
    | some file =>
      have hremoved : Adds P host (host.removed record file) :=
        ⟨_, rfl, List.forall_mem_cons.mpr
          ⟨hother _ not_false, List.forall_mem_singleton.mpr (hother _ not_false)⟩⟩
      dsimp only
      split_ifs
      · exact .same rfl
      · exact adds_aside hother
      · exact hremoved.trans adds_settle

theorem adds_lifecycleOne (action : RuntimeLifecycleAction) (id : String) (obeyed : Bool) :
    Adds P host (lifecycleOne host action id obeyed).2 := by
  unfold lifecycleOne
  cases hload : loadModule host.active id with
  | none =>
    dsimp only
    split_ifs
    · exact .same rfl
    · exact adds_aside hother
    · exact adds_aside hother
  | some record =>
    have hact : Adds P host (host.act [.service action.requestSuffix record.service]) :=
      .one (hother _ not_false)
    dsimp only
    split_ifs
    · exact .same rfl
    · exact adds_aside hother
    · exact adds_aside hother
    · exact hact.trans adds_settle
    · exact hact.trans (adds_aside hother)

theorem adds_runOne (id : String)
    (hinstall : ∀ record tag url download, loadModule host.active id = some record →
      attempt.metadata = some (tag, url) → attempt.fetched = some download →
        P (.install record.id (normalizeVersion tag) record.binary download)) :
    Adds P host (runOne host id attempt).2 := by
  have hadds := adds_updateModule hother id true hinstall
  unfold runOne
  revert hadds
  generalize updateModule host id true attempt = result
  obtain ⟨success, next⟩ := result
  intro hadds
  have hnext : Adds P host next := hadds
  split_ifs
  · exact .same rfl
  · exact adds_aside hother
  · exact .same rfl
  · cases success with
    | true => exact hnext.trans adds_settle
    | false => exact hnext.trans (adds_aside hother)

end Acts

section Runs

variable (digester : Digester) (machine : String)

/-- An attempt to update the module of an id, as GitHub answers it. -/
def GitHub.answer (github : GitHub) (directory : ModuleDirectory) (id : String)
    (attempt : Attempt) : Attempt :=
  (loadModule directory id).elim attempt fun record ↦
    answered github digester record machine attempt

/-- One turn of the worker, and what GitHub serves meanwhile. -/
structure Turn where
  step : Step
  github : GitHub

def Turn.answered (turn : Turn) (host : ModuleHost) : Step :=
  let answer := turn.github.answer digester machine
  match turn.step with
  | .register id attempt =>
    .register id (answer ((host.registrable id).elim host.active (place host.active)) id attempt)
  | .update id attempt => .update id (answer host.active id attempt)
  | .automatic id attempt => .automatic id (answer host.active id attempt)
  | step => step

def ModuleHost.turn (host : ModuleHost) (turn : Turn) : Option ModuleHost :=
  host.step (turn.answered digester machine host)

def ModuleHost.turns (host : ModuleHost) (turns : List Turn) : Option ModuleHost :=
  turns.foldlM (ModuleHost.turn digester machine) host

/-- What stands behind an act: where it installs a program, a manifest of root asks for it and the
archive has been verified. -/
def Vouched (start : ModuleHost) (github : GitHub) (act : Act) : Prop :=
  ∀ id version binary download, act = .install id version binary download →
    ∃ file spec tag release asset, Known start file ∧ readManifest file = .ok spec ∧
      id = spec.id ∧ version = normalizeVersion tag ∧ binary = spec.binary ∧
      Verified github digester (recordOf spec) machine tag release asset download

variable {digester machine} {start host : ModuleHost} {github : GitHub}
  {directory : ModuleDirectory} {id tag url : String} {attempt : Attempt} {record : Record}
  {download : Download} {links : String → RuntimeLifecycleAction → String → Prop}

theorem vouched_other (act : Act) (h : ¬act.Installs) : Vouched digester machine start github act := by
  rintro id version binary download rfl
  exact absurd trivial h

theorem vouched_install (hknown : ∀ file ∈ directory.files, Known start file)
    (hload : loadModule directory id = some record)
    (hmetadata : (github.answer digester machine directory id attempt).metadata = some (tag, url))
    (hfetched : (github.answer digester machine directory id attempt).fetched = some download) :
    Vouched digester machine start github
      (.install record.id (normalizeVersion tag) record.binary download) := by
  unfold GitHub.answer at hmetadata hfetched
  rw [hload] at hmetadata hfetched
  obtain ⟨file, hfile, spec, -, hread, rfl⟩ := loadModule_eq_some.mp hload
  obtain ⟨kept, -, hverified⟩ := Option.bind_eq_some_iff.mp hfetched
  obtain ⟨release, asset, hverified⟩ := exists_verified hverified
  obtain ⟨htag, -⟩ := Prod.mk.inj (Option.some.inj hmetadata)
  rw [htag] at hverified
  intro id' version binary other h
  cases h
  exact ⟨file, spec, tag, release, asset, hknown file hfile, hread, rfl, rfl, rfl, hverified⟩

theorem known_registrable (h : Confined start links host) (id : String) :
    ∀ file ∈ ((host.registrable id).elim host.active (place host.active)).files,
      Known start file := by
  cases hsource : host.registrable id with
  | none => exact h.known
  | some source => exact (h.place hsource).known

theorem adds_step {host' : ModuleHost} (h : Confined start links host) (turn : Turn)
    (hstep : host.turn digester machine turn = some host') :
    Adds (Vouched digester machine start turn.github) host host' := by
  obtain ⟨step, github⟩ := turn
  cases step with
  | panel files =>
    obtain rfl : { host with toPanelFiles := files } = host' := Option.some.inj hstep
    exact .same rfl
  | reconciled applied =>
    obtain rfl : { host with applied } = host' := Option.some.inj hstep
    exact .same rfl
  | begin found =>
    obtain rfl : (begin host found).getD host = host' := Option.some.inj hstep
    exact .same (begin_acts host found)
  | due now =>
    obtain rfl : host = host' := Option.some.inj hstep
    exact .same rfl
  | register id attempt =>
    have hregister : (registerOne host id (github.answer digester machine
        ((host.registrable id).elim host.active (place host.active)) id attempt)).map Prod.snd =
          some host' := hstep
    obtain ⟨⟨outcome, next⟩, hone, rfl⟩ := Option.map_eq_some_iff.mp hregister
    exact adds_registerOne vouched_other (fun record tag url download hload hmetadata hfetched ↦
      vouched_install (known_registrable h id) hload hmetadata hfetched) hone
  | remove id =>
    obtain rfl : (removeOne host id).2 = host' := Option.some.inj hstep
    exact adds_removeOne vouched_other id
  | lifecycle action id obeyed =>
    obtain rfl : (lifecycleOne host action id obeyed).2 = host' := Option.some.inj hstep
    exact adds_lifecycleOne vouched_other action id obeyed
  | update id attempt =>
    obtain rfl : (runOne host id (github.answer digester machine host.active id attempt)).2 =
      host' := Option.some.inj hstep
    exact adds_runOne vouched_other id fun record tag url download hload hmetadata hfetched ↦
      vouched_install h.known hload hmetadata hfetched
  | automatic id attempt =>
    obtain rfl : (automaticOne host id
      (github.answer digester machine host.active id attempt)).2 = host' := Option.some.inj hstep
    rcases automaticOne_eq host id (github.answer digester machine host.active id attempt)
      with hsame | hupdated
    · exact .same (congrArg ModuleHost.acts hsame)
    · rw [hupdated]
      exact adds_updateModule vouched_other id false
        fun record tag url download hload hmetadata hfetched ↦
          vouched_install h.known hload hmetadata hfetched

theorem Confined.turns (h : Confined start (fun _ _ _ ↦ True) host) (turns : List Turn) :
    ∃ host' acts, host.turns digester machine turns = some host' ∧
      host'.acts = host.acts ++ acts.flatten ∧
        List.Forall₂ (fun turn acts ↦ ∀ act ∈ acts, Vouched digester machine start turn.github act)
          turns acts := by
  induction turns generalizing host with
  | nil => exact ⟨host, [], rfl, (List.append_nil _).symm, .nil⟩
  | cons turn rest ih =>
    obtain ⟨next, hstep, hnext⟩ :=
      h.step (turn.answered digester machine host) fun _ _ _ _ _ _ ↦ trivial
    have hturn : host.turn digester machine turn = some next := hstep
    obtain ⟨first, hfirst, hvouched⟩ := adds_step h turn hturn
    obtain ⟨host', others, hrun, hothers, hall⟩ := ih hnext
    refine ⟨host', first :: others, ?_, ?_, .cons hvouched hall⟩
    · rw [ModuleHost.turns, List.foldlM_cons, hturn]
      exact hrun
    · rw [hothers, hfirst, List.flatten_cons, List.append_assoc]

/-- In every order of requests, updates and interference, and whatever GitHub serves from turn to
turn, each archive that the worker has installed was downloaded, in that very turn, from the
releases of the repository that a manifest of root names, and bears the checksum of that release. -/
theorem installs_verified (digester : Digester) (machine : String) (start : ModuleHost)
    (turns : List Turn) {specs : List ModuleSpec}
    (hregistry : loadRegistry start.active = .ok specs) :
    ∃ host acts, start.turns digester machine turns = some host ∧
      host.acts = start.acts ++ acts.flatten ∧
        List.Forall₂ (fun turn acts ↦ ∀ act ∈ acts, Vouched digester machine start turn.github act)
          turns acts :=
  (Confined.refl (readable_of_loadRegistry hregistry) fun _ _ _ _ ↦ trivial).turns turns

end Runs

def demoUrl : String :=
  "https://github.com/owner/repo/releases/download/v1.3.0/demo-1.3.0-amd64"

def demoRelease : Release where
  tagName := "v1.3.0"
  draft := false
  prerelease := false
  assets := [⟨"demo-1.3.0-amd64", demoUrl, some ("sha256:" ++ demoDigest)⟩]

/-- GitHub with one release, whose only asset is the line `demo`. -/
def demoGitHub : GitHub where
  release := Function.update (fun _ ↦ none) "https://api.github.com/repos/owner/repo/releases/latest"
    (some demoRelease)
  download := Function.update (fun _ ↦ none) demoUrl (some demoArchive)

def demoDigester : Digester where
  sha256sum := fun archive ↦ if archive = demoArchive then demoDigest else ""
  text := fun _ ↦ ""

def demoTurns : List Turn :=
  [⟨.panel (demoFiles (oneRequest "demo" .update)), demoGitHub⟩,
    ⟨.begin (.directory 997 0o750), demoGitHub⟩, ⟨.update "demo" pinnedAttempt, demoGitHub⟩]

theorem installs_verified_demo : ∃ host acts,
    (demoHost none).turns demoDigester "x86_64" demoTurns = some host ∧
      host.acts = (demoHost none).acts ++ acts.flatten ∧
        List.Forall₂ (fun turn acts ↦ ∀ act ∈ acts,
          Vouched demoDigester "x86_64" (demoHost none) turn.github act) demoTurns acts :=
  installs_verified demoDigester "x86_64" (demoHost none) demoTurns Manager.demoDirectory_loads

end StealthHub.Updater

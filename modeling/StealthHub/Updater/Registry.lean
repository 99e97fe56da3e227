import StealthHub.Manager.Delivered

set_option autoImplicit false

namespace StealthHub.Updater

open Modules
open Manager (ManifestFile ModuleDirectory readManifest addSpec loadRegistry manifestRecord
  matchesModuleId find?_stem readManifest_ok matchesModuleId_of_validId loadRegistry_mem)

/-- `install` of a file to its place, over what is there. -/
def place (directory : ModuleDirectory) (file : ManifestFile) : ModuleDirectory where
  files := directory.files.filter (·.stem ≠ file.stem) ++ [file]
  distinct := by
    rw [List.map_append, List.map_singleton]
    refine List.Nodup.append ((directory.distinct.sublist ?_)) (List.nodup_singleton _) ?_
    · exact List.filter_sublist.map _
    · intro stem hmem hsingle
      obtain ⟨other, hother, rfl⟩ := List.mem_map.mp hmem
      exact of_decide_eq_true (List.mem_filter.mp hother).2 (List.mem_singleton.mp hsingle)

def drop (directory : ModuleDirectory) (stem : String) : ModuleDirectory where
  files := directory.files.filter (·.stem ≠ stem)
  distinct := directory.distinct.sublist (List.filter_sublist.map _)

def lookup (directory : ModuleDirectory) (stem : String) : Option ManifestFile :=
  directory.files.find? (·.stem = stem)

variable {directory : ModuleDirectory} {file other : ManifestFile} {stem id : String}
  {spec : ModuleSpec}

theorem mem_place : other ∈ (place directory file).files ↔
    other ∈ directory.files ∧ other.stem ≠ file.stem ∨ other = file := by
  rw [place, List.mem_append, List.mem_filter, decide_eq_true_eq, List.mem_singleton]

theorem mem_drop : other ∈ (drop directory stem).files ↔
    other ∈ directory.files ∧ other.stem ≠ stem := by
  rw [drop, List.mem_filter, decide_eq_true_eq]

theorem lookup_eq_some : lookup directory stem = some file ↔
    file ∈ directory.files ∧ file.stem = stem := by
  constructor
  · intro h
    exact ⟨List.mem_of_find?_eq_some h, by simpa using List.find?_some h⟩
  · intro h
    obtain ⟨hmem, rfl⟩ := h
    exact find?_stem hmem

theorem lookup_eq_none : lookup directory stem = none ↔
    ∀ file ∈ directory.files, file.stem ≠ stem := by
  rw [lookup, List.find?_eq_none]
  simp only [decide_eq_true_eq, ne_eq]

theorem foldlM_addSpec_ok {files : List ManifestFile} {specs : List ModuleSpec}
    (hdistinct : (files.map (·.stem)).Nodup)
    (hfresh : ∀ spec ∈ specs, ∀ file ∈ files, spec.id ≠ file.stem)
    (hread : ∀ file ∈ files, ∃ spec, readManifest file = .ok spec) :
    ∃ specs', files.foldlM addSpec specs = .ok specs' ∧
      ∀ spec, spec ∈ specs' ↔ spec ∈ specs ∨ ∃ file ∈ files, readManifest file = .ok spec := by
  induction files generalizing specs with
  | nil => exact ⟨specs, rfl, by simp⟩
  | cons file rest ih =>
    rw [List.map_cons, List.nodup_cons] at hdistinct
    rw [List.forall_mem_cons] at hread
    obtain ⟨⟨spec, hspec⟩, hrest⟩ := hread
    have hid := (readManifest_ok hspec).1
    have hadd : addSpec specs file = .ok (specs ++ [spec]) := by
      have hnone : ¬specs.any (·.id = spec.id) = true := by
        rw [List.any_eq_true]
        rintro ⟨earlier, hearlier, hsame⟩
        exact hfresh earlier hearlier file List.mem_cons_self
          ((of_decide_eq_true hsame).trans hid)
      rw [addSpec, hspec, Except.ok_bind, if_neg hnone]
      rfl
    obtain ⟨specs', hfold, hmem⟩ := @ih (specs ++ [spec]) hdistinct.2 (by
      intro earlier hearlier next hnext hsame
      rcases List.mem_append.mp hearlier with hearlier | hearlier
      · exact hfresh earlier hearlier next (List.mem_cons_of_mem _ hnext) hsame
      · rw [List.mem_singleton.mp hearlier, hid] at hsame
        exact hdistinct.1 (hsame ▸ List.mem_map_of_mem hnext)) hrest
    refine ⟨specs', ?_, fun found ↦ ?_⟩
    · rw [List.foldlM_cons, hadd]
      exact hfold
    · rw [hmem, List.mem_append, List.mem_singleton, or_assoc]
      refine or_congr_right ⟨?_, ?_⟩
      · rintro (rfl | ⟨next, hnext, hread⟩)
        · exact ⟨file, List.mem_cons_self, hspec⟩
        · exact ⟨next, List.mem_cons_of_mem _ hnext, hread⟩
      · rintro ⟨next, hnext, hread⟩
        rcases List.mem_cons.mp hnext with rfl | hnext
        · exact .inl (Except.ok.inj (hread.symm.trans hspec))
        · exact .inr ⟨next, hnext, hread⟩

def Readable (directory : ModuleDirectory) : Prop :=
  ∀ file ∈ directory.files, ∃ spec, readManifest file = .ok spec

theorem loadRegistry_of_readable (h : Readable directory) :
    ∃ specs, loadRegistry directory = .ok specs ∧
      ∀ spec, spec ∈ specs ↔ ∃ file ∈ directory.files, readManifest file = .ok spec := by
  have hperm := List.mergeSort_perm directory.files fun a b ↦ decide (a.path.display ≤ b.path.display)
  obtain ⟨read, hread, hmem⟩ := foldlM_addSpec_ok
    ((hperm.map (·.stem)).nodup_iff.mpr directory.distinct) (List.forall_mem_nil _)
    fun file hfile ↦ h file (hperm.mem_iff.mp hfile)
  refine ⟨read.mergeSort fun a b ↦ a.id ≤ b.id, ?_, fun spec ↦ ?_⟩
  · rw [loadRegistry, hread]
    rfl
  · rw [List.mem_mergeSort, hmem]
    simp only [List.not_mem_nil, false_or, hperm.mem_iff]

theorem readable_of_foldlM {files : List ManifestFile} {specs specs' : List ModuleSpec}
    (h : files.foldlM addSpec specs = .ok specs') :
    ∀ file ∈ files, ∃ spec, readManifest file = .ok spec := by
  induction files generalizing specs with
  | nil => exact List.forall_mem_nil _
  | cons file files ih =>
    rw [List.foldlM_cons] at h
    obtain ⟨next, hnext, hrest⟩ := Except.bind_eq_ok.mp h
    obtain ⟨spec, hread, -⟩ := Except.bind_eq_ok.mp hnext
    exact List.forall_mem_cons.mpr ⟨⟨spec, hread⟩, ih hrest⟩

theorem readable_of_loadRegistry {specs : List ModuleSpec} (h : loadRegistry directory = .ok specs) :
    Readable directory := by
  obtain ⟨read, hread, -⟩ := Except.bind_eq_ok.mp h
  exact fun file hfile ↦ readable_of_foldlM hread file (List.mem_mergeSort.mpr hfile)

end StealthHub.Updater

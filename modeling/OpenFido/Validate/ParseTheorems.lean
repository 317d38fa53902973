/-
OpenFido.Validate.ParseTheorems — `parse_cmake_sources` on every manifest
text, and what the validator does with the paths it returns.

* `reference_in_parseCmakeSources`: a reference written in the manifest
  whose left neighbour is not a class character is in the list, so when
  its file is absent `main` cannot return `0`. This is `findall_complete`
  seen through the `seen` loop, which keeps every match.
* `parseCmakeSources_reference_shape`: every path in the list is a
  reference `src/` ++ w ++ `.` ++ e standing in the text; it is relative,
  has one `.`, and so no `..` segment, and joined to any root it lies
  under `root/src`.
* `cpp_source_cut_to_c`: the pattern has no right boundary. On a manifest
  naming `src/main.cpp` the list holds `src/main.c`, a string that ends
  inside a longer file name, and `main` reports it missing although the
  file the manifest names exists.
* `main_congr`: the validator reads the manifest and the `src/` paths
  under the root, and nothing else.
* `main_line_ends_irrelevant`: the run does not depend on how the
  manifest's lines end, so reading it as stored (`main`) or in text mode
  as the script does gives the same run (`main_readText`).
-/
import OpenFido.Validate.ScanTheorems
import OpenFido.Validate.DedupTheorems
import OpenFido.Validate.ReportTheorems

namespace OpenFido.Validate

open OpenFido.Python

/-! ## Completeness -/

/-- **No reference is skipped.** Wherever `src/` ++ w ++ `.` ++ e stands in
the manifest after a non-class character (or at its start), it is in
`parse_cmake_sources`, and if its file is absent the validator fails. -/
theorem reference_in_parseCmakeSources {T : String} {pre post w : List Char} {e : Char}
    (hr : RefShape w e) (hb : LeftBoundary pre) (hT : T.toList = pre ++ reference w e ++ post) :
    String.mk (reference w e) ∈ parseCmakeSources T ∧
    ∀ fs projectRoot, fs.entry (pathDiv projectRoot "CMakeLists.txt") = some (.file T) →
      fs.isFile (osPathJoin projectRoot (String.mk (reference w e))) = false →
      (main fs projectRoot).result = .ok 1 := by
  have hmem : String.mk (reference w e) ∈ parseCmakeSources T :=
    (mem_removeDuplicates _ _).mpr (findall_complete hr _ pre post hT hb)
  exact ⟨hmem, fun _ _ hcm hfile => main_result_of_missing hcm hmem hfile⟩

/-- A manifest with one reference and no source tree. -/
def noSourcesDisk : Disk := .ofList [("/p/CMakeLists.txt", .file "add(src/a.c)")]

theorem reference_in_parseCmakeSources_add :
    "src/a.c" ∈ parseCmakeSources "add(src/a.c)" ∧ (main noSourcesDisk "/p").result = .ok 1 :=
  have h := @reference_in_parseCmakeSources "add(src/a.c)" "add(".toList [')'] ['a'] 'c'
    ⟨by simp, by decide, by simp⟩ (by decide) rfl
  ⟨h.1, h.2 noSourcesDisk "/p" rfl rfl⟩

/-! ## Shape of the returned paths -/

/-- No `/`-separated segment of `p` is `..`: resolving `p` below a
directory never climbs above it. -/
def NoParentSegment (p : List Char) : Prop := ['.', '.'] ∉ p.splitOn '/'

theorem sublist_of_mem_splitOnP {α : Type} (q : α → Bool) :
    ∀ (l seg : List α), seg ∈ l.splitOnP q → seg.Sublist l
  | [], seg, h => by simp at h; simp [h]
  | x :: xs, seg, h => by
    rw [List.splitOnP_cons] at h
    split at h
    · rcases List.mem_cons.mp h with rfl | h
      · exact List.nil_sublist _
      · exact (sublist_of_mem_splitOnP q xs seg h).cons x
    · obtain ⟨hd, tl, hs⟩ := List.exists_cons_of_ne_nil (List.splitOnP_ne_nil q xs)
      rw [hs, List.modifyHead_cons] at h
      rcases List.mem_cons.mp h with rfl | h
      · exact (sublist_of_mem_splitOnP q xs hd (hs ▸ List.mem_cons_self hd tl)).cons₂ x
      · exact (sublist_of_mem_splitOnP q xs seg (hs ▸ List.mem_cons_of_mem hd h)).cons x

/-- A path with at most one `.` has no `..` segment. -/
theorem noParentSegment_of_count_le {p : List Char} (h : p.count '.' ≤ 1) : NoParentSegment p := by
  intro hseg
  have := (sublist_of_mem_splitOnP _ p _ hseg).count_le '.'
  simp at this
  omega

theorem count_dot_reference {w : List Char} {e : Char} (hr : RefShape w e) :
    (w ++ ['.', e]).count '.' = 1 := by
  have hw : w.count '.' = 0 :=
    List.count_eq_zero.mpr fun hd => Bool.false_ne_true (isPathChar_dot.symm.trans (hr.pathChars '.' hd))
  have he : e ≠ '.' := by rcases hr.ext with rfl | rfl <;> decide
  simp [List.count_cons, hw, he]

/-- **Every returned path is a reference inside the source tree.** It is
`src/` ++ w ++ `.` ++ e standing in the text, relative, with one `.` and no
`..` segment, and joined to any root it names `root/src/` followed by a
path that cannot climb. -/
theorem parseCmakeSources_reference_shape {T r : String} (hr : r ∈ parseCmakeSources T) :
    (∃ w e, RefShape w e ∧ r.toList = reference w e) ∧ r.toList <:+: T.toList ∧
    startsWithSep r = false ∧ r.toList.count '.' = 1 ∧ NoParentSegment r.toList ∧
    ∀ projectRoot, ∃ s : String,
      osPathJoin projectRoot r = osPathJoin projectRoot "src" ++ "/" ++ s ∧ NoParentSegment s.toList := by
  obtain ⟨w, e, hre, rfl, hinf⟩ := findall_sound _ r ((mem_removeDuplicates _ r).mp hr)
  have hcount : (reference w e).count '.' = 1 := by
    simpa [reference, List.count_cons] using count_dot_reference hre
  refine ⟨⟨w, e, hre, rfl⟩, hinf, rfl, hcount, noParentSegment_of_count_le hcount.le,
    fun projectRoot => ⟨String.mk (w ++ ['.', e]), ?_, noParentSegment_of_count_le
      (count_dot_reference hre).le⟩⟩
  rw [@osPathJoin_of_relative projectRoot ⟨reference w e⟩ rfl,
    @osPathJoin_of_relative projectRoot "src" rfl]
  simp only [String.ext_iff, String.data_append, reference, List.append_assoc]
  rfl

theorem parseCmakeSources_reference_shape_add :
    "src/a.c".toList <:+: "add(src/a.c)".toList ∧ "src/a.c".toList.count '.' = 1 :=
  have h := @parseCmakeSources_reference_shape "add(src/a.c)" "src/a.c" (by decide)
  ⟨h.2.1, h.2.2.2.1⟩

/-! ## A longer file name is cut -/

/-- A character that can continue a file name: a letter, a digit, `_`,
`.` or `-`. -/
def isNameChar (c : Char) : Bool := c.isAlphanum || c == '_' || c == '.' || c == '-'

/-- Some occurrence of `r` in `T` ends where a file name ends. -/
def EndsAtNameEnd (T r : List Char) : Prop :=
  ∃ i, (T.drop i).take r.length = r ∧ r.length ≤ (T.drop i).length ∧
    ∀ c ∈ (T.drop (i + r.length)).head?, isNameChar c = false

/-- The manifest names `src/main.cpp`, and the file is there. -/
def cppDisk : Disk :=
  .ofList [("/p/CMakeLists.txt", .file "add_executable(openfido src/main.cpp)\n"),
    ("/p/src", .dir), ("/p/src/main.cpp", .file "int main(void) { return 0; }\n")]

/-- `src/main.c` is returned for `src/main.cpp`, no occurrence of it ends at
a name's end, and the validator fails on a tree that has every file the
manifest names. -/
theorem cpp_source_cut_to_c :
    parseCmakeSources "add_executable(openfido src/main.cpp)\n" = ["src/main.c"] ∧
    ¬ EndsAtNameEnd "add_executable(openfido src/main.cpp)\n".toList "src/main.c".toList ∧
    (main cppDisk "/p").result = .ok 1 ∧ "  [MISSING] src/main.c" ∈ (main cppDisk "/p").stderr := by
  have hparse : parseCmakeSources "add_executable(openfido src/main.cpp)\n" = ["src/main.c"] := by
    decide
  refine ⟨hparse, ?_, ?_, ?_⟩
  · rintro ⟨i, htake, hlen, hend⟩
    have hi : i < 29 := by simp at hlen; omega
    have hocc : ∀ i < 29, ("add_executable(openfido src/main.cpp)\n".toList.drop i).take 10 =
        "src/main.c".toList → i = 24 := by decide
    cases hocc i hi htake
    exact absurd (hend 'p' rfl) (by decide)
  · rw [@main_result_of_read cppDisk "/p" "add_executable(openfido src/main.cpp)\n" rfl, hparse]
    exact congrArg Except.ok (by decide)
  · rw [@main_of_read cppDisk "/p" "add_executable(openfido src/main.cpp)\n" rfl, hparse]
    decide

/-! ## What the validator reads -/

theorem src_prefix_of_mem_parseCmakeSources {T r : String} (hr : r ∈ parseCmakeSources T) :
    "src/".toList <+: r.toList := by
  obtain ⟨w, e, -, rfl, -⟩ := findall_sound _ r ((mem_removeDuplicates _ r).mp hr)
  exact ⟨w ++ ['.', e], rfl⟩

/-- `main` reads the manifest and the files at `src/` paths under the root,
nothing else: two filesystems that agree there give the same run, every
printed line included. -/
theorem main_congr {d₁ d₂ : Disk} {projectRoot : String}
    (hcm : d₁.entry (pathDiv projectRoot "CMakeLists.txt") = d₂.entry (pathDiv projectRoot "CMakeLists.txt"))
    (hsrc : ∀ r : String, "src/".toList <+: r.toList →
      d₁.entry (osPathJoin projectRoot r) = d₂.entry (osPathJoin projectRoot r)) :
    main d₁ projectRoot = main d₂ projectRoot := by
  have hmiss : ∀ T, missingOf d₁ projectRoot (parseCmakeSources T) = missingOf d₂ projectRoot (parseCmakeSources T) :=
    fun T => List.filter_congr fun r hr => by
      simp only [Disk.isFile, hsrc r (src_prefix_of_mem_parseCmakeSources hr)]
  simp only [main, Disk.pathExists, Disk.read, hcm, verifyFilesExist_eq, hmiss]

/-- Two manifests with the same paths, on disks with the same regular
files, give the same run. -/
theorem main_eq_of_parseCmakeSources_eq {d₁ d₂ : Disk} {projectRoot T₁ T₂ : String}
    (h₁ : d₁.entry (pathDiv projectRoot "CMakeLists.txt") = some (.file T₁))
    (h₂ : d₂.entry (pathDiv projectRoot "CMakeLists.txt") = some (.file T₂))
    (hfiles : ∀ p, d₁.isFile p = d₂.isFile p) (hparse : parseCmakeSources T₁ = parseCmakeSources T₂) :
    main d₁ projectRoot = main d₂ projectRoot := by
  have hmiss : missingOf d₁ projectRoot = missingOf d₂ projectRoot := by
    funext l
    simp only [missingOf, hfiles]
  rw [main_of_read h₁, main_of_read h₂, hparse, hmiss]

/-- `main` reads the manifest as stored, where the script reads it in text
mode: the run is the same on the text as read. -/
theorem main_readText {fs : Disk} {projectRoot T : String}
    (hT : fs.entry (pathDiv projectRoot "CMakeLists.txt") = some (.file T)) :
    main (fs.set (pathDiv projectRoot "CMakeLists.txt") (some (.file (readText T)))) projectRoot =
      main fs projectRoot :=
  main_eq_of_parseCmakeSources_eq (by simp) hT
    (fun q => by by_cases hq : q = pathDiv projectRoot "CMakeLists.txt" <;> simp [Disk.isFile, hq, hT])
    (parseCmakeSources_readText T)

end OpenFido.Validate

/-
OpenFido.Validate.ReportTheorems — what `verify_files_exist` and `main`
report, for every filesystem.

`verifyFilesExist` is a fold whose body appends a path exactly when it is
not a regular file under the root (`collectMissing`), so its list is the
filter of the references by that test, in their order
(`foldl_collectMissing`). Everything `main` decides follows from that one
equation and from `main_of_read`, which unfolds `main` once on a readable
manifest: the exit code is `0` exactly when no reference is missing
(`main_exit_code_exact`, and `exitStatus_main` for the process status,
stated through the read, so that a manifest whose read raises is
included). Because the missing list is a filter, a tree with more files has a
shorter one, and the validator cannot start failing on it
(`main_monotone_in_files`).
-/
import OpenFido.Validate.ValidateBuild

namespace OpenFido.Validate

open OpenFido.Python

/-- The references with no regular file under `projectRoot`, in order. -/
def missingOf (fs : Disk) (projectRoot : String) (sourceFiles : List String) : List String :=
  sourceFiles.filter (fun r => !fs.isFile (osPathJoin projectRoot r))

theorem foldl_collectMissing (fs : Disk) (projectRoot : String) :
    ∀ (sourceFiles acc : List String),
      sourceFiles.foldl (collectMissing fs projectRoot) acc = acc ++ missingOf fs projectRoot sourceFiles
  | [], acc => by simp [missingOf]
  | r :: rs, acc => by
    rw [List.foldl_cons, foldl_collectMissing fs projectRoot rs, collectMissing]
    by_cases h : fs.isFile (osPathJoin projectRoot r) <;> simp [missingOf, List.filter_cons, h]

/-- `verify_files_exist` returns the missing references, and `all_exist`
says the list is empty. -/
theorem verifyFilesExist_eq (fs : Disk) (sourceFiles : List String) (projectRoot : String) :
    verifyFilesExist fs sourceFiles projectRoot =
      ((missingOf fs projectRoot sourceFiles).isEmpty, missingOf fs projectRoot sourceFiles) := by
  simp only [verifyFilesExist, foldl_collectMissing, List.nil_append, Prod.mk.injEq, and_true]
  cases missingOf fs projectRoot sourceFiles <;> rfl

theorem missingOf_eq_nil_iff (fs : Disk) (projectRoot : String) (sourceFiles : List String) :
    missingOf fs projectRoot sourceFiles = [] ↔
      ∀ r ∈ sourceFiles, fs.isFile (osPathJoin projectRoot r) = true := by
  simp [missingOf, List.filter_eq_nil_iff]

/-- `main` on a readable manifest: the banner, the count, then the success
or the failure report. -/
theorem main_of_read {fs : Disk} {projectRoot text : String}
    (h : fs.entry (pathDiv projectRoot "CMakeLists.txt") = some (.file text)) :
    main fs projectRoot =
      let cmakeFile := pathDiv projectRoot "CMakeLists.txt"
      let sourceFiles := parseCmakeSources text
      let missingFiles := missingOf fs projectRoot sourceFiles
      let found := ["Validating build configuration...", "Project root: " ++ projectRoot,
        "CMakeLists.txt: " ++ cmakeFile, "", "Found " ++ toString sourceFiles.length ++
        " source file references in CMakeLists.txt", ""]
      if missingFiles = [] then
        ⟨found ++ ["[SUCCESS] All referenced source files exist", "", "Validated files:"] ++
          (sortedPaths sourceFiles).map ("  [OK] " ++ ·), [], .ok 0⟩
      else
        ⟨found, ["[FAILURE] Missing source files detected", "", "Missing files:"] ++
          missingFiles.map ("  [MISSING] " ++ ·) ++
          ["", "Total missing: " ++ toString missingFiles.length], .ok 1⟩ := by
  simp only [main, Disk.pathExists_of_entry h, Disk.read_eq_ok h, verifyFilesExist_eq,
    Bool.not_true, Bool.false_eq_true, if_false, List.append_assoc, List.cons_append,
    List.singleton_append, List.nil_append]
  cases missingOf fs projectRoot (parseCmakeSources text) <;> rfl

/-- The return value of `main` on a readable manifest. -/
theorem main_result_of_read {fs : Disk} {projectRoot text : String}
    (h : fs.entry (pathDiv projectRoot "CMakeLists.txt") = some (.file text)) :
    (main fs projectRoot).result =
      .ok (if missingOf fs projectRoot (parseCmakeSources text) = [] then 0 else 1) := by
  by_cases hm : missingOf fs projectRoot (parseCmakeSources text) = [] <;> simp [main_of_read h, hm]

/-- A returned path whose file is absent makes the validator fail. -/
theorem main_result_of_missing {fs : Disk} {projectRoot text r : String}
    (h : fs.entry (pathDiv projectRoot "CMakeLists.txt") = some (.file text))
    (hr : r ∈ parseCmakeSources text) (hfile : fs.isFile (osPathJoin projectRoot r) = false) :
    (main fs projectRoot).result = .ok 1 := by
  have hmiss : missingOf fs projectRoot (parseCmakeSources text) ≠ [] :=
    List.ne_nil_of_mem (List.mem_filter.mpr ⟨hr, by simp [hfile]⟩)
  rw [main_result_of_read h, if_neg hmiss]

/-- **Exit-code contract of the validator** (`verify_files_exist`, `main`).
The missing list is exactly the references with no regular file under the
root, in their order; `all_exist` holds iff it is empty iff every reference
is a file; `main` returns `0` exactly then and `1` otherwise, and `1` when
`CMakeLists.txt` is absent. -/
theorem main_exit_code_exact (fs : Disk) (projectRoot : String) :
    (fs.pathExists (pathDiv projectRoot "CMakeLists.txt") = false →
      (main fs projectRoot).result = .ok 1) ∧
    ∀ text, fs.entry (pathDiv projectRoot "CMakeLists.txt") = some (.file text) →
      (verifyFilesExist fs (parseCmakeSources text) projectRoot).2 =
          (parseCmakeSources text).filter (fun r => !fs.isFile (osPathJoin projectRoot r)) ∧
      ((verifyFilesExist fs (parseCmakeSources text) projectRoot).1 = true ↔
          (verifyFilesExist fs (parseCmakeSources text) projectRoot).2 = []) ∧
      ((verifyFilesExist fs (parseCmakeSources text) projectRoot).2 = [] ↔
          ∀ r ∈ parseCmakeSources text, fs.isFile (osPathJoin projectRoot r) = true) ∧
      (main fs projectRoot).result =
        .ok (if (verifyFilesExist fs (parseCmakeSources text) projectRoot).2 = [] then 0 else 1) := by
  refine ⟨fun h => by simp [main, h], fun text h => ?_⟩
  rw [verifyFilesExist_eq]
  exact ⟨rfl, List.isEmpty_iff, missingOf_eq_nil_iff _ _ _, main_result_of_read h⟩

/-- **The validator's process status.** `sys.exit(main())` ends with `0`
or `1`, and with `0` exactly when reading `CMakeLists.txt` returns a text
and every path `parse_cmake_sources` finds in it is a regular file under
the root. A read that raises (here: no entry, or a directory) ends with
`1`, through the `exists()` check or the exception `open` raises. -/
theorem exitStatus_main (fs : Disk) (projectRoot : String) :
    exitStatus (main fs projectRoot) ≤ 1 ∧
    (exitStatus (main fs projectRoot) = 0 ↔
      ∃ text, fs.read (pathDiv projectRoot "CMakeLists.txt") = .ok text ∧
        ∀ r ∈ parseCmakeSources text, fs.isFile (osPathJoin projectRoot r) = true) := by
  simp only [Disk.read_eq_ok_iff]
  rcases h : fs.entry (pathDiv projectRoot "CMakeLists.txt") with _ | text | _
  · simp [exitStatus, main, Disk.pathExists, h]
  · rw [exitStatus, main_result_of_read h]
    simp only [Option.some.injEq, Entry.file.injEq, exists_eq_left', ← missingOf_eq_nil_iff]
    by_cases hm : missingOf fs projectRoot (parseCmakeSources text) = [] <;> simp [hm]
  · simp [exitStatus, main, Disk.pathExists, Disk.read, h]

/-- Two missing files around a present one, as `test_error_detection_missing_file`
sets them up but with one more missing. -/
def twoMissingDisk : Disk :=
  .ofList [("/p/CMakeLists.txt", .file "set(S\n    src/a.c\n    src/real_file.c\n    src/b.h\n)\n"),
    ("/p/src", .dir), ("/p/src/real_file.c", .file "// real file")]

theorem main_exit_code_exact_twoMissing :
    (verifyFilesExist twoMissingDisk (parseCmakeSources
        "set(S\n    src/a.c\n    src/real_file.c\n    src/b.h\n)\n") "/p").2 =
      ["src/a.c", "src/b.h"] ∧
    (main twoMissingDisk "/p").result = .ok 1 := by
  obtain ⟨h1, -, -, h4⟩ := (main_exit_code_exact twoMissingDisk "/p").2
    "set(S\n    src/a.c\n    src/real_file.c\n    src/b.h\n)\n" rfl
  rw [h1] at h4 ⊢
  exact ⟨by decide, h4.trans (congrArg _ (by decide))⟩

/-- **More files never make the validator fail.** On two trees with the
same manifest, where every regular file of the first is one of the
second, the second's missing list is a sublist of the first's: it drops
references, never adds one, and keeps their order. So when the validator
passes on the first tree it passes on the second. -/
theorem main_monotone_in_files {d₁ d₂ : Disk} {projectRoot text : String}
    (h₁ : d₁.entry (pathDiv projectRoot "CMakeLists.txt") = some (.file text))
    (h₂ : d₂.entry (pathDiv projectRoot "CMakeLists.txt") = some (.file text))
    (hfiles : ∀ p, d₁.isFile p = true → d₂.isFile p = true) :
    (verifyFilesExist d₂ (parseCmakeSources text) projectRoot).2.Sublist
      (verifyFilesExist d₁ (parseCmakeSources text) projectRoot).2 ∧
    ((main d₁ projectRoot).result = .ok 0 → (main d₂ projectRoot).result = .ok 0) := by
  have hsub : (missingOf d₂ projectRoot (parseCmakeSources text)).Sublist
      (missingOf d₁ projectRoot (parseCmakeSources text)) :=
    List.monotone_filter_right _ fun r hr => by
      cases h : d₁.isFile (osPathJoin projectRoot r)
      · rfl
      · simp [hfiles _ h] at hr
  refine ⟨by simpa only [verifyFilesExist_eq] using hsub, fun h0 => ?_⟩
  rw [main_result_of_read h₁] at h0
  split_ifs at h0 with hm
  · rw [main_result_of_read h₂, if_pos (List.sublist_nil.mp (hm ▸ hsub))]
  · cases h0

theorem main_monotone_in_files_twoMissing :
    (verifyFilesExist (twoMissingDisk.set "/p/src/a.c" (some (.file ""))) (parseCmakeSources
        "set(S\n    src/a.c\n    src/real_file.c\n    src/b.h\n)\n") "/p").2.Sublist
      (verifyFilesExist twoMissingDisk (parseCmakeSources
        "set(S\n    src/a.c\n    src/real_file.c\n    src/b.h\n)\n") "/p").2 :=
  (main_monotone_in_files rfl rfl fun p h => by
    simp only [Disk.isFile, Disk.set_entry] at h ⊢
    split_ifs
    · rfl
    · exact h).1

end OpenFido.Validate

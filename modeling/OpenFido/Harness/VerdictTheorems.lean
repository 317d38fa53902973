/-
OpenFido.Harness.VerdictTheorems — what the exit code of the mutation
harness says.

On a run that raises nothing, `main` returns `0` ("All tests PASSED")
exactly when both existence checks pass and the build system rejected the
mutated manifest (`buildRejected`): `cmake` exited non-zero, or it exited
`0` and the build (`mingw32-make`, or `make` when that is not found)
exited non-zero. The verdict reads the commands' return codes and
nothing else: the search of their output for the missing file's name
only decides what is printed.

The proof follows the run. Each command of Steps 3 and 4 has a spec
lemma giving its value and saying it touches only the disk
(`run_runCmakeReconfigure`, `runMakeBuild_run`); the file operations and
the `finally` block leave `exit_code` alone; `mutateAndBuild_exitCode`
reads the exit code off the branch the body took.

What is printed about the output is chosen by `found_error` and the
excerpt loop. `str.lower` is a parameter; what the proofs use of it
(`LineLocal`) holds of Python's: it lower-cases each line on its own,
since the one mapping that reads context, the final sigma, looks only at
the letters around it and a newline is neither cased nor case-ignorable,
and it puts no newline into a text without one. Then a pattern without a
newline occurs in the lower-cased output exactly when it occurs in one
lower-cased line (`infix_intercalate_iff`), and the harness says the
message names the file exactly when the excerpt it prints has a line
(`foundError_iff_excerpt`).
-/
import OpenFido.Harness.RestoreTheorems

namespace OpenFido.Harness

open OpenFido.Python

/-! ## The commands -/

/-- What `run_cmake_reconfigure` returns, or raises. -/
def reconfigureResult {b : String} (env : Env b) : Except PyExc (Option CompletedProcess) :=
  match env.cmake.result with
  | .ok r => .ok (some r)
  | .error .timeoutExpired => .ok none
  | .error e => .error e

/-- What `run_make_build` returns, or raises. -/
def makeBuildResult {b : String} (env : Env b) : Except PyExc (Option CompletedProcess) :=
  match env.mingwMake.result with
  | .ok r => .ok (some r)
  | .error .timeoutExpired => .ok none
  | .error .fileNotFoundError =>
    match env.make.result with
    | .ok r => .ok (some r)
    | .error _ => .ok none
  | .error e => .error e

/-- Whether the build system rejected the mutated manifest, as the verdict
reads it: `cmake` exited non-zero, or it exited `0` and the build exited
non-zero. -/
def buildRejected {b : String} (env : Env b) : Bool :=
  match reconfigureResult env with
  | .ok (some r) =>
    r.returncode != 0 ||
      match makeBuildResult env with
      | .ok (some r') => r'.returncode != 0
      | _ => false
  | _ => false

theorem run_runCmakeReconfigure {b : String} (env : Env b) (w : World) :
    run (runCmakeReconfigure env) w =
      (reconfigureResult env, { w with disk := env.cmake.effect w.disk }) := by
  unfold runCmakeReconfigure reconfigureResult subprocessRun
  rcases env.cmake.result with (_ | _ | _ | _ | _) | r <;> rfl

theorem runMakeBuild_run {b : String} (env : Env b) (w : World) :
    (run (runMakeBuild env) w).1 = makeBuildResult env ∧
      ∃ d, (run (runMakeBuild env) w).2 = { w with disk := d } := by
  unfold runMakeBuild makeBuildResult subprocessRun
  rcases env.mingwMake.result with (_ | _ | _ | _ | _) | r
  case error.fileNotFoundError => rcases env.make.result with _ | r <;> exact ⟨rfl, _, rfl⟩
  all_goals exact ⟨rfl, _, rfl⟩

/-! ## `exit_code` along the run -/

theorem addInvalidFileReference_exitCode {b : String} (env : Env b) (cm : String) (w : World) :
    (run (addInvalidFileReference env cm) w).2.exitCode = w.exitCode := by
  have k : Keeps (fun w' => w'.exitCode = w.exitCode) (addInvalidFileReference env cm) :=
    Keeps.bind (Keeps.of_state (readFile_run _ _)) fun _ =>
      Keeps.bind (Keeps.writeFile (fun _ _ _ hw => hw) _ _) fun _ => Keeps.pure _
  exact k w rfl

theorem mutateAndBuild_exitCode {b : String} (env : Env b) (cm : String) (w : World)
    (h : (run (mutateAndBuild env cm) w).1 = .ok ()) :
    (run (mutateAndBuild env cm) w).2.exitCode = if buildRejected env then w.exitCode else 1 := by
  unfold mutateAndBuild at h ⊢
  obtain ⟨_, w1, h1, hrun⟩ := run_bind_eq_ok h
  have hw1 : w1.exitCode = w.exitCode := by simpa [h1] using addInvalidFileReference_exitCode env cm w
  rw [hrun] at h ⊢
  obtain ⟨r, w2, h2, hrun⟩ := run_bind_eq_ok h
  rw [run_runCmakeReconfigure, Prod.mk.injEq] at h2
  obtain ⟨hr, rfl⟩ := h2
  rw [hrun] at h ⊢
  simp only [buildRejected, hr]
  rcases r with _ | r
  · rfl
  by_cases hz : r.returncode = 0
  · simp only [hz, ne_eq, not_true_eq_false, if_false, bne_self_eq_false, Bool.false_or] at h ⊢
    obtain ⟨r', w3, h3, hrun⟩ := run_bind_eq_ok h
    obtain ⟨hm, d, hd⟩ := runMakeBuild_run env { w1 with disk := env.cmake.effect w1.disk }
    rw [h3] at hm hd
    cases hd
    rw [hrun] at h ⊢
    rw [← hm]
    rcases r' with _ | r'
    · rfl
    · by_cases hz' : r'.returncode = 0 <;> simp [hz', setExitCode, run_bind, run_raiseIf, hw1]
  · simp [hz, run_raiseIf, hw1]

theorem mainBody_exitCode {b : String} (env : Env b) (cm : String) (w : World)
    (h : (run (mainBody env cm) w).1 = .ok ()) :
    (run (mainBody env cm) w).2.exitCode = if buildRejected env then w.exitCode else 1 := by
  unfold mainBody at h ⊢
  obtain ⟨_, w1, h1, hrun⟩ := run_bind_eq_ok h
  have hw1 : w1.exitCode = w.exitCode := by
    have k : Keeps (fun w' => w'.exitCode = w.exitCode) (backupFile env cm) :=
      Keeps.bind (Keeps.copy2 (fun _ _ _ hw => hw) _ _ _) fun _ => Keeps.pure _
    simpa [h1] using k w rfl
  rw [hrun] at h ⊢
  simp only [run_bind, run_modify] at h ⊢
  rw [mutateAndBuild_exitCode env cm _ h, hw1]

/-- The `finally` block leaves `exit_code` alone. -/
theorem mainFinally_exitCode {b : String} (env : Env b) (cm : String) (w : World) :
    (run (mainFinally env cm) w).2.exitCode = w.exitCode := by
  have k : Keeps (fun w' => w'.exitCode = w.exitCode) (mainFinally env cm) := by
    refine Keeps.bind (Keeps.of_state fun _ => rfl) fun w' => ?_
    split
    · split
      · exact Keeps.bind (Keeps.copy2 (fun _ _ _ hw => hw) _ _ _) fun _ =>
          Keeps.osRemove (fun _ _ _ hw => hw) _ _
      · exact Keeps.pure _
    · exact Keeps.pure _
  exact k w rfl

/-- A run of `main` that returned `n`: both checks passed, the `try` body
and the `finally` block returned, and `n` is `0` exactly when the build
system rejected the manifest; or a check failed and `n` is `1`. -/
theorem main_returned {projectRoot : String} {env : Env (buildDirOf projectRoot)} {w : World} {n : Nat}
    (h : (run (main projectRoot env) w).1 = .ok n) :
    (w.disk.pathExists (cmakeFileOf projectRoot) = true ∧ w.disk.pathExists (buildDirOf projectRoot) = true ∧
      (run (mainBody env (cmakeFileOf projectRoot)) { w with backupPath := none, exitCode := 0 }).1 = .ok () ∧
      (run (mainFinally env (cmakeFileOf projectRoot)) (finallyEntry projectRoot env w)).1 = .ok () ∧
      n = if buildRejected env then 0 else 1) ∨
    (¬ (w.disk.pathExists (cmakeFileOf projectRoot) = true ∧
      w.disk.pathExists (buildDirOf projectRoot) = true) ∧ n = 1) := by
  rw [run_main] at h
  by_cases hcb : w.disk.pathExists (cmakeFileOf projectRoot) && w.disk.pathExists (buildDirOf projectRoot)
  · rw [if_pos hcb] at h
    rw [Bool.and_eq_true] at hcb
    rcases hr : run (withFinally (mainBody env (cmakeFileOf projectRoot))
        (mainFinally env (cmakeFileOf projectRoot))) { w with backupPath := none, exitCode := 0 }
      with ⟨_ | _, w'⟩ <;> rw [hr] at h <;> cases h
    obtain ⟨hbody, hfin⟩ := run_withFinally_eq_ok (congrArg Prod.fst hr)
    have hs : w' = (run (mainFinally env (cmakeFileOf projectRoot)) (finallyEntry projectRoot env w)).2 := by
      rw [finallyEntry, ← run_withFinally_state, hr]
    refine .inl ⟨hcb.1, hcb.2, hbody, hfin, ?_⟩
    rw [hs, mainFinally_exitCode, finallyEntry, mainBody_exitCode env _ _ hbody]
  · rw [if_neg hcb] at h
    cases h
    exact .inr ⟨fun ⟨hc, hb⟩ => hcb (by simp [hc, hb]), rfl⟩

/-- **The harness passes exactly when the build system rejected the
mutated manifest.** On every run of `main` that returns, whatever the
file operations, commands and inspections did, the exit code is `0`
exactly when `CMakeLists.txt` and the build directory exist and `cmake`
exited non-zero, or it exited `0` and the build exited non-zero. Only
the return codes are read. -/
theorem main_passes_iff_build_rejected (projectRoot : String) (env : Env (buildDirOf projectRoot))
    (w : World) {n : Nat} (h : (run (main projectRoot env) w).1 = .ok n) :
    n = 0 ↔ w.disk.pathExists (cmakeFileOf projectRoot) = true ∧
      w.disk.pathExists (buildDirOf projectRoot) = true ∧ buildRejected env = true := by
  rcases main_returned h with ⟨hc, hb, -, -, rfl⟩ | ⟨hcb, rfl⟩
  · cases buildRejected env <;> simp [hc, hb]
  · exact iff_of_false (by omega) fun ⟨hc, hb, _⟩ => hcb ⟨hc, hb⟩

theorem main_passes_iff_build_rejected_cmakeRejects :
    (run (main "/p" cmakeRejectsEnv) cryptoWorld).1 = .ok 0 ∧ buildRejected cmakeRejectsEnv = true :=
  have h : (run (main "/p" cmakeRejectsEnv) cryptoWorld).1 = .ok 0 := rfl
  ⟨h, ((main_passes_iff_build_rejected "/p" cmakeRejectsEnv cryptoWorld h).mp rfl).2.2⟩

/-! ## What is printed -/

section Separator

variable {α : Type} {c : α}

theorem prefix_of_prefix_append_cons {x : List α} (hx : c ∉ x) :
    ∀ {l r : List α}, x <+: l ++ c :: r → x <+: l
  | [], _, h => by
    rcases List.prefix_cons_iff.mp h with rfl | ⟨t, rfl, -⟩
    · exact List.nil_prefix
    · exact absurd (List.mem_cons_self c t) hx
  | d :: _, _, h => by
    rcases List.prefix_cons_iff.mp h with rfl | ⟨t, rfl, ht⟩
    · exact List.nil_prefix
    · exact (List.prefix_cons_inj d).mpr
        (prefix_of_prefix_append_cons (fun hm => hx (List.mem_cons_of_mem d hm)) ht)

/-- A list without `c` that occurs around a `c` occurs on one side of it. -/
theorem infix_append_cons_iff {x : List α} (hx : c ∉ x) :
    ∀ {l r : List α}, x <:+: l ++ c :: r ↔ x <:+: l ∨ x <:+: r
  | [], r => by
    rw [List.nil_append, List.infix_cons_iff]
    constructor
    · rintro (h | h)
      · rw [List.prefix_nil.mp (@prefix_of_prefix_append_cons _ _ _ hx [] r h)]
        exact .inl List.nil_infix
      · exact .inr h
    · rintro (h | h)
      · exact .inl (List.eq_nil_of_infix_nil h ▸ List.nil_prefix)
      · exact .inr h
  | d :: l, r => by
    rw [List.cons_append, List.infix_cons_iff, infix_append_cons_iff hx, List.infix_cons_iff]
    constructor
    · rintro (h | (h | h))
      · exact .inl (.inl (@prefix_of_prefix_append_cons _ _ _ hx (d :: l) r h))
      · exact .inl (.inr h)
      · exact .inr h
    · rintro ((h | h) | h)
      · exact .inl (h.trans (List.prefix_append _ _))
      · exact .inr (.inl h)
      · exact .inr (.inr h)

/-- A list without `c` occurs in pieces joined by `c` exactly when it
occurs in one of them. -/
theorem infix_intercalate_iff {x : List α} (hx : c ∉ x) :
    ∀ {ls : List (List α)}, ls ≠ [] → (x <:+: [c].intercalate ls ↔ ∃ l ∈ ls, x <:+: l)
  | [], h => absurd rfl h
  | [l], _ => by simp [List.intercalate]
  | l :: l' :: ls, _ => by
    rw [show [c].intercalate (l :: l' :: ls) = l ++ c :: [c].intercalate (l' :: ls) by
        simp [List.intercalate, List.intersperse_cons_cons],
      infix_append_cons_iff hx, infix_intercalate_iff hx (List.cons_ne_nil l' ls)]
    simp

end Separator

/-- What the proofs use of `str.lower`, a premise about Python's, which
is not evaluated here. Python lower-cases code point by code point, but
for the final sigma, whose context is the cased letters around it; a
newline is neither cased nor case-ignorable, so no context crosses one. -/
structure LineLocal (lower : String → String) : Prop where
  /-- Lines joined by newlines are lower-cased line by line, and a newline
  stays a newline. -/
  intercalate : ∀ ls : List String, (lower (String.mk (['\n'].intercalate (ls.map String.toList)))).toList =
    ['\n'].intercalate (ls.map fun l => (lower l).toList)
  /-- No code point lower-cases to a newline. -/
  no_newline : ∀ s : String, '\n' ∉ s.toList → '\n' ∉ (lower s).toList

theorem lower_toList_eq {lower : String → String} (hl : LineLocal lower) (text : String) :
    (lower text).toList = ['\n'].intercalate ((splitNewline text).map fun l => (lower l).toList) := by
  have hs : (splitNewline text).map String.toList = text.toList.splitOn '\n' := by
    rw [splitNewline, List.map_map]
    exact List.map_id _
  have h := hl.intercalate (splitNewline text)
  rw [hs, List.intercalate_splitOn] at h
  exact h

/-- **The harness says the output names the file exactly when it prints
a line that does.** For every output, every lower-casing that works line
by line, and patterns without a newline (those of the harness), the
search `found_error` succeeds exactly when the excerpt it then prints,
the lines whose lower-cased text holds a pattern, is not empty. -/
theorem foundError_iff_excerpt {lower : String → String} (hl : LineLocal lower) {patterns : List String}
    (hp : ∀ p ∈ patterns, '\n' ∉ p.toList) (combinedOutput : String) :
    foundError lower patterns combinedOutput = true ↔ excerptLines lower patterns combinedOutput ≠ [] := by
  have hne : (splitNewline combinedOutput).map (fun l => (lower l).toList) ≠ [] := by
    simpa [splitNewline] using List.splitOnP_ne_nil _ _
  simp only [foundError, excerptLines, mentions, lower_toList_eq hl combinedOutput, ne_eq,
    List.filter_eq_nil_iff, not_forall, not_not, List.any_eq_true, decide_eq_true_eq]
  constructor
  · rintro ⟨p, hpm, hinf⟩
    obtain ⟨_, hmem, hpl⟩ := (infix_intercalate_iff (hl.no_newline p (hp p hpm)) hne).mp hinf
    obtain ⟨l, hl', rfl⟩ := List.mem_map.mp hmem
    exact ⟨l, hl', p, hpm, hpl⟩
  · rintro ⟨l, hl', p, hpm, hpl⟩
    exact ⟨p, hpm, (infix_intercalate_iff (hl.no_newline p (hp p hpm)) hne).mpr
      ⟨_, List.mem_map.mpr ⟨l, hl', rfl⟩, hpl⟩⟩

/-- `str.lower` on ASCII text. -/
def asciiLower (s : String) : String := String.mk (s.toList.map Char.toLower)

theorem toLower_eq_newline {c : Char} (h : c.toLower = '\n') : c = '\n' := by
  simp only [Char.toLower] at h
  split_ifs at h with hu
  · have := congrArg Char.toNat h
    simp [Char.ofNat, Char.ofNatAux, Nat.isValidChar] at this
    split_ifs at this
    · change c.toNat + 32 = 10 at this
      omega
    · cases this
  · exact h

theorem map_intercalate {β γ : Type} (f : β → γ) (sep : List β) :
    ∀ ls : List (List β), (sep.intercalate ls).map f = (sep.map f).intercalate (ls.map (List.map f))
  | [] => rfl
  | [l] => by simp [List.intercalate]
  | l :: l' :: ls => by
    have := map_intercalate f sep (l' :: ls)
    simp only [List.intercalate, List.intersperse_cons_cons, List.flatten_cons, List.map_append,
      List.map_cons] at this ⊢
    rw [this]

theorem lineLocal_asciiLower : LineLocal asciiLower where
  intercalate ls := by
    show List.map Char.toLower (['\n'].intercalate (ls.map String.toList)) =
      ['\n'].intercalate (ls.map fun l => l.toList.map Char.toLower)
    rw [map_intercalate, List.map_map]
    rfl
  no_newline s hs hm := by
    obtain ⟨c, hc, he⟩ := List.mem_map.mp hm
    exact hs (toLower_eq_newline he ▸ hc)

theorem foundError_iff_excerpt_ascii :
    (foundError asciiLower (errorPatterns "src/crypto/nonexistent_file.c")
        "CMake Error:\nNo SUCH FILE: src/crypto/nonexistent_file.c" = true ↔
      excerptLines asciiLower (errorPatterns "src/crypto/nonexistent_file.c")
        "CMake Error:\nNo SUCH FILE: src/crypto/nonexistent_file.c" ≠ []) :=
  foundError_iff_excerpt lineLocal_asciiLower (by decide) _

end OpenFido.Harness

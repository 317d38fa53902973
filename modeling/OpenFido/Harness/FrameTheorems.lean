/-
OpenFido.Harness.FrameTheorems — where the mutation harness writes, and
what `scripts/validate_build.py` sees after it.

§1 Where a copy lands. `shutil.copy2` into a path that is a directory
   writes below it (`copyTarget_eq_or_isUnder`), so the copy of
   `backup_file` lands at or below the backup path and the copy of
   `restore_file` at or below the manifest.
§2 The harness's paths (`Owned`): the manifest, its backup path, what lies
   below either, and what lies below the build directory, where the
   commands are assumed to write. Each step leaves every other path as it was, returning
   or raising (`keeps_entry_mainBody`, `mainFinally_entry`), so from the
   start of `main` to the end of its `finally` block every other path is
   as it was (`finally_entry_of_not_owned`, `main_writes_only_owned`).
§3 The validator reads the manifest and `src/` paths only (`main_congr`),
   and no `src/` path is the harness's (`not_owned_src`). After a run whose
   `finally` block completes the manifest is back, so the validator run on
   the tree the harness leaves is its run on the tree before
   (`validator_unchanged_by_main`).
§4 A completed run. When Step 1 returns and the `finally` block completes,
   Step 1 copied to the backup path itself (a directory there would have
   made the restore raise) and the restore wrote the manifest only, so
   outside the build directory the tree ends as it began, the backup path
   emptied (`main_leaves_tree_as_found`). A process that exits with `0`
   ran such a run, on a build system that rejected the mutated manifest
   (`exit_zero_certifies_run`).

`cmake` and `make` are the `ToolRun`s of `Env`, assumed to write only below
the build directory (`ToolRun.frame`); the harness does not check that.
Every result here is for such commands: what is proved is that the
harness's own copies, write and removal stay on its paths and are undone.
-/
import OpenFido.Harness.VerdictTheorems
import OpenFido.Validate.ParseTheorems

namespace OpenFido.Harness

open OpenFido.Python

/-! ## §1 Where a copy lands -/

/-- Joining to a path whose last character is not a separator puts one in. -/
theorem joinPrefix_of_getLast? {s : String} {c : Char} (h : s.toList.getLast? = some c) (hc : c ≠ '/') :
    joinPrefix s = s ++ "/" := by
  have hne : s.isEmpty = false := by
    rw [Bool.eq_false_iff, Ne, String.isEmpty_iff]
    rintro rfl
    cases h
  rw [joinPrefix, endsWithSep, h, hne]
  simp [hc]

theorem joinPrefix_cmakeFileOf (projectRoot : String) :
    joinPrefix (cmakeFileOf projectRoot) = cmakeFileOf projectRoot ++ "/" :=
  @joinPrefix_of_getLast? _ 't'
    (by simp [cmakeFileOf_eq, String.toList, String.data_append, List.getLast?_append]) (by decide)

theorem joinPrefix_backupOf (projectRoot : String) :
    joinPrefix (backupOf projectRoot) = backupOf projectRoot ++ "/" :=
  @joinPrefix_of_getLast? _ 'p'
    (by simp [backupOf, String.toList, String.data_append, List.getLast?_append]) (by decide)

theorem isUnder_osPathJoin {dir b : String} (hd : joinPrefix dir = dir ++ "/")
    (hb : startsWithSep b = false) : isUnder dir (osPathJoin dir b) = true := by
  rw [isUnder, osPathJoin_of_relative _ hb, hd, List.isPrefixOf_iff_prefix]
  exact ⟨b.toList, by simp [String.toList, String.data_append]⟩

/-- `shutil.copy2(src, dst)` writes `dst` itself, or a path below it. -/
theorem copyTarget_eq_or_isUnder (d : Disk) (src : String) {dst : String}
    (hd : joinPrefix dst = dst ++ "/") :
    copyTarget d src dst = dst ∨ isUnder dst (copyTarget d src dst) = true := by
  unfold copyTarget
  split
  · exact .inr (isUnder_osPathJoin hd (startsWithSep_basename src))
  · exact .inl rfl

theorem copy2_entry_ne (o : WriteOutcome) {src dst q : String} {w : World}
    (h : copyTarget w.disk src dst ≠ q) : (run (copy2 o src dst) w).2.disk.entry q = w.disk.entry q := by
  rcases copy2_run o src dst w with ⟨hs, -⟩ | ⟨_, _, _, _, hs, -⟩ <;> rw [hs]
  simp [Ne.symm h]

/-- A copy that never writes `q` leaves it alone. -/
theorem keeps_entry_copy2 {q : String} {v : Option Entry} (o : WriteOutcome) {src dst : String}
    (h : ∀ d : Disk, copyTarget d src dst ≠ q) :
    Keeps (fun w => w.disk.entry q = v) (copy2 o src dst) :=
  fun w hw => (copy2_entry_ne o (h w.disk)).trans hw

/-- Steps 2 to 6 leave alone every path but the manifest and what lies
below the build directory. -/
theorem keeps_entry_mutateAndBuild {projectRoot q : String} (env : Env (buildDirOf projectRoot))
    (hq : q ≠ cmakeFileOf projectRoot) (hb : isUnder (buildDirOf projectRoot) q = false) (v : Option Entry) :
    Keeps (fun w => w.disk.entry q = v) (mutateAndBuild env (cmakeFileOf projectRoot)) :=
  Keeps.mutateAndBuild env (fun w e _ hw => by simpa [hq] using hw) (fun t w hw => (t.frame w.disk q hb).trans hw)
    fun _ _ hw => hw

/-! ## §2 The harness's paths -/

/-- The paths the harness may write: the manifest and its backup path,
what lies below either (a copy into a directory there), and what lies
below the build directory (the commands' writes). -/
def Owned (projectRoot p : String) : Bool :=
  p == cmakeFileOf projectRoot || p == backupOf projectRoot || isUnder (cmakeFileOf projectRoot) p ||
    isUnder (backupOf projectRoot) p || isUnder (buildDirOf projectRoot) p

section Owned

variable {projectRoot q : String} (hq : Owned projectRoot q = false)
include hq

theorem ne_cmakeFileOf_of_not_owned : q ≠ cmakeFileOf projectRoot := by
  simp_all [Owned]

theorem ne_backupOf_of_not_owned : q ≠ backupOf projectRoot := by
  simp_all [Owned]

theorem not_under_build_of_not_owned : isUnder (buildDirOf projectRoot) q = false := by
  simp_all [Owned]

/-- Neither copy of the harness writes an unowned path. -/
theorem copyTarget_ne_of_not_owned (d : Disk) :
    copyTarget d (cmakeFileOf projectRoot) (backupOf projectRoot) ≠ q ∧
    copyTarget d (backupOf projectRoot) (cmakeFileOf projectRoot) ≠ q := by
  constructor
  · rcases copyTarget_eq_or_isUnder d (cmakeFileOf projectRoot) (joinPrefix_backupOf projectRoot)
      with h | h <;> intro heq <;> rw [← heq] at hq <;> simp [Owned, h] at hq
  · rcases copyTarget_eq_or_isUnder d (backupOf projectRoot) (joinPrefix_cmakeFileOf projectRoot)
      with h | h <;> intro heq <;> rw [← heq] at hq <;> simp [Owned, h] at hq

/-- The `try` body, returning or raising, leaves an unowned path alone. -/
theorem keeps_entry_mainBody (env : Env (buildDirOf projectRoot)) (v : Option Entry) :
    Keeps (fun w => w.disk.entry q = v) (mainBody env (cmakeFileOf projectRoot)) := by
  unfold mainBody backupFile
  exact Keeps.bind (Keeps.bind (keeps_entry_copy2 _ fun d => (copyTarget_ne_of_not_owned hq d).1)
    fun _ => Keeps.pure _) fun _ => Keeps.bind (fun _ hw => hw) fun _ =>
      keeps_entry_mutateAndBuild env (ne_cmakeFileOf_of_not_owned hq) (not_under_build_of_not_owned hq) v

/-- The `finally` block, from a world whose `backup_path` is unset or the
backup path, leaves an unowned path alone. -/
theorem mainFinally_entry (env : Env (buildDirOf projectRoot)) {w : World}
    (hp : w.backupPath = none ∨ w.backupPath = some (backupOf projectRoot)) :
    (run (mainFinally env (cmakeFileOf projectRoot)) w).2.disk.entry q = w.disk.entry q := by
  have k : Keeps (fun w' => w'.disk.entry q = w.disk.entry q)
      (restoreFile env (cmakeFileOf projectRoot) (backupOf projectRoot)) :=
    Keeps.bind (keeps_entry_copy2 _ fun d => (copyTarget_ne_of_not_owned hq d).2) fun _ w' hw' =>
      (osRemove_entry_ne _ (ne_backupOf_of_not_owned hq) w').trans hw'
  rcases hp with hp | hp <;> simp only [mainFinally, run_bind, run_get, hp]
  · rfl
  · split
    · exact k w rfl
    · rfl

end Owned

theorem finallyEntry_guarded (projectRoot : String) (env : Env (buildDirOf projectRoot)) (w : World) :
    Guarded projectRoot (w.disk.entry (cmakeFileOf projectRoot)) (finallyEntry projectRoot env w) :=
  mainBody_guarded env rfl rfl

/-- From the start of `main`'s run to the end of its `finally` block, an
unowned path keeps its entry. -/
theorem finally_entry_of_not_owned (projectRoot : String) (env : Env (buildDirOf projectRoot)) (w : World)
    {q : String} (hq : Owned projectRoot q = false) :
    (run (mainFinally env (cmakeFileOf projectRoot)) (finallyEntry projectRoot env w)).2.disk.entry q =
      w.disk.entry q := by
  rw [mainFinally_entry hq env ((finallyEntry_guarded projectRoot env w).imp (·.1) (·.1))]
  exact keeps_entry_mainBody hq env _ _ rfl

/-- **The harness writes only its own paths.** For commands that write only
below the build directory, on every run of `main`, returning or raising,
whatever each file operation did and each command returned or raised, the
harness's own copies, write and removal touch only the manifest, its
backup path and what lies below them: every other path outside the build
directory holds what it held before. -/
theorem main_writes_only_owned (projectRoot : String) (env : Env (buildDirOf projectRoot)) (w : World)
    {q : String} (hq : Owned projectRoot q = false) :
    (run (main projectRoot env) w).2.disk.entry q = w.disk.entry q := by
  rw [main_run_state]
  split
  · exact finally_entry_of_not_owned projectRoot env w hq
  · rfl

theorem main_writes_only_owned_cmakeRejects :
    Owned "/p" "/p/src/crypto/crypto.c" = false ∧
    (run (main "/p" cmakeRejectsEnv) cryptoWorld).2.disk.entry "/p/src/crypto/crypto.c" =
      cryptoWorld.disk.entry "/p/src/crypto/crypto.c" :=
  ⟨by decide, main_writes_only_owned "/p" cmakeRejectsEnv cryptoWorld (by decide)⟩

/-! ## §3 What the validator sees -/

/-- Every path the harness owns starts, after the root, with the `C` of
`CMakeLists.txt` or the `b` of `build`. -/
theorem owned_prefix {projectRoot p : String} (h : Owned projectRoot p = true) :
    ∃ c ∈ ['C', 'b'], (joinPrefix projectRoot).toList ++ [c] <+: p.toList := by
  have hstart : ∀ (c : Char) (s : String), [c] <+: s.toList →
      (joinPrefix projectRoot).toList ++ [c] <+: (joinPrefix projectRoot ++ s).toList := fun c s hs => by
    simpa only [String.toList, String.data_append] using (List.prefix_append_right_inj _).mpr hs
  have hself : ∀ x : String, x.toList <+: (x ++ "/").toList :=
    fun x => ⟨['/'], by simp [String.toList, String.data_append]⟩
  have hC := hstart 'C' "CMakeLists.txt" (by decide)
  have hB := hstart 'C' ("CMakeLists.txt" ++ ".backup") (by decide)
  have hb := hstart 'b' "build" (by decide)
  rw [← cmakeFileOf_eq] at hC
  rw [← String.append_assoc, ← cmakeFileOf_eq, ← backupOf] at hB
  rw [← buildDirOf_eq] at hb
  simp only [Owned, Bool.or_eq_true, beq_iff_eq, isUnder, List.isPrefixOf_iff_prefix] at h
  rcases h with (((rfl | rfl) | h) | h) | h
  · exact ⟨'C', by simp, hC⟩
  · exact ⟨'C', by simp, hB⟩
  · exact ⟨'C', by simp, hC.trans ((hself _).trans h)⟩
  · exact ⟨'C', by simp, hB.trans ((hself _).trans h)⟩
  · exact ⟨'b', by simp, hb.trans ((hself _).trans h)⟩

/-- No path under `root/src` is the harness's. -/
theorem not_owned_src (projectRoot : String) {r : String} (hr : "src/".toList <+: r.toList) :
    Owned projectRoot (osPathJoin projectRoot r) = false := by
  obtain ⟨t, ht⟩ := hr
  have hrel : startsWithSep r = false := by rw [startsWithSep, ← ht]; rfl
  rw [Bool.eq_false_iff]
  intro h
  obtain ⟨c, hc, hpre⟩ := owned_prefix h
  rw [osPathJoin_of_relative _ hrel, show (joinPrefix projectRoot ++ r).toList =
    (joinPrefix projectRoot).toList ++ r.toList from rfl, List.prefix_append_right_inj, ← ht] at hpre
  change [c] <+: 's' :: _ at hpre
  simp only [List.mem_cons, List.mem_singleton, List.not_mem_nil, or_false] at hc
  rcases hc with rfl | rfl <;> exact absurd (List.cons_prefix_cons.mp hpre).1 (by decide)

/-- **The validator sees the tree the harness started from.** On every run
of `main` whose `finally` block completes, whatever the file operations
did and the commands (writing below the build directory) returned,
`validate_build.py` run on the tree the harness leaves
prints the same lines and returns the same value as on the tree before. -/
theorem validator_unchanged_by_main (projectRoot : String) (env : Env (buildDirOf projectRoot)) (w : World)
    (hroot : projectRoot ≠ ".") (h : RestoreCompletes projectRoot env w) :
    Validate.main (run (main projectRoot env) w).2.disk projectRoot = Validate.main w.disk projectRoot := by
  rw [main_run_state]
  split
  · rename_i hcb
    rw [Bool.and_eq_true] at hcb
    refine Validate.main_congr ?_ fun r hr =>
      finally_entry_of_not_owned projectRoot env w (not_owned_src projectRoot hr)
    rw [show pathDiv projectRoot "CMakeLists.txt" = cmakeFileOf projectRoot by
      simp [pathDiv, hroot, cmakeFileOf]]
    exact mainFinally_restores env (finallyEntry_guarded projectRoot env w) (h hcb.1 hcb.2)
  · rfl

theorem validator_unchanged_by_main_cmakeRejects :
    Validate.main (run (main "/p" cmakeRejectsEnv) cryptoWorld).2.disk "/p" =
      Validate.main cryptoWorld.disk "/p" :=
  validator_unchanged_by_main "/p" cmakeRejectsEnv cryptoWorld (by decide) fun _ _ => rfl

/-! ## §4 A completed run -/

/-- On a run where Step 1 returned, it copied the manifest's text to the
backup path (or into it, when that is a directory), and Steps 2 to 6 ran
from there. -/
theorem finallyEntry_of_step1 (projectRoot : String) (env : Env (buildDirOf projectRoot)) (w : World)
    (hstep1 : (finallyEntry projectRoot env w).backupPath ≠ none) :
    ∃ text, w.disk.read (cmakeFileOf projectRoot) = .ok text ∧
      finallyEntry projectRoot env w = (run (mutateAndBuild env (cmakeFileOf projectRoot))
        { disk := w.disk.set (copyTarget w.disk (cmakeFileOf projectRoot) (backupOf projectRoot))
            (some (.file text)),
          backupPath := some (backupOf projectRoot), exitCode := 0 }).2 := by
  unfold finallyEntry at hstep1 ⊢
  simp only [mainBody, backupFile, run_bind] at hstep1 ⊢
  rcases copy2_run env.backupCopy (cmakeFileOf projectRoot) (cmakeFileOf projectRoot ++ ".backup")
      { w with backupPath := none, exitCode := 0 } with ⟨hs, hr⟩ | ⟨text, e, hread, -, hs, hok⟩ <;>
    rcases hc : run (copy2 env.backupCopy (cmakeFileOf projectRoot) (cmakeFileOf projectRoot ++ ".backup"))
      { w with backupPath := none, exitCode := 0 } with ⟨_ | _, w1⟩ <;>
    simp only [hc] at hs hstep1 ⊢
  · exact (hstep1 (by rw [hs])).elim
  · simp [hc] at hr
  · exact (hstep1 (by rw [hs])).elim
  · simp only [hc] at hok
    obtain rfl := hok trivial
    subst hs
    exact ⟨text, hread, rfl⟩

/-- The restore, from a world whose manifest path is no directory, writes
only the manifest and the backup path. -/
theorem restoreFile_entry {b : String} (env : Env b) {cm bk p : String} {w : World}
    (hcd : w.disk.isDir cm = false) (hpc : p ≠ cm) (hpb : p ≠ bk) :
    (run (restoreFile env cm bk) w).2.disk.entry p = w.disk.entry p := by
  have h1 := @copy2_entry_ne env.restoreCopy bk cm p w (by simp [copyTarget, hcd, Ne.symm hpc])
  simp only [restoreFile, run_bind]
  rcases hc : run (copy2 env.restoreCopy bk cm) w with ⟨_ | _, w1⟩ <;> simp only [hc] at h1 ⊢
  · exact h1
  · exact (osRemove_entry_ne _ hpb w1).trans h1

/-- From the start of a run whose Step 1 returned to the end of a
`finally` block that completed, every path outside the build directory
keeps its entry, but the backup path, which is emptied. -/
theorem finally_leaves_tree (projectRoot : String) (env : Env (buildDirOf projectRoot)) (w : World)
    (hok : (run (mainFinally env (cmakeFileOf projectRoot)) (finallyEntry projectRoot env w)).1 = .ok ())
    (hstep1 : (finallyEntry projectRoot env w).backupPath ≠ none) {p : String}
    (hp : isUnder (buildDirOf projectRoot) p = false) :
    (run (mainFinally env (cmakeFileOf projectRoot)) (finallyEntry projectRoot env w)).2.disk.entry p =
      (w.disk.set (backupOf projectRoot) none).entry p := by
  have harmed : Armed projectRoot (w.disk.entry (cmakeFileOf projectRoot)) (finallyEntry projectRoot env w) :=
    (finallyEntry_guarded projectRoot env w).resolve_left fun hn => hstep1 hn.1
  rw [Disk.set_entry]
  split_ifs with hpb
  · subst hpb
    exact mainFinally_removes_backup env harmed hok
  by_cases hpc : p = cmakeFileOf projectRoot
  · subst hpc
    exact mainFinally_restores env (.inr harmed) hok
  -- A directory at the backup path would make the restore raise.
  obtain ⟨text, -, hbk, hcd⟩ := harmed.2.resolve_right fun hdir => by
    rw [run_mainFinally_of_armed env harmed] at hok
    obtain ⟨_, _, hcp, -⟩ := run_bind_eq_ok hok
    rcases copy2_run env.restoreCopy (backupOf projectRoot) (cmakeFileOf projectRoot)
        (finallyEntry projectRoot env w) with ⟨-, hne⟩ | ⟨_, _, hread, -⟩
    · exact hne (by rw [hcp])
    · rw [Disk.read_eq_ok_iff, hdir] at hread
      cases hread
  obtain ⟨t0, -, hfe⟩ := finallyEntry_of_step1 projectRoot env w hstep1
  -- So Step 1 copied to the backup path itself, not into it.
  have htarget : copyTarget w.disk (cmakeFileOf projectRoot) (backupOf projectRoot) = backupOf projectRoot := by
    by_contra hne
    have hdir : w.disk.isDir (backupOf projectRoot) = true := by
      by_contra hnd
      exact hne (by simp [copyTarget, hnd])
    have hkeep : (finallyEntry projectRoot env w).disk.entry (backupOf projectRoot) =
        w.disk.entry (backupOf projectRoot) := by
      rw [hfe]
      exact keeps_entry_mutateAndBuild env (backupOf_ne_cmakeFileOf projectRoot)
        (backup_not_under_build projectRoot) _ _ (by simp [Ne.symm hne])
    rw [hbk, Disk.isDir_iff.mp hdir] at hkeep
    cases hkeep
  rw [run_mainFinally_of_armed env harmed, restoreFile_entry env hcd hpc hpb, hfe]
  exact keeps_entry_mutateAndBuild env hpc hp _ _ (by simp [htarget, hpb])

/-- **A completed run leaves the tree as it found it.** For commands that
write only below the build directory, on a run of `main` that passes both
existence checks, whose Step 1 returns and whose `finally` block
completes, whatever Steps 2 to 6 and the inspections did and the commands
returned or raised, every path outside the build directory ends as it
began, but the backup path, which ends empty. -/
theorem main_leaves_tree_as_found (projectRoot : String) (env : Env (buildDirOf projectRoot)) (w : World)
    (h : RestoreCompletes projectRoot env w)
    (hc : w.disk.pathExists (cmakeFileOf projectRoot) = true)
    (hb : w.disk.pathExists (buildDirOf projectRoot) = true)
    (hstep1 : (finallyEntry projectRoot env w).backupPath ≠ none) {p : String}
    (hp : isUnder (buildDirOf projectRoot) p = false) :
    (run (main projectRoot env) w).2.disk.entry p = (w.disk.set (backupOf projectRoot) none).entry p := by
  rw [main_run_state, hc, hb, Bool.and_self, if_pos rfl]
  exact finally_leaves_tree projectRoot env w (h hc hb) hstep1 hp

theorem main_leaves_tree_as_found_cmakeRejects :
    (run (main "/p" cmakeRejectsEnv) cryptoWorld).2.disk.entry "/p/CMakeLists.txt" =
      (cryptoWorld.disk.set (backupOf "/p") none).entry "/p/CMakeLists.txt" :=
  main_leaves_tree_as_found "/p" cmakeRejectsEnv cryptoWorld (fun _ _ => rfl) rfl rfl (by decide) (by decide)

/-- A `try` body that returned passed Step 1: `backup_path` is set when
the `finally` block starts. -/
theorem finallyEntry_backupPath_of_ok (projectRoot : String) (env : Env (buildDirOf projectRoot)) (w : World)
    (hbody : (run (mainBody env (cmakeFileOf projectRoot)) { w with backupPath := none, exitCode := 0 }).1 =
      .ok ()) :
    (finallyEntry projectRoot env w).backupPath ≠ none := by
  unfold mainBody at hbody
  obtain ⟨bp, w1, -, hrun⟩ := run_bind_eq_ok hbody
  have k : Keeps (fun w' => w'.backupPath = some bp) (mutateAndBuild env (cmakeFileOf projectRoot)) :=
    Keeps.mutateAndBuild env (fun _ _ _ hw => hw) (fun _ _ hw => hw) fun _ _ hw => hw
  rw [finallyEntry, mainBody, hrun]
  simp only [run_bind, run_modify]
  rw [k _ rfl]
  exact Option.some_ne_none bp

/-- **Exit status `0` certifies the run.** The harness process ends with
`0` or `1`. When it ends with `0`, the build system rejected the mutated
manifest; and for commands that write only below the build directory,
whatever each file operation and inspection did, every path outside the
build directory holds what it held before the run, but the backup path,
which holds nothing. -/
theorem exit_zero_certifies_run (projectRoot : String) (env : Env (buildDirOf projectRoot)) (w : World) :
    exitStatus (run (main projectRoot env) w).1 ≤ 1 ∧
    (exitStatus (run (main projectRoot env) w).1 = 0 →
      buildRejected env = true ∧
      ∀ p, isUnder (buildDirOf projectRoot) p = false →
        (run (main projectRoot env) w).2.disk.entry p = (w.disk.set (backupOf projectRoot) none).entry p) := by
  rcases hr : (run (main projectRoot env) w).1 with _ | n
  · exact ⟨le_refl 1, fun h0 => absurd h0 one_ne_zero⟩
  rcases main_returned hr with ⟨hc, hb, hbody, hfin, rfl⟩ | ⟨-, rfl⟩
  · refine ⟨by cases buildRejected env <;> decide, fun h0 => ⟨?_, fun p hp => ?_⟩⟩
    · revert h0
      cases buildRejected env <;> simp [exitStatus]
    · rw [main_run_state, hc, hb, Bool.and_self, if_pos rfl]
      exact finally_leaves_tree projectRoot env w hfin (finallyEntry_backupPath_of_ok projectRoot env w hbody) hp
  · exact ⟨le_refl 1, fun h0 => absurd h0 one_ne_zero⟩

end OpenFido.Harness

/-
OpenFido.Harness.RestoreTheorems — on every run of the mutation harness
whose `finally` block completes, `CMakeLists.txt` ends as it began.

§1 Paths. The manifest, its backup and the build directory come from one
   root: the manifest and the backup are different paths, neither lies
   below the build directory, and a copy of the manifest into a backup
   path that is a directory lands on neither (`copyTarget_backup`).
§2 What each primitive can do (`writeFile_run`, `copy2_run`, …): leave the
   world as it was and raise, or put at one path something that is not a
   directory. Later proofs cite these and never unfold a primitive.
§3 `Keeps P m`: whether `m` returns or raises, it leaves a world in `P` when
   it started in one. Closed under `>>=` and `tryCatch`; Steps 2 to 6 keep
   every property that survives their writes (`Keeps.mutateAndBuild`).
§4 The invariant. Once Step 1 has returned, the backup holds the original
   manifest, or the backup path is a directory and the restore will raise
   (`Armed`); Steps 2 to 6 keep that (`keeps_mutateAndBuild`), and until
   Step 1 returns the manifest is untouched (`mainBody_guarded`).
§5 From an armed world the `finally` block is the call of `restore_file`
   (`run_mainFinally_of_armed`); when it completes it has restored the
   manifest (`mainFinally_restores`) and removed the backup
   (`mainFinally_removes_backup`). `main_restores_manifest` assembles the
   run of `main`.

The build commands are the `ToolRun`s of `Env`, assumed to write only below
the build directory; that is all these results ask of them, and it is what
keeps a command off the manifest and the backup (`armed_tool`).
-/
import OpenFido.Harness.ErrorHandling
import Mathlib.Data.String.Basic

namespace OpenFido.Harness

open OpenFido.Python

/-! ## §1 Paths -/

/-- The path `backup_file` copies the manifest to. -/
def backupOf (projectRoot : String) : String := cmakeFileOf projectRoot ++ ".backup"

theorem cmakeFileOf_eq (projectRoot : String) :
    cmakeFileOf projectRoot = joinPrefix projectRoot ++ "CMakeLists.txt" :=
  osPathJoin_of_relative _ rfl

theorem buildDirOf_eq (projectRoot : String) :
    buildDirOf projectRoot = joinPrefix projectRoot ++ "build" :=
  osPathJoin_of_relative _ rfl

theorem length_backupOf (projectRoot : String) :
    (backupOf projectRoot).length = (cmakeFileOf projectRoot).length + 7 := by
  rw [backupOf, String.length_append]
  rfl

theorem backupOf_ne_cmakeFileOf (projectRoot : String) :
    backupOf projectRoot ≠ cmakeFileOf projectRoot := fun h => by
  have := length_backupOf projectRoot
  rw [h] at this
  omega

theorem isEmpty_backupOf (projectRoot : String) : (backupOf projectRoot).isEmpty = false := by
  rw [Bool.eq_false_iff, Ne, String.isEmpty_iff]
  intro h
  have := length_backupOf projectRoot
  rw [h] at this
  exact absurd this (by simp)

theorem isUnder_buildDirOf (projectRoot s : String) (hs : ¬ "build/".toList <+: s.toList) :
    isUnder (buildDirOf projectRoot) (joinPrefix projectRoot ++ s) = false := by
  rw [Bool.eq_false_iff, Ne, isUnder, List.isPrefixOf_iff_prefix, buildDirOf_eq]
  simpa only [String.toList, String.data_append, List.append_assoc, List.prefix_append_right_inj]
    using hs

theorem cmakeFile_not_under_build (projectRoot : String) :
    isUnder (buildDirOf projectRoot) (cmakeFileOf projectRoot) = false := by
  rw [cmakeFileOf_eq]
  exact isUnder_buildDirOf _ _ (by decide)

theorem backup_not_under_build (projectRoot : String) :
    isUnder (buildDirOf projectRoot) (backupOf projectRoot) = false := by
  rw [backupOf, cmakeFileOf_eq, String.append_assoc]
  exact isUnder_buildDirOf _ _ (by decide)

theorem startsWithSep_basename (p : String) : startsWithSep (basename p) = false := by
  have hall : ∀ c ∈ (p.toList.reverse.takeWhile (· != '/')).reverse, c ≠ '/' := fun c hc => by
    simpa using List.mem_takeWhile_imp (List.mem_reverse.mp hc)
  show ((p.toList.reverse.takeWhile (· != '/')).reverse.head? == some '/') = false
  cases h : (p.toList.reverse.takeWhile (· != '/')).reverse with
  | nil => rfl
  | cons c cs => simpa using hall c (h ▸ List.mem_cons_self c cs)

/-- A copy of the manifest to its backup path writes neither the manifest
nor, when that path is a directory, the backup path itself. -/
theorem copyTarget_backup (d : Disk) (projectRoot : String) :
    copyTarget d (cmakeFileOf projectRoot) (backupOf projectRoot) ≠ cmakeFileOf projectRoot ∧
    (d.isDir (backupOf projectRoot) = true →
      copyTarget d (cmakeFileOf projectRoot) (backupOf projectRoot) ≠ backupOf projectRoot) := by
  have hpre : joinPrefix (backupOf projectRoot) = backupOf projectRoot ++ "/" := by
    have hend : endsWithSep (backupOf projectRoot) = false := by
      simp [endsWithSep, backupOf, String.toList, String.data_append, List.getLast?_append]
    simp [joinPrefix, hend, isEmpty_backupOf]
  have hlen : ∀ b : String, startsWithSep b = false →
      (backupOf projectRoot).length < (osPathJoin (backupOf projectRoot) b).length := by
    intro b hb
    rw [osPathJoin_of_relative _ hb, hpre]
    simp only [String.length_append]
    have : "/".length = 1 := rfl
    omega
  have hcb : (cmakeFileOf projectRoot).length < (backupOf projectRoot).length := by
    rw [length_backupOf]
    omega
  have hj := hlen _ (startsWithSep_basename (cmakeFileOf projectRoot))
  unfold copyTarget
  split
  · exact ⟨fun h => by rw [h] at hj; omega, fun _ h => by rw [h] at hj; omega⟩
  · exact ⟨backupOf_ne_cmakeFileOf projectRoot, by simp_all⟩

/-! ## §2 What each primitive can do -/

theorem run_getDisk (w : World) : run getDisk w = (.ok w.disk, w) := rfl

theorem run_raiseIf (o : Option PyExc) (w : World) : (run (raiseIf o) w).2 = w := by
  cases o <;> rfl

theorem writeFile_run (o : WriteOutcome) (p text : String) (w : World) :
    ((run (writeFile o p text) w).2 = w ∧ (run (writeFile o p text) w).1 ≠ .ok ()) ∨
    ∃ e, e ≠ some .dir ∧ (run (writeFile o p text) w).2 = { w with disk := w.disk.set p e } ∧
      ((run (writeFile o p text) w).1 = .ok () → e = some (.file text)) := by
  simp only [writeFile, getDisk, run_bind, run_get, run_pure]
  by_cases hd : w.disk.isDir p
  · simp only [hd, if_true, run_bind, run_throw]
    exact .inl ⟨trivial, by simp⟩
  · simp only [hd, if_false, Bool.false_eq_true, run_bind, run_pure]
    cases o with
    | completes => exact .inr ⟨_, by simp, rfl, fun _ => rfl⟩
    | raises e left =>
      exact .inr ⟨left.map .file, by cases left <;> simp, rfl, by simp [setEntry, run_bind]⟩

theorem readFile_run (fails : Option PyExc) (p : String) (w : World) :
    (run (readFile fails p) w).2 = w := by
  simp only [readFile, getDisk, run_bind, run_get, run_pure]
  split
  · rfl
  · simp only [run_bind, run_raiseIf]
    cases fails <;> rfl

theorem copy2_run (o : WriteOutcome) (src dst : String) (w : World) :
    ((run (copy2 o src dst) w).2 = w ∧ (run (copy2 o src dst) w).1 ≠ .ok ()) ∨
    ∃ text e, w.disk.read src = .ok text ∧ e ≠ some .dir ∧
      (run (copy2 o src dst) w).2 = { w with disk := w.disk.set (copyTarget w.disk src dst) e } ∧
      ((run (copy2 o src dst) w).1 = .ok () → e = some (.file text)) := by
  simp only [copy2, getDisk, run_bind, run_get, run_pure]
  by_cases hs : src = copyTarget w.disk src dst
  · rw [if_pos hs]
    simp only [run_bind, run_throw]
    exact .inl ⟨trivial, by simp⟩
  · simp only [hs, if_false, run_pure]
    split
    · simp
    · rename_i text hread
      rcases writeFile_run o (copyTarget w.disk src dst) text w with h | ⟨e, he, hw, hok⟩
      · exact .inl h
      · exact .inr ⟨text, e, hread, he, hw, hok⟩

theorem osRemove_run (fails : Option PyExc) (p : String) (w : World) :
    (run (osRemove fails p) w).2 = w ∨ (run (osRemove fails p) w).2 = { w with disk := w.disk.set p none } := by
  simp only [osRemove, getDisk, run_bind, run_get, run_pure]
  split
  · simp
  · simp
  · cases fails <;> simp [raiseIf, run_bind, setEntry]

/-- `os.remove(p)` leaves every other path as it was. -/
theorem osRemove_entry_ne (fails : Option PyExc) {p q : String} (hq : q ≠ p) (w : World) :
    (run (osRemove fails p) w).2.disk.entry q = w.disk.entry q := by
  rcases osRemove_run fails p w with h | h <;> rw [h]
  simp [hq]

theorem subprocessRun_run {dir : String} (t : ToolRun dir) (w : World) :
    (run (subprocessRun t) w).2 = { w with disk := t.effect w.disk } := by
  simp only [subprocessRun, run_bind, run_modify]
  cases t.result <;> rfl

/-! ## §3 Statements that keep a property -/

/-- Returning or raising, `m` leaves a world in `P` when it starts in one. -/
def Keeps {α : Type} (P : World → Prop) (m : HarnessM α) : Prop := ∀ w, P w → P (run m w).2

section Keeps

variable {α β : Type} {P : World → Prop}

theorem Keeps.of_state {m : HarnessM α} (h : ∀ w, (run m w).2 = w) : Keeps P m :=
  fun w hw => (h w).symm ▸ hw

theorem Keeps.pure (a : α) : Keeps P (Pure.pure a : HarnessM α) := Keeps.of_state fun _ => rfl

theorem Keeps.throw (e : PyExc) : Keeps P (MonadExcept.throw e : HarnessM α) :=
  Keeps.of_state fun _ => rfl

theorem Keeps.bind {m : HarnessM α} {f : α → HarnessM β} (hm : Keeps P m) (hf : ∀ a, Keeps P (f a)) :
    Keeps P (m >>= f) := by
  intro w hw
  rw [run_bind]
  rcases h : run m w with ⟨_ | a, w'⟩
  · simpa [h] using hm w hw
  · exact hf a w' (by simpa [h] using hm w hw)

theorem Keeps.tryCatch {m : HarnessM α} {h : PyExc → HarnessM α} (hm : Keeps P m)
    (hh : ∀ e, Keeps P (h e)) : Keeps P (tryCatch m h) := by
  intro w hw
  rw [run_tryCatch]
  rcases hr : run m w with ⟨e | a, w'⟩
  · exact hh e w' (by simpa [hr] using hm w hw)
  · simpa [hr] using hm w hw

theorem Keeps.raiseIf (o : Option PyExc) : Keeps P (OpenFido.Harness.raiseIf o) :=
  Keeps.of_state (run_raiseIf o)

theorem Keeps.setExitCode (hP : ∀ w n, P w → P { w with exitCode := n }) (n : Nat) :
    Keeps P (OpenFido.Harness.setExitCode n) := fun w hw => hP w n hw

theorem Keeps.writeFile {p : String}
    (hP : ∀ w e, e ≠ some .dir → P w → P { w with disk := w.disk.set p e }) (o : WriteOutcome)
    (text : String) : Keeps P (OpenFido.Harness.writeFile o p text) := by
  intro w hw
  rcases writeFile_run o p text w with ⟨h, -⟩ | ⟨e, he, h, -⟩ <;> rw [h]
  · exact hw
  · exact hP w e he hw

theorem Keeps.copy2 (hP : ∀ w p e, P w → P { w with disk := w.disk.set p e }) (o : WriteOutcome)
    (src dst : String) : Keeps P (OpenFido.Harness.copy2 o src dst) := by
  intro w hw
  rcases copy2_run o src dst w with ⟨h, -⟩ | ⟨_, _, _, _, h, -⟩ <;> rw [h]
  · exact hw
  · exact hP _ _ _ hw

theorem Keeps.osRemove (hP : ∀ w p e, P w → P { w with disk := w.disk.set p e }) (fails : Option PyExc)
    (p : String) : Keeps P (OpenFido.Harness.osRemove fails p) := by
  intro w hw
  rcases osRemove_run fails p w with h | h <;> rw [h]
  · exact hw
  · exact hP _ _ _ hw

theorem Keeps.subprocessRun {dir : String} {t : ToolRun dir}
    (hP : ∀ w, P w → P { w with disk := t.effect w.disk }) :
    Keeps P (OpenFido.Harness.subprocessRun t) := fun w hw => (subprocessRun_run t w).symm ▸ hP w hw

/-- Steps 2 to 6 keep every property that survives a write at the manifest
of anything but a directory, a command's writes, and a new `exit_code`. -/
theorem Keeps.mutateAndBuild {b cm : String} (env : Env b)
    (hwrite : ∀ w e, e ≠ some .dir → P w → P { w with disk := w.disk.set cm e })
    (htool : ∀ (t : ToolRun b) w, P w → P { w with disk := t.effect w.disk })
    (hexit : ∀ w n, P w → P { w with exitCode := n }) :
    Keeps P (OpenFido.Harness.mutateAndBuild env cm) := by
  have exit : ∀ n, Keeps P (OpenFido.Harness.setExitCode n) := Keeps.setExitCode hexit
  have run : ∀ t : ToolRun b, Keeps P (do let result ← OpenFido.Harness.subprocessRun t; return some result) :=
    fun t => Keeps.bind (Keeps.subprocessRun (htool t)) fun _ => Keeps.pure _
  unfold OpenFido.Harness.mutateAndBuild addInvalidFileReference runCmakeReconfigure runMakeBuild
  refine Keeps.bind (Keeps.bind (Keeps.of_state (readFile_run _ _)) fun _ =>
    Keeps.bind (Keeps.writeFile hwrite _ _) fun _ => Keeps.pure _) fun _ => ?_
  refine Keeps.bind (Keeps.tryCatch (run _) fun e => ?_) fun r => ?_
  · cases e <;> first | exact Keeps.pure _ | exact Keeps.throw _
  split
  · exact exit 1
  split
  · exact Keeps.raiseIf _
  refine Keeps.bind (Keeps.tryCatch (run _) fun e => ?_) fun r => ?_
  · cases e <;> first | exact Keeps.pure _ | exact Keeps.throw _ |
      exact Keeps.tryCatch (run _) fun _ => Keeps.pure _
  split
  · exact exit 1
  dsimp only
  split
  · exact Keeps.bind (exit 1) fun _ => Keeps.raiseIf _
  · exact Keeps.bind (Keeps.pure _) fun _ => Keeps.raiseIf _

end Keeps

/-! ## §4 The invariant of the `try` body -/

section Invariant

variable (projectRoot : String) (orig : Option Entry)

/-- The backup is in place: it holds the original manifest, which was a
regular file, and the manifest path is no directory; or the backup path is
a directory, which the restore cannot read. -/
def BackupReady (d : Disk) : Prop :=
  (∃ text, orig = some (.file text) ∧ d.entry (backupOf projectRoot) = some (.file text) ∧
    d.isDir (cmakeFileOf projectRoot) = false) ∨
  d.entry (backupOf projectRoot) = some .dir

/-- After Step 1: `backup_path` is set and the backup is in place. -/
def Armed (w : World) : Prop :=
  w.backupPath = some (backupOf projectRoot) ∧ BackupReady projectRoot orig w.disk

/-- Anywhere in the `try` body: before Step 1 returns, `backup_path` is
unset and the manifest untouched; after, the world is armed. -/
def Guarded (w : World) : Prop :=
  (w.backupPath = none ∧ w.disk.entry (cmakeFileOf projectRoot) = orig) ∨ Armed projectRoot orig w

variable {projectRoot orig}

theorem armed_set_cmakeFile {w : World} (h : Armed projectRoot orig w) {e : Option Entry}
    (he : e ≠ some .dir) :
    Armed projectRoot orig { w with disk := w.disk.set (cmakeFileOf projectRoot) e } := by
  obtain ⟨hb, ⟨text, ho, hbk, -⟩ | hdir⟩ := h
  · exact ⟨hb, .inl ⟨text, ho, by simp [backupOf_ne_cmakeFileOf, hbk], by simp [Disk.isDir, he]⟩⟩
  · exact ⟨hb, .inr (by simp [backupOf_ne_cmakeFileOf, hdir])⟩

theorem armed_tool {w : World} (h : Armed projectRoot orig w) (t : ToolRun (buildDirOf projectRoot)) :
    Armed projectRoot orig { w with disk := t.effect w.disk } := by
  have hc := t.frame w.disk _ (cmakeFile_not_under_build projectRoot)
  have hb := t.frame w.disk _ (backup_not_under_build projectRoot)
  obtain ⟨hp, ⟨text, ho, hbk, hcd⟩ | hdir⟩ := h
  · exact ⟨hp, .inl ⟨text, ho, hb.trans hbk, by simpa [Disk.isDir, hc] using hcd⟩⟩
  · exact ⟨hp, .inr (hb.trans hdir)⟩

/-- Steps 2 to 6 keep the backup in place, whatever the commands and the
file operations do. -/
theorem keeps_mutateAndBuild (env : Env (buildDirOf projectRoot)) :
    Keeps (Armed projectRoot orig) (mutateAndBuild env (cmakeFileOf projectRoot)) :=
  Keeps.mutateAndBuild env (fun _ _ he hw => armed_set_cmakeFile hw he) (fun t _ hw => armed_tool hw t)
    fun _ _ hw => hw

/-- The `try` body, run from a world with `backup_path` unset and the
manifest as it began, ends (returning or raising) guarded. -/
theorem mainBody_guarded (env : Env (buildDirOf projectRoot)) {w : World}
    (hp : w.backupPath = none) (hm : w.disk.entry (cmakeFileOf projectRoot) = orig) :
    Guarded projectRoot orig (run (mainBody env (cmakeFileOf projectRoot)) w).2 := by
  have ⟨hne, hdir⟩ := copyTarget_backup w.disk projectRoot
  simp only [backupOf] at hne hdir
  simp only [mainBody, backupFile, run_bind]
  rcases copy2_run env.backupCopy (cmakeFileOf projectRoot) (cmakeFileOf projectRoot ++ ".backup") w
    with ⟨hs, hr⟩ | ⟨text, e, hread, he, hs, hok⟩ <;>
  rcases hc : run (copy2 env.backupCopy (cmakeFileOf projectRoot) (cmakeFileOf projectRoot ++ ".backup")) w
    with ⟨_ | _, w1⟩ <;> simp only [hc] at hs ⊢
  · exact .inl (hs ▸ ⟨hp, hm⟩)
  · simp [hc] at hr
  · subst hs
    exact .inl ⟨hp, by simpa [Ne.symm hne] using hm⟩
  · simp only [hc] at hok
    obtain rfl := hok trivial
    subst hs
    simp only [run_pure, run_modify]
    refine .inr (keeps_mutateAndBuild env _ ⟨rfl, ?_⟩)
    rw [Disk.read_eq_ok_iff] at hread
    by_cases hd : w.disk.isDir (backupOf projectRoot)
    · exact .inr (by simpa [backupOf, Ne.symm (hdir hd), Disk.isDir_iff] using hd)
    · have ht : copyTarget w.disk (cmakeFileOf projectRoot) (backupOf projectRoot) = backupOf projectRoot := by
        simp [copyTarget, hd]
      simp only [backupOf] at ht
      refine .inl ⟨text, hm ▸ hread, by simp [backupOf, ht], ?_⟩
      have := backupOf_ne_cmakeFileOf projectRoot
      simp only [backupOf] at this
      simp [Disk.isDir, ht, Ne.symm this, hread]

/-! ## §5 The `finally` block and `main` -/

/-- From an armed world the `finally` block is the call of `restore_file`. -/
theorem run_mainFinally_of_armed (env : Env (buildDirOf projectRoot)) {w : World}
    (h : Armed projectRoot orig w) :
    run (mainFinally env (cmakeFileOf projectRoot)) w =
      run (restoreFile env (cmakeFileOf projectRoot) (backupOf projectRoot)) w := by
  obtain ⟨hp, hready⟩ := h
  have hex : (!(backupOf projectRoot).isEmpty && w.disk.pathExists (backupOf projectRoot)) = true := by
    rcases hready with ⟨_, _, hbk, _⟩ | hdir
    · simp [isEmpty_backupOf, Disk.pathExists_of_entry hbk]
    · simp [isEmpty_backupOf, Disk.pathExists_of_entry hdir]
  simp only [mainFinally, run_bind, run_get, hp, hex, if_true]

/-- From a guarded world, a `finally` block that completes leaves the
manifest as it began: nothing to do before Step 1 returned, and after it
the restore copies the backup back. -/
theorem mainFinally_restores (env : Env (buildDirOf projectRoot)) {w : World}
    (hg : Guarded projectRoot orig w)
    (hok : (run (mainFinally env (cmakeFileOf projectRoot)) w).1 = .ok ()) :
    (run (mainFinally env (cmakeFileOf projectRoot)) w).2.disk.entry (cmakeFileOf projectRoot) = orig := by
  rcases hg with ⟨hp, hm⟩ | harmed
  · simpa [mainFinally, run_bind, hp] using hm
  rw [run_mainFinally_of_armed env harmed] at hok ⊢
  simp only [restoreFile, run_bind] at hok ⊢
  rcases hcr : run (copy2 env.restoreCopy (backupOf projectRoot) (cmakeFileOf projectRoot)) w
    with ⟨_ | _, w1⟩ <;> simp only [hcr] at hok ⊢
  · cases hok
  rcases copy2_run env.restoreCopy (backupOf projectRoot) (cmakeFileOf projectRoot) w
    with ⟨-, hr⟩ | ⟨text, e, hread, -, hs, hc⟩ <;> rw [hcr] at *
  · exact absurd rfl hr
  obtain rfl := hc rfl
  subst hs
  rw [osRemove_entry_ne _ (backupOf_ne_cmakeFileOf projectRoot).symm, Disk.set_entry]
  rw [Disk.read_eq_ok_iff] at hread
  rcases harmed.2 with ⟨t, ho, hbk, hcd⟩ | hdir
  · rw [hbk] at hread
    cases hread
    simp [copyTarget, hcd, ho]
  · rw [hdir] at hread
    cases hread

/-- An `os.remove` that returned removed its path. -/
theorem osRemove_entry_of_ok {fails : Option PyExc} {p : String} {w : World}
    (h : (run (osRemove fails p) w).1 = .ok ()) : (run (osRemove fails p) w).2.disk.entry p = none := by
  simp only [osRemove, getDisk, run_bind, run_get, run_pure] at h ⊢
  split at h
  · cases h
  · cases h
  · cases fails
    · simp [raiseIf, setEntry, run_bind]
    · cases h

/-- From an armed world, a `finally` block that completes removes the backup. -/
theorem mainFinally_removes_backup (env : Env (buildDirOf projectRoot)) {w : World}
    (h : Armed projectRoot orig w) (hok : (run (mainFinally env (cmakeFileOf projectRoot)) w).1 = .ok ()) :
    (run (mainFinally env (cmakeFileOf projectRoot)) w).2.disk.entry (backupOf projectRoot) = none := by
  rw [run_mainFinally_of_armed env h] at hok ⊢
  obtain ⟨_, w1, -, hrun⟩ := run_bind_eq_ok hok
  rw [restoreFile, hrun] at hok ⊢
  exact osRemove_entry_of_ok hok

end Invariant

/-- The world in which `main`'s `finally` block starts, on a run from `w`
that passes both existence checks. -/
def finallyEntry (projectRoot : String) (env : Env (buildDirOf projectRoot)) (w : World) : World :=
  (run (mainBody env (cmakeFileOf projectRoot)) { w with backupPath := none, exitCode := 0 }).2

/-- On the run of `main` from `w`, the `finally` block completes: the call
of `restore_file`, when it is made, returns. The block's `print` is not
modelled and is taken not to raise; one that raised would skip the call. -/
def RestoreCompletes (projectRoot : String) (env : Env (buildDirOf projectRoot)) (w : World) : Prop :=
  w.disk.pathExists (cmakeFileOf projectRoot) = true →
  w.disk.pathExists (buildDirOf projectRoot) = true →
  (run (mainFinally env (cmakeFileOf projectRoot)) (finallyEntry projectRoot env w)).1 = .ok ()

/-- `main`, unfolded once: the two existence checks, then the `try` body
and the `finally` block from a world with both locals reset. -/
theorem run_main (projectRoot : String) (env : Env (buildDirOf projectRoot)) (w : World) :
    run (main projectRoot env) w =
      if w.disk.pathExists (cmakeFileOf projectRoot) && w.disk.pathExists (buildDirOf projectRoot) then
        match run (withFinally (mainBody env (cmakeFileOf projectRoot))
            (mainFinally env (cmakeFileOf projectRoot))) { w with backupPath := none, exitCode := 0 } with
        | (.ok (), w') => (.ok w'.exitCode, w')
        | (.error e, w') => (.error e, w')
      else (.ok 1, w) := by
  by_cases hc : w.disk.pathExists (cmakeFileOf projectRoot) <;>
  by_cases hb : w.disk.pathExists (buildDirOf projectRoot) <;>
  simp only [main, run_getDisk, hc, hb, Bool.not_true, Bool.not_false, Bool.and_true, Bool.and_false,
    Bool.false_eq_true, if_true, if_false, run_bind, run_pure, run_modify]
  rcases run (withFinally _ _) _ with ⟨_ | _, w'⟩ <;> rfl

theorem main_run_state (projectRoot : String) (env : Env (buildDirOf projectRoot)) (w : World) :
    (run (main projectRoot env) w).2 =
      if w.disk.pathExists (cmakeFileOf projectRoot) && w.disk.pathExists (buildDirOf projectRoot) then
        (run (mainFinally env (cmakeFileOf projectRoot)) (finallyEntry projectRoot env w)).2
      else w := by
  rw [run_main]
  split
  · rw [finallyEntry, ← run_withFinally_state]
    rcases run (withFinally _ _) _ with ⟨_ | _, w'⟩ <;> rfl
  · rfl

/-- **The harness restores the manifest.** On every run of `main` whose
`finally` block completes, whatever each file operation and inspection did
and whatever each command returned or raised (its writes lying below the
build directory), `CMakeLists.txt` ends as it began; and when the `try`
body ends with `backup_path` unset, the manifest was never touched. -/
theorem main_restores_manifest (projectRoot : String) (env : Env (buildDirOf projectRoot))
    (w : World) (h : RestoreCompletes projectRoot env w) :
    (run (main projectRoot env) w).2.disk.entry (cmakeFileOf projectRoot) =
        w.disk.entry (cmakeFileOf projectRoot) ∧
    ((finallyEntry projectRoot env w).backupPath = none →
      (finallyEntry projectRoot env w).disk.entry (cmakeFileOf projectRoot) =
        w.disk.entry (cmakeFileOf projectRoot)) := by
  have hg := @mainBody_guarded projectRoot (w.disk.entry (cmakeFileOf projectRoot)) env
    { w with backupPath := none, exitCode := 0 } rfl rfl
  refine ⟨?_, fun hn => hg.elim (·.2) fun ha => absurd (hn.symm.trans ha.1) (by simp)⟩
  rw [main_run_state]
  split
  · rename_i hcb
    simp only [Bool.and_eq_true] at hcb
    exact mainFinally_restores env hg (h hcb.1 hcb.2)
  · rfl

/-- A command that writes nothing. -/
def ToolRun.quiet (dir : String) (r : Except PyExc CompletedProcess) : ToolRun dir :=
  ⟨r, id, fun _ _ _ => rfl⟩

/-- The run the harness is written for, on Windows: every step completes
and `cmake` rejects the mutated manifest. -/
def cmakeRejectsEnv : Env (buildDirOf "/p") where
  linesep := "\r\n"
  backupCopy := .completes
  manifestRead := none
  manifestWrite := .completes
  cmake := .quiet _ (.ok ⟨1, "", "Cannot find source file: src/crypto/nonexistent_file.c"⟩)
  cmakeInspection := none
  mingwMake := .quiet _ (.error .fileNotFoundError)
  make := .quiet _ (.error .fileNotFoundError)
  makeInspection := none
  restoreCopy := .completes
  restoreRemove := none

/-- A project with the `CRYPTO_SOURCES` block and a build directory. -/
def cryptoWorld : World where
  disk := .ofList [("/p/CMakeLists.txt", .file "set(CRYPTO_SOURCES\n    src/crypto/crypto.c\n)\n"),
    ("/p/build", .dir)]
  backupPath := none
  exitCode := 0

theorem main_restores_manifest_cmakeRejects :
    (run (main "/p" cmakeRejectsEnv) cryptoWorld).2.disk.entry (cmakeFileOf "/p") =
      cryptoWorld.disk.entry (cmakeFileOf "/p") :=
  (main_restores_manifest "/p" cmakeRejectsEnv cryptoWorld fun _ _ => rfl).1

end OpenFido.Harness

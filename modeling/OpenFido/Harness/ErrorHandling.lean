/-
OpenFido.Harness.ErrorHandling — `tests/test_cmake_error_handling.py`, the
mutation harness: it backs up `CMakeLists.txt`, adds a reference to a file
that does not exist, reconfigures and builds, and restores the manifest in
a `finally` block.

The Python semantics kept:

* a statement completes or raises, and what it did to the disk before
  raising stays done, so the harness runs in `ExceptT PyExc (StateM World)`,
  where the state survives an exception;
* the two locals of `main` that its `finally` block reads after an
  exception in the `try` body, `backup_path` and `exit_code`, live in the
  state (`World`);
* `try: … finally: …` is `withFinally`; `except TimeoutExpired`,
  `except FileNotFoundError` and the bare `except:` of `run_make_build`
  are `tryCatch` on the class.

What the environment decides is an argument, `Env`: `os.linesep`, for
each file operation whether it completes or raises (and what a failed
write leaves behind), and for each external command its
`CompletedProcess` or its exception, together with what the tool wrote.
`cmake` and `make` are assumed to write only below the build directory
they run in (`ToolRun.frame`): that is an assumption about the tools, which
the harness does not check, and every result that rests on it says so.
Reading a command's output only prints, so the inspection is a step that
may raise and nothing else. The other `print` calls are not modelled: they
are assumed not to raise. What the inspection prints is chosen by the
search `found_error` and the excerpt loop (`foundError`, `excerptLines`),
with `str.lower` a parameter.

`add_invalid_file_reference` opens the manifest in text mode: it reads
with universal newlines and writes `os.linesep` for each `\n`
(`readFile`, `writeText`); `shutil.copy2` copies the bytes.
-/
import OpenFido.Python.Filesystem
import OpenFido.Python.Exec

namespace OpenFido.Harness

open OpenFido.Python

/-! ## The environment -/

/-- `subprocess.CompletedProcess`. -/
structure CompletedProcess where
  returncode : Int
  stdout : String
  stderr : String

/-- How a write ends: it completes, or it raises `e` and the target holds
`left` (a truncated or partly written file, the old one, or nothing). -/
inductive WriteOutcome
  | completes
  | raises (e : PyExc) (left : Option String)

/-- One run of an external command with working directory `dir`: what
`subprocess.run` returns or raises, and what the tool did to the disk.
`frame` is the assumption that the tool writes nothing outside `dir`. -/
structure ToolRun (dir : String) where
  result : Except PyExc CompletedProcess
  effect : Disk → Disk
  frame : ∀ d p, isUnder dir p = false → (effect d).entry p = d.entry p

/-- Everything the environment decides in one run of `main`. -/
structure Env (buildDir : String) where
  /-- `os.linesep`: `\n` on POSIX, `\r\n` on Windows. -/
  linesep : String
  /-- `shutil.copy2` in `backup_file`. -/
  backupCopy : WriteOutcome
  /-- `f.read()` in `add_invalid_file_reference`. -/
  manifestRead : Option PyExc
  /-- `f.write(modified_content)` in `add_invalid_file_reference`. -/
  manifestWrite : WriteOutcome
  /-- `cmake .` -/
  cmake : ToolRun buildDir
  /-- Reading and printing the `cmake` output. -/
  cmakeInspection : Option PyExc
  /-- `mingw32-make openfido` -/
  mingwMake : ToolRun buildDir
  /-- `make openfido`, the fallback. -/
  make : ToolRun buildDir
  /-- Reading and printing the `make` output. -/
  makeInspection : Option PyExc
  /-- `shutil.copy2` in `restore_file`. -/
  restoreCopy : WriteOutcome
  /-- `os.remove` in `restore_file`. -/
  restoreRemove : Option PyExc

/-! ## The world -/

/-- What `main`'s `finally` block can see: the disk, and the two locals the
`try` body assigns. -/
structure World where
  disk : Disk
  backupPath : Option String
  exitCode : Nat

abbrev HarnessM := PyM PyExc World

/-! ## Primitives -/

def getDisk : HarnessM Disk := do return (← get).disk

/-- Put `e` at `p`. -/
def setEntry (p : String) (e : Option Entry) : HarnessM Unit :=
  modify fun w => { w with disk := w.disk.set p e }

/-- A step that raises when the environment says so. -/
def raiseIf : Option PyExc → HarnessM Unit
  | some e => throw e
  | none => pure ()

/-- Writing `text` to `p`: a directory refuses the open; otherwise the
environment decides how the write ends. -/
def writeFile (o : WriteOutcome) (p text : String) : HarnessM Unit := do
  if (← getDisk).isDir p then throw .isADirectoryError
  match o with
  | .completes => setEntry p (some (.file text))
  | .raises e left => do setEntry p (left.map .file); throw e

/-- `open(p, 'w').write(text)`, in text mode. -/
def writeText (linesep : String) (o : WriteOutcome) (p text : String) : HarnessM Unit :=
  writeFile o p (writtenText linesep text)

/-- `open(p, 'r').read()`, in text mode. -/
def readFile (fails : Option PyExc) (p : String) : HarnessM String := do
  match (← getDisk).read p with
  | .error e => throw e
  | .ok text => do raiseIf fails; return readText text

/-- The path `shutil.copy2(src, dst)` writes: into a directory `dst` it
copies to `dst/basename(src)`. -/
def copyTarget (d : Disk) (src dst : String) : String :=
  if d.isDir dst then osPathJoin dst (basename src) else dst

/-- `shutil.copy2(src, dst)`: the same file is refused, then the source is
opened and the destination written. -/
def copy2 (o : WriteOutcome) (src dst : String) : HarnessM Unit := do
  let d ← getDisk
  let dst := copyTarget d src dst
  if src = dst then throw .sameFileError
  match d.read src with
  | .error e => throw e
  | .ok text => writeFile o dst text

/-- `os.remove(p)`. -/
def osRemove (fails : Option PyExc) (p : String) : HarnessM Unit := do
  match (← getDisk).entry p with
  | none => throw .fileNotFoundError
  | some .dir => throw .isADirectoryError
  | some (.file _) => do raiseIf fails; setEntry p none

/-- `subprocess.run(...)` in `dir`: the tool's writes, then its result. -/
def subprocessRun {dir : String} (t : ToolRun dir) : HarnessM CompletedProcess := do
  modify fun w => { w with disk := t.effect w.disk }
  match t.result with
  | .ok r => return r
  | .error e => throw e

/-- The scan of `str.replace(old, new)`, for a non-empty `old`: `skip`
characters of the last replaced occurrence are still to be passed over. -/
def replaceFrom (old new : List Char) : Nat → List Char → List Char
  | _, [] => []
  | skip + 1, _ :: cs => replaceFrom old new skip cs
  | 0, c :: cs =>
    if old.isPrefixOf (c :: cs) then new ++ replaceFrom old new (old.length - 1) cs
    else c :: replaceFrom old new 0 cs

/-- `content.replace(old, new)`: each occurrence of `old`, from the left and
not overlapping, becomes `new`. -/
def strReplace (content old new : String) : String :=
  String.mk (replaceFrom old.toList new.toList 0 content.toList)

/-! ## The search of a command's output -/

/-- `error_patterns` of Steps 3 and 6; the last is `invalid_file`. -/
def errorPatterns (invalidFile : String) : List String :=
  ["nonexistent_file.c", "No such file", "cannot find", "does not exist", invalidFile]

/-- `any(p.lower() in text.lower() for p in patterns)`, with `str.lower`
as `lower`. -/
def mentions (lower : String → String) (patterns : List String) (text : String) : Bool :=
  patterns.any fun p => decide ((lower p).toList <:+: (lower text).toList)

/-- The `found_error` loop: it stops at the first pattern whose
lower-cased text occurs in the lower-cased output. -/
def foundError (lower : String → String) (patterns : List String) (combinedOutput : String) : Bool :=
  mentions lower patterns combinedOutput

/-- `text.split('\n')`: the pieces between newlines, empty ones kept. -/
def splitNewline (text : String) : List String := (text.toList.splitOn '\n').map String.mk

/-- The lines the loop after `Error output excerpt:` prints. -/
def excerptLines (lower : String → String) (patterns : List String) (combinedOutput : String) :
    List String :=
  (splitNewline combinedOutput).filter (mentions lower patterns)

/-! ## The harness -/

/-- `backup_file(filepath)`. -/
def backupFile {b : String} (env : Env b) (filepath : String) : HarnessM String := do
  let backupPath := filepath ++ ".backup"
  copy2 env.backupCopy filepath backupPath
  return backupPath

/-- `restore_file(filepath, backup_path)`. -/
def restoreFile {b : String} (env : Env b) (filepath backupPath : String) : HarnessM Unit := do
  copy2 env.restoreCopy backupPath filepath
  osRemove env.restoreRemove backupPath

/-- The block of `CMakeLists.txt` the harness looks for. -/
def cryptoSources : String := "set(CRYPTO_SOURCES\n    src/crypto/crypto.c\n)"

/-- The block it puts in its place. -/
def cryptoSourcesWithInvalid : String :=
  "set(CRYPTO_SOURCES\n    src/crypto/crypto.c\n    src/crypto/nonexistent_file.c\n)"

/-- `add_invalid_file_reference(cmake_file)`. -/
def addInvalidFileReference {b : String} (env : Env b) (cmakeFile : String) :
    HarnessM String := do
  let content ← readFile env.manifestRead cmakeFile
  let modifiedContent := strReplace content cryptoSources cryptoSourcesWithInvalid
  writeText env.linesep env.manifestWrite cmakeFile modifiedContent
  return "src/crypto/nonexistent_file.c"

/-- `run_cmake_reconfigure(build_dir)`. -/
def runCmakeReconfigure {b : String} (env : Env b) : HarnessM (Option CompletedProcess) :=
  tryCatch (do let result ← subprocessRun env.cmake; return some result) fun
    | .timeoutExpired => return none
    | e => throw e

/-- `run_make_build(build_dir)`: `mingw32-make`, and `make` when that is
not found. -/
def runMakeBuild {b : String} (env : Env b) : HarnessM (Option CompletedProcess) :=
  tryCatch (do let result ← subprocessRun env.mingwMake; return some result) fun
    | .timeoutExpired => return none
    | .fileNotFoundError =>
      tryCatch (do let result ← subprocessRun env.make; return some result) fun _ => return none
    | e => throw e

def setExitCode (n : Nat) : HarnessM Unit := modify fun w => { w with exitCode := n }

/-- Steps 2 to 6 of the `try` body: mutate, reconfigure, build, inspect. -/
def mutateAndBuild {b : String} (env : Env b) (cmakeFile : String) : HarnessM Unit := do
  let _invalidFile ← addInvalidFileReference env cmakeFile
  match ← runCmakeReconfigure env with
  | none => setExitCode 1
  | some reconfigResult =>
    if reconfigResult.returncode ≠ 0 then raiseIf env.cmakeInspection
    else
      match ← runMakeBuild env with
      | none => setExitCode 1
      | some result =>
        if result.returncode = 0 then setExitCode 1
        raiseIf env.makeInspection

/-- The `try` body of `main`: Step 1, `backup_path = backup_file(cmake_file)`,
then the rest. -/
def mainBody {b : String} (env : Env b) (cmakeFile : String) : HarnessM Unit := do
  let backupPath ← backupFile env cmakeFile
  modify fun w => { w with backupPath := some backupPath }
  mutateAndBuild env cmakeFile

/-- The `finally` block of `main`. -/
def mainFinally {b : String} (env : Env b) (cmakeFile : String) : HarnessM Unit := do
  let w ← get
  match w.backupPath with
  | some backupPath =>
    if !backupPath.isEmpty && w.disk.pathExists backupPath then
      restoreFile env cmakeFile backupPath
  | none => pure ()

/-- `os.path.join(project_root, 'CMakeLists.txt')`. -/
def cmakeFileOf (projectRoot : String) : String := osPathJoin projectRoot "CMakeLists.txt"

/-- `os.path.join(project_root, 'build')`. -/
def buildDirOf (projectRoot : String) : String := osPathJoin projectRoot "build"

/-- `main()` with `project_root` (the parent of the script's directory). -/
def main (projectRoot : String) (env : Env (buildDirOf projectRoot)) : HarnessM Nat := do
  let cmakeFile := cmakeFileOf projectRoot
  if !(← getDisk).pathExists cmakeFile then return 1
  if !(← getDisk).pathExists (buildDirOf projectRoot) then return 1
  modify fun w => { w with backupPath := none, exitCode := 0 }
  withFinally (mainBody env cmakeFile) (mainFinally env cmakeFile)
  return (← get).exitCode

/-- The status of `sys.exit(main())`: the return value, or `1` for an
exception that escapes `main`. An interrupt, which ends the process by a
signal, is not a `PyExc`. -/
def exitStatus : Except PyExc Nat → Nat
  | .ok code => code
  | .error _ => 1

end OpenFido.Harness

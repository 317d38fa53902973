/-
OpenFido.Python.Filesystem — the part of the Python runtime that
`scripts/validate_build.py` and `tests/test_cmake_error_handling.py` stand
on: the exception classes they raise, catch or let escape, the filesystem
as a map from paths to entries, and the path operations `os.path.join`,
`os.path.basename` and pathlib's `/`, and text mode, which `open(p, 'r')`
and `open(p, 'w')` give.

A path is a `String`, and two paths name the same file exactly when they
are the same string: there are no symbolic links and no normalisation, so
`a//b` and `a/b` are different keys. An entry is a regular file with its
text or a directory, so no path is both (`Entry`).

`osPathJoin` is `posixpath.join` for two components, branch for branch.
Every path the scripts build joins a RELATIVE component, and for those the
result is a prefix that depends on the left component only, followed by
the right one (`osPathJoin_of_relative`); that one equation is what the
later modules use.

A file holds the decoded text (`Entry.file`): decoding and encoding are
not modelled. Text mode with `newline=None` is: a read returns the text
with universal newlines (`readText`: `\r\n` and a lone `\r` become `\n`),
and a write puts `os.linesep` (`\n` on POSIX, `\r\n` on Windows) for each
`\n` (`writtenText`). `shutil.copy2` copies bytes and translates nothing.
-/
import Mathlib.Data.List.Infix

namespace OpenFido.Python

/-- The exception classes the two scripts raise, catch or let escape.
`other` is any class neither script names. -/
inductive PyExc
  | fileNotFoundError
  | isADirectoryError
  | sameFileError
  | timeoutExpired
  | other (name : String)
  deriving DecidableEq, Repr

/-- What a path holds. -/
inductive Entry
  | file (text : String)
  | dir
  deriving DecidableEq, Repr

/-- The filesystem: what each path holds, if anything. -/
structure Disk where
  entry : String → Option Entry

namespace Disk

/-- `os.path.exists` and pathlib's `Path.exists`: a file or a directory. -/
def pathExists (d : Disk) (p : String) : Bool := (d.entry p).isSome

/-- `os.path.isfile`: a regular file; a directory does not count. -/
def isFile (d : Disk) (p : String) : Bool :=
  match d.entry p with
  | some (.file _) => true
  | _ => false

/-- `os.path.isdir`. -/
def isDir (d : Disk) (p : String) : Bool := d.entry p == some .dir

/-- `open(p, 'r').read()`: the text of a regular file, and the error
`open` raises on a directory or on a missing path. -/
def read (d : Disk) (p : String) : Except PyExc String :=
  match d.entry p with
  | some (.file text) => .ok text
  | some .dir => .error .isADirectoryError
  | none => .error .fileNotFoundError

/-- A disk given by the list of what is there. -/
def ofList (l : List (String × Entry)) : Disk := ⟨fun p => l.lookup p⟩

/-- The disk with `p` holding `e` (`none`: removed). -/
def set (d : Disk) (p : String) (e : Option Entry) : Disk :=
  ⟨fun q => if q = p then e else d.entry q⟩

@[simp] theorem set_entry (d : Disk) (p q : String) (e : Option Entry) :
    (d.set p e).entry q = if q = p then e else d.entry q := rfl

theorem pathExists_of_entry {d : Disk} {p : String} {e : Entry} (h : d.entry p = some e) :
    d.pathExists p = true := by
  simp [pathExists, h]

theorem read_eq_ok {d : Disk} {p text : String} (h : d.entry p = some (.file text)) :
    d.read p = .ok text := by
  simp [read, h]

theorem read_eq_ok_iff {d : Disk} {p text : String} :
    d.read p = .ok text ↔ d.entry p = some (.file text) := by
  unfold read
  split <;> simp_all

theorem isDir_iff {d : Disk} {p : String} : d.isDir p = true ↔ d.entry p = some .dir := by
  simp [isDir]

end Disk

/-! ## Paths -/

/-- `s.startswith('/')`. -/
def startsWithSep (s : String) : Bool := s.toList.head? == some '/'

/-- `s.endswith('/')`. -/
def endsWithSep (s : String) : Bool := s.toList.getLast? == some '/'

/-- `posixpath.join(a, b)`: an absolute `b` replaces `a`; otherwise a
separator goes between them unless `a` is empty or already ends in one. -/
def osPathJoin (a b : String) : String :=
  if startsWithSep b then b
  else if a.isEmpty || endsWithSep a then a ++ b
  else a ++ "/" ++ b

/-- What `osPathJoin a` puts before a relative component. -/
def joinPrefix (a : String) : String :=
  if a.isEmpty || endsWithSep a then a else a ++ "/"

theorem osPathJoin_of_relative (a : String) {b : String} (hb : startsWithSep b = false) :
    osPathJoin a b = joinPrefix a ++ b := by
  unfold osPathJoin joinPrefix
  split_ifs <;> simp_all [String.append_assoc]

/-- `os.path.basename(p)`: what follows the last separator. -/
def basename (p : String) : String :=
  String.mk (p.toList.reverse.takeWhile (· != '/')).reverse

/-- pathlib's `/` on a normalised path (the form `str` prints) and a
one-segment name: the current directory `.` is dropped. -/
def pathDiv (p name : String) : String :=
  if p = "." then name else osPathJoin p name

/-- `p` lies strictly below the directory `dir`. -/
def isUnder (dir p : String) : Bool := (dir ++ "/").toList.isPrefixOf p.toList

/-! ## Text mode -/

/-- Universal newlines: `\r\n` and a lone `\r` are read as `\n`. -/
def universalNewlines : List Char → List Char
  | '\r' :: '\n' :: cs => '\n' :: universalNewlines cs
  | '\r' :: cs => '\n' :: universalNewlines cs
  | c :: cs => c :: universalNewlines cs
  | [] => []

/-- What a text-mode `read()` returns for a file holding `text`. -/
def readText (text : String) : String := String.mk (universalNewlines text.toList)

/-- The write side: each `\n` goes out as `linesep`. -/
def translateNewlines (linesep : String) (cs : List Char) : List Char :=
  cs.flatMap fun c => if c = '\n' then linesep.toList else [c]

/-- What a text-mode `write(text)` puts in the file. -/
def writtenText (linesep text : String) : String :=
  String.mk (translateNewlines linesep text.toList)

theorem universalNewlines_cons_of_ne {c : Char} (hc : c ≠ '\r') (cs : List Char) :
    universalNewlines (c :: cs) = c :: universalNewlines cs := by
  conv_lhs => unfold universalNewlines
  split <;> simp_all

theorem universalNewlines_cr_of_not_lf {cs : List Char} (h : ∀ t, cs = '\n' :: t → False) :
    universalNewlines ('\r' :: cs) = '\n' :: universalNewlines cs := by
  rcases cs with _ | ⟨c, cs⟩
  · rfl
  · rw [universalNewlines]
    simpa using h

end OpenFido.Python

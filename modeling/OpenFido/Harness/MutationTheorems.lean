/-
OpenFido.Harness.MutationTheorems — the manifest Step 2 of the harness
writes, read by the validator of `scripts/validate_build.py`.

`add_invalid_file_reference` reads the manifest in text mode, so it sees
`readText T` (universal newlines), replaces the `CRYPTO_SOURCES` block,
written exactly as `cryptoSources` has it, by the block with one more
line, and writes the result in text mode, with `os.linesep` for each
`\n`. Where the block occurs in the text as read, the text written holds
the new block (`replaceFrom_of_occurs`), whose last line is a reference
the validator's scan finds wherever the block stands and whatever the line
separator (`findall_complete`, with the four spaces before it as the left
boundary); where it does not occur, the text as read is written back
(`replaceFrom_of_not_occurs`), the same file only for `\n` line ends on
POSIX, and the harness then exercises nothing.
-/
import OpenFido.Harness.RestoreTheorems
import OpenFido.Validate.ParseTheorems

namespace OpenFido.Harness

open OpenFido.Python OpenFido.Validate

/-! ## `str.replace` -/

end OpenFido.Harness

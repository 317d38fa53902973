import OpenFido.Python.Filesystem
import OpenFido.Python.Exec
import OpenFido.Validate.ValidateBuild
import OpenFido.Validate.ScanTheorems
import OpenFido.Validate.DedupTheorems
import OpenFido.Validate.ReportTheorems
import OpenFido.Validate.ParseTheorems
import OpenFido.Harness.ErrorHandling
import OpenFido.Harness.RestoreTheorems
import OpenFido.Harness.VerdictTheorems
import OpenFido.Harness.MutationTheorems
import OpenFido.Harness.FrameTheorems
import OpenFido.Flash.Flasher
import OpenFido.Flash.FlashTheorems

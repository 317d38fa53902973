/-
OpenFido.Flash.Flasher — `scripts/flash.py`, the flash dispatcher: it
checks that the firmware file exists and that the vendor tool is on the
search path, then runs the tool's commands with `check=True`.

The Python semantics kept:

* `error(msg)` prints `[ERROR] msg` on stderr and calls `sys.exit(1)`,
  which raises `SystemExit`; `except subprocess.CalledProcessError:` does
  not catch it, nor anything else `subprocess.run` raises (`Raise`);
* `subprocess.run(cmd, check=True)` starts the command, so it is recorded
  as invoked, and then raises what starting it raised, or
  `CalledProcessError` when it exits with a non-zero status;
* the status the process ends with is `0` when `main` returns, the code
  of a `SystemExit`, and `1` for any other exception (`exitStatus`); an
  interrupt, which ends the process by a signal, is not modelled;
* `print(text)` writes the text and a newline: the trace records the texts,
  one per call, not the lines they make, and not what the started tools
  write on the same streams.

`argparse` is not modelled: `main` takes the parsed namespace (`Args`),
whose `platform` and `method` can only be the declared choices, with
`method` defaulting to `st-flash`. What the machine decides is an
argument (`Host`): which names `shutil.which` finds, and what each
command does when started.
-/
import OpenFido.Python.Filesystem
import OpenFido.Python.Exec

namespace OpenFido.Flash

open OpenFido.Python

/-! ## The host and the trace -/

/-- What can escape a function of the script. -/
inductive Raise
  /-- `subprocess.CalledProcessError`, with the command's exit status. -/
  | calledProcessError (returncode : Int)
  /-- `SystemExit`, raised by `sys.exit`. -/
  | systemExit (code : Nat)
  /-- Anything else `subprocess.run` raises, such as `FileNotFoundError`. -/
  | exc (e : PyExc)
  deriving DecidableEq, Repr

/-- What the machine the script runs on decides. -/
structure Host where
  /-- `shutil.which(name) is not None`. -/
  onPath : String → Bool
  /-- What starting `cmd` raises, or the status it exits with. -/
  exec : List String → Except PyExc Int

/-- What a run leaves behind: the texts the script passed to `print` on
each stream, one per call, and the commands started, in order. -/
structure Trace where
  stdout : List String
  stderr : List String
  invoked : List (List String)
  deriving DecidableEq, Repr

/-- The empty trace a run of the script starts from. -/
def Trace.empty : Trace := ⟨[], [], []⟩

abbrev FlashM := PyM Raise Trace

/-! ## The script -/

/-- `log(msg)`. -/
def log (msg : String) : FlashM Unit :=
  modify fun t => { t with stdout := t.stdout ++ ["[OpenFIDO Flasher] " ++ msg] }

/-- `error(msg)`: it prints, then raises `SystemExit(1)`. -/
def error {α : Type} (msg : String) : FlashM α := do
  modify fun t => { t with stderr := t.stderr ++ ["[ERROR] " ++ msg] }
  throw (.systemExit 1)

/-- `check_tool(tool_name)`. -/
def checkTool (host : Host) (toolName : String) : Bool := host.onPath toolName

/-- `subprocess.run(cmd, check=True)`. -/
def subprocessRun (host : Host) (cmd : List String) : FlashM Unit := do
  modify fun t => { t with invoked := t.invoked ++ [cmd] }
  match host.exec cmd with
  | .error e => throw (.exc e)
  | .ok returncode => if returncode ≠ 0 then throw (.calledProcessError returncode)

/-- `except subprocess.CalledProcessError: error("Flashing failed.")`, the
handler of both flashing functions; other exceptions pass through. -/
def onFlashFailure : Raise → FlashM Unit
  | .calledProcessError _ => error "Flashing failed."
  | e => throw e

/-- `flash_stm32(firmware_path, method)`. -/
def flashStm32 (host : Host) (firmwarePath method : String) : FlashM Unit := do
  log ("Flashing STM32 with " ++ firmwarePath ++ " using " ++ method ++ "...")
  let cmd ← if method = "st-flash" then do
      if !checkTool host "st-flash" then error "st-flash not found. Please install stlink-tools."
      pure ["st-flash", "write", firmwarePath, "0x8000000"]
    else if method = "openocd" then do
      if !checkTool host "openocd" then error "openocd not found."
      pure ["openocd", "-f", "interface/stlink.cfg", "-f", "target/stm32f4x.cfg",
        "-c", "program " ++ firmwarePath ++ " verify reset exit 0x08000000"]
    else error ("Unknown STM32 flash method: " ++ method)
  tryCatch (do subprocessRun host cmd; log "Flashing complete!") onFlashFailure

/-- `flash_nrf52(firmware_path)`. -/
def flashNrf52 (host : Host) (firmwarePath : String) : FlashM Unit := do
  log ("Flashing nRF52 with " ++ firmwarePath ++ "...")
  if !checkTool host "nrfjprog" then
    error "nrfjprog not found. Please install nRF Command Line Tools."
  tryCatch (do
      log "Erasing chip..."
      subprocessRun host ["nrfjprog", "--eraseall"]
      log "Programming..."
      subprocessRun host ["nrfjprog", "--program", firmwarePath, "--verify"]
      log "Resetting..."
      subprocessRun host ["nrfjprog", "--reset"]
      log "Flashing complete!")
    onFlashFailure

/-! ## `main` -/

/-- `--platform`, one of its declared choices. -/
inductive Platform
  | stm32
  | nrf52
  deriving DecidableEq, Repr

/-- `--method`, one of its declared choices. -/
inductive Method
  | stFlash
  | openocd
  deriving DecidableEq, Repr

/-- The string `argparse` stores for a choice of `--method`. -/
def Method.text : Method → String
  | .stFlash => "st-flash"
  | .openocd => "openocd"

/-- The namespace `parser.parse_args()` returns. -/
structure Args where
  platform : Platform
  firmware : String
  method : Method := .stFlash
  deriving DecidableEq, Repr

/-- `main()` after `parse_args`. -/
def main (host : Host) (fs : Disk) (args : Args) : FlashM Unit := do
  if !fs.pathExists args.firmware then error ("Firmware file not found: " ++ args.firmware)
  match args.platform with
  | .stm32 => flashStm32 host args.firmware args.method.text
  | .nrf52 => flashNrf52 host args.firmware

/-- The status the process ends with: an exception that escapes `main`
other than `SystemExit` ends it with `1`. -/
def exitStatus : Except Raise Unit → Nat
  | .ok () => 0
  | .error (.systemExit code) => code
  | .error _ => 1

end OpenFido.Flash

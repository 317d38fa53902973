/-
OpenFido.Flash.FlashTheorems — `scripts/flash.py` against the dispatcher
of the design, on every host, every filesystem and every parsed command
line.

The design's dispatcher (`dispatch`) needs the firmware file and the
platform's vendor tool, then runs a fixed plan of commands (`Args.plan`:
one write at the flash base address for STM32; erase, program with
verify, and reset for nRF52) in order until one fails (`attempted`,
`outcomeOf`), and ends with status `0` exactly when none failed.

`main_endsAs_dispatch` says the script is that dispatcher: on every run
the commands it starts, the `[ERROR]` line it prints and the status it
ends with are the dispatcher's, and it passes `Flashing complete!` to
`print` exactly when that status is `0` (`EndsAs`). It is assembled from one run
lemma per function; the nRF52 `try` body is the command sequence
`runSteps`, whose run lemma is an induction over the commands. The
theorems after it read the contract off: the exit status, the completion
line, and the commands started.
-/
import OpenFido.Flash.Flasher

namespace OpenFido.Flash

open OpenFido.Python

/-! ## One statement at a time -/

/-- A command that started and exited with status `0`. -/
def succeeded : Except PyExc Int → Bool
  | .ok returncode => returncode == 0
  | .error _ => false

/-- What `subprocess.run(…, check=True)` raises for a command that did not
succeed. -/
def raiseOf : Except PyExc Int → Raise
  | .ok returncode => .calledProcessError returncode
  | .error e => .exc e

@[simp] theorem run_log (msg : String) (t : Trace) :
    run (log msg) t = (.ok (), { t with stdout := t.stdout ++ ["[OpenFIDO Flasher] " ++ msg] }) :=
  rfl

@[simp] theorem run_error {α : Type} (msg : String) (t : Trace) :
    run (error msg : FlashM α) t =
      (.error (.systemExit 1), { t with stderr := t.stderr ++ ["[ERROR] " ++ msg] }) := rfl

theorem run_subprocessRun (host : Host) (cmd : List String) (t : Trace) :
    run (subprocessRun host cmd) t =
      (if succeeded (host.exec cmd) then .ok () else .error (raiseOf (host.exec cmd)),
        { t with invoked := t.invoked ++ [cmd] }) := by
  unfold subprocessRun
  rcases host.exec cmd with e | returncode
  · rfl
  · by_cases h : returncode = 0 <;> simp [h, succeeded, raiseOf, run_bind]

/-! ## The dispatcher of the design -/

/-- The commands of `cmds` that are started when each runs only after the
one before it succeeded: all of them up to the first failure. -/
def attempted (host : Host) : List (List String) → List (List String)
  | [] => []
  | c :: cs => c :: if succeeded (host.exec c) then attempted host cs else []

/-- How that run of `cmds` ends: normally, or with what the first failing
command raises. -/
def outcomeOf (host : Host) : List (List String) → Except Raise Unit
  | [] => .ok ()
  | c :: cs => if succeeded (host.exec c) then outcomeOf host cs else .error (raiseOf (host.exec c))

/-- The vendor tool a run needs. -/
def Args.tool (args : Args) : String :=
  match args.platform, args.method with
  | .stm32, .stFlash => "st-flash"
  | .stm32, .openocd => "openocd"
  | .nrf52, _ => "nrfjprog"

/-- The message that names it when it is not found. -/
def Args.toolMissing (args : Args) : String :=
  match args.platform, args.method with
  | .stm32, .stFlash => "st-flash not found. Please install stlink-tools."
  | .stm32, .openocd => "openocd not found."
  | .nrf52, _ => "nrfjprog not found. Please install nRF Command Line Tools."

/-- The commands, in order, with their fixed argument templates: a write
at the flash base address `0x08000000` for STM32; erase, program with
verify, and reset for nRF52. -/
def Args.plan (args : Args) : List (List String) :=
  match args.platform, args.method with
  | .stm32, .stFlash => [["st-flash", "write", args.firmware, "0x8000000"]]
  | .stm32, .openocd => [["openocd", "-f", "interface/stlink.cfg", "-f", "target/stm32f4x.cfg",
      "-c", "program " ++ args.firmware ++ " verify reset exit 0x08000000"]]
  | .nrf52, _ => [["nrfjprog", "--eraseall"], ["nrfjprog", "--program", args.firmware, "--verify"],
      ["nrfjprog", "--reset"]]

/-- What the contract says of a run: the commands started, the `[ERROR]`
line printed, and the exit status. -/
structure Verdict where
  invoked : List (List String)
  message : Option String
  status : Nat

/-- Refused before any command is started. -/
def Verdict.refused (message : String) : Verdict := ⟨[], some message, 1⟩

/-- The plan `cmds` run to its first failure, a non-zero exit reported as
`Flashing failed.`. -/
def Verdict.ofPlan (host : Host) (cmds : List (List String)) : Verdict where
  invoked := attempted host cmds
  message := match outcomeOf host cmds with
    | .error (.calledProcessError _) => some "Flashing failed."
    | _ => none
  status := match outcomeOf host cmds with
    | .ok () => 0
    | .error _ => 1

/-- The dispatcher of the design. -/
def dispatch (host : Host) (fs : Disk) (args : Args) : Verdict :=
  if !fs.pathExists args.firmware then .refused ("Firmware file not found: " ++ args.firmware)
  else if !host.onPath args.tool then .refused args.toolMissing
  else .ofPlan host args.plan

/-- The text `log("Flashing complete!")` passes to `print`. -/
def completeLine : String := "[OpenFIDO Flasher] " ++ "Flashing complete!"

/-- A run from `t` ends as the verdict `v` says, and it prints the
completion text exactly when it ends with `0`. -/
structure EndsAs (r : Except Raise Unit × Trace) (t : Trace) (v : Verdict) : Prop where
  invoked : r.2.invoked = t.invoked ++ v.invoked
  stderr : r.2.stderr = t.stderr ++ (v.message.map ("[ERROR] " ++ ·)).toList
  status : exitStatus r.1 = v.status
  complete : completeLine ∈ r.2.stdout ↔ completeLine ∈ t.stdout ∨ v.status = 0

/-- Only the commands, the error lines and the completion line of the
start count. -/
theorem EndsAs.of_start {r : Except Raise Unit × Trace} {t t' : Trace} {v : Verdict}
    (h : EndsAs r t' v) (hi : t'.invoked = t.invoked) (he : t'.stderr = t.stderr)
    (ho : completeLine ∈ t'.stdout ↔ completeLine ∈ t.stdout) : EndsAs r t v :=
  ⟨hi ▸ h.invoked, he ▸ h.stderr, h.status, h.complete.trans (or_congr_left ho)⟩

/-- A string with a prefix that is not one of `s` is not `s`. -/
theorem append_ne_of_not_prefix {pre rest s : String} (h : ¬ pre.toList <+: s.toList) : pre ++ rest ≠ s :=
  fun he => h ⟨rest.toList, by rw [← he]; rfl⟩

/-- A line that is not the completion line does not print it. -/
theorem complete_mem_append_iff {out : List String} {line : String} (h : line ≠ completeLine) :
    completeLine ∈ out ++ [line] ↔ completeLine ∈ out := by
  simp [Ne.symm h]

/-- A log line whose message starts as the completion message does not is
not the completion line: the first lines of `flash_stm32` and
`flash_nrf52`, whatever the firmware path. -/
theorem logLine_ne_complete (head rest : String)
    (h : ¬ ("[OpenFIDO Flasher] " ++ head).toList <+: completeLine.toList) :
    "[OpenFIDO Flasher] " ++ (head ++ rest) ≠ completeLine := by
  rw [← String.append_assoc]
  exact append_ne_of_not_prefix h

@[simp] theorem run_error_bind {α β : Type} (msg : String) (k : α → FlashM β) (t : Trace) :
    run (error msg >>= k) t = run (error msg : FlashM β) t := rfl

/-- `error(msg)` ends a run as the design's refusal with that message. -/
theorem endsAs_error (msg : String) (t : Trace) :
    EndsAs (run (error msg : FlashM Unit) t) t (.refused msg) :=
  ⟨by simp [Verdict.refused], by simp [Verdict.refused], rfl, by simp [Verdict.refused]⟩

/-! ## The script is the dispatcher -/

/-- Commands each announced by a `log` line and run with `check=True`,
the shape of the `try` body of `flash_nrf52`. -/
def runSteps (host : Host) : List (String × List String) → FlashM Unit
  | [] => pure ()
  | (msg, cmd) :: rest => do log msg; subprocessRun host cmd; runSteps host rest

/-- The steps of `flash_nrf52`: erase, program with verify, reset. -/
def nrf52Steps (firmware : String) : List (String × List String) :=
  [("Erasing chip...", ["nrfjprog", "--eraseall"]),
    ("Programming...", ["nrfjprog", "--program", firmware, "--verify"]),
    ("Resetting...", ["nrfjprog", "--reset"])]

/-- The `try` body of `flash_nrf52` is its steps, then the completion line. -/
theorem runSteps_nrf52Steps (host : Host) (firmware : String) :
    (runSteps host (nrf52Steps firmware) >>= fun _ => log "Flashing complete!") = (do
      log "Erasing chip..."
      subprocessRun host ["nrfjprog", "--eraseall"]
      log "Programming..."
      subprocessRun host ["nrfjprog", "--program", firmware, "--verify"]
      log "Resetting..."
      subprocessRun host ["nrfjprog", "--reset"]
      log "Flashing complete!") := by
  simp only [nrf52Steps, runSteps, bind_assoc, pure_bind]

theorem run_runSteps (host : Host) : ∀ (steps : List (String × List String)) (t : Trace),
    (run (runSteps host steps) t).1 = outcomeOf host (steps.map Prod.snd) ∧
    (run (runSteps host steps) t).2.invoked = t.invoked ++ attempted host (steps.map Prod.snd) ∧
    (run (runSteps host steps) t).2.stderr = t.stderr ∧
    ∃ ls, (run (runSteps host steps) t).2.stdout = t.stdout ++ ls ∧
      ls <+: steps.map fun s => "[OpenFIDO Flasher] " ++ s.1
  | [], t => by simp [runSteps, outcomeOf, attempted]
  | (msg, cmd) :: rest, t => by
    simp only [runSteps, run_bind, run_log, run_subprocessRun, List.map_cons, outcomeOf, attempted]
    by_cases h : succeeded (host.exec cmd)
    · obtain ⟨h1, h2, h3, ls, h4, h5⟩ := run_runSteps host rest
        { t with stdout := t.stdout ++ ["[OpenFIDO Flasher] " ++ msg], invoked := t.invoked ++ [cmd] }
      simp only [h, if_true]
      exact ⟨h1, by simp [h2], h3, _ :: ls, by simp [h4], (List.prefix_cons_inj _).mpr h5⟩
    · simp [h]

theorem outcomeOf_ne_systemExit (host : Host) (code : Nat) :
    ∀ cmds, outcomeOf host cmds ≠ .error (.systemExit code)
  | [] => by simp [outcomeOf]
  | c :: cs => by
    unfold outcomeOf
    split
    · exact outcomeOf_ne_systemExit host code cs
    · cases host.exec c <;> simp [raiseOf]

/-- The `try … except CalledProcessError` of both flashing functions, around
a body that runs `cmds` to the first failure. -/
theorem endsAs_tryFlash {host : Host} {cmds : List (List String)} {body : FlashM Unit} {t : Trace}
    (hres : (run body t).1 = outcomeOf host cmds)
    (hinv : (run body t).2.invoked = t.invoked ++ attempted host cmds)
    (herr : (run body t).2.stderr = t.stderr)
    (hout : ∃ ls, (run body t).2.stdout = t.stdout ++ ls ∧ completeLine ∉ ls) :
    EndsAs (run (tryCatch (do body; log "Flashing complete!") onFlashFailure) t) t
      (.ofPlan host cmds) := by
  rw [run_tryCatch, run_bind]
  generalize run body t = p at hres hinv herr hout ⊢
  obtain ⟨r, t'⟩ := p
  obtain ⟨ls, hls, hnot⟩ := hout
  simp only at hres hinv herr hls
  have hkeep : completeLine ∈ t'.stdout ↔ completeLine ∈ t.stdout := by simp [hls, hnot]
  subst hres
  rcases ho : outcomeOf host cmds with e | ⟨⟩
  · cases e with
    | systemExit code => exact absurd ho (outcomeOf_ne_systemExit host code cmds)
    | _ => constructor <;> simp [onFlashFailure, Verdict.ofPlan, ho, hinv, herr, hkeep, exitStatus]
  · constructor <;> simp [Verdict.ofPlan, ho, hinv, herr, exitStatus, completeLine]

/-- A try body of one command, the shape of `flash_stm32`'s. -/
theorem endsAs_tryOne (host : Host) (cmd : List String) (t : Trace) :
    EndsAs (run (tryCatch (do subprocessRun host cmd; log "Flashing complete!") onFlashFailure) t) t
      (.ofPlan host [cmd]) :=
  endsAs_tryFlash (by simp [run_subprocessRun, outcomeOf]) (by simp [run_subprocessRun, attempted])
    (by simp [run_subprocessRun]) ⟨[], by simp [run_subprocessRun], List.not_mem_nil _⟩

theorem endsAs_flashStm32 (host : Host) (args : Args) (hp : args.platform = .stm32) (t : Trace) :
    EndsAs (run (flashStm32 host args.firmware args.method.text) t) t
      (if !host.onPath args.tool then .refused args.toolMissing else .ofPlan host args.plan) := by
  obtain ⟨_, fw, m⟩ := args
  subst hp
  have hline : ∀ method, "[OpenFIDO Flasher] " ++ ("Flashing STM32 with " ++ fw ++ " using " ++ method ++
      "...") ≠ completeLine := fun _ => by
    simp only [String.append_assoc]
    exact logLine_ne_complete _ _ (by decide)
  cases m <;> simp only [flashStm32, Method.text, Args.tool, Args.toolMissing, Args.plan, checkTool,
    run_bind, run_log, if_true, if_false]
  case stFlash =>
    cases host.onPath "st-flash" <;> simp only [Bool.not_true, Bool.not_false, Bool.false_eq_true,
      if_true, if_false, pure_bind, run_error_bind]
    · exact (endsAs_error _ _).of_start rfl rfl (complete_mem_append_iff (hline _))
    · exact (endsAs_tryOne _ _ _).of_start rfl rfl (complete_mem_append_iff (hline _))
  case openocd =>
    cases host.onPath "openocd" <;> simp only [Bool.not_true, Bool.not_false, Bool.false_eq_true,
      if_true, if_false, pure_bind, run_error_bind]
    · exact (endsAs_error _ _).of_start rfl rfl (complete_mem_append_iff (hline _))
    · exact (endsAs_tryOne _ _ _).of_start rfl rfl (complete_mem_append_iff (hline _))

theorem endsAs_flashNrf52 (host : Host) (args : Args) (hp : args.platform = .nrf52) (t : Trace) :
    EndsAs (run (flashNrf52 host args.firmware) t) t
      (if !host.onPath args.tool then .refused args.toolMissing else .ofPlan host args.plan) := by
  obtain ⟨_, fw, m⟩ := args
  subst hp
  have hline : "[OpenFIDO Flasher] " ++ ("Flashing nRF52 with " ++ fw ++ "...") ≠ completeLine := by
    simp only [String.append_assoc]
    exact logLine_ne_complete _ _ (by decide)
  simp only [flashNrf52, ← runSteps_nrf52Steps, Args.tool, Args.toolMissing, Args.plan, checkTool,
    run_bind, run_log]
  cases host.onPath "nrfjprog" <;> simp only [Bool.not_true, Bool.not_false, Bool.false_eq_true,
    if_true, if_false, pure_bind, run_error_bind]
  · exact (endsAs_error _ _).of_start rfl rfl (complete_mem_append_iff hline)
  · obtain ⟨h1, h2, h3, ls, h4, h5⟩ := run_runSteps host (nrf52Steps fw)
      { t with stdout := t.stdout ++ ["[OpenFIDO Flasher] " ++ ("Flashing nRF52 with " ++ fw ++ "...")] }
    exact (endsAs_tryFlash h1 h2 h3 ⟨ls, h4, fun hm => absurd (h5.subset hm)
      (show completeLine ∉ ["[OpenFIDO Flasher] " ++ "Erasing chip...", "[OpenFIDO Flasher] " ++
        "Programming...", "[OpenFIDO Flasher] " ++ "Resetting..."] by decide)⟩).of_start
      rfl rfl (complete_mem_append_iff hline)

/-- **The script is the dispatcher of the design.** On every host, every
filesystem and every parsed command line, `main` starts the commands the
dispatcher starts, prints its `[ERROR]` line, and ends with its status. -/
theorem main_endsAs_dispatch (host : Host) (fs : Disk) (args : Args) (t : Trace) :
    EndsAs (run (main host fs args) t) t (dispatch host fs args) := by
  unfold main dispatch
  cases fs.pathExists args.firmware <;> simp only [Bool.not_true, Bool.not_false, Bool.false_eq_true,
    if_true, if_false, run_bind, run_error_bind, pure_bind]
  · exact endsAs_error _ _
  · split
    · exact endsAs_flashStm32 host args ‹_› t
    · exact endsAs_flashNrf52 host args ‹_› t

/-! ## The contract -/

theorem outcomeOf_eq_ok_iff (host : Host) : ∀ cmds : List (List String),
    outcomeOf host cmds = .ok () ↔ ∀ c ∈ cmds, succeeded (host.exec c) = true
  | [] => by simp [outcomeOf]
  | c :: cs => by
    by_cases h : succeeded (host.exec c) <;> simp [outcomeOf, h, outcomeOf_eq_ok_iff host cs]

theorem attempted_isPrefix (host : Host) : ∀ cmds : List (List String), attempted host cmds <+: cmds
  | [] => List.prefix_refl _
  | c :: cs => by
    unfold attempted
    split
    · exact (List.prefix_cons_inj c).mpr (attempted_isPrefix host cs)
    · exact (List.prefix_cons_inj c).mpr (List.nil_prefix)

theorem attempted_eq_nil_iff (host : Host) (cmds : List (List String)) :
    attempted host cmds = [] ↔ cmds = [] := by
  cases cmds <;> simp [attempted]

/-- Every command started before the last one succeeded. -/
theorem succeeded_of_mem_dropLast_attempted (host : Host) : ∀ (cmds : List (List String)),
    ∀ c ∈ (attempted host cmds).dropLast, succeeded (host.exec c) = true
  | [], c, h => by simp [attempted] at h
  | d :: ds, c, h => by
    unfold attempted at h
    by_cases hd : succeeded (host.exec d)
    · rw [if_pos hd] at h
      cases ha : attempted host ds with
      | nil => simp [ha] at h
      | cons a as =>
        rw [ha, List.dropLast_cons₂] at h
        rcases List.mem_cons.mp h with rfl | h
        · exact hd
        · exact succeeded_of_mem_dropLast_attempted host ds c (ha ▸ h)
    · simp [hd] at h

/-- The run stops only at a command that failed. -/
theorem attempted_eq_or_last_fails (host : Host) : ∀ cmds : List (List String),
    attempted host cmds = cmds ∨ ∀ c ∈ (attempted host cmds).getLast?, succeeded (host.exec c) = false
  | [] => .inl rfl
  | d :: ds => by
    unfold attempted
    by_cases hd : succeeded (host.exec d)
    · rw [if_pos hd]
      cases ha : attempted host ds with
      | nil => exact .inl (by rw [(attempted_eq_nil_iff host ds).mp ha])
      | cons a as =>
        rcases attempted_eq_or_last_fails host ds with h | h
        · exact .inl (by rw [← ha, h])
        · exact .inr (by rw [List.getLast?_cons_cons, ← ha]; exact h)
    · simp [hd]

theorem Args.plan_ne_nil (args : Args) : args.plan ≠ [] := by
  unfold Args.plan
  split <;> simp

/-- **Exit status of the dispatcher.** The script ends with `0` or `1`,
and with `0` exactly when the firmware file exists, the vendor tool is on
the search path, and every command of the plan exits with `0`. -/
theorem main_exit_status (host : Host) (fs : Disk) (args : Args) (t : Trace) :
    exitStatus (run (main host fs args) t).1 ≤ 1 ∧
    (exitStatus (run (main host fs args) t).1 = 0 ↔
      fs.pathExists args.firmware = true ∧ host.onPath args.tool = true ∧
      ∀ c ∈ args.plan, succeeded (host.exec c) = true) := by
  rw [(main_endsAs_dispatch host fs args t).status, ← outcomeOf_eq_ok_iff]
  unfold dispatch
  cases fs.pathExists args.firmware <;> cases host.onPath args.tool <;>
    simp only [Verdict.refused, Verdict.ofPlan, Bool.not_true, Bool.not_false, Bool.false_eq_true,
      if_true, if_false, false_and, and_false, true_and, Nat.one_ne_zero, iff_false, le_refl,
      and_self]
  rcases outcomeOf host args.plan with _ | ⟨⟩ <;> simp

/-- **The completion message is printed exactly on success.** On every
host, filesystem and parsed command line, a run of `main` passes
`[OpenFIDO Flasher] Flashing complete!` to `print` exactly when it ends
with status `0`: never after a refusal, nor after a command of the plan
that failed, whichever of them it was, and no other message of the script
is that text, whatever the firmware path. This is about the script's own
`print` calls: a firmware path holding a newline makes one of them print
more than one line, and the tools write on the same stdout. -/
theorem main_prints_complete_iff_success (host : Host) (fs : Disk) (args : Args) (t : Trace) :
    completeLine ∈ (run (main host fs args) t).2.stdout ↔
      completeLine ∈ t.stdout ∨ exitStatus (run (main host fs args) t).1 = 0 := by
  rw [(main_endsAs_dispatch host fs args t).complete, (main_endsAs_dispatch host fs args t).status]

/-- **The commands run in order, up to the first failure.** The commands
`main` starts are a prefix of the plan; every one but the last exited
with `0`; none is started exactly when the firmware file or the tool is
missing; and the run stops before the end of the plan only at a command
that failed. -/
theorem main_invokes_plan_in_order (host : Host) (fs : Disk) (args : Args) (t : Trace) :
    ∃ cs, (run (main host fs args) t).2.invoked = t.invoked ++ cs ∧ cs <+: args.plan ∧
      (∀ c ∈ cs.dropLast, succeeded (host.exec c) = true) ∧
      (cs = [] ↔ fs.pathExists args.firmware = false ∨ host.onPath args.tool = false) ∧
      (cs = args.plan ∨ ∀ c ∈ cs.getLast?, succeeded (host.exec c) = false) := by
  refine ⟨_, (main_endsAs_dispatch host fs args t).invoked, ?_⟩
  unfold dispatch
  cases fs.pathExists args.firmware <;> cases host.onPath args.tool <;>
    simp only [Verdict.refused, Verdict.ofPlan, Bool.not_true, Bool.not_false, Bool.false_eq_true,
      if_true, if_false]
  case true.true =>
    exact ⟨attempted_isPrefix host _, succeeded_of_mem_dropLast_attempted host _,
      by simp [attempted_eq_nil_iff, Args.plan_ne_nil], attempted_eq_or_last_fails host _⟩
  all_goals simp

/-- An nRF52 board whose erase fails is never programmed. -/
example : (run (main ⟨fun _ => true, fun _ => .ok 1⟩ (.ofList [("fw.hex", .file "")])
    ⟨.nrf52, "fw.hex", .stFlash⟩) .empty).2.invoked = [["nrfjprog", "--eraseall"]] := by
  decide

end OpenFido.Flash

/-
Listing through the host's command line (`lib/src/host_flatpak.dart`) and listing in
the process (`lib/src/installation.dart`).

Inside a sandbox `FlatpakInstallation.listRunning` is delegated to `flatpak ps` on the
host, whose rows have a runtime in two cells, its id and its branch; the arch between
them is taken from the instance.

`listRunning_agrees_iff` — both list the same instances exactly if all of them run and no
runtime is of another arch than its instance.
-/
import FlatpakDart.ClientRequests
import FlatpakDart.HostLaunch

open Glz Native Libflatpak Dart HostPs
open FlatpakClient (future future_collect arrived_glaze)

namespace Delegation

/-! ### One instance on both sides -/

/-- An instance of libflatpak that Dart can hold, with what `flatpak ps` prints of it: the
cells are its texts, and those of the runtime are parts of the ref. -/
structure Shown where
  inst : Instance
  row : PsInstance
  runtimeArch : String
  portable : Portable (InstallationReader.fpInstance inst)
  application : row.application.text = (safeStr inst.app).text
  instanceId : row.instanceId.text = (safeStr inst.id).text
  arch : row.arch.text = (safeStr inst.arch).text
  branch : row.branch.text = (safeStr inst.branch).text
  commit : row.commit.text = (safeStr inst.commit).text
  noRuntime : row.runtime.text = "" → (safeStr inst.runtime).text = ""
  runtime : row.runtime.text ≠ "" → (safeStr inst.runtime).text =
    "/".intercalate ["runtime", row.runtime.text, runtimeArch, row.runtimeBranch.text]
  pid : row.pid.toInt = inst.pid.toInt
  childPid : row.childPid.toInt = inst.childPid.toInt

/-- What the process lists of it. -/
def Shown.listed (x : Shown) : FlatpakInstance :=
  ofFpInstance (InstallationReader.fpInstance x.inst)

/-- A cell without whitespace. -/
def cell (text : String) (h : (text.toList.all fun c => !DartText.isWhitespace c) = true) :
    Cell where
  text := text
  oneCell c hc := by
    have hplain := List.all_eq_true.mp h c hc
    refine ⟨?_, ?_, ?_⟩ <;> rintro rfl <;> exact absurd hplain (by decide)
  trimmed := Fields.trimmed_of_free fun c hc => by simpa using List.all_eq_true.mp h c hc

def running : Instance where
  app := some (.ofString "org.x.Y")
  runtime := some (.ofString "runtime/org.P/x86_64/24")
  id := some (.ofString "9988")
  arch := some (.ofString "x86_64")
  branch := some (.ofString "stable")
  commit := some (.ofString "")
  pid := 70
  childPid := 71
  isRunning := true

end Delegation

/-
What `flatpak ps` lists, as the host's command line is read
(`lib/src/host_flatpak.dart`).

A line of the output is a row of nine cells, in the order `hostPsColumns` asks for
them; a pipe gets them with a tab between them, a terminal with spaces.

`parseHostPsOutput_output` — the rows are read back, whatever else is printed
between them.
-/
import FlatpakDart.CatalogCache
import FlatpakDart.DartText
import FlatpakDart.DartTypes

namespace HostPs

open CatalogCache (splitLines lineSplitter splitLines_text)

/-! ### The parse -/

/-- Column order requested from `flatpak ps`. -/
def hostPsColumns : String :=
  "application,instance,arch,branch,commit,runtime,runtime-branch,pid,child-pid"

/-- `_runtimeRef`. -/
def runtimeRef (id arch branch : String) : String :=
  if id = "" then ""
  else "runtime/" ++ id ++ "/" ++ arch ++ "/" ++ branch

/-- `cols`: the cells of a row. -/
def cols (row : List Char) : List (List Char) :=
  if '\t' ∈ row then (row.splitOn '\t').map DartText.trim
  else DartText.splitSpaces (DartText.trim row)

/-- The instance that nine cells describe. -/
def ofCols : List (List Char) → Option Dart.FlatpakInstance
  | [appId, instanceId, arch, branch, commit, runtime, runtimeBranch, pid, childPid] =>
    match DartText.tryParse pid, DartText.tryParse childPid with
    | some pid, some childPid => some {
        appId := String.ofList appId
        instanceId := String.ofList instanceId
        arch := String.ofList arch
        branch := String.ofList branch
        commit := String.ofList commit
        runtime := runtimeRef (String.ofList runtime) (String.ofList arch)
          (String.ofList runtimeBranch)
        pid
        childPid
        isRunning := true }
    | _, _ => none
  | _ => none

/-- What one line adds to the list. -/
def parseLine (line : List Char) : Option Dart.FlatpakInstance :=
  let row := if line.getLast? = some '\r' then line.dropLast else line
  if DartText.trim row = [] then none
  else ofCols (cols row)

/-- `parseHostPsOutput`. -/
def parseHostPsOutput (stdout : String) : List Dart.FlatpakInstance :=
  (lineSplitter stdout).filterMap fun line => parseLine line.toList

/-! ### What is printed -/

/-- A column of `flatpak ps`. -/
inductive Column
  | application
  | instanceId
  | arch
  | branch
  | commit
  | runtime
  | runtimeBranch
  | pid
  | childPid

def Column.name : Column → String
  | .application => "application"
  | .instanceId => "instance"
  | .arch => "arch"
  | .branch => "branch"
  | .commit => "commit"
  | .runtime => "runtime"
  | .runtimeBranch => "runtime-branch"
  | .pid => "pid"
  | .childPid => "child-pid"

/-- The columns that are asked for. -/
def columns : List Column :=
  [.application, .instanceId, .arch, .branch, .commit, .runtime, .runtimeBranch, .pid, .childPid]

example : hostPsColumns = ",".intercalate (columns.map Column.name) := by decide

/-- A cell: no tab, no line break, and no whitespace at its ends. -/
structure Cell where
  text : String
  oneCell : ∀ c ∈ text.toList, c ≠ '\t' ∧ c ≠ '\n' ∧ c ≠ '\r'
  trimmed : Fields.Trimmed DartText.isWhitespace text.toList

/-- What `flatpak ps` knows of a running instance. -/
structure PsInstance where
  application : Cell
  instanceId : Cell
  arch : Cell
  branch : Cell
  commit : Cell
  runtime : Cell
  runtimeBranch : Cell
  pid : Int64
  childPid : Int64

/-- The cell of a column. -/
def PsInstance.cell (i : PsInstance) : Column → List Char
  | .application => i.application.text.toList
  | .instanceId => i.instanceId.text.toList
  | .arch => i.arch.text.toList
  | .branch => i.branch.text.toList
  | .commit => i.commit.text.toList
  | .runtime => i.runtime.text.toList
  | .runtimeBranch => i.runtimeBranch.text.toList
  | .pid => DartText.decimal i.pid.toInt
  | .childPid => DartText.decimal i.childPid.toInt

/-- The cells of its row. -/
def PsInstance.cells (i : PsInstance) : List (List Char) := columns.map i.cell

/-- The instance for the caller: the runtime's ref is whole again. -/
def PsInstance.listed (i : PsInstance) : Dart.FlatpakInstance where
  appId := i.application.text
  instanceId := i.instanceId.text
  arch := i.arch.text
  branch := i.branch.text
  commit := i.commit.text
  runtime :=
    if i.runtime.text = "" then ""
    else "/".intercalate ["runtime", i.runtime.text, i.arch.text, i.runtimeBranch.text]
  pid := i.pid.toInt
  childPid := i.childPid.toInt
  isRunning := true

/-- A row of cells that are neither empty nor hold whitespace, with one or more
spaces between each and the next. -/
structure AlignedRow where
  inst : PsInstance
  dense : ∀ cell ∈ inst.cells, cell ≠ [] ∧ ∀ c ∈ cell, DartText.isWhitespace c = false
  gap : ℕ → ℕ

def AlignedRow.text (r : AlignedRow) : List Char :=
  Fields.joinRuns (fun k => List.replicate (r.gap k + 1) ' ') r.inst.cells

/-- Nine cells, with integers in the last two. -/
def IsRow (cells : List (List Char)) : Prop :=
  ∃ named pid childPid, cells = named ++ [pid, childPid] ∧ named.length = 7 ∧
    (DartText.tryParse pid).isSome ∧ (DartText.tryParse childPid).isSome

/-- A line that is no row: a header, a message, a blank line. -/
structure OtherLine where
  text : List Char
  oneLine : ∀ c ∈ text, c ≠ '\n' ∧ c ≠ '\r'
  notRow : ¬ IsRow (cols text)

/-- A line of the output. -/
inductive Line
  /-- a row as a pipe gets it -/
  | row (inst : PsInstance)
  /-- a row as a terminal gets it -/
  | aligned (r : AlignedRow)
  | other (l : OtherLine)

def Line.text : Line → List Char
  | .row i => List.intercalate ['\t'] i.cells
  | .aligned r => r.text
  | .other l => l.text

/-- The instance that a line lists. -/
def Line.listed : Line → Option Dart.FlatpakInstance
  | .row i => some i.listed
  | .aligned r => some r.inst.listed
  | .other _ => none

/-- What ends a line. -/
inductive LineEnd
  | lf
  | crlf

def LineEnd.text : LineEnd → List Char
  | .lf => ['\n']
  | .crlf => ['\r', '\n']

/-- The output of `flatpak ps`. -/
def output (lines : List (Line × LineEnd)) : String :=
  String.ofList (lines.flatMap fun l => l.1.text ++ l.2.text)

/-! ### One line -/

theorem runtimeRef_eq (id arch branch : String) : runtimeRef id arch branch =
    if id = "" then "" else "/".intercalate ["runtime", id, arch, branch] := rfl

theorem ofCols_cells (i : PsInstance) : ofCols i.cells = some i.listed := by
  show ofCols (columns.map i.cell) = _
  simp only [columns, List.map_cons, List.map_nil, PsInstance.cell, ofCols,
    DartText.tryParse_decimal, String.ofList_toList, PsInstance.listed, runtimeRef_eq]

theorem ofCols_eq_none {cells : List (List Char)} (h : ¬ IsRow cells) : ofCols cells = none := by
  fun_cases ofCols cells with
  | case1 appId instanceId arch branch commit runtime runtimeBranch pid childPid _ _ hchild hpid =>
    refine absurd ⟨[appId, instanceId, arch, branch, commit, runtime, runtimeBranch], pid, childPid,
      rfl, rfl, ?_, ?_⟩ h
    · rw [hpid, Option.isSome_some]
    · rw [hchild, Option.isSome_some]
  | case2 => rfl
  | case3 => rfl

theorem cell_plain (i : PsInstance) : ∀ cell ∈ i.cells,
    Fields.Trimmed DartText.isWhitespace cell ∧ ∀ c ∈ cell, c ≠ '\t' ∧ c ≠ '\n' ∧ c ≠ '\r' := by
  have hnumber : ∀ n : ℤ, Fields.Trimmed DartText.isWhitespace (DartText.decimal n) ∧
      ∀ c ∈ DartText.decimal n, c ≠ '\t' ∧ c ≠ '\n' ∧ c ≠ '\r' := fun n =>
    ⟨Fields.trimmed_of_free fun c hc => (DartText.decimal_plain hc).1,
      fun c hc => (DartText.decimal_plain hc).2⟩
  have hcell : ∀ cell : Cell, Fields.Trimmed DartText.isWhitespace cell.text.toList ∧
      ∀ c ∈ cell.text.toList, c ≠ '\t' ∧ c ≠ '\n' ∧ c ≠ '\r' :=
    fun cell => ⟨cell.trimmed, cell.oneCell⟩
  intro cell h
  obtain ⟨column, -, rfl⟩ := List.mem_map.mp h
  cases column with
  | application => exact hcell i.application
  | instanceId => exact hcell i.instanceId
  | arch => exact hcell i.arch
  | branch => exact hcell i.branch
  | commit => exact hcell i.commit
  | runtime => exact hcell i.runtime
  | runtimeBranch => exact hcell i.runtimeBranch
  | pid => exact hnumber i.pid.toInt
  | childPid => exact hnumber i.childPid.toInt

theorem cells_ne_nil (i : PsInstance) : i.cells ≠ [] := List.cons_ne_nil _ _

theorem text_oneLine (l : Line) : ∀ c ∈ l.text, c ≠ '\n' ∧ c ≠ '\r' := by
  cases l with
  | row i =>
    intro c hc
    rcases Fields.mem_intercalate.mp hc with ⟨rfl, -⟩ | ⟨cell, hcell, hc⟩
    · decide
    · exact ((cell_plain i cell hcell).2 c hc).2
  | aligned r =>
    intro c hc
    rcases Fields.mem_joinRuns hc with ⟨cell, hcell, hc⟩ | ⟨k, hk⟩
    · exact ((cell_plain r.inst cell hcell).2 c hc).2
    · rw [List.eq_of_mem_replicate hk]
      decide
  | other l => exact l.oneLine

theorem cols_row (i : PsInstance) : cols (Line.text (.row i)) = i.cells := by
  have htab : '\t' ∈ Line.text (.row i) :=
    Fields.mem_intercalate.mpr (.inl ⟨rfl, by simp [PsInstance.cells, columns]⟩)
  have hsplit : (Line.text (.row i)).splitOn '\t' = i.cells :=
    List.splitOn_intercalate '\t'
      (fun cell hcell htab => ((cell_plain i cell hcell).2 '\t' htab).1 rfl) (cells_ne_nil i)
  have htrim : i.cells.map DartText.trim = i.cells.map id :=
    List.map_congr_left fun cell hcell => Fields.trim_eq_self (cell_plain i cell hcell).1
  rw [cols, if_pos htab, hsplit, htrim, List.map_id]

theorem cols_aligned (r : AlignedRow) : cols r.text = r.inst.cells := by
  have htab : '\t' ∉ r.text := by
    intro htab
    rcases Fields.mem_joinRuns htab with ⟨cell, hcell, hc⟩ | ⟨k, hk⟩
    · exact ((cell_plain r.inst cell hcell).2 '\t' hc).1 rfl
    · exact absurd (List.eq_of_mem_replicate hk) (by decide)
  have hgap : ∀ k, List.replicate (r.gap k + 1) ' ' ≠ [] ∧
      ∀ c ∈ List.replicate (r.gap k + 1) ' ', DartText.isSpace c = true := by
    intro k
    refine ⟨by simp, fun c hc => ?_⟩
    rw [List.eq_of_mem_replicate hc]
    decide
  rw [cols, if_neg htab, DartText.trim, AlignedRow.text,
    Fields.trim_eq_self (Fields.trimmed_joinRuns r.dense), DartText.splitSpaces,
    Fields.splitRuns_joinRuns hgap
      (fun cell hcell => ⟨(r.dense cell hcell).1,
        fun c hc => DartText.isSpace_eq_false ((r.dense cell hcell).2 c hc)⟩)
      (cells_ne_nil r.inst)]

theorem parseLine_eq {line : List Char} (h : ∀ c ∈ line, c ≠ '\n' ∧ c ≠ '\r') :
    parseLine line = if DartText.trim line = [] then none else ofCols (cols line) := by
  have hlast : line.getLast? ≠ some '\r' := fun hlast => (h _ (List.mem_of_getLast? hlast)).2 rfl
  rw [parseLine, if_neg hlast]

theorem parseLine_text (l : Line) : parseLine l.text = l.listed := by
  rw [parseLine_eq (text_oneLine l)]
  cases l with
  | row i =>
    -- the line is not blank: the last cell is a number
    obtain ⟨c, hc⟩ := List.exists_mem_of_ne_nil _ (DartText.decimal_ne_nil i.childPid.toInt)
    have hmem : c ∈ Line.text (.row i) := Fields.mem_intercalate.mpr
      (.inr ⟨_, List.mem_map_of_mem (f := i.cell) (by simp [columns] : .childPid ∈ columns), hc⟩)
    have hne : DartText.trim (Line.text (.row i)) ≠ [] :=
      Fields.trim_ne_nil hmem (DartText.decimal_plain hc).1
    rw [if_neg hne, cols_row, ofCols_cells]
    rfl
  | aligned r =>
    have htrim : DartText.trim r.text = r.text :=
      Fields.trim_eq_self (Fields.trimmed_joinRuns r.dense)
    have hne : r.text ≠ [] :=
      Fields.joinRuns_ne_nil (fun cell hcell => (r.dense cell hcell).1) (cells_ne_nil r.inst)
    show (if DartText.trim r.text = [] then none else ofCols (cols r.text)) = _
    rw [htrim, if_neg hne, cols_aligned, ofCols_cells]
    rfl
  | other l =>
    split
    · rfl
    · exact ofCols_eq_none l.notRow

/-! ### The whole output -/

theorem splitLines_output (lines : List (Line × LineEnd)) :
    splitLines [] (lines.flatMap fun l => l.1.text ++ l.2.text) = lines.map fun l => l.1.text := by
  induction lines with
  | nil => rfl
  | cons l lines ih =>
    rw [List.flatMap_cons, List.map_cons, ← ih, List.append_assoc,
      splitLines_text (text_oneLine l.1), List.nil_append]
    cases l.2 with
    | lf => rw [LineEnd.text, List.cons_append, List.nil_append, splitLines]
    | crlf => rw [LineEnd.text, List.cons_append, List.cons_append, List.nil_append, splitLines]

/-- The rows are read back in their order, with nothing for the other lines. -/
theorem parseHostPsOutput_output (lines : List (Line × LineEnd)) :
    parseHostPsOutput (output lines) = lines.filterMap fun l => l.1.listed := by
  rw [parseHostPsOutput, lineSplitter, output, String.toList_ofList, splitLines_output,
    List.map_map, List.filterMap_map]
  refine List.filterMap_congr fun l _ => ?_
  show parseLine (String.ofList l.1.text).toList = _
  rw [String.toList_ofList, parseLine_text]

/-- A cell with this text. -/
def Cell.lit (text : String)
    (hall : (text.toList.all fun c => c ≠ '\t' && c ≠ '\n' && c ≠ '\r') = true)
    (htrimmed : Fields.Trimmed DartText.isWhitespace text.toList) : Cell where
  text
  oneCell c hc := by simpa [and_assoc] using List.all_eq_true.mp hall c hc
  trimmed := htrimmed

def calculator : PsInstance where
  application := .lit "org.gnome.Calculator" (by decide) (by decide)
  instanceId := .lit "2298374127" (by decide) (by decide)
  arch := .lit "x86_64" (by decide) (by decide)
  branch := .lit "stable" (by decide) (by decide)
  commit := .lit "deadbeef" (by decide) (by decide)
  runtime := .lit "org.freedesktop.Platform" (by decide) (by decide)
  runtimeBranch := .lit "25.08" (by decide) (by decide)
  pid := 4242
  childPid := 4250

/-- Its row, with three spaces between the cells. -/
def calculatorRow : AlignedRow where
  inst := calculator
  dense cell hcell := by
    have hall : (calculator.cells.all fun cell =>
        cell ≠ [] && cell.all fun c => !DartText.isWhitespace c) = true := by
      decide +kernel
    simpa using List.all_eq_true.mp hall cell hcell
  gap _ := 2

/-- The names of the columns. -/
def headings : List Char :=
  "Application\tInstance\tArch\tBranch\tCommit\tRuntime\tBranch\tPID\tChild-PID".toList

/-- The last cell is no number. -/
theorem headings_notRow : ¬ IsRow (cols headings) := by
  rintro ⟨named, pid, childPid, hcells, -, -, hnumber⟩
  have hlast : (cols headings).getLast? = some childPid := by rw [hcells]; simp
  have hname : (cols headings).getLast? = some "Child-PID".toList := by decide +kernel
  obtain rfl := Option.some.inj (hlast.symm.trans hname)
  exact absurd hnumber (by decide +kernel)

def header : OtherLine where
  text := headings
  oneLine c hc := by
    have hall : (headings.all fun c => c ≠ '\n' && c ≠ '\r') = true := by decide +kernel
    simpa using List.all_eq_true.mp hall c hc
  notRow := headings_notRow

example : output [(.other header, .lf), (.aligned calculatorRow, .crlf)] =
      "Application\tInstance\tArch\tBranch\tCommit\tRuntime\tBranch\tPID\tChild-PID\n" ++
        "org.gnome.Calculator   2298374127   x86_64   stable   deadbeef   " ++
        "org.freedesktop.Platform   25.08   4242   4250\r\n" := by
  decide +kernel

end HostPs

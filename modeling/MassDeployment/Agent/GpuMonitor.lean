import MassDeployment.Lib.Dict
import MassDeployment.Agent.GpuKiller
import MassDeployment.Agent.Pools

set_option autoImplicit false

/-! # The processes on the GPUs (`gpu/monitor.py`)

Two commands list the processes, one with the memory each holds and one with its utilisation. Both
print a line for every GPU a process runs on. `list_gpu_processes` reads either answer into a
dictionary by pid, so the line that comes last stands for the process.
-/

namespace MassDeployment.Agent

open Js

/-! ## Text -/

/-- The text functions of the language that the parsing of the answers uses. -/
structure PyNumbers extends PyText where
  /-- `float(text)`; `none` where it raises. -/
  float : String → Option Number

/-- Where `text.splitlines()` breaks a line. -/
def isLineBreak (c : Char) : Bool :=
  [0xa, 0xb, 0xc, 0xd, 0x1c, 0x1d, 0x1e, 0x85, 0x2028, 0x2029].contains c.toNat

/-- `text.splitlines()`, with the letters of the line so far. -/
def splitlinesFrom : List Char → List Char → List String
  | [], [] => []
  | line, [] => [String.ofList line]
  | line, '\r' :: '\n' :: rest => String.ofList line :: splitlinesFrom [] rest
  | line, c :: rest =>
    if isLineBreak c then String.ofList line :: splitlinesFrom [] rest
    else splitlinesFrom (line ++ [c]) rest

def splitlines (text : String) : List String := splitlinesFrom [] text.toList

/-- `text.split(",")`, with the letters of the part so far. -/
def splitCommasFrom (part : List Char) : List Char → List String
  | [] => [String.ofList part]
  | c :: rest =>
    if c = ',' then String.ofList part :: splitCommasFrom [] rest
    else splitCommasFrom (part ++ [c]) rest

namespace PyNumbers

variable (py : PyNumbers)

/-- `text.strip()`. -/
def strip (text : String) : String :=
  String.ofList ((text.toList.dropWhile py.isSpace).reverse.dropWhile py.isSpace).reverse

end PyNumbers

/-! ## The answers -/

section Monitor

variable (py : PyNumbers)

/-- A line of the compute apps, unless it is skipped. -/
def computeAppsRow (line : String) : Option (ℤ × Number) :=
  let line := py.strip line
  if line = "" then none
  else
    let parts := (splitCommasFrom [] line.toList).map py.strip
    match parts with
    | first :: second :: _ =>
      match py.int first, py.float second with
      | some pid, some mib => some (pid, mib)
      | _, _ => none
    | _ => none

/-- `int(mib * 1024 * 1024)`, which raises for infinities and `NaN`. -/
def bytesOf : Number → Option ℤ
  | .fin mib => some (truncate (mib * 1024 * 1024))
  | _ => none

/-- pid -> VRAM bytes; none where the conversion raises. -/
def queryComputeApps (res : CommandResult) : Option (Dict ℤ ℤ) :=
  if !res.ok then some []
  else (splitlines res.stdout).foldlM (fun out line =>
    match computeAppsRow py line with
    | none => some out
    | some (pid, mib) => (bytesOf mib).map fun bytes => out.set pid bytes) []

/-- A line of `pmon`, unless it is skipped; `-` means no compute this sample. -/
def pmonRow (line : String) : Option (ℤ × Number) :=
  if line.toList.head? = some '#' || !py.hasText line then none
  else
    match py.split line with
    | _ :: pid :: _ :: sm :: _ => (py.int pid).map fun pid => (pid, (py.float sm).getD 0)
    | _ => none

/-- pid -> SM utilization %. -/
def pmonUtil (res : CommandResult) : Dict ℤ Number :=
  if !res.ok then []
  else (splitlines res.stdout).foldl (fun out line =>
    match pmonRow py line with
    | none => out
    | some (pid, sm) => out.set pid sm) []

/-- What is known of a pid from `/proc` and its container. -/
structure ProcInfo where
  container : Option String := none
  user : Option String := none
  startTime : Option ℤ := none
  managed : Bool := false
  lab : Option String := none
  cmd : Option String := none
  startedAt : Option ℤ := none
  deriving DecidableEq

/-- A process as `list_gpu_processes` reports it. -/
structure GpuReport extends ProcInfo where
  pid : ℤ
  vramBytes : ℤ
  util : Option Number
  deriving DecidableEq

/-- `_is_idle` of a report. -/
def GpuReport.idle (p : GpuReport) (threshold : Number) : Bool :=
  decide (0 < p.vramBytes) && p.util.any fun util => util.le threshold

/-- The processes on the GPUs; none where a query raises. -/
def listGpuProcesses (info : ℤ → ProcInfo) (apps pmon : CommandResult) : Option (List GpuReport) :=
  (queryComputeApps py apps).map fun vram =>
    let util := pmonUtil py pmon
    vram.map fun (pid, bytes) =>
      { info pid with pid, vramBytes := bytes, util := util.lookup pid }

/-- A report with a finite utilisation as the governor reads it. -/
def GpuReport.process (p : GpuReport) (util : ℚ) : GpuProcess :=
  { pid := some p.pid, vramBytes := some p.vramBytes, util := some util, container := p.container,
    user := p.user, startTime := p.startTime, managed := p.managed, lab := p.lab, cmd := p.cmd }

theorem GpuReport.isIdle_process {p : GpuReport} {util : ℚ} (h : p.util = some (.fin util))
    (policy : GpuPolicy) : isIdle (p.process util) policy = p.idle (.fin policy.utilThreshold) := by
  rw [GpuReport.idle, h]
  rfl

/-! ## The lines of an answer -/

/-- The lines of an answer that are not skipped. -/
def answerRows (row : String → Option (ℤ × Number)) (res : CommandResult) : List (ℤ × Number) :=
  if !res.ok then [] else (splitlines res.stdout).filterMap row

end Monitor

variable {py : PyNumbers} {apps pmon : CommandResult}

theorem pmonUtil_eq : pmonUtil py pmon = Dict.ofRows (answerRows (pmonRow py) pmon) := by
  unfold pmonUtil answerRows
  split
  · rfl
  · rw [Dict.ofRows, List.foldl_filterMap]
    congr 1
    funext out line
    cases pmonRow py line <;> rfl

theorem bytesOf_of_finite {mib : Number} (h : mib.isFinite = true) :
    bytesOf mib = some ((bytesOf mib).getD 0) := by
  cases mib with
  | fin q => rfl
  | inf s => cases h
  | nan => cases h

theorem bytesOf_of_infinite {mib : Number} (h : mib.isFinite = false) : bytesOf mib = none := by
  cases mib with
  | fin q => cases h
  | inf s => rfl
  | nan => rfl

/-- A row of the compute apps in bytes. -/
def rowBytes (r : ℤ × Number) : ℤ × ℤ := (r.1, (bytesOf r.2).getD 0)

/-- The query raises where the memory of a line is no finite number. -/
theorem queryComputeApps_eq : queryComputeApps py apps =
    let rows := answerRows (computeAppsRow py) apps
    if rows.all fun r => r.2.isFinite then some (Dict.ofRows (rows.map rowBytes)) else none := by
  have hfold : ∀ (lines : List String) (out : Dict ℤ ℤ),
      lines.foldlM (fun out line =>
        match computeAppsRow py line with
        | none => some out
        | some (pid, mib) => (bytesOf mib).map fun bytes => out.set pid bytes) out =
      if (lines.filterMap (computeAppsRow py)).all fun r => r.2.isFinite then
        some (((lines.filterMap (computeAppsRow py)).map rowBytes).foldl
          (fun d r => d.set r.1 r.2) out)
      else none := by
    intro lines
    induction lines with
    | nil => exact fun _ => rfl
    | cons line lines ih =>
        intro out
        rw [List.foldlM_cons]
        cases hrow : computeAppsRow py line with
        | none => rw [List.filterMap_cons_none hrow]; exact ih out
        | some row =>
            obtain ⟨pid, mib⟩ := row
            rw [List.filterMap_cons_some hrow, List.all_cons]
            dsimp only
            cases hfinite : mib.isFinite with
            | true =>
                rw [Bool.true_and, List.map_cons, List.foldl_cons, bytesOf_of_finite hfinite]
                exact ih _
            | false =>
                rw [bytesOf_of_infinite hfinite]
                rfl
  unfold queryComputeApps answerRows
  split
  · rfl
  · exact hfold _ []

/-! ## Reports -/

/-- The utilisations of a pid, line by line. -/
def utilsOf (py : PyNumbers) (pmon : CommandResult) (pid : ℤ) : List Number :=
  Dict.valuesOf (answerRows (pmonRow py) pmon) pid

/-- The memory of a pid in MiB, line by line. -/
def mibsOf (py : PyNumbers) (apps : CommandResult) (pid : ℤ) : List Number :=
  Dict.valuesOf (answerRows (computeAppsRow py) apps) pid

theorem listGpuProcesses_eq {info : ℤ → ProcInfo} {procs : List GpuReport}
    (h : listGpuProcesses py info apps pmon = some procs) :
    (∀ r ∈ answerRows (computeAppsRow py) apps, r.2.isFinite = true) ∧
      procs = (Dict.ofRows ((answerRows (computeAppsRow py) apps).map rowBytes)).map
        fun e => { info e.1 with pid := e.1, vramBytes := e.2, util := (utilsOf py pmon e.1).getLast? } := by
  rw [listGpuProcesses, queryComputeApps_eq] at h
  dsimp only at h
  split at h
  · rename_i hfinite
    refine ⟨List.all_eq_true.mp hfinite, ?_⟩
    rw [Option.map_some, Option.some.injEq] at h
    rw [← h]
    apply List.map_congr_left
    intro e _
    rw [pmonUtil_eq, Dict.lookup_ofRows]
    rfl
  · cases h

theorem valuesOf_rowBytes (rows : List (ℤ × Number)) (pid : ℤ) :
    Dict.valuesOf (rows.map rowBytes) pid =
      (Dict.valuesOf rows pid).map fun mib => (bytesOf mib).getD 0 :=
  Dict.valuesOf_map (fun mib => (bytesOf mib).getD 0) rows pid

/-- **A report is made of the last lines of its pid.** -/
theorem report_of_last {info : ℤ → ProcInfo} {procs : List GpuReport}
    (h : listGpuProcesses py info apps pmon = some procs) {p : GpuReport} (hp : p ∈ procs) :
    p.util = (utilsOf py pmon p.pid).getLast? ∧
      ∃ mib, (mibsOf py apps p.pid).getLast? = some mib ∧ bytesOf mib = some p.vramBytes := by
  obtain ⟨hfinite, rfl⟩ := listGpuProcesses_eq h
  obtain ⟨⟨pid, bytes⟩, he, rfl⟩ := List.mem_map.mp hp
  refine ⟨rfl, ?_⟩
  rw [Dict.mem_ofRows, valuesOf_rowBytes, List.getLast?_map, Option.map_eq_some_iff] at he
  obtain ⟨mib, hlast, rfl⟩ := he
  refine ⟨mib, hlast, bytesOf_of_finite ?_⟩
  exact hfinite _ (Dict.mem_valuesOf.mp (List.mem_of_getLast? hlast))

/-- Every pid of the compute apps is reported. -/
theorem report_of_listed {info : ℤ → ProcInfo} {procs : List GpuReport}
    (h : listGpuProcesses py info apps pmon = some procs) {pid : ℤ}
    (hpid : mibsOf py apps pid ≠ []) : ∃ p ∈ procs, p.pid = pid := by
  obtain ⟨-, rfl⟩ := listGpuProcesses_eq h
  obtain ⟨mib, hlast⟩ := Option.ne_none_iff_exists'.mp (mt List.getLast?_eq_none_iff.mp hpid)
  have he : (pid, (bytesOf mib).getD 0) ∈
      Dict.ofRows ((answerRows (computeAppsRow py) apps).map rowBytes) := by
    rw [Dict.mem_ofRows, valuesOf_rowBytes, List.getLast?_map, Option.map_eq_some_iff]
    exact ⟨mib, hlast, rfl⟩
  exact ⟨_, List.mem_map_of_mem he, rfl⟩

/-! ## Processes on several GPUs -/

/-- What a report is to say about all lines of its pid. -/
structure GpuReport.Judged (py : PyNumbers) (apps pmon : CommandResult) (p : GpuReport) : Prop where
  below : ∀ threshold, (p.util.any fun util => util.le threshold) = true →
    ∀ util ∈ utilsOf py pmon p.pid, util.le threshold = true
  unknown : utilsOf py pmon p.pid = [] → p.util = none
  positive : ∀ mib ∈ mibsOf py apps p.pid, Number.lt 0 mib = true → 0 < p.vramBytes
  idle : ∀ threshold, p.idle threshold = true →
    ∀ util ∈ utilsOf py pmon p.pid, util.le threshold = true

/-- The last line of a pid tells of all of them: no line has a higher utilisation, and where one
has memory, it has a byte at least. -/
structure LastTells (py : PyNumbers) (apps pmon : CommandResult) (pid : ℤ) : Prop where
  util : ∀ last, (utilsOf py pmon pid).getLast? = some last →
    last = .nan ∨ ∀ util ∈ utilsOf py pmon pid, util.le last = true
  mib : (∃ mib ∈ mibsOf py apps pid, Number.lt 0 mib = true) →
    ∀ last, (mibsOf py apps pid).getLast? = some last →
      ∃ bytes, bytesOf last = some bytes ∧ 0 < bytes

theorem LastTells.judged {info : ℤ → ProcInfo} {procs : List GpuReport}
    (h : listGpuProcesses py info apps pmon = some procs) {p : GpuReport} (hp : p ∈ procs)
    (htells : LastTells py apps pmon p.pid) : p.Judged py apps pmon := by
  obtain ⟨hutil, mib, hmib, hbytes⟩ := report_of_last h hp
  have hbelow : ∀ threshold, (p.util.any fun util => util.le threshold) = true →
      ∀ util ∈ utilsOf py pmon p.pid, util.le threshold = true := by
    intro threshold hle util hmem
    cases hlast : (utilsOf py pmon p.pid).getLast? with
    | none =>
        rw [List.getLast?_eq_none_iff] at hlast
        exact absurd hmem (hlast ▸ List.not_mem_nil)
    | some last =>
        rw [hutil, hlast, Option.any_some] at hle
        rcases htells.util last hlast with rfl | hall
        · rw [Number.nan_le] at hle
          cases hle
        · exact Number.le_trans (hall util hmem) hle
  constructor
  case below => exact hbelow
  case unknown =>
    intro hnone
    rw [hutil, hnone, List.getLast?_nil]
  case positive =>
    intro mib' hmem hpos
    obtain ⟨bytes, hsome, hlt⟩ := htells.mib ⟨mib', hmem, hpos⟩ mib hmib
    rw [hbytes, Option.some.injEq] at hsome
    exact hsome ▸ hlt
  case idle =>
    intro threshold hidle
    exact hbelow threshold (Bool.and_eq_true_iff.mp hidle).2

theorem GpuReport.Judged.tells {info : ℤ → ProcInfo} {procs : List GpuReport}
    (h : listGpuProcesses py info apps pmon = some procs) {p : GpuReport} (hp : p ∈ procs)
    (hjudged : p.Judged py apps pmon) : LastTells py apps pmon p.pid := by
  obtain ⟨hutil, mib, hmib, hbytes⟩ := report_of_last h hp
  constructor
  case util =>
    -- the reported value itself is a threshold
    intro last hlast
    by_cases hnan : last = .nan
    · exact .inl hnan
    · refine .inr (hjudged.below last ?_)
      rw [hutil, hlast, Option.any_some]
      exact Number.le_refl hnan
  case mib =>
    rintro ⟨mib', hmem, hpos⟩ last hlast
    obtain rfl : mib = last := Option.some.inj (hmib.symm.trans hlast)
    exact ⟨p.vramBytes, hbytes, hjudged.positive mib' hmem hpos⟩

/-- **Processes are judged on all their GPUs** exactly if for every pid the last line tells of all
of them. -/
theorem gpu_reports_judged_iff (py : PyNumbers) (info : ℤ → ProcInfo) (apps pmon : CommandResult) :
    (∀ procs, listGpuProcesses py info apps pmon = some procs →
      ∀ p ∈ procs, p.Judged py apps pmon) ↔
    ((∀ r ∈ answerRows (computeAppsRow py) apps, r.2.isFinite = true) →
      ∀ pid, mibsOf py apps pid ≠ [] → LastTells py apps pmon pid) := by
  constructor
  · intro hall hfinite pid hpid
    have hsome : ∃ procs, listGpuProcesses py info apps pmon = some procs := by
      rw [listGpuProcesses, queryComputeApps_eq, if_pos (List.all_eq_true.mpr hfinite)]
      exact ⟨_, rfl⟩
    obtain ⟨procs, hprocs⟩ := hsome
    obtain ⟨p, hp, rfl⟩ := report_of_listed hprocs hpid
    exact (hall procs hprocs p hp).tells hprocs hp
  · intro htells procs hprocs p hp
    obtain ⟨-, mib, hmib, -⟩ := report_of_last hprocs hp
    have hpid : mibsOf py apps p.pid ≠ [] := List.ne_nil_of_mem (List.mem_of_getLast? hmib)
    exact (htells (listGpuProcesses_eq hprocs).1 p.pid hpid).judged hprocs hp

/-- A decimal numeral without a sign. -/
def digits (text : String) : Option ℤ :=
  if !text.isEmpty && text.toList.all Char.isDigit then
    some (text.toList.foldl (fun n c => n * 10 + (c.toNat - 48 : ℤ)) 0)
  else none

/-- Text functions for answers in plain decimal numerals. -/
def decimals : PyNumbers where
  isSpace c := c == ' ' || isLineBreak c
  int := digits
  float text := (digits text).map fun n => .fin n

/-- A process that is busy on the first of two GPUs is reported with the utilisation of the second
one, and is idle for the governor. -/
theorem gpu_reports_last_row :
    let apps : CommandResult := ⟨true, "7, 100\n7, 100\n"⟩
    let pmon : CommandResult := ⟨true, "# gpu pid type sm\n0 7 C 90 3\n1 7 C - 0\n"⟩
    ∃ p, listGpuProcesses decimals (fun _ => {}) apps pmon = some [p] ∧ p.pid = 7 ∧
      p.idle 5 = true ∧ utilsOf decimals pmon 7 = [90, 0] := by
  refine ⟨{ pid := 7, vramBytes := 104857600, util := some 0 }, ?_, rfl, ?_, ?_⟩
  all_goals decide +kernel

end MassDeployment.Agent

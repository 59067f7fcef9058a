import MassDeployment.Agent.Labquota
import MassDeployment.Controller.Samples

set_option autoImplicit false

/-! # The storage report of a placement (`usage-report.ts`, `stats.ts`)

The report shows the latest samples of a placement as the table that `labquota` shows on the node.
The two paths of one set of readings are compared: the snapshot that `labquota` reads, and the rows
of the heartbeat that are stored as samples.
-/

namespace MassDeployment

open Js Agent

/-! ## The latest samples -/

/-- A value of `latestSamples`. -/
structure SampleCell where
  used : ℚ
  quota : Option ℚ
  ts : Nat

/-- A stored row as a cell; the stored sizes are finite. -/
def StorageSampleRow.cell (r : StorageSampleRow) : Option SampleCell :=
  match r.usedBytes with
  | .fin used =>
    some {
      used := used
      quota := match r.quotaBytes with
        | .number (.fin quota) => some quota
        | _ => none
      ts := r.ts }
  | _ => none

/-- `latestSamples().get(key)`: of the rows with the newest time, the last one. -/
def Db.latestSample (d : Db) (k : SampleKey) : Option SampleCell :=
  let rows := d.storageSamples.filter fun r => r.sample.key == k
  (rows.filter fun r => rows.all fun r2 => r2.ts ≤ r.ts).getLast?.bind StorageSampleRow.cell

/-! ## The report -/

namespace UsageReport

def fmtBytes : Option ℚ → String
  | none => "—"
  | some n => ByteText.formatBytes ByteText.wholeUp (ByteText.fixed1 ByteText.roundUp) n

def fmtPct : Option ℚ → Option ℚ → String
  | some used, some quota =>
    if quota ≤ 0 then "" else " (" ++ ⌊used * 100 / quota⌋.repr ++ "%)"
  | _, _ => ""

def fmtPair : Option SampleCell → UsageCell
  | none => .dash
  | some cell =>
    { amount := fmtBytes (some cell.used)
      quota := if cell.quota.any (· != 0) then " / " ++ fmtBytes cell.quota else ""
      pct := fmtPct (some cell.used) cell.quota }

def fmtShare (used : Option ℚ) (totalQuota : Option ℚ) : UsageCell :=
  match used with
  | none => .dash
  | some used => { amount := fmtBytes (some used), pct := fmtPct (some used) totalQuota }

structure Row where
  username : String
  label : String
  home : UsageCell
  cold : UsageCell

end UsageReport

structure UsageReport where
  labId : Nat
  labName : String
  nodeName : String
  rows : List UsageReport.Row
  total : UsageReport.Row
  rootfs : UsageCell

/-- `localeLe` stands for `localeCompare(..) <= 0`. -/
def Db.buildUsageReport (d : Db) (localeLe : String → String → Bool) (placementId : Nat)
    (highlightStudentId : Option Nat) : Option UsageReport :=
  (d.getPlacement placementId).map fun placement =>
    let cell := fun (student : Option Nat) pool => d.latestSample ⟨placementId, student, pool⟩
    let usedOf := fun student pool => (cell student pool).map SampleCell.used
    let fastTotal := cell none "fast"
    let coldTotal := cell none "cold"
    let fastQuota := fastTotal.bind SampleCell.quota
    let coldQuota := coldTotal.bind SampleCell.quota
    let ordered := (d.listMembers placement.labId).mergeSort fun a b =>
      localeLe a.student.username b.student.username
    { labId := placement.labId
      labName := placement.labName
      nodeName := placement.nodeName
      rows := ordered.map fun m =>
        { username := m.student.username
          label :=
            if some m.student.id = highlightStudentId then m.student.username ++ "  (you)"
            else m.student.username
          home := UsageReport.fmtShare (usedOf m.student.id "fast") fastQuota
          cold := UsageReport.fmtShare (usedOf m.student.id "cold") coldQuota }
      total :=
        { username := "TOTAL"
          label := "TOTAL"
          home := UsageReport.fmtPair fastTotal
          cold := UsageReport.fmtPair coldTotal }
      rootfs := UsageReport.fmtPair (cell none "rootfs") }

/-! ## Cells

A cell of the report is compared with the cell of `labquota` for the same reading. -/

/-- The amounts and the percentages are the same texts. -/
def Agent.UsageCell.SameUse (a b : UsageCell) : Prop := a.amount = b.amount ∧ a.pct = b.pct

/-- As a percentage, the usage has the same whole part of both quotas: it reaches the same whole
percentages of them. -/
def SamePercent (used own : Int) (total : Option Int) : Prop :=
  (0 < own ↔ ∃ quota, total = some quota ∧ 0 < quota) ∧
    ∀ quota, total = some quota → 0 < own → 0 < quota →
      ∀ k : Int, k * own ≤ used * 100 ↔ k * quota ≤ used * 100

theorem floor_share (used : Int) {quota : Int} (h : 0 < quota) :
    ⌊(used : ℚ) * 100 / quota⌋ = used * 100 / quota := by
  obtain ⟨n, rfl⟩ := Int.eq_ofNat_of_zero_le h.le
  have hcast : (used : ℚ) * 100 / ((n : Int) : ℚ) = ((used * 100 : Int) : ℚ) / (n : ℚ) := by
    push_cast
    rfl
  rw [hcast, Rat.floor_intCast_div_natCast]

/-- Of one quota, both show the same percentage. -/
theorem fmtPct_eq (used : Int) (quota : Option Int) :
    UsageReport.fmtPct (some used) (quota.map Int.cast) = Labquota.fmtPct (some used) quota := by
  cases quota with
  | none => rfl
  | some quota =>
    show (if (quota : ℚ) ≤ 0 then "" else _) = if quota ≤ 0 then "" else _
    have hsign : (quota : ℚ) ≤ 0 ↔ quota ≤ 0 := by exact_mod_cast Iff.rfl
    by_cases hq : quota ≤ 0
    · rw [if_pos hq, if_pos (hsign.mpr hq)]
    · rw [if_neg hq, if_neg (mt hsign.mp hq), floor_share used (not_le.mp hq)]

theorem pct_ne_empty (n : Int) : " (" ++ n.repr ++ "%)" ≠ "" := by
  intro h
  have hlist := congrArg String.toList h
  simp at hlist

theorem pct_inj {m n : Int} (h : " (" ++ m.repr ++ "%)" = " (" ++ n.repr ++ "%)") : m = n := by
  have hlist := congrArg String.toList h
  simp only [String.toList_append, List.append_assoc] at hlist
  exact Int.repr_inj.mp (String.toList_injective
    (List.append_cancel_right (List.append_cancel_left hlist)))

/-- The percentages of two quotas are the same text under the condition on the readings. -/
theorem fmtPct_eq_iff (used own : Int) (total : Option Int) :
    Labquota.fmtPct (some used) total = Labquota.fmtPct (some used) (some own) ↔
      SamePercent used own total := by
  have hpct : ∀ quota : Int, Labquota.fmtPct (some used) (some quota) =
      if quota ≤ 0 then "" else " (" ++ (used * 100 / quota).repr ++ "%)" := fun _ => rfl
  have hnone : (¬ ∃ quota, total = some quota ∧ 0 < quota) →
      Labquota.fmtPct (some used) total = "" := by
    intro h
    cases total with
    | none => rfl
    | some quota => rw [hpct, if_pos (not_lt.mp fun hq => h ⟨quota, rfl, hq⟩)]
  by_cases hown : 0 < own
  · rw [hpct own, if_neg (not_le.mpr hown)]
    by_cases htotal : ∃ quota, total = some quota ∧ 0 < quota
    · obtain ⟨quota, rfl, hq⟩ := htotal
      rw [hpct quota, if_neg (not_le.mpr hq)]
      constructor
      · intro h
        have hfloor := pct_inj h
        refine ⟨iff_of_true hown ⟨quota, rfl, hq⟩, fun quota' heq _ _ k => ?_⟩
        obtain rfl := Option.some.inj heq
        rw [← Int.le_ediv_iff_mul_le hown, ← Int.le_ediv_iff_mul_le hq, hfloor]
      · rintro ⟨-, h⟩
        have hsame : ∀ k : Int, k ≤ used * 100 / own ↔ k ≤ used * 100 / quota := by
          intro k
          rw [Int.le_ediv_iff_mul_le hown, Int.le_ediv_iff_mul_le hq]
          exact h quota rfl hown hq k
        rw [le_antisymm ((hsame _).mp le_rfl) ((hsame _).mpr le_rfl)]
    · rw [hnone htotal]
      exact iff_of_false (fun h => pct_ne_empty _ h.symm) fun h => htotal (h.1.mp hown)
  · rw [hpct own, if_pos (not_lt.mp hown)]
    by_cases htotal : ∃ quota, total = some quota ∧ 0 < quota
    · refine iff_of_false ?_ fun h => hown (h.1.mpr htotal)
      obtain ⟨quota, rfl, hq⟩ := htotal
      rw [hpct quota, if_neg (not_le.mpr hq)]
      exact pct_ne_empty _
    · rw [hnone htotal]
      exact iff_of_true rfl ⟨iff_of_false hown htotal, fun _ _ h => absurd h hown⟩

/-- A total is shown with the same amount, unless it is halfway. -/
theorem fmtPair_sameUse {usage : Option ZfsUsage} {c : Option SampleCell}
    (h : c.map (fun c => (c.used, c.quota)) =
      usage.map fun u => ((u.usedBytes : ℚ), u.quotaBytes.map Int.cast)) :
    (UsageReport.fmtPair c).SameUse (Labquota.fmtPair (usagePair usage)) ↔
      ∀ u, usage = some u → ¬ ByteText.EvenTie u.usedBytes := by
  cases usage with
  | none =>
    cases c with
    | none => exact iff_of_true ⟨rfl, rfl⟩ nofun
    | some c => cases h
  | some u =>
    cases c with
    | none => cases h
    | some c =>
      obtain ⟨used, quota, ts⟩ := c
      obtain ⟨rfl, rfl⟩ := Prod.mk.inj (Option.some.inj h)
      have hamount : UsageReport.fmtBytes (some (u.usedBytes : ℚ)) =
          Labquota.fmtBytes (some u.usedBytes) ↔ ¬ ByteText.EvenTie u.usedBytes :=
        ByteText.formatBytes_eq_iff u.usedBytes
      constructor
      · rintro ⟨heq, -⟩ u' hu'
        obtain rfl := Option.some.inj hu'
        exact hamount.mp heq
      · exact fun htie => ⟨hamount.mpr (htie u rfl), fmtPct_eq u.usedBytes u.quotaBytes⟩

/-- What has to hold of the reading of a student for the cells to agree. -/
def Comparable (pair : Option UsagePair) (total : Option Int) : Prop :=
  ∀ used quota, pair = some ⟨some used, quota⟩ → ¬ ByteText.EvenTie used ∧
    ∀ own, quota = some own → own ≠ 0 → SamePercent used own total

/-- A share is shown with the same amount, unless it is halfway, and the same percentage, unless
the student has a quota with another one. -/
theorem fmtShare_sameUse (pair : Option UsagePair) (total : Option Int) :
    (UsageReport.fmtShare ((pair.bind UsagePair.used).map Int.cast)
        (total.map Int.cast)).SameUse (Labquota.fmtShare pair total) ↔
      Comparable pair total := by
  rcases pair with _ | ⟨_ | used, quota⟩
  · exact iff_of_true ⟨rfl, rfl⟩ nofun
  · exact iff_of_true ⟨rfl, rfl⟩ nofun
  have hamount : UsageReport.fmtBytes (some (used : ℚ)) = Labquota.fmtBytes (some used) ↔
      ¬ ByteText.EvenTie used := ByteText.formatBytes_eq_iff used
  have hpct := fmtPct_eq used total
  have hcomparable : Comparable (some ⟨some used, quota⟩) total ↔ ¬ ByteText.EvenTie used ∧
      ∀ own, quota = some own → own ≠ 0 → SamePercent used own total := by
    constructor
    · exact fun h => h used quota rfl
    · rintro h _ _ ⟨⟩
      exact h
  rw [hcomparable]
  by_cases hquota : Labquota.hasQuota quota = true
  · obtain ⟨own, rfl, hown⟩ : ∃ own, quota = some own ∧ own ≠ 0 := by
      cases quota with
      | none => cases hquota
      | some own => exact ⟨own, rfl, by simpa [Labquota.hasQuota] using hquota⟩
    have hcell : Labquota.fmtShare (some ⟨some used, some own⟩) total =
        Labquota.fmtPair (some ⟨some used, some own⟩) := if_pos hquota
    rw [hcell]
    refine and_congr hamount ?_
    show UsageReport.fmtPct (some (used : ℚ)) (total.map Int.cast) = _ ↔ _
    rw [hpct]
    refine (fmtPct_eq_iff used own total).trans ⟨?_, fun h => h own rfl hown⟩
    rintro h _ ⟨⟩ -
    exact h
  · have hcell : Labquota.fmtShare (some ⟨some used, quota⟩) total =
        { amount := Labquota.fmtBytes (some used), pct := Labquota.fmtPct (some used) total } :=
      if_neg hquota
    rw [hcell]
    refine and_congr hamount (iff_of_true hpct ?_)
    rintro own rfl hown
    exact absurd (by simpa [Labquota.hasQuota] using hown) hquota

/-! ## Both tables -/

def Agent.PoolTier.pool : PoolTier → String
  | .fast => "fast"
  | .slow => "cold"

/-- The latest samples of the placement are the rows of the heartbeat. -/
structure Delivered (d : Db) (placementId : Nat) (p : Placement) (rows : List StorageRow) :
    Prop where
  total : ∀ tier : PoolTier,
    (d.latestSample ⟨placementId, none, tier.pool⟩).map (fun c => (c.used, c.quota)) =
      (rowOf rows (p.labName, none, tier.name)).map fun r =>
        ((r.usedBytes : ℚ), r.quotaBytes.map Int.cast)
  student : ∀ m ∈ d.listMembers p.labId, ∀ tier : PoolTier,
    (d.latestSample ⟨placementId, some m.student.id, tier.pool⟩).map SampleCell.used =
      (rowOf rows (p.labName, some m.student.username, tier.name)).map fun r => (r.usedBytes : ℚ)

/-- The rows of the same students agree, and the last rows. -/
structure UsageReport.SameUse (report : UsageReport) (table : Labquota.Table) : Prop where
  home : ∀ row ∈ report.rows, ∀ row' ∈ table.rows, row.username = row'.username →
    row.home.SameUse row'.home
  cold : ∀ row ∈ report.rows, ∀ row' ∈ table.rows, row.username = row'.username →
    row.cold.SameUse row'.cold
  totalHome : report.total.home.SameUse table.total.home
  totalCold : report.total.cold.SameUse table.total.cold

/-- What has to hold of the readings for the tables to agree: of the totals, and of every student
that both of them list. -/
structure ComparableReadings (members : List Member) (snapshot : Snapshot)
    (students : List SnapshotStudent) : Prop where
  home : ∀ m ∈ members, ∀ e ∈ students, m.student.username = e.username →
    Comparable e.home (snapshot.fast.bind UsagePair.quota)
  cold : ∀ m ∈ members, ∀ e ∈ students, m.student.username = e.username →
    Comparable e.cold (snapshot.cold.bind UsagePair.quota)
  totalHome : ∀ used quota, snapshot.fast = some ⟨some used, quota⟩ → ¬ ByteText.EvenTie used
  totalCold : ∀ used quota, snapshot.cold = some ⟨some used, quota⟩ → ¬ ByteText.EvenTie used

theorem usagePair_eq_some {u : Option ZfsUsage} {used : Int} {quota : Option Int} :
    usagePair u = some ⟨some used, quota⟩ ↔
      ∃ usage, u = some usage ∧ usage.usedBytes = used ∧ usage.quotaBytes = quota := by
  cases u with
  | none => exact iff_of_false nofun nofun
  | some usage => simp [usagePair]

section

variable {d : Db} {placementId : Nat} {p : Placement} {cfg : UsageConfig} {r : Readings}
variable {s : UsageState} {now : Nat}

/-- The cell of a total, and the one that `labquota` shows. -/
theorem Delivered.total_sameUse (hs : s.Tidy)
    (hd : Delivered d placementId p (heartbeatRows cfg r p.labName s now)) (tier : PoolTier) :
    (UsageReport.fmtPair (d.latestSample ⟨placementId, none, tier.pool⟩)).SameUse
        (Labquota.fmtPair (usagePair ((labUsageOf cfg r p.labName).total tier))) ↔
      ∀ used quota, usagePair ((labUsageOf cfg r p.labName).total tier) =
        some ⟨some used, quota⟩ → ¬ ByteText.EvenTie used := by
  have hcell := hd.total tier
  rw [rowOf_total hs, Option.map_map] at hcell
  rw [fmtPair_sameUse hcell]
  constructor
  · intro h used quota heq
    obtain ⟨usage, hsome, rfl, -⟩ := usagePair_eq_some.mp heq
    exact h usage hsome
  · intro h usage hsome
    exact h _ _ (usagePair_eq_some.mpr ⟨usage, hsome, rfl, rfl⟩)

/-- The quota that shares are shown of. -/
theorem Delivered.quota (hs : s.Tidy)
    (hd : Delivered d placementId p (heartbeatRows cfg r p.labName s now)) (tier : PoolTier) :
    (d.latestSample ⟨placementId, none, tier.pool⟩).bind SampleCell.quota =
      ((usagePair ((labUsageOf cfg r p.labName).total tier)).bind UsagePair.quota).map
        Int.cast := by
  have hcell := hd.total tier
  rw [rowOf_total hs, Option.map_map] at hcell
  cases hlatest : d.latestSample ⟨placementId, none, tier.pool⟩ with
  | none =>
    rw [hlatest] at hcell
    cases htotal : (labUsageOf cfg r p.labName).total tier with
    | none => rfl
    | some usage => rw [htotal] at hcell; cases hcell
  | some c =>
    rw [hlatest] at hcell
    cases htotal : (labUsageOf cfg r p.labName).total tier with
    | none => rw [htotal] at hcell; cases hcell
    | some usage =>
      rw [htotal] at hcell
      exact congrArg Prod.snd (Option.some.inj hcell)

/-- The cell of a student, and the one that `labquota` shows. -/
theorem Delivered.student_sameUse (hs : s.Tidy)
    (hd : Delivered d placementId p (heartbeatRows cfg r p.labName s now)) {m : Member}
    (hm : m ∈ d.listMembers p.labId) (tier : PoolTier) :
    (UsageReport.fmtShare
        ((d.latestSample ⟨placementId, some m.student.id, tier.pool⟩).map SampleCell.used)
        ((d.latestSample ⟨placementId, none, tier.pool⟩).bind SampleCell.quota)).SameUse
      (Labquota.fmtShare
        (studentUsage (labUsageOf cfg r p.labName) (s.containerFor p.labName) m.student.username
          tier)
        ((usagePair ((labUsageOf cfg r p.labName).total tier)).bind UsagePair.quota)) ↔
      Comparable
        (studentUsage (labUsageOf cfg r p.labName) (s.containerFor p.labName) m.student.username
          tier)
        ((usagePair ((labUsageOf cfg r p.labName).total tier)).bind UsagePair.quota) := by
  have hused : (d.latestSample ⟨placementId, some m.student.id, tier.pool⟩).map SampleCell.used =
      ((studentUsage (labUsageOf cfg r p.labName) (s.containerFor p.labName) m.student.username
        tier).bind UsagePair.used).map Int.cast := by
    rw [hd.student m hm tier]
    have hrow : (rowOf (heartbeatRows cfg r p.labName s now)
          (p.labName, some m.student.username, tier.name)).map (fun row => some row.usedBytes) =
        (studentUsage (labUsageOf cfg r p.labName) (s.containerFor p.labName) m.student.username
          tier).map UsagePair.used := rowOf_student hs _ tier
    cases hpair : studentUsage (labUsageOf cfg r p.labName) (s.containerFor p.labName)
        m.student.username tier with
    | none =>
      rw [hpair] at hrow
      rw [Option.map_eq_none_iff.mp hrow]
      rfl
    | some pair =>
      rw [hpair] at hrow
      obtain ⟨row, hfound, hrow⟩ := Option.map_eq_some_iff.mp hrow
      rw [hfound, Option.bind_some, ← hrow]
      rfl
  rw [hd.quota hs tier, hused]
  exact fmtShare_sameUse _ _

/-- What the snapshot has for the students it lists. -/
theorem mem_students {node : String} {roster : List String} {lab : String} {e : SnapshotStudent}
    (h : e ∈ (publishedSnapshot cfg r lab s node roster).students) :
    e.home = studentUsage (labUsageOf cfg r lab) (s.containerFor lab) e.username .fast ∧
      e.cold = studentUsage (labUsageOf cfg r lab) (s.containerFor lab) e.username .slow := by
  obtain ⟨name, -, rfl⟩ := List.mem_map.mp h
  exact ⟨rfl, rfl⟩

theorem mem_shown {snapshot : Snapshot} {me : String} {onlyMe : Bool} {e : SnapshotStudent}
    (h : e ∈ Labquota.shown snapshot me onlyMe) : e ∈ snapshot.students := by
  unfold Labquota.shown at h
  split at h
  · exact (List.mem_filter.mp h).1
  · exact h

end

/-- **The report and `labquota`.** For the samples that the readings of a snapshot lead to, the
amounts and the percentages of the report are those of `labquota` if and only if no amount is
halfway above an even tenth, and of a quota of their own every student reaches the same whole
percentages as of the quota of the lab. -/
theorem report_sameUse_iff (localeLe : String → String → Bool) (highlight : Option Nat)
    (cfg : UsageConfig) (es : List UsageEvent) (r : Readings) (now : Nat) (node me : String)
    (roster : List String) (onlyMe : Bool) (d : Db) (placementId : Nat) (p : Placement)
    (hp : d.getPlacement placementId = some p)
    (hd : Delivered d placementId p
      (heartbeatRows cfg r p.labName (Run.run (UsageState.step cfg) {} es) now)) :
    let snapshot := publishedSnapshot cfg r p.labName (Run.run (UsageState.step cfg) {} es) node
      roster
    (∃ report, d.buildUsageReport localeLe placementId highlight = some report ∧
      report.SameUse (Labquota.render snapshot me onlyMe)) ↔
    ComparableReadings (d.listMembers p.labId) snapshot
      (Labquota.shown snapshot me onlyMe) := by
  intro snapshot
  have hs : (Run.run (UsageState.step cfg) {} es).Tidy := UsageState.Tidy.empty.run cfg es
  obtain ⟨report, hreport⟩ : ∃ report,
      d.buildUsageReport localeLe placementId highlight = some report := by
    unfold Db.buildUsageReport
    rw [hp]
    exact ⟨_, rfl⟩
  have hbuilt := hreport
  unfold Db.buildUsageReport at hbuilt
  rw [hp] at hbuilt
  replace hbuilt := Option.some.inj hbuilt
  have hagree : report.SameUse (Labquota.render snapshot me onlyMe) ↔
      ComparableReadings (d.listMembers p.labId) snapshot (Labquota.shown snapshot me onlyMe) := by
    rw [← hbuilt]
    constructor
    · rintro ⟨hhome, hcold, htotalHome, htotalCold⟩
      refine ⟨fun m hm e he hname => ?_, fun m hm e he hname => ?_, ?_, ?_⟩
      · have hcell := hhome _ (List.mem_map_of_mem (List.mem_mergeSort.mpr hm)) _
          (List.mem_map_of_mem (List.mem_mergeSort.mpr he)) hname
        obtain ⟨hpair, -⟩ := mem_students (mem_shown he)
        dsimp only at hcell
        rw [hpair, ← hname] at hcell ⊢
        exact (hd.student_sameUse hs hm .fast).mp hcell
      · have hcell := hcold _ (List.mem_map_of_mem (List.mem_mergeSort.mpr hm)) _
          (List.mem_map_of_mem (List.mem_mergeSort.mpr he)) hname
        obtain ⟨-, hpair⟩ := mem_students (mem_shown he)
        dsimp only at hcell
        rw [hpair, ← hname] at hcell ⊢
        exact (hd.student_sameUse hs hm .slow).mp hcell
      · exact (hd.total_sameUse hs .fast).mp htotalHome
      · exact (hd.total_sameUse hs .slow).mp htotalCold
    · rintro ⟨hhome, hcold, htotalHome, htotalCold⟩
      refine ⟨?_, ?_, (hd.total_sameUse hs .fast).mpr htotalHome,
        (hd.total_sameUse hs .slow).mpr htotalCold⟩
      · intro row hrow row' hrow' hname
        obtain ⟨m, hm, rfl⟩ := List.mem_map.mp hrow
        obtain ⟨e, he, rfl⟩ := List.mem_map.mp hrow'
        replace hm := List.mem_mergeSort.mp hm
        replace he := List.mem_mergeSort.mp he
        have hcomparable := hhome m hm e he hname
        obtain ⟨hpair, -⟩ := mem_students (mem_shown he)
        dsimp only at hname ⊢
        rw [hpair, ← hname] at hcomparable ⊢
        exact (hd.student_sameUse hs hm .fast).mpr hcomparable
      · intro row hrow row' hrow' hname
        obtain ⟨m, hm, rfl⟩ := List.mem_map.mp hrow
        obtain ⟨e, he, rfl⟩ := List.mem_map.mp hrow'
        replace hm := List.mem_mergeSort.mp hm
        replace he := List.mem_mergeSort.mp he
        have hcomparable := hcold m hm e he hname
        obtain ⟨-, hpair⟩ := mem_students (mem_shown he)
        dsimp only at hname ⊢
        rw [hpair, ← hname] at hcomparable ⊢
        exact (hd.student_sameUse hs hm .slow).mpr hcomparable
  rw [← hagree]
  constructor
  · rintro ⟨report', heq, h⟩
    rw [hreport] at heq
    exact Option.some.inj heq ▸ h
  · exact fun h => ⟨report, hreport, h⟩

/-! ## A student with a quota of their own -/

/-- A lab with 1000 bytes, of which a student uses 40. -/
def sharedReadings (own : Option Int) : Readings where
  fastRows := [⟨"p/lab", 100, some 1000, none⟩, ⟨"p/lab/s", 40, own, none⟩]
  slowRows := []
  containerExists _ := false
  writableLayer _ := none
  rootfsQuota _ := none
  duHome _ _ := none
  duCold _ _ := none

def sharedPools : UsageConfig := ⟨"p", "q", false⟩

/-- The samples of these readings. -/
def sharedDb : Db :=
  { (Run.run step (.init .plain)
      (placedLab ++ [.addStudentToLab 1 { username := "s" } none])).db with
    storageSamples := [⟨1, 1, none, "fast", 100, .number 1000, 5⟩,
      ⟨1, 1, some 1, "fast", 40, .null, 5⟩] }

theorem sharedDb_placement : ∃ p, sharedDb.getPlacement 1 = some p ∧ p.labId = 1 ∧
    p.labName = "lab" := by
  decide +kernel

theorem sharedDb_members : ∀ m ∈ sharedDb.listMembers 1,
    m.student.id = 1 ∧ m.student.username = "s" := by
  decide +kernel

theorem sharedDb_delivered (own : Option Int) (hown : own = none ∨ own = some 50) {p : Placement}
    (hlab : p.labId = 1) (hname : p.labName = "lab") : Delivered sharedDb 1 p
      (heartbeatRows sharedPools (sharedReadings own) p.labName
        (Run.run (UsageState.step sharedPools) {} []) 5) := by
  rw [hname]
  refine ⟨fun tier => ?_, fun m hm tier => ?_⟩
  · rw [hname]
    rcases hown with rfl | rfl <;> cases tier <;> decide +kernel
  · rw [hlab] at hm
    obtain ⟨hid, hstudent⟩ := sharedDb_members m hm
    rw [hname, hid, hstudent]
    rcases hown with rfl | rfl <;> cases tier <;> decide +kernel

/-- A student without a quota of their own: both show 40 bytes, 4% of the lab's. -/
theorem report_sameUse_shared : ∃ p, sharedDb.getPlacement 1 = some p ∧
    ∃ report, sharedDb.buildUsageReport (fun a b => decide (a ≤ b)) 1 none = some report ∧
      report.SameUse (Labquota.render (publishedSnapshot sharedPools (sharedReadings none) p.labName
        (Run.run (UsageState.step sharedPools) {} []) "n" ["s"]) "s" false) := by
  obtain ⟨p, hp, hlab, hname⟩ := sharedDb_placement
  refine ⟨p, hp, (report_sameUse_iff (fun a b => decide (a ≤ b)) none sharedPools []
    (sharedReadings none) 5 "n" "s" ["s"] false sharedDb 1 p hp
    (sharedDb_delivered none (.inl rfl) hlab hname)).mpr ?_⟩
  rw [hlab, hname]
  have hhome : studentUsage (labUsageOf sharedPools (sharedReadings none) "lab") {} "s" .fast =
      some ⟨some 40, none⟩ := by decide +kernel
  have hcold : studentUsage (labUsageOf sharedPools (sharedReadings none) "lab") {} "s" .slow =
      none := by decide +kernel
  have htotal : usagePair (labUsageOf sharedPools (sharedReadings none) "lab").fast =
      some ⟨some 100, some 1000⟩ := by decide +kernel
  have hslow : usagePair (labUsageOf sharedPools (sharedReadings none) "lab").slow = none := by
    decide +kernel
  refine ⟨fun m hm e he heq used quota hpair => ?_, fun m hm e he heq used quota hpair => ?_,
    fun used quota hpair => ?_, fun used quota hpair => ?_⟩
  · obtain ⟨heshape, -⟩ := mem_students (mem_shown he)
    rw [heshape, ← heq, (sharedDb_members m hm).2] at hpair
    obtain ⟨hused, rfl⟩ := UsagePair.mk.inj (Option.some.inj (hhome.symm.trans hpair))
    obtain rfl := Option.some.inj hused
    exact ⟨ByteText.not_evenTie_of_lt (by decide), nofun⟩
  · obtain ⟨-, heshape⟩ := mem_students (mem_shown he)
    rw [heshape, ← heq, (sharedDb_members m hm).2] at hpair
    cases hcold.symm.trans hpair
  · obtain ⟨hused, -⟩ := UsagePair.mk.inj (Option.some.inj (htotal.symm.trans hpair))
    obtain rfl := Option.some.inj hused
    exact ByteText.not_evenTie_of_lt (by decide)
  · cases hslow.symm.trans hpair

/-- With a quota of 50 bytes of their own, the student is at 80% for `labquota` and at 4% in the
report. -/
theorem own_quota_differs : ∃ p, sharedDb.getPlacement 1 = some p ∧
    Delivered sharedDb 1 p (heartbeatRows sharedPools (sharedReadings (some 50)) p.labName
      (Run.run (UsageState.step sharedPools) {} []) 5) ∧
    ∀ report, sharedDb.buildUsageReport (fun a b => decide (a ≤ b)) 1 none = some report →
      ¬ report.SameUse (Labquota.render (publishedSnapshot sharedPools (sharedReadings (some 50))
        p.labName (Run.run (UsageState.step sharedPools) {} []) "n" ["s"]) "s" false) := by
  obtain ⟨p, hp, hlab, hname⟩ := sharedDb_placement
  have hd := sharedDb_delivered (some 50) (.inr rfl) hlab hname
  refine ⟨p, hp, hd, fun report hreport hsame => ?_⟩
  unfold Db.buildUsageReport at hreport
  rw [hp] at hreport
  rw [← Option.some.inj hreport] at hsame
  obtain ⟨m, hm, hstudent⟩ : ∃ m ∈ sharedDb.listMembers 1, m.student.username = "s" := by
    decide +kernel
  have hlisted : "s" ∈ (((labUsageOf sharedPools (sharedReadings (some 50)) p.labName).users.map
      Prod.fst ++ [] ++ [] ++ ["s"]).dedup.mergeSort fun a b => decide (a ≤ b)) :=
    List.mem_mergeSort.mpr (List.mem_dedup.mpr (List.mem_append_right _ List.mem_cons_self))
  have hcell := hsame.home _
    (List.mem_map_of_mem (List.mem_mergeSort.mpr (hlab ▸ hm : m ∈ sharedDb.listMembers p.labId))) _
    (List.mem_map_of_mem (List.mem_mergeSort.mpr (List.mem_map_of_mem hlisted))) hstudent
  have hcomparable := (hd.student_sameUse UsageState.Tidy.empty
    (hlab ▸ hm : m ∈ sharedDb.listMembers p.labId) .fast).mp (by rw [hstudent]; exact hcell)
  rw [hstudent, hname] at hcomparable
  have hown : studentUsage (labUsageOf sharedPools (sharedReadings (some 50)) "lab") {} "s" .fast =
      some ⟨some 40, some 50⟩ := by decide +kernel
  have htotal : (usagePair (labUsageOf sharedPools (sharedReadings (some 50)) "lab").fast).bind
      UsagePair.quota = some 1000 := by decide +kernel
  have hpercent := ((hcomparable 40 (some 50) hown).2 50 rfl (by decide)).2 1000 htotal
    (by decide) (by decide) 80
  omega

end MassDeployment

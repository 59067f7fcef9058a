import Mathlib.Data.List.Dedup
import MassDeployment.Agent.UsageReport
import MassDeployment.Lib.ByteText

set_option autoImplicit false

/-! # The snapshot of a lab and `labquota` (`usagereport.py`, `image/labquota`)

The agent publishes a snapshot of the readings of a lab, and `labquota` shows it as a table.
-/

namespace MassDeployment.Agent

/-! ## The snapshot -/

structure UsagePair where
  used : Option Int
  quota : Option Int
  deriving DecidableEq

/-- `_usage_pair`. -/
def usagePair (u : Option ZfsUsage) : Option UsagePair :=
  u.map fun u => ⟨some u.usedBytes, u.quotaBytes⟩

structure SnapshotStudent where
  username : String
  home : Option UsagePair
  cold : Option UsagePair

structure Snapshot where
  node : String
  lab : String
  fast : Option UsagePair
  cold : Option UsagePair
  rootfs : UsagePair
  students : List SnapshotStudent

/-- The dataset of a student, or the size a scan found. -/
def studentPair (tiers : Dict PoolTier ZfsUsage) (tier : PoolTier) (perUser : Dict String Int)
    (name : String) : Option UsagePair :=
  (usagePair (tiers.lookup tier)).or
    ((perUser.lookup name).map fun used => ⟨some used, none⟩)

def buildSnapshot (node lab : String) (labUsage : LabUsage) (containerUsage : ContainerUsage)
    (roster : List String) (rootfsQuota : Option Int) : Snapshot :=
  let names := labUsage.users.map Prod.fst ++ containerUsage.perUserFast.map Prod.fst ++
    containerUsage.perUserSlow.map Prod.fst ++ roster
  let usernames := names.dedup.mergeSort fun a b => decide (a ≤ b)
  { node := node
    lab := lab
    fast := usagePair labUsage.fast
    cold := usagePair labUsage.slow
    rootfs := ⟨containerUsage.totalUsed, rootfsQuota⟩
    students := usernames.map fun name =>
      let tiers := (labUsage.users.lookup name).getD []
      { username := name
        home := studentPair tiers .fast containerUsage.perUserFast name
        cold := studentPair tiers .slow containerUsage.perUserSlow name } }

/-- `container_for`. -/
def UsageState.containerFor (state : UsageState) (lab : String) : ContainerUsage :=
  (state.container.lookup lab).getD {}

/-! ## The table -/

/-- A cell of the table, with its parts apart. -/
structure UsageCell where
  amount : String
  quota : String := ""
  pct : String := ""
  deriving DecidableEq

def UsageCell.text (c : UsageCell) : String := c.amount ++ c.quota ++ c.pct

def UsageCell.dash : UsageCell := { amount := "—" }

structure UsageRow where
  username : String
  label : String
  home : UsageCell
  cold : UsageCell
  rootfs : UsageCell

namespace Labquota

def fmtBytes : Option Int → String
  | none => "—"
  | some n => ByteText.formatBytes ByteText.wholeEven (ByteText.fixed1 ByteText.roundEven) n

def fmtPct : Option Int → Option Int → String
  | some used, some quota =>
    if quota ≤ 0 then "" else " (" ++ (used * 100 / quota).repr ++ "%)"
  | _, _ => ""

/-- A quota that is there and not 0. -/
def hasQuota (quota : Option Int) : Bool := quota.any (· != 0)

def fmtPair : Option UsagePair → UsageCell
  | none => .dash
  | some pair =>
    { amount := fmtBytes pair.used
      quota := if hasQuota pair.quota then " / " ++ fmtBytes pair.quota else ""
      pct := fmtPct pair.used pair.quota }

def fmtShare (pair : Option UsagePair) (totalQuota : Option Int) : UsageCell :=
  match pair with
  | none => .dash
  | some p =>
    if p.used.isNone then .dash
    else if hasQuota p.quota then fmtPair pair
    else { amount := fmtBytes p.used, pct := fmtPct p.used totalQuota }

/-- The table of `render`, with its last row apart. -/
structure Table where
  rows : List UsageRow
  total : UsageRow

/-- The order of the rows: one's own first, then by name. -/
def before (me : String) (a b : SnapshotStudent) : Bool :=
  if (a.username != me) = (b.username != me) then decide (a.username ≤ b.username)
  else a.username == me

def shown (snapshot : Snapshot) (me : String) (onlyMe : Bool) : List SnapshotStudent :=
  if onlyMe then snapshot.students.filter fun s => s.username == me else snapshot.students

def render (snapshot : Snapshot) (me : String) (onlyMe : Bool) : Table :=
  let fastQuota := snapshot.fast.bind UsagePair.quota
  let coldQuota := snapshot.cold.bind UsagePair.quota
  { rows := ((shown snapshot me onlyMe).mergeSort (before me)).map fun s =>
      { username := s.username
        label := if s.username = me then s.username ++ "  (you)" else s.username
        home := fmtShare s.home fastQuota
        cold := fmtShare s.cold coldQuota
        rootfs := .dash }
    total :=
      { username := "TOTAL"
        label := "TOTAL"
        home := fmtPair snapshot.fast
        cold := fmtPair snapshot.cold
        rootfs := fmtPair (some snapshot.rootfs) } }

end Labquota

/-! ## The heartbeat and the snapshot

The totals of a lab are read, the cache of the lab is set, and the snapshot is written from the same
readings. -/

section

variable (cfg : UsageConfig) (r : Readings) (lab : String) (s : UsageState) (now : Nat)

/-- The usage of a lab, as one reading of the pools has it. -/
def labUsageOf : LabUsage := ((collectZfsUsage cfg r).lookup lab).getD {}

/-- The rows of a heartbeat after the lab has been read. -/
def heartbeatRows : List StorageRow := storageUsage (s.step cfg (.refreshLab lab now r))

/-- The snapshot of the lab from what was read. -/
def publishedSnapshot (node : String) (roster : List String) : Snapshot :=
  buildSnapshot node lab (labUsageOf cfg r lab) (s.containerFor lab) roster
    (if r.containerExists lab then r.rootfsQuota lab else none)

end

def rowOf (rows : List StorageRow) (k : String × Option String × Tier) : Option StorageRow :=
  rows.find? fun r => r.key == k

theorem rowOf_of_mem {rows : List StorageRow} (hnodup : (rows.map StorageRow.key).Nodup)
    {r : StorageRow} (h : r ∈ rows) : rowOf rows r.key = some r := by
  cases hfind : rowOf rows r.key with
  | none =>
      have hne := List.find?_eq_none.mp hfind r h
      exact absurd (beq_self_eq_true r.key) hne
  | some r' =>
      have hfound := List.find?_some hfind
      have hkey : r'.key = r.key := eq_of_beq hfound
      rw [List.inj_on_of_nodup_map hnodup (List.mem_of_find?_eq_some hfind) h hkey]

theorem rowOf_eq_none {rows : List StorageRow} {k : String × Option String × Tier}
    (h : ∀ r ∈ rows, r.key ≠ k) : rowOf rows k = none :=
  List.find?_eq_none.mpr fun r hr heq => h r hr (eq_of_beq heq)

def ContainerUsage.perUser (usage : ContainerUsage) : PoolTier → Dict String Int
  | .fast => usage.perUserFast
  | .slow => usage.perUserSlow

theorem mem_tierStorage_iff {lab : String} {usage : ContainerUsage} {row : StorageRow} :
    row ∈ tierStorage lab usage ↔ ∃ tier user used, (user, used) ∈ usage.perUser tier ∧
      row = ⟨lab, some user, tier.name, used, none, none⟩ := by
  unfold tierStorage
  rw [List.mem_append, mem_duRows, mem_duRows]
  constructor
  · rintro (⟨user, used, h, rfl⟩ | ⟨user, used, h, rfl⟩)
    · exact ⟨.fast, user, used, h, rfl⟩
    · exact ⟨.slow, user, used, h, rfl⟩
  · rintro ⟨tier, user, used, h, rfl⟩
    cases tier
    · exact .inl ⟨user, used, h, rfl⟩
    · exact .inr ⟨user, used, h, rfl⟩

def LabUsage.total (u : LabUsage) : PoolTier → Option ZfsUsage
  | .fast => u.fast
  | .slow => u.slow

/-- What a row of the cache of a lab is about. -/
theorem mem_labLevelFor {r : Readings} {lab : String} {u : LabUsage} {now : Nat}
    {row : StorageRow} : row ∈ (labLevelFor r lab u now).storage ↔
      (∃ tier usage, u.total tier = some usage ∧ row = zfsRow lab none tier usage) ∨
      (∃ user tiers tier usage, (user, tiers) ∈ u.users ∧ (tier, usage) ∈ tiers ∧
        row = zfsRow lab (some user) tier usage) ∨
      liveContainerStorage r lab = some row := by
  unfold labLevelFor
  simp only [List.mem_append, Option.mem_toList, Option.map_eq_some_iff, List.mem_flatMap,
    List.mem_map, Prod.exists]
  constructor
  · rintro (((⟨usage, h, rfl⟩ | ⟨usage, h, rfl⟩) | ⟨user, tiers, h, tier, usage, ht, rfl⟩) | h)
    · exact .inl ⟨.fast, usage, h, rfl⟩
    · exact .inl ⟨.slow, usage, h, rfl⟩
    · exact .inr (.inl ⟨user, tiers, tier, usage, h, ht, rfl⟩)
    · exact .inr (.inr h)
  · rintro (⟨tier, usage, h, rfl⟩ | ⟨user, tiers, tier, usage, h, ht, rfl⟩ | h)
    · cases tier
      · exact .inl (.inl (.inl ⟨usage, h, rfl⟩))
      · exact .inl (.inl (.inr ⟨usage, h, rfl⟩))
    · exact .inl (.inr ⟨user, tiers, h, tier, usage, ht, rfl⟩)
    · exact .inr h

section

variable {cfg : UsageConfig} {r : Readings} {lab : String} {s : UsageState} {now : Nat}

/-- The rows of the totals of a lab are those just read. -/
theorem mem_labRows_read (h : s.Tidy) {row : StorageRow} (hlab : row.lab = lab) :
    row ∈ (s.step cfg (.refreshLab lab now r)).labRows ↔
      row ∈ (labLevelFor r lab (labUsageOf cfg r lab) now).storage := by
  have htidy : (s.step cfg (.refreshLab lab now r)).Tidy := h.step cfg _
  have hmem : (lab, labLevelFor r lab (labUsageOf cfg r lab) now) ∈
      (s.step cfg (.refreshLab lab now r)).lab := by
    refine Dict.mem_of_lookup ?_
    show (s.lab.set lab _).lookup lab = _
    rw [Dict.lookup_set, if_pos rfl]
    rfl
  constructor
  · intro hrow
    obtain ⟨e, he, hrow⟩ := List.mem_flatMap.mp hrow
    have hkey : e.1 = lab := ((htidy.levels e he).labs row hrow).symm.trans hlab
    rw [List.inj_on_of_nodup_map htidy.labs he hmem hkey] at hrow
    exact hrow
  · intro hrow
    exact List.mem_flatMap.mpr ⟨_, hmem, hrow⟩

/-- The row of a total is the total. -/
theorem rowOf_total (h : s.Tidy) (tier : PoolTier) :
    rowOf (heartbeatRows cfg r lab s now) (lab, none, tier.name) =
      ((labUsageOf cfg r lab).total tier).map (zfsRow lab none tier) := by
  have hnodup := (h.step cfg (.refreshLab lab now r)).nodup_storageUsage
  cases htotal : (labUsageOf cfg r lab).total tier with
  | some usage =>
      refine rowOf_of_mem (r := zfsRow lab none tier usage) hnodup (mem_storageUsage.mpr (.inl ?_))
      exact (mem_labRows_read h rfl).mpr (mem_labLevelFor.mpr (.inl ⟨tier, usage, htotal, rfl⟩))
  | none =>
      refine rowOf_eq_none fun row hrow hkey => ?_
      have hlab : row.lab = lab := congrArg Prod.fst hkey
      have huser : row.user = none := congrArg (fun k => k.2.1) hkey
      have htier : row.tier = tier.name := congrArg (fun k => k.2.2) hkey
      rcases mem_storageUsage.mp hrow with hrow | ⟨⟨e, -, hrow⟩, -⟩
      · rcases mem_labLevelFor.mp ((mem_labRows_read h hlab).mp hrow) with
          ⟨tier', usage, hsome, rfl⟩ | ⟨user, _, _, _, -, -, rfl⟩ | hlive
        · rw [PoolTier.name_injective htier, htotal] at hsome
          cases hsome
        · cases huser
        · have hroot : row.tier = .rootfs :=
            congrArg (fun k => k.2.2) (key_liveContainerStorage hlive)
          rw [htier] at hroot
          cases tier <;> cases hroot
      · obtain ⟨-, user, hsome⟩ := mem_tierStorage hrow
        rw [huser] at hsome
        cases hsome

/-- What the snapshot has for a student in a tier. -/
def studentUsage (u : LabUsage) (usage : ContainerUsage) (name : String) (tier : PoolTier) :
    Option UsagePair :=
  studentPair ((u.users.lookup name).getD []) tier (usage.perUser tier) name

theorem mem_containerFor {user : String} {used : Int} {tier : PoolTier}
    (h : (user, used) ∈ (s.containerFor lab).perUser tier) :
    (lab, s.containerFor lab) ∈ s.container := by
  unfold UsageState.containerFor at h ⊢
  cases hlookup : s.container.lookup lab with
  | some usage => exact Dict.mem_of_lookup hlookup
  | none =>
      rw [hlookup] at h
      cases tier <;> exact absurd h List.not_mem_nil

theorem lookup_perUser (h : s.Tidy) {usage : ContainerUsage} (hmem : (lab, usage) ∈ s.container)
    {tier : PoolTier} {user : String} {used : Int} (hused : (user, used) ∈ usage.perUser tier) :
    ((s.containerFor lab).perUser tier).lookup user = some used := by
  unfold UsageState.containerFor
  rw [Dict.lookup_of_mem h.containers hmem, Option.getD_some]
  refine Dict.lookup_of_mem ?_ hused
  cases tier
  · exact h.fast _ hmem
  · exact h.slow _ hmem

/-- The row of a student has the size that the snapshot has. -/
theorem rowOf_student (h : s.Tidy) (name : String) (tier : PoolTier) :
    (rowOf (heartbeatRows cfg r lab s now) (lab, some name, tier.name)).map
        (fun row => some row.usedBytes) =
      (studentUsage (labUsageOf cfg r lab) (s.containerFor lab) name tier).map UsagePair.used := by
  have hu : (labUsageOf cfg r lab).Tidy := (allTidy_collect cfg r).get lab
  have hnodup := (h.step cfg (.refreshLab lab now r)).nodup_storageUsage
  have hlive : ∀ row ∈ (s.step cfg (.refreshLab lab now r)).labRows,
      row.key = (lab, some name, tier.name) → ∃ tiers usage,
        (name, tiers) ∈ (labUsageOf cfg r lab).users ∧ (tier, usage) ∈ tiers := by
    intro row hrow hkey
    have hlab : row.lab = lab := congrArg Prod.fst hkey
    have huser : row.user = some name := congrArg (fun k => k.2.1) hkey
    have htier : row.tier = tier.name := congrArg (fun k => k.2.2) hkey
    rcases mem_labLevelFor.mp ((mem_labRows_read h hlab).mp hrow) with
      ⟨_, _, -, rfl⟩ | ⟨user, tiers, tier', usage, hmem, hin, rfl⟩ | hroot
    · cases huser
    · obtain rfl := Option.some.inj huser
      rw [PoolTier.name_injective htier] at hin
      exact ⟨tiers, usage, hmem, hin⟩
    · have hnone : row.user = none := congrArg (fun k => k.2.1) (key_liveContainerStorage hroot)
      rw [huser] at hnone
      cases hnone
  unfold studentUsage studentPair
  cases hown : (((labUsageOf cfg r lab).users.lookup name).getD []).lookup tier with
  | some usage =>
      obtain ⟨tiers, htiers⟩ : ∃ tiers, (labUsageOf cfg r lab).users.lookup name = some tiers := by
        cases hlookup : (labUsageOf cfg r lab).users.lookup name with
        | some tiers => exact ⟨tiers, rfl⟩
        | none =>
            rw [hlookup] at hown
            cases hown
      rw [htiers] at hown
      have hrow : zfsRow lab (some name) tier usage ∈
          (s.step cfg (.refreshLab lab now r)).labRows :=
        (mem_labRows_read h rfl).mpr (mem_labLevelFor.mpr (.inr (.inl
          ⟨name, tiers, tier, usage, Dict.mem_of_lookup htiers, Dict.mem_of_lookup hown, rfl⟩)))
      have hfound := rowOf_of_mem hnodup (mem_storageUsage.mpr (.inl hrow))
      exact congrArg (Option.map fun row : StorageRow => some row.usedBytes) hfound
  | none =>
      -- no dataset of the student has the key, so the size does
      have hfree : ∀ row ∈ (s.step cfg (.refreshLab lab now r)).labRows,
          row.key ≠ (lab, some name, tier.name) := by
        intro row hrow hkey
        obtain ⟨tiers, usage, hmem, hin⟩ := hlive row hrow hkey
        rw [Dict.lookup_of_mem hu.users hmem, Option.getD_some,
          Dict.lookup_of_mem (hu.tiers _ hmem) hin] at hown
        cases hown
      cases hdu : ((s.containerFor lab).perUser tier).lookup name with
      | some used =>
          have hused := Dict.mem_of_lookup hdu
          have hsize : (⟨lab, some name, tier.name, used, none, none⟩ : StorageRow) ∈
              tierStorage lab (s.containerFor lab) :=
            mem_tierStorage_iff.mpr ⟨tier, name, used, hused, rfl⟩
          have hrow : (⟨lab, some name, tier.name, used, none, none⟩ : StorageRow) ∈
              heartbeatRows cfg r lab s now := by
            refine mem_storageUsage.mpr (.inr ⟨⟨_, mem_containerFor hused, hsize⟩, ?_⟩)
            exact fun live hmem _ hkey => hfree live hmem hkey
          exact congrArg (Option.map fun row : StorageRow => some row.usedBytes)
            (rowOf_of_mem hnodup hrow)
      | none =>
          rw [rowOf_eq_none fun row hrow hkey => ?_]
          · rfl
          rcases mem_storageUsage.mp hrow with hrow | ⟨⟨e, he, hrow⟩, -⟩
          · exact hfree row hrow hkey
          · obtain ⟨tier', user, used, hused, rfl⟩ := mem_tierStorage_iff.mp hrow
            obtain rfl : e.1 = lab := congrArg Prod.fst hkey
            obtain rfl : user = name := Option.some.inj (congrArg (fun k => k.2.1) hkey)
            obtain rfl : tier' = tier := PoolTier.name_injective (congrArg (fun k => k.2.2) hkey)
            rw [lookup_perUser h he hused] at hdu
            cases hdu

end

end MassDeployment.Agent

import Mathlib.Data.List.Dedup
import MassDeployment.Agent.Users
import MassDeployment.Lib.Dict
import MassDeployment.Lib.Run

set_option autoImplicit false

/-! # Storage usage on the node (`usagereport.py`, `telemetry.py`)

Two caches are filled on schedules of their own: the totals of every lab with the datasets of its
students, from `zfs list` and `docker inspect`, and the sizes of the students' directories, from
`du`. A heartbeat reports both, and a directory that is a dataset of its own is reported from the
first.
-/

namespace MassDeployment.Agent

/-! ## Readings -/

/-- A line of `zfs list`. -/
structure ZfsUsage where
  dataset : String
  usedBytes : Int
  quotaBytes : Option Int
  availableBytes : Option Int

/-- What the commands answer while a cache is filled. The container of a lab goes by the lab. -/
structure Readings where
  /-- `zfs list -r` of the two roots. -/
  fastRows : List ZfsUsage
  slowRows : List ZfsUsage
  containerExists : String → Bool
  writableLayer : String → Option Int
  rootfsQuota : String → Option Int
  /-- `du` of `/home/<user>` in the container of a lab. -/
  duHome : String → String → Option Int
  /-- `du` of `/cold-storage/<user>`. -/
  duCold : String → String → Option Int

structure UsageConfig where
  labsFastRoot : String
  labsSlowRoot : String
  slowIsZfs : Bool

/-! ## ZFS usage -/

inductive PoolTier where
  | fast
  | slow
  deriving DecidableEq

/-- Usage of one lab and of the datasets of its students. -/
structure LabUsage where
  fast : Option ZfsUsage := none
  slow : Option ZfsUsage := none
  users : Dict String (Dict PoolTier ZfsUsage) := []

/-- `root.rstrip("/") + "/"`. -/
def datasetPrefix (root : String) : List Char :=
  (root.toList.reverse.dropWhile (· == '/')).reverse ++ ['/']

/-- `_parse_dataset`: the lab of a dataset, and the student where it is a student's. -/
def parseDataset (dataset root : String) : Option (String × Option String) :=
  if (datasetPrefix root).isPrefixOf dataset.toList then
    match ((dataset.toList.drop (datasetPrefix root).length).splitOn '/').map String.ofList with
    | [lab] => if lab = "" then none else some (lab, none)
    | [lab, user] =>
      if lab = "" then none
      else if user ≠ "shared" ∧ user ≠ "users" ∧ matchesUsername user = true then
        some (lab, some user)
      else none
    | _ => none
  else none

/-- `setattr(entry, tier, u)`. -/
def LabUsage.setTier (entry : LabUsage) (u : ZfsUsage) : PoolTier → LabUsage
  | .fast => { entry with fast := some u }
  | .slow => { entry with slow := some u }

def ingestRow (root : String) (tier : PoolTier) (out : Dict String LabUsage) (u : ZfsUsage) :
    Dict String LabUsage :=
  match parseDataset u.dataset root with
  | none => out
  | some (lab, user) =>
    let entry := (out.lookup lab).getD {}
    match user with
    | none => out.set lab (entry.setTier u tier)
    | some user =>
      let tiers := (entry.users.lookup user).getD []
      out.set lab { entry with users := entry.users.set user (tiers.set tier u) }

/-- `_ingest_rows`. -/
def ingestRows (out : Dict String LabUsage) (rows : List ZfsUsage) (root : String)
    (tier : PoolTier) : Dict String LabUsage :=
  rows.foldl (ingestRow root tier) out

def collectZfsUsage (cfg : UsageConfig) (r : Readings) : Dict String LabUsage :=
  let out := ingestRows [] r.fastRows cfg.labsFastRoot .fast
  if cfg.slowIsZfs then ingestRows out r.slowRows cfg.labsSlowRoot .slow else out

/-! ## The lab-level cache -/

inductive Tier where
  | fast
  | cold
  | rootfs
  deriving DecidableEq

/-- A row of the heartbeat's `storage`. -/
structure StorageRow where
  lab : String
  user : Option String
  tier : Tier
  usedBytes : Int
  quotaBytes : Option Int
  availableBytes : Option Int
  deriving DecidableEq

def StorageRow.key (r : StorageRow) : String × Option String × Tier := (r.lab, r.user, r.tier)

structure LabLevelUsage where
  computedAt : Option Nat := none
  storage : List StorageRow := []

/-- `"cold" if tier == "slow" else tier`. -/
def PoolTier.name : PoolTier → Tier
  | .fast => .fast
  | .slow => .cold

def zfsRow (lab : String) (user : Option String) (tier : PoolTier) (u : ZfsUsage) : StorageRow :=
  ⟨lab, user, tier.name, u.usedBytes, u.quotaBytes, u.availableBytes⟩

/-- `live_container_storage`. -/
def liveContainerStorage (r : Readings) (lab : String) : Option StorageRow :=
  if !r.containerExists lab then none
  else
    (r.writableLayer lab).map fun total =>
      ⟨lab, none, .rootfs, total, r.rootfsQuota lab,
        (r.rootfsQuota lab).map fun quota => max 0 (quota - total)⟩

def labLevelFor (r : Readings) (lab : String) (labUsage : LabUsage) (now : Nat) :
    LabLevelUsage where
  computedAt := some now
  storage :=
    (labUsage.fast.map (zfsRow lab none .fast)).toList ++
    (labUsage.slow.map (zfsRow lab none .slow)).toList ++
    (labUsage.users.flatMap fun (user, tiers) =>
      tiers.map fun (tier, usage) => zfsRow lab (some user) tier usage) ++
    (liveContainerStorage r lab).toList

/-! ## The scan cache -/

structure ContainerUsage where
  scannedAt : Option Nat := none
  totalUsed : Option Int := none
  perUserFast : Dict String Int := []
  perUserSlow : Dict String Int := []

/-- The values that could be measured. -/
def measure (du : String → Option Int) (users : List String) : Dict String Int :=
  users.foldl (fun d user => match du user with
    | some used => d.set user used
    | none => d) []

def runContainerScan (r : Readings) (lab : String) (usernames : List String) (now : Nat) :
    ContainerUsage :=
  if !r.containerExists lab then { scannedAt := some now }
  else
    let valid := usernames.filter matchesUsername
    { scannedAt := some now
      totalUsed := r.writableLayer lab
      perUserFast := measure (r.duHome lab) valid
      perUserSlow := measure (r.duCold lab) valid }

structure UsageState where
  container : Dict String ContainerUsage := []
  lab : Dict String LabLevelUsage := []

def collectLabLevel (cfg : UsageConfig) (r : Readings) (state : UsageState) (now : Nat) :
    Dict String LabLevelUsage :=
  let grouped := collectZfsUsage cfg r
  let labs := (grouped.map Prod.fst ++ state.container.map Prod.fst).dedup
  (labs.mergeSort fun a b => decide (a ≤ b)).map fun lab =>
    (lab, labLevelFor r lab ((grouped.lookup lab).getD {}) now)

def duRows (lab : String) (tier : Tier) (perUser : Dict String Int) : List StorageRow :=
  perUser.map fun (user, used) => ⟨lab, some user, tier, used, none, none⟩

/-- `tier_storage`. -/
def tierStorage (lab : String) (usage : ContainerUsage) : List StorageRow :=
  duRows lab .fast usage.perUserFast ++ duRows lab .cold usage.perUserSlow

/-! ## The heartbeat -/

/-- The user of a row is there and not empty. -/
def StorageRow.isStudent (r : StorageRow) : Bool := r.user.any (· != "")

def UsageState.labRows (state : UsageState) : List StorageRow :=
  state.lab.flatMap fun (_, level) => level.storage

/-- `_storage_usage`. -/
def storageUsage (state : UsageState) : List StorageRow :=
  let live := (state.labRows.filter StorageRow.isStudent).map StorageRow.key
  state.labRows ++ state.container.flatMap fun (lab, usage) =>
    (tierStorage lab usage).filter fun r => !live.contains r.key

/-! ## Runs -/

inductive UsageEvent where
  /-- `_refresh_lab_usage`. -/
  | refresh (now : Nat) (r : Readings)
  /-- The end of `_handle_usage_scan`. -/
  | refreshLab (lab : String) (now : Nat) (r : Readings)
  /-- A scan of the container of a lab that ends. -/
  | scan (lab : String) (usernames : List String) (now : Nat) (r : Readings)

def UsageState.step (cfg : UsageConfig) (state : UsageState) : UsageEvent → UsageState
  | .refresh now r => { state with lab := collectLabLevel cfg r state now }
  | .refreshLab lab now r =>
    let labUsage := ((collectZfsUsage cfg r).lookup lab).getD {}
    { state with lab := state.lab.set lab (labLevelFor r lab labUsage now) }
  | .scan lab usernames now r =>
    { state with container := state.container.set lab (runContainerScan r lab usernames now) }

/-! ## What the caches hold -/

/-- Every student has one entry, with one value for each tier. -/
structure LabUsage.Tidy (u : LabUsage) : Prop where
  users : (u.users.map Prod.fst).Nodup
  tiers : ∀ e ∈ u.users, (e.2.map Prod.fst).Nodup
  named : ∀ e ∈ u.users, e.1 ≠ ""

/-- The rows of a lab are about the lab, and no two about the same. -/
structure LabLevelUsage.Tidy (lab : String) (level : LabLevelUsage) : Prop where
  labs : ∀ r ∈ level.storage, r.lab = lab
  keys : (level.storage.map StorageRow.key).Nodup
  named : ∀ r ∈ level.storage, r.user ≠ some ""

structure UsageState.Tidy (s : UsageState) : Prop where
  labs : (s.lab.map Prod.fst).Nodup
  levels : ∀ e ∈ s.lab, e.2.Tidy e.1
  containers : (s.container.map Prod.fst).Nodup
  fast : ∀ e ∈ s.container, (e.2.perUserFast.map Prod.fst).Nodup
  slow : ∀ e ∈ s.container, (e.2.perUserSlow.map Prod.fst).Nodup

theorem LabUsage.tidy_empty : LabUsage.Tidy {} := ⟨List.nodup_nil, nofun, nofun⟩

theorem named_of_matches {user : String} (h : matchesUsername user = true) : user ≠ "" := by
  rintro rfl
  exact absurd h (by decide)

/-- The name of a student's dataset is an account name. -/
theorem parseDataset_student {dataset root lab user : String}
    (h : parseDataset dataset root = some (lab, some user)) : user ≠ "" := by
  unfold parseDataset at h
  split at h
  · split at h
    · split at h <;> cases h
    · split at h
      · cases h
      · split at h
        · rename_i hvalid
          cases h
          exact named_of_matches hvalid.2.2
        · cases h
    · cases h
  · cases h

/-- A dictionary of usages in which every lab occurs once and is tidy. -/
def AllTidy (out : Dict String LabUsage) : Prop :=
  (out.map Prod.fst).Nodup ∧ ∀ e ∈ out, e.2.Tidy

theorem AllTidy.get {out : Dict String LabUsage} (h : AllTidy out) (lab : String) :
    ((out.lookup lab).getD {}).Tidy := by
  cases hlookup : out.lookup lab with
  | none => exact LabUsage.tidy_empty
  | some entry => exact h.2 _ (Dict.mem_of_lookup hlookup)

theorem AllTidy.set {out : Dict String LabUsage} (h : AllTidy out) {entry : LabUsage}
    (hentry : entry.Tidy) (lab : String) : AllTidy (out.set lab entry) := by
  refine ⟨Dict.nodup_set h.1 lab entry, fun e he => ?_⟩
  rcases Dict.mem_set h.1 he with rfl | ⟨he, -⟩
  · exact hentry
  · exact h.2 e he

theorem AllTidy.ingestRow {root : String} {tier : PoolTier} {out : Dict String LabUsage}
    (h : AllTidy out) (u : ZfsUsage) : AllTidy (ingestRow root tier out u) := by
  unfold Agent.ingestRow
  split
  · exact h
  · rename_i lab user hparse
    have hentry := h.get lab
    dsimp only
    split
    · refine h.set ?_ lab
      cases tier <;> exact ⟨hentry.users, hentry.tiers, hentry.named⟩
    · rename_i user
      have hkeys : ((((out.lookup lab).getD {}).users.lookup user).getD []).map Prod.fst |>.Nodup := by
        cases hlookup : ((out.lookup lab).getD {}).users.lookup user with
        | none => exact List.nodup_nil
        | some tiers => exact hentry.tiers _ (Dict.mem_of_lookup hlookup)
      refine h.set ⟨Dict.nodup_set hentry.users _ _, fun e he => ?_, fun e he => ?_⟩ lab
      · rcases Dict.mem_set hentry.users he with rfl | ⟨he, -⟩
        · exact Dict.nodup_set hkeys _ _
        · exact hentry.tiers e he
      · rcases Dict.mem_set hentry.users he with rfl | ⟨he, -⟩
        · exact parseDataset_student hparse
        · exact hentry.named e he

theorem AllTidy.ingestRows {root : String} {tier : PoolTier} {out : Dict String LabUsage}
    (h : AllTidy out) (rows : List ZfsUsage) : AllTidy (ingestRows out rows root tier) := by
  induction rows generalizing out with
  | nil => exact h
  | cons u rows ih => exact ih (h.ingestRow u)

theorem allTidy_collect (cfg : UsageConfig) (r : Readings) : AllTidy (collectZfsUsage cfg r) := by
  have hempty : AllTidy [] := ⟨List.nodup_nil, nofun⟩
  have hfast : AllTidy (ingestRows [] r.fastRows cfg.labsFastRoot .fast) := hempty.ingestRows _
  unfold collectZfsUsage
  dsimp only
  split
  · exact hfast.ingestRows _
  · exact hfast

theorem PoolTier.name_injective : Function.Injective PoolTier.name := by
  intro a b h
  cases a <;> cases b <;> first | rfl | cases h

/-- The rows of a lab's students. -/
theorem nodup_students {u : LabUsage} (h : u.Tidy) (lab : String) :
    ((u.users.flatMap fun (user, tiers) =>
      tiers.map fun (tier, usage) => zfsRow lab (some user) tier usage).map
        StorageRow.key).Nodup := by
  refine Dict.nodup_flatMap h.users (fun k => k.2.1.getD "") ?_ ?_
  · rintro ⟨user, tiers⟩ - row hrow
    obtain ⟨⟨tier, usage⟩, -, rfl⟩ := List.mem_map.mp hrow
    rfl
  · rintro ⟨user, tiers⟩ he
    have htiers := h.tiers _ he
    rw [List.map_map]
    have hkey : StorageRow.key ∘ (fun e : PoolTier × ZfsUsage => zfsRow lab (some user) e.1 e.2) =
        (fun tier => (lab, some user, tier)) ∘ PoolTier.name ∘ Prod.fst := rfl
    rw [hkey, ← List.map_map, ← List.map_map]
    refine (htiers.map PoolTier.name_injective).map ?_
    rintro a b ⟨⟩
    rfl

theorem key_liveContainerStorage {r : Readings} {lab : String} {row : StorageRow}
    (h : liveContainerStorage r lab = some row) : row.key = (lab, none, .rootfs) := by
  unfold liveContainerStorage at h
  split at h
  · cases h
  · obtain ⟨_, -, rfl⟩ := Option.map_eq_some_iff.mp h
    rfl

theorem labLevelFor_tidy (r : Readings) (lab : String) {u : LabUsage} (h : u.Tidy) (now : Nat) :
    (labLevelFor r lab u now).Tidy lab := by
  set students := u.users.flatMap fun e =>
    e.2.map fun t => zfsRow lab (some e.1) t.1 t.2 with hstudents
  have hkey : ∀ row ∈ students, row.lab = lab ∧ ∃ user, row.user = some user ∧ user ≠ "" := by
    intro row hrow
    obtain ⟨⟨user, tiers⟩, he, hrow⟩ := List.mem_flatMap.mp hrow
    obtain ⟨⟨tier, usage⟩, -, rfl⟩ := List.mem_map.mp hrow
    exact ⟨rfl, user, rfl, h.named _ he⟩
  have hnone : ∀ tier, (lab, none, tier) ∉ students.map StorageRow.key := by
    intro tier hmem
    obtain ⟨row, hrow, heq⟩ := List.mem_map.mp hmem
    obtain ⟨-, user, huser, -⟩ := hkey row hrow
    have : row.user = none := congrArg (fun k => k.2.1) heq
    rw [huser] at this
    cases this
  have hnodup : (students.map StorageRow.key).Nodup := nodup_students h lab
  have hstorage : (labLevelFor r lab u now).storage =
      (u.fast.map (zfsRow lab none .fast)).toList ++ (u.slow.map (zfsRow lab none .slow)).toList ++
        students ++ (liveContainerStorage r lab).toList := rfl
  have hrows : ∀ row ∈ (labLevelFor r lab u now).storage,
      row ∈ students ∨ row.lab = lab ∧ row.user = none := by
    intro row hrow
    simp only [hstorage, List.mem_append, Option.mem_toList,
      Option.map_eq_some_iff] at hrow
    rcases hrow with ((⟨_, -, rfl⟩ | ⟨_, -, rfl⟩) | hrow) | hrow
    · exact .inr ⟨rfl, rfl⟩
    · exact .inr ⟨rfl, rfl⟩
    · exact .inl hrow
    · have hk := key_liveContainerStorage hrow
      exact .inr ⟨congrArg Prod.fst hk, congrArg (fun k => k.2.1) hk⟩
  refine ⟨fun row hrow => ?_, ?_, fun row hrow => ?_⟩
  · rcases hrows row hrow with hrow | ⟨hlab, -⟩
    · exact (hkey row hrow).1
    · exact hlab
  · -- the three totals have keys of their own, and no student has one of them
    have hall : (([(lab, none, Tier.fast)] ++ [(lab, none, Tier.cold)]) ++
        students.map StorageRow.key ++ [(lab, none, Tier.rootfs)]).Nodup := by
      simp only [List.nodup_append, List.nodup_singleton, List.mem_singleton, hnodup, true_and,
        List.mem_append]
      refine ⟨⟨by simp, ?_⟩, ?_⟩
      · rintro _ (rfl | rfl) k hk rfl <;> exact hnone _ hk
      · rintro _ ((rfl | rfl) | hk) _ rfl heq
        · cases heq
        · cases heq
        · exact hnone _ (heq ▸ hk)
    refine hall.sublist ?_
    rw [hstorage, List.map_append, List.map_append, List.map_append]
    refine ((List.Sublist.append ?_ ?_).append (.refl _)).append ?_
    · cases u.fast with
      | none => exact List.nil_sublist _
      | some a => exact .refl _
    · cases u.slow with
      | none => exact List.nil_sublist _
      | some a => exact .refl _
    · cases hi : liveContainerStorage r lab with
      | none => exact List.nil_sublist _
      | some row =>
          rw [← key_liveContainerStorage hi]
          exact .refl _
  · rcases hrows row hrow with hrow | ⟨-, huser⟩
    · obtain ⟨-, user, huser, hne⟩ := hkey row hrow
      rw [huser]
      exact fun heq => hne (Option.some.inj heq)
    · rw [huser]
      exact (Option.some_ne_none "").symm

theorem nodup_measure (du : String → Option Int) (users : List String) :
    ((measure du users).map Prod.fst).Nodup := by
  have hfold : ∀ d : Dict String Int, (d.map Prod.fst).Nodup →
      ((users.foldl (fun d user => match du user with
        | some used => d.set user used
        | none => d) d).map Prod.fst).Nodup := by
    induction users with
    | nil => exact fun _ h => h
    | cons user users ih =>
        intro d h
        refine ih _ ?_
        dsimp only
        split
        · rename_i used _
          exact Dict.nodup_set h user used
        · exact h
  exact hfold [] List.nodup_nil

namespace UsageState.Tidy

variable {s : UsageState}

theorem empty : UsageState.Tidy {} := ⟨List.nodup_nil, nofun, List.nodup_nil, nofun, nofun⟩

/-- **Step lemma.** -/
theorem step (h : s.Tidy) (cfg : UsageConfig) (e : UsageEvent) : (s.step cfg e).Tidy := by
  cases e with
  | refresh now r =>
      refine ⟨?_, ?_, h.containers, h.fast, h.slow⟩
      · show ((collectLabLevel cfg r s now).map Prod.fst).Nodup
        unfold collectLabLevel
        dsimp only
        rw [List.map_map]
        show (List.map id _).Nodup
        rw [List.map_id]
        exact (List.mergeSort_perm _ _).nodup_iff.mpr (List.nodup_dedup _)
      · intro e he
        obtain ⟨lab, -, rfl⟩ := List.mem_map.mp he
        exact labLevelFor_tidy r lab ((allTidy_collect cfg r).get lab) now
  | refreshLab lab now r =>
      refine ⟨Dict.nodup_set h.labs _ _, fun e he => ?_, h.containers, h.fast, h.slow⟩
      rcases Dict.mem_set h.labs he with rfl | ⟨he, -⟩
      · exact labLevelFor_tidy r lab ((allTidy_collect cfg r).get lab) now
      · exact h.levels e he
  | scan lab usernames now r =>
      refine ⟨h.labs, h.levels, Dict.nodup_set h.containers _ _, fun e he => ?_, fun e he => ?_⟩
      · rcases Dict.mem_set h.containers he with rfl | ⟨he, -⟩
        · unfold runContainerScan
          split
          · exact List.nodup_nil
          · exact nodup_measure _ _
        · exact h.fast e he
      · rcases Dict.mem_set h.containers he with rfl | ⟨he, -⟩
        · unfold runContainerScan
          split
          · exact List.nodup_nil
          · exact nodup_measure _ _
        · exact h.slow e he

theorem run (h : s.Tidy) (cfg : UsageConfig) (es : List UsageEvent) :
    (Run.run (UsageState.step cfg) s es).Tidy :=
  Run.invariant_all (fun _ e h => h.step cfg e) h

/-! ## What a heartbeat reports -/

theorem nodup_labRows (h : s.Tidy) : (s.labRows.map StorageRow.key).Nodup :=
  Dict.nodup_flatMap h.labs Prod.fst (fun e he r hr => (h.levels e he).labs r hr)
    fun e he => (h.levels e he).keys

theorem named (h : s.Tidy) {r : StorageRow} (hr : r ∈ s.labRows) : r.user ≠ some "" := by
  obtain ⟨e, he, hr⟩ := List.mem_flatMap.mp hr
  exact (h.levels e he).named r hr

end UsageState.Tidy

theorem mem_duRows {lab : String} {tier : Tier} {perUser : Dict String Int} {r : StorageRow} :
    r ∈ duRows lab tier perUser ↔
      ∃ user used, (user, used) ∈ perUser ∧ r = ⟨lab, some user, tier, used, none, none⟩ := by
  constructor
  · intro h
    obtain ⟨⟨user, used⟩, he, rfl⟩ := List.mem_map.mp h
    exact ⟨user, used, he, rfl⟩
  · rintro ⟨user, used, he, rfl⟩
    exact List.mem_map.mpr ⟨_, he, rfl⟩

theorem nodup_duRows {perUser : Dict String Int} (h : (perUser.map Prod.fst).Nodup) (lab : String)
    (tier : Tier) : ((duRows lab tier perUser).map StorageRow.key).Nodup := by
  rw [duRows, List.map_map]
  have hkey : StorageRow.key ∘
      (fun e : String × Int => (⟨lab, some e.1, tier, e.2, none, none⟩ : StorageRow)) =
      (fun user => (lab, some user, tier)) ∘ Prod.fst := rfl
  show (List.map (StorageRow.key ∘
    (fun e : String × Int => (⟨lab, some e.1, tier, e.2, none, none⟩ : StorageRow))) _).Nodup
  rw [hkey, ← List.map_map]
  refine h.map ?_
  rintro a b ⟨⟩
  rfl

theorem nodup_tierStorage {usage : ContainerUsage} (hfast : (usage.perUserFast.map Prod.fst).Nodup)
    (hslow : (usage.perUserSlow.map Prod.fst).Nodup) (lab : String) :
    ((tierStorage lab usage).map StorageRow.key).Nodup := by
  rw [tierStorage, List.map_append]
  refine (nodup_duRows hfast lab .fast).append (nodup_duRows hslow lab .cold) ?_
  intro k hk hk'
  obtain ⟨r, hr, rfl⟩ := List.mem_map.mp hk
  obtain ⟨r', hr', heq⟩ := List.mem_map.mp hk'
  obtain ⟨_, _, -, rfl⟩ := mem_duRows.mp hr
  obtain ⟨_, _, -, rfl⟩ := mem_duRows.mp hr'
  cases heq

theorem mem_tierStorage {lab : String} {usage : ContainerUsage} {r : StorageRow}
    (h : r ∈ tierStorage lab usage) : r.lab = lab ∧ ∃ user, r.user = some user := by
  rcases List.mem_append.mp h with h | h
  · obtain ⟨user, _, -, rfl⟩ := mem_duRows.mp h
    exact ⟨rfl, user, rfl⟩
  · obtain ⟨user, _, -, rfl⟩ := mem_duRows.mp h
    exact ⟨rfl, user, rfl⟩

/-- A row of the heartbeat is a row of the labs, or a size for which the labs have no row. -/
theorem mem_storageUsage {s : UsageState} {r : StorageRow} : r ∈ storageUsage s ↔
    r ∈ s.labRows ∨ (∃ e ∈ s.container, r ∈ tierStorage e.1 e.2) ∧
      ∀ live ∈ s.labRows, live.isStudent = true → live.key ≠ r.key := by
  simp only [storageUsage, List.mem_append, List.mem_flatMap, List.mem_filter, Bool.not_eq_true',
    ← Bool.not_eq_true, List.contains_iff_mem, List.mem_map]
  grind

theorem UsageState.Tidy.isStudent {s : UsageState} (h : s.Tidy) {r : StorageRow}
    (hr : r ∈ s.labRows) (huser : r.user ≠ none) : r.isStudent = true := by
  have hne : r.user ≠ some "" := h.named hr
  cases hu : r.user with
  | none => exact absurd hu huser
  | some user =>
      have huser : user ≠ "" := by
        rintro rfl
        exact hne hu
      simp [StorageRow.isStudent, hu, huser]

theorem UsageState.Tidy.nodup_storageUsage {s : UsageState} (h : s.Tidy) :
    ((storageUsage s).map StorageRow.key).Nodup := by
  have hlabs := h.nodup_labRows
  -- what is left of the sizes are rows of different labs, and a sublist of the sizes of each
  have hsizes : ((s.container.flatMap fun e => (tierStorage e.1 e.2).filter fun r =>
      !((s.labRows.filter StorageRow.isStudent).map StorageRow.key).contains r.key).map
        StorageRow.key).Nodup := by
    refine Dict.nodup_flatMap h.containers Prod.fst (fun e _ r hr => ?_) fun e he => ?_
    · exact (mem_tierStorage (List.mem_filter.mp hr).1).1
    · exact (nodup_tierStorage (h.fast e he) (h.slow e he) e.1).sublist
        (List.filter_sublist.map _)
  have hdisjoint : ∀ live ∈ s.labRows, ∀ e ∈ s.container, ∀ r ∈ (tierStorage e.1 e.2).filter
      (fun r => !((s.labRows.filter StorageRow.isStudent).map StorageRow.key).contains r.key),
      live.key ≠ r.key := by
    intro live hlive e _ r hr heq
    obtain ⟨hr, hfree⟩ := List.mem_filter.mp hr
    obtain ⟨-, user, huser⟩ := mem_tierStorage hr
    have hlu : live.user = r.user := congrArg (fun k => k.2.1) heq
    have hstudent : live.isStudent = true := h.isStudent hlive (by rw [hlu, huser]; nofun)
    have hmem : r.key ∈ (s.labRows.filter StorageRow.isStudent).map StorageRow.key :=
      heq ▸ List.mem_map_of_mem (List.mem_filter.mpr ⟨hlive, hstudent⟩)
    rw [List.contains_iff_mem.mpr hmem] at hfree
    cases hfree
  show (((s.labRows ++ _).map StorageRow.key)).Nodup
  rw [List.map_append]
  refine hlabs.append hsizes ?_
  intro k hk hk'
  obtain ⟨live, hlive, rfl⟩ := List.mem_map.mp hk
  obtain ⟨r, hr, heq⟩ := List.mem_map.mp hk'
  obtain ⟨e, he, hr⟩ := List.mem_flatMap.mp hr
  exact hdisjoint live hlive e he r hr heq.symm

/-- A size is reported, or a dataset of the student in its place. -/
theorem size_reported {s : UsageState} {lab : String} {usage : ContainerUsage} {r : StorageRow}
    (hmem : (lab, usage) ∈ s.container) (hr : r ∈ tierStorage lab usage) :
    r ∈ storageUsage s ∨ ∃ live ∈ s.labRows, live ∈ storageUsage s ∧ live.key = r.key := by
  by_cases h : ∃ live ∈ s.labRows, live.key = r.key
  · obtain ⟨live, hlive, hkey⟩ := h
    exact .inr ⟨live, hlive, mem_storageUsage.mpr (.inl hlive), hkey⟩
  · refine .inl (mem_storageUsage.mpr (.inr ⟨⟨_, hmem, hr⟩, fun live hlive _ hkey => ?_⟩))
    exact h ⟨live, hlive, hkey⟩

/-- **The rows of a heartbeat.** After any refreshes and scans, no two rows of the storage report
are about the same lab, student and tier; every row of the cache of a lab is there; every cached
size is there, or a dataset of the student with its key; and where a dataset has a key, its row is
the one with that key. -/
theorem storage_usage_rows (cfg : UsageConfig) (es : List UsageEvent) :
    let s := Run.run (UsageState.step cfg) {} es
    ((storageUsage s).map StorageRow.key).Nodup ∧
    (∀ lab level, (lab, level) ∈ s.lab → ∀ r ∈ level.storage, r ∈ storageUsage s) ∧
    (∀ lab usage user used, (lab, usage) ∈ s.container →
      ((user, used) ∈ usage.perUserFast →
        ⟨lab, some user, .fast, used, none, none⟩ ∈ storageUsage s ∨
          ∃ live ∈ s.labRows, live ∈ storageUsage s ∧ live.key = (lab, some user, .fast)) ∧
      ((user, used) ∈ usage.perUserSlow →
        ⟨lab, some user, .cold, used, none, none⟩ ∈ storageUsage s ∨
          ∃ live ∈ s.labRows, live ∈ storageUsage s ∧ live.key = (lab, some user, .cold))) ∧
    (∀ live ∈ s.labRows, ∀ row ∈ storageUsage s, row.key = live.key → row = live) := by
  intro s
  have htidy : s.Tidy := UsageState.Tidy.empty.run cfg es
  have hnodup := htidy.nodup_storageUsage
  refine ⟨hnodup, fun lab level hmem r hr => ?_, fun lab usage user used hmem => ⟨?_, ?_⟩,
    fun live hlive row hrow hkey => ?_⟩
  · exact mem_storageUsage.mpr (.inl (List.mem_flatMap.mpr ⟨_, hmem, hr⟩))
  · intro hused
    exact size_reported hmem (List.mem_append_left _ (mem_duRows.mpr ⟨user, used, hused, rfl⟩))
  · intro hused
    exact size_reported hmem (List.mem_append_right _ (mem_duRows.mpr ⟨user, used, hused, rfl⟩))
  · exact List.inj_on_of_nodup_map hnodup hrow (mem_storageUsage.mpr (.inl hlive)) hkey

end MassDeployment.Agent

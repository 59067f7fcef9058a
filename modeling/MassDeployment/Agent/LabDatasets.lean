import Mathlib
import MassDeployment.Agent.Datasets
import MassDeployment.Agent.StudentStorage
import MassDeployment.Lib.Faults
import MassDeployment.Lib.Hierarchy
import MassDeployment.Lib.Run

set_option autoImplicit false

/-! # The datasets of labs (`labops.py`, `coldstore.py`, `executors/zfs.py`, `studentops.py`)

A lab has a dataset on each tier; the slow one is on another node where the cold storage is an SMB
mount. The handlers create the datasets, set their quotas and destroy them, and delete what a
student stored, as a dataset of its own or as a directory in that of the lab. Every command may fail
or die, also the one that looks whether a dataset exists: it says no then. Commands that change
nothing here (the container, the owner of a directory, the usage that is reported) are checks.

The state is the datasets of the node. What is stored is filed by dataset, under the names in the
root directory of each. So the two tiers of a lab are told apart also where they are mounted at one
place (`fast_mount_root` the same as `cold_mount_root`): a node configured like that, where the
directories of one tier are those of the other, is not covered.
-/

namespace MassDeployment.Agent.LabDatasets

open Procedure

structure Dataset where
  quota : Option Int := none
  /-- The property `mountpoint`, where it is set here. -/
  mountpoint : Option String := none
  /-- The directories in its root, by name. -/
  files : List (String × List File) := []
  deriving DecidableEq, Repr

abbrev Pools := Hierarchy String Dataset

/-- The components of the name of a dataset. -/
def components (name : String) : List String := Text.split '/' name

structure LabConfig extends PoolConfig where
  fastMountRoot : String
  coldMountRoot : String
  /-- `slow_path`, the SMB mount. -/
  slowPath : String

/-- `text.rstrip("/")`. -/
def stripSlashes (text : String) : String :=
  String.ofList (text.toList.reverse.dropWhile (· == '/')).reverse

namespace LabConfig

variable (cfg : LabConfig)

def fastMount (lab : String) : Except String String := do
  let lab ← validateLabName lab
  return stripSlashes cfg.fastMountRoot ++ "/" ++ lab

def coldRoot : String := stripSlashes (if cfg.slowIsZfs then cfg.coldMountRoot else cfg.slowPath)

def coldLab (lab : String) : Except String String := do
  let lab ← validateLabName lab
  return cfg.coldRoot ++ "/" ++ lab

end LabConfig

/-! ## Commands -/

/-- How much of its work an unfinished command did: whether it acted at all, how many components
down the parents were made, which datasets were destroyed, and which files of a directory were. -/
structure Extent where
  acted : Bool := false
  levels : Nat := 0
  gone : List String → Bool := fun _ => false
  files : File → Bool := fun _ => false

inductive LabError where
  | valueError (message : String)
  | dockerError | zfsError | coldFsError | osError
  deriving DecidableEq, Repr

/-- The commands of the handlers. -/
inductive LabStep where
  | ready | user | container | coldMount
  | lookup (tier : PoolTier)
  /-- `destroy_dataset` looks again, where its caller has. -/
  | lookAgain (tier : PoolTier)
  | create (tier : PoolTier)
  | quota (tier : PoolTier)
  | mountpoint (tier : PoolTier)
  | own (tier : PoolTier)
  | usage (tier : PoolTier)
  | destroy (tier : PoolTier)
  | removeChild (tier : PoolTier)
  deriving DecidableEq

/-- What becomes of each command of one call. -/
abbrev Fates := LabStep → Fate Extent

/-- Nothing goes wrong. -/
def calm : Fates := fun _ => .done

abbrev Handler := Procedure Pools LabError

/-- A name that the code has checked, or its exception. -/
def named (name : Except String String) : Handler String :=
  match name with
  | .ok name => pure name
  | .error message => raise (.valueError message)

/-- A command that acts at once or not at all. -/
def act (fate : Fate Extent) (able : Pools → Bool) (work : Pools → Pools) : Handler Bool :=
  attempt fate able work fun extent s => if extent.acted then work s else s

def present (name : String) (s : Pools) : Bool := (s.node (components name)).isSome

/-- `zfs list`; where it fails the dataset is taken not to exist. -/
def datasetExists (fate : Fate Extent) (name : String) : Handler Bool :=
  attempt fate (present name) id fun _ => id

/-- `zfs set quota=`. -/
def setQuota (fate : Fate Extent) (name : String) (quota : Option Int) : Handler Unit :=
  checked .zfsError (act fate (present name)
    (Hierarchy.modify (components name) fun d => { d with quota }))

/-- `zfs set mountpoint=`. -/
def setMountpoint (fate : Fate Extent) (name mountpoint : String) : Handler Unit :=
  checked .zfsError (act fate (present name)
    (Hierarchy.modify (components name) fun d => { d with mountpoint := some mountpoint }))

/-- The pool a dataset is in. -/
def poolPresent (name : String) (s : Pools) : Bool := (s.node ((components name).take 1)).isSome

/-- `create_dataset`, with parents: one that exists is left as it is. -/
def createDataset (fate : Fates) (tier : PoolTier) (name : String) (quota : Option Int)
    (mountpoint : String) : Handler Unit := do
  if !(← datasetExists (fate (.lookup tier)) name) then
    checked .zfsError (attempt (fate (.create tier)) (poolPresent name)
      (Hierarchy.fill (components name) {})
      fun extent => Hierarchy.fill ((components name).take extent.levels) {})
  if quota.isSome then setQuota (fate (.quota tier)) name quota
  setMountpoint (fate (.mountpoint tier)) name mountpoint

/-- `destroy_dataset`, recursively. -/
def destroyDataset (lookup destroy : Fate Extent) (name : String) : Handler Unit := do
  if ← datasetExists lookup name then
    checked .zfsError (attempt destroy (present name) (Hierarchy.prune (components name))
      fun extent => Hierarchy.thin (components name) extent.gone)

/-- The directories under the name without what `gone` tells. -/
def Dataset.without (child : String) (gone : File → Bool) (d : Dataset) : Dataset :=
  { d with
    files := d.files.map fun entry =>
      if entry.1 = child then (entry.1, entry.2.filter fun f => !gone f) else entry }

/-- `remove_child`: the directory goes. Where a dataset is mounted on it the files in there go, and
the directory itself is busy. -/
def removeChild (fate : Fate Extent) (root child : String) : Handler Unit := do
  if ← Prog.read (present (root ++ "/" ++ child)) then
    let _ ← attempt fate (fun _ => true)
      (Hierarchy.modify (components (root ++ "/" ++ child)) fun d => { d with files := [] })
      fun extent => Hierarchy.modify (components (root ++ "/" ++ child)) fun d =>
        { d with
          files := d.files.map fun entry => (entry.1, entry.2.filter fun f => !extent.files f) }
    raise .osError
  else
    checked .osError (attempt fate (present root)
      (Hierarchy.modify (components root) fun d =>
        { d with files := d.files.filter fun entry => entry.1 != child })
      fun extent => Hierarchy.modify (components root) (Dataset.without child extent.files))

/-- `get_mountpoint`, `get_usage`: what they read is not used here, but the dataset must exist. -/
def inspect (fate : Fate Extent) (name : String) : Handler Unit :=
  checked .zfsError (attempt fate (present name) id fun _ => id)

/-! ## Handlers -/

section

variable (cfg : LabConfig) (fate : Fates)

/-- `coldstore.create_lab`. On an SMB client the directory of the owner must be there. -/
def createColdLab (lab : String) (quota : Option Int) : Handler Unit := do
  if cfg.slowIsZfs then
    let dataset ← named (cfg.labSlow lab)
    let mountpoint ← named (cfg.coldLab lab)
    createDataset fate .slow dataset quota mountpoint
  else check (fate .coldMount) .coldFsError

/-- `coldstore.lab_mount`, and the owner of the directory. -/
def ownCold (lab : String) : Handler Unit := do
  if cfg.slowIsZfs then
    let dataset ← named (cfg.labSlow lab)
    inspect (fate (.own .slow)) dataset
  else check (fate (.own .slow)) .coldFsError

/-- `coldstore.lab_usage`. -/
def coldUsage (lab : String) : Handler Unit := do
  if cfg.slowIsZfs then
    let dataset ← named (cfg.labSlow lab)
    inspect (fate (.usage .slow)) dataset

/-- `create_lab`. -/
def createLab (lab : String) (fastQuota slowQuota : Option Int) : Handler Unit := do
  check (fate .ready) .dockerError
  let fast ← named (cfg.labFast lab)
  let mountpoint ← named (cfg.fastMount lab)
  createDataset fate .fast fast fastQuota mountpoint
  createColdLab cfg fate lab slowQuota
  inspect (fate (.own .fast)) fast
  ownCold cfg fate lab
  check (fate .container) .dockerError
  inspect (fate (.usage .fast)) fast
  coldUsage cfg fate lab

/-- `coldstore.set_lab_quota`: on an SMB client the quota is the owner's. -/
def setColdQuota (lab : String) (quota : Option Int) : Handler Unit := do
  if cfg.slowIsZfs then
    let dataset ← named (cfg.labSlow lab)
    setQuota (fate (.quota .slow)) dataset quota

/-- `set_lab_quota`; a quota that is not among the parameters is not set. -/
def setLabQuota (lab : String) (fastQuota slowQuota : Option (Option Int)) : Handler Unit := do
  if let some quota := fastQuota then
    let dataset ← named (cfg.labFast lab)
    setQuota (fate (.quota .fast)) dataset quota
  if let some quota := slowQuota then setColdQuota cfg fate lab quota
  let fast ← named (cfg.labFast lab)
  inspect (fate (.usage .fast)) fast
  coldUsage cfg fate lab

/-- `destroy_lab`; an SMB client leaves the cold storage alone. -/
def destroyLab (lab : String) : Handler Unit := do
  check (fate .container) .dockerError
  let fast ← named (cfg.labFast lab)
  destroyDataset (fate (.lookup .fast)) (fate (.destroy .fast)) fast
  if cfg.slowIsZfs then
    let slow ← named (cfg.labSlow lab)
    destroyDataset (fate (.lookup .slow)) (fate (.destroy .slow)) slow

/-- The dataset of a student, or else their directory in the one of the lab. -/
def deleteStudent (tier : PoolTier) (lab username : String) : Handler Unit := do
  let dataset ← named (cfg.userDataset tier lab username)
  if ← datasetExists (fate (.lookup tier)) dataset then
    destroyDataset (fate (.lookAgain tier)) (fate (.destroy tier)) dataset
  else
    let root ← named (cfg.labDataset tier lab)
    inspect (fate (.own tier)) root
    removeChild (fate (.removeChild tier)) root username

/-- `remove_student`: the account first. -/
def removeStudent (lab username : String) (deleteData : Bool) : Handler Unit := do
  if !matchesUsername username then raise .dockerError
  check (fate .user) .dockerError
  if deleteData then deleteStudent cfg fate .fast lab username

/-- `delete_cold_student`: for the owner of the cold storage only. -/
def deleteColdStudent (lab username : String) : Handler Unit := do
  if !cfg.slowIsZfs then raise .coldFsError
  if !matchesUsername username then raise .dockerError
  deleteStudent cfg fate .slow lab username

end

/-! ## Names -/

theorem components_ne_nil (name : String) : components name ≠ [] := Text.split_ne_nil _ _

theorem take_pool (name : String) : (components name).take 1 <+: components name :=
  List.take_prefix _ _

/-- A dataset that exists is in a pool that exists. -/
theorem poolPresent_of_present {name : String} {s : Pools} (h : present name s = true) :
    poolPresent name s = true := by
  refine s.isSome_of_prefix ?_ (take_pool name) h
  have hne := components_ne_nil name
  simp [hne]

/-! ## What a dataset is made to be -/

def Dataset.make (quota : Option Int) (mountpoint : String) (d : Dataset) : Dataset :=
  { d with quota := if quota.isSome then quota else d.quota, mountpoint := some mountpoint }

/-- The dataset is there, with its quota and its mountpoint, and so are its parents. -/
def made (name : String) (quota : Option Int) (mountpoint : String) (s : Pools) : Pools :=
  (s.fill (components name) {}).modify (components name) (Dataset.make quota mountpoint)

/-- The datasets after one of them was made, name by name. -/
theorem node_made {name : String} {quota : Option Int} {mountpoint : String} {s : Pools}
    {m : List String} : (made name quota mountpoint s).node m =
      if m = components name then some (((s.node m).getD {}).make quota mountpoint)
      else if m <+: components name ∧ m ≠ [] then some ((s.node m).getD {})
      else s.node m := by
  rw [made, Hierarchy.node_modify, Hierarchy.node_fill]
  by_cases hm : m = components name
  · rw [if_pos hm, if_pos hm, if_pos ⟨hm ▸ List.prefix_refl m, hm ▸ components_ne_nil name⟩]
    rfl
  · rw [if_neg hm, if_neg hm]

section

variable {tier : PoolTier} {name other mountpoint : String} {quota : Option Int} {s : Pools}

theorem present_made : present name (made name quota mountpoint s) = true := by
  rw [present, node_made, if_pos rfl]
  rfl

/-- A dataset that exists is still there when another was made. -/
theorem present_made_of_present (h : present other s = true) :
    present other (made name quota mountpoint s) = true := by
  rw [present, node_made]
  split
  · rfl
  · split
    · rfl
    · exact h

theorem take_one_of_prefix {m n : List String} (h : m.take 1 <+: n) (hm : m ≠ []) :
    m.take 1 = n.take 1 := by
  cases m with
  | nil => exact absurd rfl hm
  | cons a m =>
      obtain ⟨rest, rfl⟩ := h
      simp

@[simp] theorem present_modify {f : Dataset → Dataset} {n : List String} :
    present name (s.modify n f) = present name s := Hierarchy.isSome_modify

@[simp] theorem poolPresent_modify {f : Dataset → Dataset} {n : List String} :
    poolPresent name (s.modify n f) = poolPresent name s := Hierarchy.isSome_modify

/-- The parents of a dataset whose pool exists bring no new pool. -/
theorem poolPresent_fill {n : List String} (hn : n <+: components name)
    (hpool : poolPresent name s = true) :
    poolPresent other (s.fill n {}) = poolPresent other s := by
  rw [poolPresent, poolPresent, Hierarchy.node_fill]
  by_cases hpre : (components other).take 1 <+: n ∧ (components other).take 1 ≠ []
  · have hsame := take_one_of_prefix (hpre.1.trans hn) (components_ne_nil other)
    have hold : (s.node ((components other).take 1)).isSome = true := hsame ▸ hpool
    rw [if_pos hpre, hold]
    rfl
  · rw [if_neg hpre]

theorem poolPresent_made (hpool : poolPresent name s = true) :
    poolPresent other (made name quota mountpoint s) = poolPresent other s := by
  rw [made, poolPresent_modify]
  exact poolPresent_fill (List.prefix_refl _) hpool

/-- What a call comes to, read off its weakest precondition. -/
theorem run_of_wp {α : Type} {x : Handler α} {r : Except (Fault LabError) α × Pools}
    (h : Prog.wp x (fun a s' => (Except.ok a, s') = r) (fun e s' => (Except.error e, s') = r) s) :
    x.run s = r := by
  unfold Prog.wp at h
  rcases hx : x.run s with ⟨e | a, s'⟩
  · rw [hx] at h
    exact h
  · rw [hx] at h
    exact h

/-- The properties of a dataset that is there. -/
theorem run_properties (h : present name s = true) :
    (do
      if quota.isSome then setQuota .done name quota
      setMountpoint .done name mountpoint).run s =
        (.ok (), s.modify (components name) (Dataset.make quota mountpoint)) := by
  refine run_of_wp ?_
  unfold setQuota setMountpoint act
  cases quota with
  | none =>
      simp only [Option.isSome_none, Bool.false_eq_true, if_false, wp_checked, wp_attempt_done, h,
        if_true]
      rfl
  | some q =>
      simp only [Option.isSome_some, if_true, Prog.wp_bind, wp_checked, wp_attempt_done, h,
        present_modify, Hierarchy.modify_modify]
      rfl

theorem createDataset_calm : (createDataset calm tier name quota mountpoint).run s =
    if poolPresent name s then (.ok (), made name quota mountpoint s)
    else (.error (.raised .zfsError), s) := by
  have hexists : (datasetExists (calm (.lookup tier)) name).run s = (.ok (present name s), s) := by
    refine run_of_wp ?_
    unfold datasetExists calm
    rw [wp_attempt_done]
    cases present name s <;> rfl
  unfold createDataset
  rw [Prog.run_bind_ok hexists]
  by_cases hpresent : present name s = true
  · have hfill : s.fill (components name) {} = s := Hierarchy.fill_of_isSome hpresent
    rw [hpresent, if_pos (poolPresent_of_present hpresent), made, hfill]
    exact run_properties hpresent
  · rw [Bool.not_eq_true] at hpresent
    rw [hpresent]
    by_cases hpool : poolPresent name s = true
    · have hcreate : (checked .zfsError (attempt (calm (.create tier)) (poolPresent name)
          (Hierarchy.fill (components name) {}) fun extent =>
            Hierarchy.fill ((components name).take extent.levels) {}) : Handler Unit).run s =
          (.ok (), s.fill (components name) {}) := by
        refine run_of_wp ?_
        simp only [calm, wp_checked, wp_attempt_done, hpool, if_true]
      have hfilled : present name (s.fill (components name) {}) = true := by
        rw [present, Hierarchy.node_fill,
          if_pos ⟨List.prefix_refl _, components_ne_nil name⟩]
        rfl
      rw [if_pos hpool]
      refine (Prog.run_bind_ok hcreate _).trans ?_
      exact run_properties hfilled
    · rw [Bool.not_eq_true] at hpool
      refine run_of_wp ?_
      simp only [calm, Prog.wp_bind, Bool.not_false, if_true, wp_checked, wp_attempt_done, hpool,
        Bool.false_eq_true, if_false]

/-! ## What making a dataset makes up for -/

/-- A command of the making that was carried out already, in whole or in part. -/
inductive Making (name : String) (quota : Option Int) (mountpoint : String) : Pools → Pools → Prop
  | fill (s : Pools) (levels : Nat) :
      Making name quota mountpoint s (s.fill ((components name).take levels) {})
  | quota (s : Pools) (h : quota.isSome) :
      Making name quota mountpoint s (s.modify (components name) fun d => { d with quota })
  | mountpoint (s : Pools) : Making name quota mountpoint s
      (s.modify (components name) fun d => { d with mountpoint := some mountpoint })

/-- After a part of the making of a dataset, name by name: what is there is as before or has one
property more, and a parent may be there before its time. -/
theorem Making.node {s s' : Pools} (h : Making name quota mountpoint s s') (m : List String) :
    s'.node m = s.node m ∨
      (m <+: components name ∧ m ≠ [] ∧ s'.node m = some ((s.node m).getD {})) ∨
      m = components name ∧ ∃ d d', s.node m = some d ∧ s'.node m = some d' ∧
        (d' = { d with quota } ∧ quota.isSome ∨ d' = { d with mountpoint := some mountpoint }) := by
  have keep {f : Dataset → Dataset} (hf : ∀ d, f d = { d with quota } ∧ quota.isSome ∨
      f d = { d with mountpoint := some mountpoint }) :
      (s.modify (components name) f).node m = s.node m ∨
        (m <+: components name ∧ m ≠ [] ∧
          (s.modify (components name) f).node m = some ((s.node m).getD {})) ∨
        m = components name ∧ ∃ d d', s.node m = some d ∧
          (s.modify (components name) f).node m = some d' ∧
          (d' = { d with quota } ∧ quota.isSome ∨
            d' = { d with mountpoint := some mountpoint }) := by
    by_cases hm : m = components name
    · cases hd : s.node m with
      | none => exact .inl (by rw [Hierarchy.node_modify, if_pos hm, hd]; rfl)
      | some d =>
          refine .inr (.inr ⟨hm, d, f d, rfl, ?_, hf d⟩)
          rw [Hierarchy.node_modify, if_pos hm, hd]
          rfl
    · exact .inl (Hierarchy.node_modify_of_ne hm)
  cases h with
  | fill levels =>
      rw [Hierarchy.node_fill]
      split
      · rename_i hm
        exact .inr (.inl ⟨hm.1.trans (List.take_prefix _ _), hm.2, rfl⟩)
      · exact .inl rfl
  | quota hq => exact keep fun d => .inl ⟨rfl, hq⟩
  | mountpoint => exact keep fun d => .inr rfl

theorem Making.poolPresent {s s' : Pools} (h : Making name quota mountpoint s s')
    (hpool : poolPresent name s = true) :
    LabDatasets.poolPresent other s' = LabDatasets.poolPresent other s := by
  cases h with
  | fill levels => exact poolPresent_fill (List.take_prefix _ _) hpool
  | quota hq => exact poolPresent_modify
  | mountpoint => exact poolPresent_modify

/-- Making a dataset makes up for every part of its making that was done before. -/
theorem Making.absorbed {s s' : Pools} (h : Making name quota mountpoint s s') :
    made name quota mountpoint s' = made name quota mountpoint s := by
  refine Hierarchy.ext_node fun m => ?_
  rw [node_made, node_made]
  rcases h.node m with heq | ⟨hpre, hne, heq⟩ | ⟨hm, d, d', hd, hd', hcase⟩
  · rw [heq]
  · have habove : m <+: components name ∧ m ≠ [] := ⟨hpre, hne⟩
    simp only [heq, if_pos habove, Option.getD_some]
  · rw [if_pos hm, if_pos hm, hd, hd']
    rcases hcase with ⟨rfl, hq⟩ | rfl
    · simp [Dataset.make, hq]
    · simp [Dataset.make]

/-- Making a dataset makes up for an earlier part of its making also with another one made in
between. -/
theorem Making.absorbed_after {s s' : Pools} (h : Making name quota mountpoint s s')
    (quota' : Option Int) (mountpoint' : String) :
    made name quota mountpoint (made other quota' mountpoint' s') =
      made name quota mountpoint (made other quota' mountpoint' s) := by
  refine Hierarchy.ext_node fun m => ?_
  rw [node_made, node_made (s := made other quota' mountpoint' s), node_made, node_made (s := s)]
  rcases h.node m with heq | ⟨hpre, hne, heq⟩ | ⟨hm, d, d', hd, hd', hcase⟩
  · rw [heq]
  · have habove : m <+: components name ∧ m ≠ [] := ⟨hpre, hne⟩
    simp only [heq, if_pos habove, Option.getD_some]
    by_cases hother : m = components other
    · simp only [if_pos hother]
    · by_cases hpre' : m <+: components other ∧ m ≠ []
      · simp only [if_neg hother, if_pos hpre']
      · simp only [if_neg hother, if_neg hpre', Option.getD_some]
  · rw [if_pos hm, if_pos hm, hd, hd']
    rcases hcase with ⟨rfl, hq⟩ | rfl
    · split
      · simp [Dataset.make, hq]
      · split <;> simp [Dataset.make, hq]
    · split
      · simp [Dataset.make]
      · split <;> simp [Dataset.make]

variable {fate : Fates} {Q : Pools → Pools → Prop} [IsPreorder Pools Q]

theorem respects_act {fate : Fate Extent} {able : Pools → Bool} {work : Pools → Pools}
    (hwork : ∀ s, able s → Q s (work s)) : Prog.Respects Q (act fate able work) := by
  refine respects_attempt hwork fun extent s h => ?_
  split
  · exact hwork s h
  · exact refl_of Q s

/-- A command that changes nothing. -/
theorem respects_look {fate : Fate Extent} {able : Pools → Bool} :
    Prog.Respects Q (attempt fate able id fun _ => id : Handler Bool) :=
  respects_attempt (fun s _ => refl_of Q s) fun _ s _ => refl_of Q s

theorem respects_inspect {fate : Fate Extent} : Prog.Respects Q (inspect fate name) :=
  respects_checked respects_look

/-- What making a dataset respects. -/
theorem respects_createDataset
    (h : ∀ s s', poolPresent name s = true → Making name quota mountpoint s s' → Q s s') :
    Prog.Respects Q (createDataset fate tier name quota mountpoint) := by
  have hcreate : Prog.Respects Q (checked .zfsError (attempt (fate (.create tier))
      (poolPresent name) (Hierarchy.fill (components name) {}) fun extent =>
        Hierarchy.fill ((components name).take extent.levels) {}) : Handler Unit) := by
    refine respects_checked (respects_attempt (fun s hs => ?_) fun extent s hs => ?_)
    · have hmaking : Making name quota mountpoint s
          (s.fill ((components name).take (components name).length) {}) := .fill s _
      rw [List.take_length] at hmaking
      exact h s _ hs hmaking
    · exact h s _ hs (.fill s extent.levels)
  have hmount : Prog.Respects Q (setMountpoint (fate (.mountpoint tier)) name mountpoint) :=
    respects_checked (respects_act fun s hs =>
      h s _ (poolPresent_of_present hs) (.mountpoint s))
  have hproperties : Prog.Respects Q (do
      if quota.isSome then setQuota (fate (.quota tier)) name quota
      setMountpoint (fate (.mountpoint tier)) name mountpoint) :=
    .ite (fun hq => .bind (respects_checked (respects_act fun s hs =>
      h s _ (poolPresent_of_present hs) (.quota s hq))) fun _ => hmount) fun _ => hmount
  exact .bind respects_look fun _ =>
    .ite (fun _ => .bind hcreate fun _ => hproperties) fun _ => hproperties

/-- Without its pool no dataset is made. -/
theorem wp_createDataset_of_no_pool (hpool : poolPresent name s = false) :
    Prog.wp (createDataset fate tier name quota mountpoint) (fun _ _ => False)
      (fun _ s' => s' = s) s := by
  have hpresent : present name s = false := by
    rw [Bool.eq_false_iff]
    intro h
    rw [poolPresent_of_present h] at hpool
    cases hpool
  unfold createDataset datasetExists
  cases fate (.lookup tier) with
  | dies part => simp [hpresent]
  | done | fails part =>
      cases fate (.create tier) <;> simp [hpresent, hpool]

end

/-! ## Creating a lab -/

namespace LabConfig

variable (cfg : LabConfig) (lab : String)

/-- The dataset of a lab whose name is valid. -/
def dataset (tier : PoolTier) : String := cfg.labsRoot tier ++ "/" ++ lab

/-- The mountpoint of the dataset of a lab. -/
def mount : PoolTier → String
  | .fast => stripSlashes cfg.fastMountRoot ++ "/" ++ lab
  | .slow => cfg.coldRoot ++ "/" ++ lab

/-- What `create_lab` comes to. -/
def created (fastQuota slowQuota : Option Int) (s : Pools) :
    Except (Fault LabError) Unit × Pools :=
  if poolPresent (cfg.dataset lab .fast) s then
    let s₁ := made (cfg.dataset lab .fast) fastQuota (cfg.mount lab .fast) s
    if cfg.slowIsZfs then
      if poolPresent (cfg.dataset lab .slow) s then
        (.ok (), made (cfg.dataset lab .slow) slowQuota (cfg.mount lab .slow) s₁)
      else (.error (.raised .zfsError), s₁)
    else (.ok (), s₁)
  else (.error (.raised .zfsError), s)

end LabConfig

section

variable {cfg : LabConfig} {lab : String} (hlab : validateLabName lab = .ok lab)
variable {tier : PoolTier} {fastQuota slowQuota : Option Int} {s : Pools} {fate : Fates}

include hlab

theorem named_dataset : named (cfg.labDataset tier lab) = pure (cfg.dataset lab tier) := by
  rw [PoolConfig.labDataset_ok _ hlab]
  rfl

theorem named_fastMount : named (cfg.fastMount lab) = pure (cfg.mount lab .fast) := by
  rw [LabConfig.fastMount, hlab]
  rfl

theorem named_coldLab : named (cfg.coldLab lab) = pure (cfg.mount lab .slow) := by
  rw [LabConfig.coldLab, hlab]
  rfl

omit hlab in
theorem wp_inspect_done {name : String} {Q : Unit → Pools → Prop}
    {E : Fault LabError → Pools → Prop} : Prog.wp (inspect .done name) Q E s ↔
      if present name s then Q () s else E (.raised .zfsError) s := by
  rw [inspect, wp_checked, wp_attempt_done]
  split <;> simp

theorem createColdLab_calm : (createColdLab cfg calm lab slowQuota).run s =
    if cfg.slowIsZfs then
      if poolPresent (cfg.dataset lab .slow) s then
        (.ok (), made (cfg.dataset lab .slow) slowQuota (cfg.mount lab .slow) s)
      else (.error (.raised .zfsError), s)
    else (.ok (), s) := by
  unfold createColdLab PoolConfig.labSlow
  by_cases hzfs : cfg.slowIsZfs = true
  · rw [if_pos hzfs, if_pos hzfs, named_dataset hlab, named_coldLab hlab]
    exact createDataset_calm
  · rw [if_neg hzfs, if_neg hzfs]
    rfl

/-- What `create_lab` reads of the datasets in the end. -/
theorem run_reads_calm (hfast : present (cfg.dataset lab .fast) s = true)
    (hslow : cfg.slowIsZfs = true → present (cfg.dataset lab .slow) s = true) :
    (do
      inspect (calm (.own .fast)) (cfg.dataset lab .fast)
      ownCold cfg calm lab
      check (calm .container) .dockerError
      inspect (calm (.usage .fast)) (cfg.dataset lab .fast)
      coldUsage cfg calm lab).run s = (.ok (), s) := by
  refine run_of_wp ?_
  unfold ownCold coldUsage PoolConfig.labSlow
  rw [named_dataset hlab]
  by_cases hzfs : cfg.slowIsZfs = true
  · simp [calm, hzfs, wp_inspect_done, hfast, hslow hzfs]
  · simp [calm, hzfs, wp_inspect_done, hfast]

/-- `create_lab` where nothing goes wrong. -/
theorem createLab_calm :
    (createLab cfg calm lab fastQuota slowQuota).run s = cfg.created lab fastQuota slowQuota s := by
  have hready : (check (calm .ready) .dockerError : Handler Unit).run s = (.ok (), s) := rfl
  unfold createLab PoolConfig.labFast
  rw [Prog.run_bind_ok hready, named_dataset hlab, named_fastMount hlab, LabConfig.created]
  simp only [pure_bind]
  by_cases hfast : poolPresent (cfg.dataset lab .fast) s = true
  · let s₁ := made (cfg.dataset lab .fast) fastQuota (cfg.mount lab .fast) s
    have hmade : (createDataset calm .fast (cfg.dataset lab .fast) fastQuota
        (cfg.mount lab .fast)).run s = (.ok (), s₁) := createDataset_calm.trans (if_pos hfast)
    have hpool : poolPresent (cfg.dataset lab .slow) s₁ = poolPresent (cfg.dataset lab .slow) s :=
      poolPresent_made hfast
    have hcold : (createColdLab cfg calm lab slowQuota).run s₁ = _ := createColdLab_calm hlab
    rw [hpool] at hcold
    rw [if_pos hfast, Prog.run_bind_ok hmade]
    by_cases hzfs : cfg.slowIsZfs = true
    · rw [if_pos hzfs] at hcold ⊢
      by_cases hslow : poolPresent (cfg.dataset lab .slow) s = true
      · rw [if_pos hslow] at hcold ⊢
        rw [Prog.run_bind_ok hcold]
        exact run_reads_calm hlab (present_made_of_present present_made) fun _ => present_made
      · rw [if_neg hslow] at hcold ⊢
        exact Prog.run_bind_error hcold _
    · rw [if_neg hzfs] at hcold ⊢
      rw [Prog.run_bind_ok hcold]
      exact run_reads_calm hlab present_made fun h => absurd h hzfs
  · rw [if_neg hfast]
    exact Prog.run_bind_error (createDataset_calm.trans (if_neg hfast)) _

section

variable {Q : Pools → Pools → Prop} [IsPreorder Pools Q]

/-- What creating a lab respects: the two datasets are made, or part of them. -/
theorem respects_createLab
    (hfast : ∀ s s', poolPresent (cfg.dataset lab .fast) s = true →
      Making (cfg.dataset lab .fast) fastQuota (cfg.mount lab .fast) s s' → Q s s')
    (hslow : cfg.slowIsZfs = true → ∀ s s', poolPresent (cfg.dataset lab .slow) s = true →
      Making (cfg.dataset lab .slow) slowQuota (cfg.mount lab .slow) s s' → Q s s') :
    Prog.Respects Q (createLab cfg fate lab fastQuota slowQuota) := by
  unfold createLab createColdLab ownCold coldUsage PoolConfig.labFast PoolConfig.labSlow
  rw [named_dataset hlab, named_dataset hlab, named_fastMount hlab, named_coldLab hlab]
  simp only [pure_bind]
  refine .bind respects_check fun _ => .bind (respects_createDataset hfast) fun _ => ?_
  refine .bind (.ite (fun hzfs => respects_createDataset (hslow hzfs)) fun _ => respects_check)
    fun _ => .bind respects_inspect fun _ => ?_
  refine .bind (.ite (fun _ => respects_inspect) fun _ => respects_check) fun _ =>
    .bind respects_check fun _ => .bind respects_inspect fun _ => ?_
  exact .ite (fun _ => respects_inspect) fun _ => .pure _

end

/-- Without the fast pool nothing is created. -/
theorem createLab_after_of_no_pool (hpool : poolPresent (cfg.dataset lab .fast) s = false) :
    (createLab cfg fate lab fastQuota slowQuota).after s = s := by
  have h : Prog.wp (createLab cfg fate lab fastQuota slowQuota) (fun _ s' => s' = s)
      (fun _ s' => s' = s) s := by
    unfold createLab PoolConfig.labFast
    rw [named_dataset hlab, named_fastMount hlab]
    simp only [pure_bind, Prog.wp_bind, wp_check]
    cases fate .ready with
    | fails part => trivial
    | dies part => trivial
    | done =>
        have hfast : Prog.wp (createDataset fate .fast (cfg.dataset lab .fast) fastQuota
            (cfg.mount lab .fast)) (fun _ _ => False) (fun _ s' => s' = s) s :=
          wp_createDataset_of_no_pool hpool
        exact Prog.wp_mono hfast (fun _ _ hno => hno.elim) fun _ _ hsame => hsame
  exact Prog.wp_after.mp h

/-- Creating a lab makes up for every attempt at it. -/
theorem absorbed_createLab : Prog.Respects
    (Absorbed (createLab cfg calm lab fastQuota slowQuota))
    (createLab cfg fate lab fastQuota slowQuota) := by
  let C := fun s => poolPresent (cfg.dataset lab .fast) s = true
  refine respects_absorbed (C := C) (respects_createLab hlab ?_ ?_) fun s hC => ?_
  · intro s s' hpool h hC
    refine ⟨(h.poolPresent hpool).trans hC, ?_⟩
    rw [createLab_calm hlab, createLab_calm hlab, LabConfig.created, LabConfig.created, if_pos hC,
      if_pos ((h.poolPresent hpool).trans hC), h.poolPresent hpool, h.absorbed]
  · intro hzfs s s' hpool h hC
    refine ⟨(h.poolPresent hpool).trans hC, ?_⟩
    have hC' : poolPresent (cfg.dataset lab .fast) s' = true := (h.poolPresent hpool).trans hC
    have hpool' : poolPresent (cfg.dataset lab .slow) s' = true := (h.poolPresent hpool).trans hpool
    rw [createLab_calm hlab, createLab_calm hlab, LabConfig.created, LabConfig.created, if_pos hC,
      if_pos hC', if_pos hzfs, if_pos hzfs, if_pos hpool, if_pos hpool', h.absorbed_after]
  · exact createLab_after_of_no_pool hlab (Bool.eq_false_iff.mpr hC)

end

/-! ## Quotas -/

/-- A quota that is among the parameters is set. -/
def assign (name : String) : Option (Option Int) → Pools → Pools
  | none => id
  | some quota => Hierarchy.modify (components name) fun d => { d with quota }

section

variable {name other : String} {given given' : Option (Option Int)} {s : Pools}

@[simp] theorem present_assign : present other (assign name given s) = present other s := by
  cases given with
  | none => rfl
  | some quota => exact present_modify

/-- The last quota is the one that counts, also with that of another dataset set in between. -/
theorem assign_absorbed :
    assign name given (assign other given' (assign name given s)) =
      assign name given (assign other given' s) := by
  refine Hierarchy.ext_node fun m => ?_
  cases given with
  | none => rfl
  | some quota =>
      cases given' with
      | none =>
          simp only [assign, id_eq, Hierarchy.node_modify]
          split <;> simp [Function.comp_def]
      | some quota' =>
          simp only [assign, Hierarchy.node_modify]
          split
          · split <;> simp [Function.comp_def]
          · rfl

theorem assign_idem : assign name given (assign name given s) = assign name given s := by
  have h : assign name given (assign name none (assign name given s)) =
      assign name given (assign name none s) := assign_absorbed
  exact h

theorem wp_setQuota_done {quota : Option Int} {Q : Unit → Pools → Prop}
    {E : Fault LabError → Pools → Prop} : Prog.wp (setQuota .done name quota) Q E s ↔
      if present name s then Q () (assign name (some quota) s) else E (.raised .zfsError) s := by
  rw [setQuota, wp_checked, act, wp_attempt_done]
  split <;> simp [assign]

end

/-- What `set_lab_quota` comes to: a dataset that is not there stops it where its quota is given,
and where its usage is read. -/
def LabConfig.quotasSet (cfg : LabConfig) (lab : String) (fastQuota slowQuota : Option (Option Int))
    (s : Pools) : Except (Fault LabError) Unit × Pools :=
  let fast := cfg.dataset lab .fast
  let slow := cfg.dataset lab .slow
  let s₁ := assign fast fastQuota s
  if fastQuota.isSome ∧ !present fast s then (.error (.raised .zfsError), s)
  else if cfg.slowIsZfs ∧ slowQuota.isSome ∧ !present slow s then (.error (.raised .zfsError), s₁)
  else
    let s₂ := if cfg.slowIsZfs then assign slow slowQuota s₁ else s₁
    if present fast s ∧ (cfg.slowIsZfs → present slow s) then (.ok (), s₂)
    else (.error (.raised .zfsError), s₂)

section

variable {cfg : LabConfig} {lab : String} (hlab : validateLabName lab = .ok lab)
variable {fastQuota slowQuota : Option (Option Int)} {s : Pools} {fate : Fates}

include hlab

/-- What is done after the quota on the fast tier. -/
theorem run_coldQuota_calm : (do
      if let some quota := slowQuota then setColdQuota cfg calm lab quota
      inspect (calm (.usage .fast)) (cfg.dataset lab .fast)
      coldUsage cfg calm lab).run s =
    if cfg.slowIsZfs ∧ slowQuota.isSome ∧ !present (cfg.dataset lab .slow) s then
      (.error (.raised .zfsError), s)
    else
      let s₂ := if cfg.slowIsZfs then assign (cfg.dataset lab .slow) slowQuota s else s
      if present (cfg.dataset lab .fast) s ∧
          (cfg.slowIsZfs → present (cfg.dataset lab .slow) s) then
        (.ok (), s₂)
      else (.error (.raised .zfsError), s₂) := by
  refine run_of_wp ?_
  unfold setColdQuota coldUsage PoolConfig.labSlow
  rw [named_dataset hlab]
  by_cases hfast : present (cfg.dataset lab .fast) s = true
  all_goals by_cases hzfs : cfg.slowIsZfs = true
  all_goals by_cases hslow : present (cfg.dataset lab .slow) s = true
  all_goals cases slowQuota
  all_goals simp [calm, wp_inspect_done, wp_setQuota_done, assign, hfast, hzfs, hslow]

theorem setLabQuota_calm : (setLabQuota cfg calm lab fastQuota slowQuota).run s =
    cfg.quotasSet lab fastQuota slowQuota s := by
  unfold setLabQuota PoolConfig.labFast LabConfig.quotasSet
  rw [named_dataset hlab]
  cases fastQuota with
  | none => exact run_coldQuota_calm hlab
  | some quota =>
      by_cases hfast : present (cfg.dataset lab .fast) s = true
      · have hset : (setQuota (calm (.quota .fast)) (cfg.dataset lab .fast) quota).run s =
            (.ok (), assign (cfg.dataset lab .fast) (some quota) s) :=
          run_of_wp (wp_setQuota_done.mpr (by rw [if_pos hfast]))
        refine (Prog.run_bind_ok hset _).trans ((run_coldQuota_calm hlab).trans ?_)
        simp [hfast]
      · have hset : (setQuota (calm (.quota .fast)) (cfg.dataset lab .fast) quota).run s =
            (.error (.raised .zfsError), s) :=
          run_of_wp (wp_setQuota_done.mpr (by rw [if_neg hfast]))
        refine (Prog.run_bind_error hset _).trans ?_
        simp [hfast]

omit hlab in
theorem respects_setQuota {Q : Pools → Pools → Prop} [IsPreorder Pools Q] {fate : Fate Extent}
    {name : String} {quota : Option Int}
    (h : ∀ s, present name s = true → Q s (assign name (some quota) s)) :
    Prog.Respects Q (setQuota fate name quota) :=
  respects_checked (respects_act h)

/-- What setting the quotas respects. -/
theorem respects_setLabQuota {Q : Pools → Pools → Prop} [IsPreorder Pools Q]
    (hfast : fastQuota.isSome → ∀ s, present (cfg.dataset lab .fast) s = true →
      Q s (assign (cfg.dataset lab .fast) fastQuota s))
    (hslow : cfg.slowIsZfs = true → ∀ s, present (cfg.dataset lab .slow) s = true →
      Q s (assign (cfg.dataset lab .slow) slowQuota s)) :
    Prog.Respects Q (setLabQuota cfg fate lab fastQuota slowQuota) := by
  have hreads : Prog.Respects Q (do
      inspect (fate (.usage .fast)) (cfg.dataset lab .fast)
      coldUsage cfg fate lab) := by
    unfold coldUsage PoolConfig.labSlow
    rw [named_dataset hlab]
    exact .bind respects_inspect fun _ => .ite (fun _ => respects_inspect) fun _ => .pure _
  have hrest : Prog.Respects Q (do
      if let some quota := slowQuota then setColdQuota cfg fate lab quota
      inspect (fate (.usage .fast)) (cfg.dataset lab .fast)
      coldUsage cfg fate lab) := by
    cases slowQuota with
    | none => exact hreads
    | some quota =>
        refine .bind ?_ fun _ => hreads
        unfold setColdQuota PoolConfig.labSlow
        rw [named_dataset hlab]
        exact .ite (fun hzfs => respects_setQuota (hslow hzfs)) fun _ => .pure _
  unfold setLabQuota PoolConfig.labFast
  rw [named_dataset hlab]
  simp only [pure_bind]
  cases fastQuota with
  | none => exact hrest
  | some quota => exact .bind (respects_setQuota (hfast rfl)) fun _ => hrest

/-- Where the quota on the fast tier is given and its dataset is not there, nothing is set. -/
theorem setLabQuota_after_of_absent (hgiven : fastQuota.isSome)
    (habsent : present (cfg.dataset lab .fast) s = false) :
    (setLabQuota cfg fate lab fastQuota slowQuota).after s = s := by
  obtain ⟨quota, rfl⟩ := Option.isSome_iff_exists.mp hgiven
  have h : Prog.wp (setLabQuota cfg fate lab (some quota) slowQuota) (fun _ s' => s' = s)
      (fun _ s' => s' = s) s := by
    unfold setLabQuota setQuota act PoolConfig.labFast
    rw [named_dataset hlab]
    cases fate (.quota .fast) <;> simp [habsent]
  exact Prog.wp_after.mp h

/-- Setting the quotas makes up for every attempt at it. -/
theorem absorbed_setLabQuota : Prog.Respects
    (Absorbed (setLabQuota cfg calm lab fastQuota slowQuota))
    (setLabQuota cfg fate lab fastQuota slowQuota) := by
  let C := fun s => fastQuota.isSome → present (cfg.dataset lab .fast) s = true
  refine respects_absorbed (C := C) (respects_setLabQuota hlab ?_ ?_) fun s hC => ?_
  · intro hgiven s hpresent hC
    refine ⟨fun _ => present_assign.trans hpresent, ?_⟩
    rw [setLabQuota_calm hlab, setLabQuota_calm hlab]
    simp only [LabConfig.quotasSet, present_assign, hpresent, assign_idem]
    simp
  · intro hzfs s hpresent hC
    refine ⟨fun hgiven => present_assign.trans (hC hgiven), ?_⟩
    have hgo : ¬ (fastQuota.isSome ∧ !present (cfg.dataset lab .fast) s) := by
      rintro ⟨hgiven, habsent⟩
      rw [hC hgiven] at habsent
      cases habsent
    rw [setLabQuota_calm hlab, setLabQuota_calm hlab]
    simp only [LabConfig.quotasSet, present_assign, hpresent, hzfs, assign_absorbed, if_neg hgo]
    simp
  · obtain ⟨hgiven, habsent⟩ := Classical.not_imp.mp hC
    exact setLabQuota_after_of_absent hlab hgiven (Bool.eq_false_iff.mpr habsent)

end

/-! ## Destroying a lab -/

section

variable {name : String} {s : Pools} {lookup destroy : Fate Extent}

/-- What is destroyed in part lies at or below the name. -/
theorem respects_destroyDataset {Q : Pools → Pools → Prop} [IsPreorder Pools Q]
    (h : ∀ s s', Hierarchy.AgreeOutside (components name) s s' → Q s s') :
    Prog.Respects Q (destroyDataset lookup destroy name) := by
  refine .bind respects_look fun _ => .ite (fun _ => ?_) fun _ => .pure _
  refine respects_checked (respects_attempt (fun s _ => h s _ fun m hm => ?_)
    fun extent s _ => h s _ fun m hm => Hierarchy.node_thin_of_not_prefix hm)
  rw [Hierarchy.node_prune, if_neg hm]

theorem destroyDataset_calm : (destroyDataset .done .done name).run s =
    (.ok (), s.prune (components name)) := by
  refine run_of_wp ?_
  unfold destroyDataset datasetExists
  by_cases hpresent : present name s = true
  · simp [hpresent]
  · have hsame : s.prune (components name) = s :=
      Hierarchy.prune_of_not_isSome (components_ne_nil name) hpresent
    simp [hpresent, hsame]

end

section

variable {cfg : LabConfig} {lab : String} (hlab : validateLabName lab = .ok lab)
variable {s : Pools} {fate : Fates}

include hlab

theorem destroyLab_calm : (destroyLab cfg calm lab).run s = (.ok (),
    if cfg.slowIsZfs then
      (s.prune (components (cfg.dataset lab .fast))).prune (components (cfg.dataset lab .slow))
    else s.prune (components (cfg.dataset lab .fast))) := by
  have hcontainer : (check (calm .container) .dockerError : Handler Unit).run s = (.ok (), s) := rfl
  have hfast : (destroyDataset (calm (.lookup .fast)) (calm (.destroy .fast))
      (cfg.dataset lab .fast)).run s = (.ok (), s.prune (components (cfg.dataset lab .fast))) :=
    destroyDataset_calm
  unfold destroyLab PoolConfig.labFast PoolConfig.labSlow
  rw [Prog.run_bind_ok hcontainer, named_dataset hlab, named_dataset hlab]
  simp only [pure_bind]
  rw [Prog.run_bind_ok hfast]
  split
  · exact destroyDataset_calm
  · rfl

/-- What destroying a lab respects. -/
theorem respects_destroyLab {Q : Pools → Pools → Prop} [IsPreorder Pools Q]
    (hfast : ∀ s s', Hierarchy.AgreeOutside (components (cfg.dataset lab .fast)) s s' → Q s s')
    (hslow : cfg.slowIsZfs = true → ∀ s s',
      Hierarchy.AgreeOutside (components (cfg.dataset lab .slow)) s s' → Q s s') :
    Prog.Respects Q (destroyLab cfg fate lab) := by
  unfold destroyLab PoolConfig.labFast PoolConfig.labSlow
  rw [named_dataset hlab, named_dataset hlab]
  simp only [pure_bind]
  exact .bind respects_check fun _ => .bind (respects_destroyDataset hfast) fun _ =>
    .ite (fun hzfs => respects_destroyDataset (hslow hzfs)) fun _ => .pure _

/-- Destroying a lab makes up for every attempt at it. -/
theorem absorbed_destroyLab : Prog.Respects (Absorbed (destroyLab cfg calm lab))
    (destroyLab cfg fate lab) := by
  refine respects_destroyLab hlab (fun s s' h => ?_) fun hzfs s s' h => ?_
  · rw [Absorbed, destroyLab_calm hlab, destroyLab_calm hlab, h.prune]
  · rw [Absorbed, destroyLab_calm hlab, destroyLab_calm hlab, if_pos hzfs, if_pos hzfs,
      h.prune_prune]

end

/-! ## Tasks that are done again -/

/-- The tasks on the storage of a lab. -/
inductive LabTask where
  | create (fastQuota slowQuota : Option Int)
  | quota (fastQuota slowQuota : Option (Option Int))
  | destroy
  deriving DecidableEq, Repr

/-- The handler of a task. -/
def LabTask.call (cfg : LabConfig) (lab : String) (task : LabTask) (fate : Fates) : Handler Unit :=
  match task with
  | create fastQuota slowQuota => createLab cfg fate lab fastQuota slowQuota
  | quota fastQuota slowQuota => setLabQuota cfg fate lab fastQuota slowQuota
  | destroy => destroyLab cfg fate lab

/-- A name that is not valid is refused. -/
theorem named_of_invalid {cfg : LabConfig} {lab : String} (h : validateLabName lab ≠ .ok lab) :
    ∃ message, ∀ tier, named (cfg.labDataset tier lab) = raise (.valueError message) ∧
      ∀ username, named (cfg.userDataset tier lab username) = raise (.valueError message) := by
  obtain ⟨message, hmessage⟩ : ∃ message, validateLabName lab = .error message := by
    unfold validateLabName at h ⊢
    split
    · rename_i hok
      exact absurd (if_pos hok) h
    · exact ⟨_, rfl⟩
  refine ⟨message, fun tier => ?_⟩
  have hlab : cfg.labDataset tier lab = .error message := by
    rw [PoolConfig.labDataset, hmessage]
    rfl
  refine ⟨by rw [hlab]; rfl, fun username => ?_⟩
  rw [PoolConfig.userDataset, hlab]
  rfl

/-- A task for a lab whose name is not valid does nothing. -/
theorem LabTask.call_of_invalid {cfg : LabConfig} {lab : String} (task : LabTask) (fate : Fates)
    (h : validateLabName lab ≠ .ok lab) (s : Pools) : (task.call cfg lab fate).after s = s := by
  obtain ⟨message, hmessage⟩ := named_of_invalid h
  have hnamed (tier : PoolTier) : named (cfg.labDataset tier lab) = raise (.valueError message) :=
    (hmessage tier).1
  have hwp : Prog.wp (task.call cfg lab fate) (fun _ s' => s' = s) (fun _ s' => s' = s) s := by
    cases task with
    | create fastQuota slowQuota =>
        simp only [call, createLab, PoolConfig.labFast, hnamed, Prog.wp_bind, wp_check, wp_raise]
        cases fate .ready <;> trivial
    | quota fastQuota slowQuota =>
        simp only [call, setLabQuota, setColdQuota, PoolConfig.labFast, PoolConfig.labSlow, hnamed]
        cases fastQuota with
        | some quota => trivial
        | none =>
            cases slowQuota with
            | none => trivial
            | some quota => by_cases hzfs : cfg.slowIsZfs = true <;> simp [hzfs]
    | destroy =>
        simp only [call, destroyLab, PoolConfig.labFast, hnamed, Prog.wp_bind, wp_check, wp_raise]
        cases fate .container <;> trivial
  exact Prog.wp_after.mp hwp

/-- **Lab tasks can be done again**: however many attempts at a task failed or were cut short, and
wherever, the next one that nothing goes wrong with comes to what the first would have come to. -/
theorem lab_tasks_converge (cfg : LabConfig) (lab : String) (task : LabTask) (s : Pools)
    (attempts : List Fates) :
    (task.call cfg lab calm).run (retries (task.call cfg lab) s attempts) =
      (task.call cfg lab calm).run s := by
  refine run_retries (fun fate => ?_) s attempts
  by_cases hlab : validateLabName lab = .ok lab
  · cases task with
    | create fastQuota slowQuota => exact absorbed_createLab hlab
    | quota fastQuota slowQuota => exact absorbed_setLabQuota hlab
    | destroy => exact absorbed_destroyLab hlab
  · intro s
    exact congrArg (task.call cfg lab calm).run (task.call_of_invalid fate hlab s)

end MassDeployment.Agent.LabDatasets

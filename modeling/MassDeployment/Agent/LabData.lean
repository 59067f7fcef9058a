import Mathlib
import MassDeployment.Agent.LabDatasets

set_option autoImplicit false

/-! # What labs store (`labops.py`, `studentops.py`)

The handlers destroy datasets and delete directories, and may be cut short anywhere. What they take
is said once for each of them, by name; what stays over a run is then a question about names. Adding
a student is another matter: it moves files about (`studentops.py`, `_ensure_user_dataset`).
-/

namespace MassDeployment.Agent.LabDatasets

open Procedure

/-! ## What the tasks leave alone -/

/-- What is stored stays, but for the datasets at the names in `gone` and the directories `cleared`
of the others. -/
def Spares (gone : List String → Prop) (cleared : List String → String → Prop) (s s' : Pools) :
    Prop :=
  ∀ n d, s.node n = some d → ¬ gone n → ∃ d', s'.node n = some d' ∧
    ∀ entry ∈ d.files, ¬ cleared n entry.1 → entry ∈ d'.files

section

variable {gone gone' : List String → Prop} {cleared cleared' : List String → String → Prop}
variable {s s' : Pools}

instance : IsPreorder Pools (Spares gone cleared) where
  refl _ _ d hd _ := ⟨d, hd, fun _ he _ => he⟩
  trans s s' s'' h h' n d hd hn := by
    obtain ⟨d', hd', hfiles⟩ := h n d hd hn
    obtain ⟨d'', hd'', hfiles'⟩ := h' n d' hd' hn
    exact ⟨d'', hd'', fun entry he hc => hfiles' entry (hfiles entry he hc) hc⟩

theorem Spares.mono (h : Spares gone cleared s s') (hgone : ∀ n, gone n → gone' n)
    (hcleared : ∀ n child, cleared n child → cleared' n child) : Spares gone' cleared' s s' := by
  intro n d hd hn
  obtain ⟨d', hd', hfiles⟩ := h n d hd fun hg => hn (hgone n hg)
  exact ⟨d', hd', fun entry he hc => hfiles entry he fun hg => hc (hcleared n _ hg)⟩

/-- A change of one dataset. -/
theorem Spares.modify {m : List String} {f : Dataset → Dataset}
    (h : ∀ d, ∀ entry ∈ d.files, ¬ cleared m entry.1 → ¬ gone m → entry ∈ (f d).files) :
    Spares gone cleared s (s.modify m f) := by
  intro n d hd hn
  by_cases hnm : n = m
  · subst hnm
    refine ⟨f d, ?_, fun entry he hc => h d entry he hc hn⟩
    rw [Hierarchy.node_modify, if_pos rfl, hd]
    rfl
  · exact ⟨d, (Hierarchy.node_modify_of_ne hnm).trans hd, fun _ he _ => he⟩

theorem Spares.outside {m : List String} (h : Hierarchy.AgreeOutside m s s')
    (hgone : ∀ n, m <+: n → gone n) : Spares gone cleared s s' := by
  intro n d hd hn
  exact ⟨d, (h n fun hmn => hn (hgone n hmn)).trans hd, fun _ he _ => he⟩

theorem Making.spares {name mountpoint : String} {quota : Option Int}
    (h : Making name quota mountpoint s s') : Spares gone cleared s s' := by
  cases h with
  | fill levels =>
      exact fun n d hd _ => ⟨d, Hierarchy.node_fill_of_some hd, fun _ he _ => he⟩
  | quota hq => exact .modify fun _ _ he _ _ => he
  | mountpoint => exact .modify fun _ _ he _ _ => he

theorem assign_spares {name : String} {given : Option (Option Int)} :
    Spares gone cleared s (assign name given s) := by
  cases given with
  | none => exact refl_of (Spares gone cleared) s
  | some quota => exact .modify fun _ _ he _ _ => he

end

section

variable {gone : List String → Prop} {cleared : List String → String → Prop}

/-- Removing a directory of a dataset takes nothing else. -/
theorem removeChild_spares {fate : Fate Extent} {root child : String}
    (hgone : ∀ n, components (root ++ "/" ++ child) <+: n → gone n)
    (hcleared : cleared (components root) child) :
    Prog.Respects (Spares gone cleared) (removeChild fate root child) := by
  have hbelow {f : Dataset → Dataset} (s : Pools) :
      Spares gone cleared s (s.modify (components (root ++ "/" ++ child)) f) :=
    .modify fun _ _ _ _ hn => absurd (hgone _ (List.prefix_refl _)) hn
  have hother {entry : String × List File} (hc : ¬ cleared (components root) entry.1) :
      entry.1 ≠ child := by
    rintro rfl
    exact hc hcleared
  refine .bind (.read _) fun _ => .ite (fun _ => ?_) fun _ => ?_
  · exact .bind (respects_attempt (fun s _ => hbelow s) fun _ s _ => hbelow s) fun _ => .throw _
  · refine respects_checked (respects_attempt (fun s _ => .modify fun d entry he hc _ => ?_)
      fun extent s _ => .modify fun d entry he hc _ => ?_)
    · exact List.mem_filter.mpr ⟨he, by simpa using hother hc⟩
    · exact List.mem_map.mpr ⟨entry, he, if_neg (hother hc)⟩

variable {cfg : LabConfig} {lab : String} (hlab : validateLabName lab = .ok lab)
variable {fate : Fates}

include hlab

theorem deleteStudent_spares {tier : PoolTier} {username : String}
    (hgone : ∀ n, components (cfg.dataset lab tier ++ "/" ++ username) <+: n → gone n)
    (hcleared : cleared (components (cfg.dataset lab tier)) username) :
    Prog.Respects (Spares gone cleared) (deleteStudent cfg fate tier lab username) := by
  have hdataset : named (cfg.userDataset tier lab username) =
      pure (cfg.dataset lab tier ++ "/" ++ username) := by
    rw [PoolConfig.userDataset_ok _ hlab]
    rfl
  unfold deleteStudent
  rw [hdataset, named_dataset hlab]
  simp only [pure_bind]
  refine .bind respects_look fun _ => .ite (fun _ => ?_) fun _ => ?_
  · exact respects_destroyDataset fun s s' h => .outside h hgone
  · exact .bind respects_inspect fun _ => removeChild_spares hgone hcleared

end

/-- For a lab whose name is not valid nothing is deleted. -/
theorem respects_deleteStudent_of_invalid {Q : Pools → Pools → Prop} [IsPreorder Pools Q]
    {cfg : LabConfig} {fate : Fates} {tier : PoolTier} {lab username : String}
    (h : validateLabName lab ≠ .ok lab) :
    Prog.Respects Q (deleteStudent cfg fate tier lab username) := by
  obtain ⟨message, hmessage⟩ := named_of_invalid h
  unfold deleteStudent
  rw [(hmessage tier).2 username]
  exact respects_raise_bind

section

variable {Q : Pools → Pools → Prop} [IsPreorder Pools Q] {cfg : LabConfig} {fate : Fates}
variable {lab username : String}

/-- What removing a student respects. -/
theorem respects_removeStudent {deleteData : Bool}
    (h : matchesUsername username = true → deleteData = true →
      Prog.Respects Q (deleteStudent cfg fate .fast lab username)) :
    Prog.Respects Q (removeStudent cfg fate lab username deleteData) := by
  unfold removeStudent
  refine .ite (fun _ => respects_raise_bind) fun huser => ?_
  exact .bind respects_check fun _ => .ite (h (by simpa using huser)) fun _ => .pure _

/-- What deleting the cold storage of a student respects. -/
theorem respects_deleteColdStudent
    (h : cfg.slowIsZfs = true → matchesUsername username = true →
      Prog.Respects Q (deleteStudent cfg fate .slow lab username)) :
    Prog.Respects Q (deleteColdStudent cfg fate lab username) := by
  unfold deleteColdStudent
  refine .ite (fun _ => respects_raise_bind) fun hzfs => ?_
  refine .ite (fun _ => respects_raise_bind) fun huser => ?_
  exact h (by simpa using hzfs) (by simpa using huser)

end

/-! ## Runs of tasks -/

/-- The tasks that create, set and destroy the storage of labs, or delete that of students. -/
inductive StorageTask where
  | ofLab (lab : String) (task : LabTask)
  | removeStudent (lab username : String) (deleteData : Bool)
  | deleteColdStudent (lab username : String)
  deriving DecidableEq, Repr

namespace StorageTask

variable (cfg : LabConfig)

def call (task : StorageTask) (fate : Fates) : Handler Unit :=
  match task with
  | ofLab lab task => task.call cfg lab fate
  | removeStudent lab username deleteData =>
      LabDatasets.removeStudent cfg fate lab username deleteData
  | deleteColdStudent lab username => LabDatasets.deleteColdStudent cfg fate lab username

/-- The task asks to delete what the student stored on the tier. -/
def Deletes (tier : PoolTier) (lab username : String) : StorageTask → Prop
  | ofLab _ _ => False
  | removeStudent lab' username' deleteData =>
      tier = .fast ∧ lab' = lab ∧ username' = username ∧ deleteData = true
  | deleteColdStudent lab' username' => tier = .slow ∧ lab' = lab ∧ username' = username

/-- One task with what becomes of its commands. -/
def step (s : Pools) (e : StorageTask × Fates) : Pools := (e.1.call cfg e.2).after s

/-- The datasets the task may take away. -/
def Gone (task : StorageTask) (n : List String) : Prop :=
  (∃ lab tier, validateLabName lab = .ok lab ∧ task = ofLab lab .destroy ∧
    (tier = .slow → cfg.slowIsZfs = true) ∧ components (cfg.dataset lab tier) <+: n) ∨
  ∃ lab tier username, validateLabName lab = .ok lab ∧ matchesUsername username = true ∧
    task.Deletes tier lab username ∧ (tier = .slow → cfg.slowIsZfs = true) ∧
    components (cfg.dataset lab tier ++ "/" ++ username) <+: n

/-- The directories the task may clear in the datasets it leaves. -/
def Cleared (task : StorageTask) (n : List String) (child : String) : Prop :=
  ∃ lab tier, validateLabName lab = .ok lab ∧ task.Deletes tier lab child ∧
    (tier = .slow → cfg.slowIsZfs = true) ∧ n = components (cfg.dataset lab tier)

/-- A task takes away and clears no more than it may. -/
theorem spares {cfg : LabConfig} (task : StorageTask) (fate : Fates) :
    Prog.Respects (Spares (task.Gone cfg) (task.Cleared cfg)) (task.call cfg fate) := by
  cases task with
  | ofLab lab task =>
      by_cases hlab : validateLabName lab = .ok lab
      · cases task with
        | create fastQuota slowQuota =>
            exact respects_createLab hlab (fun _ _ _ h => h.spares) fun _ _ _ _ h => h.spares
        | quota fastQuota slowQuota =>
            exact respects_setLabQuota hlab (fun _ _ _ => assign_spares) fun _ _ _ => assign_spares
        | destroy =>
            refine respects_destroyLab hlab (fun s s' h => .outside h fun n hn => .inl ?_)
              fun hzfs s s' h => .outside h fun n hn => .inl ?_
            · exact ⟨lab, .fast, hlab, rfl, by simp, hn⟩
            · exact ⟨lab, .slow, hlab, rfl, fun _ => hzfs, hn⟩
      · intro s
        have hsame : ((call cfg (.ofLab lab task) fate).run s).2 = s :=
          task.call_of_invalid fate hlab s
        rw [hsame]
        exact refl_of _ s
  | removeStudent lab username deleteData =>
      refine respects_removeStudent fun huser hdata => ?_
      by_cases hlab : validateLabName lab = .ok lab
      · have hdeletes : (removeStudent lab username deleteData).Deletes .fast lab username :=
          ⟨rfl, rfl, rfl, hdata⟩
        exact deleteStudent_spares hlab
          (fun n hn => .inr ⟨lab, .fast, username, hlab, huser, hdeletes, by simp, hn⟩)
          ⟨lab, .fast, hlab, hdeletes, by simp, rfl⟩
      · exact respects_deleteStudent_of_invalid hlab
  | deleteColdStudent lab username =>
      refine respects_deleteColdStudent fun hzfs huser => ?_
      by_cases hlab : validateLabName lab = .ok lab
      · have hdeletes : (deleteColdStudent lab username).Deletes .slow lab username :=
          ⟨rfl, rfl, rfl⟩
        exact deleteStudent_spares hlab
          (fun n hn => .inr ⟨lab, .slow, username, hlab, huser, hdeletes, fun _ => hzfs, hn⟩)
          ⟨lab, .slow, hlab, hdeletes, fun _ => hzfs, rfl⟩
      · exact respects_deleteStudent_of_invalid hlab

/-- A run takes what one of its tasks takes. -/
theorem run_spares {cfg : LabConfig} (tasks : List (StorageTask × Fates)) (s : Pools) :
    Spares (fun n => ∃ e ∈ tasks, e.1.Gone cfg n)
      (fun n child => ∃ e ∈ tasks, e.1.Cleared cfg n child) s (Run.run (step cfg) s tasks) := by
  induction tasks generalizing s with
  | nil => exact refl_of _ s
  | cons e tasks ih =>
      have hfirst : Spares (e.1.Gone cfg) (e.1.Cleared cfg) s (step cfg s e) := e.1.spares e.2 s
      refine trans_of _ (hfirst.mono (fun n h => ⟨e, by simp, h⟩) fun n child h => ⟨e, by simp, h⟩)
        ((ih (step cfg s e)).mono (fun n h => ?_) fun n child h => ?_)
      · obtain ⟨e', he', hgone⟩ := h
        exact ⟨e', List.mem_cons_of_mem _ he', hgone⟩
      · obtain ⟨e', he', hcleared⟩ := h
        exact ⟨e', List.mem_cons_of_mem _ he', hcleared⟩

end StorageTask

section

variable {cfg : LabConfig} {lab lab' : String} {tier tier' : PoolTier}

theorem components_dataset (hlab : validateLabName lab = .ok lab) :
    components (cfg.dataset lab tier) = components (cfg.labsRoot tier) ++ [lab] := by
  rw [components, LabConfig.dataset, split_join, Text.split_of_not_mem (labName_part hlab).2]
  rfl

theorem components_user {dataset username : String} (huser : matchesUsername username = true) :
    components (dataset ++ "/" ++ username) = components dataset ++ [username] := by
  rw [components, split_join, Text.split_of_not_mem (username_part huser)]
  rfl

/-- What lies below the datasets of two labs lies below one. -/
theorem lab_of_prefix {n : List String} (hlab : validateLabName lab = .ok lab)
    (hlab' : validateLabName lab' = .ok lab')
    (htier : tier = .slow → cfg.slowIsZfs = true) (htier' : tier' = .slow → cfg.slowIsZfs = true)
    (hroots : cfg.slowIsZfs = true →
      ¬ components (cfg.labsRoot .fast) <+: components (cfg.labsRoot .slow) ∧
        ¬ components (cfg.labsRoot .slow) <+: components (cfg.labsRoot .fast))
    (hn : components (cfg.dataset lab tier) <+: n)
    (hn' : components (cfg.dataset lab' tier') <+: n) : tier' = tier ∧ lab' = lab := by
  rw [components_dataset hlab] at hn
  rw [components_dataset hlab'] at hn'
  have hroot := (List.prefix_append _ _).trans hn
  have hroot' := (List.prefix_append _ _).trans hn'
  have hor := List.prefix_or_prefix_of_prefix hroot hroot'
  obtain rfl : tier' = tier := by
    cases tier with
    | fast =>
        cases tier' with
        | fast => rfl
        | slow => exact absurd hor (not_or.mpr (hroots (htier' rfl)))
    | slow =>
        cases tier' with
        | slow => rfl
        | fast => exact absurd hor.symm (not_or.mpr (hroots (htier rfl)))
  let root := components (cfg.labsRoot tier')
  have hlength : (root ++ [lab']).length = (root ++ [lab]).length := by simp
  have hsame : root ++ [lab'] = root ++ [lab] := by
    rcases List.prefix_or_prefix_of_prefix hn' hn with h | h
    · exact h.eq_of_length hlength
    · exact (h.eq_of_length hlength.symm).symm
  exact ⟨rfl, by simpa using hsame⟩

end

/-- **What a lab stores survives**: in every run of tasks, whatever fails in it or is cut short, in
which the lab is not destroyed, every dataset of the lab keeps its files but for the students whose
data a task of the run is to delete. -/
theorem lab_data_survives (cfg : LabConfig) (lab : String) (tier : PoolTier)
    (tasks : List (StorageTask × Fates)) (s : Pools) (n : List String) (d : Dataset)
    (hlab : validateLabName lab = .ok lab) (htier : tier = .slow → cfg.slowIsZfs = true)
    (hroots : cfg.slowIsZfs = true →
      ¬ components (cfg.labsRoot .fast) <+: components (cfg.labsRoot .slow) ∧
        ¬ components (cfg.labsRoot .slow) <+: components (cfg.labsRoot .fast))
    (hkept : ∀ e ∈ tasks, e.1 ≠ .ofLab lab .destroy)
    (hn : components (cfg.dataset lab tier) <+: n) (hd : s.node n = some d)
    (hstudent : ∀ e ∈ tasks, ∀ username, e.1.Deletes tier lab username →
      ¬ components (cfg.dataset lab tier) ++ [username] <+: n) :
    ∃ d', (Run.run (StorageTask.step cfg) s tasks).node n = some d' ∧ ∀ entry ∈ d.files,
      (n = components (cfg.dataset lab tier) → ∀ e ∈ tasks, ¬ e.1.Deletes tier lab entry.1) →
        entry ∈ d'.files := by
  have hgone : ¬ ∃ e ∈ tasks, e.1.Gone cfg n := by
    rintro ⟨e, he, ⟨lab', tier', hlab', htask, htier', hn'⟩ |
      ⟨lab', tier', username, hlab', huser, hdeletes, htier', hn'⟩⟩
    · obtain ⟨-, rfl⟩ := lab_of_prefix hlab hlab' htier htier' hroots hn hn'
      exact hkept e he htask
    · rw [components_user huser] at hn'
      obtain ⟨rfl, rfl⟩ := lab_of_prefix hlab hlab' htier htier' hroots hn
        ((List.prefix_append _ _).trans hn')
      exact hstudent e he username hdeletes hn'
  obtain ⟨d', hd', hfiles⟩ := StorageTask.run_spares tasks s n d hd hgone
  refine ⟨d', hd', fun entry hentry hkeep => hfiles entry hentry ?_⟩
  rintro ⟨e, he, lab', tier', hlab', hdeletes, htier', rfl⟩
  obtain ⟨rfl, rfl⟩ := lab_of_prefix hlab hlab' htier htier' hroots hn (List.prefix_refl _)
  exact hkeep rfl e he hdeletes

def twoTiers : LabConfig :=
  { twoPools with fastMountRoot := "/fast", coldMountRoot := "/cold", slowPath := "" }

/-- What two students of a lab stored. -/
def twoStudents : Dataset := { files := [("ann", [⟨"notes", []⟩]), ("alice", [])] }

/-- One student is removed and another lab destroyed in part: the notes of the other student are
there. -/
theorem lab_data_survives_notes :
    ∃ d', (Run.run (StorageTask.step twoTiers)
        (Hierarchy.modify ["fast", "labs", "bio"] (fun _ => twoStudents)
          (Hierarchy.fill ["fast", "labs", "bio"] {} Hierarchy.empty))
        [(.removeStudent "bio" "alice" true, calm),
          (.ofLab "chem" .destroy, fun _ => .dies { acted := true })]).node
        ["fast", "labs", "bio"] = some d' ∧ ("ann", [⟨"notes", []⟩]) ∈ d'.files := by
  obtain ⟨d', hd', hfiles⟩ := lab_data_survives twoTiers "bio" .fast
    [(.removeStudent "bio" "alice" true, calm),
      (.ofLab "chem" .destroy, fun _ => .dies { acted := true })]
    (Hierarchy.modify ["fast", "labs", "bio"] (fun _ => twoStudents)
      (Hierarchy.fill ["fast", "labs", "bio"] {} Hierarchy.empty))
    ["fast", "labs", "bio"] twoStudents (by decide +kernel) (by simp) (by decide +kernel) (by simp)
    (by decide +kernel) (by decide +kernel) (by
      intro e he username hdeletes hpre
      have hthree : (components (twoTiers.dataset "bio" .fast)).length = 3 := by decide +kernel
      have hlength := hpre.length_le
      simp [hthree] at hlength)
  refine ⟨d', hd', hfiles _ (by decide +kernel) ?_⟩
  simp [StorageTask.Deletes]

end MassDeployment.Agent.LabDatasets

import Mathlib.Data.Finset.Basic
import Mathlib.Data.Finset.Lattice.Lemmas
import MassDeployment.Lib.Faults
import MassDeployment.Lib.Run

set_option autoImplicit false

/-! # Docker's data-root and its dataset (`hostprep.py`)

`_prepare_docker_storage` backs the data-root with a dataset once the pools are there. What is in
the data-root by then is moved aside to `.pre-zfs.bak`, and copied into the dataset that is mounted in
its place. A run picks its branch from what it sees: whether the dataset exists and whether the
data-root is empty. It does not look at a `.pre-zfs.bak` of an earlier run, except to remove it.
-/

namespace MassDeployment.HostPrep

open Procedure

variable {F : Type} [DecidableEq F]

structure Dataset (F : Type) where
  files : Finset F
  mounted : Bool
  deriving DecidableEq

/-- What is on the disks. A file is its path with its content; a data-root that is not there is like
an empty one, as every run makes it first. -/
structure Storage (F : Type) where
  /-- The directory itself, under a mounted dataset or not. -/
  plain : Finset F
  /-- `.pre-zfs.bak`. -/
  backup : Option (Finset F)
  dataset : Option (Dataset F)
  deriving DecidableEq

namespace Storage

/-- What is in the dataset. -/
def stored (s : Storage F) : Finset F := (s.dataset.map Dataset.files).getD ∅

def mounted (s : Storage F) : Bool := s.dataset.any Dataset.mounted

/-- What one sees in the data-root. -/
def root (s : Storage F) : Finset F := if s.mounted then s.stored else s.plain

def saved (s : Storage F) : Finset F := s.backup.getD ∅

/-- Everything there is, wherever. -/
def content (s : Storage F) : Finset F := s.plain ∪ s.saved ∪ s.stored

/-- Put files into what one sees as the data-root. -/
def write (new : Finset F) (s : Storage F) : Storage F :=
  if s.mounted then { s with dataset := s.dataset.map fun d => { d with files := d.files ∪ new } }
  else { s with plain := s.plain ∪ new }

/-- `root.rename(backup)`. -/
def moveAside (s : Storage F) : Storage F := { s with plain := ∅, backup := some s.plain }

/-- `zfs create`: an empty dataset, which may not have been mounted. -/
def create (mounted : Bool) (s : Storage F) : Storage F :=
  { s with dataset := some ⟨∅, mounted⟩ }

/-- `zfs mount`. -/
def mount (s : Storage F) : Storage F :=
  { s with dataset := s.dataset.map fun d => { d with mounted := true } }

/-- `shutil.rmtree(backup)`, as far as it came. -/
def removeFiles (gone : Finset F) (s : Storage F) : Storage F :=
  { s with backup := s.backup.map (· \ gone) }

def removeBackup (s : Storage F) : Storage F := { s with backup := none }

end Storage

/-! ## Commands -/

/-- How much of its work an unfinished command did: the files it got to, whether it acted, and
whether a dataset that it created was mounted. -/
structure Progress (F : Type) where
  files : Finset F
  acted : Bool
  mounted : Bool

instance : LE (Progress F) :=
  ⟨fun p q => p.files ⊆ q.files ∧ p.acted ≤ q.acted ∧ p.mounted ≤ q.mounted⟩

/-- The steps of a run, in order. -/
inductive StorageStep where
  | stopSocket | stopDocker | list
  | makeRoot | removeStale | rename | makeAgain | create | copy | removeBackup
  | mount | quota
  deriving DecidableEq, Repr

inductive PrepareError where
  | osError
  | runtimeError (message : String)
  deriving DecidableEq, Repr

abbrev Prepare (F : Type) := Procedure (Storage F) PrepareError

section

variable (fate : StorageStep → Fate (Progress F))

/-- `_create_docker_dataset`: there must not be one. -/
def createDockerDataset : Prepare F Unit :=
  checked (.runtimeError "could not create Docker dataset")
    (attempt (fate .create) (fun s => s.dataset.isNone) (Storage.create true)
      fun p s => if p.acted then s.create p.mounted else s)

/-- `shutil.rmtree` of the directory that was moved aside. -/
def removeTree (f : Fate (Progress F)) : Prepare F Unit :=
  checked .osError (attempt f (fun s => s.backup.isSome) Storage.removeBackup
    fun p => Storage.removeFiles p.files)

/-- A directory that something is mounted on cannot be renamed. -/
def renameRoot : Prepare F Unit :=
  checked .osError (attempt (fate .rename) (fun s => !s.mounted && s.backup.isNone)
    Storage.moveAside fun p s => if p.acted then s.moveAside else s)

/-- `cp -a backup/. root`. -/
def copyBack : Prepare F Unit :=
  checked (.runtimeError "could not migrate")
    (attempt (fate .copy) (fun s => s.backup.isSome) (fun s => s.write s.saved)
      fun p s => s.write (s.saved ∩ p.files))

/-- `_migrate_data_root_into_dataset`, once no directory of an earlier run is in the way. -/
def moveIntoDataset : Prepare F Unit := do
  renameRoot fate
  check (fate .makeAgain) .osError
  createDockerDataset fate
  copyBack fate
  removeTree (fate .removeBackup)

def migrateDataRootIntoDataset : Prepare F Unit := do
  if ← Prog.read fun s => s.backup.isSome then removeTree (fate .removeStale)
  moveIntoDataset fate

/-- A command whose result is not looked at. -/
def unheeded (f : Fate (Progress F)) : Prepare F Unit := do
  let _ ← attempt f (fun _ => true) id fun _ => id

/-- `zfs list`, which also fails where it could not look. -/
def datasetExists : Prepare F Bool :=
  attempt (fate .list) (fun s => s.dataset.isSome) id fun _ => id

/-- A dataset that is mounted already says so, and that is taken for done. -/
def mountDataset : Prepare F Unit :=
  checked (.runtimeError "could not mount")
    (attempt (fate .mount) (fun _ => true) Storage.mount fun p s => if p.acted then s.mount else s)

/-- The branch on what is seen. -/
def convergeDataset : Prepare F Unit := do
  if ← datasetExists fate then
    mountDataset fate
  else
    check (fate .makeRoot) .osError
    if ← Prog.read fun s => decide (s.root ≠ ∅) then migrateDataRootIntoDataset fate
    else createDockerDataset fate

/-- `_prepare_docker_storage`; `ready` is `_zfs_pools_ready`. -/
def prepareDockerStorage (ready : Bool) : Prepare F Bool := do
  if ready then
    unheeded (fate .stopSocket)
    unheeded (fate .stopDocker)
    convergeDataset fate
    check (fate .quota) (.runtimeError "could not set quota on")
    return true
  else return false

end

/-! ## Runs -/

/-- Docker writes new files, or a run goes as far as the fates of its steps say. -/
inductive StorageEvent (F : Type) where
  | write (new : Finset F)
  | prepare (ready : Bool) (fate : StorageStep → Fate (Progress F))

def step (s : Storage F) : StorageEvent F → Storage F
  | .write new => s.write new
  | .prepare ready fate => (prepareDockerStorage fate ready).after s

def ReturnsTrue (s : Storage F) : StorageEvent F → Prop
  | .write _ => False
  | .prepare ready fate => ((prepareDockerStorage fate ready).run s).1 = .ok true

/-- The same run, broken off at some moment. -/
inductive StorageEvent.Cut : StorageEvent F → StorageEvent F → Prop
  | write (new : Finset F) : Cut (.write new) (.write new)
  | prepare {ready : Bool} {fate fate' : StorageStep → Fate (Progress F)}
      (h : ∀ i, (fate i).Cut (fate' i)) : Cut (.prepare ready fate) (.prepare ready fate')

omit [DecidableEq F] in
theorem StorageEvent.cut_refl (e : StorageEvent F) : e.Cut e := by
  cases e with
  | write new => exact .write new
  | prepare ready fate => exact .prepare fun i => .whole (fate i)

/-- Every file is somewhere. -/
def Kept (files : Finset F) (s : Storage F) : Prop := files ⊆ s.content

instance (files : Finset F) (s : Storage F) : Decidable (Kept files s) :=
  inferInstanceAs (Decidable (files ⊆ s.content))

/-- Every file is in the dataset, which is mounted at the data-root. -/
def InPlace (files : Finset F) (s : Storage F) : Prop := s.mounted ∧ files ⊆ s.stored

/-- No file is gone at any moment, and if the run returns `True` every file is in place. -/
def Preserved (files : Finset F) (s : Storage F) (e : StorageEvent F) : Prop :=
  (∀ e', e.Cut e' → Kept files (step s e')) ∧ (ReturnsTrue s e → InPlace files (step s e))

/-! ## When a run keeps what there is -/

/-- The run gets to the migration. -/
structure Migrates (fate : StorageStep → Fate (Progress F)) (s : Storage F) : Prop where
  socket : (fate .stopSocket).Survived
  docker : (fate .stopDocker).Survived
  listed : (fate .list).Survived
  unseen : fate .list = .done → s.dataset = none
  root : fate .makeRoot = .done
  occupied : s.root ≠ ∅

/-- The dataset is there and gets mounted, or it is created over an empty data-root. -/
def Settles (fate : StorageStep → Fate (Progress F)) (s : Storage F) : Prop :=
  (s.dataset.isSome ∧ fate .list = .done ∧ fate .mount = .done) ∨
    (s.dataset = none ∧ (fate .list).Survived ∧ fate .makeRoot = .done ∧ s.root = ∅ ∧
      fate .create = .done)

/-- The run gets to its end without a migration. -/
structure Skips (fate : StorageStep → Fate (Progress F)) (s : Storage F) : Prop where
  socket : (fate .stopSocket).Survived
  docker : (fate .stopDocker).Survived
  settles : Settles fate s
  quota : fate .quota = .done

/-- What the run removes of an earlier run's `.pre-zfs.bak`. -/
def removed (s : Storage F) : Fate (Progress F) → Finset F
  | .done => s.saved
  | .fails p | .dies p => s.saved ∩ p.files

/-- A migration removes no file that is nowhere else, and a run that gets through without one finds
every file in the dataset. -/
def Meets (files : Finset F) (s : Storage F) : StorageEvent F → Prop
  | .write _ => True
  | .prepare ready fate => ready →
      (Migrates fate s → files ∩ removed s (fate .removeStale) ⊆ s.plain ∪ s.stored) ∧
      (Skips fate s → files ⊆ s.stored)

/-! ## What the commands do to the content -/

namespace Storage

variable {s : Storage F} {new gone : Finset F} {mounted : Bool}

theorem content_removeFiles : (s.removeFiles gone).content = s.plain ∪ s.saved \ gone ∪ s.stored := by
  unfold content
  cases h : s.backup with
  | none => simp [removeFiles, saved, stored, h]
  | some b => simp [removeFiles, saved, stored, h]

theorem content_removeBackup : s.removeBackup.content = s.plain ∪ s.stored := by
  simp [content, removeBackup, saved, stored]

theorem content_moveAside : s.moveAside.content = s.plain ∪ s.stored := by
  simp [content, moveAside, saved, stored]

theorem content_create (h : s.dataset = none) : (s.create mounted).content = s.content := by
  simp [content, create, saved, stored, h]

omit [DecidableEq F] in
theorem stored_mount : s.mount.stored = s.stored := by
  cases h : s.dataset <;> simp [mount, stored, h]

theorem content_mount : s.mount.content = s.content := by
  unfold content
  rw [stored_mount]
  rfl

theorem content_write : (s.write new).content = s.content ∪ new := by
  unfold write
  split
  · rename_i h
    cases hd : s.dataset with
    | none => simp [mounted, hd] at h
    | some d => simp [content, saved, stored, hd, Finset.union_assoc]
  · ext f
    simp only [content, saved, stored, Finset.mem_union]
    tauto

end Storage

/-! ## No command brings anything back -/

/-- What was nowhere is nowhere. -/
def Shrinks (s s' : Storage F) : Prop := s'.content ⊆ s.content

instance : IsPreorder (Storage F) Shrinks where
  refl _ := Finset.Subset.refl _
  trans _ _ _ h h' := h'.trans h

section

variable {files : Finset F} {fate : StorageStep → Fate (Progress F)} {s : Storage F}

theorem shrinks_removeFiles (gone : Finset F) : Shrinks s (s.removeFiles gone) := by
  unfold Shrinks
  rw [Storage.content_removeFiles]
  exact Finset.union_subset_union_left (Finset.union_subset_union_right Finset.sdiff_subset)

theorem plain_union_stored_subset : s.plain ∪ s.stored ⊆ s.content :=
  Finset.union_subset_union_left Finset.subset_union_left

theorem shrinks_write {new : Finset F} (h : new ⊆ s.content) : Shrinks s (s.write new) := by
  unfold Shrinks
  rw [Storage.content_write]
  exact Finset.union_subset (Finset.Subset.refl _) h

theorem saved_subset : s.saved ⊆ s.content :=
  Finset.subset_union_right.trans Finset.subset_union_left

theorem shrinks_removeTree (f : Fate (Progress F)) : Prog.Respects Shrinks (removeTree f) := by
  refine respects_checked (respects_attempt (fun s _ => ?_) fun p s _ => shrinks_removeFiles p.files)
  show s.removeBackup.content ⊆ s.content
  rw [Storage.content_removeBackup]
  exact plain_union_stored_subset

theorem shrinks_moveAside : Shrinks s s.moveAside := by
  unfold Shrinks
  rw [Storage.content_moveAside]
  exact plain_union_stored_subset

theorem shrinks_create {mounted : Bool} (h : s.dataset.isNone) : Shrinks s (s.create mounted) := by
  unfold Shrinks
  rw [Storage.content_create (Option.isNone_iff_eq_none.mp h)]

theorem shrinks_createDockerDataset : Prog.Respects Shrinks (createDockerDataset fate) := by
  refine respects_checked (respects_attempt (fun s hs => shrinks_create hs) fun p s hs => ?_)
  split
  · exact shrinks_create hs
  · exact refl_of Shrinks s

theorem shrinks_check (f : Fate (Progress F)) (e : PrepareError) :
    Prog.Respects Shrinks (check f e : Prepare F Unit) :=
  respects_checked (respects_attempt (fun s _ => refl_of Shrinks s) fun _ s _ => refl_of Shrinks s)

theorem shrinks_moveIntoDataset : Prog.Respects Shrinks (moveIntoDataset fate) := by
  have hrename : Prog.Respects Shrinks (renameRoot fate) := by
    refine respects_checked (respects_attempt (fun s _ => shrinks_moveAside) fun p s _ => ?_)
    split
    · exact shrinks_moveAside
    · exact refl_of Shrinks s
  have hcopy : Prog.Respects Shrinks (copyBack fate) :=
    respects_checked (respects_attempt (fun s _ => shrinks_write saved_subset)
      fun p s _ => shrinks_write (Finset.inter_subset_left.trans saved_subset))
  exact .bind hrename fun _ => .bind (shrinks_check _ _) fun _ =>
    .bind shrinks_createDockerDataset fun _ => .bind hcopy fun _ => shrinks_removeTree _

/-! ## A migration -/

theorem InPlace.kept (h : InPlace files s) : Kept files s := h.2.trans Finset.subset_union_right

/-- Where nothing is left of an earlier run, a migration loses nothing, and one that gets through has
everything in place. -/
theorem wp_moveIntoDataset (hkept : Kept files s) (hnone : s.backup = none) :
    Prog.wp (moveIntoDataset fate) (fun _ => InPlace files) (fun _ => Kept files) s := by
  have hfiles : files ⊆ s.plain ∪ s.stored := by
    simpa [Kept, Storage.content, Storage.saved, hnone] using hkept
  have haside : Kept files s.moveAside := by
    rw [Kept, Storage.content_moveAside]
    exact hfiles
  unfold moveIntoDataset
  rw [Prog.wp_bind]
  refine wp_command (fun _ _ => ?_) (fun _ => hkept) fun p _ _ => ?_
  · rw [Prog.wp_bind]
    refine wp_command (fun _ _ => ?_) (fun _ => haside) fun _ _ _ => haside
    rw [Prog.wp_bind]
    refine wp_command (fun _ hable => ?_) (fun _ => haside) fun p _ hable => ?_
    · -- there is no dataset: all there is was in the directory
      have hdataset : s.dataset = none := Option.isNone_iff_eq_none.mp hable
      have hplain : files ⊆ s.plain := by simpa [Storage.stored, hdataset] using hfiles
      have hcopied : InPlace files (s.moveAside.create true |>.write s.plain) :=
        ⟨rfl, by simpa [Storage.write, Storage.mounted, Storage.create, Storage.stored] using hplain⟩
      have hsaved : files ⊆ (s.moveAside.create true).saved := hplain
      rw [Prog.wp_bind]
      refine wp_command (fun _ _ => ?_) (fun _ => hsaved.trans saved_subset) fun p _ _ => ?_
      · exact wp_command (fun _ _ => hcopied) (fun _ => hcopied.kept) fun p _ _ => InPlace.kept hcopied
      · rw [Kept, Storage.content_write]
        exact (hsaved.trans saved_subset).trans Finset.subset_union_left
    · split
      · rw [Kept, Storage.content_create (Option.isNone_iff_eq_none.mp hable)]
        exact haside
      · exact haside
  · split
    · exact haside
    · exact hkept

/-! ## A run -/

variable {Q : Unit → Storage F → Prop} {E : Fault PrepareError → Storage F → Prop}

omit [DecidableEq F] in
theorem wp_unheeded {f : Fate (Progress F)} : Prog.wp (unheeded f) Q E s ↔
    (f.Survived → Q () s) ∧ (¬ f.Survived → E .died s) := by
  unfold unheeded
  rw [Prog.wp_bind]
  cases f with
  | done => simp
  | fails p => simp
  | dies p => simp

omit [DecidableEq F] in
theorem wp_datasetExists {Q : Bool → Storage F → Prop} (hseen : fate .list = .done → Q s.dataset.isSome s)
    (hunseen : (fate .list).Survived → fate .list ≠ .done → Q false s)
    (hdied : ¬ (fate .list).Survived → E .died s) : Prog.wp (datasetExists fate) Q E s := by
  unfold datasetExists
  cases h : fate .list with
  | done =>
    have hq := hseen h
    cases hd : s.dataset with
    | none => simpa [hd] using hq
    | some d => simpa [hd] using hq
  | fails p => simpa using hunseen (by simp [h]) (by simp [h])
  | dies p => simpa using hdied (by simp [h])

/-- What the removal leaves of the content. -/
theorem kept_removeFiles_iff {gone : Finset F} (hkept : Kept files s) :
    Kept files (s.removeFiles gone) ↔ files ∩ (s.saved ∩ gone) ⊆ s.plain ∪ s.stored := by
  rw [Kept, Storage.content_removeFiles]
  constructor
  · intro h f hf
    obtain ⟨hfile, hf⟩ := Finset.mem_inter.mp hf
    have hin := h hfile
    simp only [Finset.mem_union, Finset.mem_sdiff] at hin ⊢
    have hgone := (Finset.mem_inter.mp hf).2
    tauto
  · intro h f hf
    have hin := hkept hf
    have hout : f ∈ files ∩ (s.saved ∩ gone) → f ∈ s.plain ∪ s.stored := @h f
    simp only [Storage.content, Finset.mem_union, Finset.mem_sdiff, Finset.mem_inter] at hin hout ⊢
    tauto

/-- A migration that removes no file that is nowhere else. -/
theorem wp_migrate (hkept : Kept files s)
    (hold : files ∩ removed s (fate .removeStale) ⊆ s.plain ∪ s.stored) :
    Prog.wp (migrateDataRootIntoDataset fate) (fun _ => InPlace files) (fun _ => Kept files) s := by
  unfold migrateDataRootIntoDataset
  rw [Prog.wp_bind, Prog.wp_read]
  cases hb : s.backup with
  | none => exact wp_moveIntoDataset hkept hb
  | some b =>
    have hsaved : s.saved = b := by simp [Storage.saved, hb]
    rw [Option.isSome_some, if_pos rfl, Prog.wp_bind]
    refine wp_command (fun hfate _ => wp_moveIntoDataset ?_ rfl) (fun _ => hkept) fun p hp _ => ?_
    · rw [hfate] at hold
      rw [Kept, Storage.content_removeBackup]
      intro f hf
      have hin := hkept hf
      have hout : f ∈ files ∩ s.saved → f ∈ s.plain ∪ s.stored := @hold f
      simp only [Storage.content, Finset.mem_union, Finset.mem_inter] at hin hout ⊢
      tauto
    · refine (kept_removeFiles_iff hkept).mpr ?_
      rcases hp with hp | hp
      · rwa [hp] at hold
      · rwa [hp] at hold

theorem kept_create (hkept : Kept files s) {mounted : Bool} (h : s.dataset.isNone) :
    Kept files (s.create mounted) := by
  rw [Kept, Storage.content_create (Option.isNone_iff_eq_none.mp h)]
  exact hkept

theorem kept_mount (hkept : Kept files s) : Kept files s.mount := by
  rw [Kept, Storage.content_mount]
  exact hkept

theorem wp_converge (hsocket : (fate .stopSocket).Survived) (hdocker : (fate .stopDocker).Survived)
    (hkept : Kept files s)
    (hold : Migrates fate s → files ∩ removed s (fate .removeStale) ⊆ s.plain ∪ s.stored) :
    Prog.wp (convergeDataset fate)
      (fun _ s' => Kept files s' ∧ (InPlace files s' ∨ Settles fate s)) (fun _ => Kept files) s := by
  have hbranch : (fate .list).Survived → (fate .list = .done → s.dataset = none) →
      Prog.wp (do
          check (fate .makeRoot) .osError
          if ← Prog.read fun s => decide (s.root ≠ ∅) then migrateDataRootIntoDataset fate
          else createDockerDataset fate)
        (fun _ s' => Kept files s' ∧ (InPlace files s' ∨ Settles fate s)) (fun _ => Kept files) s := by
    intro hlist hunseen
    rw [Prog.wp_bind]
    refine wp_command (fun hroot _ => ?_) (fun _ => hkept) fun _ _ _ => hkept
    rw [Prog.wp_bind, Prog.wp_read]
    by_cases hempty : s.root = ∅
    · rw [if_neg (by simpa using hempty)]
      refine wp_command (fun hcreate hable => ⟨kept_create hkept hable, .inr ?_⟩) (fun _ => hkept)
        fun p _ hable => ?_
      · exact .inr ⟨Option.isNone_iff_eq_none.mp hable, hlist, hroot, hempty, hcreate⟩
      · split
        · exact kept_create hkept hable
        · exact hkept
    · rw [if_pos (by simpa using hempty)]
      have hmig := hold ⟨hsocket, hdocker, hlist, hunseen, hroot, hempty⟩
      exact Prog.wp_mono (wp_migrate hkept hmig) (fun _ _ h => ⟨h.kept, .inl h⟩) fun _ _ h => h
  unfold convergeDataset
  rw [Prog.wp_bind]
  refine wp_datasetExists (fun hlist => ?_) (fun hlist hnot => ?_) fun _ => hkept
  · cases hd : s.dataset with
    | none =>
      rw [Option.isSome_none, if_neg (by simp)]
      exact hbranch (by simp [hlist]) fun _ => hd
    | some d =>
      rw [Option.isSome_some, if_pos rfl]
      refine wp_command (fun hmount _ => ⟨kept_mount hkept, .inr (.inl ⟨by simp [hd], hlist, hmount⟩)⟩)
        (fun _ => hkept) fun p _ _ => ?_
      split
      · exact kept_mount hkept
      · exact hkept
  · rw [if_neg (by simp)]
    exact hbranch hlist fun h => absurd h hnot

/-- A run keeps every file, and if it returns `True` every file is in place, or it came there without
a migration. -/
theorem wp_prepare {ready : Bool} (hkept : Kept files s)
    (hold : ready → Migrates fate s →
      files ∩ removed s (fate .removeStale) ⊆ s.plain ∪ s.stored) :
    Prog.wp (prepareDockerStorage fate ready)
      (fun r s' => Kept files s' ∧ (r = true → InPlace files s' ∨ ready ∧ Skips fate s))
      (fun _ => Kept files) s := by
  unfold prepareDockerStorage
  cases ready with
  | false => exact ⟨hkept, nofun⟩
  | true =>
    rw [if_pos rfl, Prog.wp_bind, wp_unheeded]
    refine ⟨fun hsocket => ?_, fun _ => hkept⟩
    rw [Prog.wp_bind, wp_unheeded]
    refine ⟨fun hdocker => ?_, fun _ => hkept⟩
    rw [Prog.wp_bind]
    refine Prog.wp_mono (wp_converge hsocket hdocker hkept (hold rfl)) (fun _ s' hs' => ?_)
      fun _ _ h => h
    rw [Prog.wp_bind]
    refine wp_command (fun hquota _ => ⟨hs'.1, fun _ => ?_⟩) (fun _ => hs'.1)
      fun _ _ _ => hs'.1
    exact hs'.2.imp_right fun hsettles => ⟨rfl, hsocket, hdocker, hsettles, hquota⟩

/-! ## Runs that go wrong -/

/-- The branch of a run that gets to it. -/
theorem wp_reach {Q : Bool → Storage F → Prop} (hsocket : (fate .stopSocket).Survived)
    (hdocker : (fate .stopDocker).Survived)
    (h : Prog.wp (convergeDataset fate)
      (fun _ s' => Prog.wp (do
        check (fate .quota) (.runtimeError "could not set quota on")
        return true) Q E s') E s) :
    Prog.wp (prepareDockerStorage fate true) Q E s := by
  unfold prepareDockerStorage
  rw [if_pos rfl, Prog.wp_bind, wp_unheeded]
  refine ⟨fun _ => ?_, absurd hsocket⟩
  rw [Prog.wp_bind, wp_unheeded]
  refine ⟨fun _ => ?_, absurd hdocker⟩
  rw [Prog.wp_bind]
  exact h

/-- The branch of a run that sees no dataset. -/
theorem wp_converge_unseen (hlist : (fate .list).Survived)
    (hunseen : fate .list = .done → s.dataset = none) (hroot : fate .makeRoot = .done)
    (h : Prog.wp (if s.root ≠ ∅ then migrateDataRootIntoDataset fate else createDockerDataset fate)
      Q E s) : Prog.wp (convergeDataset fate) Q E s := by
  have hrest : Prog.wp (do
        check (fate .makeRoot) .osError
        if ← Prog.read fun s => decide (s.root ≠ ∅) then migrateDataRootIntoDataset fate
        else createDockerDataset fate) Q E s := by
    rw [Prog.wp_bind, hroot, wp_check]
    rw [Prog.wp_bind, Prog.wp_read]
    simpa using h
  unfold convergeDataset
  rw [Prog.wp_bind]
  refine wp_datasetExists (fun hdone => ?_) (fun _ _ => ?_) (absurd hlist)
  · rw [hunseen hdone, Option.isSome_none, if_neg (by simp)]
    exact hrest
  · rw [if_neg (by simp)]
    exact hrest

/-- What a migration removes of an earlier run's directory is not there afterwards. -/
theorem wp_migrate_shrinks : Prog.wp (migrateDataRootIntoDataset fate)
    (fun _ => Shrinks (s.removeFiles (removed s (fate .removeStale))))
    (fun _ => Shrinks (s.removeFiles (removed s (fate .removeStale)))) s := by
  have hpart : ∀ p : Progress F, Shrinks (s.removeFiles (s.saved ∩ p.files)) (s.removeFiles p.files) := by
    intro p
    unfold Shrinks
    rw [Storage.content_removeFiles, Storage.content_removeFiles, Finset.sdiff_inter_self_left]
  unfold migrateDataRootIntoDataset
  rw [Prog.wp_bind, Prog.wp_read]
  cases hb : s.backup with
  | none =>
    have hsame : s.removeFiles (removed s (fate .removeStale)) = s := by
      simp only [Storage.removeFiles, hb, Option.map_none]
      rw [← hb]
    rw [hsame]
    exact Prog.Respects.wp shrinks_moveIntoDataset s
  | some b =>
    rw [Option.isSome_some, if_pos rfl, Prog.wp_bind]
    refine wp_command (fun _ _ => ?_) (absurd (by simp [hb])) fun p hp _ => ?_
    · have hremoved : Shrinks (s.removeFiles (removed s (fate .removeStale))) s.removeBackup := by
        unfold Shrinks
        rw [Storage.content_removeBackup]
        exact plain_union_stored_subset (s := s.removeFiles _)
      exact Prog.wp_mono (Prog.Respects.wp shrinks_moveIntoDataset s.removeBackup)
        (fun _ _ h => trans_of Shrinks hremoved h) fun _ _ h => trans_of Shrinks hremoved h
    · rcases hp with hp | hp
      · rw [hp]
        exact hpart p
      · rw [hp]
        exact hpart p

theorem after_migrates (h : Migrates fate s) :
    Shrinks (s.removeFiles (removed s (fate .removeStale)))
      ((prepareDockerStorage fate true).after s) := by
  refine Prog.wp_after.mp (wp_reach h.socket h.docker ?_)
  refine wp_converge_unseen h.listed h.unseen h.root ?_
  rw [if_pos h.occupied]
  refine Prog.wp_mono wp_migrate_shrinks (fun _ s' hs' => ?_) fun _ _ h => h
  rw [Prog.wp_bind]
  exact wp_command (fun _ _ => hs') (fun _ => hs') fun _ _ _ => hs'

/-- A run that gets through without a migration adds nothing to the dataset. -/
theorem wp_skips (h : Skips fate s) : Prog.wp (prepareDockerStorage fate true)
    (fun r s' => r = true ∧ s'.mounted ∧ s'.stored = s.stored) (fun _ _ => False) s := by
  have hquota : ∀ s' : Storage F, Prog.wp (do
        check (fate .quota) (.runtimeError "could not set quota on")
        return true : Prepare F Bool)
      (fun r s' => r = true ∧ s'.mounted ∧ s'.stored = s.stored) (fun _ _ => False) s' ↔
      s'.mounted ∧ s'.stored = s.stored := by
    intro s'
    rw [Prog.wp_bind, h.quota, wp_check]
    simp
  refine wp_reach h.socket h.docker ?_
  simp only [hquota]
  rcases h.settles with ⟨hsome, hlist, hmount⟩ | ⟨hnone, hlist, hroot, hempty, hcreate⟩
  · obtain ⟨d, hd⟩ := Option.isSome_iff_exists.mp hsome
    unfold convergeDataset
    rw [Prog.wp_bind]
    refine wp_datasetExists (fun _ => ?_) (fun _ hnot => absurd hlist hnot) fun hdied => ?_
    · rw [hd, Option.isSome_some, if_pos rfl]
      unfold mountDataset
      rw [wp_checked, hmount, wp_attempt_done, if_pos rfl, if_pos rfl]
      exact ⟨by simp [Storage.mounted, Storage.mount, hd], Storage.stored_mount⟩
    · exact hdied (by simp [hlist])
  · refine wp_converge_unseen hlist (fun _ => hnone) hroot ?_
    rw [if_neg (by simpa using hempty)]
    unfold createDockerDataset
    rw [wp_checked, hcreate, wp_attempt_done, hnone, Option.isNone_none, if_pos rfl, if_pos rfl]
    exact ⟨rfl, by simp [Storage.create, Storage.stored, hnone]⟩

/-! ## Every run -/

theorem removed_subset (f : Fate (Progress F)) : removed s f ⊆ s.saved := by
  cases f with
  | done => exact Finset.Subset.refl _
  | fails p | dies p => exact Finset.inter_subset_left

theorem removed_cut {f f' : Fate (Progress F)} (h : f.Cut f') : removed s f' ⊆ removed s f := by
  cases h with
  | whole => exact Finset.Subset.refl _
  | working p => exact Finset.inter_subset_left
  | failing hle => exact Finset.inter_subset_inter_left hle.1
  | dying hle => exact Finset.inter_subset_inter_left hle.1

section

variable {fate' : StorageStep → Fate (Progress F)}

omit [DecidableEq F] in
theorem Migrates.of_cut (hcut : ∀ i, (fate i).Cut (fate' i)) (h : Migrates fate' s) :
    Migrates fate s where
  socket := (hcut _).survived h.socket
  docker := (hcut _).survived h.docker
  listed := (hcut _).survived h.listed
  unseen hlist := h.unseen (by rw [(hcut _).eq_of_survived h.listed, hlist])
  root := (hcut _).eq_done h.root
  occupied := h.occupied

omit [DecidableEq F] in
theorem Skips.of_cut (hcut : ∀ i, (fate i).Cut (fate' i)) (h : Skips fate' s) : Skips fate s where
  socket := (hcut _).survived h.socket
  docker := (hcut _).survived h.docker
  settles := h.settles.imp
    (fun ⟨hsome, hlist, hmount⟩ => ⟨hsome, (hcut _).eq_done hlist, (hcut _).eq_done hmount⟩)
    fun ⟨hnone, hlist, hroot, hempty, hcreate⟩ =>
      ⟨hnone, (hcut _).survived hlist, (hcut _).eq_done hroot, hempty, (hcut _).eq_done hcreate⟩
  quota := (hcut _).eq_done h.quota

end

theorem Meets.cut {e e' : StorageEvent F} (h : Meets files s e) (hcut : e.Cut e') :
    Meets files s e' := by
  cases hcut with
  | write => trivial
  | prepare hcut =>
    intro hready
    obtain ⟨hold, hskips⟩ := h hready
    refine ⟨fun hm => ?_, fun hs => hskips (hs.of_cut hcut)⟩
    exact (Finset.inter_subset_inter_left (removed_cut (hcut _))).trans (hold (hm.of_cut hcut))

/-- One event: it keeps what the condition says, at every moment, and nothing less will do. -/
theorem preserved_iff {e : StorageEvent F} (hkept : Kept files s) :
    Preserved files s e ↔ Meets files s e := by
  constructor
  · intro h
    cases e with
    | write new => trivial
    | prepare ready fate =>
      intro hready
      subst hready
      constructor
      · intro hm
        have hafter := h.1 _ (.prepare fun i => .whole (fate i))
        have hleft := (kept_removeFiles_iff hkept).mp (hafter.trans (after_migrates hm))
        rwa [Finset.inter_eq_right.mpr (removed_subset _)] at hleft
      · intro hs
        obtain ⟨r, hr, htrue, -, hstored⟩ := Prog.wp_total (wp_skips hs)
        have hplace : InPlace files _ := h.2 (by rw [ReturnsTrue, hr, htrue])
        rw [← hstored]
        exact hplace.2
  · intro h
    constructor
    · intro e' hcut
      have h' := h.cut hcut
      cases hcut with
      | write new =>
        show files ⊆ (s.write new).content
        rw [Storage.content_write]
        exact hkept.trans Finset.subset_union_left
      | prepare hcut =>
        exact Prog.wp_after.mp (Prog.wp_mono (wp_prepare hkept fun hready => (h' hready).1)
          (fun _ _ h => h.1) fun _ _ h => h)
    · intro htrue
      cases e with
      | write new => cases htrue
      | prepare ready fate =>
        have hplace := (Prog.wp_returned (wp_prepare hkept fun hready => (h hready).1) htrue).2 rfl
        rcases hplace with hplace | ⟨hready, hskips⟩
        · exact hplace
        · subst hready
          obtain ⟨_, -, -, hmounted, hstored⟩ := Prog.wp_total (wp_skips hskips)
          exact ⟨hmounted, ((h rfl).2 hskips).trans hstored.symm.subset⟩

theorem along_preserved_iff {es : List (StorageEvent F)} (hkept : Kept files s) :
    Run.Along step (Preserved files) s es ↔ Run.Along step (Meets files) s es := by
  induction es generalizing s with
  | nil => exact Iff.rfl
  | cons e es ih =>
      rw [Run.along_cons, Run.along_cons, preserved_iff hkept]
      refine and_congr_right fun hmeets => ih ?_
      exact ((preserved_iff hkept).mpr hmeets).1 e e.cut_refl

/-- **What was in the data-root stays, and comes into the dataset.** In a run of Docker and of any
number of preparations, each going as far as it may, no file of the first data-root is gone at any
moment and a preparation that returns `True` has them all in place, if and only if no migration
removes a file that is nowhere else, and no preparation that gets through without a migration finds
a file outside of the dataset. -/
theorem data_root_preserved_iff (s : Storage F) (es : List (StorageEvent F)) :
    Run.Along step (Preserved s.root) s es ↔ Run.Along step (Meets s.root) s es := by
  refine along_preserved_iff ?_
  unfold Storage.root
  split
  · exact Finset.subset_union_right
  · exact Finset.subset_union_left.trans Finset.subset_union_left

end

/-- A run whose `zfs create` fails leaves the content in `.pre-zfs.bak`; Docker starts over in the
empty data-root, and the next run removes what was moved aside. -/
theorem data_root_discarded :
    let s : Storage Nat := ⟨{1}, none, none⟩
    let createFails : StorageEvent Nat :=
      .prepare true fun i => if i = .create then .fails ⟨∅, false, false⟩ else .done
    let undisturbed : StorageEvent Nat := .prepare true fun _ => .done
    Run.run step s [createFails] = ⟨∅, some {1}, none⟩ ∧
      Run.run step s [createFails, .write {2}, undisturbed] = ⟨∅, none, some ⟨{2}, true⟩⟩ ∧
      ¬ Run.Along step (Preserved s.root) s [createFails, .write {2}, undisturbed] := by
  refine ⟨by decide, by decide, fun h => ?_⟩
  exact absurd (h.2.2.1.1 _ (StorageEvent.cut_refl _)) (by decide)

end MassDeployment.HostPrep

import Mathlib.Tactic.ByContra
import MassDeployment.Lib.Faults

set_option autoImplicit false

/-! # Promoting a student's directory to a dataset (`studentops.py`)

A student with a quota has a dataset of their own, mounted where the plain directory was.
`ensureUserDataset` moves the directory aside, creates the dataset, copies the files back and
removes what it had moved aside. Between the rename and the end of the copy the moved directory is
the only complete copy; from the end of the copy on the dataset is another; and the removal takes
the first one apart file by file. The handler destroys the dataset in any case.

The state is what these commands change: the directory, the dataset over it, and the staged copy.
-/

namespace MassDeployment.Agent

open Procedure

structure File where
  name : String
  bytes : List UInt8
  deriving DecidableEq, Repr

/-- What there is of one student on one tier. -/
structure Storage where
  /-- The directory at the path, in the dataset of the lab; under a mounted dataset, its
  mountpoint. -/
  directory : Option (List File) := none
  /-- The dataset of the student, mounted at the path. -/
  dataset : Option (List File) := none
  quota : Option Int := none
  /-- What is at `<path>.student-quota-migration`. -/
  staged : Option (List File) := none
  deriving DecidableEq, Repr

/-- What is seen at the path. -/
def Storage.path (s : Storage) : Option (List File) := s.dataset <|> s.directory

/-- The files at the path. -/
def Storage.files (s : Storage) : List File := s.path.getD []

/-- How much of its work an unfinished command did: of one that acts at once, whether it acted; of
one that goes through the files, which it was through with. -/
structure Part where
  acted : Bool := false
  files : File → Bool := fun _ => false

inductive StorageError where
  | zfsError | osError | coldFsError
  | runtimeError (message : String)
  deriving DecidableEq, Repr

/-- The commands of the promotion, in order. -/
inductive Step where
  | rename | create | setQuota | setMountpoint | copy | own | removeStaged
  deriving DecidableEq, Repr

/-- The commands of its handler. -/
inductive Undo where
  | destroy | removeEmpty | renameBack
  deriving DecidableEq, Repr

abbrev Promotion := Procedure Storage StorageError

section

variable (fate : Step → Fate Part) (undo : Undo → Fate Part)

/-- `os.rename(path, staged)`. -/
def renameAside : Promotion Unit :=
  checked .osError (attempt (fate .rename) (fun s => s.directory.isSome)
    (fun s => { s with directory := none, staged := s.directory })
    fun part s => if part.acted then { s with directory := none, staged := s.directory } else s)

def setQuota (quota : Option Int) : Promotion Unit :=
  checked .zfsError (attempt (fate .setQuota) (fun s => s.dataset.isSome)
    (fun s => { s with quota }) fun part s => if part.acted then { s with quota } else s)

/-- `zfs create -p`: an empty dataset, mounted over a directory that is made where it is missing. -/
def Storage.withDataset (s : Storage) : Storage :=
  { s with dataset := some [], directory := some (s.directory.getD []) }

/-- `create_dataset`: the dataset, its quota, its mountpoint. -/
def createDataset (quota : Option Int) : Promotion Unit := do
  if !(← Prog.read fun s => s.dataset.isSome) then
    checked .zfsError (attempt (fate .create) (fun _ => true) Storage.withDataset
      fun part s => if part.acted then s.withDataset else s)
  if quota.isSome then setQuota fate quota
  checked .zfsError (attempt (fate .setMountpoint) (fun s => s.dataset.isSome) id fun _ => id)

/-- `cp -a staged/. path`: a file that is there under the name is replaced. -/
def Storage.copied (which : File → Bool) (s : Storage) : Storage :=
  let new := (s.staged.getD []).filter which
  let merged (old : List File) := old.filter (fun f => !(new.map File.name).contains f.name) ++ new
  match s.dataset with
  | some old => { s with dataset := some (merged old) }
  | none => { s with directory := some (merged (s.directory.getD [])) }

def copyBack : Promotion Unit :=
  checked (.runtimeError "could not copy student data into quota dataset")
    (attempt (fate .copy) (fun s => s.staged.isSome) (Storage.copied fun _ => true)
      fun part => Storage.copied part.files)

/-- The directory at the path, made where there is nothing. -/
def Storage.withPath (s : Storage) : Storage :=
  if s.path.isSome then s else { s with directory := some [] }

/-- `coldfs.ensure_owned_dir`. -/
def ensureOwnedDir : Promotion Unit :=
  checked .coldFsError (attempt (fate .own) (fun _ => true) Storage.withPath
    fun part s => if part.acted then s.withPath else s)

/-- `shutil.rmtree(staged)`: it goes through the files, and last removes the directory. -/
def removeStaged : Promotion Unit :=
  checked .osError (attempt (fate .removeStaged) (fun s => s.staged.isSome)
    (fun s => { s with staged := none })
    fun part s =>
      if part.acted then { s with staged := none }
      else { s with staged := s.staged.map (List.filter fun f => !part.files f) })

/-- `zfs destroy -r`: the mountpoint stays behind, empty. -/
def destroyDataset : Promotion Unit := do
  if ← Prog.read fun s => s.dataset.isSome then
    checked .zfsError (attempt (undo .destroy) (fun s => s.dataset.isSome)
      (fun s => { s with dataset := none, quota := none })
      fun part s => if part.acted then { s with dataset := none, quota := none } else s)

/-- `os.rmdir(path)`. -/
def removeEmpty : Promotion Unit :=
  checked .osError (attempt (undo .removeEmpty) (fun s => s.path == some [])
    (fun s => { s with directory := none })
    fun part s => if part.acted then { s with directory := none } else s)

/-- `os.rename(staged, path)`: an empty directory in its way is replaced. -/
def renameBack : Promotion Unit :=
  checked .osError (attempt (undo .renameBack) (fun s => s.staged.isSome && s.files == [])
    (fun s => { s with directory := s.staged, staged := none })
    fun part s => if part.acted then { s with directory := s.staged, staged := none } else s)

/-- The handler of the promotion: back to the directory. -/
def rollBack (hadData : Bool) (e : StorageError) : Promotion Unit := do
  destroyDataset undo
  if hadData && (← Prog.read fun s => s.staged.isSome) then
    if ← Prog.read fun s => s.path == some [] then removeEmpty undo
    renameBack undo
  raise e

/-- The `try` block of the promotion. -/
def fill (quota : Option Int) (hadData : Bool) : Promotion Unit := do
  createDataset fate quota
  if hadData then copyBack fate
  ensureOwnedDir fate
  if hadData then removeStaged fate

/-- Create a student's dataset, or promote the directory to one, where there is a quota. -/
def ensureUserDataset (path : String) (quota : Option Int) : Promotion Unit := do
  if ← Prog.read fun s => s.dataset.isSome then
    setQuota fate quota
    ensureOwnedDir fate
  else if quota.isNone then
    ensureOwnedDir fate
  else
    let staged := path ++ ".student-quota-migration"
    let hadData ← Prog.read fun s => s.path.isSome
    if ← Prog.read fun s => s.staged.isSome then
      raise (.runtimeError ("stale student quota migration path exists: " ++ staged))
    if hadData then renameAside fate
    rescue (fill fate quota hadData) (rollBack undo hadData)

end

/-! ## Calls with one mishap -/

/-- What befalls one call: nothing; one step fails, and the handler runs or dies; one step dies. -/
inductive Mishap where
  | none
  | fails (step : Step) (part : Part) (death : Option (Undo × Part))
  | dies (step : Step) (part : Part)

namespace Mishap

def fate : Mishap → Step → Fate Part
  | none, _ => .done
  | fails step part _, s => if s = step then .fails part else .done
  | dies step part, s => if s = step then .dies part else .done

def undo : Mishap → Undo → Fate Part
  | fails _ _ (some (u, part)), v => if v = u then .dies part else .done
  | _, _ => .done

/-- A call cut short at the step leaves no dataset, or one that holds all the files. -/
def Complete (c : List File) : Step → Part → Prop
  | .create, part => part.acted = false ∨ c = []
  | .setQuota, _ | .setMountpoint, _ => c = []
  | .copy, part => ∀ f ∈ c, part.files f = true
  | .rename, _ | .own, _ | .removeStaged, _ => True

/-- The handler dies with the dataset still there. -/
def cutFirst : Option (Undo × Part) → Bool
  | some (.destroy, cut) => !cut.acted
  | _ => false

/-- The call is not cut short while there is an unfinished dataset, and a removal of the staged copy
that fails has removed nothing when the handler destroys the dataset. -/
def Careful (c : List File) : Mishap → Prop
  | none => True
  | dies step part => Complete c step part
  | fails step part death =>
      if cutFirst death then Complete c step part
      else step = .removeStaged → ∀ f ∈ c, part.acted = false ∧ part.files f = false

end Mishap

/-- One call under a mishap. -/
def call (path : String) (quota : Option Int) (m : Mishap) : Promotion Unit :=
  ensureUserDataset m.fate m.undo path quota

/-- The call creates the dataset. -/
def Storage.Promotes (s : Storage) (quota : Option Int) : Prop :=
  s.dataset = none ∧ s.staged = none ∧ quota.isSome

/-- The files are safe: in the dataset if there is one, else in the directory or its staged copy. -/
def Storage.Safe (c : List File) (s : Storage) : Prop :=
  match s.dataset, s.staged with
  | some files, _ => files = c
  | none, some staged => ∀ f ∈ c, f ∈ s.files ∨ f ∈ staged
  | none, none => s.files = c

/-- Calls one after the other until one returns: after one that raises every file is at the path or
in the staged copy, and after one that returns the path holds them all. -/
def Kept (path : String) (quota : Option Int) (c : List File) : Storage → List Mishap → Prop
  | _, [] => True
  | s, m :: ms =>
    match (call path quota m).run s with
    | (.ok _, s') => s'.files = c
    | (.error (.raised _), s') =>
      (∀ f ∈ c, f ∈ s'.files ∨ f ∈ s'.staged.getD []) ∧ Kept path quota c s' ms
    | (.error .died, s') => Kept path quota c s' ms

/-- Every call of the run that promotes is careful. -/
def CarefulRun (path : String) (quota : Option Int) : Storage → List Mishap → Prop
  | _, [] => True
  | s, m :: ms => (s.Promotes quota → m.Careful s.files) ∧
      CarefulRun path quota ((call path quota m).after s) ms

/-! ## The promotion, step by step -/

section

variable {c : List File} {q : Option Int}

/-- Where a promotion stops at a step after the rename: the directory is an empty mountpoint or
gone, and the dataset, if there is one, is complete where `Complete` says so. -/
structure Storage.StoppedAt (c : List File) (step : Step) (part : Part) (s : Storage) : Prop where
  directory : s.directory.getD [] = []
  dataset : Mishap.Complete c step part ↔ s.dataset = none ∨ s.dataset = some c
  staged : step ≠ .removeStaged → s.staged = some c
  removing : step = .removeStaged → s.dataset = some c ∧ s.staged =
    if part.acted then none else some (c.filter fun f => !part.files f)

/-- The `try` block ends where its mishap stops it. -/
def Mishap.StopsAt (c : List File) (e : Fault StorageError) (s : Storage) : Mishap → Prop
  | none => False
  | fails step part _ => (∃ x, e = .raised x) ∧ s.StoppedAt c step part
  | dies step part => e = .died ∧ s.StoppedAt c step part

/-- One case for each step the mishap may strike; the others do their work. -/
theorem wp_fill (quota : Int) (m : Mishap) (hrename : m.fate .rename = .done) :
    Prog.wp (fill m.fate (some quota) true) (fun _ s' => s'.files = c ∧ m.Careful c)
      (fun e s' => m.StopsAt c e s') ⟨none, none, q, some c⟩ := by
  unfold fill createDataset copyBack ensureOwnedDir removeStaged setQuota
  rcases m with _ | ⟨step, part, death⟩ | ⟨step, part⟩
  · simp [Mishap.fate, Storage.withDataset, Storage.copied, Storage.withPath, Storage.path,
      Storage.files, Mishap.Careful]
  · cases step
    all_goals simp [Mishap.fate, Storage.withDataset, Storage.copied, Storage.withPath,
      Storage.path, Mishap.StopsAt] at hrename ⊢
    all_goals try split
    all_goals constructor
    all_goals simp [Mishap.Complete, *]
  · cases step
    all_goals simp [Mishap.fate, Storage.withDataset, Storage.copied, Storage.withPath,
      Storage.path, Mishap.StopsAt] at hrename ⊢
    all_goals try split
    all_goals constructor
    all_goals simp [Mishap.Complete, *]

/-- The handler puts the staged copy back, complete or not, unless it dies with the dataset still
there. -/
theorem wp_rollBack {step : Step} {part : Part} {death : Option (Undo × Part)} {e : StorageError}
    {dataset dir : Option (List File)} {staged : List File} (hdir : dir.getD [] = [])
    (hstaged : (∀ f ∈ c, f ∈ staged) → staged = c) :
    Prog.wp (rollBack (Mishap.fails step part death).undo true e) (fun _ _ => False)
      (fun _ s' => s'.Safe c ↔ if Mishap.cutFirst death ∧ dataset.isSome then dataset = some c
        else ∀ f ∈ c, f ∈ staged)
      ⟨dir, dataset, q, some staged⟩ := by
  have hback : staged = c ↔ ∀ f ∈ c, f ∈ staged := ⟨fun h f hf => h ▸ hf, hstaged⟩
  have hdir : dir = none ∨ dir = some [] := by
    rcases dir with _ | dir
    · exact .inl rfl
    · exact .inr (congrArg some hdir)
  unfold rollBack destroyDataset removeEmpty renameBack
  rcases death with _ | ⟨_ | _ | _, _ | _, gone⟩
  all_goals rcases dataset with _ | files
  all_goals rcases hdir with rfl | rfl
  all_goals simp only [Mishap.undo, Storage.path, Prog.wp_bind, Prog.wp_read, Prog.wp_ite,
    wp_checked, wp_attempt_done, wp_attempt_dies, wp_raise, Prog.wp_pure, Option.isSome_none,
    Option.isSome_some, Bool.false_eq_true, if_true, if_false, Bool.and_true, reduceCtorEq]
  all_goals simp [Storage.files, Storage.path, Mishap.cutFirst, Storage.Safe, hback]

/-- With the staged copy gone the handler destroys what there is. -/
theorem wp_rollBack_gone {step : Step} {part : Part} {death : Option (Undo × Part)}
    {e : StorageError} {dir : Option (List File)} (hdir : dir.getD [] = []) :
    Prog.wp (rollBack (Mishap.fails step part death).undo true e) (fun _ _ => False)
      (fun _ s' => s'.Safe c ↔ Mishap.cutFirst death ∨ c = []) ⟨dir, some c, q, none⟩ := by
  have hempty : [] = c ↔ c = [] := eq_comm
  unfold rollBack destroyDataset removeEmpty renameBack
  rcases death with _ | ⟨_ | _ | _, _ | _, gone⟩
  all_goals simp [Mishap.undo, Mishap.cutFirst, Storage.Safe, Storage.files, Storage.path, hdir,
    hempty]

/-- A promotion that dies at a step leaves the files safe exactly where the dataset is complete or
not yet there. -/
theorem Storage.StoppedAt.safe_iff {step : Step} {part : Part} {s : Storage}
    (h : s.StoppedAt c step part) : s.Safe c ↔ Mishap.Complete c step part := by
  rw [h.dataset]
  unfold Storage.Safe
  rcases hd : s.dataset with _ | files
  · have hstep : step ≠ .removeStaged := fun hs => by simp [(h.removing hs).1] at hd
    have hall : ∀ f ∈ c, f ∈ s.files ∨ f ∈ c := fun f hf => .inr hf
    simpa [h.staged hstep] using hall
  · simp

/-- **What the handler makes of a step that failed.** -/
theorem Storage.StoppedAt.wp_rollBack {step : Step} {part : Part} {death : Option (Undo × Part)}
    {e : StorageError} {s : Storage} (h : s.StoppedAt c step part) :
    Prog.wp (rollBack (Mishap.fails step part death).undo true e) (fun _ _ => False)
      (fun _ s' => s'.Safe c ↔ (Mishap.fails step part death).Careful c) s := by
  obtain ⟨dir, dataset, q, staged⟩ := s
  by_cases hstep : step = .removeStaged
  · obtain ⟨hdataset, hstaged⟩ := h.removing hstep
    subst hstep
    dsimp only at hdataset hstaged
    subst hdataset hstaged
    by_cases hacted : part.acted = true
    · rw [if_pos hacted]
      refine Prog.wp_mono (wp_rollBack_gone h.directory) (fun _ _ => id) fun _ s' hs' => ?_
      rw [hs']
      simp only [Mishap.Careful, Mishap.Complete, hacted, List.eq_nil_iff_forall_not_mem]
      cases Mishap.cutFirst death <;> simp
    · rw [if_neg hacted]
      have hkept : (∀ f ∈ c, f ∈ c.filter fun f => !part.files f) ↔
          ∀ f ∈ c, part.files f = false := by simp +contextual
      have hsame (hall : ∀ f ∈ c, f ∈ c.filter fun f => !part.files f) :
          c.filter (fun f => !part.files f) = c :=
        List.filter_eq_self.mpr fun f hf => by simp [hkept.mp hall f hf]
      refine Prog.wp_mono (MassDeployment.Agent.wp_rollBack h.directory hsame) (fun _ _ => id)
        fun _ s' hs' => ?_
      rw [hs', hkept]
      simp [Mishap.Careful, Mishap.Complete, hacted]
  · have hstaged := h.staged hstep
    dsimp only at hstaged
    subst hstaged
    refine Prog.wp_mono (MassDeployment.Agent.wp_rollBack h.directory fun _ => rfl)
      (fun _ _ => id) fun _ s' hs' => ?_
    rw [hs']
    have := h.dataset
    rcases dataset with _ | files
    · simp_all [Mishap.Careful]
    · simp_all [Mishap.Careful]

/-- **A promotion of a directory.** It returns with all the files at the path, or it leaves them
safe, exactly where its mishap is careful. -/
theorem wp_promote (path : String) (quota : Int) (m : Mishap) :
    Prog.wp (call path (some quota) m) (fun _ s' => s'.files = c ∧ m.Careful c)
      (fun _ s' => s'.Safe c ↔ m.Careful c) ⟨some c, none, q, none⟩ := by
  unfold call ensureUserDataset renameAside
  simp only [Prog.wp_bind, Prog.wp_ite, Prog.wp_read, wp_raise, wp_rescue, wp_checked,
    Storage.path, Option.isSome_none, Option.isNone_some, Bool.false_eq_true, if_false]
  by_cases hrename : m.fate .rename = .done
  · rw [hrename]
    simp
    refine Prog.wp_mono (wp_fill quota m hrename) (fun _ _ => id) fun e s' hs' => ?_
    rcases m with _ | ⟨step, part, death⟩ | ⟨step, part⟩
    · exact hs'.elim
    · obtain ⟨⟨x, rfl⟩, hstop⟩ := hs'
      exact Prog.wp_mono hstop.wp_rollBack (fun _ _ => False.elim) fun _ _ => id
    · obtain ⟨rfl, hstop⟩ := hs'
      exact hstop.safe_iff
  · -- the rename itself: the files are at the path or in the staged copy
    rcases m with _ | ⟨step, part, death⟩ | ⟨step, part⟩
    · exact absurd rfl hrename
    · obtain rfl : step = .rename :=
        Decidable.byContradiction fun hstep => hrename (if_neg (Ne.symm hstep))
      by_cases hacted : part.acted = true
      all_goals simp [Mishap.fate, hacted, Storage.Safe, Mishap.Careful, Mishap.Complete,
        Storage.files, Storage.path]
    · obtain rfl : step = .rename :=
        Decidable.byContradiction fun hstep => hrename (if_neg (Ne.symm hstep))
      by_cases hacted : part.acted = true
      all_goals simp [Mishap.fate, hacted, Storage.Safe, Mishap.Careful, Mishap.Complete,
        Storage.files, Storage.path]

/-! ## Every call -/

/-- With nothing in the directory there is nothing to lose. -/
theorem Mishap.careful_nil (m : Mishap) : m.Careful [] := by
  rcases m with _ | ⟨step, part, death⟩ | ⟨step, part⟩
  · trivial
  · cases step <;> simp [Mishap.Careful, Mishap.Complete]
  · cases step <;> simp [Mishap.Careful, Mishap.Complete]

/-- There is no file anywhere. -/
def Storage.Empty (s : Storage) : Prop :=
  s.dataset.getD [] = [] ∧ s.directory.getD [] = [] ∧ s.staged = none

theorem Storage.Empty.files {s : Storage} (h : s.Empty) : s.files = [] := by
  obtain ⟨dir, _ | files, q, staged⟩ := s
  · exact h.2.1
  · exact h.1

theorem Storage.Empty.safe {s : Storage} (h : s.Empty) : s.Safe [] := by
  have hfiles := h.files
  obtain ⟨dir, _ | files, q, staged⟩ := s
  · obtain rfl : staged = none := h.2.2
    exact hfiles
  · exact h.1

section

variable (fate : Step → Fate Part) (undo : Undo → Fate Part)

theorem empty_setQuota (quota : Option Int) :
    Prog.Respects (Prog.Keeping Storage.Empty) (setQuota fate quota) :=
  respects_checked (respects_attempt (fun _ _ h => h) fun p s _ h => by
    split
    · exact h
    · exact h)

theorem empty_createDataset (quota : Option Int) :
    Prog.Respects (Prog.Keeping Storage.Empty) (createDataset fate quota) := by
  have hcreate : Prog.Respects (Prog.Keeping Storage.Empty) (checked StorageError.zfsError
      (attempt (fate .create) (fun _ => true) Storage.withDataset
        fun part s => if part.acted then s.withDataset else s)) :=
    respects_checked (respects_attempt (fun _ _ h => ⟨rfl, h.2⟩) fun p s _ h => by
      split
      · exact ⟨rfl, h.2⟩
      · exact h)
  have hmount : Prog.Respects (Prog.Keeping Storage.Empty) (checked StorageError.zfsError
      (attempt (fate .setMountpoint) (fun s => s.dataset.isSome) id fun _ => id)) :=
    respects_checked (respects_attempt (fun _ _ h => h) fun _ _ _ h => h)
  -- what follows the creation, whether or not there is anything to create
  have hrest : Prog.Respects (Prog.Keeping Storage.Empty) (if quota.isSome then do
        setQuota fate quota
        checked StorageError.zfsError
          (attempt (fate .setMountpoint) (fun s => s.dataset.isSome) id fun _ => id)
      else checked StorageError.zfsError
        (attempt (fate .setMountpoint) (fun s => s.dataset.isSome) id fun _ => id)) :=
    .ite (fun _ => .bind (empty_setQuota fate quota) fun _ => hmount) fun _ => hmount
  exact .bind (.read _) fun _ => .ite (fun _ => .bind hcreate fun _ => hrest) fun _ => hrest

theorem Storage.Empty.withPath {s : Storage} (h : s.Empty) : s.withPath.Empty := by
  unfold Storage.withPath
  split
  · exact h
  · exact ⟨h.1, rfl, h.2.2⟩

theorem empty_ensureOwnedDir : Prog.Respects (Prog.Keeping Storage.Empty) (ensureOwnedDir fate) :=
  respects_checked (respects_attempt (fun _ _ h => h.withPath) fun p s _ h => by
    split
    · exact h.withPath
    · exact h)

theorem empty_destroyDataset : Prog.Respects (Prog.Keeping Storage.Empty) (destroyDataset undo) :=
  .bind (.read _) fun _ => .ite (fun _ => respects_checked (respects_attempt
    (fun _ _ h => ⟨rfl, h.2⟩) fun p s _ h => by
      split
      · exact ⟨rfl, h.2⟩
      · exact h)) fun _ => .pure ()

/-- A first call for a student without a directory leaves no file behind either. -/
theorem empty_first (quota : Option Int) : Prog.Respects (Prog.Keeping Storage.Empty)
    (rescue (fill fate quota false) (rollBack undo false)) :=
  respects_rescue
    (.bind (empty_createDataset fate quota) fun _ => .bind (empty_ensureOwnedDir fate) fun _ =>
      .pure ())
    fun _ => .bind (empty_destroyDataset undo) fun _ => .bind (.read _) fun _ => .throw _

end

theorem wp_first (path : String) (quota : Int) (m : Mishap) :
    Prog.wp (call path (some quota) m) (fun _ s' => s'.Empty) (fun _ s' => s'.Empty)
      ⟨none, none, q, none⟩ := by
  have hrun : (call path (some quota) m).run ⟨none, none, q, none⟩ =
      (rescue (fill m.fate (some quota) false) (rollBack m.undo false)).run ⟨none, none, q, none⟩ := by
    simp [call, ensureUserDataset, Storage.path]
  unfold Prog.wp
  rw [hrun]
  refine Prog.wp_mono ((empty_first m.fate m.undo (some quota)).wp _) (fun _ s' hs' => ?_)
    fun _ s' hs' => ?_
  all_goals exact hs' ⟨rfl, rfl, rfl⟩

/-- The calls that leave the files where they are. -/
def Storage.SameFiles (s s' : Storage) : Prop :=
  s'.dataset = s.dataset ∧ s'.staged = s.staged ∧ s'.files = s.files

instance : IsPreorder Storage Storage.SameFiles where
  refl _ := ⟨rfl, rfl, rfl⟩
  trans _ _ _ h h' := ⟨h'.1.trans h.1, h'.2.1.trans h.2.1, h'.2.2.trans h.2.2⟩

theorem Storage.sameFiles_withPath (s : Storage) : s.SameFiles s.withPath := by
  obtain ⟨_ | dir, _ | files, q, staged⟩ := s <;> exact ⟨rfl, rfl, rfl⟩

theorem respects_setQuota (fate : Step → Fate Part) (quota : Option Int) :
    Prog.Respects Storage.SameFiles (setQuota fate quota) :=
  respects_checked (respects_attempt (fun _ _ => ⟨rfl, rfl, rfl⟩) fun p s _ => by
    split
    · exact ⟨rfl, rfl, rfl⟩
    · exact refl_of Storage.SameFiles s)

theorem respects_ensureOwnedDir (fate : Step → Fate Part) :
    Prog.Respects Storage.SameFiles (ensureOwnedDir fate) :=
  respects_checked (respects_attempt (fun s _ => s.sameFiles_withPath) fun p s _ => by
    split
    · exact s.sameFiles_withPath
    · exact refl_of Storage.SameFiles s)

/-- A call that finds the dataset, or has no quota to give, leaves the files where they are. -/
theorem wp_settled (path : String) {quota : Option Int} (m : Mishap) {s : Storage}
    (h : s.dataset.isSome ∨ quota = none) :
    Prog.wp (call path quota m) (fun _ s' => s.SameFiles s') (fun _ s' => s.SameFiles s') s := by
  by_cases hdataset : s.dataset.isSome
  · have hrun : (call path quota m).run s =
        (setQuota m.fate quota >>= fun _ => ensureOwnedDir m.fate).run s := by
      simp [call, ensureUserDataset, hdataset]
    unfold Prog.wp
    rw [hrun]
    exact (Prog.Respects.bind (respects_setQuota m.fate quota)
      fun _ => respects_ensureOwnedDir m.fate).wp s
  · obtain rfl := h.resolve_left hdataset
    have hrun : (call path none m).run s = (ensureOwnedDir m.fate).run s := by
      simp [call, ensureUserDataset, hdataset]
    unfold Prog.wp
    rw [hrun]
    exact (respects_ensureOwnedDir m.fate).wp s

/-- A call that finds a staged copy and no dataset is refused. -/
theorem wp_refused (path : String) (quota : Int) (m : Mishap) {s : Storage}
    (hdataset : s.dataset = none) (hstaged : s.staged.isSome) :
    Prog.wp (call path (some quota) m) (fun _ _ => False)
      (fun e s' => (∃ x, e = .raised x) ∧ s' = s) s := by
  simp [call, ensureUserDataset, hdataset, hstaged]

theorem Storage.SameFiles.safe {s s' : Storage} (h : s.SameFiles s') (hs : s.Safe c) :
    s'.Safe c := by
  unfold Storage.Safe at hs ⊢
  rw [h.1, h.2.1, h.2.2]
  exact hs

/-- **A call keeps the files safe.** One case for each branch of the call. -/
theorem wp_call (path : String) {quota : Option Int} {m : Mishap} {s : Storage} (hsafe : s.Safe c)
    (hflat : quota = none → s.files = c) (hcare : s.Promotes quota → m.Careful c) :
    Prog.wp (call path quota m) (fun _ s' => s'.files = c)
      (fun _ s' => s'.Safe c ∧ (quota = none → s'.files = c)) s := by
  by_cases hsettled : s.dataset.isSome ∨ quota = none
  · have hfiles : s.files = c := by
      rcases hsettled with hdataset | hquota
      · obtain ⟨files, hfiles⟩ := Option.isSome_iff_exists.mp hdataset
        simpa [Storage.Safe, Storage.files, Storage.path, hfiles] using hsafe
      · exact hflat hquota
    exact Prog.wp_mono (wp_settled path m hsettled) (fun _ s' hs' => hs'.2.2.trans hfiles)
      fun _ s' hs' => ⟨hs'.safe hsafe, fun _ => hs'.2.2.trans hfiles⟩
  obtain ⟨hdataset, hquota⟩ := not_or.mp hsettled
  obtain ⟨quota, rfl⟩ := Option.ne_none_iff_exists'.mp hquota
  rcases s with ⟨dir, _ | dataset, q, staged⟩
  · rcases staged with _ | staged
    · have hm := hcare ⟨rfl, rfl, rfl⟩
      rcases dir with _ | dir
      · obtain rfl : c = [] := hsafe.symm
        refine Prog.wp_mono (wp_first path quota m) (fun _ s' hs' => hs'.files)
          fun _ s' hs' => ⟨hs'.safe, nofun⟩
      · obtain rfl : dir = c := hsafe
        exact Prog.wp_mono (wp_promote path quota m) (fun _ s' hs' => hs'.1)
          fun _ s' hs' => ⟨hs'.mpr hm, nofun⟩
    · refine Prog.wp_mono (wp_refused path quota m rfl rfl) (fun _ _ => False.elim) ?_
      rintro _ _ ⟨-, rfl⟩
      exact ⟨hsafe, nofun⟩
  · exact absurd rfl hdataset

/-! ## Runs of calls -/

variable {path : String} {quota : Option Int} {s : Storage} {m : Mishap} {ms : List Mishap}

theorem kept_cons : Kept path quota c s (m :: ms) ↔
    Prog.wp (call path quota m) (fun _ s' => s'.files = c)
      (fun e s' => ((∃ x, e = .raised x) → ∀ f ∈ c, f ∈ s'.files ∨ f ∈ s'.staged.getD []) ∧
        Kept path quota c s' ms) s := by
  rw [Kept, Prog.wp]
  rcases (call path quota m).run s with ⟨(e | _) | _, s'⟩ <;> simp

theorem carefulRun_cons : CarefulRun path quota s (m :: ms) ↔
    (s.Promotes quota → m.Careful s.files) ∧
      CarefulRun path quota ((call path quota m).after s) ms := Iff.rfl

/-- Files that are safe are at the path or in the staged copy. -/
theorem Storage.Safe.present (h : s.Safe c) : ∀ f ∈ c, f ∈ s.files ∨ f ∈ s.staged.getD [] := by
  obtain ⟨dir, _ | files, q, _ | staged⟩ := s
  · obtain rfl : _ = c := h
    exact fun f hf => .inl hf
  · exact h
  · obtain rfl : _ = c := h
    exact fun f hf => .inl hf
  · obtain rfl : _ = c := h
    exact fun f hf => .inl hf

/-- The files at the path are safe to begin with. -/
theorem Storage.safe_files (s : Storage) : s.Safe s.files := by
  obtain ⟨dir, _ | files, q, _ | staged⟩ := s
  · rfl
  · exact fun f hf => .inl hf
  · rfl
  · rfl

/-- A promotion starts from the files themselves. -/
theorem Storage.Promotes.files (h : s.Promotes quota) (hsafe : s.Safe c) : s.files = c := by
  obtain ⟨dir, dataset, q, staged⟩ := s
  obtain ⟨rfl, rfl, -⟩ := h
  exact hsafe

/-- **Careful runs keep the files**: what one call keeps, the run keeps. -/
theorem kept_of_careful (hsafe : s.Safe c) (hflat : quota = none → s.files = c)
    (h : CarefulRun path quota s ms) : Kept path quota c s ms := by
  induction ms generalizing s with
  | nil => trivial
  | cons m ms ih =>
      rw [carefulRun_cons] at h
      have hcall : Prog.wp (call path quota m) (fun _ s' => s'.files = c)
          (fun _ s' => s'.Safe c ∧ (quota = none → s'.files = c)) s :=
        wp_call path hsafe hflat fun hp => hp.files hsafe ▸ h.1 hp
      rw [kept_cons]
      unfold Prog.wp at hcall ⊢
      have hrest := h.2
      unfold Prog.after at hrest
      rcases hr : (call path quota m).run s with ⟨e | _, s'⟩
      · rw [hr] at hcall hrest
        exact ⟨fun _ => hcall.1.present, ih hcall.1 hcall.2 hrest⟩
      · rw [hr] at hcall
        exact hcall

/-- A call that nothing befalls returns with the files it found, unless it finds a staged copy. -/
theorem wp_undisturbed {quota : Int} (h : s.dataset.isSome ∨ s.staged = none) :
    Prog.wp (call path (some quota) .none) (fun _ s' => s'.files = s.files) (fun _ _ => False) s := by
  rcases s with ⟨dir, _ | files, q, staged⟩
  · obtain rfl : staged = none := h.resolve_left Bool.false_ne_true
    rcases dir with _ | c
    · simp [call, ensureUserDataset, fill, createDataset, setQuota, ensureOwnedDir, Mishap.fate,
        Storage.withDataset, Storage.withPath, Storage.path, Storage.files]
    · have hfill : Prog.wp (fill Mishap.none.fate (some quota) true) (fun _ s' => s'.files = c)
          (fun _ _ => False) ⟨none, none, q, some c⟩ :=
        Prog.wp_mono (wp_fill quota .none rfl) (fun _ _ => And.left) fun _ _ => id
      simp only [call, ensureUserDataset, renameAside, Prog.wp_bind, Prog.wp_ite, Prog.wp_read,
        wp_rescue, wp_checked, Storage.path, Option.isSome_none, Option.isNone_some,
        Bool.false_eq_true, if_false]
      rw [show Mishap.none.fate .rename = .done from rfl]
      simp
      exact Prog.wp_mono hfill (fun _ _ => id) fun _ _ => False.elim
  · simp [call, ensureUserDataset, setQuota, ensureOwnedDir, Mishap.fate, Storage.withPath,
      Storage.path, Storage.files]

/-- Files that are not safe are lost by the next call, even if nothing befalls it. -/
theorem not_kept_of_not_safe {quota : Int} (hlost : ¬ s.Safe c) :
    ¬ Kept path (some quota) c s [.none] := by
  rw [kept_cons]
  intro hkept
  by_cases hready : s.dataset.isSome ∨ s.staged = none
  · -- the call returns with what is at the path
    have hfiles : s.files = c := by
      rcases Prog.wp_ends (Prog.wp_and hkept (wp_undisturbed hready)) with
        ⟨_, s', hc, hs⟩ | ⟨_, _, _, hfalse⟩
      · exact hs.symm.trans hc
      · exact hfalse.elim
    apply hlost
    rcases s with ⟨dir, _ | files, q, _ | staged⟩
    · exact hfiles
    · simp at hready
    · exact hfiles
    · exact hfiles
  · -- the call is refused, and the files were not there before it
    obtain ⟨hdataset, hstaged⟩ := not_or.mp hready
    rcases s with ⟨dir, _ | files, q, _ | staged⟩
    · exact hstaged rfl
    · rcases Prog.wp_ends (Prog.wp_and hkept (wp_refused path quota .none rfl rfl)) with
        ⟨_, _, _, hfalse⟩ | ⟨_, _, ⟨hpresent, -⟩, hraised, rfl⟩
      · exact hfalse
      · exact hlost (hpresent hraised)
    · exact hdataset rfl
    · exact hdataset rfl

end

/-- **A promotion loses files in two ways only**: it is cut short with an unfinished dataset in
place, or the removal of the staged copy fails halfway and the handler destroys the dataset. A call
that begins with the files at the path is careful exactly where, whatever careful calls follow it,
every file is at the path or in the staged copy after each call that raises, and all are at the path
after the one that returns. -/
theorem promotion_keeps_files_iff (path : String) (quota : Option Int) (s : Storage) (m : Mishap) :
    (∀ ms, CarefulRun path quota ((call path quota m).after s) ms →
        Kept path quota s.files s (m :: ms)) ↔
      (s.Promotes quota → m.Careful s.files) := by
  constructor
  · intro hkept hpromotes
    obtain ⟨dir, dataset, q, staged⟩ := s
    obtain ⟨rfl, rfl, hquota⟩ := hpromotes
    obtain ⟨quota, rfl⟩ := Option.isSome_iff_exists.mp hquota
    rcases dir with _ | c
    · exact m.careful_nil
    · by_contra hcareless
      -- one more call, and nothing befalls it
      have hrun := hkept [.none] ⟨fun _ => trivial, trivial⟩
      rw [kept_cons] at hrun
      rcases Prog.wp_ends (Prog.wp_and hrun (wp_promote path quota m)) with
        ⟨_, _, _, _, hcare⟩ | ⟨_, s', ⟨-, hagain⟩, hsafe⟩
      · exact hcareless hcare
      · exact not_kept_of_not_safe (fun h => hcareless (hsafe.mp h)) hagain
  · intro hcare ms hms
    exact kept_of_careful s.safe_files (fun _ => rfl) (carefulRun_cons.mpr ⟨hcare, hms⟩)

/-- The file of a student. -/
def workFile : File := ⟨"work.txt", [112]⟩

/-- The removal of the staged copy fails after it removed the file: the handler destroys the dataset
and puts an empty directory back. And a crash in the copy: the next call returns, and the file is not
at the path. -/
theorem promotion_loses_work :
    (∃ e s', (call "/fast/bio/alice" (some 500)
        (.fails .removeStaged { files := fun _ => true } none)).run { directory := some [workFile] } =
        (.error (.raised e), s') ∧ workFile ∉ s'.files ∧ workFile ∉ s'.staged.getD []) ∧
    ∃ s' s'', (call "/fast/bio/alice" (some 500) (.dies .copy {})).run
        { directory := some [workFile] } = (.error .died, s') ∧
      (call "/fast/bio/alice" (some 500) .none).run s' = (.ok (), s'') ∧ workFile ∉ s''.files := by
  refine ⟨⟨.osError, { directory := some [] }, by rfl, by decide, by decide⟩, ?_⟩
  exact ⟨⟨some [], some [], some 500, some [workFile]⟩, ⟨some [], some [], some 500, some [workFile]⟩,
    by rfl, by rfl, by decide⟩

end MassDeployment.Agent

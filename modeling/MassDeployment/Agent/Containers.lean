import Mathlib.Logic.Function.Basic
import MassDeployment.Lib.Faults

set_option autoImplicit false

/-! # Lab containers (`executors/docker.py`, `containerops.py`, `labops.py`)

What the handlers of lab tasks do to the containers of a node, and to the record of when a lab was
last patched (`maintenance_state.py`). A container is known by the name it has at the time and is
itself by its id. Every command may fail or die; those that act on nothing the node shows (the image,
the mountpoints, the storage of a student) are checks.

A recreate stops the container, moves it aside as `<name>-old`, starts a candidate under the name and
then removes the one moved aside. Its two handlers move it back.
-/

namespace MassDeployment.Agent

open Procedure

structure Container where
  id : Nat
  running : Bool
  deriving DecidableEq, Repr

/-- The containers of a node by name, and the `maintenance_state` file. Ids are given out once. -/
structure Node where
  containers : String → Option Container
  nextId : Nat
  /-- `last_apt_upgrade_at` of a lab. -/
  lastAptUpgrade : String → Option Int
  fresh : ∀ name c, containers name = some c → c.id < nextId

namespace Node

/-- Let something else be under the name. -/
def put (name : String) (o : Option Container) (n : Node) (h : ∀ c, o = some c → c.id < n.nextId) :
    Node where
  containers := Function.update n.containers name o
  nextId := n.nextId
  lastAptUpgrade := n.lastAptUpgrade
  fresh other c hc := by
    by_cases hname : other = name
    · subst hname
      rw [Function.update_self] at hc
      exact h c hc
    · rw [Function.update_of_ne hname] at hc
      exact n.fresh other c hc

/-- `docker rm -f`. -/
def remove (name : String) (n : Node) : Node := n.put name none nofun

/-- `docker stop` and `docker start`. -/
def setRunning (name : String) (running : Bool) (n : Node) : Node :=
  n.put name ((n.containers name).map fun c => { c with running }) (by
    intro c hc
    obtain ⟨c', hc', rfl⟩ := Option.map_eq_some_iff.mp hc
    exact n.fresh name c' hc')

/-- `docker rename`. -/
def rename (old new : String) (n : Node) : Node :=
  (n.put new (n.containers old) fun c hc => n.fresh old c hc).put old none nofun

/-- `docker run -d`: a new container; one that was created may not have been started. -/
def create (name : String) (running : Bool) (n : Node) : Node where
  containers := Function.update n.containers name (some ⟨n.nextId, running⟩)
  nextId := n.nextId + 1
  lastAptUpgrade := n.lastAptUpgrade
  fresh other c hc := by
    by_cases hname : other = name
    · subst hname
      rw [Function.update_self] at hc
      obtain rfl := Option.some.inj hc
      exact Nat.lt_succ_self _
    · rw [Function.update_of_ne hname] at hc
      exact Nat.lt_succ_of_lt (n.fresh other c hc)

/-- `record_apt_upgrade`. -/
def recordAptUpgrade (lab : String) (when : Int) (n : Node) : Node :=
  { n with lastAptUpgrade := Function.update n.lastAptUpgrade lab (some when) }

/-- The container is running under the name. -/
def Runs (n : Node) (name : String) (id : Nat) : Prop := n.containers name = some ⟨id, true⟩

/-- The container is there under the name, running or not. -/
def Holds (n : Node) (name : String) (id : Nat) : Prop := ∃ running, n.containers name = some ⟨id, running⟩

instance (n : Node) (name : String) (id : Nat) : Decidable (n.Runs name id) :=
  inferInstanceAs (Decidable (_ = _))

end Node

/-! ## Commands -/

/-- How much of its work an unfinished command did: whether it acted, and whether a container that
it created was started. -/
structure Extent where
  acted : Bool := false
  started : Bool := false
  deriving DecidableEq, Repr

inductive HandlerError where
  | dockerError | zfsError | storageError | valueError | osError
  deriving DecidableEq, Repr

abbrev Handler := Procedure Node HandlerError

/-- A command that acts at once or not at all. -/
def act (fate : Fate Extent) (able : Node → Bool) (work : Node → Node) : Handler Bool :=
  attempt fate able work fun extent n => if extent.acted then work n else n

def containerExists (name : String) : Handler Bool := Prog.read fun n => (n.containers name).isSome

def removeContainer (fate : Fate Extent) (name : String) : Handler Unit := do
  if ← containerExists name then
    checked .dockerError (act fate (fun n => (n.containers name).isSome) (Node.remove name))

/-- `docker run`: the name must be free. -/
def createContainer (fate : Fate Extent) (name : String) : Handler Unit :=
  checked .dockerError (attempt fate (fun n => (n.containers name).isNone) (Node.create name true)
    fun extent n => if extent.acted then n.create name extent.started else n)

/-- The new name must be free. -/
def renameContainer (fate : Fate Extent) (old new : String) : Handler Unit :=
  checked .dockerError (act fate
    (fun n => (n.containers old).isSome && (n.containers new).isNone) (Node.rename old new))

/-- Whether it went through is not looked at. -/
def stopContainer (fate : Fate Extent) (name : String) : Handler Unit := do
  let _ ← act fate (fun n => (n.containers name).isSome) (Node.setRunning name false)

def startContainer (fate : Fate Extent) (name : String) : Handler Unit :=
  checked .dockerError (act fate (fun n => (n.containers name).isSome) (Node.setRunning name true))

/-- `wait_ssh_ready`: whether sshd answers in the container that is running. -/
def waitSshReady (fate : Fate Extent) (name : String) : Handler Bool :=
  act fate (fun n => (n.containers name).any Container.running) id

def markUnpatched (fate : Fate Extent) (lab : String) : Handler Unit :=
  checked .osError (act fate (fun _ => true) (Node.recordAptUpgrade lab 0))

def containerName (lab node : String) : String := lab ++ "-" ++ node

def preserved (name : String) : String := name ++ "-old"

/-! ## `lab.create` and `lab.destroy` -/

inductive CreateStep where
  | nodeReady | datasets | options | mounts | nodeReadyAgain | image | removeOld | run | ready
  | cleanup | usage
  deriving DecidableEq, Repr

/-- `ensure_container`: whatever is under the name is replaced. -/
def ensureContainer (fate : CreateStep → Fate Extent) (name : String) : Handler Unit := do
  check (fate .options) .valueError
  check (fate .mounts) .zfsError
  check (fate .nodeReadyAgain) .dockerError
  check (fate .image) .dockerError
  removeContainer (fate .removeOld) name
  createContainer (fate .run) name
  if !(← waitSshReady (fate .ready) name) then
    removeContainer (fate .cleanup) name
    raise .dockerError

/-- `create_lab`: the datasets, the container, and the usage that is reported. -/
def createLab (fate : CreateStep → Fate Extent) (name : String) : Handler Unit := do
  check (fate .nodeReady) .dockerError
  check (fate .datasets) .zfsError
  ensureContainer fate name
  check (fate .usage) .zfsError

inductive DestroyStep where
  | removeContainer | destroyDatasets
  deriving DecidableEq, Repr

/-- `destroy_lab`: the container first. -/
def destroyLab (fate : DestroyStep → Fate Extent) (name : String) : Handler Unit := do
  removeContainer (fate .removeContainer) name
  check (fate .destroyDatasets) .zfsError

/-! ## `container.recreate` -/

inductive RecreateStep where
  | options | mounts | nodeReady | image
  | stop | removeStale | rename
  | lookup | list | prepare (username : String)
  | run | ready | promote | mark
  deriving DecidableEq, Repr

inductive RollbackStep where
  | removeCandidate | renameBack | startBack
  deriving DecidableEq, Repr

section

variable (fate : RecreateStep → Fate Extent) (rollback : RollbackStep → Fate Extent)

/-- Put the preserved container back, if there was one under the name when the call began. -/
def restore (name : String) (hadOld : Bool) : Handler Unit := do
  if hadOld && (← containerExists (preserved name)) then
    renameContainer (rollback .renameBack) (preserved name) name
    startContainer (rollback .startBack) name

/-- Drop the candidate, and put the preserved container back. -/
def withdraw (name : String) (hadOld : Bool) : Handler Unit := do
  rescue (removeContainer (rollback .removeCandidate) name) fun _ => pure ()
  restore rollback name hadOld

/-- The container moved aside. -/
def setAside (name : String) : Handler Unit := do
  stopContainer (fate .stop) name
  removeContainer (fate .removeStale) (preserved name)
  renameContainer (fate .rename) name (preserved name)

/-- The candidate under the name. -/
def startCandidate (name : String) : Handler Unit := do
  createContainer (fate .run) name
  if !(← waitSshReady (fate .ready) name) then raise .dockerError

/-- `recreate_container`; `students` is what `list_lab_students` finds. -/
def recreateContainer (lab name : String) (students : List String) : Handler Unit := do
  check (fate .options) .valueError
  check (fate .mounts) .zfsError
  check (fate .nodeReady) .dockerError
  check (fate .image) .dockerError
  let hadOld ← containerExists name
  if hadOld then setAside fate name
  check (fate .lookup) .zfsError
  check (fate .list) .zfsError
  students.forM fun username =>
    rescue (check (fate (.prepare username)) .storageError) fun _ => do
      restore rollback name hadOld
      raise .dockerError
  rescue (startCandidate fate name) fun _ => do
    withdraw rollback name hadOld
    raise .dockerError
  if hadOld then removeContainer (fate .promote) (preserved name)
  markUnpatched (fate .mark) lab

end

/-! ## What the commands do -/

namespace Node

variable {n : Node} {name other lab : String} {o : Option Container} {running : Bool}

@[simp] theorem containers_put_self {h : ∀ c, o = some c → c.id < n.nextId} :
    (n.put name o h).containers name = o := Function.update_self ..

theorem containers_put_of_ne {h : ∀ c, o = some c → c.id < n.nextId} (hne : other ≠ name) :
    (n.put name o h).containers other = n.containers other := Function.update_of_ne hne ..

@[simp] theorem containers_remove_self : (n.remove name).containers name = none :=
  containers_put_self

theorem containers_remove_of_ne (hne : other ≠ name) :
    (n.remove name).containers other = n.containers other := containers_put_of_ne hne

@[simp] theorem containers_setRunning_self : (n.setRunning name running).containers name =
    (n.containers name).map fun c => { c with running } := containers_put_self

theorem containers_setRunning_of_ne (hne : other ≠ name) :
    (n.setRunning name running).containers other = n.containers other := containers_put_of_ne hne

@[simp] theorem containers_rename_old : (n.rename name other).containers name = none :=
  containers_put_self

theorem containers_rename_new (hne : other ≠ name) :
    (n.rename name other).containers other = n.containers name := by
  rw [rename, containers_put_of_ne hne, containers_put_self]

theorem containers_rename_of_ne {new : String} (hold : other ≠ name) (hnew : other ≠ new) :
    (n.rename name new).containers other = n.containers other := by
  rw [rename, containers_put_of_ne hold, containers_put_of_ne hnew]

@[simp] theorem containers_create_self :
    (n.create name running).containers name = some ⟨n.nextId, running⟩ := Function.update_self ..

theorem containers_create_of_ne (hne : other ≠ name) :
    (n.create name running).containers other = n.containers other := Function.update_of_ne hne ..

@[simp] theorem containers_recordAptUpgrade {t : Int} :
    (n.recordAptUpgrade lab t).containers = n.containers := rfl

@[simp] theorem lastAptUpgrade_recordAptUpgrade {t : Int} :
    (n.recordAptUpgrade lab t).lastAptUpgrade lab = some t := Function.update_self ..

@[simp] theorem lastAptUpgrade_remove : (n.remove name).lastAptUpgrade = n.lastAptUpgrade := rfl

@[simp] theorem lastAptUpgrade_setRunning :
    (n.setRunning name running).lastAptUpgrade = n.lastAptUpgrade := rfl

@[simp] theorem lastAptUpgrade_rename :
    (n.rename name other).lastAptUpgrade = n.lastAptUpgrade := rfl

@[simp] theorem lastAptUpgrade_create :
    (n.create name running).lastAptUpgrade = n.lastAptUpgrade := rfl

@[simp] theorem nextId_remove : (n.remove name).nextId = n.nextId := rfl

@[simp] theorem nextId_setRunning : (n.setRunning name running).nextId = n.nextId := rfl

@[simp] theorem nextId_rename : (n.rename name other).nextId = n.nextId := rfl

end Node

theorem preserved_ne (name : String) : preserved name ≠ name := by
  intro h
  have := congrArg String.length h
  simp [preserved, String.length_append] at this

/-! ## What an execution respects -/

/-- What a create and a destroy do under the name of a lab. -/
structure Moves (Q : Node → Node → Prop) (name : String) : Prop where
  remove : ∀ n, Q n (n.remove name)
  create : ∀ n running, Q n (n.create name running)

/-- What a recreate does to containers besides, under the name too that it preserves one under. -/
structure MovesAside (Q : Node → Node → Prop) (name : String) : Prop extends Moves Q name where
  setRunning : ∀ n running, Q n (n.setRunning name running)
  clear : ∀ n, Q n (n.remove (preserved name))
  aside : ∀ n, Q n (n.rename name (preserved name))
  back : ∀ n, Q n (n.rename (preserved name) name)

section

variable {Q : Node → Node → Prop} [IsPreorder Node Q] {lab name : String} {hadOld : Bool}

theorem respects_act {fate : Fate Extent} {able : Node → Bool} {work : Node → Node}
    (hwork : ∀ n, Q n (work n)) : Prog.Respects Q (act fate able work) := by
  refine respects_attempt (fun n _ => hwork n) fun extent n _ => ?_
  split
  · exact hwork n
  · exact refl_of Q n

theorem respects_removeContainer {fate : Fate Extent} (hremove : ∀ n, Q n (n.remove name)) :
    Prog.Respects Q (removeContainer fate name) :=
  .bind (.read _) fun _ => .ite (fun _ => respects_checked (respects_act hremove)) fun _ => .pure ()

theorem respects_createContainer {fate : Fate Extent}
    (hcreate : ∀ n running, Q n (n.create name running)) :
    Prog.Respects Q (createContainer fate name) := by
  refine respects_checked (respects_attempt (fun n _ => hcreate n true) fun extent n _ => ?_)
  split
  · exact hcreate n extent.started
  · exact refl_of Q n

theorem respects_waitSshReady {fate : Fate Extent} : Prog.Respects Q (waitSshReady fate name) :=
  respects_act fun n => refl_of Q n

theorem respects_createLab (fate : CreateStep → Fate Extent) (h : Moves Q name) :
    Prog.Respects Q (createLab fate name) := by
  have hremove (step : CreateStep) : Prog.Respects Q (removeContainer (fate step) name) :=
    respects_removeContainer h.remove
  have hensure : Prog.Respects Q (ensureContainer fate name) :=
    .bind respects_check fun _ => .bind respects_check fun _ => .bind respects_check fun _ =>
      .bind respects_check fun _ => .bind (hremove .removeOld) fun _ =>
        .bind (respects_createContainer h.create) fun _ => .bind respects_waitSshReady fun _ =>
          .ite (fun _ => .bind (hremove .cleanup) fun _ => .throw _) fun _ => .pure ()
  exact .bind respects_check fun _ => .bind respects_check fun _ => .bind hensure fun _ =>
    respects_check

theorem respects_destroyLab (fate : DestroyStep → Fate Extent) (h : Moves Q name) :
    Prog.Respects Q (destroyLab fate name) :=
  .bind (respects_removeContainer h.remove) fun _ => respects_check

section

variable {rollback : RollbackStep → Fate Extent}

theorem respects_restore (h : MovesAside Q name) :
    Prog.Respects Q (restore rollback name hadOld) :=
  .bind (.read _) fun _ => .ite
    (fun _ => .bind (respects_checked (respects_act h.back)) fun _ =>
      respects_checked (respects_act fun n => h.setRunning n true)) fun _ => .pure ()

theorem respects_withdraw (h : MovesAside Q name) :
    Prog.Respects Q (withdraw rollback name hadOld) :=
  .bind (respects_rescue (respects_removeContainer h.remove) fun _ => .pure ()) fun _ =>
    respects_restore h

theorem respects_recreate {fate : RecreateStep → Fate Extent} {students : List String}
    (h : MovesAside Q name) (hrecord : ∀ n, Q n (n.recordAptUpgrade lab 0)) :
    Prog.Respects Q (recreateContainer fate rollback lab name students) := by
  have haside : Prog.Respects Q (setAside fate name) :=
    .bind (.bind (respects_act fun n => h.setRunning n false) fun _ => .pure ()) fun _ =>
      .bind (respects_removeContainer h.clear) fun _ => respects_checked (respects_act h.aside)
  have hcandidate : Prog.Respects Q (startCandidate fate name) :=
    .bind (respects_createContainer h.create) fun _ => .bind respects_waitSshReady fun _ =>
      .ite (fun _ => .throw _) fun _ => .pure ()
  have hmark : Prog.Respects Q (markUnpatched (fate .mark) lab) :=
    respects_checked (respects_act hrecord)
  have hrest (hadOld : Bool) : Prog.Respects Q (do
      check (fate .lookup) .zfsError
      check (fate .list) .zfsError
      students.forM fun username =>
        rescue (check (fate (.prepare username)) .storageError) fun _ => do
          restore rollback name hadOld
          raise .dockerError
      rescue (startCandidate fate name) fun _ => do
        withdraw rollback name hadOld
        raise .dockerError
      if hadOld then removeContainer (fate .promote) (preserved name)
      markUnpatched (fate .mark) lab) :=
    .bind respects_check fun _ => .bind respects_check fun _ =>
      .bind (.forM _ fun _ _ => respects_rescue respects_check fun _ =>
        .bind (respects_restore h) fun _ => .throw _) fun _ =>
      .bind (respects_rescue hcandidate fun _ => .bind (respects_withdraw h) fun _ => .throw _)
        fun _ =>
      .ite (fun _ => .bind (respects_removeContainer h.clear) fun _ => hmark) fun _ => hmark
  exact .bind respects_check fun _ => .bind respects_check fun _ => .bind respects_check fun _ =>
    .bind respects_check fun _ => .bind (.read _) fun _ =>
      .ite (fun _ => .bind haside fun _ => hrest _) fun _ => hrest _

end

end

end MassDeployment.Agent

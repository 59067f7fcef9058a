import Mathlib.Algebra.Order.Ring.Rat
import Mathlib.Data.Rat.Floor
import Mathlib.Tactic.Linarith
import MassDeployment.Lib.Run

set_option autoImplicit false

/-! # The idle-GPU governor of the agent (`gpu/killer.py`, `client.py`)

`evaluate` walks the processes of one snapshot and keeps a timer for every pid that holds
VRAM and computes nothing. `_gpu_loop` calls it once per tick. Times are in seconds; a policy
is what `get_policy` returned at the head of the tick.
-/

namespace MassDeployment.Agent

/-! ## One snapshot -/

/-- A process as `evaluate` reads it. -/
structure GpuProcess where
  pid : Option Int
  vramBytes : Option Int
  /-- `none` when the utilisation is unknown. -/
  util : Option ℚ
  container : Option String
  user : Option String
  /-- Tells two processes with one pid apart. -/
  startTime : Option Int
  managed : Bool
  lab : Option String
  cmd : Option String
  deriving DecidableEq

structure GpuPolicy where
  enabled : Bool := false
  utilThreshold : ℚ := 5
  idleMinutes : ℚ := 20
  graceMinutes : ℚ := 10
  immediate : Bool := false
  whitelistUsers : List String := []
  whitelistLabs : List String := []

inductive Verdict where
  | warn | kill
  deriving DecidableEq, Repr

structure Decision where
  pid : Int
  action : Verdict
  proc : GpuProcess
  lab : Option String
  user : Option String
  idleS : Int
  deriving DecidableEq

/-- An entry of `_state`. -/
structure Timer where
  idleSince : Option ℚ
  warnedAt : Option ℚ

/-- `GpuKiller._state`. -/
abbrev GpuKiller := Int → Option Timer

def labFromContainer : Option String → Option String
  | some container =>
    if "lab-".toList.isPrefixOf container.toList then some (String.ofList (container.toList.drop 4))
    else none
  | none => none

def GpuProcess.labOf (proc : GpuProcess) : Option String :=
  match proc.lab with
  | some lab => if lab = "" then labFromContainer proc.container else some lab
  | none => labFromContainer proc.container

/-- Unknown utilisation counts as active. -/
def isIdle (proc : GpuProcess) (policy : GpuPolicy) : Bool :=
  decide (0 < proc.vramBytes.getD 0) && proc.util.any fun util => decide (util ≤ policy.utilThreshold)

def whitelisted (proc : GpuProcess) (policy : GpuPolicy) : Bool :=
  (proc.user.any fun user => policy.whitelistUsers.contains user) ||
    proc.labOf.any fun lab => policy.whitelistLabs.contains lab

/-- `int()` of a duration. -/
def truncate (q : ℚ) : Int := q.num.tdiv q.den

namespace GpuKiller

/-- `self._state.pop(pid, None)`. -/
def pop (k : GpuKiller) (pid : Int) : GpuKiller := Function.update k pid none

def set (k : GpuKiller) (pid : Int) (st : Timer) : GpuKiller := Function.update k pid (some st)

/-- The body of the loop of `evaluate`. -/
def visit (policy : GpuPolicy) (now : ℚ) (acc : GpuKiller × List Decision) (proc : GpuProcess) :
    GpuKiller × List Decision :=
  let (k, decisions) := acc
  match proc.pid with
  | none => acc
  | some pid =>
    if !proc.managed then (k.pop pid, decisions)
    else if !policy.enabled || whitelisted proc policy || !isIdle proc policy then
      (k.pop pid, decisions)
    else
      let st := (k pid).getD { idleSince := some now, warnedAt := none }
      let since := st.idleSince.getD now
      let idleFor := now - since
      let verdict action : Decision :=
        { pid, action, proc, lab := proc.labOf, user := proc.user, idleS := truncate idleFor }
      if policy.immediate then (k.pop pid, decisions ++ [verdict .kill])
      else
        match st.warnedAt with
        | none =>
          if policy.idleMinutes * 60 ≤ idleFor then
            (k.set pid { idleSince := some since, warnedAt := some now },
              decisions ++ [verdict .warn])
          else (k.set pid { idleSince := some since, warnedAt := none }, decisions)
        | some warnedAt =>
          if policy.graceMinutes * 60 ≤ now - warnedAt then
            (k.pop pid, decisions ++ [verdict .kill])
          else (k.set pid { idleSince := some since, warnedAt := some warnedAt }, decisions)

/-- Forget the pids the snapshot does not list. -/
def prune (k : GpuKiller) (present : List Int) : GpuKiller :=
  fun pid => if pid ∈ present then k pid else none

def evaluate (k : GpuKiller) (processes : List GpuProcess) (policy : GpuPolicy) (now : ℚ) :
    GpuKiller × List Decision :=
  let (k, decisions) := processes.foldl (visit policy now) (k, [])
  (k.prune (processes.filterMap GpuProcess.pid), decisions)

end GpuKiller

/-! ## The loop -/

/-- What one tick of `_gpu_loop` meets. -/
structure Tick where
  policy : GpuPolicy
  now : ℚ
  /-- The snapshot; `none` when the query raised. -/
  processes : Option (List GpuProcess)
  /-- `pid_start_time`, when `kill_pid` looks at it. -/
  startTimes : Int → Option Int := fun _ => none
  /-- Whether `os.kill` finds the process. -/
  signalled : Int → Bool := fun _ => true

/-- The process is only signalled when it still is the one that was judged. -/
def killPid (t : Tick) (pid : Int) (expectedStartTime : Option Int) : Bool :=
  match expectedStartTime with
  | some expected => decide (t.startTimes pid = some expected) && t.signalled pid
  | none => t.signalled pid

/-- The payload of a `gpu` event. -/
structure GpuEvent where
  pid : Int
  user : Option String
  lab : Option String
  vramBytes : Option Int
  killed : Bool
  cmd : Option String
  idleS : Int

/-- Carry a decision out; the event that is emitted, if any. -/
def Tick.perform (t : Tick) (d : Decision) : Option GpuEvent :=
  let payload : GpuEvent :=
    { pid := d.pid, user := d.user, lab := d.lab, vramBytes := d.proc.vramBytes
      killed := d.action = .kill, cmd := d.proc.cmd, idleS := d.idleS }
  match d.action with
  | .kill => if killPid t d.pid d.proc.startTime then some payload else none
  | .warn => some payload

/-- A tick with the decisions it came to. -/
structure Round where
  tick : Tick
  decisions : List Decision

/-- The loop with its rounds so far, newest first, and the events it emitted. -/
structure Governor where
  killer : GpuKiller
  rounds : List Round
  events : List GpuEvent

def Governor.start : Governor := { killer := fun _ => none, rounds := [], events := [] }

/-- One turn of the loop. A disabled policy and a failed query skip it. -/
def Governor.tick (g : Governor) (t : Tick) : Governor :=
  match t.policy.enabled, t.processes with
  | true, some processes =>
    let (killer, decisions) := g.killer.evaluate processes t.policy t.now
    { killer
      rounds := { tick := t, decisions } :: g.rounds
      events := g.events ++ decisions.filterMap t.perform }
  | _, _ => { g with rounds := { tick := t, decisions := [] } :: g.rounds }

end MassDeployment.Agent

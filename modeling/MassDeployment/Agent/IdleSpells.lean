import MassDeployment.Agent.GpuKiller

set_option autoImplicit false

/-! # Idle spells

A timer belongs to an idle spell: the rounds from the one it was started in to the last one,
in all of which its process was listed as idle. `GpuKiller` finds the timer by the pid alone
and keeps it over the ticks the loop skips, so this holds as long as a timer is only
inherited by the process it was running for in the round before.
-/

namespace MassDeployment.Agent

/-- A process over its lifetime: its pid and its start time. -/
abbrev Identity := Int × Option Int

def GpuProcess.Is (proc : GpuProcess) (id : Identity) : Prop :=
  proc.pid = some id.1 ∧ proc.startTime = id.2

/-- A process the governor may act on. -/
structure GpuProcess.Eligible (proc : GpuProcess) (policy : GpuPolicy) : Prop where
  managed : proc.managed = true
  exempt : whitelisted proc policy = false
  vram : 0 < proc.vramBytes.getD 0
  idle : ∃ util, proc.util = some util ∧ util ≤ policy.utilThreshold

/-- The tick was not skipped, and listed the process as one the governor may act on. -/
def Tick.Idles (t : Tick) (id : Identity) : Prop :=
  t.policy.enabled = true ∧ ∃ processes, t.processes = some processes ∧
    ∃ proc ∈ processes, proc.Is id ∧ proc.Eligible t.policy

def Round.Warns (r : Round) (id : Identity) : Prop :=
  ∃ d ∈ r.decisions, d.action = .warn ∧ d.proc.Is id

/-! ## Spells -/

/-- The rounds, newest first, begin with an idle spell that started at `since`. -/
inductive Spell (id : Identity) (since : ℚ) : List Round → Prop
  | start {r : Round} {rounds : List Round} :
      r.tick.Idles id → r.tick.now = since → Spell id since (r :: rounds)
  | next {r : Round} {rounds : List Round} :
      r.tick.Idles id → Spell id since rounds → Spell id since (r :: rounds)

/-- They begin with an idle spell in which the process was warned at `warnedAt`, late enough
after its start. -/
inductive WarnedSpell (id : Identity) (since warnedAt : ℚ) : List Round → Prop
  | warn {r : Round} {rounds : List Round} :
      Spell id since (r :: rounds) → r.tick.now = warnedAt → r.Warns id →
      r.tick.policy.idleMinutes * 60 ≤ warnedAt - since →
      WarnedSpell id since warnedAt (r :: rounds)
  | next {r : Round} {rounds : List Round} :
      r.tick.Idles id → WarnedSpell id since warnedAt rounds →
      WarnedSpell id since warnedAt (r :: rounds)

/-- What a timer stands for. -/
inductive Timer.Backed (id : Identity) (rounds : List Round) : Timer → Prop
  | idle {since : ℚ} : Spell id since rounds → Backed id rounds ⟨some since, none⟩
  | warned {since warnedAt : ℚ} : WarnedSpell id since warnedAt rounds →
      Backed id rounds ⟨some since, some warnedAt⟩

variable {id : Identity} {since warnedAt : ℚ} {rounds : List Round}

theorem Spell.newest (h : Spell id since rounds) :
    ∃ r earlier, rounds = r :: earlier ∧ r.tick.Idles id := by
  cases h with
  | start hidle _ => exact ⟨_, _, rfl, hidle⟩
  | next hidle _ => exact ⟨_, _, rfl, hidle⟩

theorem WarnedSpell.newest (h : WarnedSpell id since warnedAt rounds) :
    ∃ r earlier, rounds = r :: earlier ∧ r.tick.Idles id := by
  cases h with
  | warn hspell _ _ _ => exact hspell.newest
  | next hidle _ => exact ⟨_, _, rfl, hidle⟩

theorem Timer.Backed.newest {st : Timer} (h : st.Backed id rounds) :
    ∃ r earlier, rounds = r :: earlier ∧ r.tick.Idles id := by
  cases h with
  | idle hspell => exact hspell.newest
  | warned hspell => exact hspell.newest

/-- Further decisions of the newest round take nothing away. -/
theorem Spell.decide {t : Tick} {ds ds' : List Decision}
    (h : Spell id since (⟨t, ds⟩ :: rounds)) : Spell id since (⟨t, ds'⟩ :: rounds) := by
  cases h with
  | start hidle hnow => exact .start hidle hnow
  | next hidle hspell => exact .next hidle hspell

theorem Timer.Backed.decide {t : Tick} {ds : List Decision} {st : Timer} (new : List Decision)
    (h : st.Backed id (⟨t, ds⟩ :: rounds)) : st.Backed id (⟨t, ds ++ new⟩ :: rounds) := by
  cases h with
  | idle hspell => exact .idle hspell.decide
  | warned hspell =>
      cases hspell with
      | warn hspell hnow hwarns hlong =>
          obtain ⟨d, hd, hwarn⟩ := hwarns
          exact .warned (.warn hspell.decide hnow ⟨d, List.mem_append_left _ hd, hwarn⟩ hlong)
      | next hidle hspell => exact .warned (.next hidle hspell)

/-- The spell goes on for another round. -/
theorem Timer.Backed.next {r : Round} {st : Timer} (h : st.Backed id rounds)
    (hidle : r.tick.Idles id) : st.Backed id (r :: rounds) := by
  cases h with
  | idle hspell => exact .idle (.next hidle hspell)
  | warned hspell => exact .warned (.next hidle hspell)

theorem Spell.split (h : Spell id since rounds) :
    ∃ spell first rest, rounds = spell ++ first :: rest ∧ first.tick.now = since ∧
      ∀ r ∈ spell ++ [first], r.tick.Idles id := by
  induction h with
  | @start r rounds hidle hnow => exact ⟨[], r, rounds, rfl, hnow, by simpa using hidle⟩
  | @next r rounds hidle _ ih =>
      obtain ⟨spell, first, rest, rfl, hnow, hall⟩ := ih
      refine ⟨r :: spell, first, rest, rfl, hnow, ?_⟩
      intro r' hr'
      rcases List.mem_cons.mp hr' with rfl | hr'
      · exact hidle
      · exact hall r' hr'

theorem WarnedSpell.split (h : WarnedSpell id since warnedAt rounds) :
    ∃ spell first rest, rounds = spell ++ first :: rest ∧ first.tick.now = since ∧
      (∀ r ∈ spell ++ [first], r.tick.Idles id) ∧
      ∃ w ∈ spell ++ [first], w.Warns id ∧ w.tick.now = warnedAt ∧
        w.tick.policy.idleMinutes * 60 ≤ warnedAt - since := by
  induction h with
  | @warn r rounds hspell hnow hwarns hlong =>
      obtain ⟨spell, first, rest, hrounds, hfirst, hall⟩ := hspell.split
      refine ⟨spell, first, rest, hrounds, hfirst, hall, r, ?_, hwarns, hnow, hlong⟩
      cases spell with
      | nil => simp_all
      | cons r' spell => simp_all
  | @next r rounds hidle _ ih =>
      obtain ⟨spell, first, rest, rfl, hfirst, hall, w, hw, hwarned⟩ := ih
      refine ⟨r :: spell, first, rest, rfl, hfirst, ?_, w, List.mem_cons_of_mem _ hw, hwarned⟩
      intro r' hr'
      rcases List.mem_cons.mp hr' with rfl | hr'
      · exact hidle
      · exact hall r' hr'

/-! ## Decisions -/

/-- The process had been idle all along when the round `r` decided to kill it, and it had been
warned in time. -/
def KillDue (id : Identity) (r : Round) (earlier : List Round) : Prop :=
  ∃ spell first rest, r :: earlier = spell ++ first :: rest ∧
    (∀ r' ∈ spell ++ [first], r'.tick.Idles id) ∧
    ∃ w ∈ spell ++ [first], w.Warns id ∧
      w.tick.now + r.tick.policy.graceMinutes * 60 ≤ r.tick.now ∧
      first.tick.now + w.tick.policy.idleMinutes * 60 ≤ w.tick.now

/-- What a decision of the round `r` has to satisfy. -/
structure Decision.Lawful (d : Decision) (r : Round) (earlier : List Round) : Prop where
  enabled : r.tick.policy.enabled = true
  listed : ∃ processes, r.tick.processes = some processes ∧ d.proc ∈ processes
  pid : d.proc.pid = some d.pid
  eligible : d.proc.Eligible r.tick.policy
  due : d.action = .kill → KillDue (d.pid, d.proc.startTime) r earlier

/-- Every decision of every round is lawful. -/
def Lawful : List Round → Prop
  | [] => True
  | r :: earlier => (∀ d ∈ r.decisions, d.Lawful r earlier) ∧ Lawful earlier

/-- The tick was not skipped, and listed no other process than that one under the pid. -/
def Tick.Settles (t : Tick) (pid : Int) (startTime : Option Int) : Prop :=
  t.policy.enabled = true ∧ ∃ processes, t.processes = some processes ∧
    ∀ proc ∈ processes, proc.pid = some pid → proc.startTime = startTime

/-- Where the governor may act on a process, the snapshot lists no other one under its pid, and
a timer under its pid comes from the round before, in which that process was alone too. -/
def OwnTimers (g : Governor) (t : Tick) : Prop :=
  t.policy.enabled = true → ∀ processes, t.processes = some processes →
    ∀ proc ∈ processes, proc.Eligible t.policy → ∀ pid, proc.pid = some pid →
      t.Settles pid proc.startTime ∧
      ((g.killer pid).isSome → ∃ last earlier, g.rounds = last :: earlier ∧
        last.tick.Settles pid proc.startTime)

theorem Tick.Settles.same {t : Tick} {pid : Int} {startTime start : Option Int}
    (h : t.Settles pid startTime) (hidle : t.Idles (pid, start)) : start = startTime := by
  obtain ⟨_, processes, hlist, hall⟩ := h
  obtain ⟨_, processes', hlist', proc, hproc, ⟨hpid, hstart⟩, _⟩ := hidle
  cases hlist.symm.trans hlist'
  rw [← hall proc hproc hpid, hstart]

/-- A decision with the timer it came from. -/
structure Decision.Founded (d : Decision) (t : Tick) (ds : List Decision) (earlier : List Round) :
    Prop where
  pid : d.proc.pid = some d.pid
  eligible : d.proc.Eligible t.policy
  due : d.action = .kill → ∃ since warnedAt,
    WarnedSpell (d.pid, d.proc.startTime) since warnedAt (⟨t, ds⟩ :: earlier) ∧
    t.policy.graceMinutes * 60 ≤ t.now - warnedAt

theorem WarnedSpell.decide {t : Tick} {ds : List Decision} (new : List Decision)
    (h : WarnedSpell id since warnedAt (⟨t, ds⟩ :: rounds)) :
    WarnedSpell id since warnedAt (⟨t, ds ++ new⟩ :: rounds) := by
  cases (Timer.Backed.warned h).decide new with
  | warned h => exact h

theorem Decision.Founded.decide {d : Decision} {t : Tick} {ds : List Decision}
    (new : List Decision) (h : d.Founded t ds rounds) : d.Founded t (ds ++ new) rounds where
  pid := h.pid
  eligible := h.eligible
  due hkill := by
    obtain ⟨since, warnedAt, hspell, hgrace⟩ := h.due hkill
    exact ⟨since, warnedAt, hspell.decide new, hgrace⟩

theorem Decision.Founded.lawful {d : Decision} {t : Tick} {ds : List Decision}
    {processes : List GpuProcess} (h : d.Founded t ds rounds) (henabled : t.policy.enabled = true)
    (hlist : t.processes = some processes) (hmem : d.proc ∈ processes) :
    d.Lawful ⟨t, ds⟩ rounds where
  enabled := henabled
  listed := ⟨processes, hlist, hmem⟩
  pid := h.pid
  eligible := h.eligible
  due hkill := by
    obtain ⟨since, warnedAt, hspell, hgrace⟩ := h.due hkill
    obtain ⟨spell, first, rest, hsplit, hfirst, hall, w, hw, hwarns, hnow, hlong⟩ := hspell.split
    refine ⟨spell, first, rest, hsplit, hall, w, hw, hwarns, ?_, ?_⟩
    · show w.tick.now + t.policy.graceMinutes * 60 ≤ t.now
      linarith
    · linarith

/-! ## One snapshot -/

/-- Part of a snapshot has been visited: the timers of its pids are of this round, all others
as they were. -/
structure Visited (g : Governor) (t : Tick) (done : List GpuProcess)
    (acc : GpuKiller × List Decision) : Prop where
  fresh : ∀ pid st, acc.1 pid = some st → pid ∈ done.filterMap GpuProcess.pid →
    ∃ start, st.Backed (pid, start) (⟨t, acc.2⟩ :: g.rounds)
  old : ∀ pid, pid ∉ done.filterMap GpuProcess.pid → acc.1 pid = g.killer pid
  listed : ∀ d ∈ acc.2, d.proc ∈ done
  founded : ∀ d ∈ acc.2, d.Founded t acc.2 g.rounds

/-- Every timer stands for a spell up to the last round that was not skipped. -/
def Tracked (g : Governor) : Prop :=
  ∀ pid st, g.killer pid = some st → ∃ start skipped rounds, g.rounds = skipped ++ rounds ∧
    (∀ r ∈ skipped, r.tick.policy.enabled = false ∨ r.tick.processes = none) ∧
    st.Backed (pid, start) rounds

theorem Visited.start (g : Governor) (t : Tick) : Visited g t [] (g.killer, []) where
  fresh pid st _ hpid := by cases hpid
  old pid _ := rfl
  listed d hd := by cases hd
  founded d hd := by cases hd

/-- Visiting a process writes the timer of its pid only. -/
theorem Visited.visit {g : Governor} {t : Tick} {done : List GpuProcess} {k : GpuKiller}
    {ds : List Decision} (h : Visited g t done (k, ds)) {proc : GpuProcess} {pid : Int}
    (hpid : proc.pid = some pid) (timer : Option Timer) (new : List Decision)
    (hproc : ∀ d ∈ new, d.proc = proc)
    (htimer : ∀ st, timer = some st →
      st.Backed (pid, proc.startTime) (⟨t, ds ++ new⟩ :: g.rounds))
    (hnew : ∀ d ∈ new, d.Founded t (ds ++ new) g.rounds) :
    Visited g t (done ++ [proc]) (Function.update k pid timer, ds ++ new) where
  fresh pid' st hst hmem := by
    by_cases heq : pid' = pid
    · subst heq
      simp only [Function.update_self] at hst
      exact ⟨_, htimer st hst⟩
    · simp only [Function.update_of_ne heq] at hst
      have hdone : pid' ∈ done.filterMap GpuProcess.pid := by
        simpa [List.filterMap_append, hpid, heq] using hmem
      obtain ⟨start, hbacked⟩ := h.fresh pid' st hst hdone
      exact ⟨start, hbacked.decide new⟩
  old pid' hmem := by
    have hne : pid' ≠ pid ∧ pid' ∉ done.filterMap GpuProcess.pid := by
      simp only [List.filterMap_append, List.mem_append, not_or] at hmem
      refine ⟨fun heq => hmem.2 ?_, hmem.1⟩
      simp [hpid, heq]
    simp only [Function.update_of_ne hne.1]
    exact h.old pid' hne.2
  listed d hd := by
    rcases List.mem_append.mp hd with hd | hd
    · exact List.mem_append_left _ (h.listed d hd)
    · simp [hproc d hd]
  founded d hd := by
    rcases List.mem_append.mp hd with hd | hd
    · exact (h.founded d hd).decide new
    · exact hnew d hd

theorem isIdle_iff {proc : GpuProcess} {policy : GpuPolicy} :
    isIdle proc policy = true ↔
      0 < proc.vramBytes.getD 0 ∧ ∃ util, proc.util = some util ∧ util ≤ policy.utilThreshold := by
  cases hutil : proc.util <;> simp [isIdle, hutil]

theorem eligible_iff {proc : GpuProcess} {policy : GpuPolicy} :
    proc.Eligible policy ↔
      proc.managed = true ∧ whitelisted proc policy = false ∧ isIdle proc policy = true := by
  rw [isIdle_iff]
  constructor
  · intro h
    exact ⟨h.managed, h.exempt, h.vram, h.idle⟩
  · rintro ⟨hmanaged, hexempt, hvram, hidle⟩
    exact ⟨hmanaged, hexempt, hvram, hidle⟩

/-- A process the governor may not act on loses its timer. -/
theorem visit_of_not_eligible {policy : GpuPolicy} {now : ℚ} {k : GpuKiller} {ds : List Decision}
    {proc : GpuProcess} {pid : Int} (hpid : proc.pid = some pid) (h : ¬ proc.Eligible policy) :
    GpuKiller.visit policy now (k, ds) proc = (k.pop pid, ds) := by
  rw [eligible_iff] at h
  simp only [GpuKiller.visit, hpid]
  by_cases hmanaged : proc.managed = true
  · have hexempt : (!policy.enabled || whitelisted proc policy || !isIdle proc policy) = true := by
      cases hw : whitelisted proc policy <;> cases hi : isIdle proc policy <;> simp_all
    simp [hmanaged, hexempt]
  · simp [hmanaged]

/-- The decision about a process that has been idle since `since`. -/
def GpuProcess.verdict (proc : GpuProcess) (pid : Int) (idleFor : ℚ) (action : Verdict) :
    Decision :=
  { pid, action, proc, lab := proc.labOf, user := proc.user, idleS := truncate idleFor }

/-- What happens to the timer of a process the governor may act on. -/
inductive Judged (policy : GpuPolicy) (now : ℚ) (proc : GpuProcess) (pid : Int) (st : Timer) :
    Option Timer → List Decision → Prop
  | warn : st.warnedAt = none →
      policy.idleMinutes * 60 ≤ now - st.idleSince.getD now →
      Judged policy now proc pid st (some ⟨some (st.idleSince.getD now), some now⟩)
        [proc.verdict pid (now - st.idleSince.getD now) .warn]
  | kill {warnedAt : ℚ} : st.warnedAt = some warnedAt →
      policy.graceMinutes * 60 ≤ now - warnedAt →
      Judged policy now proc pid st none [proc.verdict pid (now - st.idleSince.getD now) .kill]
  | wait : Judged policy now proc pid st (some ⟨some (st.idleSince.getD now), st.warnedAt⟩) []

theorem visit_of_eligible {policy : GpuPolicy} {now : ℚ} {k : GpuKiller} {ds : List Decision}
    {proc : GpuProcess} {pid : Int} (hpid : proc.pid = some pid) (h : proc.Eligible policy)
    (henabled : policy.enabled = true) (hgrace : policy.immediate = false) :
    ∃ timer new, Judged policy now proc pid ((k pid).getD ⟨some now, none⟩) timer new ∧
      GpuKiller.visit policy now (k, ds) proc = (Function.update k pid timer, ds ++ new) := by
  obtain ⟨hmanaged, hexempt, hidle⟩ := eligible_iff.mp h
  simp only [GpuKiller.visit, hpid, hmanaged, henabled, hexempt, hidle, hgrace, Bool.not_true,
    Bool.or_self, Bool.false_eq_true, if_false]
  generalize (k pid).getD ⟨some now, none⟩ = st
  cases hwarned : st.warnedAt with
  | none =>
      dsimp only
      split
      · next hlong => exact ⟨_, _, .warn hwarned hlong, rfl⟩
      · exact ⟨_, _, .wait, by rw [hwarned, List.append_nil]; rfl⟩
  | some warnedAt =>
      dsimp only
      split
      · next hlong => exact ⟨_, _, .kill hwarned hlong, rfl⟩
      · exact ⟨_, _, .wait, by rw [hwarned, List.append_nil]; rfl⟩

/-- The timer a process finds is its own. -/
theorem Visited.current {g : Governor} {t : Tick} {done : List GpuProcess} {k : GpuKiller}
    {ds : List Decision} (h : Visited g t done (k, ds)) (htracked : Tracked g)
    {proc : GpuProcess} {pid : Int} (hidle : t.Idles (pid, proc.startTime))
    (hsettles : t.Settles pid proc.startTime)
    (hlast : (g.killer pid).isSome → ∃ last earlier, g.rounds = last :: earlier ∧
      last.tick.Settles pid proc.startTime) :
    ((k pid).getD ⟨some t.now, none⟩).Backed (pid, proc.startTime) (⟨t, ds⟩ :: g.rounds) := by
  cases hst : k pid with
  | none => exact .idle (.start hidle rfl)
  | some st =>
      by_cases hmem : pid ∈ done.filterMap GpuProcess.pid
      · obtain ⟨start, hbacked⟩ := h.fresh pid st hst hmem
        obtain ⟨r, earlier, heq, hnewest⟩ := hbacked.newest
        cases heq
        cases hsettles.same hnewest
        exact hbacked
      · have hkept : g.killer pid = some st := (h.old pid hmem).symm.trans hst
        obtain ⟨start, skipped, rounds, hrounds, hskipped, hbacked⟩ := htracked pid st hkept
        obtain ⟨last, earlier, hhead, henabled, processes, hlist, halone⟩ :=
          hlast (by rw [hkept]; rfl)
        -- the round before was not skipped, so the spell reaches up to it
        have hnil : skipped = [] := by
          cases skipped with
          | nil => rfl
          | cons r skipped =>
              obtain ⟨rfl, -⟩ := List.cons.inj (hhead.symm.trans hrounds)
              rcases hskipped last (by simp) with hoff | hnone
              · rw [henabled] at hoff
                cases hoff
              · rw [hlist] at hnone
                cases hnone
        subst hnil
        rw [List.nil_append] at hrounds
        subst hrounds
        obtain ⟨r, earlier', heq, hnewest⟩ := hbacked.newest
        obtain ⟨rfl, -⟩ := List.cons.inj (heq.symm.trans hhead)
        have hsame : start = proc.startTime :=
          Tick.Settles.same ⟨henabled, processes, hlist, halone⟩ hnewest
        subst hsame
        exact hbacked.next hidle

theorem Judged.proc {policy : GpuPolicy} {now : ℚ} {proc : GpuProcess} {pid : Int} {st : Timer}
    {timer : Option Timer} {new : List Decision} (h : Judged policy now proc pid st timer new) :
    ∀ d ∈ new, d.proc = proc ∧ d.pid = pid := by
  cases h <;> simp [GpuProcess.verdict]

/-- A timer that is kept stands for the spell up to this round. -/
theorem Judged.backed {t : Tick} {proc : GpuProcess} {pid : Int} {st : Timer}
    {timer : Option Timer} {new ds : List Decision} (hpid : proc.pid = some pid)
    (h : Judged t.policy t.now proc pid st timer new)
    (hst : st.Backed (pid, proc.startTime) (⟨t, ds⟩ :: rounds)) :
    ∀ st', timer = some st' → st'.Backed (pid, proc.startTime) (⟨t, ds ++ new⟩ :: rounds) := by
  rintro st' rfl
  cases h with
  | warn hwarned hlong =>
      cases hst with
      | warned _ => cases hwarned
      | @idle since hspell =>
          have hwarns : Round.Warns ⟨t, ds ++ [proc.verdict pid (t.now - since) .warn]⟩
              (pid, proc.startTime) :=
            ⟨_, List.mem_append_right _ (List.mem_singleton_self _), rfl, hpid, rfl⟩
          exact .warned (.warn hspell.decide rfl hwarns hlong)
  | wait => cases hst <;> exact Timer.Backed.decide [] (by constructor; assumption)

/-- A kill comes from a timer that was warned. -/
theorem Judged.founded {t : Tick} {proc : GpuProcess} {pid : Int} {st : Timer}
    {timer : Option Timer} {new ds : List Decision} (hpid : proc.pid = some pid)
    (heligible : proc.Eligible t.policy)
    (h : Judged t.policy t.now proc pid st timer new)
    (hst : st.Backed (pid, proc.startTime) (⟨t, ds⟩ :: rounds)) :
    ∀ d ∈ new, d.Founded t (ds ++ new) rounds := by
  intro d hd
  cases h with
  | warn _ _ =>
      rcases List.mem_singleton.mp hd with rfl
      exact ⟨hpid, heligible, nofun⟩
  | kill hwarned hgrace =>
      rcases List.mem_singleton.mp hd with rfl
      cases hst with
      | idle _ => cases hwarned
      | warned hspell =>
          cases hwarned
          exact ⟨hpid, heligible, fun _ => ⟨_, _, hspell.decide _, hgrace⟩⟩
  | wait => cases hd

theorem Visited.step {g : Governor} {t : Tick} {done : List GpuProcess} {k : GpuKiller}
    {ds : List Decision} (h : Visited g t done (k, ds)) (htracked : Tracked g)
    (hown : OwnTimers g t) (hgrace : t.policy.immediate = false)
    (henabled : t.policy.enabled = true) {processes : List GpuProcess}
    (hlist : t.processes = some processes) {proc : GpuProcess} (hmem : proc ∈ processes) :
    Visited g t (done ++ [proc]) (GpuKiller.visit t.policy t.now (k, ds) proc) := by
  cases hpid : proc.pid with
  | none =>
      have hpids : (done ++ [proc]).filterMap GpuProcess.pid = done.filterMap GpuProcess.pid := by
        simp [List.filterMap_append, hpid]
      have hsame : GpuKiller.visit t.policy t.now (k, ds) proc = (k, ds) := by
        simp [GpuKiller.visit, hpid]
      rw [hsame]
      refine ⟨?_, ?_, fun d hd => List.mem_append_left _ (h.listed d hd), h.founded⟩
      · rw [hpids]
        exact h.fresh
      · rw [hpids]
        exact h.old
  | some pid =>
      by_cases heligible : proc.Eligible t.policy
      · obtain ⟨hsettles, hlast⟩ :=
          hown henabled processes hlist proc hmem heligible pid hpid
        have hidle : t.Idles (pid, proc.startTime) :=
          ⟨henabled, processes, hlist, proc, hmem, ⟨hpid, rfl⟩, heligible⟩
        have hcurrent := h.current htracked hidle hsettles hlast
        obtain ⟨timer, new, hjudged, heq⟩ :=
          @visit_of_eligible _ t.now k ds _ _ hpid heligible henabled hgrace
        rw [heq]
        exact h.visit hpid timer new (fun d hd => (hjudged.proc d hd).1)
          (hjudged.backed hpid hcurrent) (hjudged.founded hpid heligible hcurrent)
      · rw [visit_of_not_eligible hpid heligible]
        have hvisit := h.visit hpid none [] (by simp) nofun (by simp)
        rw [List.append_nil] at hvisit
        exact hvisit

theorem Visited.foldl {g : Governor} {t : Tick} (htracked : Tracked g) (hown : OwnTimers g t)
    (hgrace : t.policy.immediate = false) (henabled : t.policy.enabled = true)
    {processes : List GpuProcess} (hlist : t.processes = some processes)
    (todo : List GpuProcess) (htodo : ∀ proc ∈ todo, proc ∈ processes) {done : List GpuProcess}
    {acc : GpuKiller × List Decision} (h : Visited g t done acc) :
    Visited g t (done ++ todo) (todo.foldl (GpuKiller.visit t.policy t.now) acc) := by
  induction todo generalizing done acc with
  | nil => simpa using h
  | cons proc todo ih =>
      have hstep := h.step htracked hown hgrace henabled hlist (htodo proc (by simp))
      have hrest := ih (fun p hp => htodo p (List.mem_cons_of_mem _ hp)) hstep
      rwa [List.append_assoc] at hrest

/-! ## The loop -/

theorem Governor.tick_skipped {g : Governor} {t : Tick}
    (h : t.policy.enabled = false ∨ t.processes = none) :
    g.tick t = { g with rounds := ⟨t, []⟩ :: g.rounds } := by
  unfold Governor.tick
  split
  · next henabled hlist =>
      rcases h with h | h
      · rw [henabled] at h
        cases h
      · rw [hlist] at h
        cases h
  · rfl

/-- What the loop keeps. -/
structure Sound (g : Governor) : Prop where
  tracked : Tracked g
  lawful : Lawful g.rounds

theorem Sound.tick {g : Governor} {t : Tick} (h : Sound g) (hown : OwnTimers g t)
    (hgrace : t.policy.immediate = false) : Sound (g.tick t) := by
  by_cases hskip : t.policy.enabled = false ∨ t.processes = none
  · rw [Governor.tick_skipped hskip]
    refine ⟨fun pid st hst => ?_, by simp [Lawful, h.lawful]⟩
    obtain ⟨start, skipped, rounds, hrounds, hskipped, hbacked⟩ := h.tracked pid st hst
    refine ⟨start, ⟨t, []⟩ :: skipped, rounds, by simp [hrounds], ?_, hbacked⟩
    intro r hr
    rcases List.mem_cons.mp hr with rfl | hr
    · exact hskip
    · exact hskipped r hr
  · obtain ⟨henabled, processes, hlist⟩ :
        t.policy.enabled = true ∧ ∃ processes, t.processes = some processes := by
      simp only [not_or, Bool.not_eq_false] at hskip
      exact ⟨hskip.1, Option.ne_none_iff_exists'.mp hskip.2⟩
    have hvisited := Visited.foldl h.tracked hown hgrace henabled hlist processes
      (fun _ hp => hp) (Visited.start g t)
    rw [List.nil_append] at hvisited
    simp only [Governor.tick, henabled, hlist, GpuKiller.evaluate]
    generalize processes.foldl _ _ = acc at hvisited
    refine ⟨fun pid st hst => ?_, fun d hd => ?_, h.lawful⟩
    · simp only [GpuKiller.prune] at hst
      split at hst
      · next hpresent =>
          obtain ⟨start, hbacked⟩ := hvisited.fresh pid st hst hpresent
          exact ⟨start, [], _, rfl, by simp, hbacked⟩
      · cases hst
    · exact (hvisited.founded d hd).lawful henabled hlist (hvisited.listed d hd)

theorem Sound.start : Sound .start where
  tracked pid st hst := by cases hst
  lawful := trivial

/-- **A killed process was idle, and was warned before.** In every run in which each timer is
the process's own, every decision is lawful. -/
theorem killed_only_idle_and_warned (ticks : List Tick)
    (hgrace : ∀ t ∈ ticks, t.policy.immediate = false)
    (hown : Run.Along Governor.tick OwnTimers .start ticks) :
    Lawful (Run.run Governor.tick .start ticks).rounds := by
  have hsound : Sound (Run.run Governor.tick .start ticks) :=
    Run.invariant (fun _ _ hg ht => hg.tick ht.1 ht.2) Sound.start (hown.and hgrace)
  exact hsound.lawful

/-- An idle process of a managed container. -/
def idleProcess (startTime : Int) : GpuProcess :=
  { pid := some 100, vramBytes := some 1073741824, util := some 0, container := some "lab-bio"
    user := some "alice", startTime := some startTime, managed := true, lab := some "bio"
    cmd := none }

/-- A snapshot taken under a policy that allows 20 minutes and 10 minutes more. -/
def idleTick (now : ℚ) (startTime : Int) : Tick :=
  { policy := { enabled := true }, now, processes := some [idleProcess startTime] }

theorem idleTick_settles (now : ℚ) (startTime : Int) :
    (idleTick now startTime).Settles 100 (some startTime) :=
  ⟨rfl, _, rfl, by simp [idleProcess]⟩

theorem ownTimers_idleTick {g : Governor} {now : ℚ} {startTime : Int}
    (h : (g.killer 100).isSome → ∃ last earlier, g.rounds = last :: earlier ∧
      last.tick.Settles 100 (some startTime)) : OwnTimers g (idleTick now startTime) := by
  intro _ processes hlist proc hproc _ pid hpid
  cases hlist
  rcases List.mem_singleton.mp hproc with rfl
  cases hpid
  exact ⟨idleTick_settles now startTime, h⟩

theorem Governor.tick_rounds (g : Governor) (t : Tick) :
    ∃ decisions, (g.tick t).rounds = ⟨t, decisions⟩ :: g.rounds := by
  unfold Governor.tick
  split
  · exact ⟨_, rfl⟩
  · exact ⟨_, rfl⟩

theorem killed_only_idle_and_warned_alice :
    Lawful (Run.run Governor.tick .start
      [idleTick 0 1, idleTick 1200 1, idleTick 1800 1]).rounds := by
  refine killed_only_idle_and_warned _ (by simp [idleTick]) ⟨?_, ?_, ?_, trivial⟩
  · exact ownTimers_idleTick nofun
  · obtain ⟨_, hrounds⟩ := Governor.tick_rounds .start (idleTick 0 1)
    exact ownTimers_idleTick fun _ => ⟨_, _, hrounds, idleTick_settles 0 1⟩
  · obtain ⟨_, hrounds⟩ := Governor.tick_rounds (.tick .start (idleTick 0 1)) (idleTick 1200 1)
    exact ownTimers_idleTick fun _ => ⟨_, _, hrounds, idleTick_settles 1200 1⟩

/-- The pid of a process that was warned goes to another one, which is killed at once. -/
theorem newcomer_killed :
    ¬ Lawful (Run.run Governor.tick .start
      [idleTick 0 1, idleTick 1200 1, idleTick 1800 2]).rounds := by
  have hkill : (Run.run Governor.tick .start
      [idleTick 0 1, idleTick 1200 1, idleTick 1800 2]).rounds.head?.map (fun r =>
        r.decisions.map fun d => (d.pid, d.action, d.proc.startTime)) =
      some [(100, .kill, some 2)] := by
    decide +kernel
  simp only [Run.run_cons, Run.run_nil] at hkill ⊢
  obtain ⟨first, hfirst⟩ := Governor.tick_rounds .start (idleTick 0 1)
  obtain ⟨second, hsecond⟩ := Governor.tick_rounds (.tick .start (idleTick 0 1)) (idleTick 1200 1)
  obtain ⟨third, hthird⟩ := Governor.tick_rounds
    (.tick (.tick .start (idleTick 0 1)) (idleTick 1200 1)) (idleTick 1800 2)
  rw [hthird] at hkill ⊢
  rw [hsecond, hfirst]
  intro hlawful
  simp only [List.head?_cons, Option.map_some, Option.some.injEq] at hkill
  obtain ⟨d, hd, heq⟩ : ∃ d ∈ third, (d.pid, d.action, d.proc.startTime) = (100, .kill, some 2) :=
    List.mem_map.mp (hkill ▸ List.mem_singleton_self _)
  simp only [Prod.mk.injEq] at heq
  obtain ⟨spell, oldest, rest, hsplit, hall, w, hw, -, hgrace, -⟩ :=
    (hlawful.1 d hd).due heq.2.1
  rw [heq.1, heq.2.2] at hall
  -- the warning came ten minutes earlier, when the pid was that of the other process
  have hmem : w ∈ spell ++ oldest :: rest := by
    rcases List.mem_append.mp hw with hw | hw
    · exact List.mem_append_left _ hw
    · rw [List.mem_singleton.mp hw]
      simp
  obtain ⟨-, processes, hlist, proc, hproc, ⟨-, hstart⟩, -⟩ := hall w hw
  rw [← hsplit] at hmem
  simp only [Governor.start, List.mem_cons, List.not_mem_nil, or_false] at hmem
  rcases hmem with rfl | rfl | rfl
  · norm_num [idleTick] at hgrace
  · cases hlist
    rcases List.mem_singleton.mp hproc with rfl
    cases hstart
  · cases hlist
    rcases List.mem_singleton.mp hproc with rfl
    cases hstart

end MassDeployment.Agent

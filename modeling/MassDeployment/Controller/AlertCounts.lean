import MassDeployment.Controller.Alerts
import MassDeployment.Lib.Run

set_option autoImplicit false

/-! # Every occurrence is counted (`alerts.ts`)

A call of `alertAdmins` sends an alert, or is counted and reported with the next alert of its key.
The counts of a key are looked at over any calls, with any changes of the admins and of the window
between them.
-/

namespace MassDeployment

/-! ## Calls -/

inductive AlertEvent where
  | call (key subject body : String)
  | tick (ms : Nat)
  | setAdmins (admins : List AdminRow)
  | setDedup (minutes : Nat)

def AlertEvent.step (s : Controller) : AlertEvent → Controller
  | .call key subject body => (alertAdmins key subject body).after s
  | .tick ms => { s with now := s.now + ms }
  | .setAdmins admins => { s with db := { s.db with admins := admins } }
  | .setDedup minutes => { s with settings := { s.settings with alertDedupMinutes := minutes } }

/-- A process that has just started over the state, with alerts enabled. -/
def Controller.freshAlerts (s : Controller) : Controller :=
  { s with
    settings := { s.settings with alertsEnabled := true }
    alertState := []
    trace := [] }

def Controller.dedupMs (s : Controller) : Nat := s.settings.alertDedupMinutes * 60 * 1000

/-- The last alert of the key is not in the window any more. -/
def Controller.alertDue (s : Controller) (key : String) : Bool :=
  match s.alertState.lookup key with
  | some k => !decide (s.now - k.lastSent < s.dedupMs)
  | none => true

/-- The count that is held for the key. -/
def Controller.held (s : Controller) (key : String) : Nat :=
  ((s.alertState.lookup key).map KeyState.suppressed).getD 0

/-- The counts that the alerts of a key reported. -/
def alertsOf (key : String) (trace : List Event) : List Nat :=
  trace.filterMap fun
    | .adminAlert k _ _ _ suppressed => if k = key then some suppressed else none
    | _ => none

/-- The occurrences that are accounted for: alerts, what they reported, and what is held. -/
def Controller.accounted (s : Controller) (key : String) : Nat :=
  (alertsOf key s.trace).length + (alertsOf key s.trace).sum + s.held key

def AlertEvent.isCall (key : String) : AlertEvent → Bool
  | .call k _ _ => k == key
  | _ => false

/-- The calls with a key. -/
def callsOf (key : String) (es : List AlertEvent) : Nat := es.countP (AlertEvent.isCall key)

/-- A call with the key that would alert finds an admin to mail. -/
def Reaches (key : String) (s : Controller) (e : AlertEvent) : Prop :=
  e.isCall key = true → s.alertDue key = true → s.db.adminEmails ≠ []

/-! ## One call -/

theorem lookup_filter_ne {α : Type} {key key' : String} (h : key' ≠ key)
    (m : List (String × α)) : (m.filter fun kv => kv.1 != key).lookup key' = m.lookup key' := by
  induction m with
  | nil => rfl
  | cons e m ih =>
    obtain ⟨k, v⟩ := e
    by_cases hk : k = key
    · rw [List.filter_cons_of_neg (by simp [hk]), ih, List.lookup_cons,
        beq_eq_false_iff_ne.mpr (hk ▸ h)]
    · rw [List.filter_cons_of_pos (by simp [hk]), List.lookup_cons, List.lookup_cons, ih]

theorem lookup_setKey {α : Type} (key key' : String) (st : α) (m : List (String × α)) :
    (setKey key st m).lookup key' = if key' = key then some st else m.lookup key' := by
  unfold setKey
  by_cases hkey : key' = key
  · rw [if_pos hkey, hkey, List.lookup_cons, beq_self_eq_true]
  · rw [if_neg hkey, List.lookup_cons, beq_eq_false_iff_ne.mpr hkey]
    exact lookup_filter_ne hkey m

section

variable {s : Controller} (key subject body : String)

/-- **A call.** It is counted, it alerts with what was held, or there is nobody to mail. -/
theorem alertAdmins_cases (henabled : s.settings.alertsEnabled = true) :
    (s.alertDue key = false ∧ ∃ k, s.alertState.lookup key = some k ∧
      (alertAdmins key subject body).after s = { s with
        alertState := setKey key { k with suppressed := k.suppressed + 1 } s.alertState }) ∨
    (s.alertDue key = true ∧ s.db.adminEmails ≠ [] ∧
      (alertAdmins key subject body).after s = { s with
        alertState := setKey key ⟨s.now, 0⟩ s.alertState
        trace := .adminAlert key subject body s.db.adminEmails (s.held key) :: s.trace }) ∨
    (s.alertDue key = true ∧ s.db.adminEmails = [] ∧
      (alertAdmins key subject body).after s = { s with
        alertState := setKey key ⟨s.now, 0⟩ s.alertState }) := by
  have hrun : alertAdmins key subject body = (do
      let s ← .read id
      if s.settings.alertsEnabled then
        match s.alertState.lookup key with
        | some k =>
          if s.now - k.lastSent < s.dedupMs then
            setAlertState key { k with suppressed := k.suppressed + 1 }
          else
            setAlertState key ⟨s.now, 0⟩
            alertAdmins.mailAlert key subject body s k.suppressed
        | none =>
          setAlertState key ⟨s.now, 0⟩
          alertAdmins.mailAlert key subject body s 0 : Op Unit) := rfl
  unfold Prog.after
  rw [hrun, Prog.run_read_bind, id_eq, if_pos henabled]
  unfold Controller.alertDue Controller.held
  cases hlookup : s.alertState.lookup key with
  | none =>
    by_cases hmail : s.db.adminEmails = []
    · refine .inr (.inr ⟨rfl, hmail, ?_⟩)
      simp [alertAdmins.mailAlert, setAlertState, hmail]
    · refine .inr (.inl ⟨rfl, hmail, ?_⟩)
      simp [alertAdmins.mailAlert, setAlertState, Op.emit, hmail]
  | some k =>
    by_cases hwindow : s.now - k.lastSent < s.dedupMs
    · refine .inl ⟨by simp [hwindow], k, rfl, ?_⟩
      dsimp only
      rw [if_pos hwindow]
      rfl
    · have hdue : (!decide (s.now - k.lastSent < s.dedupMs)) = true := by simp [hwindow]
      by_cases hmail : s.db.adminEmails = []
      · refine .inr (.inr ⟨hdue, hmail, ?_⟩)
        dsimp only
        rw [if_neg hwindow]
        simp [alertAdmins.mailAlert, setAlertState, hmail]
      · refine .inr (.inl ⟨hdue, hmail, ?_⟩)
        dsimp only
        rw [if_neg hwindow]
        simp [alertAdmins.mailAlert, setAlertState, Op.emit, hmail]

end

/-! ## Conservation -/

theorem alertsOf_cons_self (key subject body : String) (to' : List String) (n : Nat)
    (trace : List Event) : alertsOf key (.adminAlert key subject body to' n :: trace) =
      n :: alertsOf key trace := by
  simp [alertsOf]

theorem alertsOf_cons_ne {key key' : String} (h : key' ≠ key) (subject body : String)
    (to' : List String) (n : Nat) (trace : List Event) :
    alertsOf key (.adminAlert key' subject body to' n :: trace) = alertsOf key trace := by
  simp [alertsOf, h]

section

variable {s : Controller} (key : String)

theorem held_setKey (key' : String) (st : KeyState) (s : Controller) (trace : List Event) :
    Controller.held { s with alertState := setKey key' st s.alertState, trace := trace } key =
      if key = key' then st.suppressed else s.held key := by
  unfold Controller.held
  rw [lookup_setKey]
  split <;> rfl

theorem enabled_step (h : s.settings.alertsEnabled = true) (e : AlertEvent) :
    (e.step s).settings.alertsEnabled = true := by
  cases e with
  | call key' subject body =>
    rcases alertAdmins_cases key' subject body h with
      ⟨-, _, -, heq⟩ | ⟨-, -, heq⟩ | ⟨-, -, heq⟩ <;>
    · show ((alertAdmins key' subject body).after s).settings.alertsEnabled = true
      rw [heq]
      exact h
  | tick ms => exact h
  | setAdmins admins => exact h
  | setDedup minutes => exact h

/-- **Step lemma.** A call that reaches an admin is accounted for; another one is not, and what was
held for its key is lost with it. -/
theorem accounted_step (h : s.settings.alertsEnabled = true) (e : AlertEvent) :
    (Reaches key s e ∧ (e.step s).accounted key =
      s.accounted key + if e.isCall key then 1 else 0) ∨
    (¬ Reaches key s e ∧ (e.step s).accounted key <
      s.accounted key + if e.isCall key then 1 else 0) := by
  cases e with
  | tick ms => exact .inl ⟨nofun, rfl⟩
  | setAdmins admins => exact .inl ⟨nofun, rfl⟩
  | setDedup minutes => exact .inl ⟨nofun, rfl⟩
  | call key' subject body =>
    by_cases hkey : key' = key
    · subst hkey
      have hcall : (AlertEvent.call key' subject body).isCall key' = true := beq_self_eq_true key'
      rw [hcall, if_pos rfl]
      rcases alertAdmins_cases key' subject body h with
        ⟨hdue, k, hlookup, heq⟩ | ⟨hdue, hmail, heq⟩ | ⟨hdue, hmail, heq⟩
      · refine .inl ⟨fun _ hdue' => absurd hdue' (by simp [hdue]), ?_⟩
        have hheld : s.held key' = k.suppressed := by
          unfold Controller.held
          rw [hlookup]
          rfl
        show ((alertAdmins key' subject body).after s).accounted key' = _
        rw [heq]
        unfold Controller.accounted
        rw [held_setKey, if_pos rfl, hheld]
        dsimp only
        omega
      · refine .inl ⟨fun _ _ => hmail, ?_⟩
        show ((alertAdmins key' subject body).after s).accounted key' = _
        rw [heq]
        unfold Controller.accounted
        rw [held_setKey, if_pos rfl, alertsOf_cons_self, List.length_cons, List.sum_cons]
        dsimp only
        omega
      · refine .inr ⟨fun hreach => hreach hcall hdue hmail, ?_⟩
        show ((alertAdmins key' subject body).after s).accounted key' < _
        rw [heq]
        unfold Controller.accounted
        rw [held_setKey, if_pos rfl]
        dsimp only
        omega
    · have hcall : (AlertEvent.call key' subject body).isCall key = false :=
        beq_eq_false_iff_ne.mpr hkey
      refine .inl ⟨fun hc => absurd hc (by simp [hcall]), ?_⟩
      rw [hcall, if_neg (by decide), add_zero]
      show ((alertAdmins key' subject body).after s).accounted key = _
      unfold Controller.accounted
      rcases alertAdmins_cases key' subject body h with
        ⟨-, k, -, heq⟩ | ⟨-, -, heq⟩ | ⟨-, -, heq⟩
      · rw [heq, held_setKey, if_neg (Ne.symm hkey)]
      · rw [heq, held_setKey, if_neg (Ne.symm hkey), alertsOf_cons_ne hkey]
      · rw [heq, held_setKey, if_neg (Ne.symm hkey)]

/-- **Run lemma.** No more than the calls is accounted for, and all of them if and only if every one
of them reached an admin. -/
theorem accounted_run (h : s.settings.alertsEnabled = true) (es : List AlertEvent) :
    (Run.run AlertEvent.step s es).accounted key ≤ s.accounted key + callsOf key es ∧
      ((Run.run AlertEvent.step s es).accounted key = s.accounted key + callsOf key es ↔
        Run.Along AlertEvent.step (Reaches key) s es) := by
  induction es generalizing s with
  | nil => exact ⟨le_rfl, iff_of_true rfl trivial⟩
  | cons e es ih =>
    obtain ⟨hle, hiff⟩ := ih (enabled_step h e)
    have hcalls : callsOf key (e :: es) = callsOf key es + if e.isCall key then 1 else 0 :=
      List.countP_cons
    rw [Run.run_cons, Run.along_cons, hcalls]
    rcases accounted_step key h e with ⟨hreach, heq⟩ | ⟨hreach, hlt⟩
    · rw [heq] at hle hiff
      refine ⟨by omega, ?_⟩
      rw [← hiff, and_iff_right hreach]
      omega
    · refine ⟨by omega, iff_of_false (by omega) fun hboth => hreach hboth.1⟩

/-! ## Spacing -/

/-- The event hands an alert of the key to the mailer. -/
def Alerts (s : Controller) (e : AlertEvent) : Prop :=
  (alertsOf key s.trace).length < (alertsOf key (e.step s).trace).length

/-- The dedup state knows of an alert of the key at the time or after it. -/
def AlertedSince (sent : Nat) (s : Controller) : Prop :=
  ∃ k, s.alertState.lookup key = some k ∧ sent ≤ k.lastSent ∧ k.lastSent ≤ s.now

/-- An alert is due, and the dedup state has its time. -/
theorem alerts_due (h : s.settings.alertsEnabled = true) {e : AlertEvent} (hsend : Alerts key s e) :
    s.alertDue key = true ∧ AlertedSince key s.now (e.step s) := by
  unfold Alerts at hsend
  cases e with
  | tick ms => exact absurd hsend (lt_irrefl _)
  | setAdmins admins => exact absurd hsend (lt_irrefl _)
  | setDedup minutes => exact absurd hsend (lt_irrefl _)
  | call key' subject body =>
    replace hsend : (alertsOf key s.trace).length <
      (alertsOf key ((alertAdmins key' subject body).after s).trace).length := hsend
    show _ ∧ AlertedSince key s.now ((alertAdmins key' subject body).after s)
    rcases alertAdmins_cases key' subject body h with
      ⟨-, k, -, heq⟩ | ⟨hdue, -, heq⟩ | ⟨-, -, heq⟩
    · rw [heq] at hsend
      exact absurd hsend (lt_irrefl _)
    · by_cases hkey : key' = key
      · subst hkey
        rw [heq]
        refine ⟨hdue, ⟨s.now, 0⟩, ?_, le_rfl, le_rfl⟩
        rw [lookup_setKey, if_pos rfl]
      · rw [heq, alertsOf_cons_ne hkey] at hsend
        exact absurd hsend (lt_irrefl _)
    · rw [heq] at hsend
      exact absurd hsend (lt_irrefl _)

theorem alertedSince_step {sent : Nat} (h : s.settings.alertsEnabled = true)
    (hs : AlertedSince key sent s) (e : AlertEvent) : AlertedSince key sent (e.step s) := by
  obtain ⟨k, hlookup, hsent, hnow⟩ := hs
  cases e with
  | tick ms => exact ⟨k, hlookup, hsent, Nat.le_add_right_of_le hnow⟩
  | setAdmins admins => exact ⟨k, hlookup, hsent, hnow⟩
  | setDedup minutes => exact ⟨k, hlookup, hsent, hnow⟩
  | call key' subject body =>
    show AlertedSince key sent ((alertAdmins key' subject body).after s)
    by_cases hkey : key = key'
    · subst hkey
      rcases alertAdmins_cases key subject body h with
        ⟨-, k', hlookup', heq⟩ | ⟨-, -, heq⟩ | ⟨-, -, heq⟩
      · obtain rfl : k = k' := Option.some.inj (hlookup.symm.trans hlookup')
        rw [heq]
        exact ⟨{ k with suppressed := k.suppressed + 1 }, by rw [lookup_setKey, if_pos rfl],
          hsent, hnow⟩
      · rw [heq]
        exact ⟨⟨s.now, 0⟩, by rw [lookup_setKey, if_pos rfl], hsent.trans hnow, le_rfl⟩
      · rw [heq]
        exact ⟨⟨s.now, 0⟩, by rw [lookup_setKey, if_pos rfl], hsent.trans hnow, le_rfl⟩
    · rcases alertAdmins_cases key' subject body h with
        ⟨-, _, -, heq⟩ | ⟨-, -, heq⟩ | ⟨-, -, heq⟩ <;>
      · rw [heq]
        exact ⟨k, by rw [lookup_setKey, if_neg hkey]; exact hlookup, hsent, hnow⟩

/-- **Two alerts of one key** are the window of the later one apart. -/
theorem alerts_spaced (h : s.settings.alertsEnabled = true) {e e' : AlertEvent}
    (mid : List AlertEvent) (hsend : Alerts key s e)
    (hsend' : Alerts key (Run.run AlertEvent.step (e.step s) mid) e') :
    s.now + (Run.run AlertEvent.step (e.step s) mid).dedupMs ≤
      (Run.run AlertEvent.step (e.step s) mid).now := by
  have hinv : (Run.run AlertEvent.step (e.step s) mid).settings.alertsEnabled = true ∧
      AlertedSince key s.now (Run.run AlertEvent.step (e.step s) mid) :=
    Run.invariant_all
      (I := fun t : Controller => t.settings.alertsEnabled = true ∧ AlertedSince key s.now t)
      (fun t e ht => ⟨enabled_step ht.1 e, alertedSince_step key ht.1 ht.2 e⟩)
      ⟨enabled_step h e, (alerts_due key h hsend).2⟩
  generalize Run.run AlertEvent.step (e.step s) mid = t at hinv hsend' ⊢
  obtain ⟨henabled, k, hlookup, hsent, hnow⟩ := hinv
  have hdue := (alerts_due key henabled hsend').1
  have hwindow : ¬ t.now - k.lastSent < t.dedupMs := by
    simpa [Controller.alertDue, hlookup] using hdue
  omega

end

/-- **Every occurrence is accounted for** in a run if and only if each call of the key that is due
for an alert finds an admin to mail. Two alerts of the key are a window apart in every run. -/
theorem occurrences_counted_iff (s : Controller) (key : String) :
    (∀ es, (Run.run AlertEvent.step s.freshAlerts es).accounted key = callsOf key es ↔
      Run.Along AlertEvent.step (Reaches key) s.freshAlerts es) ∧
    ∀ es e mid e', Alerts key (Run.run AlertEvent.step s.freshAlerts es) e →
      Alerts key (Run.run AlertEvent.step s.freshAlerts (es ++ e :: mid)) e' →
      (Run.run AlertEvent.step s.freshAlerts es).now +
          (Run.run AlertEvent.step s.freshAlerts (es ++ e :: mid)).dedupMs ≤
        (Run.run AlertEvent.step s.freshAlerts (es ++ e :: mid)).now := by
  have henabled : s.freshAlerts.settings.alertsEnabled = true := rfl
  constructor
  · intro es
    have hrun := (accounted_run key henabled es).2
    have hstart : s.freshAlerts.accounted key = 0 := rfl
    rwa [hstart, Nat.zero_add] at hrun
  · intro es e mid e' hsend hsend'
    rw [Run.run_append, Run.run_cons] at hsend' ⊢
    have hrun : (Run.run AlertEvent.step s.freshAlerts es).settings.alertsEnabled = true :=
      Run.invariant_all (I := fun t : Controller => t.settings.alertsEnabled = true)
        (fun _ e ht => enabled_step ht e) henabled
    exact alerts_spaced key hrun mid hsend hsend'

/-- A call while no admin is registered is neither sent nor held. -/
theorem unheard_call_lost : ∃ (s : Controller) (key : String) (es : List AlertEvent),
    (Run.run AlertEvent.step s.freshAlerts es).accounted key ≠ callsOf key es :=
  ⟨{ host := .plain }, "k", [.call "k" "subject" "body"], by decide +kernel⟩

end MassDeployment

import MassDeployment.Lib.Wp

set_option autoImplicit false

/-! # Commands that fail or are cut short

A procedure runs commands one after the other. A command does its work, fails with part of the work
done, or dies with part of the work done: the machine goes down, and nothing of the procedure runs
after it. A handler (`rescue`) sees a failure and not the death. What becomes of a command is its
`Fate`, a parameter, so *every way to fail* is *every fate*.
-/

/-- What becomes of a command; `part` says how much of the work an unfinished one did. -/
inductive Fate (π : Type) where
  | done
  | fails (part : π)
  | dies (part : π)
  deriving DecidableEq, Repr

/-- A command that is cut short: it died on the way to what becomes of it, with no more of the work
done than is done in the end. -/
inductive Fate.Cut {π : Type} [LE π] : Fate π → Fate π → Prop
  | whole (f : Fate π) : Cut f f
  | working (p : π) : Cut .done (.dies p)
  | failing {p q : π} (h : q ≤ p) : Cut (.fails p) (.dies q)
  | dying {p q : π} (h : q ≤ p) : Cut (.dies p) (.dies q)

/-- The procedure goes on after the command, if it does not look at it. -/
def Fate.Survived {π : Type} (f : Fate π) : Prop := ∀ p, f ≠ .dies p

@[simp] theorem Fate.survived_done {π : Type} : (Fate.done : Fate π).Survived := nofun

@[simp] theorem Fate.survived_fails {π : Type} {p : π} : (Fate.fails p).Survived := nofun

@[simp] theorem Fate.not_survived_dies {π : Type} {p : π} : ¬ (Fate.dies p).Survived :=
  fun h => h p rfl

section

variable {π : Type} [LE π] {f f' : Fate π}

/-- A command that does not die was not cut short. -/
theorem Fate.Cut.eq_of_survived (h : f.Cut f') (hf : f'.Survived) : f' = f := by
  cases h with
  | whole => rfl
  | working p => exact absurd rfl (hf p)
  | failing | dying => exact absurd rfl (hf _)

theorem Fate.Cut.survived (h : f.Cut f') (hf : f'.Survived) : f.Survived := by
  rwa [← h.eq_of_survived hf]

theorem Fate.Cut.eq_done (h : f.Cut f') (hf : f' = .done) : f = .done := by
  rw [← hf]
  exact (h.eq_of_survived (by rw [hf]; exact nofun)).symm

end

/-- How a procedure ends that does not return. -/
inductive Fault (ε : Type) where
  | raised (e : ε)
  | died
  deriving DecidableEq, Repr

/-- A procedure may do anything to the state. -/
def Anyhow {σ : Type} (_ _ : σ) : Prop := True

instance {σ : Type} : IsPreorder σ Anyhow where
  refl _ := trivial
  trans _ _ _ _ _ := trivial

abbrev Procedure (σ ε α : Type) := Prog (σ := σ) Anyhow (Fault ε) α

namespace Procedure

variable {σ ε α π : Type}

def raise (e : ε) : Procedure σ ε α := throw (.raised e)

/-- Run a command, and whether it went through. Where it is not `able` to act it fails without a
trace. -/
def attempt (fate : Fate π) (able : σ → Bool) (work : σ → σ) (part : π → σ → σ) :
    Procedure σ ε Bool where
  run s :=
    match fate with
    | .done => if able s then (.ok true, work s) else (.ok false, s)
    | .fails p => (.ok false, if able s then part p s else s)
    | .dies p => (.error .died, if able s then part p s else s)
  keeps _ := trivial

/-- Raise unless the command went through. -/
def checked (e : ε) (x : Procedure σ ε Bool) : Procedure σ ε Unit := do
  if ← x then pure () else raise e

/-- A command that changes nothing the state shows. -/
def check (fate : Fate π) (e : ε) : Procedure σ ε Unit :=
  checked e (attempt fate (fun _ => true) id fun _ => id)

/-- Run `x`, and the handler where it raised. -/
def rescue (x : Procedure σ ε α) (handler : ε → Procedure σ ε α) : Procedure σ ε α :=
  tryCatch x fun
    | .raised e => handler e
    | .died => throw .died

/-! ## Respecting a relation -/

section

variable {Q : σ → σ → Prop} [IsPreorder σ Q]

/-- Nothing is done after what was raised. -/
theorem respects_raise_bind {β : Type} {e : ε} {k : α → Procedure σ ε β} :
    Prog.Respects Q (raise e >>= k) :=
  fun s => refl_of Q s

theorem respects_attempt {fate : Fate π} {able : σ → Bool} {work : σ → σ} {part : π → σ → σ}
    (hwork : ∀ s, able s → Q s (work s)) (hpart : ∀ p s, able s → Q s (part p s)) :
    Prog.Respects Q (attempt fate able work part : Procedure σ ε Bool) := by
  intro s
  by_cases h : able s
  · cases fate with
    | done => simpa [attempt, h] using hwork s h
    | fails p => simpa [attempt, h] using hpart p s h
    | dies p => simpa [attempt, h] using hpart p s h
  · have hrefl := refl_of Q s
    cases fate <;> simpa [attempt, h] using hrefl

theorem respects_checked {e : ε} {x : Procedure σ ε Bool} (hx : Prog.Respects Q x) :
    Prog.Respects Q (checked e x) :=
  .bind hx fun _ => .ite (fun _ => .pure ()) fun _ => .throw _

theorem respects_check {fate : Fate π} {e : ε} :
    Prog.Respects Q (check fate e : Procedure σ ε Unit) :=
  respects_checked (respects_attempt (fun s _ => refl_of Q s) fun _ s _ => refl_of Q s)

theorem respects_rescue {x : Procedure σ ε α} {handler : ε → Procedure σ ε α}
    (hx : Prog.Respects Q x) (hh : ∀ e, Prog.Respects Q (handler e)) :
    Prog.Respects Q (rescue x handler) := by
  refine .tryCatch hx fun e => ?_
  cases e with
  | raised e => exact hh e
  | died => exact .throw _

end

/-! ## Rules -/

variable {s : σ}

@[simp] theorem wp_raise {Q : α → σ → Prop} {E : Fault ε → σ → Prop} (e : ε) :
    Prog.wp (raise e : Procedure σ ε α) Q E s ↔ E (.raised e) s := Iff.rfl

section

variable {able : σ → Bool} {work : σ → σ} {part : π → σ → σ}
variable {Q : Bool → σ → Prop} {E : Fault ε → σ → Prop}

@[simp] theorem wp_attempt_done : Prog.wp (attempt .done able work part : Procedure σ ε Bool) Q E s ↔
    if able s then Q true (work s) else Q false s := by
  unfold Prog.wp attempt
  by_cases h : able s
  · simp [h]
  · simp [h]

@[simp] theorem wp_attempt_fails {p : π} :
    Prog.wp (attempt (.fails p) able work part : Procedure σ ε Bool) Q E s ↔
      Q false (if able s then part p s else s) := Iff.rfl

@[simp] theorem wp_attempt_dies {p : π} :
    Prog.wp (attempt (.dies p) able work part : Procedure σ ε Bool) Q E s ↔
      E .died (if able s then part p s else s) := Iff.rfl

end

@[simp] theorem wp_checked {Q : Unit → σ → Prop} {E : Fault ε → σ → Prop} {e : ε}
    {x : Procedure σ ε Bool} : Prog.wp (checked e x) Q E s ↔
      Prog.wp x (fun b s' => if b then Q () s' else E (.raised e) s') E s := by
  unfold checked
  rw [Prog.wp_bind]
  simp only [Prog.wp_ite, Prog.wp_pure, wp_raise]

/-- A handler sees what was raised; a death goes through it. -/
@[simp] theorem wp_rescue {Q : α → σ → Prop} {E : Fault ε → σ → Prop} {x : Procedure σ ε α}
    {handler : ε → Procedure σ ε α} : Prog.wp (rescue x handler) Q E s ↔
      Prog.wp x Q (fun
        | .raised e, s' => Prog.wp (handler e) Q E s'
        | .died, s' => E .died s') s := by
  unfold rescue
  rw [Prog.wp_tryCatch]
  have h : (fun (e : Fault ε) (s' : σ) => Prog.wp (match e with
        | .raised e => handler e
        | .died => throw .died) Q E s') =
      fun
        | .raised e, s' => Prog.wp (handler e) Q E s'
        | .died, s' => E .died s' := by
    funext e s'
    cases e <;> rfl
  rw [h]

@[simp] theorem wp_check {Q : Unit → σ → Prop} {E : Fault ε → σ → Prop} {e : ε} {fate : Fate π} :
    Prog.wp (check fate e) Q E s ↔
      match fate with
      | .done => Q () s
      | .fails _ => E (.raised e) s
      | .dies _ => E .died s := by
  unfold check
  cases fate with
  | done => simp
  | fails p => simp
  | dies p => simp

/-- A command: what it leaves where it went through, and one condition for all it may leave where it
did not. -/
theorem wp_command {Q : Unit → σ → Prop} {P : σ → Prop} {e : ε} {f : Fate π} {able : σ → Bool}
    {work : σ → σ} {part : π → σ → σ} (hwork : f = .done → able s → Q () (work s))
    (hstay : ¬ able s → P s)
    (hpart : ∀ p, f = .fails p ∨ f = .dies p → able s → P (part p s)) :
    Prog.wp (checked e (attempt f able work part)) Q (fun _ => P) s := by
  rw [wp_checked]
  by_cases h : able s
  · cases f with
    | done => simpa [h] using hwork rfl h
    | fails p => simpa [h] using hpart p (.inl rfl) h
    | dies p => simpa [h] using hpart p (.inr rfl) h
  · have hs := hstay h
    cases f <;> simpa [h] using hs

/-! ## The first command that does not go through -/

/-- A procedure takes its steps in order: it `stops` at the first one that does not go through, or it
`ends`. -/
def Trial {ι : Type} (fate : ι → Fate π) (stops : ι → Fate π → Prop) (ends : Prop) : List ι → Prop
  | [] => ends
  | i :: is =>
    match fate i with
    | .done => Trial fate stops ends is
    | .fails p => stops i (.fails p)
    | .dies p => stops i (.dies p)

section

variable {ι : Type} {fate : ι → Fate π} {stops stops' : ι → Fate π → Prop} {ends ends' : Prop}
variable {i : ι} {is is' : List ι}

@[simp] theorem trial_nil : Trial fate stops ends [] ↔ ends := Iff.rfl

theorem trial_done (h : fate i = .done) :
    Trial fate stops ends (i :: is) ↔ Trial fate stops ends is := by
  rw [Trial, h]

theorem trial_fails {p : π} (h : fate i = .fails p) :
    Trial fate stops ends (i :: is) ↔ stops i (.fails p) := by
  rw [Trial, h]

theorem trial_dies {p : π} (h : fate i = .dies p) :
    Trial fate stops ends (i :: is) ↔ stops i (.dies p) := by
  rw [Trial, h]

/-- Two accounts of a procedure: one follows from the other where it does on every step that does
not go through, and on the end. -/
theorem trial_mono (hstops : ∀ i ∈ is, ∀ f, fate i = f → f ≠ .done → stops i f → stops' i f)
    (hends : ends → ends') (h : Trial fate stops ends is) : Trial fate stops' ends' is := by
  induction is with
  | nil => exact hends h
  | cons i is ih =>
      cases hf : fate i with
      | done =>
        rw [trial_done hf] at h ⊢
        exact ih (fun j hj => hstops j (by simp [hj])) h
      | fails p =>
        rw [trial_fails hf] at h ⊢
        exact hstops i (by simp) _ hf nofun h
      | dies p =>
        rw [trial_dies hf] at h ⊢
        exact hstops i (by simp) _ hf nofun h

theorem trial_congr (hstops : ∀ i ∈ is, ∀ f, fate i = f → f ≠ .done → (stops i f ↔ stops' i f))
    (hends : ends ↔ ends') : Trial fate stops ends is ↔ Trial fate stops' ends' is :=
  ⟨trial_mono (fun i hi f hf hnot => (hstops i hi f hf hnot).mp) hends.mp,
    trial_mono (fun i hi f hf hnot => (hstops i hi f hf hnot).mpr) hends.mpr⟩

/-- An account that every step may stop with that does not go through, and that the end may end
with. -/
theorem trial_intro (hstops : ∀ i ∈ is, ∀ f, f ≠ .done → stops i f) (hends : ends) :
    Trial fate stops ends is := by
  induction is with
  | nil => exact hends
  | cons i is ih =>
      have hrest : Trial fate stops ends is := ih fun j hj => hstops j (by simp [hj])
      cases hf : fate i with
      | done => exact (trial_done hf).mpr hrest
      | fails p => exact (trial_fails hf).mpr (hstops i (by simp) _ nofun)
      | dies p => exact (trial_dies hf).mpr (hstops i (by simp) _ nofun)

/-- Two accounts of one procedure do not exclude each other on every step and on the end. -/
theorem trial_disjoint (h : Trial fate stops ends is) (h' : Trial fate stops' ends' is)
    (hstops : ∀ i f, f ≠ .done → stops i f → ¬ stops' i f) (hends : ends → ¬ ends') : False := by
  induction is with
  | nil => exact hends h h'
  | cons i is ih =>
      cases hf : fate i with
      | done =>
        rw [trial_done hf] at h h'
        exact ih h h'
      | fails p =>
        rw [trial_fails hf] at h h'
        exact hstops i (.fails p) nofun h h'
      | dies p =>
        rw [trial_dies hf] at h h'
        exact hstops i (.dies p) nofun h h'

/-- Every procedure comes to one verdict. -/
theorem trial_not (h : ¬ Trial fate stops ends is) :
    Trial fate (fun i f => ¬ stops i f) (¬ ends) is := by
  induction is with
  | nil => exact h
  | cons i is ih =>
      cases hf : fate i with
      | done =>
        rw [trial_done hf] at h ⊢
        exact ih h
      | fails p => rwa [trial_fails hf] at h ⊢
      | dies p => rwa [trial_dies hf] at h ⊢

/-- A step in front of a procedure: where it does not go through, the procedure stops there. -/
theorem wp_step {Q : α → σ → Prop} {E : Fault ε → σ → Prop} {e : ε} {f : Fate π} {able : σ → Bool}
    {work : σ → σ} {part : π → σ → σ} {k : Unit → Procedure σ ε α} {s : σ} (hable : able s = true)
    (hfate : fate i = f)
    (hfails : ∀ p, f = .fails p → (stops i (.fails p) ↔ E (.raised e) (part p s)))
    (hdies : ∀ p, f = .dies p → (stops i (.dies p) ↔ E .died (part p s)))
    (hk : Prog.wp (k ()) Q E (work s) ↔ Trial fate stops ends is) :
    Prog.wp (checked e (attempt f able work part) >>= k) Q E s ↔
      Trial fate stops ends (i :: is) := by
  rw [Prog.wp_bind, wp_checked]
  cases f with
  | done =>
    rw [trial_done hfate, wp_attempt_done, if_pos hable, if_pos rfl]
    exact hk
  | fails p =>
    rw [trial_fails hfate, wp_attempt_fails, if_pos hable, if_neg nofun]
    exact (hfails p rfl).symm
  | dies p =>
    rw [trial_dies hfate, wp_attempt_dies, if_pos hable]
    exact (hdies p rfl).symm

/-- A check in front of a procedure. -/
theorem wp_check_step {Q : α → σ → Prop} {E : Fault ε → σ → Prop} {e : ε} {f : Fate π}
    {k : Unit → Procedure σ ε α} {s : σ} (hfate : fate i = f)
    (hfails : ∀ p, f = .fails p → (stops i (.fails p) ↔ E (.raised e) s))
    (hdies : ∀ p, f = .dies p → (stops i (.dies p) ↔ E .died s))
    (hk : Prog.wp (k ()) Q E s ↔ Trial fate stops ends is) :
    Prog.wp (check f e >>= k) Q E s ↔ Trial fate stops ends (i :: is) :=
  wp_step rfl hfate hfails hdies hk

end

/-! ## Calls that are made again -/

/-- What was done on the way makes no difference to `x`. -/
def Absorbed (x : Procedure σ ε α) (s s' : σ) : Prop := x.run s' = x.run s

instance (x : Procedure σ ε α) : IsPreorder σ (Absorbed x) where
  refl _ := rfl
  trans _ _ _ h h' := h'.trans h

/-- So it is as long as `C` holds, which stays so. -/
def AbsorbedIf (C : σ → Prop) (x : Procedure σ ε α) (s s' : σ) : Prop :=
  C s → C s' ∧ x.run s' = x.run s

instance (C : σ → Prop) (x : Procedure σ ε α) : IsPreorder σ (AbsorbedIf C x) where
  refl _ hc := ⟨hc, rfl⟩
  trans _ _ _ h h' hc := ⟨(h' (h hc).1).1, (h' (h hc).1).2.trans (h hc).2⟩

/-- A call that does nothing where `C` does not hold. -/
theorem respects_absorbed {C : σ → Prop} {x y : Procedure σ ε α}
    (hkeep : Prog.Respects (AbsorbedIf C x) y) (hstop : ∀ s, ¬ C s → y.after s = s) :
    Prog.Respects (Absorbed x) y := by
  intro s
  by_cases hc : C s
  · exact (hkeep s hc).2
  · exact congrArg x.run (hstop s hc)

/-- Calls one after the other, whatever each of them comes to. -/
def retries {φ : Type} (call : φ → Procedure σ ε α) (s : σ) (tries : List φ) : σ :=
  tries.foldl (fun s f => (call f).after s) s

/-- **Retries converge**: where `x` absorbs every call, it does after any number of them what it
would have done before the first. -/
theorem run_retries {φ : Type} {call : φ → Procedure σ ε α} {x : Procedure σ ε α}
    (h : ∀ f, Prog.Respects (Absorbed x) (call f)) (s : σ) (tries : List φ) :
    x.run (retries call s tries) = x.run s := by
  induction tries generalizing s with
  | nil => rfl
  | cons f tries ih =>
      have hfirst : x.run ((call f).after s) = x.run s := h f s
      exact (ih _).trans hfirst

end Procedure

import MassDeployment.Lib.Prog
import MassDeployment.Lib.Run

set_option autoImplicit false

/-! # When a program does not throw

`Finishes x s`: run from `s`, `x` returns. The rules below are equivalences, one for each way to
build a program, so that the condition a program needs can be read off its text: a sequence
finishes where its first part does and the rest does in the state the first part leaves, a loop
where every turn does in the state it begins in.
-/

namespace Prog

variable {σ ε α β γ : Type} {R : σ → σ → Prop} [IsPreorder σ R]

/-- Run from `s`, `x` returns a value. -/
def Finishes (x : Prog R ε α) (s : σ) : Prop := ∃ a, (x.run s).1 = .ok a

/-- `x` returns a value, whatever state it is run from. -/
def Total (x : Prog R ε α) : Prop := ∀ s, Finishes x s

@[simp] theorem finishes_pure (a : α) (s : σ) : Finishes (pure a : Prog R ε α) s := ⟨a, rfl⟩

@[simp] theorem not_finishes_throw (e : ε) (s : σ) :
    ¬ Finishes (throw e : Prog R ε α) s := by
  rintro ⟨a, h⟩
  cases h

theorem finishes_read_bind (f : σ → α) (k : α → Prog R ε β) (s : σ) :
    Finishes (read f >>= k) s ↔ Finishes (k (f s)) s := Iff.rfl

/-- A sequence whose first part returns `a`. -/
theorem finishes_bind_of_run {x : Prog R ε α} {f : α → Prog R ε β} {s s' : σ} {a : α}
    (h : x.run s = (.ok a, s')) : Finishes (x >>= f) s ↔ Finishes (f a) s' := by
  unfold Finishes
  rw [run_bind_ok h]

/-- A sequence whose first part throws. -/
theorem not_finishes_bind_of_run {x : Prog R ε α} {f : α → Prog R ε β} {s s' : σ} {e : ε}
    (h : x.run s = (.error e, s')) : ¬ Finishes (x >>= f) s := by
  rintro ⟨b, hb⟩
  rw [run_bind_error h] at hb
  cases hb

/-- A sequence in which the rest does not depend on the value of the first part. -/
theorem finishes_seq (x : Prog R ε α) (y : Prog R ε β) (s : σ) :
    Finishes (x >>= fun _ => y) s ↔ Finishes x s ∧ Finishes y (x.after s) := by
  rcases hr : x.run s with ⟨e | a, s'⟩
  · refine iff_of_false (not_finishes_bind_of_run hr) ?_
    rintro ⟨⟨a, ha⟩, -⟩
    rw [hr] at ha
    cases ha
  · have hx : Finishes x s := ⟨a, by rw [hr]⟩
    have hs : x.after s = s' := by rw [after, hr]
    rw [finishes_bind_of_run hr, hs]
    exact ⟨fun hy => ⟨hx, hy⟩, And.right⟩

/-- Where its first part finishes, a sequence ends where the rest ends. -/
theorem after_seq {x : Prog R ε α} {s : σ} (h : Finishes x s) (y : Prog R ε β) :
    (x >>= fun _ => y).after s = y.after (x.after s) := by
  obtain ⟨a, ha⟩ := h
  have hr : x.run s = (.ok a, x.after s) := by rw [← ha, after]
  show ((x >>= fun _ => y).run s).2 = _
  rw [run_bind_ok hr]
  rfl

omit [IsPreorder σ R] in
theorem finishes_ite {c : Prop} [Decidable c] {x y : Prog R ε α} {s : σ} :
    Finishes (if c then x else y) s ↔ (c → Finishes x s) ∧ (¬ c → Finishes y s) := by
  by_cases h : c <;> simp [h]

/-- An early return. -/
theorem finishes_return {c : Prop} [Decidable c] {a : α} {y : Prog R ε α} {s : σ} :
    Finishes (if c then pure a else y) s ↔ (¬ c → Finishes y s) := by
  rw [finishes_ite]
  exact and_iff_right fun _ => finishes_pure a s

/-- An early throw. -/
theorem finishes_check {c : Prop} [Decidable c] {e : ε} {y : Prog R ε α} {s : σ} :
    Finishes (if c then throw e else y) s ↔ ¬ c ∧ Finishes y s := by
  rw [finishes_ite]
  by_cases h : c <;> simp [h]

/-- **The loop rule.** A loop finishes where every turn does in the state it begins in. -/
theorem finishes_forM (f : γ → Prog R ε PUnit) (l : List γ) (s : σ) :
    Finishes (l.forM f) s ↔
      Run.Along (fun s c => (f c).after s) (fun s c => Finishes (f c) s) s l := by
  induction l generalizing s with
  | nil => exact iff_of_true (finishes_pure _ s) trivial
  | cons c l ih =>
      rw [Run.along_cons, ← ih]
      exact finishes_seq (f c) (l.forM f) s

/-- A loop that keeps an invariant under which a turn finishes or not whatever the state. -/
theorem finishes_forM_of {I : σ → Prop} {P : γ → Prop} {f : γ → Prog R ε PUnit}
    (hI : ∀ c s, I s → I ((f c).after s)) (h : ∀ c s, I s → (Finishes (f c) s ↔ P c))
    (l : List γ) {s : σ} (hs : I s) : Finishes (l.forM f) s ↔ ∀ c ∈ l, P c := by
  induction l generalizing s with
  | nil => exact iff_of_true (finishes_pure _ s) nofun
  | cons c l ih =>
      rw [List.forall_mem_cons, ← h c s hs, ← ih (hI c s hs)]
      exact finishes_seq (f c) (l.forM f) s

theorem finishes_forM_mem {f : γ → Prog R ε PUnit} {l : List γ}
    (h : ∀ c ∈ l, ∀ s, Finishes (f c) s) (s : σ) : Finishes (l.forM f) s := by
  induction l generalizing s with
  | nil => exact finishes_pure _ s
  | cons c l ih =>
      refine (finishes_seq (f c) (l.forM f) s).mpr ⟨h c (by simp) s, ih (fun c' hc' => ?_) _⟩
      exact h c' (List.mem_cons_of_mem _ hc')

/-- A transaction finishes where its program does. -/
theorem finishes_atomically (x : Prog R ε α) (s : σ) :
    Finishes (atomically x) s ↔ Finishes x s := by
  unfold Finishes
  rw [run_atomically]
  rcases x.run s with ⟨e | a, s'⟩ <;> exact Iff.rfl

/-! ## Programs that never throw -/

namespace Total

theorem pure (a : α) : Total (Pure.pure a : Prog R ε α) := finishes_pure a

theorem read (f : σ → α) : Total (Prog.read f : Prog R ε α) := fun s => ⟨f s, rfl⟩

omit [IsPreorder σ R] in
theorem write (f : σ → σ) (h : ∀ s, R s (f s)) : Total (Prog.write f h : Prog R ε Unit) :=
  fun _ => ⟨(), rfl⟩

theorem bind {x : Prog R ε α} {f : α → Prog R ε β} (hx : Total x) (hf : ∀ a, Total (f a)) :
    Total (x >>= f) := by
  intro s
  obtain ⟨a, ha⟩ := hx s
  have hr : x.run s = (.ok a, x.after s) := by rw [← ha, after]
  rw [finishes_bind_of_run hr]
  exact hf a _

omit [IsPreorder σ R] in
theorem ite {c : Prop} [Decidable c] {x y : Prog R ε α} (hx : Total x) (hy : Total y) :
    Total (if c then x else y) := fun s => finishes_ite.mpr ⟨fun _ => hx s, fun _ => hy s⟩

theorem forM {f : γ → Prog R ε PUnit} (l : List γ) (hf : ∀ c, Total (f c)) : Total (l.forM f) :=
  fun _ => (finishes_forM_of (I := fun _ => True) (P := fun _ => True) (fun _ _ _ => trivial)
    (fun c s _ => iff_true_intro (hf c s)) l trivial).mpr fun _ _ => trivial

/-- A handler that does not throw catches everything. -/
theorem tryCatch {x : Prog R ε α} {h : ε → Prog R ε α} (hh : ∀ e, Total (h e)) :
    Total (MonadExcept.tryCatch x h) := by
  intro s
  unfold Finishes
  rcases hr : x.run s with ⟨e | a, s'⟩
  · rw [run_tryCatch_error hr]
    exact hh e s'
  · rw [run_tryCatch_ok hr]
    exact ⟨a, rfl⟩

/-- A part that never throws does not matter to whether the rest does. -/
theorem finishes_seq {x : Prog R ε α} (hx : Total x) (y : Prog R ε β) (s : σ) :
    Finishes (x >>= fun _ => y) s ↔ Finishes y (x.after s) := by
  rw [Prog.finishes_seq]
  exact and_iff_right (hx s)

/-- What comes last and never throws does not matter either. -/
theorem finishes_last {x : Prog R ε α} {f : α → Prog R ε β} (hf : ∀ a, Total (f a)) (s : σ) :
    Finishes (x >>= f) s ↔ Finishes x s := by
  rcases hr : x.run s with ⟨e | a, s'⟩
  · refine iff_of_false (not_finishes_bind_of_run hr) ?_
    rintro ⟨a, ha⟩
    rw [hr] at ha
    cases ha
  · rw [finishes_bind_of_run hr]
    exact iff_of_true (hf a s') ⟨a, by rw [hr]⟩

end Total

end Prog

import MassDeployment.Lib.Prog

set_option autoImplicit false

/-! # Weakest preconditions

`wp x Q E s` says that from the state `s` the program `x` either returns a value and a state that
satisfy `Q`, or throws and leaves an error and a state that satisfy `E`. One equivalence for each
way to build a program turns the condition for a program into conditions for its parts, so a
program is executed on a symbolic state by rewriting; `wp_mono` is the rule of consequence, by
which a function is replaced by what is known of it.
-/

namespace Prog

variable {σ ε α β γ : Type} {R : σ → σ → Prop}

/-- From `s` the program returns within `Q`, or throws within `E`. -/
def wp (x : Prog R ε α) (Q : α → σ → Prop) (E : ε → σ → Prop) (s : σ) : Prop :=
  match x.run s with
  | (.ok a, s') => Q a s'
  | (.error e, s') => E e s'

variable {Q Q' : α → σ → Prop} {E E' : ε → σ → Prop} {s : σ}

theorem wp_of_ok {x : Prog R ε α} {a : α} {s' : σ} (h : x.run s = (.ok a, s')) :
    wp x Q E s ↔ Q a s' := by
  rw [wp, h]

theorem wp_of_error {x : Prog R ε α} {e : ε} {s' : σ} (h : x.run s = (.error e, s')) :
    wp x Q E s ↔ E e s' := by
  rw [wp, h]

/-! ## One rule for each program -/

@[simp] theorem wp_write {Q : Unit → σ → Prop} (f : σ → σ) (h : ∀ s, R s (f s)) :
    wp (Prog.write f h : Prog R ε Unit) Q E s ↔ Q () (f s) := Iff.rfl

@[simp] theorem wp_ite {c : Prop} [Decidable c] (x y : Prog R ε α) :
    wp (if c then x else y) Q E s ↔ if c then wp x Q E s else wp y Q E s := by
  split <;> rfl

section

variable [IsPreorder σ R]

@[simp] theorem wp_pure (a : α) : wp (pure a : Prog R ε α) Q E s ↔ Q a s := Iff.rfl

@[simp] theorem wp_throw (e : ε) : wp (throw e : Prog R ε α) Q E s ↔ E e s := Iff.rfl

@[simp] theorem wp_read (f : σ → α) : wp (Prog.read f : Prog R ε α) Q E s ↔ Q (f s) s := Iff.rfl

@[simp] theorem wp_bind (x : Prog R ε β) (f : β → Prog R ε α) :
    wp (x >>= f) Q E s ↔ wp x (fun b s' => wp (f b) Q E s') E s := by
  unfold wp
  rw [run_bind]
  rcases x.run s with ⟨e | b, s'⟩ <;> rfl

@[simp] theorem wp_tryCatch (x : Prog R ε α) (h : ε → Prog R ε α) :
    wp (tryCatch x h) Q E s ↔ wp x Q (fun e s' => wp (h e) Q E s') s := by
  unfold wp
  rcases hr : x.run s with ⟨e | a, s'⟩
  · rw [run_tryCatch_error hr]
  · rw [run_tryCatch_ok hr]

/-- A transaction that throws leaves the state it began in. -/
@[simp] theorem wp_atomically (x : Prog R ε α) :
    wp (atomically x) Q E s ↔ wp x Q (fun e _ => E e s) s := by
  unfold wp
  rw [run_atomically]
  rcases x.run s with ⟨e | a, s'⟩ <;> rfl

@[simp] theorem wp_forM_nil {Q : PUnit → σ → Prop} (f : γ → Prog R ε PUnit) :
    wp (([] : List γ).forM f) Q E s ↔ Q ⟨⟩ s := Iff.rfl

@[simp] theorem wp_forM_cons {Q : PUnit → σ → Prop} (f : γ → Prog R ε PUnit) (a : γ) (l : List γ) :
    wp ((a :: l).forM f) Q E s ↔ wp (f a) (fun _ s' => wp (l.forM f) Q E s') E s := by
  show wp (f a >>= fun _ => l.forM f) Q E s ↔ _
  exact wp_bind _ _

end

/-! ## Consequence -/

/-- What is known of a program, used where less is asked. -/
theorem wp_mono {x : Prog R ε α} (h : wp x Q E s) (hQ : ∀ a s', Q a s' → Q' a s')
    (hE : ∀ e s', E e s' → E' e s') : wp x Q' E' s := by
  unfold wp at h ⊢
  rcases hr : x.run s with ⟨e | a, s'⟩
  · rw [hr] at h
    exact hE e s' h
  · rw [hr] at h
    exact hQ a s' h

/-- A program ends in one of the two ways. -/
theorem wp_ends {x : Prog R ε α} (h : wp x Q E s) : (∃ a s', Q a s') ∨ ∃ e s', E e s' := by
  unfold wp at h
  rcases hr : x.run s with ⟨e | a, s'⟩
  · rw [hr] at h
    exact .inr ⟨e, s', h⟩
  · rw [hr] at h
    exact .inl ⟨a, s', h⟩

/-- Two facts about one run. -/
theorem wp_and {x : Prog R ε α} (h : wp x Q E s) (h' : wp x Q' E' s) :
    wp x (fun a s' => Q a s' ∧ Q' a s') (fun e s' => E e s' ∧ E' e s') s := by
  unfold wp at h h' ⊢
  rcases hr : x.run s with ⟨e | a, s'⟩
  · rw [hr] at h h'
    exact ⟨h, h'⟩
  · rw [hr] at h h'
    exact ⟨h, h'⟩

/-- A relation the program respects holds of the state it ends in, in either way. -/
theorem Respects.wp {P : σ → σ → Prop} {x : Prog R ε α} (h : Respects P x) (s : σ) :
    wp x (fun _ s' => P s s') (fun _ s' => P s s') s := by
  have hs := h s
  unfold Prog.wp
  rcases hr : x.run s with ⟨e | a, s'⟩
  · rw [hr] at hs
    exact hs
  · rw [hr] at hs
    exact hs

/-- A condition on the state alone is a condition on the state the program leaves. -/
theorem wp_after {P : σ → Prop} {x : Prog R ε α} :
    wp x (fun _ s' => P s') (fun _ s' => P s') s ↔ P (x.after s) := by
  unfold wp after
  rcases x.run s with ⟨e | a, s'⟩ <;> rfl

theorem wp_returned {x : Prog R ε α} {a : α} (h : wp x Q E s) (ha : (x.run s).1 = .ok a) :
    Q a (x.after s) := by
  unfold wp at h
  unfold after
  rcases hr : x.run s with ⟨e | b, s'⟩
  · rw [hr] at ha
    cases ha
  · rw [hr] at h ha
    cases ha
    exact h

/-- A program that cannot throw returns. -/
theorem wp_total {x : Prog R ε α} (h : wp x Q (fun _ _ => False) s) :
    ∃ a, (x.run s).1 = .ok a ∧ Q a (x.after s) := by
  unfold wp at h
  unfold after
  rcases hr : x.run s with ⟨e | a, s'⟩
  · rw [hr] at h
    exact absurd h id
  · rw [hr] at h
    exact ⟨a, rfl, h⟩

/-- A loop that keeps an invariant in every turn that does not throw. -/
theorem wp_forM [IsPreorder σ R] {I : σ → Prop} {f : γ → Prog R ε PUnit} {l : List γ}
    (hf : ∀ a ∈ l, ∀ s, I s → wp (f a) (fun _ s' => I s') E s) (hs : I s) :
    wp (l.forM f) (fun _ s' => I s') E s := by
  induction l generalizing s with
  | nil => exact hs
  | cons a l ih =>
      rw [wp_forM_cons]
      refine wp_mono (hf a (by simp) s hs) (fun _ s' hs' => ?_) fun _ _ h => h
      exact ih (fun b hb => hf b (by simp [hb])) hs'

end Prog

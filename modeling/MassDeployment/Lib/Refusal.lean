import MassDeployment.Lib.Prog

set_option autoImplicit false

/-! # Checks before writes

A program that refuses its input should leave the state as it found it. Without a transaction
this is a matter of order: every check stands before the first write, and what follows the
first write makes no check of its own.

* `Spares E x` says that `x` throws nothing of the kind `E`;
* `Refuses E Q x` says that `x` has moved along `Q` at most when it throws such an error.

A check in front (`Refuses.after`) leaves the rest free to refuse, and a part that spares `E`
may follow anything (`Refuses.before`).
-/

namespace Prog

variable {σ ε α β : Type} {R : σ → σ → Prop} [IsPreorder σ R]

/-- `x` throws nothing of the kind `E`. -/
def Spares (E : ε → Prop) (x : Prog R ε α) : Prop := ∀ s e, (x.run s).1 = .error e → ¬ E e

/-- Where `x` throws an error of the kind `E`, it has moved along `Q`. -/
def Refuses (E : ε → Prop) (Q : σ → σ → Prop) (x : Prog R ε α) : Prop :=
  ∀ s e, (x.run s).1 = .error e → E e → Q s (x.run s).2

/-- A sequence throws what its first part threw, or what the rest threw. -/
theorem run_bind_throws {x : Prog R ε α} {f : α → Prog R ε β} {s : σ} {e : ε}
    (h : ((x >>= f).run s).1 = .error e) :
    ((x.run s).1 = .error e ∧ ((x >>= f).run s).2 = (x.run s).2) ∨
      ∃ a, (x.run s).1 = .ok a ∧ ((f a).run (x.run s).2).1 = .error e ∧
        ((x >>= f).run s).2 = ((f a).run (x.run s).2).2 := by
  rw [run_bind] at h ⊢
  rcases hx : x.run s with ⟨e' | a, s'⟩
  · rw [hx, andThen_error] at h
    cases h
    exact .inl ⟨rfl, rfl⟩
  · rw [hx] at h
    exact .inr ⟨a, rfl, h, rfl⟩

namespace Spares

variable {E : ε → Prop}

theorem pure (a : α) : Spares E (Pure.pure a : Prog R ε α) := nofun

theorem read (f : σ → α) : Spares E (Prog.read f : Prog R ε α) := nofun

omit [IsPreorder σ R] in
theorem write (f : σ → σ) (h : ∀ s, R s (f s)) : Spares E (Prog.write f h : Prog R ε Unit) := nofun

theorem throw {e : ε} (he : ¬ E e) : Spares E (MonadExcept.throw e : Prog R ε α) := by
  intro s e' h
  cases h
  exact he

theorem exchange {f : σ → Except ε (α × σ)} {h : ∀ s a s', f s = .ok (a, s') → R s s'}
    (he : ∀ s e, f s = .error e → ¬ E e) : Spares E (Prog.exchange f h) := by
  intro s e hrun
  simp only [Prog.exchange] at hrun
  cases hf : f s with
  | error e' =>
      rw [hf] at hrun
      cases hrun
      exact he s _ hf
  | ok p =>
      rw [hf] at hrun
      cases hrun

theorem bind {x : Prog R ε α} {f : α → Prog R ε β} (hx : Spares E x) (hf : ∀ a, Spares E (f a)) :
    Spares E (x >>= f) := by
  intro s e h
  rcases run_bind_throws h with ⟨hthrown, _⟩ | ⟨a, _, hthrown, _⟩
  · exact hx s e hthrown
  · exact hf a _ e hthrown

omit [IsPreorder σ R] in
theorem ite {c : Prop} [Decidable c] {x y : Prog R ε α} (hx : Spares E x) (hy : Spares E y) :
    Spares E (if c then x else y) := by
  split
  · exact hx
  · exact hy

theorem forM {γ : Type} {f : γ → Prog R ε PUnit} (l : List γ) (hf : ∀ a, Spares E (f a)) :
    Spares E (l.forM f) := by
  induction l with
  | nil => exact Spares.pure ()
  | cons a l ih => exact Spares.bind (hf a) fun _ => ih

theorem optionForM {γ : Type} {f : γ → Prog R ε PUnit} (o : Option γ) (hf : ∀ a, Spares E (f a)) :
    Spares E (o.forM f) := by
  cases o with
  | none => exact Spares.pure ()
  | some a => exact hf a

theorem atomically {x : Prog R ε α} (hx : Spares E x) : Spares E (Prog.atomically x) := by
  intro s e h
  rw [run_atomically] at h
  rcases hs : x.run s with ⟨e' | a, s'⟩
  · rw [hs] at h
    cases h
    exact hx s _ (by rw [hs])
  · rw [hs] at h
    cases h

omit [IsPreorder σ R] in
/-- What spares every error of the kind refuses in any way. -/
theorem refuses {Q : σ → σ → Prop} {x : Prog R ε α} (hx : Spares E x) : Refuses E Q x :=
  fun s e h he => absurd he (hx s e h)

end Spares

namespace Refuses

variable {E : ε → Prop} {Q : σ → σ → Prop} [IsPreorder σ Q]

omit [IsPreorder σ R] [IsPreorder σ Q] in
/-- A part that only moves along `Q` refuses in that way. -/
theorem of_respects {x : Prog R ε α} (hx : Respects Q x) : Refuses E Q x := fun s _ _ _ => hx s

theorem throw (e : ε) : Refuses E Q (MonadExcept.throw e : Prog R ε α) :=
  of_respects (Respects.throw e)

/-- A check in front, in one state. -/
theorem after_at {x : Prog R ε α} {f : α → Prog R ε β} {s : σ} (hx : Q s (x.run s).2)
    (hf : ∀ a, Refuses E Q (f a)) {e : ε} (h : ((x >>= f).run s).1 = .error e) (he : E e) :
    Q s ((x >>= f).run s).2 := by
  rcases run_bind_throws h with ⟨_, hend⟩ | ⟨a, _, hthrown, hend⟩
  · rw [hend]
    exact hx
  · rw [hend]
    exact trans_of Q hx (hf a _ e hthrown he)

/-- **A check in front**: whatever it does moves along `Q`. -/
theorem after {x : Prog R ε α} {f : α → Prog R ε β} (hx : Respects Q x)
    (hf : ∀ a, Refuses E Q (f a)) : Refuses E Q (x >>= f) :=
  fun s _ h he => after_at (hx s) hf h he

omit [IsPreorder σ Q] in
/-- **Writes at the end**: what follows makes no check. -/
theorem before {x : Prog R ε α} {f : α → Prog R ε β} (hx : Refuses E Q x)
    (hf : ∀ a, Spares E (f a)) : Refuses E Q (x >>= f) := by
  intro s e h he
  rcases run_bind_throws h with ⟨hthrown, hend⟩ | ⟨a, _, hthrown, _⟩
  · rw [hend]
    exact hx s e hthrown he
  · exact absurd he (hf a _ e hthrown)

/-- A read in front: the rest may use what was read. -/
theorem read {f : σ → α} {k : α → Prog R ε β} (hk : ∀ a, Refuses E Q (k a)) :
    Refuses E Q (Prog.read f >>= k) := after (Respects.read f) hk

omit [IsPreorder σ R] [IsPreorder σ Q] in
theorem ite {c : Prop} [Decidable c] {x y : Prog R ε α} (hx : Refuses E Q x)
    (hy : Refuses E Q y) : Refuses E Q (if c then x else y) := by
  split
  · exact hx
  · exact hy

/-- A transaction undoes what it wrote before it throws. -/
theorem atomically (x : Prog R ε α) : Refuses E Q (Prog.atomically x) := by
  intro s e h _
  rw [run_atomically] at h ⊢
  rcases hs : x.run s with ⟨e' | a, s'⟩
  · exact refl_of Q s
  · rw [hs] at h
    cases h

end Refuses

end Prog

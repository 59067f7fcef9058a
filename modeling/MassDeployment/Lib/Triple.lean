import MassDeployment.Lib.Prog

set_option autoImplicit false

/-! # What a program returns while an invariant holds

`Yields I P x`: where the invariant `I` holds, `x` keeps it, and what `x` returns satisfies `P`.
The property of the value does not speak of the state, so it lasts while the program goes on; the
rules below carry it from one part of the program text to the next.
-/

namespace Prog

variable {σ ε α β : Type} {R : σ → σ → Prop} [IsPreorder σ R] {I : σ → Prop}

/-- From one state: the invariant holds afterwards, and a value that is returned satisfies `P`. -/
def YieldsAt (I : σ → Prop) (P : α → Prop) (x : Prog R ε α) (s : σ) : Prop :=
  I (x.run s).2 ∧ ∀ a, (x.run s).1 = .ok a → P a

/-- From every state of the invariant. -/
def Yields (I : σ → Prop) (P : α → Prop) (x : Prog R ε α) : Prop := ∀ s, I s → YieldsAt I P x s

/-- A sequence from one state: the rest runs in a state of the invariant. -/
theorem YieldsAt.bind {P : α → Prop} {P' : β → Prop} {x : Prog R ε α} {f : α → Prog R ε β} {s : σ}
    (hx : YieldsAt I P x s) (hf : ∀ a, P a → Yields I P' (f a)) : YieldsAt I P' (x >>= f) s := by
  obtain ⟨hI, hP⟩ := hx
  unfold YieldsAt
  rw [run_bind]
  rcases hr : x.run s with ⟨e | a, s'⟩
  · rw [hr] at hI
    exact ⟨hI, nofun⟩
  · rw [hr] at hI hP
    exact hf a (hP a rfl) s' hI

theorem YieldsAt.read_bind {P : β → Prop} {f : σ → α} {k : α → Prog R ε β} {s : σ}
    (h : YieldsAt I P (k (f s)) s) : YieldsAt I P (Prog.read f >>= k) s := h

theorem YieldsAt.throw {P : α → Prop} {s : σ} (hs : I s) (e : ε) :
    YieldsAt I P (MonadExcept.throw e : Prog R ε α) s := ⟨hs, nofun⟩

omit [IsPreorder σ R] in
theorem YieldsAt.ite {P : α → Prop} {c : Prop} [Decidable c] {x y : Prog R ε α} {s : σ}
    (hx : c → YieldsAt I P x s) (hy : ¬ c → YieldsAt I P y s) :
    YieldsAt I P (if c then x else y) s := by
  split
  · exact hx ‹_›
  · exact hy ‹_›

namespace Yields

variable {P : α → Prop} {P' : β → Prop}

theorem pure {a : α} (h : P a) : Yields I P (Pure.pure a : Prog R ε α) := by
  intro s hs
  refine ⟨hs, fun b hb => ?_⟩
  cases hb
  exact h

theorem throw (e : ε) : Yields I P (MonadExcept.throw e : Prog R ε α) := fun _ hs => ⟨hs, nofun⟩

theorem read {f : σ → α} (h : ∀ s, I s → P (f s)) : Yields I P (Prog.read f : Prog R ε α) := by
  intro s hs
  refine ⟨hs, fun b hb => ?_⟩
  cases hb
  exact h s hs

theorem bind {x : Prog R ε α} {f : α → Prog R ε β} (hx : Yields I P x)
    (hf : ∀ a, P a → Yields I P' (f a)) : Yields I P' (x >>= f) := fun s hs => (hx s hs).bind hf

/-- A program that keeps the invariant in front of one that does not need its value. -/
theorem after {x : Prog R ε α} {f : α → Prog R ε β} (hx : Respects (Keeping I) x)
    (hf : ∀ a, Yields I P' (f a)) : Yields I P' (x >>= f) :=
  fun s hs => YieldsAt.bind ⟨hx s hs, fun _ _ => trivial⟩ fun a _ => hf a

/-- A read in front of a program: the rest may use what the invariant says of it. -/
theorem read_bind {f : σ → α} {k : α → Prog R ε β} (h : ∀ s, I s → Yields I P' (k (f s))) :
    Yields I P' (Prog.read f >>= k) := fun s hs => h s hs s hs

omit [IsPreorder σ R] in
theorem ite {c : Prop} [Decidable c] {x y : Prog R ε α} (hx : c → Yields I P x)
    (hy : ¬ c → Yields I P y) : Yields I P (if c then x else y) := by
  split
  · exact hx ‹_›
  · exact hy ‹_›

theorem atomically {x : Prog R ε α} (hx : Yields I P x) : Yields I P (Prog.atomically x) := by
  intro s hs
  obtain ⟨hI, hP⟩ := hx s hs
  unfold YieldsAt
  rw [run_atomically]
  rcases hr : x.run s with ⟨e | a, s'⟩
  · exact ⟨hs, nofun⟩
  · rw [hr] at hI hP
    exact ⟨hI, hP⟩

theorem tryCatch {x : Prog R ε α} {h : ε → Prog R ε α} (hx : Yields I P x)
    (hh : ∀ e, Yields I P (h e)) : Yields I P (MonadExcept.tryCatch x h) := by
  intro s hs
  obtain ⟨hI, hP⟩ := hx s hs
  unfold YieldsAt
  rcases hr : x.run s with ⟨e | a, s'⟩
  · rw [hr] at hI
    rw [run_tryCatch_error hr]
    exact hh e s' hI
  · rw [hr] at hI hP
    rw [run_tryCatch_ok hr]
    exact ⟨hI, hP⟩

theorem mapM {γ : Type} {f : γ → Prog R ε β} (l : List γ) (hf : ∀ a ∈ l, Yields I P' (f a)) :
    Yields I (fun bs => ∀ b ∈ bs, P' b) (l.mapM f) := by
  induction l with
  | nil => exact .pure (by simp)
  | cons a l ih =>
      rw [List.mapM_cons]
      refine .bind (hf a (by simp)) fun b hb => .bind (ih fun c hc => hf c (by simp [hc])) ?_
      intro bs hbs
      apply Yields.pure
      intro c hc
      rcases List.mem_cons.mp hc with rfl | hc
      · exact hb
      · exact hbs c hc

omit [IsPreorder σ R] in
theorem mono {Q : α → Prop} {x : Prog R ε α} (hx : Yields I P x) (h : ∀ a, P a → Q a) :
    Yields I Q x := fun s hs => ⟨(hx s hs).1, fun a ha => h a ((hx s hs).2 a ha)⟩

omit [IsPreorder σ R] in
theorem respects {x : Prog R ε α} (hx : Yields I P x) : Respects (Keeping I) x :=
  fun s hs => (hx s hs).1

end Yields

/-- A sequence keeps the invariant where its second part does on what the first one returns. -/
theorem Respects.bind_yields {P : α → Prop} {x : Prog R ε α} {f : α → Prog R ε β}
    (hx : Yields I P x) (hf : ∀ a, P a → Respects (Keeping I) (f a)) :
    Respects (Keeping I) (x >>= f) :=
  Yields.respects (P := fun _ => True) (hx.bind fun a ha s hs => ⟨hf a ha s hs, fun _ _ => trivial⟩)

end Prog

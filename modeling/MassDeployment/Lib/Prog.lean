import Mathlib.Order.Defs.Unbundled

set_option autoImplicit false

/-! # Programs that write a state and may throw

`Prog R ε α` is the type of programs over states `σ` that return an `α` or throw an `ε`.
What a program wrote before it threw stays written, as in a language with exceptions and
no transactions; `Prog.atomically` is the transaction that undoes the writes.

Every program carries the proof that it moves the state along the preorder `R`. The
preorder is the *arrow of time* of the state: what no program may ever undo. A primitive
write has to show it once (`Prog.write`); sequencing, branching, loops and handlers keep
it, so a program written in `do` notation needs no proof of its own.

A program respects further relations too, which only some programs keep. `Respects Q x`
says that `x` moves every state along `Q`, and the rules below walk through the program
text: one rule for each way to build a program.
-/

/-- A program over the states `σ`: it reads and writes the state, then returns a value or
throws. Every run moves the state along `R`. -/
structure Prog {σ : Type} (R : σ → σ → Prop) (ε α : Type) where
  run : σ → Except ε α × σ
  keeps : ∀ s, R s (run s).2

namespace Prog

variable {σ ε α β : Type} {R : σ → σ → Prop} [IsPreorder σ R]

/-- The state a program leaves behind, whether it returned or threw. -/
def after (x : Prog R ε α) (s : σ) : σ := (x.run s).2

/-- Run `f` on what the first run returned; a throw skips `f` and keeps the state. -/
def andThen (f : α → Prog R ε β) : Except ε α × σ → Except ε β × σ
  | (.ok a, s) => (f a).run s
  | (.error e, s) => (.error e, s)

theorem andThen_keeps (f : α → Prog R ε β) (o : Except ε α × σ) : R o.2 (andThen f o).2 := by
  rcases o with ⟨e | a, s⟩
  · exact refl_of R s
  · exact (f a).keeps s

instance : Monad (Prog R ε) where
  pure a := ⟨fun s => (.ok a, s), fun s => refl_of R s⟩
  bind x f := ⟨fun s => andThen f (x.run s), fun s =>
    trans_of R (x.keeps s) (andThen_keeps f (x.run s))⟩

/-- Read the state without writing it. -/
def read (f : σ → α) : Prog R ε α := ⟨fun s => (.ok (f s), s), fun s => refl_of R s⟩

/-- Write the state; the write must move along `R`. -/
def write (f : σ → σ) (h : ∀ s, R s (f s)) : Prog R ε Unit := ⟨fun s => (.ok (), f s), h⟩

/-- A write that also returns a value, or is refused and leaves the state as it was. -/
def exchange (f : σ → Except ε (α × σ)) (h : ∀ s a s', f s = .ok (a, s') → R s s') :
    Prog R ε α where
  run s :=
    match f s with
    | .ok (a, s') => (.ok a, s')
    | .error e => (.error e, s)
  keeps s := by
    cases hf : f s with
    | error e => exact refl_of R s
    | ok p => exact h s p.1 p.2 hf

/-- Throw `e`. -/
def fail (e : ε) : Prog R ε α := ⟨fun s => (.error e, s), fun s => refl_of R s⟩

/-- Run `x`; where it throws, run the handler on the state the throw left behind. -/
def handle (x : Prog R ε α) (h : ε → Prog R ε α) : Prog R ε α where
  run s :=
    match x.run s with
    | (.ok a, s') => (.ok a, s')
    | (.error e, s') => (h e).run s'
  keeps s := by
    have hx := x.keeps s
    rcases hr : x.run s with ⟨e | a, s'⟩
    · rw [hr] at hx
      exact trans_of R hx ((h e).keeps s')
    · rw [hr] at hx
      exact hx

instance : MonadExcept ε (Prog R ε) where
  throw := fail
  tryCatch := handle

/-- Run `x` as one transaction: a throw undoes every write of `x`. -/
def atomically (x : Prog R ε α) : Prog R ε α where
  run s :=
    match x.run s with
    | (.ok a, s') => (.ok a, s')
    | (.error e, _) => (.error e, s)
  keeps s := by
    have hx := x.keeps s
    rcases hr : x.run s with ⟨e | a, s'⟩
    · exact refl_of R s
    · rw [hr] at hx
      exact hx

/-! ## What a run computes -/

@[simp] theorem run_pure (a : α) (s : σ) : (pure a : Prog R ε α).run s = (.ok a, s) := rfl

theorem run_bind (x : Prog R ε α) (f : α → Prog R ε β) (s : σ) :
    (x >>= f).run s = andThen f (x.run s) := rfl

omit [IsPreorder σ R] in
@[simp] theorem andThen_ok (f : α → Prog R ε β) (a : α) (s : σ) :
    andThen f (.ok a, s) = (f a).run s := rfl

omit [IsPreorder σ R] in
@[simp] theorem andThen_error (f : α → Prog R ε β) (e : ε) (s : σ) :
    andThen f (.error e, s) = (.error e, s) := rfl

@[simp] theorem run_read (f : σ → α) (s : σ) :
    (read f : Prog R ε α).run s = (.ok (f s), s) := rfl

omit [IsPreorder σ R] in
@[simp] theorem run_write (f : σ → σ) (h : ∀ s, R s (f s)) (s : σ) :
    (write f h : Prog R ε Unit).run s = (.ok (), f s) := rfl

@[simp] theorem run_fail (e : ε) (s : σ) : (fail e : Prog R ε α).run s = (.error e, s) := rfl

@[simp] theorem run_throw (e : ε) (s : σ) : (throw e : Prog R ε α).run s = (.error e, s) := rfl

/-- A read in front of a program hands over what it read and nothing else. -/
@[simp] theorem run_read_bind (f : σ → α) (k : α → Prog R ε β) (s : σ) :
    (read f >>= k).run s = (k (f s)).run s := rfl

@[simp] theorem run_write_bind (f : σ → σ) (h : ∀ s, R s (f s)) (k : Unit → Prog R ε β) (s : σ) :
    (write f h >>= k).run s = (k ()).run (f s) := rfl

@[simp] theorem run_pure_bind (a : α) (k : α → Prog R ε β) (s : σ) :
    (pure a >>= k).run s = (k a).run s := rfl

omit [IsPreorder σ R] in
@[ext] theorem ext {x y : Prog R ε α} (h : ∀ s, x.run s = y.run s) : x = y := by
  cases x
  cases y
  congr
  exact funext h

instance : LawfulMonad (Prog R ε) :=
  LawfulMonad.mk' (Prog R ε)
    (fun x => ext fun s => by
      show andThen _ (x.run s) = x.run s
      rcases x.run s with ⟨_ | _, _⟩ <;> rfl)
    (fun _ _ => rfl)
    (fun x f g => ext fun s => by
      show andThen g (andThen f (x.run s)) = andThen _ (x.run s)
      rcases x.run s with ⟨_ | _, _⟩ <;> rfl)

theorem run_bind_ok {x : Prog R ε α} {s s' : σ} {a : α} (h : x.run s = (.ok a, s'))
    (k : α → Prog R ε β) : (x >>= k).run s = (k a).run s' := by
  rw [run_bind, h, andThen_ok]

theorem run_bind_error {x : Prog R ε α} {s s' : σ} {e : ε} (h : x.run s = (.error e, s'))
    (k : α → Prog R ε β) : (x >>= k).run s = (.error e, s') := by
  rw [run_bind, h, andThen_error]

theorem run_forM_cons {γ : Type} (f : γ → Prog R ε PUnit) (a : γ) (l : List γ) (s : σ) :
    ((a :: l).forM f).run s = (f a >>= fun _ => l.forM f).run s := rfl

theorem run_atomically (x : Prog R ε α) (s : σ) : (atomically x).run s =
    match x.run s with
    | (.ok a, s') => (.ok a, s')
    | (.error e, _) => (.error e, s) := rfl

theorem run_tryCatch_ok {x : Prog R ε α} {s s' : σ} {a : α} (hx : x.run s = (.ok a, s'))
    (h : ε → Prog R ε α) : (tryCatch x h).run s = (.ok a, s') := by
  show (match x.run s with
    | (.ok a, s') => (Except.ok a, s')
    | (.error e, s') => (h e).run s') = _
  rw [hx]

theorem run_tryCatch_error {x : Prog R ε α} {s s' : σ} {e : ε} (hx : x.run s = (.error e, s'))
    (h : ε → Prog R ε α) : (tryCatch x h).run s = (h e).run s' := by
  show (match x.run s with
    | (.ok a, s') => (Except.ok a, s')
    | (.error e, s') => (h e).run s') = _
  rw [hx]

/-- A sequence ends where its first part throws, or where the rest ends. -/
theorem after_bind (x : Prog R ε α) (f : α → Prog R ε β) (s : σ) :
    (x >>= f).after s = x.after s ∨ ∃ a, (x >>= f).after s = (f a).after (x.after s) := by
  unfold after
  rw [run_bind]
  rcases x.run s with ⟨e | a, s'⟩
  · exact .inl rfl
  · exact .inr ⟨a, rfl⟩

/-! ## Respecting a relation -/

/-- `x` moves every state along `Q`. -/
def Respects (Q : σ → σ → Prop) (x : Prog R ε α) : Prop := ∀ s, Q s (x.run s).2

namespace Respects

variable {Q : σ → σ → Prop} [IsPreorder σ Q]

theorem pure (a : α) : Respects Q (Pure.pure a : Prog R ε α) := fun s => refl_of Q s

theorem read (f : σ → α) : Respects Q (Prog.read f : Prog R ε α) := fun s => refl_of Q s

theorem throw (e : ε) : Respects Q (MonadExcept.throw e : Prog R ε α) := fun s => refl_of Q s

theorem bind {x : Prog R ε α} {f : α → Prog R ε β} (hx : Respects Q x)
    (hf : ∀ a, Respects Q (f a)) : Respects Q (x >>= f) := by
  intro s
  have h := hx s
  rw [run_bind]
  rcases hr : x.run s with ⟨e | a, s'⟩
  · rw [hr] at h
    exact h
  · rw [hr] at h
    exact trans_of Q h (hf a s')

/-- A sequence in one state: its first part moved there along `Q`. -/
theorem bind_at {x : Prog R ε α} {f : α → Prog R ε β} {s s' : σ} (hx : Q s' (x.run s).2)
    (hf : ∀ a, Respects Q (f a)) : Q s' ((x >>= f).run s).2 := by
  rw [run_bind]
  rcases hr : x.run s with ⟨e | a, s''⟩
  · rw [hr] at hx
    exact hx
  · rw [hr] at hx
    exact trans_of Q hx (hf a s'')

/-- A check in front of a program: it leaves the state alone, and the rest runs only where it
went through. -/
theorem check_bind {x : Prog R ε α} {f : α → Prog R ε β} {s : σ} {out : Except ε α}
    (hx : x.run s = (out, s)) (hf : ∀ a, out = .ok a → Q s ((f a).run s).2) :
    Q s ((x >>= f).run s).2 := by
  rw [run_bind, hx]
  cases out with
  | error e => exact refl_of Q s
  | ok a => exact hf a rfl

omit [IsPreorder σ Q] in
/-- A read in front of a program: the rest may use what was read from the same state. -/
theorem read_bind {f : σ → α} {k : α → Prog R ε β} (h : ∀ s, Q s ((k (f s)).run s).2) :
    Respects Q (Prog.read f >>= k) := h

omit [IsPreorder σ R] [IsPreorder σ Q] in
theorem write {f : σ → σ} {h : ∀ s, R s (f s)} (hQ : ∀ s, Q s (f s)) :
    Respects Q (Prog.write f h : Prog R ε Unit) := hQ

theorem exchange {f : σ → Except ε (α × σ)} {h : ∀ s a s', f s = .ok (a, s') → R s s'}
    (hQ : ∀ s a s', f s = .ok (a, s') → Q s s') : Respects Q (Prog.exchange f h) := by
  intro s
  simp only [Prog.exchange]
  cases hf : f s with
  | error e => exact refl_of Q s
  | ok p => exact hQ s p.1 p.2 hf

theorem tryCatch {x : Prog R ε α} {h : ε → Prog R ε α} (hx : Respects Q x)
    (hh : ∀ e, Respects Q (h e)) : Respects Q (MonadExcept.tryCatch x h) := by
  intro s
  have hs := hx s
  show Q s (match x.run s with
    | (.ok a, s') => (Except.ok a, s')
    | (.error e, s') => (h e).run s').2
  rcases hr : x.run s with ⟨e | a, s'⟩
  · rw [hr] at hs
    exact trans_of Q hs (hh e s')
  · rw [hr] at hs
    exact hs

theorem atomically {x : Prog R ε α} (hx : Respects Q x) : Respects Q (Prog.atomically x) := by
  intro s
  have hs := hx s
  simp only [Prog.atomically]
  rcases hr : x.run s with ⟨e | a, s'⟩
  · exact refl_of Q s
  · rw [hr] at hs
    exact hs

omit [IsPreorder σ R] [IsPreorder σ Q] in
theorem ite {c : Prop} [Decidable c] {x y : Prog R ε α} (hx : c → Respects Q x)
    (hy : ¬ c → Respects Q y) : Respects Q (if c then x else y) := by
  split
  · exact hx ‹_›
  · exact hy ‹_›

omit [IsPreorder σ R] [IsPreorder σ Q] in
/-- A branch in one state. -/
theorem ite_at {c : Prop} [Decidable c] {x y : Prog R ε α} {s s' : σ}
    (hx : c → Q s' (x.run s).2) (hy : ¬ c → Q s' (y.run s).2) :
    Q s' ((if c then x else y).run s).2 := by
  by_cases h : c
  · rw [if_pos h]
    exact hx h
  · rw [if_neg h]
    exact hy h

theorem forM {γ : Type} {f : γ → Prog R ε PUnit} (l : List γ) (hf : ∀ a, a ∈ l → Respects Q (f a)) :
    Respects Q (l.forM f) := by
  induction l with
  | nil => exact Respects.pure ()
  | cons a l ih =>
      refine Respects.bind (hf a (by simp)) fun _ => ih fun b hb => ?_
      exact hf b (by simp [hb])

theorem mapM {γ : Type} {f : γ → Prog R ε β} (l : List γ) (hf : ∀ a, a ∈ l → Respects Q (f a)) :
    Respects Q (l.mapM f) := by
  induction l with
  | nil => exact Respects.pure []
  | cons a l ih =>
      rw [List.mapM_cons]
      refine Respects.bind (hf a (by simp)) fun b => Respects.bind (ih fun c hc => ?_) fun bs => ?_
      · exact hf c (by simp [hc])
      · exact Respects.pure (b :: bs)

theorem optionForM {γ : Type} {f : γ → Prog R ε PUnit} (o : Option γ)
    (hf : ∀ a, o = some a → Respects Q (f a)) : Respects Q (o.forM f) := by
  cases o with
  | none => exact Respects.pure ()
  | some a => exact hf a rfl

omit [IsPreorder σ R] [IsPreorder σ Q] in
theorem mono {Q' : σ → σ → Prop} {x : Prog R ε α} (hx : Respects Q x)
    (h : ∀ s s', Q s s' → Q' s s') : Respects Q' x := fun s => h _ _ (hx s)

end Respects

/-- Steps along which an invariant is kept. -/
def Keeping (I : σ → Prop) (s s' : σ) : Prop := I s → I s'

instance (I : σ → Prop) : IsPreorder σ (Keeping I) where
  refl _ := id
  trans _ _ _ h h' := h' ∘ h

/-! ## What a program returns -/

/-- Every value `x` returns satisfies `P`. -/
def Returns (P : α → Prop) (x : Prog R ε α) : Prop :=
  ∀ s a, (x.run s).1 = .ok a → P a

namespace Returns

variable {P : α → Prop}

theorem pure {a : α} (h : P a) : Returns P (Pure.pure a : Prog R ε α) := by
  intro s b hb
  cases hb
  exact h

theorem throw (e : ε) : Returns P (MonadExcept.throw e : Prog R ε α) := nofun

theorem bind {x : Prog R ε β} {f : β → Prog R ε α} (hf : ∀ b, Returns P (f b)) :
    Returns P (x >>= f) := by
  intro s a ha
  rw [run_bind] at ha
  rcases hr : x.run s with ⟨e | b, s'⟩
  · rw [hr] at ha
    cases ha
  · rw [hr] at ha
    exact hf b s' a ha

/-- The rest may use what the first part returns. -/
theorem bind_of {P' : β → Prop} {x : Prog R ε β} {f : β → Prog R ε α} (hx : Returns P' x)
    (hf : ∀ b, P' b → Returns P (f b)) : Returns P (x >>= f) := by
  intro s a ha
  rw [run_bind] at ha
  rcases hr : x.run s with ⟨e | b, s'⟩
  · rw [hr] at ha
    cases ha
  · rw [hr] at ha
    exact hf b (hx s b (by rw [hr])) s' a ha

omit [IsPreorder σ R] in
theorem ite {c : Prop} [Decidable c] {x y : Prog R ε α} (hx : Returns P x) (hy : Returns P y) :
    Returns P (if c then x else y) := by
  split
  · exact hx
  · exact hy

theorem tryCatch {x : Prog R ε α} {h : ε → Prog R ε α} (hx : Returns P x)
    (hh : ∀ e, Returns P (h e)) : Returns P (MonadExcept.tryCatch x h) := by
  intro s a ha
  replace ha : (match x.run s with
    | (.ok a, s') => (Except.ok a, s')
    | (.error e, s') => (h e).run s').1 = .ok a := ha
  rcases hr : x.run s with ⟨e | b, s'⟩
  · rw [hr] at ha
    exact hh e s' a ha
  · rw [hr] at ha
    exact hx s a (by rw [hr]; exact ha)

end Returns

/-- A sequence respects what its parts do, the second one on what the first one returns. -/
theorem Respects.bind_returns {Q : σ → σ → Prop} [IsPreorder σ Q] {P : α → Prop}
    {x : Prog R ε α} {f : α → Prog R ε β} (hx : Respects Q x) (hr : Returns P x)
    (hf : ∀ a, P a → Respects Q (f a)) : Respects Q (x >>= f) := by
  intro s
  have h := hx s
  have ha := hr s
  rw [run_bind]
  rcases hs : x.run s with ⟨e | a, s'⟩
  · rw [hs] at h
    exact h
  · rw [hs] at h ha
    exact trans_of Q h (hf a (ha a rfl) s')

end Prog

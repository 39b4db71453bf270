import Mathlib.Logic.Basic

/-!
# Machinery/Fallible — sequencing of computations that have a state and can fail

A computation of `StateT σ (Except ε)` is a function of the state.  `bind_of_ok` and `bind_of_error`
run a sequence forwards, `exists_of_bind` takes one that returned apart, and `exists_of_bind_pure`
does so where there is no state.  What every step of a sequence does to the state the sequence does
(`Preserves.bind`), and what each step needs of the state before it the step before it has to give
(`Returns.bind`).  Two computations with related results fail alike (`Matches`).
-/

namespace Fallible

variable {σ ε α β : Type} {x : StateT σ (Except ε) α} {f : α → StateT σ (Except ε) β} {s s'' : σ}
  {a : α} {b : β} {s' : σ} {e : ε}

theorem bind_of_ok (h : x s = .ok (a, s')) : (x >>= f) s = f a s' := by
  change (x s >>= fun p => f p.1 p.2) = f a s'
  rw [h]
  rfl

theorem bind_of_error (h : x s = .error e) : (x >>= f) s = .error e := by
  change (x s >>= fun p => f p.1 p.2) = .error e
  rw [h]
  rfl

/-- **A sequence that returned went through a state in between.** -/
theorem exists_of_bind (h : (x >>= f) s = .ok (b, s'')) :
    ∃ a s', x s = .ok (a, s') ∧ f a s' = .ok (b, s'') := by
  rcases hx : x s with e | ⟨a, s'⟩
  · cases (bind_of_error hx).symm.trans h
  · exact ⟨a, s', rfl, (bind_of_ok hx).symm.trans h⟩

/-- A result that was computed on the way to another. -/
theorem exists_of_bind_pure {y : Except ε α} {g : α → Except ε β} (h : (y >>= g) = .ok b) :
    ∃ a, y = .ok a ∧ g a = .ok b := by
  rcases y with e | a
  · cases h
  · exact ⟨a, rfl, h⟩

theorem exists_of_map {y : Except ε α} {g : α → β} (h : y.map g = .ok b) :
    ∃ a, y = .ok a ∧ g a = b := by
  rcases y with e | a
  · cases h
  · exact ⟨a, rfl, Except.ok.inj h⟩

theorem exists_map_iff {y : Except ε α} {g : α → β} :
    (∃ b, y.map g = .ok b) ↔ ∃ a, y = .ok a := by
  rcases y with e | a
  · exact iff_of_false nofun nofun
  · exact iff_of_true ⟨_, rfl⟩ ⟨_, rfl⟩

/-- A computation that was seen to return. -/
theorem exists_of_toOption {y : Except ε α} {g : α → β} (h : y.toOption.map g = some b) :
    ∃ a, y = .ok a ∧ g a = b := by
  rcases y with e | a
  · cases h
  · exact ⟨a, rfl, Option.some.inj h⟩

/-- How a computation failed. -/
def fault : Except ε α → Option ε
  | .ok _ => none
  | .error e => some e

/-- A computation that was seen to fail. -/
theorem eq_error_of_fault {y : Except ε α} (h : fault y = some e) : y = .error e := by
  rcases y with e' | a
  · exact congrArg Except.error (Option.some.inj h)
  · cases h

/-! ## What a computation does to the state -/

/-- The state a computation returns in is `R`-related to the one it started in. -/
def Preserves (R : σ → σ → Prop) (x : StateT σ (Except ε) α) : Prop :=
  ∀ s a s', x s = .ok (a, s') → R s s'

variable {R : σ → σ → Prop}

theorem Preserves.pure (hR : ∀ s, R s s) (a : α) :
    Preserves R (Pure.pure a : StateT σ (Except ε) α) := by
  intro s a' s' h
  obtain ⟨-, rfl⟩ := Prod.ext_iff.mp (Except.ok.inj h)
  exact hR s

theorem Preserves.mono {R' : σ → σ → Prop} (h : Preserves R x) (hR : ∀ {s t}, R s t → R' s t) :
    Preserves R' x :=
  fun s a s' hx => hR (h s a s' hx)

theorem Preserves.throw (e : ε) : Preserves R (throw e : StateT σ (Except ε) α) :=
  fun _ _ _ h => nomatch h

/-- A result that has nothing to do with the state. -/
theorem Preserves.lift (hR : ∀ s, R s s) (y : Except ε α) :
    Preserves R (liftM y : StateT σ (Except ε) α) := by
  intro s a s' h
  rcases y with e | b
  · cases h
  · obtain ⟨-, rfl⟩ := Prod.ext_iff.mp (Except.ok.inj h)
    exact hR s

/-- What the two parts of a sequence do, one after the other. -/
theorem Preserves.seq {R' R'' : σ → σ → Prop} (hx : Preserves R x) (hf : ∀ a, Preserves R' (f a))
    (hR : ∀ s t u, R s t → R' t u → R'' s u) : Preserves R'' (x >>= f) := by
  intro s b s'' h
  obtain ⟨a, s', ha, hb⟩ := exists_of_bind h
  exact hR s s' s'' (hx s a s' ha) (hf a s' b s'' hb)

/-- **What each step of a sequence does, the sequence does.** -/
theorem Preserves.bind (hR : ∀ {s t u}, R s t → R t u → R s u) (hx : Preserves R x)
    (hf : ∀ a, Preserves R (f a)) : Preserves R (x >>= f) := by
  intro s b s'' h
  obtain ⟨a, s', ha, hb⟩ := exists_of_bind h
  exact hR (hx s a s' ha) (hf a s' b s'' hb)

/-! ## What a computation returns -/

/-- From this state the computation returns, and what it returns, and the state it returns in, are
as `Q` says. -/
def Returns (x : StateT σ (Except ε) α) (s : σ) (Q : α → σ → Prop) : Prop :=
  ∃ a s', x s = .ok (a, s') ∧ Q a s'

variable {Q : α → σ → Prop}

theorem Returns.pure (h : Q a s) : Returns (Pure.pure a : StateT σ (Except ε) α) s Q :=
  ⟨a, s, rfl, h⟩

theorem Returns.mono {Q' : α → σ → Prop} (hx : Returns x s Q) (h : ∀ {a s'}, Q a s' → Q' a s') :
    Returns x s Q' := by
  obtain ⟨a, s', hx, hQ⟩ := hx
  exact ⟨a, s', hx, h hQ⟩

/-- **A sequence returns when each step does, out of what the step before it left.** -/
theorem Returns.bind {Q' : β → σ → Prop} (hx : Returns x s Q)
    (hf : ∀ {a s'}, Q a s' → Returns (f a) s' Q') : Returns (x >>= f) s Q' := by
  obtain ⟨a, s', hx, hQ⟩ := hx
  obtain ⟨b, s'', hb, hQ'⟩ := hf hQ
  exact ⟨b, s'', (bind_of_ok hx).trans hb, hQ'⟩

theorem Returns.ite {y : StateT σ (Except ε) α} {p : Prop} [Decidable p]
    (ht : p → Returns x s Q) (hf : ¬ p → Returns y s Q) : Returns (if p then x else y) s Q := by
  split
  case isTrue h => exact ht h
  case isFalse h => exact hf h

/-! ## Two computations -/

/-- The computations fail alike, or return values that are `R`-related. -/
def Matches {ε α β : Type*} (R : α → β → Prop) : Except ε α → Except ε β → Prop
  | .ok a, .ok b => R a b
  | .error e, .error e' => e = e'
  | _, _ => False

section Matches

variable {ε α β γ δ : Type*} {R : α → β → Prop} {Q : γ → δ → Prop} {y : Except ε α} {z : Except ε β}

theorem Matches.refl (y : Except ε α) : Matches Eq y y := by
  rcases y with e | a <;> rfl

theorem Matches.map {f : α → γ} {g : β → δ} (h : Matches R y z)
    (hR : ∀ {a b}, R a b → Q (f a) (g b)) : Matches Q (y.map f) (z.map g) := by
  rcases y with e | a <;> rcases z with e' | b
  · exact h
  · exact h.elim
  · exact h.elim
  · exact hR h

/-- Where the results are compared in a type of their own, the computations are one. -/
theorem Matches.map_eq {f : α → γ} {g : β → γ} (h : Matches R y z)
    (hR : ∀ {a b}, R a b → f a = g b) : y.map f = z.map g := by
  rcases y with e | a <;> rcases z with e' | b
  · exact congrArg Except.error h
  · exact h.elim
  · exact h.elim
  · exact congrArg Except.ok (hR h)

theorem Matches.bind {f : α → Except ε γ} {g : β → Except ε δ} (h : Matches R y z)
    (hR : ∀ {a b}, R a b → Matches Q (f a) (g b)) : Matches Q (y.bind f) (z.bind g) := by
  rcases y with e | a <;> rcases z with e' | b
  · exact h
  · exact h.elim
  · exact h.elim
  · exact hR h

end Matches

end Fallible

import JustWeather.Machinery.Fallible
import Mathlib.Data.List.Induction

/-!
# Machinery/Trace — runs of a step that can fail and emits events

`run step inputs s` feeds the inputs to `step` one by one and concatenates the events.  A run that
fails has no state; what a property needs at every moment of a run is therefore asked of every run
that has one (`run_invariant`), and a failing run fails at a step out of a state some run reached
(`run_error`).  Whether a run comes by a certain step is `Visits`, read off it step by step; and
runs of two steps that match from related states match (`run_matches`).
-/

namespace Trace

variable {ι σ ω ε : Type*} {step : ι → σ → Except ε (σ × List ω)} {s s' s'' : σ} {e : ε}
  {i : ι} {is js : List ι} {evs evs' : List ω}

variable (step) in
/-- The state and the events after the inputs. -/
def run : List ι → σ → Except ε (σ × List ω)
  | [], s => .ok (s, [])
  | i :: is, s =>
    match step i s with
    | .error e => .error e
    | .ok (s', evs) =>
      match run is s' with
      | .error e => .error e
      | .ok (s'', evs') => .ok (s'', evs ++ evs')

@[simp] theorem run_nil (s : σ) : run step [] s = .ok (s, []) := rfl

theorem run_cons_of_ok (h : step i s = .ok (s', evs)) : run step (i :: is) s
    = (run step is s').map fun r => (r.1, evs ++ r.2) := by
  simp only [run, h]
  rcases run step is s' with e | ⟨s'', evs'⟩ <;> rfl

theorem run_cons_of_error (h : step i s = .error e) : run step (i :: is) s = .error e := by
  rw [run, h]

/-- A run of one more input is a step and a run. -/
theorem exists_of_run_cons (h : run step (i :: is) s = .ok (s'', evs)) :
    ∃ s' evs₁ evs₂, step i s = .ok (s', evs₁) ∧ run step is s' = .ok (s'', evs₂) ∧
      evs = evs₁ ++ evs₂ := by
  rcases hi : step i s with e | ⟨s', evs₁⟩
  · rw [run_cons_of_error hi] at h
    cases h
  · rw [run_cons_of_ok hi] at h
    rcases hr : run step is s' with e | ⟨t, evs₂⟩
    · rw [hr] at h
      cases h
    · rw [hr] at h
      obtain ⟨rfl, rfl⟩ : t = s'' ∧ evs₁ ++ evs₂ = evs := by simpa [Except.map] using h
      exact ⟨s', evs₁, evs₂, rfl, hr, rfl⟩

/-- **Runs compose.** -/
theorem run_append (h : run step is s = .ok (s', evs)) (js : List ι) :
    run step (is ++ js) s = (run step js s').map fun r => (r.1, evs ++ r.2) := by
  induction is generalizing s evs with
  | nil =>
    obtain ⟨rfl, rfl⟩ : s = s' ∧ [] = evs := by simpa using h
    rcases hj : run step js s with e | ⟨s'', evs'⟩ <;> simp [hj, Except.map]
  | cons i is ih =>
    rcases hi : step i s with e | ⟨t, evs₁⟩
    · rw [run_cons_of_error hi] at h
      cases h
    · rw [run_cons_of_ok hi] at h
      rcases hr : run step is t with e | ⟨t', evs₂⟩
      · rw [hr] at h
        cases h
      · rw [hr] at h
        obtain ⟨rfl, rfl⟩ : t' = s' ∧ evs₁ ++ evs₂ = evs := by simpa [Except.map] using h
        rw [List.cons_append, run_cons_of_ok hi, ih hr]
        rcases run step js t' with e | ⟨s'', evs'⟩ <;> simp [Except.map]

theorem run_concat (h : run step is s = .ok (s', evs)) (hi : step i s' = .ok (s'', evs')) :
    run step (is ++ [i]) s = .ok (s'', evs ++ evs') := by
  rw [run_append h, run_cons_of_ok hi]
  simp [Except.map]

/-- A run of inputs after inputs is a run and a run. -/
theorem exists_of_run_append (h : run step (is ++ js) s = .ok (s'', evs)) :
    ∃ s' evs₁ evs₂, run step is s = .ok (s', evs₁) ∧ run step js s' = .ok (s'', evs₂) ∧
      evs = evs₁ ++ evs₂ := by
  induction is generalizing s evs with
  | nil => exact ⟨s, [], evs, rfl, h, rfl⟩
  | cons i is ih =>
    obtain ⟨t, evs₁, evs', hi, hr, rfl⟩ := exists_of_run_cons h
    obtain ⟨u, evs₂, evs₃, hu, hjs, rfl⟩ := ih hr
    refine ⟨u, evs₁ ++ evs₂, evs₃, ?_, hjs, (List.append_assoc _ _ _).symm⟩
    rw [run_cons_of_ok hi, hu]
    rfl

/-- A run of one more input is a run and a step. -/
theorem exists_of_run_concat (h : run step (is ++ [i]) s = .ok (s'', evs)) :
    ∃ s' evs₁ evs₂, run step is s = .ok (s', evs₁) ∧ step i s' = .ok (s'', evs₂) ∧
      evs = evs₁ ++ evs₂ := by
  induction is generalizing s evs with
  | nil =>
    obtain ⟨t, evs₁, evs₂, hi, hr, rfl⟩ := exists_of_run_cons h
    obtain ⟨rfl, rfl⟩ : t = s'' ∧ [] = evs₂ := by simpa using hr
    exact ⟨s, [], evs₁, rfl, hi, List.append_nil _⟩
  | cons j is ih =>
    obtain ⟨t, evs₁, evs', hj, hr, rfl⟩ := exists_of_run_cons h
    obtain ⟨u, evs₂, evs₃, hu, hstep, rfl⟩ := ih hr
    refine ⟨u, evs₁ ++ evs₂, evs₃, ?_, hstep, (List.append_assoc _ _ _).symm⟩
    rw [run_cons_of_ok hj, hu]
    rfl

/-- **The invariant rule**: what holds at the start and survives each step holds after every run.
The invariant sees the inputs, the state and the events. -/
theorem run_invariant {P : List ι → σ → List ω → Prop} (h₀ : P [] s [])
    (hstep : ∀ {js t t' evs evs' i}, P js t evs → step i t = .ok (t', evs') →
      P (js ++ [i]) t' (evs ++ evs'))
    (h : run step is s = .ok (s', evs)) : P is s' evs := by
  induction is using List.reverseRecOn generalizing s' evs with
  | nil =>
    obtain ⟨rfl, rfl⟩ : s = s' ∧ [] = evs := by simpa using h
    exact h₀
  | append_singleton is i ih =>
    obtain ⟨t, evs₁, evs₂, ht, hi, rfl⟩ := exists_of_run_concat h
    exact hstep (ih ht) hi

/-- **A run that fails fails at a step out of a state a shorter run reached.** -/
theorem run_error (h : run step is s = .error e) :
    ∃ pre i post s' evs, is = pre ++ i :: post ∧ run step pre s = .ok (s', evs) ∧
      step i s' = .error e := by
  induction is generalizing s with
  | nil => cases h
  | cons j is ih =>
    rcases hj : step j s with f | ⟨t, evs₁⟩
    · rw [run_cons_of_error hj] at h
      obtain rfl : f = e := by simpa using h
      exact ⟨[], j, is, s, [], rfl, rfl, hj⟩
    · rw [run_cons_of_ok hj] at h
      rcases hr : run step is t with f | ⟨t', evs'⟩
      · rw [hr] at h
        obtain rfl : f = e := by simpa [Except.map] using h
        obtain ⟨pre, i, post, u, evs, rfl, hpre, hi⟩ := ih hr
        refine ⟨j :: pre, i, post, u, evs₁ ++ evs, rfl, ?_, hi⟩
        rw [run_cons_of_ok hj, hpre]
        rfl
      · rw [hr] at h
        cases h

/-- A failing step ends the run. -/
theorem run_append_error (h : run step is s = .ok (s', evs)) (hi : step i s' = .error e)
    (js : List ι) : run step (is ++ i :: js) s = .error e := by
  rw [run_append h, run_cons_of_error hi]
  rfl

/-- A run that failed goes no further. -/
theorem run_append_of_error (h : run step is s = .error e) (js : List ι) :
    run step (is ++ js) s = .error e := by
  obtain ⟨pre, i, post, s', evs, rfl, hpre, hi⟩ := run_error h
  rw [List.append_assoc, List.cons_append]
  exact run_append_error hpre hi _

/-- **An event of a run is an event of one of its steps.** -/
theorem exists_of_mem_events {w : ω} (h : run step is s = .ok (s', evs)) (hw : w ∈ evs) :
    ∃ pre i post t t' evs₁ evs₂, is = pre ++ i :: post ∧ run step pre s = .ok (t, evs₁) ∧
      step i t = .ok (t', evs₂) ∧ w ∈ evs₂ := by
  induction is using List.reverseRecOn generalizing s' evs with
  | nil =>
    obtain ⟨-, rfl⟩ : s = s' ∧ [] = evs := by simpa using h
    cases hw
  | append_singleton is i ih =>
    obtain ⟨t, evs₁, evs₂, ht, hi, rfl⟩ := exists_of_run_concat h
    rcases List.mem_append.mp hw with hw | hw
    · obtain ⟨pre, j, post, u, u', evs₃, evs₄, rfl, hpre, hj, hmem⟩ := ih ht hw
      exact ⟨pre, j, post ++ [i], u, u', evs₃, evs₄, by simp, hpre, hj, hmem⟩
    · exact ⟨is, i, [], t, s', evs₁, evs₂, rfl, ht, hi, hw⟩

/-! ## What a run comes by -/

variable (step) in
/-- **Some step of the run**, of an input out of a state, is as `P` says. -/
def Visits (P : ι → σ → Prop) : List ι → σ → Prop
  | [], _ => False
  | i :: is, s => P i s ∨ ∃ s' evs, step i s = .ok (s', evs) ∧ Visits P is s'

variable {P : ι → σ → Prop}

@[simp] theorem not_visits_nil (s : σ) : ¬ Visits step P [] s := not_false

theorem visits_cons_of_ok (h : step i s = .ok (s', evs)) :
    Visits step P (i :: is) s ↔ P i s ∨ Visits step P is s' := by
  refine or_congr_right ⟨fun ⟨t, evs', ht, hv⟩ => ?_, fun hv => ⟨s', evs, h, hv⟩⟩
  obtain ⟨rfl, -⟩ := Prod.ext_iff.mp (Except.ok.inj (h.symm.trans ht))
  exact hv

theorem visits_concat (h : run step is s = .ok (s', evs)) :
    Visits step P (is ++ [i]) s ↔ Visits step P is s ∨ P i s' := by
  induction is generalizing s evs with
  | nil =>
    obtain ⟨rfl, -⟩ := Prod.ext_iff.mp (Except.ok.inj h)
    simp [Visits]
  | cons j is ih =>
    obtain ⟨t, evs₁, evs₂, hj, hr, rfl⟩ := exists_of_run_cons h
    rw [List.cons_append, visits_cons_of_ok hj, visits_cons_of_ok hj, ih hr, or_assoc]

/-- The step is one after some inputs, and the run comes to it. -/
theorem visits_iff : Visits step P is s ↔
    ∃ pre i post t evs, is = pre ++ i :: post ∧ run step pre s = .ok (t, evs) ∧ P i t := by
  induction is generalizing s with
  | nil => simp
  | cons i is ih =>
    constructor
    · rintro (hP | ⟨t, evs, ht, hv⟩)
      · exact ⟨[], i, is, s, [], rfl, rfl, hP⟩
      · obtain ⟨pre, j, post, u, evs', rfl, hrun, hP⟩ := ih.mp hv
        refine ⟨i :: pre, j, post, u, evs ++ evs', rfl, ?_, hP⟩
        rw [run_cons_of_ok ht, hrun]
        rfl
    · rintro ⟨pre, j, post, u, evs, heq, hrun, hP⟩
      cases pre with
      | nil =>
        obtain ⟨rfl, rfl⟩ := List.cons.inj heq
        obtain ⟨rfl, -⟩ := Prod.ext_iff.mp (Except.ok.inj hrun)
        exact Or.inl hP
      | cons k pre =>
        obtain ⟨rfl, rfl⟩ := List.cons.inj heq
        obtain ⟨t, evs₁, evs₂, ht, hu, -⟩ := exists_of_run_cons hrun
        exact Or.inr ⟨t, evs₁, ht, ih.mpr ⟨pre, j, post, u, evs₂, rfl, hu, hP⟩⟩

/-- What some step of a run was, some step of a longer run was. -/
theorem Visits.append (h : Visits step P is s) (js : List ι) : Visits step P (is ++ js) s := by
  obtain ⟨pre, i, post, t, evs, rfl, hrun, hi⟩ := visits_iff.mp h
  exact visits_iff.mpr ⟨pre, i, post ++ js, t, evs, by simp, hrun, hi⟩

/-- **The rule of what lasts until a step**: where a step ends well exactly when it began well and
is not as `P` says, so does a run that comes by no such step. -/
theorem run_iff_not_visits {I : σ → Prop}
    (hstep : ∀ {i t t' evs}, i ∈ is → step i t = .ok (t', evs) → (I t' ↔ ¬ P i t ∧ I t))
    (h : run step is s = .ok (s', evs)) : I s' ↔ ¬ Visits step P is s ∧ I s := by
  induction is generalizing s evs with
  | nil =>
    obtain ⟨rfl, -⟩ := Prod.ext_iff.mp (Except.ok.inj h)
    simp
  | cons i is ih =>
    obtain ⟨t, evs₁, evs₂, hi, hr, rfl⟩ := exists_of_run_cons h
    rw [visits_cons_of_ok hi, not_or, ih (fun hj => hstep (List.mem_cons_of_mem i hj)) hr,
      hstep (List.mem_cons_self ..) hi]
    tauto

/-- **The invariant rule of a run that comes by no step as `P` says.** -/
theorem run_invariant_of_not_visits {I : σ → Prop} (hs : I s)
    (hstep : ∀ {i t t' evs}, I t → ¬ P i t → step i t = .ok (t', evs) → I t')
    (hno : ¬ Visits step P is s) (h : run step is s = .ok (s', evs)) : I s' := by
  induction is generalizing s evs with
  | nil =>
    obtain ⟨rfl, -⟩ := Prod.ext_iff.mp (Except.ok.inj h)
    exact hs
  | cons i is ih =>
    obtain ⟨t, evs₁, evs₂, hi, hr, rfl⟩ := exists_of_run_cons h
    rw [visits_cons_of_ok hi, not_or] at hno
    exact ih (hstep hs hno.1 hi) hno.2 hr

/-- **A run ends if it comes by no step that fails.** -/
theorem exists_run_iff_not_visits (hstep : ∀ i s, (∃ r, step i s = .ok r) ↔ ¬ P i s) :
    (∃ r, run step is s = .ok r) ↔ ¬ Visits step P is s := by
  induction is generalizing s with
  | nil => exact iff_of_true ⟨_, rfl⟩ (not_visits_nil s)
  | cons i is ih =>
    rcases hi : step i s with e | ⟨t, evs⟩
    · have hP : P i s := by
        by_contra hno
        obtain ⟨r, hr⟩ := (hstep i s).mpr hno
        cases hi.symm.trans hr
      refine iff_of_false ?_ fun hno => hno (Or.inl hP)
      rintro ⟨r, hr⟩
      cases (run_cons_of_error hi).symm.trans hr
    · have hno : ¬ P i s := (hstep i s).mp ⟨_, hi⟩
      rw [visits_cons_of_ok hi, not_or, and_iff_right hno, ← ih]
      constructor
      · rintro ⟨r, hr⟩
        obtain ⟨t', evs₁, evs₂, ht, hr', -⟩ := exists_of_run_cons hr
        obtain ⟨rfl, -⟩ := Prod.ext_iff.mp (Except.ok.inj (hi.symm.trans ht))
        exact ⟨_, hr'⟩
      · rintro ⟨r, hr⟩
        rw [run_cons_of_ok hi, hr]
        exact ⟨_, rfl⟩

/-! ## Two runs -/

variable {τ : Type*} {step' : ι → τ → Except ε (τ × List ω)} {t : τ} {R : σ → τ → Prop}

/-- The states are related, and the events the same. -/
def Alike (R : σ → τ → Prop) (p : σ × List ω) (q : τ × List ω) : Prop := R p.1 q.1 ∧ p.2 = q.2

/-- **Where each step matches, runs match**: they fail alike, or end in related states after the
same events. -/
theorem run_matches
    (hstep : ∀ i s t, R s t → Fallible.Matches (Alike R) (step i s) (step' i t)) (h : R s t)
    (is : List ι) : Fallible.Matches (Alike R) (run step is s) (run step' is t) := by
  induction is generalizing s t with
  | nil => exact ⟨h, rfl⟩
  | cons i is ih =>
    have hi := hstep i s t h
    rcases hs : step i s with e | ⟨s', evs⟩ <;> rcases ht : step' i t with e' | ⟨t', evs'⟩ <;>
      rw [hs, ht] at hi
    · rwa [run_cons_of_error hs, run_cons_of_error ht]
    · exact hi.elim
    · exact hi.elim
    · obtain ⟨hR, rfl⟩ := hi
      rw [run_cons_of_ok hs, run_cons_of_ok ht]
      exact (ih hR).map fun ha => ⟨ha.1, congrArg (evs ++ ·) ha.2⟩

end Trace

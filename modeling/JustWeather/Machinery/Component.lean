import JustWeather.Machinery.Trace

/-!
# Machinery/Component — the life of one component of a system

What the steps of a run take, each out of the state it is made in, adds up along the run (`gather`).
A system whose steps are each a step of one component, or of none, can be looked at through that
component alone: the inputs of the steps that were its own, in their order, make a run of the
component (`run_part`), and nothing else that went on in the system is part of its story
(`run_born`).  Two systems that give a component the same inputs cannot be told apart by it.
-/

namespace Trace

variable {ι σ ω ε κ τ ω' α : Type*} {step : ι → σ → Except ε (σ × List ω)} {s s' s'' : σ} {i : ι}
  {is : List ι} {evs evs' : List ω}

/-! ## What the steps of a run take -/

variable (step) in
/-- What the steps of a run take, one after the other. -/
def gather (take : ι → σ → List α) : List ι → σ → List α
  | [], _ => []
  | i :: is, s =>
    take i s ++ match step i s with
      | .error _ => []
      | .ok (s', _) => gather take is s'

variable {take : ι → σ → List α}

theorem gather_cons (h : step i s = .ok (s', evs)) (is : List ι) :
    gather step take (i :: is) s = take i s ++ gather step take is s' := by
  rw [gather, h]

theorem gather_append (h : run step is s = .ok (s', evs)) (js : List ι) :
    gather step take (is ++ js) s = gather step take is s ++ gather step take js s' := by
  induction is generalizing s evs with
  | nil =>
    obtain ⟨rfl, -⟩ := Prod.ext_iff.mp (Except.ok.inj h)
    rfl
  | cons i is ih =>
    obtain ⟨t, evs₁, evs₂, hi, hr, rfl⟩ := exists_of_run_cons h
    rw [List.cons_append, gather_cons hi, gather_cons hi, ih hr, List.append_assoc]

theorem gather_concat (h : run step is s = .ok (s', evs)) (i : ι) :
    gather step take (is ++ [i]) s = gather step take is s ++ take i s' := by
  have hone : gather step take [i] s' = take i s' := by
    rw [gather]
    rcases step i s' with e | ⟨t, evs'⟩ <;> exact List.append_nil _
  rw [gather_append h, hone]

theorem exists_of_mem_gather {a : α} (h : a ∈ gather step take is s) :
    ∃ i ∈ is, ∃ s', a ∈ take i s' := by
  induction is generalizing s with
  | nil => cases h
  | cons i is ih =>
    rw [gather, List.mem_append] at h
    rcases h with h | h
    · exact ⟨i, List.mem_cons_self .., s, h⟩
    · rcases hi : step i s with e | ⟨s', evs⟩ <;> rw [hi] at h
      · cases h
      · obtain ⟨j, hj, s'', hs''⟩ := ih h
        exact ⟨j, List.mem_cons_of_mem i hj, s'', hs''⟩

/-- What is read off what was taken. -/
theorem gather_flatMap {β : Type*} (take : ι → σ → List α) (f : α → List β) (is : List ι) (s : σ) :
    (gather step take is s).flatMap f = gather step (fun i s => (take i s).flatMap f) is s := by
  induction is generalizing s with
  | nil => rfl
  | cons i is ih =>
    rw [gather, gather, List.flatMap_append]
    rcases step i s with e | ⟨s', evs⟩
    · rfl
    · exact congrArg _ (ih s')

/-- Two ways to take that agree on the steps of the run. -/
theorem gather_congr {take' : ι → σ → List α} (h : run step is s = .ok (s', evs))
    (hsame : ∀ {i t t' evs}, step i t = .ok (t', evs) → take i t = take' i t) :
    gather step take is s = gather step take' is s := by
  induction is generalizing s evs with
  | nil => rfl
  | cons i is ih =>
    obtain ⟨u, evs₁, evs₂, hi, hr, -⟩ := exists_of_run_cons h
    rw [gather_cons hi, gather_cons hi, hsame hi, ih hr]

/-- **What was taken was taken by a step of the run.** -/
theorem mem_gather_iff {a : α} (h : run step is s = .ok (s', evs)) :
    a ∈ gather step take is s ↔ ∃ pre i post t evs', is = pre ++ i :: post ∧
      run step pre s = .ok (t, evs') ∧ a ∈ take i t := by
  induction is generalizing s evs with
  | nil => simp [gather]
  | cons i is ih =>
    obtain ⟨u, evs₁, evs₂, hi, hr, -⟩ := exists_of_run_cons h
    rw [gather_cons hi, List.mem_append, ih hr]
    constructor
    · rintro (ha | ⟨pre, j, post, t, evs', rfl, hpre, ha⟩)
      · exact ⟨[], i, is, s, [], rfl, rfl, ha⟩
      · refine ⟨i :: pre, j, post, t, evs₁ ++ evs', rfl, ?_, ha⟩
        rw [run_cons_of_ok hi, hpre]
        rfl
    · rintro ⟨pre, j, post, t, evs', heq, hpre, ha⟩
      cases pre with
      | nil =>
        obtain ⟨rfl, rfl⟩ := List.cons.inj heq
        obtain ⟨rfl, -⟩ := Prod.ext_iff.mp (Except.ok.inj hpre)
        exact Or.inl ha
      | cons k pre =>
        obtain ⟨rfl, rfl⟩ := List.cons.inj heq
        obtain ⟨v, evs₃, evs₄, hv, hpre', -⟩ := exists_of_run_cons hpre
        obtain ⟨rfl, -⟩ := Prod.ext_iff.mp (Except.ok.inj (hi.symm.trans hv))
        exact Or.inr ⟨pre, j, post, t, evs₄, rfl, hpre', ha⟩

/-- **The invariant rule with what was taken**: what holds at the start and survives each step holds
after every run, of what its steps took, its state and its events. -/
theorem run_invariant_gather {P : List α → σ → List ω → Prop} (h₀ : P [] s [])
    (hstep : ∀ {as t t' evs evs' i}, i ∈ is → P as t evs → step i t = .ok (t', evs') →
      P (as ++ take i t) t' (evs ++ evs'))
    (h : run step is s = .ok (s', evs)) : P (gather step take is s) s' evs := by
  induction is using List.reverseRecOn generalizing s' evs with
  | nil =>
    obtain ⟨rfl, rfl⟩ := Prod.ext_iff.mp (Except.ok.inj h)
    exact h₀
  | append_singleton is i ih =>
    obtain ⟨t, evs₁, evs₂, ht, hi, rfl⟩ := exists_of_run_concat h
    rw [gather_concat ht]
    exact hstep (by simp) (ih (fun hj => hstep (List.mem_append_left _ hj)) ht) hi

/-! ## A system that goes through the steps of another -/

/-- **Each step of the one is a step of the other**: of what its input is to that, out of the part
of the state that is its state. -/
def Mimics (step' : κ → τ → Except ε (τ × List ω)) (step : ι → σ → Except ε (σ × List ω))
    (input : κ → τ → ι) (part : τ → σ) : Prop :=
  ∀ {k t t' evs}, step' k t = .ok (t', evs) → step (input k t) (part t) = .ok (part t', evs)

variable {step' : κ → τ → Except ε (τ × List ω)} {input : κ → τ → ι} {part : τ → σ} {t t' : τ}
  {ks : List κ}

/-- What the inputs of a run are to the other system. -/
def translate (step' : κ → τ → Except ε (τ × List ω)) (input : κ → τ → ι) : List κ → τ → List ι :=
  gather step' fun k t => [input k t]

theorem forall₂_translate (h : run step' ks t = .ok (t', evs)) :
    List.Forall₂ (fun k i => ∃ t, i = input k t) ks (translate step' input ks t) := by
  induction ks generalizing t evs with
  | nil => exact .nil
  | cons k ks ih =>
    obtain ⟨u, evs₁, evs₂, hk, hr, -⟩ := exists_of_run_cons h
    rw [translate, gather_cons hk, List.singleton_append]
    exact .cons ⟨t, rfl⟩ (ih hr)

theorem Mimics.run (hm : Mimics step' step input part) (h : run step' ks t = .ok (t', evs)) :
    Trace.run step (translate step' input ks t) (part t) = .ok (part t', evs) := by
  induction ks generalizing t evs with
  | nil =>
    obtain ⟨rfl, rfl⟩ := Prod.ext_iff.mp (Except.ok.inj h)
    rfl
  | cons k ks ih =>
    obtain ⟨u, evs₁, evs₂, hk, hr, rfl⟩ := exists_of_run_cons h
    rw [translate, gather_cons hk, List.singleton_append, run_cons_of_ok (hm hk)]
    exact congrArg (Except.map fun r => (r.1, evs₁ ++ r.2)) (ih hr)

/-- What the other system takes, read off the steps of this one. -/
theorem Mimics.gather_translate (hm : Mimics step' step input part) (take : ι → σ → List α)
    (ks : List κ) (t : τ) : gather step take (translate step' input ks t) (part t)
      = gather step' (fun k t => take (input k t) (part t)) ks t := by
  induction ks generalizing t with
  | nil => rfl
  | cons k ks ih =>
    rcases hk : step' k t with e | ⟨t', evs⟩
    · rw [translate, gather, gather, hk, List.append_nil, gather]
      dsimp only
      rcases step (input k t) (part t) with e' | ⟨s', evs'⟩ <;> rfl
    · rw [translate, gather_cons hk, gather_cons hk, List.singleton_append, gather_cons (hm hk)]
      exact congrArg _ (ih t')

/-! ## Components -/

variable (κ τ ω' step) in
/-- **A component of a system**: the part of the state that it is, once it is there; what an input
of the system is to it; the step it takes then, and what of an event it shows.  `Fresh` is how it
comes into being. -/
structure Component where
  part : σ → Option τ
  input : ι → σ → Option κ
  move : κ → τ → Except ε (τ × List ω')
  see : ω → ω'
  Fresh : τ → Prop
  part_own : ∀ {i s s' evs k c}, input i s = some k → part s = some c → step i s = .ok (s', evs) →
    ∃ c', move k c = .ok (c', evs.map see) ∧ part s' = some c'
  part_other : ∀ {i s s' evs c}, input i s = none → part s = some c → step i s = .ok (s', evs) →
    part s' = some c
  fresh_of_part : ∀ {i s s' evs c}, part s = none → step i s = .ok (s', evs) → part s' = some c →
    Fresh c

namespace Component

variable (C : Component κ τ ω' step) {c : τ}

/-- What a step is to the component: nothing, as long as it is not there. -/
def own (i : ι) (s : σ) : Option κ := (C.part s).bind fun _ => C.input i s

/-- The inputs the component got. -/
def inputs : List ι → σ → List κ := gather step fun i s => (C.own i s).toList

/-- What it shows in a step. -/
def deed (i : ι) (s : σ) : List ω' :=
  match C.own i s, step i s with
  | some _, .ok (_, evs) => evs.map C.see
  | _, _ => []

/-- The events of its steps. -/
def events : List ι → σ → List ω' := gather step C.deed

variable {C}

theorem inputs_cons (h : step i s = .ok (s', evs)) (is : List ι) :
    C.inputs (i :: is) s = (C.own i s).toList ++ C.inputs is s' :=
  gather_cons h is

theorem events_cons (h : step i s = .ok (s', evs)) (is : List ι) : C.events (i :: is) s
    = (if (C.own i s).isSome then evs.map C.see else []) ++ C.events is s' := by
  rw [events, gather_cons h, deed, h]
  rcases C.own i s with _ | k <;> rfl

theorem own_of_part (hc : C.part s = some c) (i : ι) : C.own i s = C.input i s := by
  rw [own, hc]
  rfl

theorem own_of_none (hnone : C.part s = none) (i : ι) : C.own i s = none := by
  rw [own, hnone]
  rfl

/-- **A component that is there lives through the inputs that are its own**, and does in the system
what it does alone. -/
theorem run_part (hc : C.part s = some c) (h : run step is s = .ok (s', evs)) :
    ∃ c', C.part s' = some c' ∧ run C.move (C.inputs is s) c = .ok (c', C.events is s) := by
  induction is generalizing s c evs with
  | nil =>
    obtain ⟨rfl, -⟩ := Prod.ext_iff.mp (Except.ok.inj h)
    exact ⟨c, hc, rfl⟩
  | cons i is ih =>
    obtain ⟨t, evs₁, evs₂, hi, hr, rfl⟩ := exists_of_run_cons h
    rw [inputs_cons hi, events_cons hi, own_of_part hc]
    rcases hown : C.input i s with _ | k
    · exact ih (C.part_other hown hc hi) hr
    · obtain ⟨d, hd, hpart⟩ := C.part_own hown hc hi
      obtain ⟨c', hc', hrun⟩ := ih hpart hr
      refine ⟨c', hc', ?_⟩
      rw [Option.toList_some, List.singleton_append, run_cons_of_ok hd, hrun]
      rfl

/-- What the component did is part of what went on. -/
theorem mem_of_mem_events {w : ω'} (h : run step is s = .ok (s', evs)) (hw : w ∈ C.events is s) :
    w ∈ evs.map C.see := by
  induction is generalizing s evs with
  | nil => cases hw
  | cons i is ih =>
    obtain ⟨t, evs₁, evs₂, hi, hr, rfl⟩ := exists_of_run_cons h
    rw [events_cons hi, List.mem_append] at hw
    rw [List.map_append, List.mem_append]
    rcases hw with hw | hw
    · split at hw
      · exact Or.inl hw
      · cases hw
    · exact Or.inr (ih hr hw)

/-- A component that is not there after a run was given nothing in it. -/
theorem run_absent (h : run step is s = .ok (s', evs)) (hnone : C.part s' = none) :
    C.inputs is s = [] ∧ C.events is s = [] := by
  induction is generalizing s evs with
  | nil => exact ⟨rfl, rfl⟩
  | cons i is ih =>
    obtain ⟨t, evs₁, evs₂, hi, hr, rfl⟩ := exists_of_run_cons h
    rcases hs : C.part s with _ | c
    · obtain ⟨hin, hev⟩ := ih hr
      rw [inputs_cons hi, events_cons hi, own_of_none hs, hin, hev]
      exact ⟨rfl, rfl⟩
    · obtain ⟨c', hc', -⟩ := run_part hs h
      cases hnone.symm.trans hc'

/-- **A component that came into being in a run** was fresh, and has lived through its own inputs
since. -/
theorem run_born (hnone : C.part s = none) (h : run step is s = .ok (s', evs))
    (hc : C.part s' = some c) :
    ∃ c₀, C.Fresh c₀ ∧ run C.move (C.inputs is s) c₀ = .ok (c, C.events is s) := by
  induction is generalizing s evs with
  | nil =>
    obtain ⟨rfl, -⟩ := Prod.ext_iff.mp (Except.ok.inj h)
    cases hnone.symm.trans hc
  | cons i is ih =>
    obtain ⟨t, evs₁, evs₂, hi, hr, rfl⟩ := exists_of_run_cons h
    rw [inputs_cons hi, events_cons hi, own_of_none hnone]
    rcases ht : C.part t with _ | c₀
    · exact ih ht hr
    · obtain ⟨c', hc', hrun⟩ := run_part ht hr
      obtain rfl := Option.some.inj (hc'.symm.trans hc)
      exact ⟨c₀, C.fresh_of_part hnone hi ht, hrun⟩

end Component

end Trace

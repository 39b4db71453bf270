import JustWeather.Machinery.Component
import Mathlib.Data.List.Infix

/-!
# Machinery/Wire — two parties, and a queue each way between them

Two systems that step in any order, where what the steps of one give is what the steps of the other
take (`wire`).  Whatever the order, each party has made a run of its own, and each queue holds what
was given and is still to be taken: nothing is lost, doubled or reordered, and nothing is taken that
was not given before (`exists_story`).
-/

namespace Trace

variable {ι κ σ τ ω ω' ε α β : Type*}

variable {step : ι → σ → Except ε (σ × List ω)} {s s' : σ} {i : ι} {is : List ι} {evs : List ω}

/-! ## Parties -/

/-- **A party**: the step it takes, which inputs there can be in a state, what it takes of the queue
towards it then, and what its events give to the other. -/
structure Party (ι σ ω ε α β : Type*) where
  step : ι → σ → Except ε (σ × List ω)
  may : ι → σ → Bool
  takes : ι → σ → List α
  gives : ι → σ → List ω → List β

namespace Party

variable (P : Party ι σ ω ε α β)

/-- What a run has taken. -/
def taken : List ι → σ → List α := gather P.step P.takes

/-- What a step gives. -/
def gift (i : ι) (s : σ) : List β :=
  match P.step i s with
  | .error _ => []
  | .ok (_, evs) => P.gives i s evs

/-- What a run has given. -/
def given : List ι → σ → List β := gather P.step P.gift

variable {P}

theorem gift_of_ok (h : P.step i s = .ok (s', evs)) : P.gift i s = P.gives i s evs := by
  rw [gift, h]

theorem taken_concat (h : run P.step is s = .ok (s', evs)) (i : ι) :
    P.taken (is ++ [i]) s = P.taken is s ++ P.takes i s' := gather_concat h i

theorem given_concat {s'' : σ} {evs' : List ω} (h : run P.step is s = .ok (s', evs))
    (hi : P.step i s' = .ok (s'', evs')) :
    P.given (is ++ [i]) s = P.given is s ++ P.gives i s' evs' :=
  (gather_concat h i).trans (congrArg _ (gift_of_ok hi))

/-- A party that gives something with each event has given what its events say. -/
theorem given_eq_flatMap {g : ω → List β} (hg : ∀ i s evs, P.gives i s evs = evs.flatMap g)
    (h : run P.step is s = .ok (s', evs)) : P.given is s = evs.flatMap g := by
  induction is generalizing s evs with
  | nil =>
    obtain ⟨-, rfl⟩ := Prod.ext_iff.mp (Except.ok.inj h)
    rfl
  | cons i is ih =>
    obtain ⟨t, evs₁, evs₂, hi, hr, rfl⟩ := exists_of_run_cons h
    have hcons : P.given (i :: is) s = P.gift i s ++ P.given is t := gather_cons hi is
    rw [hcons, gift_of_ok hi, hg, ih hr, List.flatMap_append]

end Party

/-! ## The wire -/

/-- Two parties, with what is on its way to the far one and to the near one. -/
structure Wired (σ τ α β : Type*) where
  near : σ
  far : τ
  toFar : List α
  toNear : List β

/-- Two parties between which nothing is on its way. -/
def Wired.start (s : σ) (t : τ) : Wired σ τ α β := ⟨s, t, [], []⟩

/-- **A step of one of the two.**  An input there cannot be, or that would take what is not there to
be taken, does not happen. -/
def wire [DecidableEq α] [DecidableEq β] (P : Party ι σ ω ε β α) (Q : Party κ τ ω' ε α β) :
    ι ⊕ κ → Wired σ τ α β → Except ε (Wired σ τ α β × List (ω ⊕ ω'))
  | .inl i, w =>
    if P.may i w.near && (P.takes i w.near).isPrefixOf w.toNear then
      (P.step i w.near).map fun r =>
        ({ w with
          near := r.1
          toFar := w.toFar ++ P.gives i w.near r.2
          toNear := w.toNear.drop (P.takes i w.near).length }, r.2.map .inl)
    else .ok (w, [])
  | .inr j, w =>
    if Q.may j w.far && (Q.takes j w.far).isPrefixOf w.toFar then
      (Q.step j w.far).map fun r =>
        ({ w with
          far := r.1
          toNear := w.toNear ++ Q.gives j w.far r.2
          toFar := w.toFar.drop (Q.takes j w.far).length }, r.2.map .inr)
    else .ok (w, [])

/-- The events of the near party. -/
def nearEvents (evs : List (ω ⊕ ω')) : List ω := evs.filterMap Sum.getLeft?

/-- The events of the far party. -/
def farEvents (evs : List (ω ⊕ ω')) : List ω' := evs.filterMap Sum.getRight?

theorem nearEvents_append (evs evs' : List (ω ⊕ ω')) :
    nearEvents (evs ++ evs') = nearEvents evs ++ nearEvents evs' := List.filterMap_append

theorem farEvents_append (evs evs' : List (ω ⊕ ω')) :
    farEvents (evs ++ evs') = farEvents evs ++ farEvents evs' := List.filterMap_append

theorem nearEvents_inl (evs : List ω) : nearEvents (evs.map (.inl : ω → ω ⊕ ω')) = evs := by
  simp [nearEvents, List.filterMap_map, Function.comp_def]

theorem nearEvents_inr (evs : List ω') : nearEvents (evs.map (.inr : ω' → ω ⊕ ω')) = [] := by
  simp [nearEvents, List.filterMap_map, Function.comp_def]

theorem farEvents_inl (evs : List ω) : farEvents (evs.map (.inl : ω → ω ⊕ ω')) = [] := by
  simp [farEvents, List.filterMap_map, Function.comp_def]

theorem farEvents_inr (evs : List ω') : farEvents (evs.map (.inr : ω' → ω ⊕ ω')) = evs := by
  simp [farEvents, List.filterMap_map, Function.comp_def]

variable {P : Party ι σ ω ε β α} {Q : Party κ τ ω' ε α β}
  {s₀ : σ} {t₀ : τ} {w w' : Wired σ τ α β} {inputs : List (ι ⊕ κ)} {x : ι ⊕ κ}
  {is : List ι} {js : List κ} {sums sums' : List (ω ⊕ ω')}

/-- **The story of two parties**: the near one has made the run of `is` and the far one that of
`js`, and what is on its way is what one has given and the other is still to take. -/
structure Story (P : Party ι σ ω ε β α) (Q : Party κ τ ω' ε α β) (s₀ : σ) (t₀ : τ) (is : List ι)
    (js : List κ) (w : Wired σ τ α β) (sums : List (ω ⊕ ω')) : Prop where
  near : run P.step is s₀ = .ok (w.near, nearEvents sums)
  far : run Q.step js t₀ = .ok (w.far, farEvents sums)
  toFar : P.given is s₀ = Q.taken js t₀ ++ w.toFar
  toNear : Q.given js t₀ = P.taken is s₀ ++ w.toNear

theorem story_start (P : Party ι σ ω ε β α) (Q : Party κ τ ω' ε α β) (s : σ) (t : τ) :
    Story P Q s t [] [] (.start s t) [] := ⟨rfl, rfl, rfl, rfl⟩

/-- A step of the near party goes on with its run. -/
theorem Story.near_step {i : ι} {s' : σ} {evs : List ω} (h : Story P Q s₀ t₀ is js w sums)
    (hpre : P.takes i w.near <+: w.toNear) (hi : P.step i w.near = .ok (s', evs)) :
    Story P Q s₀ t₀ (is ++ [i]) js
      { w with
        near := s'
        toFar := w.toFar ++ P.gives i w.near evs
        toNear := w.toNear.drop (P.takes i w.near).length } (sums ++ evs.map .inl) := by
  refine ⟨?_, ?_, ?_, ?_⟩
  · rw [nearEvents_append, nearEvents_inl]
    exact run_concat h.near hi
  · rw [farEvents_append, farEvents_inl, List.append_nil]
    exact h.far
  · rw [Party.given_concat h.near hi, h.toFar, List.append_assoc]
  · rw [Party.taken_concat h.near, h.toNear, List.append_assoc]
    exact congrArg _ (List.prefix_append_drop hpre)

/-- A step of the far party goes on with its run. -/
theorem Story.far_step {j : κ} {t' : τ} {evs : List ω'} (h : Story P Q s₀ t₀ is js w sums)
    (hpre : Q.takes j w.far <+: w.toFar) (hj : Q.step j w.far = .ok (t', evs)) :
    Story P Q s₀ t₀ is (js ++ [j])
      { w with
        far := t'
        toNear := w.toNear ++ Q.gives j w.far evs
        toFar := w.toFar.drop (Q.takes j w.far).length } (sums ++ evs.map .inr) := by
  refine ⟨?_, ?_, ?_, ?_⟩
  · rw [nearEvents_append, nearEvents_inr, List.append_nil]
    exact h.near
  · rw [farEvents_append, farEvents_inr]
    exact run_concat h.far hj
  · rw [Party.taken_concat h.far, h.toFar, List.append_assoc]
    exact congrArg _ (List.prefix_append_drop hpre)
  · rw [Party.given_concat h.far hj, h.toNear, List.append_assoc]

/-- **A far party that goes through the steps of another has its story**, if it takes and gives the
same. -/
theorem Story.mimic {κ' τ' : Type*} {Q' : Party κ' τ' ω' ε α β} {input : κ' → τ' → κ}
    {part : τ' → τ} {t₀ : τ'} {js : List κ'} {w : Wired σ τ' α β}
    (hm : Mimics Q'.step Q.step input part)
    (htakes : ∀ j t, Q.takes (input j t) (part t) = Q'.takes j t)
    (hgives : ∀ j t evs, Q.gives (input j t) (part t) evs = Q'.gives j t evs)
    (h : Story P Q' s₀ t₀ is js w sums) :
    Story P Q s₀ (part t₀) is (translate Q'.step input js t₀)
      ⟨w.near, part w.far, w.toFar, w.toNear⟩ sums := by
  refine ⟨h.near, hm.run h.far, ?_, ?_⟩
  · rw [Party.taken, hm.gather_translate]
    simp only [htakes]
    exact h.toFar
  · rw [Party.given, hm.gather_translate]
    refine (gather_congr h.far fun hj => ?_).trans h.toNear
    rw [Party.gift_of_ok (hm hj), Party.gift_of_ok hj, hgives]

variable [DecidableEq α] [DecidableEq β]

theorem wire_inl {i : ι} {s' : σ} {evs : List ω} (hmay : P.may i w.near = true)
    (hpre : P.takes i w.near <+: w.toNear) (hi : P.step i w.near = .ok (s', evs)) :
    wire P Q (.inl i) w = .ok
      ({ w with
        near := s'
        toFar := w.toFar ++ P.gives i w.near evs
        toNear := w.toNear.drop (P.takes i w.near).length }, evs.map .inl) := by
  rw [wire, hmay, List.isPrefixOf_iff_prefix.mpr hpre, Bool.and_self, if_pos rfl, hi]
  rfl

theorem wire_inr {j : κ} {t' : τ} {evs : List ω'} (hmay : Q.may j w.far = true)
    (hpre : Q.takes j w.far <+: w.toFar) (hj : Q.step j w.far = .ok (t', evs)) :
    wire P Q (.inr j) w = .ok
      ({ w with
        far := t'
        toNear := w.toNear ++ Q.gives j w.far evs
        toFar := w.toFar.drop (Q.takes j w.far).length }, evs.map .inr) := by
  rw [wire, hmay, List.isPrefixOf_iff_prefix.mpr hpre, Bool.and_self, if_pos rfl, hj]
  rfl

/-- **Whatever the order of the steps, there is a story**, and its inputs are among those given. -/
theorem exists_story (h : run (wire P Q) inputs (.start s₀ t₀) = .ok (w, sums)) :
    ∃ is js, Story P Q s₀ t₀ is js w sums ∧ (∀ i ∈ is, .inl i ∈ inputs) ∧
      ∀ j ∈ js, .inr j ∈ inputs := by
  refine run_invariant (P := fun inputs w sums => ∃ is js, Story P Q s₀ t₀ is js w sums ∧
    (∀ i ∈ is, .inl i ∈ inputs) ∧ ∀ j ∈ js, .inr j ∈ inputs) ?_ ?_ h
  · exact ⟨[], [], story_start P Q s₀ t₀, by simp, by simp⟩
  · rintro inputs w w' sums sums' x ⟨is, js, hstory, his, hjs⟩ hx
    have his' : ∀ i ∈ is, .inl i ∈ inputs ++ [x] := fun i hi => List.mem_append_left _ (his i hi)
    have hjs' : ∀ j ∈ js, .inr j ∈ inputs ++ [x] := fun j hj => List.mem_append_left _ (hjs j hj)
    rcases x with i | j
    · rw [wire] at hx
      split at hx
      · rename_i hmay
        rw [Bool.and_eq_true, List.isPrefixOf_iff_prefix] at hmay
        rcases hr : P.step i w.near with e | r <;> rw [hr] at hx
        · cases hx
        obtain ⟨rfl, rfl⟩ := Prod.ext_iff.mp (Except.ok.inj hx)
        refine ⟨is ++ [i], js, hstory.near_step hmay.2 hr, fun k hk => ?_, hjs'⟩
        rcases List.mem_append.mp hk with hk | hk
        · exact his' k hk
        · obtain rfl := List.mem_singleton.mp hk
          simp
      · obtain ⟨rfl, rfl⟩ := Prod.ext_iff.mp (Except.ok.inj hx)
        exact ⟨is, js, by rwa [List.append_nil], his', hjs'⟩
    · rw [wire] at hx
      split at hx
      · rename_i hmay
        rw [Bool.and_eq_true, List.isPrefixOf_iff_prefix] at hmay
        rcases hr : Q.step j w.far with e | r <;> rw [hr] at hx
        · cases hx
        obtain ⟨rfl, rfl⟩ := Prod.ext_iff.mp (Except.ok.inj hx)
        refine ⟨is, js ++ [j], hstory.far_step hmay.2 hr, his', fun k hk => ?_⟩
        rcases List.mem_append.mp hk with hk | hk
        · exact hjs' k hk
        · obtain rfl := List.mem_singleton.mp hk
          simp
      · obtain ⟨rfl, rfl⟩ := Prod.ext_iff.mp (Except.ok.inj hx)
        exact ⟨is, js, by rwa [List.append_nil], his', hjs'⟩

end Trace

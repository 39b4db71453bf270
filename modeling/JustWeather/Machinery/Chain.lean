import Mathlib.Data.List.Nodup
import Mathlib.Data.List.Induction

/-!
# Machinery/Chain — doubly linked chains

A chain is a list of places, each with an item, that a store links in both directions.  Of the store
only one relation matters: `At a back front x` says that place `a` holds the item `x` and links to
`back` and `front`.  A chain is cut in two and put together (`chain_append`), and a change of the
store outside it does not show (`Chain.mono`).
-/

namespace Chain

variable {α ι : Type*} {At At' : α → Option α → Option α → ι → Prop} {a : α} {x : ι}
  {l l₁ l₂ : List (α × ι)} {b f v : Option α}

/-! ## The two ends -/

/-- Where a chain begins, or what follows it if it is empty. -/
def first (l : List (α × ι)) (f : Option α) : Option α :=
  match l with
  | [] => f
  | p :: _ => some p.1

/-- Where a chain ends, or what precedes it if it is empty. -/
def last : List (α × ι) → Option α → Option α
  | [], b => b
  | p :: l, _ => last l (some p.1)

@[simp] theorem first_nil (f : Option α) : first ([] : List (α × ι)) f = f := rfl

@[simp] theorem first_cons (p : α × ι) (l : List (α × ι)) (f : Option α) :
    first (p :: l) f = some p.1 := rfl

@[simp] theorem last_nil (b : Option α) : last ([] : List (α × ι)) b = b := rfl

@[simp] theorem last_cons (p : α × ι) (l : List (α × ι)) (b : Option α) :
    last (p :: l) b = last l (some p.1) := rfl

theorem first_append (l₁ l₂ : List (α × ι)) (f : Option α) :
    first (l₁ ++ l₂) f = first l₁ (first l₂ f) := by
  cases l₁ <;> rfl

theorem last_append (l₁ l₂ : List (α × ι)) (b : Option α) :
    last (l₁ ++ l₂) b = last l₂ (last l₁ b) := by
  induction l₁ generalizing b with
  | nil => rfl
  | cons p l₁ ih => exact ih _

@[simp] theorem last_concat (l : List (α × ι)) (p : α × ι) (b : Option α) :
    last (l ++ [p]) b = some p.1 := by
  rw [last_append]
  rfl

theorem first_eq_none_iff : first l none = none ↔ l = [] := by
  cases l <;> simp

theorem last_eq_none_iff : last l none = none ↔ l = [] := by
  rcases List.eq_nil_or_concat l with rfl | ⟨l, p, rfl⟩
  · simp
  · rw [List.concat_eq_append, last_concat]
    simp

theorem first_ne_none (h : l ≠ []) (f g : Option α) : first l f = first l g := by
  cases l with
  | nil => exact absurd rfl h
  | cons p l => rfl

/-! ## Chains -/

end Chain

variable {α ι : Type*} {At At' : α → Option α → Option α → ι → Prop} {a : α} {x : ι}
  {l l₁ l₂ : List (α × ι)} {b f v : Option α}

variable (At) in
/-- **A chain** between two links: each place links back to the one before it, and on to the one
after it. -/
def Chain : Option α → List (α × ι) → Option α → Prop
  | _, [], _ => True
  | b, p :: l, f => At p.1 b (Chain.first l f) p.2 ∧ Chain (some p.1) l f

namespace Chain

theorem chain_cons {p : α × ι} :
    Chain At b (p :: l) f ↔ At p.1 b (first l f) p.2 ∧ Chain At (some p.1) l f := Iff.rfl

/-- **A chain is cut in two**, and each part links to the other. -/
theorem chain_append :
    Chain At b (l₁ ++ l₂) f ↔ Chain At b l₁ (first l₂ f) ∧ Chain At (last l₁ b) l₂ f := by
  induction l₁ generalizing b with
  | nil => simp [Chain]
  | cons p l₁ ih =>
    rw [List.cons_append, chain_cons, chain_cons, ih, first_append, and_assoc]
    rfl

/-- **A chain is still there when the store still holds its places.** -/
theorem mono (h : Chain At b l f) (hAt : ∀ p ∈ l, ∀ b f, At p.1 b f p.2 → At' p.1 b f p.2) :
    Chain At' b l f := by
  induction l generalizing b with
  | nil => trivial
  | cons p l ih =>
    exact ⟨hAt p (by simp) _ _ h.1, ih h.2 fun q hq => hAt q (List.mem_cons_of_mem _ hq)⟩

/-- A new link at the far end. -/
theorem setFront {p : α × ι} (h : Chain At b (l ++ [p]) f)
    (hAt : ∀ q ∈ l, ∀ b f, At q.1 b f q.2 → At' q.1 b f q.2)
    (hlast : ∀ b f, At p.1 b f p.2 → At' p.1 b v p.2) : Chain At' b (l ++ [p]) v := by
  rw [chain_append] at h ⊢
  exact ⟨h.1.mono hAt, hlast _ _ h.2.1, trivial⟩

/-- A new link at the near end. -/
theorem setBack {p : α × ι} (h : Chain At b (p :: l) f)
    (hAt : ∀ q ∈ l, ∀ b f, At q.1 b f q.2 → At' q.1 b f q.2)
    (hfirst : ∀ b f, At p.1 b f p.2 → At' p.1 v f p.2) : Chain At' v (p :: l) f :=
  ⟨hfirst _ _ h.1, h.2.mono hAt⟩

/-- The links of a place inside a chain. -/
theorem links {p : α × ι} (h : Chain At b (l₁ ++ p :: l₂) f) :
    At p.1 (last l₁ b) (first l₂ f) p.2 := (chain_append.mp h).2.1

/-- **A store holds one chain from a place on.** -/
theorem unique {l' : List (α × ι)} {b' : Option α}
    (hAt : ∀ {a b f x b' f' x'}, At a b f x → At a b' f' x' → f = f' ∧ x = x')
    (h : Chain At b l none) (h' : Chain At b' l' none) (hfirst : first l none = first l' none) :
    l = l' := by
  induction l generalizing b l' b' with
  | nil => exact (first_eq_none_iff.mp hfirst.symm).symm
  | cons p l ih =>
    cases l' with
    | nil => cases hfirst
    | cons q l' =>
      obtain ⟨a, x⟩ := p
      obtain ⟨a', x'⟩ := q
      obtain rfl : a = a' := Option.some.inj hfirst
      obtain ⟨hfront, rfl⟩ := hAt h.1 h'.1
      rw [ih h.2 h'.2 hfront]

/-! ## Walks -/

/-- Going on from a place, link by link, one comes to these places and then to the end. -/
def Visits (next : α → Option α → Prop) : Option α → List α → Prop
  | cur, [] => cur = none
  | cur, a :: l => cur = some a ∧ ∃ c, next a c ∧ Visits next c l

/-- **Following the links on visits the chain.** -/
theorem visits_front (h : Chain At b l none) :
    Visits (fun a c => ∃ b x, At a b c x) (first l none) (l.map Prod.fst) := by
  induction l generalizing b with
  | nil => rfl
  | cons p l ih => exact ⟨rfl, _, ⟨b, p.2, h.1⟩, ih h.2⟩

/-- **Following them back visits it in reverse.** -/
theorem visits_back (h : Chain At none l f) :
    Visits (fun a c => ∃ f x, At a c f x) (last l none) (l.map Prod.fst).reverse := by
  induction l using List.reverseRecOn generalizing f with
  | nil => rfl
  | append_singleton l p ih =>
    rw [chain_append] at h
    rw [last_concat, List.map_append, List.reverse_append]
    exact ⟨rfl, _, ⟨f, p.2, h.2.1⟩, ih h.1⟩

end Chain

import JustWeather.CLib.Strings
import JustWeather.Machinery.Fallible
import Mathlib.Logic.Function.Basic

/-!
# CLib/Memory — blocks that are read and written

A memory of blocks of one type.  A pointer is the number of the block it points to, and `none` for
`NULL`; every block gets a number of its own, so a pointer to a released block points to no other.
-/

namespace CLib

/-- **The memory**: what the live blocks hold; those from `next` on were not given out yet. -/
structure Memory (α : Type) where
  cell : ℕ → Option α
  next : ℕ
  cell_of_le : ∀ b, next ≤ b → cell b = none

namespace Memory

variable {α : Type} {m m' : Memory α} {b c : ℕ} {v w : α}

/-- A memory nothing was taken from. -/
def empty : Memory α := ⟨fun _ => none, 0, fun _ _ => rfl⟩

theorem lt_next (h : m.cell b = some v) : b < m.next := by
  by_contra hle
  cases (m.cell_of_le b (Nat.not_lt.mp hle)).symm.trans h

/-- `malloc` or `calloc`, of a block for `v`. -/
def alloc (v : α) (m : Memory α) : ℕ × Memory α :=
  (m.next, ⟨Function.update m.cell m.next (some v), m.next + 1, fun b hb => by
    rw [Function.update_of_ne (by omega), m.cell_of_le b (by omega)]⟩)

/-- An access to a block. -/
def read (b : ℕ) (m : Memory α) : Except Fault α :=
  match m.cell b with
  | none => .error .notLive
  | some v => .ok v

/-- What a live block holds is replaced, or nothing is held any more. -/
def put (b : ℕ) (v : Option α) (m : Memory α) : Except Fault (Memory α) :=
  if h : (m.cell b).isSome then
    .ok ⟨Function.update m.cell b v, m.next, fun c hc => by
      obtain ⟨u, hu⟩ := Option.isSome_iff_exists.mp h
      rw [Function.update_of_ne (Nat.ne_of_gt ((lt_next hu).trans_le hc)), m.cell_of_le c hc]⟩
  else .error .notLive

/-- An assignment to a block. -/
def write (b : ℕ) (v : α) (m : Memory α) : Except Fault (Memory α) := m.put b (some v)

/-- `free`. -/
def free (b : ℕ) (m : Memory α) : Except Fault (Memory α) := m.put b none

/-- What the live blocks hold after an assignment or a release. -/
def Puts (b : ℕ) (v : Option α) (m m' : Memory α) : Prop :=
  m'.next = m.next ∧ m'.cell = Function.update m.cell b v

theorem Puts.cell_self {o : Option α} (h : Puts b o m m') : m'.cell b = o := by
  rw [h.2, Function.update_self]

theorem Puts.cell_of_ne {o : Option α} (h : Puts b o m m') (hc : c ≠ b) :
    m'.cell c = m.cell c := by
  rw [h.2, Function.update_of_ne hc]

theorem read_of_cell (h : m.cell b = some v) : m.read b = .ok v := by
  rw [read, h]

theorem exists_put (h : m.cell b = some v) (o : Option α) :
    ∃ m', m.put b o = .ok m' ∧ Puts b o m m' := by
  rw [put, dif_pos (by rw [h]; rfl)]
  exact ⟨_, rfl, rfl, rfl⟩

@[simp] theorem alloc_fst (v : α) (m : Memory α) : (m.alloc v).1 = m.next := rfl

@[simp] theorem next_alloc (v : α) (m : Memory α) : (m.alloc v).2.next = m.next + 1 := rfl

/-- **A block fresh from the memory holds what it was made for.** -/
theorem cell_alloc_self (v : α) (m : Memory α) : (m.alloc v).2.cell m.next = some v :=
  Function.update_self ..

/-- The other blocks hold what they held. -/
theorem cell_alloc_of_ne (hb : b ≠ m.next) (v : α) : (m.alloc v).2.cell b = m.cell b :=
  Function.update_of_ne hb ..

/-- A fresh block that is freed leaves what was there. -/
theorem Puts.cell_of_alloc {v : α} (h : Puts m.next none (m.alloc v).2 m') (b : ℕ) :
    m'.cell b = m.cell b := by
  by_cases hb : b = m.next
  · rw [hb, h.cell_self, m.cell_of_le m.next le_rfl]
  · rw [h.cell_of_ne hb, cell_alloc_of_ne hb]

theorem cell_alloc_of_some (h : m.cell b = some w) (v : α) : (m.alloc v).2.cell b = some w := by
  rw [cell_alloc_of_ne (Nat.ne_of_lt (lt_next h)), h]

/-! ## Later memories -/

/-- **A later memory**: a block that was released is not given out again. -/
structure Later (m m' : Memory α) : Prop where
  next_le : m.next ≤ m'.next
  cell : ∀ b < m.next, m.cell b = none → m'.cell b = none

theorem Later.refl (m : Memory α) : Later m m := ⟨le_rfl, fun _ _ h => h⟩

theorem Later.trans {m'' : Memory α} (h : Later m m') (h' : Later m' m'') : Later m m'' :=
  ⟨h.next_le.trans h'.next_le,
    fun b hb hcell => h'.cell b (hb.trans_le h.next_le) (h.cell b hb hcell)⟩

theorem later_alloc (v : α) (m : Memory α) : Later m (m.alloc v).2 :=
  ⟨Nat.le_succ _, fun _ hb hcell => (cell_alloc_of_ne (Nat.ne_of_lt hb) v).trans hcell⟩

/-- Only a live block is written or released. -/
theorem later_of_put {o : Option α} (h : m.put b o = .ok m') : Later m m' := by
  rw [put] at h
  split at h
  next hlive =>
    cases h
    refine ⟨le_rfl, fun c _ hcell => ?_⟩
    have hne : c ≠ b := by
      rintro rfl
      rw [hcell] at hlive
      cases hlive
    exact (Function.update_of_ne hne ..).trans hcell
  next => cases h

end Memory

end CLib

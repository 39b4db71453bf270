import JustWeather.CLib.Strings

/-!
# CLib/Heap — blocks that are live or released

A pointer is the block it points to and what was written there; the heap knows which blocks it gave
out and which of them were released.  Using or releasing a block that is not live is a fault.
-/

namespace CLib

/-- A pointer to a block that holds `value`. -/
structure Ptr (α : Type) where
  block : ℕ
  value : α

/-- **The heap**: the blocks below `size` were given out, and those of `released` released. -/
structure Heap where
  size : ℕ
  released : List ℕ
  released_lt : ∀ b ∈ released, b < size

namespace Heap

variable {α β : Type} {a : α} {p : Ptr α} {q : Ptr β} {m m' : Heap}

/-- A heap nothing was taken from. -/
def empty : Heap := ⟨0, [], by simp⟩

/-- The block was given out and not released. -/
def Live (p : Ptr α) (m : Heap) : Prop := p.block < m.size ∧ p.block ∉ m.released

instance (p : Ptr α) (m : Heap) : Decidable (Live p m) := inferInstanceAs (Decidable (_ ∧ _))

/-- `malloc` or `calloc` of a block for `a`. -/
def alloc (a : α) (m : Heap) : Ptr α × Heap :=
  (⟨m.size, a⟩,
    ⟨m.size + 1, m.released, fun b hb => (m.released_lt b hb).trans (Nat.lt_succ_self _)⟩)

/-- An access to the block. -/
def use (p : Ptr α) (m : Heap) : Except Fault α :=
  if Live p m then .ok p.value else .error .notLive

/-- `free`. -/
def free (p : Ptr α) (m : Heap) : Except Fault Heap :=
  if h : Live p m then
    .ok ⟨m.size, p.block :: m.released, by
      rintro b hb
      rcases List.mem_cons.mp hb with rfl | hb
      · exact h.1
      · exact m.released_lt b hb⟩
  else .error .notLive

/-- **A block fresh from the heap is live.** -/
theorem live_alloc (a : α) (m : Heap) : Live (m.alloc a).1 (m.alloc a).2 :=
  ⟨Nat.lt_succ_self _, fun h => Nat.lt_irrefl _ (m.released_lt _ h)⟩

/-- A block that is live stays live when another is taken. -/
theorem Live.alloc (h : Live p m) (b : β) : Live p (m.alloc b).2 :=
  ⟨h.1.trans (Nat.lt_succ_self _), h.2⟩

/-- A block that is live stays live when another is released. -/
theorem Live.free (h : Live p m) (hne : p.block ≠ q.block) (hfree : m.free q = .ok m') :
    Live p m' := by
  rw [Heap.free] at hfree
  split at hfree
  · cases hfree
    exact ⟨h.1, fun hb => (List.mem_cons.mp hb).elim hne h.2⟩
  · cases hfree

end Heap

end CLib

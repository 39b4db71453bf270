import JustWeather.CLib.Heap
import Mathlib.Data.List.Nodup
import Mathlib.Data.List.Perm.Basic

/-!
# CLib/Footprint — the blocks that are held

A heap of which just the blocks `L` are live (`Heap.Holds`): a block that is taken comes on top of
them, and one of them that is released goes.  What is below it in the list is the frame; in which
order they are listed makes no difference (`Heap.Holds.perm`).
-/

namespace CLib

/-- The block of a pointer, unless it is null. -/
def Ptr.blocks {α : Type} (p : Option (Ptr α)) : List ℕ := (p.map Ptr.block).toList

namespace Heap

variable {α : Type} {p : Ptr α} {L L' : List ℕ} {m m' : Heap}

/-- **The live blocks** are those of the list, each listed once. -/
structure Holds (L : List ℕ) (m : Heap) : Prop where
  nodup : L.Nodup
  mem_iff : ∀ b, b ∈ L ↔ b < m.size ∧ b ∉ m.released

theorem holds_empty : Holds [] empty := ⟨List.nodup_nil, fun b => by simp [empty]⟩

theorem Holds.perm (h : Holds L m) (hperm : L'.Perm L) : Holds L' m :=
  ⟨hperm.nodup_iff.mpr h.nodup, fun b => hperm.mem_iff.trans (h.mem_iff b)⟩

theorem Holds.live (h : Holds L m) (hp : p.block ∈ L) : Live p m := (h.mem_iff _).mp hp

/-- A block that is taken. -/
theorem Holds.alloc (h : Holds L m) (a : α) : Holds ((m.alloc a).1.block :: L) (m.alloc a).2 := by
  have hfresh : ∀ {b}, b ∈ m.released → b < m.size := fun hb => m.released_lt _ hb
  have hnotin : m.size ∉ L := fun hmem => Nat.lt_irrefl _ ((h.mem_iff _).mp hmem).1
  refine ⟨List.nodup_cons.mpr ⟨hnotin, h.nodup⟩, fun b => ?_⟩
  rw [List.mem_cons, h.mem_iff]
  change b = m.size ∨ _ ↔ b < m.size + 1 ∧ b ∉ m.released
  constructor
  · rintro (rfl | ⟨hlt, hno⟩)
    · exact ⟨Nat.lt_succ_self _, fun hb => Nat.lt_irrefl _ (hfresh hb)⟩
    · exact ⟨by omega, hno⟩
  · rintro ⟨hlt, hno⟩
    rcases Nat.lt_succ_iff_lt_or_eq.mp hlt with hlt | rfl
    · exact Or.inr ⟨hlt, hno⟩
    · exact Or.inl rfl

/-- A block that is released. -/
theorem Holds.free (h : Holds (p.block :: L) m) : ∃ m', m.free p = .ok m' ∧ Holds L m' := by
  have hlive : Live p m := h.live (List.mem_cons_self ..)
  obtain ⟨hnotin, hnodup⟩ := List.nodup_cons.mp h.nodup
  refine ⟨_, dif_pos hlive, hnodup, fun b => ?_⟩
  have hb := h.mem_iff b
  rw [List.mem_cons] at hb
  rw [List.mem_cons, not_or]
  constructor
  · intro hmem
    obtain ⟨hlt, hno⟩ := hb.mp (Or.inr hmem)
    exact ⟨hlt, fun heq => hnotin (heq ▸ hmem), hno⟩
  · rintro ⟨hlt, hne, hno⟩
    exact (hb.mpr ⟨hlt, hno⟩).resolve_left hne

/-- Every heap holds some blocks. -/
theorem exists_holds (m : Heap) : ∃ L, Holds L m := by
  refine ⟨(List.range m.size).filter (· ∉ m.released), List.nodup_range.filter _, fun b => ?_⟩
  simp

end Heap

end CLib

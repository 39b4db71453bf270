import Mathlib.Data.List.Dedup
import Mathlib.Data.List.Perm.Subperm

/-!
# Machinery/Keyed — lists whose items have keys of their own

In a list with distinct keys a search for a key finds its one item, and what is left when that is
erased has the key no more.
-/

namespace Keyed

variable {α β : Type*} {f : α → β} {p : α → Bool} {l : List α} {k : β} {a : α}

/-- **An item is found under its key.** -/
theorem find?_eq_some (h : (l.map f).Nodup) (hp : ∀ a, p a = true ↔ f a = k) (ha : a ∈ l)
    (hk : f a = k) : l.find? p = some a := by
  induction l with
  | nil => cases ha
  | cons b l ih =>
    rw [List.map_cons, List.nodup_cons] at h
    rcases List.mem_cons.mp ha with rfl | ha
    · exact List.find?_cons_of_pos ((hp a).mpr hk)
    · have hb : f b ≠ k := fun hb => h.1 (hb ▸ hk ▸ List.mem_map_of_mem ha)
      rw [List.find?_cons_of_neg fun hpb => hb ((hp b).mp hpb), ih h.2 ha]

/-- **No item that is left has the key that was erased.** -/
theorem ne_of_mem_eraseP (h : (l.map f).Nodup) (hp : ∀ a, p a = true ↔ f a = k)
    (ha : a ∈ l.eraseP p) : f a ≠ k := by
  induction l with
  | nil => cases ha
  | cons b l ih =>
    rw [List.map_cons, List.nodup_cons] at h
    by_cases hb : p b = true
    · rw [List.eraseP_cons_of_pos hb] at ha
      exact fun hk => h.1 ((hp b).mp hb ▸ hk ▸ List.mem_map_of_mem ha)
    · rw [List.eraseP_cons_of_neg hb] at ha
      rcases List.mem_cons.mp ha with rfl | ha
      · exact fun hk => hb ((hp a).mpr hk)
      · exact ih h.2 ha

/-- There are no more items than keys they can have. -/
theorem length_le_dedup [DecidableEq β] {keys : List β} (h : (l.map f).Nodup)
    (hsub : ∀ a ∈ l, f a ∈ keys) : l.length ≤ keys.dedup.length := by
  have hkeys : l.map f ⊆ keys.dedup := by
    intro b hb
    obtain ⟨a, ha, rfl⟩ := List.mem_map.mp hb
    exact List.mem_dedup.mpr (hsub a ha)
  rw [← List.length_map f]
  exact (List.subperm_of_subset h hkeys).length_le

end Keyed

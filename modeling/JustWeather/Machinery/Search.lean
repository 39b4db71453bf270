import Mathlib.Data.List.Infix
import Mathlib.Data.Nat.Find

/-!
# Machinery/Search — the first place a pattern stands in a list

`firstOcc pat l` is the offset of the first occurrence of `pat` in `l`, read off `List.dropInfix?`.
Two kinds of fact are kept here: an occurrence that is complete in a prefix of a stream is the first
one in every longer prefix (`firstOcc_append_of_eq_some`), and an occurrence cannot straddle a
letter the pattern does not have (`firstOcc_append_cons`).
-/

namespace Search

variable {α : Type*} {pat l m : List α} {i j : ℕ}

/-! ## Occurrences -/

/-- `pat` stands in `l` at offset `i`. -/
def OccursAt (pat l : List α) (i : ℕ) : Prop := ∃ a s, l = a ++ pat ++ s ∧ a.length = i

theorem OccursAt.add_length_le (h : OccursAt pat l i) : i + pat.length ≤ l.length := by
  obtain ⟨a, s, rfl, rfl⟩ := h
  simp only [List.length_append]
  omega

theorem OccursAt.append_right (h : OccursAt pat l i) (m : List α) : OccursAt pat (l ++ m) i := by
  obtain ⟨a, s, rfl, rfl⟩ := h
  exact ⟨a, s ++ m, by simp, rfl⟩

theorem OccursAt.append_left (h : OccursAt pat m j) (l : List α) :
    OccursAt pat (l ++ m) (l.length + j) := by
  obtain ⟨a, s, rfl, rfl⟩ := h
  exact ⟨l ++ a, s, by simp, by simp⟩

/-- An occurrence is a prefix of what is left at its offset. -/
theorem occursAt_iff_drop : OccursAt pat l i ↔ i ≤ l.length ∧ pat <+: l.drop i := by
  constructor
  · rintro ⟨a, s, rfl, rfl⟩
    refine ⟨by simp [List.append_assoc], ?_⟩
    rw [List.append_assoc, List.drop_left]
    exact List.prefix_append _ _
  · rintro ⟨hi, s, hs⟩
    refine ⟨l.take i, s, ?_, by simp [hi]⟩
    rw [List.append_assoc, hs, List.take_append_drop]

instance [DecidableEq α] (pat l : List α) (i : ℕ) : Decidable (OccursAt pat l i) :=
  decidable_of_iff _ occursAt_iff_drop.symm

/-- An occurrence that ends inside the first part is one of the first part. -/
theorem OccursAt.of_append (h : OccursAt pat (l ++ m) i) (hi : i + pat.length ≤ l.length) :
    OccursAt pat l i := by
  rw [occursAt_iff_drop] at h ⊢
  refine ⟨by omega, ?_⟩
  rw [List.drop_append_of_le_length (by omega)] at h
  exact (List.isPrefix_append_of_length (by simp only [List.length_drop]; omega)).mp h.2

/-- An occurrence that starts in the second part is one of the second part. -/
theorem OccursAt.of_append_left (h : OccursAt pat (l ++ m) (l.length + j)) : OccursAt pat m j := by
  rw [occursAt_iff_drop] at h ⊢
  simp only [List.length_append, List.drop_append, List.drop_of_length_le, Nat.le_add_right,
    Nat.add_sub_cancel_left, List.nil_append] at h
  exact ⟨by omega, h.2⟩

/-- **An occurrence does not straddle a letter the pattern does not have.** -/
theorem OccursAt.of_append_cons {a b : List α} {c : α} (h : OccursAt pat (a ++ c :: b) i)
    (hc : c ∉ pat) : OccursAt pat a i ∨ ∃ j, i = a.length + 1 + j ∧ OccursAt pat b j := by
  rcases Nat.lt_or_ge a.length i with hi | hi
  · obtain ⟨j, rfl⟩ : ∃ j, i = a.length + 1 + j := ⟨i - (a.length + 1), by omega⟩
    refine Or.inr ⟨j, rfl, ?_⟩
    have h' : OccursAt pat ((a ++ [c]) ++ b) ((a ++ [c]).length + j) := by simpa using h
    exact h'.of_append_left
  · refine Or.inl (h.of_append ?_)
    by_contra hlt
    obtain ⟨u, s, hl, rfl⟩ := h
    -- the letter `c` stands at offset `a.length`, inside the pattern
    have hget : (a ++ c :: b)[a.length]? = some c := by simp
    rw [hl, List.append_assoc, List.getElem?_append_right hi,
      List.getElem?_append_left (by omega)] at hget
    exact hc (List.mem_of_getElem? hget)

theorem occursAt_cons_succ {c : α} : OccursAt pat (c :: l) (j + 1) ↔ OccursAt pat l j := by
  simp [occursAt_iff_drop]

/-- Where the pattern is no prefix, every occurrence is one of the tail. -/
theorem OccursAt.of_cons {c : α} (h : OccursAt pat (c :: l) i) (hno : ¬ pat <+: c :: l) :
    ∃ j, i = j + 1 ∧ OccursAt pat l j := by
  cases i with
  | zero => exact absurd (occursAt_iff_drop.mp h).2 hno
  | succ j => exact ⟨j, rfl, occursAt_cons_succ.mp h⟩

/-! ## The first occurrence -/

/-- `i` is the least offset at which `pat` stands in `l`. -/
def IsFirst (pat l : List α) (i : ℕ) : Prop := OccursAt pat l i ∧ ∀ j, OccursAt pat l j → i ≤ j

/-- **A first occurrence stays the first one when the list grows.** -/
theorem IsFirst.append (h : IsFirst pat l i) (m : List α) : IsFirst pat (l ++ m) i := by
  refine ⟨h.1.append_right m, fun j hj => ?_⟩
  by_contra hlt
  have hle := h.1.add_length_le
  exact hlt (h.2 j (hj.of_append (by omega)))

theorem isFirst_zero (h : pat <+: l) : IsFirst pat l 0 :=
  ⟨occursAt_iff_drop.mpr ⟨Nat.zero_le _, h⟩, fun j _ => Nat.zero_le j⟩

/-- Where the pattern is no prefix, the first occurrence is the first one of the tail. -/
theorem IsFirst.cons {c : α} (h : IsFirst pat l i) (hno : ¬ pat <+: c :: l) :
    IsFirst pat (c :: l) (i + 1) := by
  refine ⟨occursAt_cons_succ.mpr h.1, fun j hj => ?_⟩
  obtain ⟨k, rfl, hk⟩ := hj.of_cons hno
  exact Nat.succ_le_succ (h.2 k hk)

/-- A first occurrence of a longer list that ends inside the shorter one is the first one there. -/
theorem IsFirst.of_append (h : IsFirst pat (l ++ m) i) (hi : i + pat.length ≤ l.length) :
    IsFirst pat l i :=
  ⟨h.1.of_append hi, fun j hj => h.2 j (hj.append_right m)⟩

variable [BEq α] [LawfulBEq α]

/-- The offset of the first occurrence of `pat` in `l`. -/
def firstOcc (pat l : List α) : Option ℕ := (l.dropInfix? pat).map fun p => p.1.length

theorem firstOcc_eq_some_iff : firstOcc pat l = some i ↔ IsFirst pat l i := by
  simp only [firstOcc, Option.map_eq_some_iff, Prod.exists, List.dropInfix?_eq_some_iff, beq_iff_eq]
  constructor
  · rintro ⟨a, s, ⟨⟨pat', hl, rfl⟩, hmin⟩, rfl⟩
    refine ⟨⟨a, s, hl, rfl⟩, ?_⟩
    rintro j ⟨a', s', hl', rfl⟩
    exact hmin a' _ s' hl' rfl
  · rintro ⟨⟨a, s, hl, rfl⟩, hmin⟩
    refine ⟨a, s, ⟨⟨pat, hl, rfl⟩, ?_⟩, rfl⟩
    rintro a' pat' s' hl' rfl
    exact hmin _ ⟨a', s', hl', rfl⟩

theorem firstOcc_eq_none_iff : firstOcc pat l = none ↔ ∀ i, ¬ OccursAt pat l i := by
  constructor
  · intro h i hi
    classical
    have hex : ∃ i, OccursAt pat l i := ⟨i, hi⟩
    have hfirst : IsFirst pat l (Nat.find hex) :=
      ⟨Nat.find_spec hex, fun j hj => Nat.find_min' hex hj⟩
    rw [← firstOcc_eq_some_iff, h] at hfirst
    cases hfirst
  · intro h
    rcases hf : firstOcc pat l with _ | i
    · rfl
    · exact absurd (firstOcc_eq_some_iff.mp hf).1 (h i)

theorem firstOcc_append_of_eq_some (h : firstOcc pat l = some i) (m : List α) :
    firstOcc pat (l ++ m) = some i :=
  firstOcc_eq_some_iff.mpr ((firstOcc_eq_some_iff.mp h).append m)

/-- **A letter the pattern does not have cuts the search in two.** -/
theorem firstOcc_append_cons {a b : List α} {c : α} (hc : c ∉ pat) :
    firstOcc pat (a ++ c :: b)
      = (firstOcc pat a).or ((firstOcc pat b).map fun j => a.length + 1 + j) := by
  rcases ha : firstOcc pat a with _ | i
  · rw [firstOcc_eq_none_iff] at ha
    rw [Option.none_or]
    rcases hb : firstOcc pat b with _ | j
    · rw [firstOcc_eq_none_iff] at hb
      refine firstOcc_eq_none_iff.mpr fun i hi => ?_
      rcases hi.of_append_cons hc with h | ⟨j, -, h⟩
      · exact ha i h
      · exact hb j h
    · rw [firstOcc_eq_some_iff] at hb
      refine firstOcc_eq_some_iff.mpr ⟨?_, fun i hi => ?_⟩
      · simpa using hb.1.append_left (a ++ [c])
      · rcases hi.of_append_cons hc with h | ⟨k, rfl, h⟩
        · exact absurd h (ha i)
        · exact Nat.add_le_add_left (hb.2 k h) _
  · rw [Option.some_or]
    exact firstOcc_append_of_eq_some ha _

/-- An occurrence does not start on a letter that is not the pattern's first. -/
theorem firstOcc_append_of_head_notMem {a b : List α} {c : α} (hc : c ∉ a) :
    firstOcc (c :: pat) (a ++ b) = (firstOcc (c :: pat) b).map fun j => a.length + j := by
  have hcase : ∀ i, OccursAt (c :: pat) (a ++ b) i →
      ∃ j, i = a.length + j ∧ OccursAt (c :: pat) b j := by
    rintro i h
    rcases Nat.lt_or_ge i a.length with hi | hi
    · obtain ⟨u, s, hl, rfl⟩ := h
      have hget : (a ++ b)[u.length]? = some c := by simp [hl]
      rw [List.getElem?_append_left hi] at hget
      exact absurd (List.mem_of_getElem? hget) hc
    · obtain ⟨j, rfl⟩ : ∃ j, i = a.length + j := ⟨i - a.length, by omega⟩
      exact ⟨j, rfl, h.of_append_left⟩
  rcases hb : firstOcc (c :: pat) b with _ | j
  · rw [firstOcc_eq_none_iff] at hb
    refine firstOcc_eq_none_iff.mpr fun i hi => ?_
    obtain ⟨j, -, hj⟩ := hcase i hi
    exact hb j hj
  · rw [firstOcc_eq_some_iff] at hb
    refine firstOcc_eq_some_iff.mpr ⟨hb.1.append_left a, fun i hi => ?_⟩
    obtain ⟨k, rfl, hk⟩ := hcase i hi
    exact Nat.add_le_add_left (hb.2 k hk) _

end Search

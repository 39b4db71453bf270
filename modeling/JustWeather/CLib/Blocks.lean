import JustWeather.CLib.Strings

/-!
# CLib/Blocks — arrays of a fixed size, and what the string functions write there

An array of `n` bytes is a `Block n`, and an assignment outside of it is a fault (`store`).  What
`strcpy` and `strncpy` leave is told by the C string the block then starts with (`Block.Has`).
-/

namespace CLib

/-- An array of `n` bytes. -/
@[ext] structure Block (n : ℕ) where
  bytes : List Byte
  length_eq : bytes.length = n
  deriving DecidableEq

namespace Block

variable {n i k : ℕ} {b : Block n} {s text : List Byte}

/-- `char block[n] = {0}`. -/
def zero (n : ℕ) : Block n := ⟨List.replicate n 0, List.length_replicate ..⟩

/-- The bytes from `i` on are assigned. -/
def store (i : ℕ) (text : List Byte) (b : Block n) : Except Fault (Block n) :=
  if h : i + text.length ≤ n then
    .ok ⟨b.bytes.take i ++ text ++ b.bytes.drop (i + text.length), by
      have := b.length_eq
      simp only [List.length_append, List.length_take, List.length_drop]
      omega⟩
  else .error .copyPastEnd

/-- `strcpy(block, s)`. -/
def strcpy (s : List Byte) (b : Block n) : Except Fault (Block n) := b.store 0 (s ++ [0])

/-- `strncpy(block, s, k)`: what `s` has too few of the `k` bytes are zeros. -/
def strncpy (k : ℕ) (s : List Byte) (b : Block n) : Except Fault (Block n) :=
  b.store 0 (s.take k ++ List.replicate (k - s.length) 0)

/-- `strncpy(block, s, k); block[k] = '\0';` -/
def copyPrefix (k : ℕ) (s : List Byte) (b : Block n) : Except Fault (Block n) :=
  (b.strncpy k s).bind (·.store k [0])

/-- The C string `s` stands at the start of the block, with its terminator. -/
def Has (b : Block n) (s : List Byte) : Prop := ∃ rest, b.bytes = s ++ 0 :: rest

theorem Has.cstr_eq (h : b.Has s) (hs : (0 : Byte) ∉ s) : cstr b.bytes = s := by
  obtain ⟨rest, hb⟩ := h
  have hall : ∀ a ∈ s, (a != 0) = true := by
    intro a ha
    rw [bne_iff_ne]
    rintro rfl
    exact hs ha
  rw [hb, cstr, List.takeWhile_append_of_pos hall, List.takeWhile_cons_of_neg (by decide),
    List.append_nil]

theorem store_of_le (h : i + text.length ≤ n) (b : Block n) : ∃ b', b.store i text = .ok b' ∧
    b'.bytes = b.bytes.take i ++ text ++ b.bytes.drop (i + text.length) := by
  rw [store, dif_pos h]
  exact ⟨_, rfl, rfl⟩

/-- **A string that is shorter than its block is copied whole.** -/
theorem strcpy_of_lt (h : s.length < n) (b : Block n) : ∃ b', b.strcpy s = .ok b' ∧ b'.Has s := by
  have hle : 0 + (s ++ [0]).length ≤ n := by
    rw [Nat.zero_add, List.length_append]
    exact h
  obtain ⟨b', hb', hbytes⟩ := store_of_le hle b
  refine ⟨b', hb', b.bytes.drop (0 + (s ++ [0]).length), ?_⟩
  rw [hbytes]
  simp

/-- **The first `k` characters of a string are copied and terminated**, where the block is longer
than that. -/
theorem copyPrefix_of_lt (h : k < n) (s : List Byte) (b : Block n) :
    ∃ b', b.copyPrefix k s = .ok b' ∧ b'.Has (s.take k) := by
  have hlen : (s.take k ++ List.replicate (k - s.length) 0).length = k := by
    simp only [List.length_append, List.length_take, List.length_replicate]
    omega
  have hle : 0 + (s.take k ++ List.replicate (k - s.length) 0).length ≤ n := by omega
  obtain ⟨b₁, hb₁, hbytes₁⟩ := store_of_le hle b
  obtain ⟨b₂, hb₂, hbytes₂⟩ := store_of_le (show k + [(0 : Byte)].length ≤ n from h) b₁
  have htake : b₁.bytes.take k = s.take k ++ List.replicate (k - s.length) 0 := by
    rw [hbytes₁, List.take_zero, List.nil_append, List.take_append_of_le_length hlen.ge,
      List.take_of_length_le hlen.le]
  refine ⟨b₂, by rw [copyPrefix, strncpy, hb₁]; exact hb₂, ?_⟩
  rw [Has, hbytes₂, htake]
  rcases Nat.eq_zero_or_pos (k - s.length) with hzero | hpos
  · refine ⟨b₁.bytes.drop (k + 1), ?_⟩
    rw [hzero, List.replicate_zero, List.append_nil, List.append_assoc]
    rfl
  · -- the first of the zeros that fill up is the terminator
    obtain ⟨j, hj⟩ := Nat.exists_eq_add_one.mpr hpos
    rw [hj]
    exact ⟨_, by simp only [List.replicate_succ, List.append_assoc, List.cons_append]; rfl⟩

end Block

end CLib

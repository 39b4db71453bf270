import JustWeather.Lib.MessageHead

/-!
# Lib/HeadLines — a head written line by line

A head is a sequence of lines, each ended by `CRLF`, and an empty one.  When no line after the first
is empty and none holds a `CR`, the first blank line is the one that was written last
(`firstOcc_lines`), so the head that is read is the head that was written (`headOf_start`).
-/

open CLib Search MessageHead

/-- Lines, each with the `CRLF` that ends it. -/
def crlfLines (ls : List (List Byte)) : List Byte := ls.flatMap fun l => l ++ [13, 10]

/-- A line of a head: not empty, and without a `CR`. -/
def IsLine (l : List Byte) : Prop := l ≠ [] ∧ (13 : Byte) ∉ l

instance (l : List Byte) : Decidable (IsLine l) := inferInstanceAs (Decidable (_ ∧ _))

@[simp] theorem crlfLines_nil : crlfLines [] = [] := rfl

@[simp] theorem crlfLines_cons (l : List Byte) (ls : List (List Byte)) :
    crlfLines (l :: ls) = l ++ 13 :: 10 :: crlfLines ls := by
  simp [crlfLines]

/-- A `CRLF` that no `CR` follows is not part of a blank line. -/
theorem firstOcc_crlf_cons {b : Byte} (hb : b ≠ 13) (s : List Byte) :
    firstOcc blankLine (13 :: 10 :: b :: s)
      = (firstOcc blankLine (b :: s)).map fun j => 2 + j := by
  have hcase : ∀ i, OccursAt blankLine (13 :: 10 :: b :: s) i →
      ∃ j, i = 2 + j ∧ OccursAt blankLine (b :: s) j := by
    intro i hi
    rw [occursAt_iff_drop] at hi
    rcases i with _ | _ | j
    · have := hi.2
      simp [blankLine, Ne.symm hb] at this
    · have := hi.2
      simp [blankLine] at this
    · refine ⟨j, by omega, occursAt_iff_drop.mpr ⟨?_, by simpa using hi.2⟩⟩
      have := hi.1
      simp only [List.length_cons] at this ⊢
      omega
  rcases hf : firstOcc blankLine (b :: s) with _ | j
  · refine firstOcc_eq_none_iff.mpr fun i hi => ?_
    obtain ⟨j, -, hj⟩ := hcase i hi
    exact firstOcc_eq_none_iff.mp hf j hj
  · rw [firstOcc_eq_some_iff] at hf
    refine firstOcc_eq_some_iff.mpr ⟨hf.1.append_left [13, 10], fun i hi => ?_⟩
    obtain ⟨k, rfl, hk⟩ := hcase i hi
    exact Nat.add_le_add_left (hf.2 k hk) 2

/-- **The first blank line of a head is the one written last**, whatever follows. -/
theorem firstOcc_lines {l : List Byte} {ls : List (List Byte)} (hl : (13 : Byte) ∉ l)
    (hls : ∀ k ∈ ls, IsLine k) (m : List Byte) :
    firstOcc blankLine (crlfLines (l :: ls) ++ 13 :: 10 :: m)
      = some ((crlfLines (l :: ls)).length - 2) := by
  induction ls generalizing l with
  | nil =>
    have h0 : firstOcc blankLine (13 :: 10 :: 13 :: 10 :: m) = some 0 :=
      firstOcc_eq_some_iff.mpr ⟨⟨[], m, rfl, rfl⟩, fun j _ => Nat.zero_le j⟩
    have hstart : firstOcc blankLine (l ++ 13 :: 10 :: 13 :: 10 :: m)
        = (firstOcc blankLine (13 :: 10 :: 13 :: 10 :: m)).map fun j => l.length + j :=
      firstOcc_append_of_head_notMem hl
    rw [crlfLines_cons, crlfLines_nil, List.append_assoc]
    simp [hstart, h0]
  | cons k ls ih =>
    have hline := hls k (by simp)
    obtain ⟨b, k', rfl⟩ := List.exists_cons_of_ne_nil hline.1
    have hb : b ≠ 13 := by
      rintro rfl
      exact hline.2 (by simp)
    have ih := ih hline.2 fun k hk => hls k (List.mem_cons_of_mem _ hk)
    have hstart : firstOcc blankLine
          (l ++ (13 :: 10 :: crlfLines ((b :: k') :: ls) ++ 13 :: 10 :: m))
        = (firstOcc blankLine (13 :: 10 :: crlfLines ((b :: k') :: ls) ++ 13 :: 10 :: m)).map
          fun j => l.length + j := firstOcc_append_of_head_notMem hl
    rw [crlfLines_cons l, List.append_assoc, hstart]
    rw [crlfLines_cons, List.cons_append, List.cons_append] at ih
    rw [crlfLines_cons, List.cons_append, List.cons_append, List.cons_append, List.cons_append,
      firstOcc_crlf_cons hb, ih]
    simp only [Option.map_some, List.length_append, List.length_cons, Option.some.injEq]
    omega

/-- **The head that is read is the head that was written**, whatever its first line. -/
theorem headOf_start {β : Type} (read : List Byte → β) {l : List Byte} {ls : List (List Byte)}
    (hl : (13 : Byte) ∉ l) (hls : ∀ k ∈ ls, IsLine k)
    (hmax : (crlfLines (l :: ls)).length + 3 ≤ intMax) (m : List Byte) :
    headOf read (crlfLines (l :: ls) ++ 13 :: 10 :: m)
      = some (parseHead read (crlfLines (l :: ls) ++ [13, 10])) := by
  have h2 : 2 ≤ (crlfLines (l :: ls)).length := by
    simp only [crlfLines_cons, List.length_append, List.length_cons]
    omega
  have hend : headEnd (crlfLines (l :: ls) ++ 13 :: 10 :: m)
      = some ((crlfLines (l :: ls)).length + 2) :=
    headEnd_eq_some_iff.mpr
      ⟨_, firstOcc_eq_some_iff.mp (firstOcc_lines hl hls m), by omega, by omega⟩
  refine headOf_eq_some_iff.mpr ⟨_, hend, ?_⟩
  generalize crlfLines (l :: ls) = text
  rw [show text ++ 13 :: 10 :: m = (text ++ [13, 10]) ++ m by simp,
    List.take_append_of_le_length (by simp), List.take_of_length_le (by simp)]

/-- **The head that is read is the head that was written.** -/
theorem headOf_lines {β : Type} (read : List Byte → β) {ls : List (List Byte)} (hne : ls ≠ [])
    (hls : ∀ l ∈ ls, IsLine l) (hmax : (crlfLines ls).length + 3 ≤ intMax) (m : List Byte) :
    headOf read (crlfLines ls ++ 13 :: 10 :: m)
      = some (parseHead read (crlfLines ls ++ [13, 10])) := by
  obtain ⟨l, ls, rfl⟩ := List.exists_cons_of_ne_nil hne
  exact headOf_start read (hls l (by simp)).2 (fun k hk => hls k (List.mem_cons_of_mem _ hk)) hmax m

/-- **A search for a word without line ends goes line by line.** -/
theorem strstr_crlf {needle : List Byte} (hne : needle ≠ []) (hcr : (13 : Byte) ∉ needle)
    (hlf : (10 : Byte) ∉ needle) (l m : List Byte) : strstr (l ++ 13 :: 10 :: m) needle
      = ((strstr l needle).map fun found => found ++ 13 :: 10 :: m).or (strstr m needle) := by
  rw [strstr_append_cons hcr, strstr_cons hlf hne]

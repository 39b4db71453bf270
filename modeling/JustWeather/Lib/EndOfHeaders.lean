import JustWeather.CLib.Strings

/-!
# Lib/EndOfHeaders — the loop that looks for `CRLF CRLF`

The server's reader of requests and the client's reader of responses hold the same loop.  Its bound
`read_buffer_size - 4` is a `size_t` and its index an `int`: a buffer of fewer than four bytes wraps
the bound and the loop leaves the buffer (`endOfHeaders_short`); on any other it stays inside and
finds the end of the head, as far as an `int` can index it (`endOfHeaders_cases`).
-/

open CLib Search

/-- `\r\n\r\n`. -/
def blankLine : List Byte := [13, 10, 13, 10]

/-! ## The loop -/

/-- The `&&` chain `read_buffer[i] == … && read_buffer[i + 1] == … && …`, evaluated from the left on
what the buffer holds from index `i`. -/
def matchAt (i : ℕ) : List Byte → List Byte → Except Fault Bool
  | [], _ => .ok true
  | p :: ps, rest =>
    if intMax < i then .error .intOverflow
    else
      match rest with
      | [] => .error .readPastEnd
      | b :: rest => if b = p then matchAt (i + 1) ps rest else .ok false

/-- `for (int i = …; i <= read_buffer_size - 4; i++)` from index `i` on; `rest` is what the buffer
holds from there.  The answer is the index at which the loop breaks. -/
def scanFrom (size i : ℕ) (rest : List Byte) : Except Fault (Option ℕ) :=
  if sizeSub size 4 < i then .ok none
  else
    match matchAt i blankLine rest with
    | .error f => .error f
    | .ok true => .ok (some i)
    | .ok false =>
      if i = intMax then .error .intOverflow
      else
        match rest with
        | [] => .error .readPastEnd
        | _ :: rest => scanFrom size (i + 1) rest

/-- The scan of a buffer, and `int header_end = i + 4` with the `header_end + 1` bytes allocated
for a copy of the head. -/
def endOfHeaders (buffer : List Byte) : Except Fault (Option ℕ) :=
  match scanFrom buffer.length 0 buffer with
  | .error f => .error f
  | .ok none => .ok none
  | .ok (some i) => if intMax < i + 5 then .error .intOverflow else .ok (some (i + 4))

/-! ## What the loop computes -/

/-- Where the head of a stream ends, if an `int` can index it. -/
def headEnd (s : List Byte) : Option ℕ :=
  (firstOcc blankLine s).bind fun i => if intMax < i + 5 then none else some (i + 4)

theorem headEnd_eq_some_iff {s : List Byte} {e : ℕ} :
    headEnd s = some e ↔ ∃ i, IsFirst blankLine s i ∧ i + 5 ≤ intMax ∧ e = i + 4 := by
  simp only [headEnd, Option.bind_eq_some_iff, firstOcc_eq_some_iff]
  refine exists_congr fun i => and_congr_right fun _ => ?_
  split
  · simp only [reduceCtorEq, false_iff]
    omega
  · simp only [Option.some.injEq]
    omega

theorem headEnd_append {s : List Byte} {e : ℕ} (h : headEnd s = some e) (m : List Byte) :
    headEnd (s ++ m) = some e := by
  obtain ⟨i, hi, hmax, rfl⟩ := headEnd_eq_some_iff.mp h
  exact headEnd_eq_some_iff.mpr ⟨i, hi.append m, hmax, rfl⟩

theorem headEnd_le_length {s : List Byte} {e : ℕ} (h : headEnd s = some e) :
    4 ≤ e ∧ e < intMax ∧ e ≤ s.length := by
  obtain ⟨i, hi, hmax, rfl⟩ := headEnd_eq_some_iff.mp h
  have hle : i + 4 ≤ s.length := hi.1.add_length_le
  omega

/-- A head that ends inside the shorter stream is the head of the shorter stream. -/
theorem headEnd_of_append {s m : List Byte} {e : ℕ} (h : headEnd (s ++ m) = some e)
    (hle : e ≤ s.length) : headEnd s = some e := by
  obtain ⟨i, hi, hmax, rfl⟩ := headEnd_eq_some_iff.mp h
  exact headEnd_eq_some_iff.mpr ⟨i, hi.of_append hle, hmax, rfl⟩

/-- What one evaluation of the `&&` chain can do. -/
theorem matchAt_cases (pat : List Byte) (i : ℕ) (rest : List Byte) :
    (matchAt i pat rest = .ok true ∧ pat <+: rest ∧ (pat = [] ∨ i + pat.length ≤ intMax + 1)) ∨
    (matchAt i pat rest = .ok false ∧ ∀ m, ¬ pat <+: rest ++ m) ∨
    (matchAt i pat rest = .error .readPastEnd ∧ rest.length < pat.length) ∨
    (matchAt i pat rest = .error .intOverflow ∧ intMax + 1 < i + pat.length) := by
  induction pat generalizing i rest with
  | nil => exact Or.inl ⟨rfl, List.nil_prefix, Or.inl rfl⟩
  | cons p ps ih =>
    by_cases hi : intMax < i
    · refine Or.inr (Or.inr (Or.inr ⟨by unfold matchAt; rw [if_pos hi], ?_⟩))
      simp only [List.length_cons]
      omega
    · cases rest with
      | nil => exact Or.inr (Or.inr (Or.inl ⟨by simp [matchAt, hi], by simp⟩))
      | cons b rest =>
        by_cases hb : b = p
        · subst hb
          have hstep : matchAt i (b :: ps) (b :: rest) = matchAt (i + 1) ps rest := by
            simp [matchAt, hi]
          rw [hstep]
          rcases ih (i + 1) rest with ⟨h, hpre, hmax⟩ | ⟨h, hno⟩ | ⟨h, hlen⟩ | ⟨h, hmax⟩
          · refine Or.inl ⟨h, by simpa using hpre, Or.inr ?_⟩
            rcases hmax with rfl | hmax
            · simp only [List.length_cons, List.length_nil]
              omega
            · simp only [List.length_cons]
              omega
          · exact Or.inr (Or.inl ⟨h, fun m => by simpa using hno m⟩)
          · exact Or.inr (Or.inr (Or.inl ⟨h, by simpa using hlen⟩))
          · refine Or.inr (Or.inr (Or.inr ⟨h, ?_⟩))
            simp only [List.length_cons]
            omega
        · refine Or.inr (Or.inl ⟨by simp [matchAt, hi, hb], fun m => ?_⟩)
          rw [List.cons_append, List.cons_prefix_cons]
          exact fun h => hb h.1.symm

section Steps

variable {size i : ℕ} {b : Byte} {rest : List Byte}

theorem scanFrom_of_lt (hguard : sizeSub size 4 < i) : scanFrom size i rest = .ok none := by
  unfold scanFrom
  rw [if_pos hguard]

theorem scanFrom_of_error {f : Fault} (hguard : ¬ sizeSub size 4 < i)
    (h : matchAt i blankLine rest = .error f) : scanFrom size i rest = .error f := by
  unfold scanFrom
  rw [if_neg hguard, h]

theorem scanFrom_of_match (hguard : ¬ sizeSub size 4 < i)
    (h : matchAt i blankLine rest = .ok true) : scanFrom size i rest = .ok (some i) := by
  unfold scanFrom
  rw [if_neg hguard, h]

theorem scanFrom_cons (hguard : ¬ sizeSub size 4 < i)
    (h : matchAt i blankLine (b :: rest) = .ok false) : scanFrom size i (b :: rest)
      = if i = intMax then .error .intOverflow else scanFrom size (i + 1) rest := by
  rw [scanFrom, if_neg hguard, h]

end Steps

/-- **What the loop can come to from index `i` on**: it breaks at the first blank line, it ends
without one, or it loses its index. -/
inductive Scanned (size i : ℕ) (rest : List Byte) : Except Fault (Option ℕ) → Prop
  | found {j : ℕ} (hfirst : IsFirst blankLine rest j) (hmax : i + j + 3 ≤ intMax) :
      Scanned size i rest (.ok (some (i + j)))
  | missing (hnone : ∀ j, ¬ OccursAt blankLine rest j) : Scanned size i rest (.ok none)
  | lost (hbig : intMax < size)
      (hlost : ∀ m j, OccursAt blankLine (rest ++ m) j → intMax < i + j + 3) :
      Scanned size i rest (.error .intOverflow)

/-- Where no blank line stands at the index, the loop comes to what it comes to on the tail. -/
theorem Scanned.cons {size i : ℕ} {b : Byte} {rest : List Byte} {r : Except Fault (Option ℕ)}
    (h : Scanned size (i + 1) rest r) (hno : ∀ m, ¬ blankLine <+: b :: (rest ++ m)) :
    Scanned size i (b :: rest) r := by
  have hno' : ¬ blankLine <+: b :: rest := by simpa using hno []
  cases h with
  | @found j hfirst hmax =>
    rw [show i + 1 + j = i + (j + 1) by omega] at hmax ⊢
    exact .found (hfirst.cons hno') hmax
  | missing hnone =>
    refine .missing fun j hj => ?_
    obtain ⟨k, -, hk⟩ := hj.of_cons hno'
    exact hnone k hk
  | lost hbig hlost =>
    refine .lost hbig fun m j hj => ?_
    obtain ⟨k, rfl, hk⟩ := hj.of_cons (hno m)
    have := hlost m k hk
    omega

/-- A buffer with fewer than four bytes left holds no blank line there. -/
theorem not_occursAt_of_short {rest : List Byte} (hshort : rest.length < 4) (j : ℕ) :
    ¬ OccursAt blankLine rest j := by
  intro hj
  have hle := hj.add_length_le
  simp only [blankLine, List.length_cons, List.length_nil] at hle
  omega

/-- **The loop on a buffer of at least four bytes**, from any index. -/
theorem scanned {size : ℕ} (h4 : 4 ≤ size) (hlt : size < sizeMod) (rest : List Byte) (i : ℕ)
    (hsize : i + rest.length = size) : Scanned size i rest (scanFrom size i rest) := by
  induction rest generalizing i with
  | nil =>
    simp only [List.length_nil] at hsize
    rw [scanFrom_of_lt (by rw [sizeSub_of_le h4 hlt]; omega)]
    exact .missing (not_occursAt_of_short (by simp))
  | cons b rest ih =>
    by_cases hguard : sizeSub size 4 < i
    · rw [scanFrom_of_lt hguard]
      rw [sizeSub_of_le h4 hlt] at hguard
      exact .missing (not_occursAt_of_short (by omega))
    · have hroom : blankLine.length ≤ (b :: rest).length := by
        rw [sizeSub_of_le h4 hlt] at hguard
        simp only [blankLine, List.length_cons, List.length_nil] at hsize ⊢
        omega
      simp only [List.length_cons] at hsize
      rcases matchAt_cases blankLine i (b :: rest) with
        ⟨h, hpre, hmax⟩ | ⟨h, hno⟩ | ⟨-, hlen⟩ | ⟨h, hmax⟩
      · rw [scanFrom_of_match hguard h]
        refine .found (isFirst_zero hpre) ?_
        rcases hmax with hmax | hmax
        · simp [blankLine] at hmax
        · simp only [blankLine, List.length_cons, List.length_nil] at hmax
          omega
      · rw [scanFrom_cons hguard h]
        split
        · -- the next index does not fit
          refine .lost (by omega) fun m j hj => ?_
          obtain ⟨k, rfl, -⟩ := hj.of_cons (hno m)
          omega
        · exact (ih (i + 1) (by omega)).cons hno
      · omega
      · rw [scanFrom_of_error hguard h]
        simp only [blankLine, List.length_cons, List.length_nil] at hmax hroom
        exact .lost (by omega) fun m j _ => by omega

/-- **On a buffer of at least four bytes the loop finds the end of the head**, unless its index
leaves `int`; then the buffer is long, and no longer one has a head that `int` can index. -/
theorem endOfHeaders_cases {buffer : List Byte} (h4 : 4 ≤ buffer.length)
    (hlt : buffer.length < sizeMod) :
    endOfHeaders buffer = .ok (headEnd buffer) ∨
    (endOfHeaders buffer = .error .intOverflow ∧ intMax ≤ buffer.length ∧
      ∀ m, headEnd (buffer ++ m) = none) := by
  have hscan := scanned h4 hlt buffer 0 (Nat.zero_add _)
  generalize hr : scanFrom buffer.length 0 buffer = r at hscan
  cases hscan with
  | @found i hfirst _ =>
    rw [Nat.zero_add] at hr
    have hall : ∀ m, firstOcc blankLine (buffer ++ m) = some i := fun m =>
      firstOcc_eq_some_iff.mpr (hfirst.append m)
    by_cases hmax : intMax < i + 5
    · have hle := hfirst.1.add_length_le
      simp only [blankLine, List.length_cons, List.length_nil] at hle
      exact Or.inr ⟨by simp [endOfHeaders, hr, hmax], by omega,
        fun m => by simp [headEnd, hall m, hmax]⟩
    · have := hall []
      rw [List.append_nil] at this
      exact Or.inl (by simp [endOfHeaders, hr, headEnd, this, hmax])
  | missing hnone =>
    refine Or.inl ?_
    rw [endOfHeaders, hr, headEnd, firstOcc_eq_none_iff.mpr hnone]
    rfl
  | lost hbig hlost =>
    refine Or.inr ⟨by rw [endOfHeaders, hr], hbig.le, fun m => ?_⟩
    rcases he : headEnd (buffer ++ m) with _ | e
    · rfl
    · obtain ⟨j, hj, hmax, -⟩ := headEnd_eq_some_iff.mp he
      have := hlost m j hj.1
      omega

/-- The loop on fewer than four bytes, from any index. -/
theorem scanFrom_short {size : ℕ} (h4 : size < 4) (rest : List Byte) (i : ℕ)
    (hsize : i + rest.length = size) : scanFrom size i rest = .error .readPastEnd := by
  have hguard : ¬ sizeSub size 4 < i := by
    rw [sizeSub_of_lt h4 (by decide)]
    have : sizeMod = 2 ^ 64 := rfl
    omega
  have hsmall : i < intMax - 4 := by
    have : intMax = 2 ^ 31 - 1 := rfl
    omega
  induction rest generalizing i with
  | nil =>
    have : ¬ intMax < i := by omega
    exact scanFrom_of_error hguard (by simp [matchAt, blankLine, this])
  | cons b rest ih =>
    simp only [List.length_cons] at hsize
    rcases matchAt_cases blankLine i (b :: rest) with ⟨-, hpre, -⟩ | ⟨h, -⟩ | ⟨h, -⟩ | ⟨-, hmax⟩
    · have := hpre.length_le
      simp only [blankLine, List.length_cons, List.length_nil] at this
      omega
    · have hne : i ≠ intMax := by omega
      have hguard' : ¬ sizeSub size 4 < i + 1 := by
        rw [sizeSub_of_lt h4 (by decide)]
        have : sizeMod = 2 ^ 64 := rfl
        omega
      rw [scanFrom_cons hguard h, if_neg hne]
      exact ih (i + 1) (by omega) hguard' (by have : intMax = 2 ^ 31 - 1 := rfl; omega)
    · exact scanFrom_of_error hguard h
    · simp only [blankLine, List.length_cons, List.length_nil] at hmax
      omega

/-- **A buffer of fewer than four bytes is read past its end.** -/
theorem endOfHeaders_short {buffer : List Byte} (h4 : buffer.length < 4) :
    endOfHeaders buffer = .error .readPastEnd := by
  rw [endOfHeaders, scanFrom_short h4 buffer 0 (Nat.zero_add _)]

/-! ## The first read -/

/-- The first chunk that holds anything holds four bytes. -/
def LongFirst (chunks : List (List Byte)) : Prop :=
  ∀ chunk ∈ chunks.find? (· ≠ []), 4 ≤ chunk.length

instance (chunks : List (List Byte)) : Decidable (LongFirst chunks) :=
  inferInstanceAs (Decidable (∀ chunk ∈ chunks.find? (· ≠ []), 4 ≤ chunk.length))

theorem LongFirst.of_append {pre post : List (List Byte)} (h : LongFirst (pre ++ post)) :
    LongFirst pre := by
  intro chunk hchunk
  refine h chunk ?_
  rw [Option.mem_def] at hchunk ⊢
  rw [List.find?_append, hchunk, Option.some_or]

/-- Only the first chunk that holds anything counts. -/
theorem LongFirst.append {pre : List (List Byte)} (h : LongFirst pre) (hne : pre.flatten ≠ [])
    (post : List (List Byte)) : LongFirst (pre ++ post) := by
  intro chunk hchunk
  refine h chunk ?_
  rw [Option.mem_def, List.find?_append] at hchunk
  rcases hfind : pre.find? (· ≠ []) with _ | c
  · rw [List.find?_eq_none] at hfind
    exact absurd (List.flatten_eq_nil_iff.mpr fun c hc => by simpa using hfind c hc) hne
  · rw [hfind, Option.some_or] at hchunk
    exact hchunk

/-- What has arrived is nothing, or four bytes. -/
theorem LongFirst.length_flatten {chunks : List (List Byte)} (h : LongFirst chunks) :
    chunks.flatten = [] ∨ 4 ≤ chunks.flatten.length := by
  induction chunks with
  | nil => exact Or.inl rfl
  | cons chunk chunks ih =>
    rcases eq_or_ne chunk [] with rfl | hne
    · exact ih (by simpa [LongFirst] using h)
    · have h4 : 4 ≤ chunk.length := by simpa [LongFirst, hne] using h
      refine Or.inr ?_
      rw [List.flatten_cons, List.length_append]
      omega

/-- A short first chunk, with the empty ones before it. -/
theorem exists_of_not_longFirst {chunks : List (List Byte)} (h : ¬ LongFirst chunks) :
    ∃ pre chunk post, chunks = pre ++ chunk :: post ∧ (∀ c ∈ pre, c = []) ∧ chunk ≠ [] ∧
      chunk.length < 4 := by
  simp only [LongFirst, Option.mem_def, List.find?_eq_some_iff_append, not_forall, not_le] at h
  obtain ⟨chunk, ⟨hne, pre, post, rfl, hpre⟩, hlt⟩ := h
  exact ⟨pre, chunk, post, rfl, fun c hc => by simpa using hpre c hc, by simpa using hne, hlt⟩

import JustWeather.CLib.Strings
import Mathlib.Data.Nat.Digits.Lemmas

/-!
# CLib/Scanf — the conversions of `sscanf` and `printf`

`scanToken w` is `%ws`, `scanSize` is `%zu` and `scanInt` is `%d`; each skips the white space the
conversion skips.  `decimal` is `%zu` (and `%d` of a value that is not negative) and `decimalInt`
is `%d`.  What is printed reads back: `scanSize_decimal`, `scanInt_decimalInt`.  A `Conversion` of
a line reads on over the end of the line only where the line is `Blank`.
-/

namespace CLib

variable {s t rest : List Byte} {c : Byte} {w n : ℕ}

/-! ## Tokens -/

/-- The white space directive: what is left after it. -/
def skipSpace (s : List Byte) : List Byte := s.dropWhile isSpace

/-- `%ws`: the token, and what is left of the input.  At the end of the input the token is empty
and the conversion fails, which leaves a zeroed buffer empty. -/
def scanToken (w : ℕ) (s : List Byte) : List Byte × List Byte :=
  let s := skipSpace s
  let token := (s.takeWhile fun b => !isSpace b).take w
  (token, s.drop token.length)

theorem skipSpace_of_head (hc : isSpace c = false) (s : List Byte) :
    skipSpace (c :: s) = c :: s := by
  simp [skipSpace, hc]

theorem skipSpace_cons (hc : isSpace c = true) (s : List Byte) :
    skipSpace (c :: s) = skipSpace s := by
  simp [skipSpace, hc]

theorem mem_scanToken {b : Byte} (hb : b ∈ (scanToken w s).1) : b ∈ s ∧ isSpace b = false := by
  have hmem := List.mem_of_mem_take hb
  refine ⟨(List.dropWhile_suffix _).subset ((List.takeWhile_prefix _).subset hmem), ?_⟩
  simpa using List.mem_takeWhile_imp hmem

theorem length_scanToken_le (w : ℕ) (s : List Byte) : (scanToken w s).1.length ≤ w := by
  simp [scanToken]

/-- **A token that fits is read whole**, up to the white space that ends it. -/
theorem scanToken_append (ht : t ≠ []) (hns : ∀ b ∈ t, isSpace b = false) (hw : t.length ≤ w)
    (hc : isSpace c = true) : scanToken w (t ++ c :: rest) = (t, c :: rest) := by
  obtain ⟨a, t', rfl⟩ := List.exists_cons_of_ne_nil ht
  have hskip : skipSpace ((a :: t') ++ c :: rest) = (a :: t') ++ c :: rest :=
    skipSpace_of_head (hns a (by simp)) _
  have htake : ((a :: t') ++ c :: rest).takeWhile (fun b => !isSpace b) = a :: t' := by
    rw [List.takeWhile_append_of_pos fun b hb => by simp [hns b hb]]
    simp [hc]
  rw [scanToken, hskip, htake, List.take_of_length_le hw, List.drop_left]

/-- A token follows any white space before it. -/
theorem scanToken_cons (hc : isSpace c = true) (s : List Byte) :
    scanToken w (c :: s) = scanToken w s := by
  rw [scanToken, skipSpace_cons hc]
  rfl

/-! ## Decimal numbers -/

/-- The value of a run of digits. -/
def digitsVal (ds : List Byte) : ℕ := ds.foldl (fun acc d => 10 * acc + (d.toNat - 48)) 0

/-- The sign, and what follows it. -/
def scanSign : List Byte → Bool × List Byte
  | 45 :: s => (true, s)
  | 43 :: s => (false, s)
  | s => (false, s)

/-- `%zu`, with the value `strtoul` gives: a negated literal wraps and one too large saturates. -/
def scanSize (s : List Byte) : Option ℕ :=
  let (neg, s) := scanSign (skipSpace s)
  let ds := s.takeWhile isDigit
  if ds = [] then none
  else
    let v := digitsVal ds
    some (if sizeMod ≤ v then sizeMod - 1 else if neg then (sizeMod - v) % sizeMod else v)

/-- `%d`: the value `strtol` gives, narrowed to `int`, and what is left of the input. -/
def scanInt (s : List Byte) : Option (ℤ × List Byte) :=
  let (neg, s) := scanSign (skipSpace s)
  let ds := s.takeWhile isDigit
  if ds = [] then none
  else
    let v : ℤ := digitsVal ds
    let long := if neg then max (-v) (-2 ^ 63) else min v (2 ^ 63 - 1)
    some (long.bmod (2 ^ 32), s.drop ds.length)

theorem scanSize_lt (h : scanSize s = some n) : n < sizeMod := by
  simp only [scanSize] at h
  split at h
  · cases h
  · simp only [Option.some.injEq] at h
    subst h
    have hpos : 0 < sizeMod := by decide
    split
    · omega
    · split
      · exact Nat.mod_lt _ hpos
      · omega

/-- `%zu`, and `%d` of a value that is not negative. -/
def decimal (n : ℕ) : List Byte :=
  if n = 0 then [48] else ((Nat.digits 10 n).map fun d => UInt8.ofNat (48 + d)).reverse

/-- `%d`. -/
def decimalInt (z : ℤ) : List Byte := if z < 0 then 45 :: decimal z.natAbs else decimal z.natAbs

theorem isDigit_ofNat {d : ℕ} (hd : d < 10) : isDigit (UInt8.ofNat (48 + d)) = true := by
  revert d
  decide

theorem isDigit_of_mem_decimal {b : Byte} (hb : b ∈ decimal n) : isDigit b = true := by
  rw [decimal] at hb
  split at hb
  · obtain rfl := List.mem_singleton.mp hb
    decide
  · simp only [List.mem_reverse, List.mem_map] at hb
    obtain ⟨d, hd, rfl⟩ := hb
    exact isDigit_ofNat (Nat.digits_lt_base (by decide) hd)

theorem decimal_ne_nil (n : ℕ) : decimal n ≠ [] := by
  rw [decimal]
  split
  · simp
  · rename_i h
    simpa [Nat.digits_eq_nil_iff_eq_zero] using h

/-- A number has as many digits as its size says. -/
theorem length_decimal_le {k : ℕ} (hk : 0 < k) (hn : n < 10 ^ k) : (decimal n).length ≤ k := by
  rw [decimal]
  split
  · exact hk
  · rw [List.length_reverse, List.length_map]
    exact (Nat.digits_length_le_iff (by decide) n).mpr hn

theorem mem_decimalInt {z : ℤ} {b : Byte} (hb : b ∈ decimalInt z) : b = 45 ∨ isDigit b = true := by
  rw [decimalInt] at hb
  split at hb
  · exact (List.mem_cons.mp hb).imp_right isDigit_of_mem_decimal
  · exact Or.inr (isDigit_of_mem_decimal hb)

/-- Reading a number back one more digit at a time. -/
theorem digitsVal_append_singleton (ds : List Byte) (d : Byte) :
    digitsVal (ds ++ [d]) = 10 * digitsVal ds + (d.toNat - 48) := by
  simp [digitsVal]

theorem digitsVal_digits (ds : List ℕ) (hds : ∀ d ∈ ds, d < 10) :
    digitsVal ((ds.map fun d => UInt8.ofNat (48 + d)).reverse) = Nat.ofDigits 10 ds := by
  induction ds with
  | nil => rfl
  | cons d ds ih =>
    have hd : (UInt8.ofNat (48 + d)).toNat - 48 = d := by
      have := hds d (by simp)
      rw [UInt8.toNat_ofNat', Nat.mod_eq_of_lt (by omega)]
      omega
    rw [List.map_cons, List.reverse_cons, digitsVal_append_singleton,
      ih fun e he => hds e (List.mem_cons_of_mem _ he), hd, Nat.ofDigits_cons]
    omega

/-- **A printed number has its own value.** -/
theorem digitsVal_decimal (n : ℕ) : digitsVal (decimal n) = n := by
  rw [decimal]
  split
  · rename_i h
    subst h
    rfl
  · rw [digitsVal_digits _ fun d hd => Nat.digits_lt_base (by decide) hd, Nat.ofDigits_digits]

/-- What holds of the 256 bytes, one by one, holds of every byte. -/
theorem forall_byte {p : Byte → Prop} (h : ∀ n < 256, p (UInt8.ofNat n)) (b : Byte) : p b := by
  have := h b.toNat b.toNat_lt
  rwa [UInt8.ofNat_toNat] at this

/-- A digit is neither white space nor a sign. -/
theorem not_space_of_isDigit (hc : isDigit c = true) : isSpace c = false ∧ c ≠ 45 ∧ c ≠ 43 := by
  revert hc
  exact forall_byte (p := fun c => isDigit c = true → isSpace c = false ∧ c ≠ 45 ∧ c ≠ 43)
    (by decide +kernel) c

/-- A run of digits has no white space to skip and no sign. -/
theorem scanSign_skipSpace_of_digits (hs : s ≠ []) (hd : ∀ b ∈ s, isDigit b = true)
    (rest : List Byte) : scanSign (skipSpace (s ++ rest)) = (false, s ++ rest) := by
  obtain ⟨a, s, rfl⟩ := List.exists_cons_of_ne_nil hs
  obtain ⟨hspace, hminus, hplus⟩ := not_space_of_isDigit (hd a (by simp))
  rw [List.cons_append, skipSpace_of_head hspace]
  rw [scanSign]
  · intro s' h
    exact hminus (List.cons.inj h).1
  · intro s' h
    exact hplus (List.cons.inj h).1

theorem takeWhile_decimal (n : ℕ) (hc : isDigit c = false) (rest : List Byte) :
    (decimal n ++ c :: rest).takeWhile isDigit = decimal n := by
  rw [List.takeWhile_append_of_pos fun b hb => isDigit_of_mem_decimal hb]
  simp [hc]

theorem scanSize_cons (hc : isSpace c = true) (s : List Byte) : scanSize (c :: s) = scanSize s := by
  rw [scanSize, skipSpace_cons hc]
  rfl

theorem scanInt_cons (hc : isSpace c = true) (s : List Byte) : scanInt (c :: s) = scanInt s := by
  rw [scanInt, skipSpace_cons hc]
  rfl

/-- **A printed `size_t` reads back.** -/
theorem scanSize_decimal (hn : n < sizeMod) (hc : isDigit c = false) (rest : List Byte) :
    scanSize (decimal n ++ c :: rest) = some n := by
  simp only [scanSize,
    scanSign_skipSpace_of_digits (decimal_ne_nil n) (fun b hb => isDigit_of_mem_decimal hb),
    takeWhile_decimal n hc, digitsVal_decimal, if_neg (decimal_ne_nil n),
    if_neg (Nat.not_le.mpr hn)]
  rfl

/-- White space ends a number. -/
theorem takeWhile_append_cons {p : Byte → Bool} (hc : p c = false) (s rest : List Byte) :
    (s ++ c :: rest).takeWhile p = s.takeWhile p := by
  induction s with
  | nil => simp [hc]
  | cons a s ih => cases ha : p a <;> simp [ha, ih]

/-- The sign is at the start, if there is one. -/
theorem scanSign_append (a : Byte) (s m : List Byte) :
    scanSign (a :: s ++ m) = ((scanSign (a :: s)).1, (scanSign (a :: s)).2 ++ m) := by
  rw [List.cons_append]
  by_cases h45 : a = 45
  · subst h45
    rfl
  · by_cases h43 : a = 43
    · subst h43
      rfl
    · have hplain : ∀ s', scanSign (a :: s') = (false, a :: s') := by
        intro s'
        rw [scanSign]
        · exact fun s' h => h45 (List.cons.inj h).1
        · exact fun s' h => h43 (List.cons.inj h).1
      rw [hplain, hplain]
      rfl

/-- **A number at the end of a word** is the number at the end of the input, or there is none in
what follows either. -/
theorem scanSize_append_space {r : Byte} (hs : ∀ b ∈ s, isSpace b = false)
    (hr : isSpace r = false ∧ isDigit r = false ∧ r ≠ 45 ∧ r ≠ 43) (rest : List Byte) :
    scanSize (s ++ 32 :: r :: rest) = scanSize s := by
  cases s with
  | nil =>
    have hskip : skipSpace ([] ++ 32 :: r :: rest) = r :: rest := by
      rw [List.nil_append, skipSpace_cons (by decide), skipSpace_of_head hr.1]
    have hsign : scanSign (r :: rest) = (false, r :: rest) := by
      rw [scanSign]
      · exact fun s' h => hr.2.2.1 (List.cons.inj h).1
      · exact fun s' h => hr.2.2.2 (List.cons.inj h).1
    have hnil : (r :: rest).takeWhile isDigit = [] := by simp [hr.2.1]
    have hnone : scanSize ([] ++ 32 :: r :: rest) = none := by
      simp only [scanSize, hskip, hsign, hnil, if_true]
    rw [hnone]
    rfl
  | cons a s =>
    have hskip : ∀ m, skipSpace (a :: s ++ m) = a :: s ++ m := fun m =>
      skipSpace_of_head (hs a (by simp)) _
    have hskip' : skipSpace (a :: s) = a :: s := by simpa using hskip []
    simp only [scanSize, hskip, hskip', scanSign_append,
      takeWhile_append_cons (c := 32) (p := isDigit) (by decide)]

/-- There is nothing but white space. -/
def Blank (s : List Byte) : Prop := ∀ b ∈ s, isSpace b = true

instance (s : List Byte) : Decidable (Blank s) := List.decidableBAll _ s

theorem skipSpace_blank_append (hs : Blank s) (m : List Byte) :
    skipSpace (s ++ m) = skipSpace m := List.dropWhile_append_of_pos hs

/-- What is skipped in a text that is not blank ends inside it. -/
theorem exists_of_not_blank (hs : ¬ Blank s) :
    ∃ a t, skipSpace s = a :: t ∧ ∀ m, skipSpace (s ++ m) = a :: t ++ m := by
  have hne : skipSpace s ≠ [] := fun hnil => hs (List.dropWhile_eq_nil_iff.mp hnil)
  obtain ⟨a, t, hat⟩ := List.exists_cons_of_ne_nil hne
  refine ⟨a, t, hat, fun m => ?_⟩
  rw [skipSpace, List.dropWhile_append, ← skipSpace, hat]
  rfl

/-- **A conversion** that skips white space, and stops at the end of a line that is not blank. -/
structure Conversion {γ : Type*} (read : List Byte → γ) : Prop where
  blank : ∀ {s}, Blank s → ∀ m, read (s ++ m) = read m
  line : ∀ {s}, ¬ Blank s → ∀ m, read (s ++ 13 :: m) = read s

theorem conversion_scanSize : Conversion fun s => (scanSize s).getD 0 where
  blank hs m := by
    rw [scanSize, skipSpace_blank_append hs]
    rfl
  line hs m := by
    obtain ⟨a, t, hskip, hskip'⟩ := exists_of_not_blank hs
    simp only [scanSize, hskip, hskip', scanSign_append,
      takeWhile_append_cons (c := 13) (p := isDigit) (by decide)]

theorem conversion_scanToken (w : ℕ) : Conversion fun s => (scanToken w s).1 where
  blank hs m := by
    rw [scanToken, skipSpace_blank_append hs]
    rfl
  line hs m := by
    obtain ⟨a, t, hskip, hskip'⟩ := exists_of_not_blank hs
    have hstop : (!isSpace 13) = false := by decide
    simp only [scanToken, hskip, hskip']
    rw [takeWhile_append_cons (p := fun b => !isSpace b) hstop]

/-- **A printed `int` reads back.** -/
theorem scanInt_decimalInt {z : ℤ} (hlo : -2 ^ 31 ≤ z) (hhi : z < 2 ^ 31) (hc : isDigit c = false)
    (rest : List Byte) : scanInt (decimalInt z ++ c :: rest) = some (z, c :: rest) := by
  have hbmod : z.bmod (2 ^ 32) = z := Int.bmod_eq_of_le (by omega) (by omega)
  by_cases hz : z < 0
  · have hsign : scanSign (skipSpace (decimalInt z ++ c :: rest))
        = (true, decimal z.natAbs ++ c :: rest) := by
      rw [decimalInt, if_pos hz, List.cons_append, skipSpace_of_head (by decide)]
      rfl
    have hval : max (-((z.natAbs : ℕ) : ℤ)) (-2 ^ 63) = z := by omega
    simp only [scanInt, hsign, takeWhile_decimal _ hc, if_neg (decimal_ne_nil _),
      digitsVal_decimal, if_true, hval, hbmod, List.drop_left]
  · have hsign : scanSign (skipSpace (decimalInt z ++ c :: rest))
        = (false, decimal z.natAbs ++ c :: rest) := by
      rw [decimalInt, if_neg hz]
      exact scanSign_skipSpace_of_digits (decimal_ne_nil _)
        (fun b hb => isDigit_of_mem_decimal hb) _
    have hval : min ((z.natAbs : ℕ) : ℤ) (2 ^ 63 - 1) = z := by omega
    simp only [scanInt, hsign, takeWhile_decimal _ hc, if_neg (decimal_ne_nil _),
      digitsVal_decimal, Bool.false_eq_true, if_false, hval, hbmod, List.drop_left]

end CLib

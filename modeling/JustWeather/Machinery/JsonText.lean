import Mathlib.Data.Bool.AllAny
import Mathlib.Data.List.DropRight

/-!
# Machinery/JsonText — JSON as a text

A reader of JSON texts as the standard has them, over bytes (of the encoding it takes no notice).
`parse` gives the value of a text, or nothing when the text is no JSON; the members of an object are
a list, so a name that comes twice is there twice.  What a string literal stands for is shorter than
what is written, unless it is written plainly (`chars_spec`); so a text pasted between two quotes is
read back as itself exactly when it is plain (`chars_of_plain`, `plain_of_chars`).
-/

namespace JsonText

/-- The value of a JSON text.  A number is what is written. -/
inductive Value
  | null
  | bool (b : Bool)
  | number (text : List UInt8)
  | string (s : List UInt8)
  | array (elements : List Value)
  | object (members : List (List UInt8 × Value))

variable {b c : UInt8} {s t u rest rest' : List UInt8} {n k : ℕ}

/-! ## White space and numbers -/

/-- The four blanks. -/
def isBlank (b : UInt8) : Bool := b == 32 || b == 9 || b == 10 || b == 13

def skipBlanks (s : List UInt8) : List UInt8 := s.dropWhile isBlank

def isDigit (b : UInt8) : Bool := 48 ≤ b && b ≤ 57

/-- What follows one digit or more. -/
def digits (s : List UInt8) : Option (List UInt8) :=
  if (s.takeWhile isDigit).isEmpty then none else some (s.dropWhile isDigit)

def skipSign : List UInt8 → List UInt8
  | 45 :: s => s
  | s => s

/-- What follows a number: a sign, an integer without a zero before it, a fraction, an exponent. -/
def number (s : List UInt8) : Option (List UInt8) := do
  let s ← match skipSign s with
    | 48 :: s => some s
    | s => digits s
  let s ← match s with
    | 46 :: s => digits s
    | s => some s
  match s with
  | 101 :: 43 :: s | 69 :: 43 :: s => digits s
  | 101 :: s | 69 :: s => digits (skipSign s)
  | s => some s

/-! ## Strings -/

/-- A character that stands for itself. -/
def Plain (b : UInt8) : Prop := 32 ≤ b ∧ b ≠ 34 ∧ b ≠ 92

instance (b : UInt8) : Decidable (Plain b) := inferInstanceAs (Decidable (_ ∧ _))

/-- The value of a hexadecimal digit. -/
def hexDigit (b : UInt8) : Option ℕ :=
  if 48 ≤ b ∧ b ≤ 57 then some (b.toNat - 48)
  else if 65 ≤ b ∧ b ≤ 70 then some (b.toNat - 55)
  else if 97 ≤ b ∧ b ≤ 102 then some (b.toNat - 87)
  else none

/-- Four hexadecimal digits, and what follows them. -/
def hex : List UInt8 → Option (ℕ × List UInt8)
  | a :: b :: c :: d :: s => do
    let a ← hexDigit a
    let b ← hexDigit b
    let c ← hexDigit c
    let d ← hexDigit d
    some (4096 * a + 256 * b + 16 * c + d, s)
  | _ => none

/-- The UTF-8 encoding of a code point. -/
def utf8 (n : ℕ) : List UInt8 :=
  if n < 128 then [.ofNat n]
  else if n < 2048 then [.ofNat (192 + n / 64), .ofNat (128 + n % 64)]
  else if n < 65536 then
    [.ofNat (224 + n / 4096), .ofNat (128 + n / 64 % 64), .ofNat (128 + n % 64)]
  else
    [.ofNat (240 + n / 262144), .ofNat (128 + n / 4096 % 64), .ofNat (128 + n / 64 % 64),
      .ofNat (128 + n % 64)]

/-- The letters that follow a backslash, and what they stand for. -/
def letters : List (UInt8 × UInt8) :=
  [(34, 34), (92, 92), (47, 47), (98, 8), (102, 12), (110, 10), (114, 13), (116, 9)]

/-- The second half of a code point, which is an escape of its own. -/
def secondHalf (first : ℕ) : List UInt8 → Option (List UInt8 × List UInt8)
  | 92 :: 117 :: s =>
    match hex s with
    | none => none
    | some (second, s) =>
      if first < 56320 ∧ 56320 ≤ second ∧ second < 57344 then
        some (utf8 (65536 + 1024 * (first - 55296) + (second - 56320)), s)
      else none
  | _ => none

/-- A code point, of two halves where the first is one of a pair. -/
def codePoint (s : List UInt8) : Option (List UInt8 × List UInt8) :=
  match hex s with
  | none => none
  | some (n, s) => if n < 55296 ∨ 57344 ≤ n then some (utf8 n, s) else secondHalf n s

/-- What follows a backslash. -/
def escape : List UInt8 → Option (List UInt8 × List UInt8)
  | [] => none
  | b :: s => if b = 117 then codePoint s else (letters.lookup b).map fun c => ([c], s)

/-- One character of a string. -/
def character : List UInt8 → Option (List UInt8 × List UInt8)
  | [] => none
  | b :: s => if b = 92 then escape s else if Plain b then some ([b], s) else none

/-- The characters of a string up to the quote that ends it, which are no more than `n`. -/
def chars : ℕ → List UInt8 → Option (List UInt8 × List UInt8)
  | 0, _ => none
  | n + 1, s =>
    if s.head? = some 34 then some ([], s.tail)
    else do
      let (u, s) ← character s
      let (t, s) ← chars n s
      some (u ++ t, s)

/-! ## What a string literal stands for -/

/-- `written` is what is written for a string, and stands for `s`: without control characters, and
longer than `s` or the same, and then plain. -/
structure Writes (written s : List UInt8) : Prop where
  printable : ∀ b ∈ written, 32 ≤ b
  shorter : s.length < written.length ∨ s = written ∧ ∀ b ∈ written, Plain b

theorem writes_nil : Writes [] [] := ⟨by simp, Or.inr ⟨rfl, by simp⟩⟩

theorem writes_plain (hb : Plain b) : Writes [b] [b] := by
  refine ⟨?_, Or.inr ⟨rfl, ?_⟩⟩
  · simpa using hb.1
  · simpa using hb

theorem Writes.append {w w' : List UInt8} (h : Writes w s) (h' : Writes w' t) :
    Writes (w ++ w') (s ++ t) := by
  refine ⟨fun b hb => (List.mem_append.mp hb).elim (h.printable b) (h'.printable b), ?_⟩
  rcases h.shorter with hlt | ⟨rfl, hplain⟩ <;> rcases h'.shorter with hlt' | ⟨rfl, hplain'⟩
  · left
    simp only [List.length_append]
    omega
  · left
    simp only [List.length_append]
    omega
  · left
    simp only [List.length_append]
    omega
  · exact Or.inr ⟨rfl, fun b hb => (List.mem_append.mp hb).elim (hplain b) (hplain' b)⟩

theorem Writes.length_le (h : Writes t s) : s.length ≤ t.length := by
  rcases h.shorter with hlt | ⟨rfl, -⟩
  · exact hlt.le
  · exact le_rfl

theorem length_utf8_le (n : ℕ) : (utf8 n).length ≤ 4 := by
  rw [utf8]
  split_ifs <;> simp

/-- The start of an escape of a code point can be printed. -/
theorem printable_cons_cons {w : List UInt8} (h : ∀ b ∈ w, 32 ≤ b) :
    ∀ b ∈ 92 :: 117 :: w, 32 ≤ b := by
  intro b hb
  rcases List.mem_cons.mp hb with rfl | hb
  · decide
  · rcases List.mem_cons.mp hb with rfl | hb
    · decide
    · exact h b hb

theorem printable_of_hexDigit (h : hexDigit b = some k) : 32 ≤ b := by
  rw [hexDigit] at h
  split_ifs at h with h₁ h₂ h₃
  · exact UInt8.le_trans (b := 48) (by decide) h₁.1
  · exact UInt8.le_trans (b := 65) (by decide) h₂.1
  · exact UInt8.le_trans (b := 97) (by decide) h₃.1

/-- Four digits are four characters. -/
theorem exists_of_hex (h : hex s = some (n, rest)) :
    ∃ w : List UInt8, s = w ++ rest ∧ w.length = 4 ∧ ∀ b ∈ w, 32 ≤ b := by
  rcases s with _ | ⟨a, _ | ⟨b, _ | ⟨c, _ | ⟨d, s⟩⟩⟩⟩
  · cases h
  · cases h
  · cases h
  · cases h
  · simp only [hex, Option.bind_eq_bind, Option.bind_eq_some_iff] at h
    obtain ⟨i, hi, j, hj, k, hk, l, hl, heq⟩ := h
    obtain ⟨-, rfl⟩ := Prod.ext_iff.mp (Option.some.inj heq)
    refine ⟨[a, b, c, d], rfl, rfl, ?_⟩
    simp [printable_of_hexDigit hi, printable_of_hexDigit hj, printable_of_hexDigit hk,
      printable_of_hexDigit hl]

theorem exists_of_secondHalf (h : secondHalf k s = some (u, rest)) :
    ∃ w : List UInt8, s = 92 :: 117 :: w ++ rest ∧ u.length ≤ 4 ∧ ∀ b ∈ w, 32 ≤ b := by
  rw [secondHalf.eq_def] at h
  split at h
  · rename_i s'
    rcases hhex : hex s' with _ | ⟨n, r⟩
    · rw [hhex] at h
      cases h
    · rw [hhex] at h
      obtain ⟨w, rfl, -, hprint⟩ := exists_of_hex hhex
      dsimp only at h
      split at h
      · simp only [Option.some.injEq, Prod.mk.injEq] at h
        obtain ⟨rfl, rfl⟩ := h
        exact ⟨w, by rw [List.cons_append, List.cons_append], length_utf8_le _, hprint⟩
      · cases h
  · cases h

theorem exists_of_codePoint (h : codePoint s = some (u, rest)) :
    ∃ w : List UInt8, s = w ++ rest ∧ 4 ≤ w.length ∧ u.length ≤ 4 ∧ ∀ b ∈ w, 32 ≤ b := by
  rw [codePoint] at h
  rcases hhex : hex s with _ | ⟨n, r⟩
  · rw [hhex] at h
    cases h
  · rw [hhex] at h
    obtain ⟨w, rfl, hw, hprint⟩ := exists_of_hex hhex
    dsimp only at h
    split at h
    · obtain ⟨rfl, rfl⟩ := Prod.ext_iff.mp (Option.some.inj h)
      exact ⟨w, rfl, hw.ge, length_utf8_le n, hprint⟩
    · obtain ⟨w', rfl, hu, hprint'⟩ := exists_of_secondHalf h
      refine ⟨w ++ 92 :: 117 :: w', by simp, ?_, hu, fun b hb => ?_⟩
      · rw [List.length_append]
        omega
      · rcases List.mem_append.mp hb with hb | hb
        · exact hprint b hb
        · exact printable_cons_cons hprint' b hb

theorem printable_of_letters (h : letters.lookup b = some c) : 32 ≤ b := by
  have hall : ∀ p ∈ letters, 32 ≤ p.1 := List.all_iff_forall_prop.mp (by decide)
  obtain ⟨l₁, l₂, hsplit, -⟩ := List.lookup_eq_some_iff.mp h
  exact hall (b, c) (by simp [hsplit])

/-- **A character stands for what is written, or for less.** -/
theorem exists_of_character (h : character s = some (u, rest)) :
    ∃ w, s = w ++ rest ∧ Writes w u := by
  rcases s with _ | ⟨b, s⟩
  · cases h
  · rw [character] at h
    split at h
    · rename_i hb
      subst hb
      rcases s with _ | ⟨c, s⟩
      · cases h
      · rw [escape] at h
        split at h
        · rename_i hc
          subst hc
          obtain ⟨w, rfl, hw, hu, hprint⟩ := exists_of_codePoint h
          refine ⟨92 :: 117 :: w, rfl, printable_cons_cons hprint, Or.inl ?_⟩
          simp only [List.length_cons]
          omega
        · obtain ⟨d, hd, heq⟩ := Option.map_eq_some_iff.mp h
          obtain ⟨rfl, rfl⟩ := Prod.ext_iff.mp heq
          refine ⟨[92, c], rfl, ?_, Or.inl (by simp)⟩
          intro b hb
          rcases List.mem_cons.mp hb with rfl | hb
          · decide
          · obtain rfl := List.mem_singleton.mp hb
            exact printable_of_letters hd
    · split at h
      · rename_i hplain
        obtain ⟨rfl, rfl⟩ := Prod.ext_iff.mp (Option.some.inj h)
        exact ⟨[b], rfl, writes_plain hplain⟩
      · cases h

/-- **What a string literal stands for**: it is written up to its quote. -/
theorem chars_spec (h : chars n s = some (t, rest)) : ∃ w, s = w ++ 34 :: rest ∧ Writes w t := by
  induction n generalizing s t with
  | zero => cases h
  | succ n ih =>
    rw [chars] at h
    split at h
    · rename_i hquote
      obtain ⟨rfl, rfl⟩ := Prod.ext_iff.mp (Option.some.inj h)
      refine ⟨[], ?_, writes_nil⟩
      rcases s with _ | ⟨b, s⟩
      · cases hquote
      · obtain rfl := Option.some.inj hquote
        rfl
    · obtain ⟨⟨u, s'⟩, hu, h⟩ := Option.bind_eq_some_iff.mp h
      obtain ⟨⟨v, s''⟩, hv, h⟩ := Option.bind_eq_some_iff.mp h
      obtain ⟨rfl, rfl⟩ := Prod.ext_iff.mp (Option.some.inj h)
      obtain ⟨w, rfl, hw⟩ := exists_of_character hu
      obtain ⟨w', rfl, hw'⟩ := ih hv
      exact ⟨w ++ w', (List.append_assoc _ _ _).symm, hw.append hw'⟩

/-- **A plain string is read as it is.** -/
theorem chars_of_plain (hs : ∀ b ∈ s, Plain b) (hn : s.length < n) (rest : List UInt8) :
    chars n (s ++ 34 :: rest) = some (s, rest) := by
  induction s generalizing n with
  | nil =>
    obtain ⟨n, rfl⟩ := Nat.exists_eq_add_one.mpr hn
    rfl
  | cons b s ih =>
    have hb := hs b (by simp)
    rw [List.length_cons] at hn
    obtain ⟨n, rfl⟩ := Nat.exists_eq_add_one.mpr (Nat.zero_lt_of_lt hn)
    have hquote : ¬ (b :: s ++ 34 :: rest).head? = some 34 := fun h =>
      hb.2.1 (Option.some.inj h)
    rw [chars, if_neg hquote, List.cons_append, character, if_neg hb.2.2, if_pos hb]
    change ((chars n (s ++ 34 :: rest)).bind fun r => some ([b] ++ r.1, r.2)) = _
    rw [ih (fun c hc => hs c (List.mem_cons_of_mem _ hc)) (by omega)]
    rfl

/-- **A string that is read back as itself is plain**, where a control character follows close on
its quote. -/
theorem plain_of_chars {a d : UInt8} (ha : a ≠ 34) (hd : d < 32)
    (h : chars n (s ++ 34 :: a :: d :: rest) = some (s, rest')) :
    (∀ b ∈ s, Plain b) ∧ rest' = a :: d :: rest := by
  obtain ⟨w, hw, hwrites⟩ := chars_spec h
  have hlen := hwrites.length_le
  -- what is written cannot reach beyond the quote
  have hsame : w.length ≤ s.length := by
    by_contra hlong
    have hquote : s ++ [34] <+: s ++ 34 :: a :: d :: rest := ⟨a :: d :: rest, by simp⟩
    have hpre : s ++ [34] <+: w := by
      refine List.prefix_of_prefix_length_le hquote ⟨34 :: rest', hw.symm⟩ ?_
      rw [List.length_append, List.length_singleton]
      omega
    obtain ⟨x, rfl⟩ := hpre
    have hx : a :: d :: rest = x ++ 34 :: rest' := by simpa using hw
    rcases x with _ | ⟨x₁, _ | ⟨x₂, x⟩⟩
    · exact ha (List.cons.inj hx).1
    · have := (List.cons.inj (List.cons.inj hx).2).1
      subst this
      exact absurd hd (by decide)
    · have := (List.cons.inj (List.cons.inj hx).2).1
      subst this
      exact absurd (hwrites.printable d (by simp)) (UInt8.not_le.mpr hd)
  rcases hwrites.shorter with hlt | ⟨rfl, hplain⟩
  · omega
  · have hrest := List.append_cancel_left hw
    exact ⟨hplain, (List.cons.inj hrest).2.symm⟩

/-! ## Values -/

/-- What follows a member of an object: a comma and more members, or the brace. -/
def following (more : List UInt8 → Option (List (List UInt8 × Value) × List UInt8))
    (member : List UInt8 × Value) (s : List UInt8) :
    Option (List (List UInt8 × Value) × List UInt8) :=
  match skipBlanks s with
  | 44 :: s => (more s).map fun r => (member :: r.1, r.2)
  | 125 :: s => some ([member], s)
  | _ => none

/-- The members of an object after its brace, `n` at most, with a reader for their values. -/
def members (value : List UInt8 → Option (Value × List UInt8)) :
    ℕ → List UInt8 → Option (List (List UInt8 × Value) × List UInt8)
  | 0, _ => none
  | n + 1, s =>
    match skipBlanks s with
    | 34 :: s =>
      (chars n s).bind fun name =>
        match skipBlanks name.2 with
        | 58 :: s => (value s).bind fun v => following (members value n) (name.1, v.1) v.2
        | _ => none
    | _ => none

/-- The elements of an array after its bracket, `n` at most. -/
def elements (value : List UInt8 → Option (Value × List UInt8)) :
    ℕ → List UInt8 → Option (List Value × List UInt8)
  | 0, _ => none
  | n + 1, s => do
    let (v, s) ← value s
    match skipBlanks s with
    | 44 :: s => (elements value n s).map fun r => (v :: r.1, r.2)
    | 93 :: s => some ([v], s)
    | _ => none

/-- A value of no more than `n` characters, and what follows it. -/
def value : ℕ → List UInt8 → Option (Value × List UInt8)
  | 0, _ => none
  | n + 1, s =>
    match skipBlanks s with
    | 34 :: s => (chars n s).map fun r => (.string r.1, r.2)
    | 123 :: s =>
      match skipBlanks s with
      | 125 :: s => some (.object [], s)
      | s => (members (value n) n s).map fun r => (.object r.1, r.2)
    | 91 :: s =>
      match skipBlanks s with
      | 93 :: s => some (.array [], s)
      | s => (elements (value n) n s).map fun r => (.array r.1, r.2)
    | 110 :: 117 :: 108 :: 108 :: s => some (.null, s)
    | 116 :: 114 :: 117 :: 101 :: s => some (.bool true, s)
    | 102 :: 97 :: 108 :: 115 :: 101 :: s => some (.bool false, s)
    | s => (number s).map fun rest => (.number (s.take (s.length - rest.length)), rest)

/-- **The value of a JSON text.** -/
def parse (s : List UInt8) : Option Value :=
  (value (s.length + 1) s).bind fun r => if (skipBlanks r.2).isEmpty then some r.1 else none

/-! ## Objects of strings -/

theorem skipBlanks_cons (hb : isBlank b = false) (s : List UInt8) : skipBlanks (b :: s) = b :: s :=
  List.dropWhile_cons_of_neg (by rw [hb]; decide)

theorem skipBlanks_append {blanks : List UInt8} (hblanks : ∀ b ∈ blanks, isBlank b = true)
    (hb : isBlank b = false) (s : List UInt8) : skipBlanks (blanks ++ b :: s) = b :: s := by
  rw [skipBlanks, List.dropWhile_append_of_pos hblanks]
  exact skipBlanks_cons hb s

theorem value_string (n : ℕ) (s : List UInt8) :
    value (n + 1) (32 :: 34 :: s) = (chars n s).map fun r => (.string r.1, r.2) := by
  have hskip : skipBlanks ([32] ++ 34 :: s) = 34 :: s :=
    skipBlanks_append (List.all_iff_forall_prop.mp (by decide)) (by decide) s
  rw [List.singleton_append] at hskip
  rw [value, hskip]
  rfl

/-- **A member that is a string.** -/
theorem members_string {blanks name : List UInt8} (hblanks : ∀ b ∈ blanks, isBlank b = true)
    (hname : ∀ b ∈ name, Plain b) (hlen : name.length < n) (k : ℕ) (s : List UInt8) :
    members (value (k + 1)) (n + 1) (blanks ++ 34 :: (name ++ 34 :: 58 :: 32 :: 34 :: s))
      = (chars k s).bind fun r =>
        following (members (value (k + 1)) n) (name, .string r.1) r.2 := by
  rw [members, skipBlanks_append hblanks (by decide)]
  change (chars n (name ++ 34 :: 58 :: 32 :: 34 :: s)).bind _ = _
  rw [chars_of_plain hname hlen, Option.bind_some, skipBlanks_cons (by decide)]
  change (value (k + 1) (32 :: 34 :: s)).bind _ = _
  rw [value_string, Option.bind_map]
  rfl

theorem members_skipBlanks (value : List UInt8 → Option (Value × List UInt8)) (n : ℕ)
    (s : List UInt8) : members value n (skipBlanks s) = members value n s := by
  cases n with
  | zero => rfl
  | succ n => rw [members, members, skipBlanks, skipBlanks, List.dropWhile_idempotent]

theorem value_object (hs : (skipBlanks s).head? = some 34) :
    value (n + 1) (123 :: s) = (members (value n) n s).map fun q => (.object q.1, q.2) := by
  obtain ⟨r, hr⟩ : ∃ r, skipBlanks s = 34 :: r := by
    rcases h : skipBlanks s with _ | ⟨b, r⟩
    · rw [h] at hs
      cases hs
    · rw [h] at hs
      exact ⟨r, by rw [Option.some.inj hs]⟩
  rw [value, skipBlanks_cons (by decide), ← members_skipBlanks _ n s]
  change (match skipBlanks s with
    | 125 :: s => some (Value.object [], s)
    | s => Option.map (fun q : List (List UInt8 × Value) × List UInt8 => (Value.object q.1, q.2))
      (members (value n) n s)) = _
  rw [hr]
  rfl

variable {more : List UInt8 → Option (List (List UInt8 × Value) × List UInt8)}
  {member : List UInt8 × Value} {ms : List (List UInt8 × Value)}

theorem following_comma (s : List UInt8) : following more member (44 :: s)
    = (more s).map fun r => (member :: r.1, r.2) := by
  rw [following, skipBlanks_cons (by decide)]
  rfl

theorem mem_of_following (h : following more member s = some (ms, rest)) : member ∈ ms := by
  rw [following] at h
  split at h
  · obtain ⟨r, -, heq⟩ := Option.map_eq_some_iff.mp h
    obtain ⟨rfl, -⟩ := Prod.ext_iff.mp heq
    exact List.mem_cons_self ..
  · obtain ⟨rfl, -⟩ := Prod.ext_iff.mp (Option.some.inj h)
    exact List.mem_cons_self ..
  · cases h

end JsonText

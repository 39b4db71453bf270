import JustWeather.Machinery.Search
import Mathlib.Algebra.Group.Nat.Defs
import Mathlib.Data.List.TakeWhile

/-!
# CLib/Strings — bytes, machine sizes and C strings

A block of memory is the list of its bytes, a C string the bytes before its terminator, so no list
read as a C string holds a `0`.  `size_t` is `ℕ` with its sums reduced mod `2 ^ 64`; what C leaves
undefined is a `Fault`, and a run that meets one has no further state.
-/

namespace CLib

/-- One `char` or `uint8_t`. -/
abbrev Byte := UInt8

/-- The bytes of a string literal: its UTF-8 encoding, without the terminator. -/
def bytes (s : String) : List Byte := s.toList.flatMap String.utf8EncodeChar

/-- What a C program does that the language leaves undefined. -/
inductive Fault
  /-- an element access at or past the end of its block -/
  | readPastEnd
  /-- a copy whose source or destination is shorter than its length -/
  | copyPastEnd
  /-- a `send` of more bytes than its block has -/
  | sendPastEnd
  /-- a block whose size wrapped, so that it is too small for what is put there -/
  | blockTooSmall
  /-- a value that does not fit `int` -/
  | intOverflow
  /-- an access through `NULL` -/
  | nullAccess
  /-- a use or a release of a block that was released -/
  | notLive
  /-- a use of a value that nobody set -/
  | indeterminate
  /-- a loop that goes round without an end -/
  | endless
  /-- a fault of a callback -/
  | callback (f : Fault)
  deriving DecidableEq, Repr

/-! ## Machine sizes -/

/-- One more than the largest `size_t`. -/
def sizeMod : ℕ := 2 ^ 64

/-- The largest `int`. -/
def intMax : ℕ := 2 ^ 31 - 1

/-- A sum of two `size_t` values. -/
def sizeAdd (a b : ℕ) : ℕ := (a + b) % sizeMod

/-- A difference of two `size_t` values. -/
def sizeSub (a b : ℕ) : ℕ := (a + (sizeMod - b % sizeMod)) % sizeMod

theorem sizeAdd_of_lt {a b : ℕ} (h : a + b < sizeMod) : sizeAdd a b = a + b := Nat.mod_eq_of_lt h

/-- A sum that wraps is smaller than either part. -/
theorem sizeAdd_lt_left {a b : ℕ} (ha : a < sizeMod) (hb : b < sizeMod) (h : sizeMod ≤ a + b) :
    sizeAdd a b < a := by
  have hsum : sizeAdd a b = a + b - sizeMod := by
    rw [sizeAdd, Nat.mod_eq_sub_mod h, Nat.mod_eq_of_lt (by omega)]
  omega

theorem sizeSub_of_le {a b : ℕ} (hba : b ≤ a) (ha : a < sizeMod) : sizeSub a b = a - b := by
  have hb : b % sizeMod = b := Nat.mod_eq_of_lt (by omega)
  rw [sizeSub, hb, show a + (sizeMod - b) = a - b + sizeMod by omega, Nat.add_mod_right,
    Nat.mod_eq_of_lt (by omega)]

/-- **A difference below zero wraps to a huge size.** -/
theorem sizeSub_of_lt {a b : ℕ} (hab : a < b) (hb : b < sizeMod) :
    sizeSub a b = a + (sizeMod - b) := by
  rw [sizeSub, Nat.mod_eq_of_lt hb, Nat.mod_eq_of_lt (by omega)]

/-! ## Characters -/

/-- `isspace` in the C locale. -/
def isSpace (b : Byte) : Bool := b == 32 || (9 ≤ b && b ≤ 13)

/-- `isdigit`. -/
def isDigit (b : Byte) : Bool := 48 ≤ b && b ≤ 57

/-! ## C strings -/

/-- The C string a block holds: its bytes before the first `0`. -/
def cstr (block : List Byte) : List Byte := block.takeWhile (· != 0)

theorem cstr_of_notMem {s : List Byte} (h : (0 : Byte) ∉ s) : cstr s = s := by
  refine List.takeWhile_eq_self_iff.mpr fun b hb => ?_
  simp only [bne_iff_ne, ne_eq]
  rintro rfl
  exact h hb

/-- `strstr`: the rest of `hay` from the first place `needle` stands. -/
def strstr (hay needle : List Byte) : Option (List Byte) :=
  (Search.firstOcc needle hay).map hay.drop

section Strstr

open Search

variable {hay needle found a b : List Byte} {c : Byte}

/-- What is found is the needle and what follows it, at the end of the hay. -/
theorem exists_of_strstr (h : strstr hay needle = some found) :
    (∃ rest, found = needle ++ rest) ∧ found <:+ hay := by
  obtain ⟨i, hi, rfl⟩ := Option.map_eq_some_iff.mp h
  obtain ⟨-, rest, hrest⟩ := occursAt_iff_drop.mp (firstOcc_eq_some_iff.mp hi).1
  exact ⟨⟨rest, hrest.symm⟩, List.drop_suffix i hay⟩

theorem strstr_append_self (needle b : List Byte) :
    strstr (needle ++ b) needle = some (needle ++ b) := by
  have h0 : firstOcc needle (needle ++ b) = some 0 :=
    firstOcc_eq_some_iff.mpr ⟨⟨[], b, rfl, rfl⟩, fun j _ => Nat.zero_le j⟩
  rw [strstr, h0]
  rfl

/-- **A letter the needle does not have cuts the search in two.** -/
theorem strstr_append_cons (hc : c ∉ needle) (a b : List Byte) : strstr (a ++ c :: b) needle
    = ((strstr a needle).map fun found => found ++ c :: b).or (strstr b needle) := by
  simp only [strstr, firstOcc_append_cons hc]
  rcases ha : firstOcc needle a with _ | i
  · rcases firstOcc needle b with _ | j
    · rfl
    · have hdrop : (a ++ c :: b).drop (a.length + 1 + j) = b.drop j := by
        rw [show a ++ c :: b = (a ++ [c]) ++ b by simp,
          show a.length + 1 = (a ++ [c]).length by simp, List.drop_length_add_append]
      simp [hdrop]
  · have hle := (firstOcc_eq_some_iff.mp ha).1.add_length_le
    simp [List.drop_append_of_le_length (Nat.le_of_add_right_le hle)]

theorem strstr_cons (hc : c ∉ needle) (hne : needle ≠ []) (b : List Byte) :
    strstr (c :: b) needle = strstr b needle := by
  have hnil : strstr [] needle = none := by
    rcases h : strstr [] needle with _ | found
    · rfl
    · obtain ⟨⟨rest, rfl⟩, hsuffix⟩ := exists_of_strstr h
      simp [hne] at hsuffix
  have := strstr_append_cons hc [] b
  rwa [hnil] at this

/-- A letter of the needle that is nowhere in the hay. -/
theorem strstr_of_notMem (hc : c ∈ needle) (hs : c ∉ hay) : strstr hay needle = none := by
  rcases h : strstr hay needle with _ | found
  · rfl
  · obtain ⟨⟨rest, rfl⟩, hsuffix⟩ := exists_of_strstr h
    exact absurd (hsuffix.subset (List.mem_append_left _ hc)) hs

end Strstr

/-- `strchr`: the rest of `s` from the first `c`. -/
def strchr (s : List Byte) (c : Byte) : Option (List Byte) :=
  if c ∈ s then some (s.dropWhile (· != c)) else none

/-- `strncmp(s, lit, strlen(lit)) == 0`. -/
def startsWith (s lit : List Byte) : Bool := lit.isPrefixOf s

/-- `snprintf(buf, size, …)`: the C string left in `buf`, and the length the text would have. -/
def snprintf (size : ℕ) (text : List Byte) : List Byte × ℕ := (text.take (size - 1), text.length)

/-- A text shorter than its buffer is written whole. -/
theorem snprintf_of_lt {size : ℕ} {text : List Byte} (h : text.length < size) :
    snprintf size text = (text, text.length) := by
  rw [snprintf, List.take_of_length_le (by omega)]

/-- `strncpy(dst, src, n)` into a zeroed field of more than `n` bytes: the C string left there. -/
def strncpy (n : ℕ) (src : List Byte) : List Byte := src.take n

end CLib

import Mathlib.Data.List.Basic
import Mathlib.Data.Nat.Basic

/-!
# Machinery/IteratedHash — a hash that takes its message block by block

A compression function is folded over the blocks of a message, of which a padding makes the last
one whole (`IteratedHash.digest`).  One who is given the message in pieces keeps what does not fill
a block (`Partial`); where the pieces end makes no difference (`Partial.close_foldl_feed`).
-/

universe u v w

/-- A hash that is iterated over blocks of `width` letters.  The padding depends on how long the
message is, and fills its last block up. -/
structure IteratedHash (α : Type u) (σ : Type v) (δ : Type w) where
  width : ℕ
  start : σ
  compress : σ → List α → σ
  padding : ℕ → List α
  finish : σ → δ
  width_pos : 0 < width
  width_dvd : ∀ size, width ∣ size + (padding size).length

namespace IteratedHash

variable {α : Type u} {σ : Type v} {δ : Type w} {h : IteratedHash α σ δ} {xs ys : List α}
  {m n : ℕ} {s : σ}

/-- That many blocks, one after the other. -/
def absorb (h : IteratedHash α σ δ) (s : σ) (xs : List α) : ℕ → σ
  | 0 => s
  | n + 1 => absorb h (h.compress s (xs.take h.width)) (xs.drop h.width) n

/-- **The hash of a message.** -/
def digest (h : IteratedHash α σ δ) (message : List α) : δ :=
  let padded := message ++ h.padding message.length
  h.finish (h.absorb h.start padded (padded.length / h.width))

theorem absorb_append (hxs : xs.length = m * h.width) (s : σ) (ys : List α) (n : ℕ) :
    h.absorb s (xs ++ ys) (m + n) = h.absorb (h.absorb s xs m) ys n := by
  induction m generalizing s xs with
  | zero =>
    obtain rfl : xs = [] := List.length_eq_zero_iff.mp (by omega)
    rw [List.nil_append, Nat.zero_add]
    rfl
  | succ m ih =>
    have hwidth : h.width ≤ xs.length := by rw [hxs]; exact Nat.le_mul_of_pos_left _ m.succ_pos
    have hrest : (xs.drop h.width).length = m * h.width := by
      rw [List.length_drop, hxs, Nat.succ_mul, Nat.add_sub_cancel]
    rw [Nat.add_right_comm, absorb, absorb, List.take_append_of_le_length hwidth,
      List.drop_append_of_le_length hwidth, ih hrest]

/-- The whole blocks of a message, and what comes after them. -/
theorem absorb_append_div (hm : m = xs.length / h.width) (s : σ) (ys : List α) :
    h.absorb s (xs ++ ys) ((xs ++ ys).length / h.width)
      = h.absorb (h.absorb s xs m) (xs.drop (m * h.width) ++ ys)
        ((xs.drop (m * h.width) ++ ys).length / h.width) := by
  have hle : m * h.width ≤ xs.length := hm ▸ Nat.div_mul_le_self _ _
  have htake : (xs.take (m * h.width)).length = m * h.width := List.length_take_of_le hle
  have hwhole : h.absorb s xs m = h.absorb s (xs.take (m * h.width)) m := by
    have := absorb_append htake s (xs.drop (m * h.width)) 0
    rwa [List.take_append_drop] at this
  have hcount : (xs ++ ys).length / h.width
      = m + (xs.drop (m * h.width) ++ ys).length / h.width := by
    rw [Nat.add_comm m, ← Nat.add_mul_div_right _ _ h.width_pos, List.length_append,
      List.length_append, List.length_drop]
    congr 1
    omega
  rw [hcount, hwhole, ← absorb_append htake, ← List.append_assoc, List.take_append_drop]

/-! ## In pieces -/

/-- What is known of a message so far: the state its whole blocks make, and what waits for its
block to fill. -/
structure Partial (h : IteratedHash α σ δ) where
  state : σ
  waiting : List α
  size : ℕ
  length_waiting : waiting.length = size % h.width

namespace Partial

/-- Before the message. -/
def fresh (h : IteratedHash α σ δ) : Partial h := ⟨h.start, [], 0, (Nat.zero_mod _).symm⟩

/-- A piece of the message. -/
def feed (p : Partial h) (piece : List α) : Partial h where
  state := h.absorb p.state (p.waiting ++ piece) ((p.waiting ++ piece).length / h.width)
  waiting :=
    (p.waiting ++ piece).drop ((p.waiting ++ piece).length / h.width * h.width)
  size := p.size + piece.length
  length_waiting := by
    have hmod : (p.waiting ++ piece).length % h.width = (p.size + piece.length) % h.width := by
      rw [List.length_append, p.length_waiting, Nat.mod_add_mod]
    rw [List.length_drop, ← hmod, Nat.mod_def, Nat.mul_comm]

/-- The end of the message. -/
def close (p : Partial h) : δ :=
  let last := p.waiting ++ h.padding p.size
  h.finish (h.absorb p.state last (last.length / h.width))

theorem ext {p q : Partial h} (hstate : p.state = q.state) (hwaiting : p.waiting = q.waiting)
    (hsize : p.size = q.size) : p = q := by
  cases p
  cases q
  simp_all

/-- What is too short to fill the block just waits. -/
theorem feed_of_lt {p : Partial h} (hshort : p.waiting.length + xs.length < h.width) :
    (p.feed xs).state = p.state ∧ (p.feed xs).waiting = p.waiting ++ xs := by
  have hdiv : (p.waiting ++ xs).length / h.width = 0 :=
    Nat.div_eq_of_lt (by rwa [List.length_append])
  simp only [feed, hdiv, absorb, Nat.zero_mul, List.drop_zero, and_self]

/-- **Two pieces are one.** -/
theorem feed_feed (p : Partial h) (xs ys : List α) : (p.feed xs).feed ys = p.feed (xs ++ ys) := by
  refine ext ?_ ?_ ?_
  · simp only [feed, ← List.append_assoc]
    exact (absorb_append_div rfl _ _).symm
  · simp only [feed, ← List.append_assoc]
    generalize p.waiting ++ xs = zs
    have hle : zs.length / h.width * h.width ≤ zs.length := Nat.div_mul_le_self _ _
    have hcount : (zs ++ ys).length / h.width * h.width = zs.length / h.width * h.width
        + (zs.drop (zs.length / h.width * h.width) ++ ys).length / h.width * h.width := by
      rw [← Nat.add_mul, Nat.add_comm (zs.length / h.width),
        ← Nat.add_mul_div_right _ _ h.width_pos]
      simp only [List.length_append, List.length_drop]
      congr 2
      omega
    rw [hcount, ← List.drop_drop, List.drop_append_of_le_length hle]
  · simp only [feed, List.length_append]
    omega

theorem feed_nil (p : Partial h) : p.feed [] = p := by
  have hdiv : p.waiting.length / h.width = 0 :=
    Nat.div_eq_of_lt (by rw [p.length_waiting]; exact Nat.mod_lt _ h.width_pos)
  refine ext ?_ ?_ ?_ <;> simp [feed, hdiv, absorb]

theorem foldl_feed (p : Partial h) (pieces : List (List α)) :
    pieces.foldl feed p = p.feed pieces.flatten := by
  induction pieces generalizing p with
  | nil => exact (feed_nil p).symm
  | cons piece pieces ih => rw [List.foldl_cons, ih, feed_feed, List.flatten_cons]

theorem close_feed_fresh (message : List α) : ((fresh h).feed message).close =
    h.digest message := by
  simp only [close, digest, feed, fresh, List.nil_append, Nat.zero_add]
  exact congrArg h.finish (absorb_append_div rfl _ _).symm

/-- **Where the pieces end makes no difference.** -/
theorem close_foldl_feed (pieces : List (List α)) :
    (pieces.foldl feed (fresh h)).close = h.digest pieces.flatten := by
  rw [foldl_feed, close_feed_fresh]

end Partial

end IteratedHash

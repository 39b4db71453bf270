import Mathlib.Data.List.Basic

/-!
# Machinery/Framing — a reader that accumulates a stream does not see how the stream was cut

A framing reads the header of a message off a prefix of the stream, and the header says how long the
message is.  A reader that appends each chunk to a buffer and looks at the whole buffer answers at
the first chunk after which the buffer holds the message (`read_eq_some`), and its answer is the
message of the stream (`read_message`, `read_eq_none_iff`): the cuts play no part.
-/

/-- **A framing**: the header a prefix of the stream holds, and the size of the message it
announces. A header once read is not changed by what follows. -/
structure Framing (α β : Type*) where
  head : List α → Option β
  size : β → ℕ
  head_append : ∀ {p h}, head p = some h → ∀ q, head (p ++ q) = some h

namespace Framing

variable {α β : Type*} (F : Framing α β) {p buf : List α} {chunks : List (List α)} {h : β} {k : ℕ}

/-- The header of the message a prefix holds whole. -/
def message (p : List α) : Option β := (F.head p).filter fun h => F.size h ≤ p.length

variable {F}

theorem message_eq_some_iff : F.message p = some h ↔ F.head p = some h ∧ F.size h ≤ p.length := by
  simp [message, Option.filter_eq_some_iff]

theorem message_append (hp : F.message p = some h) (q : List α) : F.message (p ++ q) = some h := by
  rw [message_eq_some_iff] at hp ⊢
  refine ⟨F.head_append hp.1 q, ?_⟩
  rw [List.length_append]
  omega

variable (F) in
/-- **The accumulating reader**: the number of chunks read before the one that completes the
message, its header, and the buffer at that moment. -/
def read : List α → List (List α) → Option (ℕ × β × List α)
  | _, [] => none
  | buf, chunk :: chunks =>
    match F.message (buf ++ chunk) with
    | some h => some (0, h, buf ++ chunk)
    | none => (read (buf ++ chunk) chunks).map fun r => (r.1 + 1, r.2)

/-- **The reader answers at the first chunk that completes the message.** -/
theorem read_eq_some (hr : F.read buf chunks = some (k, h, p)) :
    k < chunks.length ∧ p = buf ++ (chunks.take (k + 1)).flatten ∧ F.message p = some h ∧
      ∀ j, 0 < j → j ≤ k → F.message (buf ++ (chunks.take j).flatten) = none := by
  induction chunks generalizing buf k with
  | nil => cases hr
  | cons chunk chunks ih =>
    rw [read] at hr
    split at hr
    · rename_i h' hm
      obtain ⟨rfl, rfl, rfl⟩ : 0 = k ∧ h' = h ∧ buf ++ chunk = p := by simpa using hr
      exact ⟨by simp, by simp, hm, fun j h0 hj => by omega⟩
    · rename_i hm
      simp only [Option.map_eq_some_iff, Prod.mk.injEq, Prod.exists] at hr
      obtain ⟨k', h', p', hr, rfl, rfl, rfl⟩ := hr
      obtain ⟨hk, hp, hmsg, hbefore⟩ := ih hr
      refine ⟨by simp only [List.length_cons]; omega, by simpa using hp, hmsg, fun j h0 hj => ?_⟩
      obtain ⟨j, rfl⟩ : ∃ i, j = i + 1 := ⟨j - 1, by omega⟩
      rcases Nat.eq_zero_or_pos j with rfl | hpos
      · simpa using hm
      · simpa using hbefore j hpos (by omega)

/-- **The reader's answer is the message of the whole stream.** -/
theorem read_message (hr : F.read buf chunks = some (k, h, p)) :
    F.message (buf ++ chunks.flatten) = some h := by
  obtain ⟨-, rfl, hm, -⟩ := read_eq_some hr
  have := message_append hm (chunks.drop (k + 1)).flatten
  rwa [List.append_assoc, ← List.flatten_append, List.take_append_drop] at this

/-- **The reader is silent exactly when the stream holds no message.** -/
theorem read_eq_none_iff (hbuf : F.message buf = none) :
    F.read buf chunks = none ↔ F.message (buf ++ chunks.flatten) = none := by
  induction chunks generalizing buf with
  | nil => simp [read, hbuf]
  | cons chunk chunks ih =>
    rw [read]
    split
    · rename_i h hm
      have := message_append hm chunks.flatten
      simp only [List.append_assoc] at this
      simp [this]
    · rename_i hm
      rw [Option.map_eq_none_iff, ih hm]
      simp

end Framing

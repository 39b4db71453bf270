import JustWeather.CLib.Scanf
import JustWeather.Lib.EndOfHeaders
import JustWeather.Machinery.Framing

/-!
# Lib/MessageHead — the head of a stream, and the message it announces

The server and the client copy the bytes up to the blank line, read `Content-Length` off the copy
and, each its own way, the rest (`read`).  So the head of a stream is a function of the stream alone
(`headOf`), and with the length it announces it is a framing (`framing`).
-/

open CLib

/-- What a head says: what its reader makes of the text, `content_len`, and `body_start`. -/
structure MessageHead (β : Type) where
  fields : β
  contentLen : ℕ
  bodyStart : ℕ
  deriving DecidableEq, Repr

/-- `sscanf(…, "Content-Length: %zu", &content_len)` where `Content-Length:` stands first; a
conversion that fails leaves the `0` of the declaration. -/
def scanContentLength (text : List Byte) : ℕ :=
  match strstr text (bytes "Content-Length:") with
  | none => 0
  | some found => (scanSize (found.drop 15)).getD 0

/-- The block that reads a head out of `headers`, the `header_end` bytes it was copied from. -/
def parseHead {β : Type} (read : List Byte → β) (headers : List Byte) : MessageHead β where
  fields := read (cstr headers)
  contentLen := scanContentLength (cstr headers)
  bodyStart := headers.length

theorem scanContentLength_lt (text : List Byte) : scanContentLength text < sizeMod := by
  have hpos : 0 < sizeMod := by decide
  rw [scanContentLength]
  split
  · exact hpos
  · rename_i found _
    rcases hv : scanSize (found.drop 15) with _ | v
    · exact hpos
    · exact scanSize_lt hv

namespace MessageHead

variable {β : Type} {read : List Byte → β} {s m : List Byte} {h : MessageHead β}

variable (read s) in
/-- The head of a stream, once the stream holds it whole. -/
def headOf : Option (MessageHead β) := (headEnd s).map fun e => parseHead read (s.take e)

theorem headOf_append (hs : headOf read s = some h) (m : List Byte) :
    headOf read (s ++ m) = some h := by
  simp only [headOf, Option.map_eq_some_iff] at hs ⊢
  obtain ⟨e, he, rfl⟩ := hs
  refine ⟨e, headEnd_append he m, ?_⟩
  rw [List.take_append_of_le_length (headEnd_le_length he).2.2]

theorem headOf_eq_some_iff :
    headOf read s = some h ↔ ∃ e, headEnd s = some e ∧ h = parseHead read (s.take e) := by
  rw [headOf, Option.map_eq_some_iff]
  exact exists_congr fun e => and_congr_right fun _ => eq_comm

theorem headOf_eq_none_of_append (hs : headOf read (s ++ m) = none) : headOf read s = none := by
  rcases h : headOf read s with _ | h'
  · rfl
  · cases hs.symm.trans (headOf_append h m)

/-- The body of a message starts where its head ends. -/
theorem headEnd_eq_bodyStart (hs : headOf read s = some h) : headEnd s = some h.bodyStart := by
  obtain ⟨e, he, rfl⟩ := headOf_eq_some_iff.mp hs
  rw [he, parseHead, List.length_take, Nat.min_eq_left (headEnd_le_length he).2.2]

theorem bodyStart_bounds (hs : headOf read s = some h) :
    4 ≤ h.bodyStart ∧ h.bodyStart < intMax ∧ h.bodyStart ≤ s.length :=
  headEnd_le_length (headEnd_eq_bodyStart hs)

/-- A head that was not there yet ends in what follows. -/
theorem length_lt_bodyStart (hs : headOf read s = none) (hm : headOf read (s ++ m) = some h) :
    s.length < h.bodyStart := by
  by_contra hle
  have := headEnd_of_append (headEnd_eq_bodyStart hm) (Nat.not_lt.mp hle)
  simp [headOf, this] at hs

/-- The buffer in which a head is found for the first time is far from full. -/
theorem length_append_lt (hs : headOf read s = none) (hm : headOf read (s ++ m) = some h)
    (hle : m.length ≤ 4096) : (s ++ m).length < sizeMod := by
  have hshort := length_lt_bodyStart hs hm
  have hmax := (bodyStart_bounds hm).2.1
  have hsize : sizeMod = 2 ^ 64 := rfl
  have hint : intMax = 2 ^ 31 - 1 := rfl
  rw [List.length_append]
  omega

theorem contentLen_lt (hs : headOf read s = some h) : h.contentLen < sizeMod := by
  obtain ⟨e, -, rfl⟩ := headOf_eq_some_iff.mp hs
  exact scanContentLength_lt _

variable (read) in
/-- **A message as a framing**: the head, and `content_len` bytes after it. -/
def framing : Framing Byte (MessageHead β) where
  head := headOf read
  size h := h.bodyStart + h.contentLen
  head_append h := headOf_append h

theorem message_framing_iff : (framing read).message s = some h ↔
    headOf read s = some h ∧ h.bodyStart + h.contentLen ≤ s.length :=
  Framing.message_eq_some_iff

/-- A prefix of a stream that holds a message whole has the head of the stream. -/
theorem message_of_le (hs : headOf read (s ++ m) = some h)
    (hle : h.bodyStart + h.contentLen ≤ s.length) : (framing read).message s = some h := by
  refine Framing.message_eq_some_iff.mpr ⟨?_, hle⟩
  have hend := headEnd_of_append (headEnd_eq_bodyStart hs) (by omega)
  obtain ⟨e, he, hparse⟩ := headOf_eq_some_iff.mp hs
  obtain rfl : e = h.bodyStart := Option.some.inj (he.symm.trans (headEnd_eq_bodyStart hs))
  rw [List.take_append_of_le_length (by omega)] at hparse
  exact headOf_eq_some_iff.mpr ⟨_, hend, hparse⟩

/-- A head stands up to the first blank line of its stream. -/
theorem isFirst_blankLine (hs : headOf read s = some h) :
    ∃ i, Search.IsFirst blankLine s i ∧ h.bodyStart = i + 4 := by
  obtain ⟨i, hi, -, he⟩ := headEnd_eq_some_iff.mp (headEnd_eq_bodyStart hs)
  exact ⟨i, hi, he⟩

variable (read s) in
/-- The head of a stream, if there is one, ends a body that `size_t` can index. -/
def NoWrap : Prop := ∀ h, headOf read s = some h → h.bodyStart + h.contentLen < sizeMod

theorem NoWrap.of_append (h : NoWrap read (s ++ m)) : NoWrap read s :=
  fun _ hs => h _ (headOf_append hs m)

/-- A body that wraps has its head in the bytes that are new. -/
theorem exists_of_not_noWrap (hno : NoWrap read s) (hwrap : ¬ NoWrap read (s ++ m)) :
    headOf read s = none ∧
      ∃ h, headOf read (s ++ m) = some h ∧ sizeMod ≤ h.bodyStart + h.contentLen := by
  simp only [NoWrap, not_forall, not_lt] at hwrap
  obtain ⟨h, hs, hge⟩ := hwrap
  refine ⟨?_, h, hs, hge⟩
  rcases hs' : headOf read s with _ | h'
  · rfl
  · cases hs.symm.trans (headOf_append hs' _)
    exact absurd hge (Nat.not_le.mpr (hno h hs'))

/-- What holds of all the chunks holds of the first ones. -/
theorem noWrap_of_isPrefix {chunks chunks' : List (List Byte)} (hpre : chunks' <+: chunks)
    (h : LongFirst chunks → NoWrap read chunks.flatten) (hlong : LongFirst chunks') :
    NoWrap read chunks'.flatten := by
  obtain ⟨rest, rfl⟩ := hpre
  rcases eq_or_ne chunks'.flatten [] with hnil | hne
  · rw [hnil]
    exact fun _ hs => by cases hs
  · have := h (hlong.append hne rest)
    rw [List.flatten_append] at this
    exact this.of_append

end MessageHead

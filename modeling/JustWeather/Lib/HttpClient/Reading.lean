import JustWeather.Lib.HttpClient
import JustWeather.Machinery.Trace

/-!
# Lib/HttpClient/Reading — what a run of the reading state can do

A client that is still reading is determined by the client that began to read and by what was stored
since (`waiting`); a tick that keeps its chunk goes on, ends the reading, or fails
(`readWork_waiting`), and one that does not ends the reading (`readWork_step`).
-/

open CLib MessageHead

namespace HttpClient

variable {a : ReadAlloc} {t : ReadTick} {ticks : List ReadTick} {c c₀ : HttpClient}
  {s : List Byte} {h : MessageHead ℤ} {evs : List Event}

/-! ## A client that waits -/

/-- A client that is about to read: it is in the reading state and has read nothing. -/
structure Fresh (c : HttpClient) : Prop where
  state : c.state = .reading
  readBuffer : c.readBuffer = []
  bodyStart : c.bodyStart = 0

/-- A client that is about to read, with nothing else in it. -/
def idle : HttpClient where
  state := .reading
  url := []
  callback := false
  writeBuffer := none
  writeSize := 0
  writeOffset := 0
  readBuffer := []
  bodyStart := 0
  contentLen := 0
  statusCode := 0
  body := none
  hostname := []
  path := []
  port := []

theorem fresh_idle : Fresh idle := ⟨rfl, rfl, rfl⟩

/-- A client that holds the bytes `s` and has read nothing off them. -/
def filled (c₀ : HttpClient) (s : List Byte) : HttpClient := { c₀ with readBuffer := s }

/-- **The waiting client**: it holds `s`, and the head of `s` if there is one. -/
def waiting (c₀ : HttpClient) (s : List Byte) : HttpClient :=
  match headOf scanStatus s with
  | none => filled c₀ s
  | some h => (filled c₀ s).setHead h

theorem waiting_of_none (hs : headOf scanStatus s = none) : waiting c₀ s = filled c₀ s := by
  rw [waiting, hs]

theorem waiting_of_some (hs : headOf scanStatus s = some h) :
    waiting c₀ s = (filled c₀ s).setHead h := by
  rw [waiting, hs]

theorem waiting_nil (hf : Fresh c₀) : waiting c₀ [] = c₀ := by
  have hnil : headOf scanStatus [] = none := rfl
  rw [waiting_of_none hnil, filled, ← hf.readBuffer]

@[simp] theorem waiting_readBuffer (c₀ : HttpClient) (s : List Byte) :
    (waiting c₀ s).readBuffer = s := by
  rw [waiting]
  split <;> rfl

@[simp] theorem waiting_state (c₀ : HttpClient) (s : List Byte) :
    (waiting c₀ s).state = c₀.state := by
  rw [waiting]
  split <;> rfl

@[simp] theorem waiting_callback (c₀ : HttpClient) (s : List Byte) :
    (waiting c₀ s).callback = c₀.callback := by
  rw [waiting]
  split <;> rfl

theorem complete_iff : c.complete = true ↔
    0 < c.bodyStart ∧ sizeAdd c.bodyStart c.contentLen ≤ c.readBuffer.length := by
  rw [complete, Bool.and_eq_true, decide_eq_true_eq, decide_eq_true_eq]

/-- A client that is complete has a head, and it is the head of what it was sent. -/
theorem exists_of_complete (hf : Fresh c₀) (hc : (waiting c₀ s).complete = true) :
    ∃ h, headOf scanStatus s = some h ∧ waiting c₀ s = (filled c₀ s).setHead h ∧
      sizeAdd h.bodyStart h.contentLen ≤ s.length := by
  rw [complete_iff] at hc
  rcases hs : headOf scanStatus s with _ | h
  · rw [waiting_of_none hs] at hc
    exact absurd hc.1 (by simp [filled, hf.bodyStart])
  · rw [waiting_of_some hs] at hc ⊢
    exact ⟨h, rfl, rfl, hc.2⟩

/-! ## One tick -/

/-- A tick the client goes on reading after: the socket did not fail, and the buffer could grow. -/
def goesOn (t : ReadTick) : Bool :=
  match t.recv with
  | .data _ => t.alloc.readBuffer
  | .closed => true
  | .wouldBlock => true
  | .error => false

/-- A tick that reads `bs`, with memory for everything. -/
def readTick (bs : List Byte) (hne : bs ≠ []) (hle : bs.length ≤ chunkSize) : ReadTick :=
  ⟨.data ⟨bs, hne, hle⟩, .all⟩

theorem workReading_of_not_goesOn (ht : goesOn t = false) (c : HttpClient) :
    ∃ text, c.workReading t.alloc t.recv
      = .ok ⟨.dispose, c, c.notify (bytes "ERROR") text⟩ := by
  rcases hr : t.recv with chunk | _ | _ | _
  · have hno : t.alloc.readBuffer = false := by rwa [goesOn, hr] at ht
    have hpos : ((chunk.bytes.length : ℕ) : ℤ) ≠ 0 := by simpa using chunk.ne_nil
    refine ⟨bytes "Memory allocation failed", ?_⟩
    simp only [workReading, tcpClientRead, hno]
    rw [if_neg (by omega), if_neg hpos]
    rfl
  · simp [goesOn, hr] at ht
  · simp [goesOn, hr] at ht
  · exact ⟨bytes "Read failed", by simp [workReading, tcpClientRead]⟩

theorem workReading_of_bytes_nil (ht : goesOn t = true) (hnil : t.recv.bytes = [])
    (c : HttpClient) : c.workReading t.alloc t.recv = .ok ⟨.reading, c, []⟩ := by
  rcases hr : t.recv with chunk | _ | _ | _
  · rw [hr] at hnil
    exact absurd hnil chunk.ne_nil
  · simp [workReading, tcpClientRead]
  · simp [workReading, tcpClientRead]
  · simp [goesOn, hr] at ht

theorem workReading_of_bytes (ht : goesOn t = true) (hne : t.recv.bytes ≠ []) (c : HttpClient) :
    c.workReading t.alloc t.recv = (c.grow t.recv.bytes).bind fun c => c.process t.alloc := by
  rcases hr : t.recv with chunk | _ | _ | _
  · have hyes : t.alloc.readBuffer = true := by rwa [goesOn, hr] at ht
    have hpos : ((chunk.bytes.length : ℕ) : ℤ) ≠ 0 := by simpa using chunk.ne_nil
    simp only [workReading, tcpClientRead, Recv.bytes, hyes]
    rw [if_neg (by omega), if_neg hpos, if_pos trivial]
    rcases c.grow chunk.bytes with f | c <;> rfl
  all_goals exact absurd (by rw [hr]; rfl) hne

/-- The search for the head, in the client that just stored a chunk. -/
theorem latch_waiting {chunk : List Byte} (hf : Fresh c₀) (h4 : 4 ≤ (s ++ chunk).length)
    (hlt : (s ++ chunk).length < sizeMod) :
    { waiting c₀ s with readBuffer := s ++ chunk }.latch a = .ok (some (waiting c₀ (s ++ chunk))) ∨
    ({ waiting c₀ s with readBuffer := s ++ chunk }.latch a = .ok none ∧ a.headers = false ∧
      headOf scanStatus s = none ∧ headEnd (s ++ chunk) ≠ none) ∨
    ({ waiting c₀ s with readBuffer := s ++ chunk }.latch a = .error .intOverflow ∧
      intMax ≤ (s ++ chunk).length ∧ ∀ m, headOf scanStatus (s ++ chunk ++ m) = none) := by
  rcases hs : headOf scanStatus s with _ | h
  · have hfill : { waiting c₀ s with readBuffer := s ++ chunk } = filled c₀ (s ++ chunk) := by
      rw [waiting_of_none hs]
      rfl
    have hstart : (filled c₀ (s ++ chunk)).bodyStart = 0 := hf.bodyStart
    have hread : (filled c₀ (s ++ chunk)).readBuffer = s ++ chunk := rfl
    rw [hfill, latch, if_pos hstart, hread]
    rcases endOfHeaders_cases h4 hlt with he | ⟨he, hbig, hnone⟩
    · rw [he]
      rcases hend : headEnd (s ++ chunk) with _ | e
      · have hno : headOf scanStatus (s ++ chunk) = none := by simp [headOf, hend]
        rw [waiting_of_none hno]
        exact Or.inl rfl
      · have hyes : headOf scanStatus (s ++ chunk)
            = some (parseHead scanStatus ((s ++ chunk).take e)) := by simp [headOf, hend]
        rw [waiting_of_some hyes]
        by_cases ha : a.headers
        · exact Or.inl (by simp only [ha, if_true])
        · exact Or.inr (Or.inl ⟨by simp [ha], by simpa using ha, rfl, by simp⟩)
    · rw [he]
      exact Or.inr (Or.inr ⟨rfl, hbig, fun m => by rw [headOf, hnone m]; rfl⟩)
  · -- the head is there already
    have hpos : ¬ h.bodyStart = 0 := by
      have := bodyStart_bounds hs
      omega
    rw [waiting_of_some hs, waiting_of_some (headOf_append hs chunk)]
    exact Or.inl (if_neg hpos)

/-- The client with its body taken. -/
def taken (a : ReadAlloc) (c : HttpClient) : HttpClient :=
  if 0 < c.contentLen then
    { c with
      body := if a.body then some ((c.readBuffer.drop c.bodyStart).take c.contentLen) else none }
  else c

/-- The body fits its block, and the buffer holds it. -/
def BodyFits (c : HttpClient) : Prop :=
  c.contentLen < sizeAdd c.contentLen 1 ∧ c.bodyStart + c.contentLen ≤ c.readBuffer.length

/-- The body is copied, or the copy leaves one of its two blocks. -/
theorem takeBody_cases (a : ReadAlloc) (c : HttpClient) :
    (c.takeBody a = .ok (c.taken a) ∧ (0 < c.contentLen → a.body = true → c.BodyFits)) ∨
    (c.takeBody a = .error .copyPastEnd ∧ a.body = true ∧ ¬ c.BodyFits) := by
  rw [takeBody, taken]
  by_cases hpos : 0 < c.contentLen
  · rw [if_pos hpos, if_pos hpos]
    by_cases hbody : a.body
    · rw [if_pos hbody, if_pos hbody]
      by_cases hfit : c.BodyFits
      · exact Or.inl ⟨if_pos hfit, fun _ _ => hfit⟩
      · exact Or.inr ⟨if_neg hfit, hbody, hfit⟩
    · rw [if_neg hbody, if_neg hbody]
      exact Or.inl ⟨rfl, fun _ h => absurd h hbody⟩
  · rw [if_neg hpos, if_neg hpos]
    exact Or.inl ⟨rfl, fun h _ => absurd h hpos⟩

theorem readWork_of_reading (hc : c.state = .reading) (t : ReadTick) :
    c.readWork t = (c.workReading t.alloc t.recv).map fun o =>
      ({ o.client with state := o.next }, o.events) := by
  simp only [readWork, hc]

theorem readWork_of_ne_reading (hc : c.state ≠ .reading) (t : ReadTick) :
    c.readWork t = .ok (c, []) := by
  rw [readWork]
  split
  · exact absurd (by assumption) hc
  · rfl

/-- **What a tick that keeps a chunk can do**: wait, be done, give up for want of memory, copy past
the end of a block, or lose the index of the search. -/
theorem readWork_waiting (hf : Fresh c₀) (ht : goesOn t = true) (hne : t.recv.bytes ≠ [])
    (h4 : 4 ≤ (s ++ t.recv.bytes).length) (hlt : (s ++ t.recv.bytes).length < sizeMod) :
    ((waiting c₀ s).readWork t = .ok (waiting c₀ (s ++ t.recv.bytes), []) ∧
      (waiting c₀ (s ++ t.recv.bytes)).complete = false) ∨
    ((waiting c₀ s).readWork t
        = .ok ({ (waiting c₀ (s ++ t.recv.bytes)).taken t.alloc with state := .done },
          ((waiting c₀ (s ++ t.recv.bytes)).taken t.alloc).notify (bytes "RESPONSE")
            ((waiting c₀ (s ++ t.recv.bytes)).taken t.alloc).responseInfo) ∧
      (waiting c₀ (s ++ t.recv.bytes)).complete = true ∧
      (0 < (waiting c₀ (s ++ t.recv.bytes)).contentLen → t.alloc.body = true →
        (waiting c₀ (s ++ t.recv.bytes)).BodyFits)) ∨
    (∃ d evs, (waiting c₀ s).readWork t = .ok (d, evs) ∧ d.state = .dispose ∧
      t.alloc.headers = false ∧ headOf scanStatus s = none ∧
      headEnd (s ++ t.recv.bytes) ≠ none) ∨
    ((waiting c₀ s).readWork t = .error .copyPastEnd ∧
      (waiting c₀ (s ++ t.recv.bytes)).complete = true ∧ t.alloc.body = true ∧
      ¬ (waiting c₀ (s ++ t.recv.bytes)).BodyFits) ∨
    ((waiting c₀ s).readWork t = .error .intOverflow ∧ intMax ≤ (s ++ t.recv.bytes).length ∧
      ∀ m, headOf scanStatus (s ++ t.recv.bytes ++ m) = none) := by
  have hstate : (waiting c₀ s).state = .reading := by rw [waiting_state, hf.state]
  have hgrow : (waiting c₀ s).grow t.recv.bytes
      = .ok { waiting c₀ s with readBuffer := s ++ t.recv.bytes } := by
    rw [grow_of_lt (by rwa [waiting_readBuffer]), waiting_readBuffer]
  rw [readWork_of_reading hstate, workReading_of_bytes ht hne, hgrow]
  simp only [Except.bind, process]
  rcases latch_waiting (a := t.alloc) hf h4 hlt with hl | ⟨hl, hfail⟩ | ⟨hl, hbig, hnone⟩
  · rw [hl]
    dsimp only
    rw [finish]
    by_cases hcomp : (waiting c₀ (s ++ t.recv.bytes)).complete
    · rw [if_pos hcomp]
      rcases takeBody_cases t.alloc (waiting c₀ (s ++ t.recv.bytes)) with
        ⟨hbody, hfit⟩ | ⟨hbody, hfit⟩
      · rw [hbody]
        exact Or.inr (Or.inl ⟨rfl, hcomp, hfit⟩)
      · rw [hbody]
        exact Or.inr (Or.inr (Or.inr (Or.inl ⟨rfl, hcomp, hfit⟩)))
    · rw [if_neg hcomp]
      have hsame : { waiting c₀ (s ++ t.recv.bytes) with state := .reading }
          = waiting c₀ (s ++ t.recv.bytes) := by
        have : (waiting c₀ (s ++ t.recv.bytes)).state = .reading := by
          rw [waiting_state, hf.state]
        rw [← this]
      refine Or.inl ⟨?_, by simpa using hcomp⟩
      simp only [Except.map]
      rw [hsame]
  · rw [hl]
    exact Or.inr (Or.inr (Or.inl ⟨_, _, rfl, rfl, hfail⟩))
  · rw [hl]
    exact Or.inr (Or.inr (Or.inr (Or.inr ⟨rfl, hbig, hnone⟩)))

/-- A tick without a chunk changes nothing. -/
theorem readWork_of_bytes_nil (hf : Fresh c₀) (ht : goesOn t = true) (hnil : t.recv.bytes = []) :
    (waiting c₀ s).readWork t = .ok (waiting c₀ s, []) := by
  have hstate : (waiting c₀ s).state = .reading := by rw [waiting_state, hf.state]
  rw [readWork_of_reading hstate, workReading_of_bytes_nil ht hnil]
  simp only [Except.map]
  rw [← hstate]

/-- A chunk that `size_t` cannot count with what is there has no block. -/
theorem readWork_of_full (hf : Fresh c₀) (ht : goesOn t = true) (hne : t.recv.bytes ≠ [])
    (hge : sizeMod ≤ (s ++ t.recv.bytes).length) :
    (waiting c₀ s).readWork t = .error .blockTooSmall := by
  have hstate : (waiting c₀ s).state = .reading := by rw [waiting_state, hf.state]
  have hgrow : (waiting c₀ s).grow t.recv.bytes = .error .blockTooSmall :=
    grow_of_le (by rwa [waiting_readBuffer])
  rw [readWork_of_reading hstate, workReading_of_bytes ht hne, hgrow]
  rfl

/-- **The ways a reading tick can fail**, on a client that then holds `s`. -/
inductive ReadFault (c₀ : HttpClient) (s : List Byte) : Fault → Prop
  /-- the buffer outgrew `size_t` -/
  | full (hge : sizeMod ≤ s.length) : ReadFault c₀ s .blockTooSmall
  /-- the search outgrew `int` -/
  | index (hbig : intMax ≤ s.length) (hnone : ∀ m, headOf scanStatus (s ++ m) = none) :
      ReadFault c₀ s .intOverflow
  /-- the body ends past what was stored, or its block is too small for it -/
  | copy (hcomp : (waiting c₀ s).complete = true) (hfit : ¬ (waiting c₀ s).BodyFits) :
      ReadFault c₀ s .copyPastEnd

/-- **What a reading tick can do**: go on waiting, leave the reading state, or fail. -/
theorem readWork_step (hf : Fresh c₀) (hlt : s.length < sizeMod)
    (h4 : goesOn t = true → t.recv.bytes ≠ [] → 4 ≤ (s ++ t.recv.bytes).length) :
    ((waiting c₀ s).readWork t = .ok (waiting c₀ (s ++ t.recv.bytes), []) ∧ goesOn t = true ∧
      (s ++ t.recv.bytes).length < sizeMod) ∨
    (∃ d evs, (waiting c₀ s).readWork t = .ok (d, evs) ∧ d.state ≠ .reading) ∨
    ∃ f, (waiting c₀ s).readWork t = .error f ∧ goesOn t = true ∧
      ReadFault c₀ (s ++ t.recv.bytes) f := by
  have hstate : (waiting c₀ s).state = .reading := by rw [waiting_state, hf.state]
  rcases ht : goesOn t
  · obtain ⟨text, hwork⟩ := workReading_of_not_goesOn ht (waiting c₀ s)
    rw [readWork_of_reading hstate, hwork]
    exact Or.inr (Or.inl ⟨_, _, rfl, by simp⟩)
  · by_cases hnil : t.recv.bytes = []
    · rw [hnil, List.append_nil]
      exact Or.inl ⟨readWork_of_bytes_nil hf ht hnil, rfl, hlt⟩
    · rcases Nat.lt_or_ge (s ++ t.recv.bytes).length sizeMod with hlt' | hge
      · rcases readWork_waiting hf ht hnil (h4 ht hnil) hlt' with
          ⟨hd, -⟩ | ⟨hd, -⟩ | ⟨d, evs, hd, hdisp, -⟩ | ⟨hd, hcomp, -, hfit⟩ | ⟨hd, hbig, hnone⟩
        · exact Or.inl ⟨hd, rfl, hlt'⟩
        · exact Or.inr (Or.inl ⟨_, _, hd, by simp⟩)
        · exact Or.inr (Or.inl ⟨d, evs, hd, by simp [hdisp]⟩)
        · exact Or.inr (Or.inr ⟨_, hd, rfl, .copy hcomp hfit⟩)
        · exact Or.inr (Or.inr ⟨_, hd, rfl, .index hbig hnone⟩)
      · exact Or.inr (Or.inr ⟨_, readWork_of_full hf ht hnil hge, rfl, .full hge⟩)

end HttpClient

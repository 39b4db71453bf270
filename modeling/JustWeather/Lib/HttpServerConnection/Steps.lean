import JustWeather.Lib.HttpServerConnection
import JustWeather.Machinery.Trace

/-!
# Lib/HttpServerConnection/Steps — what one tick of a connection can do

Until it dispatches, a connection is determined by what it was sent (`Waits`), and `Waits.tick`
lists what a tick makes of it.  `send_cases` lists what a tick makes of a connection that sends.
-/

open CLib MessageHead

namespace HTTPServerConnection

/-! ## One call -/

variable {onRequest : OnRequest} {a : ReceiveAlloc} {t : Tick} {c : HTTPServerConnection}

/-- The bytes a tick adds to `read_buffer`: what was read, if `realloc` found room for it. -/
def stored (t : Tick) : List Byte := if t.alloc.readBuffer then t.recv.bytes else []

/-- A tick that reads `bs`, with memory for everything. -/
def readTick (bs : List Byte) (hne : bs ≠ []) (hle : bs.length ≤ chunkSize) : Tick :=
  ⟨.data ⟨bs, hne, hle⟩, .all, .wouldBlock⟩

/-- A tick in which no data is there. -/
def idleTick : Tick := ⟨.wouldBlock, .all, .wouldBlock⟩

theorem length_stored_le (t : Tick) : (stored t).length ≤ chunkSize := by
  rw [stored]
  split
  · rcases t.recv with chunk | _ | _ | _
    · exact chunk.length_le
    all_goals exact Nat.zero_le _
  · exact Nat.zero_le _

/-- The bytes a run of ticks stores. -/
def received (ticks : List Tick) : List Byte := (ticks.map stored).flatten

@[simp] theorem received_append (ts us : List Tick) :
    received (ts ++ us) = received ts ++ received us := by
  simp [received]

@[simp] theorem received_singleton (t : Tick) : received [t] = stored t := by
  simp [received]

theorem received_cons (t : Tick) (ts : List Tick) : received (t :: ts) = stored t ++ received ts :=
  rfl

/-- A call that stores nothing leaves the connection as it was. -/
theorem receive_of_stored_nil (onRequest : OnRequest) (c : HTTPServerConnection)
    (hs : stored t = []) :
    ∃ code, c.receive onRequest t.alloc t.recv = .ok ⟨code, c, []⟩ := by
  rcases hr : t.recv with chunk | _ | _ | _
  · have hno : t.alloc.readBuffer = false := by
      by_contra hyes
      rw [Bool.not_eq_false] at hyes
      rw [stored, if_pos hyes, hr] at hs
      exact chunk.ne_nil hs
    have hpos : chunk.bytes.length ≠ 0 := fun h => chunk.ne_nil (List.length_eq_zero_iff.mp h)
    exact ⟨-1, by simp [receive, tcpClientRead, hno, chunk.ne_nil]⟩
  · exact ⟨0, by simp [receive, tcpClientRead]⟩
  · exact ⟨0, by simp [receive, tcpClientRead]⟩
  · exact ⟨-1, by simp [receive, tcpClientRead]⟩

/-- A call that stores bytes grows the buffer and looks at all of it. -/
theorem receive_of_stored (hs : stored t ≠ []) : c.receive onRequest t.alloc t.recv
    = (c.grow (stored t)).bind fun c => c.process onRequest t.alloc := by
  rw [stored] at hs ⊢
  split at hs
  · rename_i hyes
    rcases hr : t.recv with chunk | _ | _ | _
    · simp only [receive, tcpClientRead, Recv.bytes, hyes, if_true]
      have hpos : (chunk.bytes.length : ℤ) ≠ 0 := by simpa using chunk.ne_nil
      rw [if_neg (by omega), if_neg hpos]
      rcases c.grow chunk.bytes with f | c <;> rfl
    all_goals exact absurd (by rw [hr]; rfl) hs
  · exact absurd rfl hs

theorem strdup_eq_some_iff {ok : Bool} {text word : List Byte} :
    strdup ok text = some word ↔ ok = true ∧ text = word := by
  cases ok <;> simp [strdup]

/-- What the search for the head can do: wait for more, take the head, return early for want of
memory, or lose its index. -/
theorem latch_cases (a : ReceiveAlloc) (hc : c.bodyStart = 0) (h4 : 4 ≤ c.readBuffer.length)
    (hlt : c.readBuffer.length < sizeMod) :
    (c.latch a = .ok (some c) ∧ headOf readRequest c.readBuffer = none) ∨
    (∃ h, c.latch a = .ok (some (c.setHead a h)) ∧ headOf readRequest c.readBuffer = some h ∧
      a.headers = true) ∨
    (c.latch a = .ok none ∧ a.headers = false) ∨
    (c.latch a = .error .intOverflow ∧ intMax ≤ c.readBuffer.length ∧
      ∀ m, headOf readRequest (c.readBuffer ++ m) = none) := by
  rw [latch, if_pos hc]
  rcases endOfHeaders_cases h4 hlt with he | ⟨he, hbig, hnone⟩
  · rw [he]
    rcases hend : headEnd c.readBuffer with _ | e
    · exact Or.inl ⟨rfl, by simp [headOf, hend]⟩
    · by_cases ha : a.headers
      · refine Or.inr (Or.inl ⟨_, by simp only [ha, if_true]; rfl, ?_, ha⟩)
        exact headOf_eq_some_iff.mpr ⟨e, hend, rfl⟩
      · exact Or.inr (Or.inr (Or.inl ⟨by simp [ha], by simpa using ha⟩))
  · rw [he]
    exact Or.inr (Or.inr (Or.inr ⟨rfl, hbig, fun m => by simp [headOf, hnone m]⟩))

theorem complete_iff {c : HTTPServerConnection} : c.complete = true ↔
    sizeAdd c.bodyStart c.contentLen ≤ c.readBuffer.length ∧ 0 < c.bodyStart := by
  rw [complete, Bool.and_eq_true, decide_eq_true_eq, decide_eq_true_eq]

/-- The connection that is handed to the callback: for a method other than `GET`, with its body. -/
def dispatched (c : HTTPServerConnection) : HTTPServerConnection :=
  if c.method = some (bytes "GET") then { c with state := .send }
  else
    { c with
      state := .send
      body := some ((c.readBuffer.drop c.bodyStart).take c.contentLen) }

/-- The call of the callback, as the connection stands when it is made. -/
theorem request_dispatched (onRequest : OnRequest) (c : HTTPServerConnection) :
    c.dispatched.request onRequest = match onRequest c.dispatched with
      | .error f => .error (.callback f)
      | .ok r => .ok ⟨0, c.dispatched.respond r, [.request c.dispatched]⟩ := by
  have hstate : { c.dispatched with state := .send } = c.dispatched := by
    rw [dispatched]
    split <;> rfl
  rcases hcall : onRequest c.dispatched with f | r <;> simp only [request, hstate, hcall]

@[simp] theorem dispatched_state (c : HTTPServerConnection) : c.dispatched.state = .send := by
  rw [dispatched]
  split <;> rfl

@[simp] theorem dispatched_method (c : HTTPServerConnection) :
    c.dispatched.method = c.method := by
  rw [dispatched]
  split <;> rfl

@[simp] theorem dispatched_requestPath (c : HTTPServerConnection) :
    c.dispatched.requestPath = c.requestPath := by
  rw [dispatched]
  split <;> rfl

@[simp] theorem dispatched_bodyStart (c : HTTPServerConnection) :
    c.dispatched.bodyStart = c.bodyStart := by
  rw [dispatched]
  split <;> rfl

@[simp] theorem dispatched_contentLen (c : HTTPServerConnection) :
    c.dispatched.contentLen = c.contentLen := by
  rw [dispatched]
  split <;> rfl

@[simp] theorem dispatched_readBuffer (c : HTTPServerConnection) :
    c.dispatched.readBuffer = c.readBuffer := by
  rw [dispatched]
  split <;> rfl

@[simp] theorem respond_state (r : Option Response) (c : HTTPServerConnection) :
    (c.respond r).state = c.state := by
  cases r <;> rfl

/-- What follows the head can do: wait, dispatch, overrun the buffer, or return for want of
memory. -/
theorem finish_cases (onRequest : OnRequest) (a : ReceiveAlloc) (c : HTTPServerConnection) :
    (c.finish onRequest a = .ok ⟨0, c, []⟩ ∧ c.complete = false) ∨
    (c.finish onRequest a = c.dispatched.request onRequest ∧ c.complete = true ∧
      (c.method = some (bytes "GET") ∨ c.bodyStart + c.contentLen ≤ c.readBuffer.length)) ∨
    (c.finish onRequest a = .error .copyPastEnd ∧ c.complete = true ∧
      c.method ≠ some (bytes "GET") ∧ c.readBuffer.length < c.bodyStart + c.contentLen) ∨
    (c.finish onRequest a = .ok ⟨-1, { c with body := none }, []⟩ ∧ a.body = false) := by
  rw [finish]
  by_cases hcomp : c.complete
  · rw [if_pos hcomp]
    by_cases hget : c.method = some (bytes "GET")
    · refine Or.inr (Or.inl ⟨?_, hcomp, Or.inl hget⟩)
      rw [if_pos hget, dispatched, if_pos hget]
      rfl
    · rw [if_neg hget]
      by_cases hbody : a.body
      · rw [if_pos hbody]
        by_cases hle : c.bodyStart + c.contentLen ≤ c.readBuffer.length
        · refine Or.inr (Or.inl ⟨?_, hcomp, Or.inr hle⟩)
          rw [if_pos hle, dispatched, if_neg hget]
          rfl
        · exact Or.inr (Or.inr (Or.inl ⟨if_neg hle, hcomp, hget, Nat.not_le.mp hle⟩))
      · exact Or.inr (Or.inr (Or.inr ⟨if_neg hbody, by simpa using hbody⟩))
  · exact Or.inl ⟨if_neg hcomp, by simpa using hcomp⟩

/-! ## A connection that has not dispatched yet -/

variable {A : ReceiveAlloc → Prop} {fd : ℤ} {task : Option TaskHandle} {s : List Byte}

/-- A connection that holds the bytes `s` and has read nothing off them. -/
def filled (fd : ℤ) (task : Option TaskHandle) (s : List Byte) : HTTPServerConnection :=
  { initiate fd task with readBuffer := s }

/-- An allocation that ends a call early may fail. -/
def MayFail (A : ReceiveAlloc → Prop) : Prop := ∃ a, A a ∧ (a.headers = false ∨ a.body = false)

/-- **The waiting invariant.**  The connection was sent `s` and has not dispatched, in a run whose
allocations end as `A` allows: it holds `s`, and the head of `s` if there is one. -/
def Waits (A : ReceiveAlloc → Prop) (fd : ℤ) (task : Option TaskHandle) (s : List Byte)
    (c : HTTPServerConnection) : Prop :=
  (c = filled fd task s ∧ (headOf readRequest s = none ∨ MayFail A)) ∨
    ∃ a h, A a ∧ headOf readRequest s = some h ∧ c = (filled fd task s).setHead a h

theorem waits_initiate : Waits A fd task [] (initiate fd task) := Or.inl ⟨rfl, Or.inl rfl⟩

theorem Waits.state (hw : Waits A fd task s c) : c.state = .receive := by
  obtain ⟨rfl, -⟩ | ⟨a, h, -, -, rfl⟩ := hw <;> rfl

theorem Waits.task_eq (hw : Waits A fd task s c) : c.task = task := by
  obtain ⟨rfl, -⟩ | ⟨a, h, -, -, rfl⟩ := hw <;> rfl

theorem Waits.writeOffset (hw : Waits A fd task s c) : c.writeOffset = 0 ∧ c.writeSize = 0 := by
  obtain ⟨rfl, -⟩ | ⟨a, h, -, -, rfl⟩ := hw <;> exact ⟨rfl, rfl⟩

theorem Waits.readBuffer (hw : Waits A fd task s c) : c.readBuffer = s := by
  obtain ⟨rfl, -⟩ | ⟨a, h, -, -, rfl⟩ := hw <;> rfl

theorem Waits.body (hw : Waits A fd task s c) : c.body = none := by
  obtain ⟨rfl, -⟩ | ⟨a, h, -, -, rfl⟩ := hw <;> rfl

/-- A connection that is complete has a head, and it is the head of what it was sent. -/
theorem Waits.of_complete (hw : Waits A fd task s c) (hc : c.complete = true) :
    ∃ a h, A a ∧ headOf readRequest s = some h ∧ c = (filled fd task s).setHead a h ∧
      sizeAdd h.bodyStart h.contentLen ≤ s.length := by
  rw [complete_iff] at hc
  obtain ⟨rfl, -⟩ | ⟨a, h, ha, hs, rfl⟩ := hw
  · exact absurd hc.2 (Nat.lt_irrefl 0)
  · exact ⟨a, h, ha, hs, rfl, hc.1⟩

/-- The search for the head, in the connection that just stored a chunk. -/
theorem Waits.latch {chunk : List Byte} (hw : Waits A fd task s c) (ha : A a)
    (h4 : 4 ≤ (s ++ chunk).length) (hlt : (s ++ chunk).length < sizeMod) :
    (∃ d, { c with readBuffer := c.readBuffer ++ chunk }.latch a = .ok (some d) ∧
      Waits A fd task (s ++ chunk) d) ∨
    ({ c with readBuffer := c.readBuffer ++ chunk }.latch a = .ok none ∧ MayFail A ∧
      Waits A fd task (s ++ chunk) { c with readBuffer := c.readBuffer ++ chunk }) ∨
    ({ c with readBuffer := c.readBuffer ++ chunk }.latch a = .error .intOverflow ∧
      intMax ≤ (s ++ chunk).length ∧ ∀ m, headOf readRequest (s ++ chunk ++ m) = none) := by
  obtain ⟨rfl, -⟩ | ⟨b, h, hb, hs, rfl⟩ := hw
  · rcases latch_cases (c := filled fd task (s ++ chunk)) a rfl h4 hlt with
      ⟨hl, hnone⟩ | ⟨h, hl, hsome, -⟩ | ⟨hl, hfail⟩ | ⟨hl, hbig, hnone⟩
    · exact Or.inl ⟨_, hl, Or.inl ⟨rfl, Or.inl hnone⟩⟩
    · exact Or.inl ⟨_, hl, Or.inr ⟨a, h, ha, hsome, rfl⟩⟩
    · have hmay : MayFail A := ⟨a, ha, Or.inl hfail⟩
      exact Or.inr (Or.inl ⟨hl, hmay, Or.inl ⟨rfl, Or.inr hmay⟩⟩)
    · exact Or.inr (Or.inr ⟨hl, hbig, hnone⟩)
  · -- the head is there already
    have hpos : ¬ h.bodyStart = 0 := by
      have := bodyStart_bounds hs
      omega
    exact Or.inl ⟨_, if_neg hpos, Or.inr ⟨b, h, hb, headOf_append hs chunk, rfl⟩⟩

theorem taskWork_of_receive {κ : Type} (smw : Smw κ) (hc : c.state = .receive) :
    taskWork onRequest t (smw, c)
      = (c.receive onRequest t.alloc t.recv).map fun o => ((smw, o.connection), o.events) := by
  simp only [taskWork, hc]

/-- **What a tick that stores bytes can do**: wait, dispatch, copy past the end of the buffer, or
lose the index of the search. -/
theorem Waits.tick (hw : Waits A fd task s c) (onRequest : OnRequest) (ha : A t.alloc)
    (hne : stored t ≠ [])
    (h4 : 4 ≤ (s ++ stored t).length) (hlt : (s ++ stored t).length < sizeMod) {κ : Type}
    (smw : Smw κ) :
    (∃ d, taskWork onRequest t (smw, c) = .ok ((smw, d), []) ∧
      Waits A fd task (s ++ stored t) d ∧ (d.complete = false ∨ MayFail A)) ∨
    (∃ d, taskWork onRequest t (smw, c)
        = (d.dispatched.request onRequest).map (fun o : Outcome =>
          ((smw, o.connection), o.events)) ∧
      Waits A fd task (s ++ stored t) d ∧ d.complete = true ∧
      (d.method = some (bytes "GET") ∨ d.bodyStart + d.contentLen ≤ d.readBuffer.length)) ∨
    (∃ d, taskWork onRequest t (smw, c) = .error .copyPastEnd ∧
      Waits A fd task (s ++ stored t) d ∧ d.complete = true ∧
      d.readBuffer.length < d.bodyStart + d.contentLen) ∨
    (taskWork onRequest t (smw, c) = .error .intOverflow ∧
      intMax ≤ (s ++ stored t).length ∧ ∀ m, headOf readRequest (s ++ stored t ++ m) = none) := by
  have hgrow := grow_of_lt (c := c) (show (c.readBuffer ++ stored t).length < sizeMod by
    rwa [hw.readBuffer])
  have hstep : taskWork onRequest t (smw, c)
      = ({ c with readBuffer := c.readBuffer ++ stored t }.process onRequest t.alloc).map
        fun o : Outcome => ((smw, o.connection), o.events) := by
    rw [taskWork_of_receive smw hw.state, receive_of_stored hne, hgrow]
    rfl
  rw [hstep, process]
  rcases hw.latch ha h4 hlt with ⟨d, hl, hd⟩ | ⟨hl, hmay, hd⟩ | ⟨hl, hbig, hnone⟩
  · rw [hl]
    dsimp only
    rcases finish_cases onRequest t.alloc d with
      ⟨hf, hcomp⟩ | ⟨hf, hcomp, hle⟩ | ⟨hf, hcomp, -, hlt⟩ | ⟨hf, hfail⟩
    · exact Or.inl ⟨d, by rw [hf]; rfl, hd, Or.inl hcomp⟩
    · exact Or.inr (Or.inl ⟨d, by rw [hf], hd, hcomp, hle⟩)
    · exact Or.inr (Or.inr (Or.inl ⟨d, by rw [hf]; rfl, hd, hcomp, hlt⟩))
    · have hsame : { d with body := none } = d := by
        have := hd.body
        cases d
        simp_all
      exact Or.inl ⟨d, by rw [hf, hsame]; rfl, hd, Or.inr ⟨_, ha, Or.inr hfail⟩⟩
  · rw [hl]
    exact Or.inl ⟨_, rfl, hd, Or.inr hmay⟩
  · rw [hl]
    exact Or.inr (Or.inr (Or.inr ⟨rfl, hbig, hnone⟩))

/-- A tick that stores nothing changes nothing. -/
theorem Waits.tick_of_stored_nil (hw : Waits A fd task s c) (hs : stored t = []) {κ : Type}
    (smw : Smw κ) : taskWork onRequest t (smw, c) = .ok ((smw, c), []) := by
  obtain ⟨code, hcode⟩ := receive_of_stored_nil onRequest c hs
  rw [taskWork_of_receive smw hw.state, hcode]
  rfl

/-- **A buffer of fewer than four bytes is searched past its end.** -/
theorem Waits.tick_of_short (hw : Waits A fd task s c) (onRequest : OnRequest)
    (hne : stored t ≠ []) (hshort : (s ++ stored t).length < 4) {κ : Type} (smw : Smw κ) :
    taskWork onRequest t (smw, c) = .error .readPastEnd := by
  obtain ⟨rfl, -⟩ | ⟨a, h, -, hs, -⟩ := hw
  · have hgrow : (filled fd task s).grow (stored t) = .ok (filled fd task (s ++ stored t)) := by
      have hsize : sizeMod = 2 ^ 64 := rfl
      rw [List.length_append] at hshort
      rw [grow, if_pos (by change s.length + _ < _; omega)]
      rfl
    have hlatch : (filled fd task (s ++ stored t)).latch t.alloc = .error .readPastEnd := by
      have he : endOfHeaders (filled fd task (s ++ stored t)).readBuffer = .error .readPastEnd :=
        endOfHeaders_short hshort
      rw [HTTPServerConnection.latch, he]
      rfl
    rw [taskWork_of_receive smw rfl, receive_of_stored hne, hgrow]
    simp only [Except.bind, process, hlatch]
    rfl
  · have := bodyStart_bounds hs
    rw [List.length_append] at hshort
    omega

/-- A buffer that grows beyond `size_t` ends the run. -/
theorem Waits.tick_of_full (hw : Waits A fd task s c) (hne : stored t ≠ [])
    (hge : sizeMod ≤ (s ++ stored t).length) {κ : Type} (smw : Smw κ) :
    taskWork onRequest t (smw, c) = .error .blockTooSmall := by
  have hgrow : c.grow (stored t) = .error .blockTooSmall := grow_of_le (by rwa [hw.readBuffer])
  rw [taskWork_of_receive smw hw.state, receive_of_stored hne, hgrow]
  rfl

/-- **The ways a receiving tick can fail**, on a connection that then holds `s`. -/
inductive ReceiveFault (A : ReceiveAlloc → Prop) (fd : ℤ) (task : Option TaskHandle)
    (s : List Byte) : Fault → Prop
  /-- the buffer outgrew `size_t` -/
  | full (hge : sizeMod ≤ s.length) : ReceiveFault A fd task s .blockTooSmall
  /-- the search outgrew `int` -/
  | index (hbig : intMax ≤ s.length) (hnone : ∀ m, headOf readRequest (s ++ m) = none) :
      ReceiveFault A fd task s .intOverflow
  /-- the body ends past what was stored -/
  | copy (d : HTTPServerConnection) (hw : Waits A fd task s d) (hcomp : d.complete = true)
      (hlt : d.readBuffer.length < d.bodyStart + d.contentLen) :
      ReceiveFault A fd task s .copyPastEnd
  /-- the callback failed -/
  | callback (f : Fault) (d : HTTPServerConnection) (hw : Waits A fd task s d)
      (hcomp : d.complete = true) : ReceiveFault A fd task s (.callback f)

/-- **What a receiving tick can do**: go on waiting, dispatch, or fail. -/
theorem Waits.step (hw : Waits A fd task s c) (onRequest : OnRequest) (ha : A t.alloc)
    (hlt : s.length < sizeMod)
    (h4 : stored t ≠ [] → 4 ≤ (s ++ stored t).length) {κ : Type} (smw : Smw κ) :
    (∃ d, taskWork onRequest t (smw, c) = .ok ((smw, d), []) ∧
      Waits A fd task (s ++ stored t) d ∧ (s ++ stored t).length < sizeMod) ∨
    (∃ d r, taskWork onRequest t (smw, c)
        = .ok ((smw, d.dispatched.respond r), [.request d.dispatched]) ∧
      onRequest d.dispatched = .ok r ∧ Waits A fd task (s ++ stored t) d ∧ d.complete = true) ∨
    ∃ f, taskWork onRequest t (smw, c) = .error f ∧ ReceiveFault A fd task (s ++ stored t) f := by
  by_cases hs : stored t = []
  · rw [hs, List.append_nil]
    exact Or.inl ⟨c, hw.tick_of_stored_nil hs smw, hw, hlt⟩
  · rcases Nat.lt_or_ge (s ++ stored t).length sizeMod with hlt' | hge
    · rcases hw.tick onRequest ha hs (h4 hs) hlt' smw with
        ⟨d, hd, hw', -⟩ | ⟨d, hd, hw', hcomp, -⟩ | ⟨d, hd, hw', hcomp, hbody⟩ | ⟨hd, hbig, hnone⟩
      · exact Or.inl ⟨d, hd, hw', hlt'⟩
      · rw [request_dispatched] at hd
        rcases hr : onRequest d.dispatched with f | r
        · rw [hr] at hd
          exact Or.inr (Or.inr ⟨_, hd, .callback f d hw' hcomp⟩)
        · rw [hr] at hd
          exact Or.inr (Or.inl ⟨d, r, hd, hr, hw', hcomp⟩)
      · exact Or.inr (Or.inr ⟨_, hd, .copy d hw' hcomp hbody⟩)
      · exact Or.inr (Or.inr ⟨_, hd, .index hbig hnone⟩)
    · exact Or.inr (Or.inr ⟨_, hw.tick_of_full hs hge smw, .full hge⟩)

/-- **A receiving tick that does not fail waits or dispatches.** -/
theorem Waits.of_ok {κ : Type} {x y : Smw κ × HTTPServerConnection} {evs : List Event}
    (hw : Waits A fd task s x.2) (ha : A t.alloc) (hlt : s.length < sizeMod)
    (h : taskWork onRequest t x = .ok (y, evs)) :
    (∃ d, y = (x.1, d) ∧ evs = [] ∧ Waits A fd task (s ++ stored t) d ∧
      (s ++ stored t).length < sizeMod) ∨
    ∃ d r, y = (x.1, d.dispatched.respond r) ∧ evs = [.request d.dispatched] ∧
      onRequest d.dispatched = .ok r ∧ Waits A fd task (s ++ stored t) d ∧ d.complete = true := by
  by_cases hs : stored t = []
  · cases (hw.tick_of_stored_nil hs x.1).symm.trans h
    rw [hs, List.append_nil]
    exact Or.inl ⟨_, rfl, rfl, hw, hlt⟩
  · by_cases h4 : 4 ≤ (s ++ stored t).length
    · rcases hw.step onRequest ha hlt (fun _ => h4) x.1 with
        ⟨d, hd, hw', hlt'⟩ | ⟨d, r, hd, hr, hw', hcomp⟩ | ⟨f, hd, -⟩
      · cases hd.symm.trans h
        exact Or.inl ⟨d, rfl, rfl, hw', hlt'⟩
      · cases hd.symm.trans h
        exact Or.inr ⟨d, r, rfl, rfl, hr, hw', hcomp⟩
      · cases hd.symm.trans h
    · cases (hw.tick_of_short onRequest hs (Nat.not_le.mp h4) x.1).symm.trans h

/-! ## A connection that sends, or is being disposed of -/

theorem advance_eq (sent : ℤ) (c : HTTPServerConnection) : c.advance sent =
    { c with
      writeOffset := c.writeOffset + sent.toNat
      state := if c.writeSize ≤ c.writeOffset + sent.toNat then .dispose else c.state } := by
  have hoff : (if 0 < sent then { c with writeOffset := c.writeOffset + sent.toNat } else c)
      = { c with writeOffset := c.writeOffset + sent.toNat } := by
    split
    · rfl
    · rename_i h
      rw [Int.toNat_of_nonpos (Int.not_lt.mp h)]
      rfl
  rw [advance, hoff]
  dsimp only
  split <;> rfl

/-- One call of `receive` calls the callback at most once, and then the connection
stops receiving. -/
theorem receive_events {t : Tick} {o : Outcome} (h : c.receive onRequest t.alloc t.recv = .ok o) :
    o.events = [] ∨ ∃ e, o.events = [.request e] ∧ o.connection.state = .send := by
  by_cases hnil : stored t = []
  · obtain ⟨code, hcode⟩ := receive_of_stored_nil onRequest c hnil
    cases hcode.symm.trans h
    exact Or.inl rfl
  · rw [receive_of_stored hnil] at h
    rcases hg : c.grow (stored t) with f | b
    · rw [hg] at h
      cases h
    · rw [hg] at h
      simp only [Except.bind, process] at h
      rcases hl : b.latch t.alloc with f | _ | d
      · rw [hl] at h
        cases h
      · rw [hl] at h
        cases h
        exact Or.inl rfl
      · rw [hl] at h
        dsimp only at h
        rcases finish_cases onRequest t.alloc d with ⟨hf, -⟩ | ⟨hf, -⟩ | ⟨hf, -⟩ | ⟨hf, -⟩
        · cases hf.symm.trans h
          exact Or.inl rfl
        · rw [hf, request_dispatched] at h
          rcases hr : onRequest d.dispatched with f | r
          · rw [hr] at h
            cases h
          · rw [hr] at h
            cases h
            exact Or.inr ⟨_, rfl, by simp⟩
        · cases hf.symm.trans h
        · cases hf.symm.trans h
          exact Or.inl rfl

/-- **What one call of `send` can do**: nothing, read past the end of its block, give up, or hand
the next bytes to the socket. -/
theorem send_cases (s : Send) (c : HTTPServerConnection) :
    (c.send s = .ok ⟨0, c, []⟩ ∧ (c.writeBuffer = none ∨ c.writeSize ≤ c.writeOffset)) ∨
    (c.send s = .error .sendPastEnd ∧ ∃ b, c.writeBuffer = some b ∧ b.length < c.writeSize) ∨
    (s = .error ∧ c.send s = .ok ⟨-1, { c with state := .dispose }, [.sendError]⟩) ∨
    ∃ b n, c.writeBuffer = some b ∧ c.writeSize ≤ b.length ∧ c.writeOffset + n ≤ c.writeSize ∧
      c.send s = .ok ⟨0,
        { c with
          writeOffset := c.writeOffset + n
          state := if c.writeSize ≤ c.writeOffset + n then .dispose else c.state },
        [.accepted ((b.drop c.writeOffset).take n)]⟩ := by
  rw [send]
  rcases hb : c.writeBuffer with _ | b
  · exact Or.inl ⟨rfl, Or.inl rfl⟩
  · dsimp only
    by_cases hdone : c.writeSize ≤ c.writeOffset
    · exact Or.inl ⟨if_pos hdone, Or.inr hdone⟩
    · rw [if_neg hdone]
      by_cases hshort : b.length < c.writeSize
      · exact Or.inr (Or.inl ⟨if_pos hshort, b, rfl, hshort⟩)
      · rw [if_neg hshort]
        rcases s with room | _ | _
        · -- the socket takes as much of the rest as it has room for
          refine Or.inr (Or.inr (Or.inr
            ⟨b, min room.val (c.writeSize - c.writeOffset), rfl, by omega, by omega, ?_⟩))
          have hlen : (((b.drop c.writeOffset).take (c.writeSize - c.writeOffset)).take
              room.val).length = min room.val (c.writeSize - c.writeOffset) := by
            simp only [List.length_take, List.length_drop]
            omega
          rw [tcpClientWrite]
          dsimp only
          rw [if_neg (by simp), advance_eq, hlen, Int.toNat_natCast, List.take_take, hb]
        · refine Or.inr (Or.inr (Or.inr ⟨b, 0, rfl, by omega, by omega, ?_⟩))
          rw [tcpClientWrite]
          dsimp only
          rw [if_neg (by simp), advance_eq, hb]
          rfl
        · exact Or.inr (Or.inr (Or.inl ⟨rfl, by simp [tcpClientWrite]⟩))

theorem taskWork_of_send {κ : Type} (smw : Smw κ) (hc : c.state = .send) :
    taskWork onRequest t (smw, c)
      = (c.send t.send).map fun o => ((smw, o.connection), o.events) := by
  simp only [taskWork, hc]

theorem taskWork_of_dispose {κ : Type} (smw : Smw κ) (hc : c.state = .dispose) :
    taskWork onRequest t (smw, c) = .ok (c.dispose smw, [.disposed]) := by
  simp only [taskWork, hc]

/-- **Only a `send` that fails is shown as one.** -/
theorem send_eq_error {κ : Type} {smw smw' : Smw κ} {d : HTTPServerConnection} {evs : List Event}
    (h : taskWork onRequest t (smw, c) = .ok ((smw', d), evs)) (hmem : .sendError ∈ evs) :
    t.send = .error := by
  cases hc : c.state with
  | receive =>
    rw [taskWork_of_receive smw hc] at h
    obtain ⟨o, ho, hy⟩ := Fallible.exists_of_map h
    obtain ⟨-, rfl⟩ := Prod.ext_iff.mp hy
    rcases receive_events ho with hevs | ⟨e, hevs, -⟩ <;> simp [hevs] at hmem
  | send =>
    rw [taskWork_of_send smw hc] at h
    obtain ⟨o, ho, hy⟩ := Fallible.exists_of_map h
    obtain ⟨-, rfl⟩ := Prod.ext_iff.mp hy
    rcases send_cases t.send c with ⟨hs, -⟩ | ⟨hs, -⟩ | ⟨herr, -⟩ | ⟨_, _, -, -, -, hs⟩
    · cases hs.symm.trans ho
      cases hmem
    · cases hs.symm.trans ho
    · exact herr
    · cases hs.symm.trans ho
      simp at hmem
  | dispose =>
    rw [taskWork_of_dispose smw hc] at h
    cases h
    simp at hmem

/-- A connection that sends goes on sending, or is to be disposed of. -/
theorem send_state {s : Send} {o : Outcome} (hc : c.state = .send) (h : c.send s = .ok o) :
    o.connection.state = .send ∨ o.connection.state = .dispose := by
  rcases send_cases s c with ⟨hsend, -⟩ | ⟨hsend, -⟩ | ⟨-, hsend⟩ | ⟨b, n, -, -, -, hsend⟩
  · cases hsend.symm.trans h
    exact Or.inl hc
  · cases hsend.symm.trans h
  · cases hsend.symm.trans h
    exact Or.inr rfl
  · cases hsend.symm.trans h
    dsimp only
    split
    · exact Or.inr rfl
    · exact Or.inl hc

/-- **A connection never goes back to receiving**, and calls the callback only while it does. -/
theorem taskWork_of_ne_receive (onRequest : OnRequest) (t : Tick) {κ : Type} (smw : Smw κ)
    (hc : c.state ≠ .receive) :
    (∃ smw' d evs, taskWork onRequest t (smw, c) = .ok ((smw', d), evs) ∧ d.state ≠ .receive ∧
      ∀ e, .request e ∉ evs) ∨ taskWork onRequest t (smw, c) = .error .sendPastEnd := by
  rcases hs : c.state with _ | _ | _
  · rw [taskWork_of_send smw hs]
    rcases send_cases t.send c with ⟨hsend, -⟩ | ⟨hsend, -⟩ | ⟨-, hsend⟩ | ⟨b, n, -, -, -, hsend⟩
    · exact Or.inl ⟨smw, c, [], by rw [hsend]; rfl, hc, by simp⟩
    · exact Or.inr (by rw [hsend]; rfl)
    · exact Or.inl ⟨smw, _, _, by rw [hsend]; rfl, by simp, by simp⟩
    · refine Or.inl ⟨smw, _, _, by rw [hsend]; rfl, ?_, by simp⟩
      rcases send_state hs hsend with hd | hd
      · exact fun h => by cases hd.symm.trans h
      · exact fun h => by cases hd.symm.trans h
  · exact absurd hs hc
  · rw [taskWork_of_dispose smw hs]
    exact Or.inl ⟨_, _, _, rfl, hc, by simp⟩

end HTTPServerConnection

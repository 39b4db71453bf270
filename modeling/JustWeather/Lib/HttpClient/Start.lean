import JustWeather.Lib.HttpClient.Prepared
import JustWeather.Lib.HttpClient.Sameness

/-!
# Lib/HttpClient/Start — the client in the block `malloc` gives for it

`http_client_init` assigns some fields of the block and leaves the others, the state among them, as
the block has them.  So a client is a run with what is left over from before (`StaleClient`), and it
starts a fresh request exactly when that is nothing (`startsFresh_iff`).
-/

open CLib

/-- What a block from `malloc` holds in the fields `http_client_init` does not assign.  A pointer is
the number its bytes make, `0` for `NULL`. -/
structure ClientBlock where
  state : UInt32
  timeout : UInt64
  writeBuffer : UInt64
  writeSize : UInt64
  writeOffset : UInt64
  readBuffer : UInt64
  readBufferSize : UInt64
  bodyStart : UInt64
  contentLen : UInt64
  statusCode : Int32
  body : UInt64

/-- A block of zeros. -/
def ClientBlock.zero : ClientBlock := ⟨0, 0, 0, 0, 0, 0, 0, 0, 0, 0, 0⟩

/-- The state a number stands for in `http_client_state`. -/
def HttpClientState.ofCode (code : UInt32) : Option HttpClientState :=
  match code.toNat with
  | 0 => some .init
  | 1 => some .connect
  | 2 => some .connecting
  | 3 => some .writing
  | 4 => some .reading
  | 5 => some .done
  | 6 => some .dispose
  | _ => none

/-- **What is left over from before**: a state that is none of the enumeration, pointers to blocks
that are not the client's, a size that is not the size of its buffer. -/
structure Leftover where
  state : Bool
  writeBuffer : Bool
  readBuffer : Bool
  readBufferSize : Bool
  body : Bool
  deriving DecidableEq

/-- Nothing is. -/
def Leftover.nothing : Leftover := ⟨false, false, false, false, false⟩

/-- An `http_client` that was registered, with what its block still holds from before. -/
structure StaleClient (κ : Type) where
  run : HttpClientRun κ
  left : Leftover

namespace StaleClient

open HttpClient

variable {κ : Type}

/-- `_Client->state` names a state, unless it is left over. -/
def InState (state : HttpClientState) (c : StaleClient κ) : Prop :=
  c.left.state = false ∧ c.run.client.state = state

/-! ## Registering a client -/

/-- `http_client_max_url_length`. -/
def maxUrlLength : ℕ := 1024

/-- What a block has left over. -/
def leftover (m : ClientBlock) : Leftover where
  state := (HttpClientState.ofCode m.state).isNone
  writeBuffer := m.writeBuffer != 0
  readBuffer := m.readBuffer != 0
  readBufferSize := m.readBufferSize != 0
  body := m.body != 0

/-- The client `http_client_init` makes of a block, with the task it created. -/
def ofBlock (m : ClientBlock) (url : List Byte) (task : Option TaskHandle) (smw : Smw κ) :
    StaleClient κ where
  run :=
    { client :=
        { state := (HttpClientState.ofCode m.state).getD .init, url, callback := false
          writeBuffer := none, writeSize := m.writeSize.toNat, writeOffset := m.writeOffset.toNat
          readBuffer := [], bodyStart := m.bodyStart.toNat, contentLen := m.contentLen.toNat
          statusCode := m.statusCode.toInt, body := none, hostname := [], path := [], port := [] }
      task
      timeout := m.timeout
      timer := 0
      tcpConn := none
      tcpClients := Memory.empty
      sockets := Sockets.none
      smw
      freed := false }
  left := leftover m

/-- `http_client_init`: what it returns, and the client.  `url` is `none` for `NULL`, and so is
`block` when there is no memory for the client. -/
def httpClientInit (url : Option (List Byte)) (block : Option ClientBlock) (taskOk nodeOk : Bool)
    (context : κ) (smw : Smw κ) : ℤ × Option (StaleClient κ) :=
  match url, block with
  | none, _ => (-1, none)
  | some url, block =>
    if maxUrlLength < url.length then (-2, none)
    else
      match block with
      | none => (-3, none)
      | some m =>
        let (task, smw) := smw.createTask taskOk nodeOk context
        (0, some (ofBlock m url task smw))

/-- `http_client_get`. -/
def httpClientGet (url : Option (List Byte)) (timeout : UInt64) (callback : Bool)
    (block : Option ClientBlock) (taskOk nodeOk : Bool) (context : κ) (smw : Smw κ) :
    ℤ × Option (StaleClient κ) :=
  match httpClientInit url block taskOk nodeOk context smw with
  | (0, some c) =>
    (0, some { c with run :=
      { c.run with timeout, client := { c.run.client with callback } } })
  | _ => (-1, none)

/-! ## One tick -/

/-- What a tick did to the run. -/
def keep (c : StaleClient κ) (p : HttpClientRun κ × List Event) : StaleClient κ × List Event :=
  ({ c with run := p.1 }, p.2)

/-- `http_client_work_writing`: a `write_buffer` that is not `NULL` is sent as it is. -/
def workWriting (t : HttpClientTick) (c : StaleClient κ) :
    Except Fault (StaleClient κ × List Event) :=
  if c.left.writeBuffer then .error .indeterminate else (c.run.workWriting t).map c.keep

/-- The body of a response that is complete: `body` is assigned when the response has one, and read
for the report as it is otherwise. -/
def keepBody (c : StaleClient κ) (p : HttpClientRun κ × List Event) :
    Except Fault (StaleClient κ × List Event) :=
  if p.1.client.state = .done then
    if 0 < p.1.client.contentLen then
      .ok ({ run := p.1, left := { c.left with body := false } }, p.2)
    else if c.left.body && c.run.client.callback then .error .indeterminate
    else .ok (c.keep p)
  else .ok (c.keep p)

/-- `http_client_work_reading`: what arrives goes behind `read_buffer_size` bytes of a block that is
grown from `read_buffer`. -/
def workReading (t : HttpClientTick) (c : StaleClient κ) :
    Except Fault (StaleClient κ × List Event) :=
  c.run.conn.bind fun tcpClient =>
    if (tcpClientRead (HttpClientRun.recvOn t tcpClient)).2 ≠ [] ∧
        (c.left.readBuffer || (c.left.readBufferSize && t.alloc.readBuffer)) then
      .error .indeterminate
    else (c.run.workReading t).bind c.keepBody

/-- `http_client_work_done`: the buffers that are not `NULL` are freed. -/
def workDone (c : StaleClient κ) : Except Fault (StaleClient κ × List Event) :=
  if c.left.readBuffer || c.left.body || c.left.writeBuffer then .error .indeterminate
  else c.run.workDone.map c.keep

/-- `switch (_Client->state)`: a state that is none of the enumeration has no case. -/
def dispatch (t : HttpClientTick) (c : StaleClient κ) :
    Except Fault (StaleClient κ × List Event) :=
  if c.left.state then .ok (c, [])
  else
    match c.run.client.state with
    | .writing => c.workWriting t
    | .reading => c.workReading t
    | .done => c.workDone
    | _ => (c.run.dispatch t).map c.keep

/-- `http_client_work`. -/
def work (t : HttpClientTick) (c : StaleClient κ) :
    Except Fault (StaleClient κ × List Event) :=
  if c.run.freed then .error .notLive
  else if HttpClientRun.TimedOut t c.run then .ok (c.keep (c.run.dispose, c.run.notifyTimeout))
  else dispatch t { c with run := c.run.setTimer t }

/-! ## A fresh request -/

/-- The tick runs `http_client_work_init`. -/
def RunsInit (t : HttpClientTick) (c : StaleClient κ) : Prop :=
  ¬ HttpClientRun.TimedOut t c.run ∧ c.InState .init

/-- `write_buffer`, `read_buffer` and `body` are `NULL`, and `read_buffer_size`, `body_start` and
`content_len` are `0`. -/
structure Fresh (c : StaleClient κ) : Prop where
  writeBuffer : c.left.writeBuffer = false ∧ c.run.client.writeBuffer = none
  readBuffer : c.left.readBuffer = false ∧ c.left.readBufferSize = false ∧
    c.run.client.readBuffer = []
  body : c.left.body = false ∧ c.run.client.body = none
  bodyStart : c.run.client.bodyStart = 0
  contentLen : c.run.client.contentLen = 0

/-- The tick takes the client to a state no tick before it found it in. -/
def Enters (state : HttpClientState) (ticks : List HttpClientTick) (t : HttpClientTick)
    (c c' : StaleClient κ) : Prop :=
  (∃ c₁ evs₁ evs₂, Trace.run work ticks c = .ok (c₁, evs₁) ∧ work t c₁ = .ok (c', evs₂)) ∧
    ¬ Trace.Visits work (fun _ c => c.InState state) (ticks ++ [t]) c ∧ c'.InState state

/-- **The client starts a fresh request**: its first tick runs `http_client_work_init`, and it is
fresh when it comes to write and when it comes to read for the first time. -/
structure StartsFresh (c : StaleClient κ) : Prop where
  init : ∀ t, RunsInit t c
  writing : ∀ ticks t c', Enters .writing ticks t c c' → Fresh c'
  reading : ∀ ticks t c', Enters .reading ticks t c c' → Fresh c'

/-- The block has what a client that is to write and to read needs. -/
structure Clean (m : ClientBlock) : Prop where
  writeBuffer : m.writeBuffer = 0
  readBuffer : m.readBuffer = 0
  readBufferSize : m.readBufferSize = 0
  bodyStart : m.bodyStart = 0
  contentLen : m.contentLen = 0
  body : m.body = 0

/-- What a run does outside the block of the client: the tasks and the sockets it leaves, whether
the client is freed, and its events. -/
def visible (p : HttpClientRun κ × List Event) : Smw κ × Sockets × Bool × List Event :=
  (p.1.smw, p.1.sockets, p.1.freed, p.2)

/-- The runs of the client, as far as they are visible. -/
def observe (ticks : List HttpClientTick) (c : StaleClient κ) :
    Except Fault (Smw κ × Sockets × Bool × List Event) :=
  (Trace.run work ticks c).map fun p => visible (p.1.run, p.2)

variable {c c' : StaleClient κ} {t : HttpClientTick} {ticks : List HttpClientTick}
  {evs : List Event}

/-! ## Runs that nothing is left over for -/

/-- The tick reads nothing that is left over: there is nothing, or the state is one that reads no
buffer. -/
def Plain (c : StaleClient κ) : Prop :=
  c.left = Leftover.nothing ∨ c.left.state = false ∧ c.run.client.state ≠ .writing ∧
    c.run.client.state ≠ .reading ∧ c.run.client.state ≠ .done

theorem workReading_of_nothing (h : c.left = Leftover.nothing) (t : HttpClientTick) :
    c.workReading t = (c.run.workReading t).map c.keep := by
  have hbody : ∀ p : HttpClientRun κ × List Event, c.keepBody p = .ok (c.keep p) := by
    intro p
    rw [keepBody, keep, h]
    split
    · split <;> rfl
    · rfl
  rw [workReading, HttpClientRun.workReading, h]
  rcases c.run.conn with e | tcpClient
  · rfl
  · dsimp only [Except.bind]
    rw [if_neg (by simp [Leftover.nothing])]
    rcases (c.run.client.workReading t.alloc (HttpClientRun.recvOn t tcpClient)).map
      c.run.enter with
      e | p
    · rfl
    · exact hbody p

theorem dispatch_of_plain (h : c.Plain) (t : HttpClientTick) :
    c.dispatch t = (c.run.dispatch t).map c.keep := by
  rcases h with h | ⟨hleft, hw, hr, hd⟩
  · rw [dispatch, h, if_neg (by simp [Leftover.nothing])]
    split
    · rename_i hs
      rw [workWriting, h, if_neg (by simp [Leftover.nothing]), HttpClientRun.dispatch, hs]
    · rename_i hs
      rw [workReading_of_nothing h, HttpClientRun.dispatch, hs]
    · rename_i hs
      rw [workDone, h, if_neg (by simp [Leftover.nothing]), HttpClientRun.dispatch, hs]
    · rfl
  · rw [dispatch, if_neg (by simp [hleft])]
    split
    · exact absurd ‹_› hw
    · exact absurd ‹_› hr
    · exact absurd ‹_› hd
    · rfl

/-- **A tick that reads nothing left over is a tick of the run.** -/
theorem work_of_plain (h : c.Plain) (t : HttpClientTick) :
    c.work t = (c.run.work t).map c.keep := by
  rw [work, HttpClientRun.work]
  split
  · rfl
  · split
    · rfl
    · rw [dispatch_of_plain (c := { c with run := c.run.setTimer t })]
      · rfl
      · simpa [Plain] using h

/-- Nothing is left over, or the URL is refused. -/
def Settled (c : StaleClient κ) : Prop :=
  c.left = Leftover.nothing ∨ c.left.state = false ∧ HttpClientRun.Refused c.run.client

theorem Settled.plain (h : c.Settled) : c.Plain := by
  refine h.imp_right fun ⟨hleft, hr⟩ => ⟨hleft, ?_⟩
  rcases hr with hs | ⟨hs, -⟩ <;> simp [hs]

/-- The run beside the client. -/
def Beside (left : Leftover) (c : StaleClient κ) (r : HttpClientRun κ) : Prop :=
  c.run = r ∧ c.left = left ∧ c.Settled

theorem work_beside {left : Leftover} {r : HttpClientRun κ} (h : Beside left c r) :
    Fallible.Matches (Trace.Alike (Beside left)) (c.work t) (r.work t) := by
  obtain ⟨rfl, rfl, hsettled⟩ := h
  rw [work_of_plain hsettled.plain]
  rcases hw : c.run.work t with e | ⟨r', evs⟩
  · rfl
  · exact ⟨⟨rfl, rfl,
      hsettled.imp_right fun hr => ⟨hr.1, HttpClientRun.refused_of_work hr.2 hw⟩⟩, rfl⟩

theorem observe_of_settled (h : c.Settled) (ticks : List HttpClientTick) :
    c.observe ticks = (Trace.run HttpClientRun.work ticks c.run).map visible := by
  have hrun := Trace.run_matches (fun t c r hb => work_beside (t := t) hb) (⟨rfl, rfl, h⟩ :
    Beside c.left c c.run) ticks
  refine hrun.map_eq fun {p q} hpq => ?_
  obtain ⟨⟨hr, -⟩, hevs⟩ := hpq
  rw [visible, visible, hr, hevs]

variable {m : ClientBlock} {url : List Byte} {u : Url}

theorem work_smooth {left : Leftover} {r r' : HttpClientRun κ}
    (hplain : Plain ⟨r, left⟩) (hlive : r.freed = false) (htimer : r.timer = 0)
    (h : r.dispatch (.smooth 0) = .ok (r', [])) :
    work (.smooth 0) ⟨r, left⟩ = .ok (⟨r', left⟩, []) := by
  rw [work_of_plain hplain, HttpClientRun.work_smooth hlive htimer, h]
  rfl

/-- **A request that nothing holds up comes to be written with what its block had.** -/
theorem exists_enters_writing (hleft : c.left.state = false) (hlive : c.run.freed = false)
    (htimer : c.run.timer = 0) (hstate : c.run.client.state = .init)
    (hparse : parseUrl c.run.client.url = some u) :
    ∃ c', Enters .writing [.smooth 0, .smooth 0] (.smooth 0) c c' ∧ c'.left = c.left ∧
      c'.run.client.writeBuffer = c.run.client.writeBuffer ∧
      c'.run.client.inbound = c.run.client.inbound := by
  obtain ⟨r, left⟩ := c
  dsimp only at hleft hlive htimer hstate hparse ⊢
  obtain ⟨r₁, hinit, h₁⟩ := HttpClientRun.smooth_init hstate hparse
  obtain ⟨r₂, hconnect, h₂, b, fd, hb, hcell⟩ := HttpClientRun.smooth_connect h₁.state
  obtain ⟨r₃, hconnecting, h₃⟩ := HttpClientRun.smooth_connecting h₂.state hb hcell
  have hlive₁ := h₁.freed.trans hlive
  have htimer₁ := h₁.timer.trans htimer
  have hone := work_smooth (r := r) (Or.inr ⟨hleft, by simp [hstate]⟩) hlive htimer hinit
  have htwo := work_smooth (r := r₁) (Or.inr ⟨hleft, by simp [h₁.state]⟩) hlive₁ htimer₁ hconnect
  have hthree := work_smooth (r := r₂) (Or.inr ⟨hleft, by simp [h₂.state]⟩)
    (h₂.freed.trans hlive₁) (h₂.timer.trans htimer₁) hconnecting
  refine ⟨⟨r₃, left⟩, ⟨⟨⟨r₂, left⟩, [], [], ?_, hthree⟩, ?_, hleft, h₃.state⟩, rfl, ?_, ?_⟩
  · rw [Trace.run_cons_of_ok hone, Trace.run_cons_of_ok htwo]
    rfl
  · simp only [List.cons_append, List.nil_append]
    rw [Trace.visits_cons_of_ok hone, Trace.visits_cons_of_ok htwo, Trace.visits_cons_of_ok hthree]
    simp [InState, hstate, h₁.state, h₂.state]
  · exact h₃.writeBuffer.trans (h₂.writeBuffer.trans h₁.writeBuffer)
  · exact h₃.inbound.trans (h₂.inbound.trans h₁.inbound)

/-! ## A request in a clean block -/

/-- A client in a clean block, until it is freed. -/
structure Clear (c : StaleClient κ) : Prop where
  left : c.left = Leftover.nothing
  phase : c.run.freed = false → HttpClientRun.Phase c.run
  prepared : c.run.freed = false → Prepared c.run.client

theorem clear_of_freed (hleft : c.left = Leftover.nothing) (hfreed : c.run.freed = true) :
    Clear c := by
  have hno : c.run.freed ≠ false := by simp [hfreed]
  exact ⟨hleft, fun h => absurd h hno, fun h => absurd h hno⟩

/-- **A tick of a clean client**: it stays clean, and comes to write or to read with nothing there.
-/
theorem clear_of_work (h : Clear c) (hw : c.work t = .ok (c', evs)) :
    Clear c' ∧ ((c'.run.client.state = .writing ∨ c'.run.client.state = .reading) →
      c'.run.client.state ≠ c.run.client.state →
        c'.run.client.writeBuffer = none ∧ c'.run.client.inbound = ([], none, 0, 0)) := by
  rw [work_of_plain (Or.inl h.left)] at hw
  obtain ⟨⟨r', evs'⟩, hr, hc⟩ := Fallible.exists_of_map hw
  obtain ⟨rfl, rfl⟩ := Prod.ext_iff.mp hc
  have hlive : c.run.freed = false := by
    rw [HttpClientRun.work] at hr
    split at hr
    · cases hr
    · simpa using ‹¬ c.run.freed = true›
  obtain ⟨-, ⟨-, rfl, -⟩ | ⟨-, -, rfl, -⟩ | ⟨hlate, hs⟩⟩ :=
    HttpClientRun.work_cases (h.phase hlive) hr
  · exact ⟨clear_of_freed h.left rfl, fun _ hne => absurd rfl hne⟩
  · refine ⟨clear_of_freed h.left rfl, fun _ hne => absurd ?_ hne⟩
    rw [keep, HttpClientRun.dispose, HttpClientRun.setTimer_client]
  · rw [HttpClientRun.work, if_neg (by simp [hlive]), if_neg hlate] at hr
    have hs' : HttpClientRun.Steps t (c.run.setTimer t) r' evs' := by
      rw [HttpClientRun.setTimer]
      split
      · exact ⟨hs.moves, hs.callback, hs.freed, hs.task, hs.after⟩
      · exact hs
    have hprep : Prepared (c.run.setTimer t).client := by
      rw [HttpClientRun.setTimer_client]
      exact h.prepared hlive
    obtain ⟨hprepared, hnew⟩ := HttpClientRun.prepared_of_dispatch hprep hs' hr
    rw [HttpClientRun.setTimer_client] at hnew
    exact ⟨⟨h.left, fun _ => hs.phase, fun _ => hprepared⟩, hnew⟩

theorem fresh_of_inbound (hleft : c.left = Leftover.nothing)
    (hbuf : c.run.client.writeBuffer = none) (hrec : c.run.client.inbound = ([], none, 0, 0)) :
    Fresh c := by
  obtain ⟨hread, hbody, hstart, hlen⟩ : c.run.client.readBuffer = [] ∧ c.run.client.body = none ∧
      c.run.client.bodyStart = 0 ∧ c.run.client.contentLen = 0 := by
    simpa [inbound] using hrec
  exact ⟨⟨by rw [hleft]; rfl, hbuf⟩, ⟨by rw [hleft]; rfl, by rw [hleft]; rfl, hread⟩,
    ⟨by rw [hleft]; rfl, hbody⟩, hstart, hlen⟩

/-- The tick before a state is entered finds another. -/
theorem Enters.exists_step {state : HttpClientState} (h : Enters state ticks t c c') :
    ∃ c₁ evs₁ evs₂, Trace.run work ticks c = .ok (c₁, evs₁) ∧ work t c₁ = .ok (c', evs₂) ∧
      ¬ c₁.InState state ∧ c'.InState state := by
  obtain ⟨⟨c₁, evs₁, evs₂, hrun, hw⟩, hnot, hstate⟩ := h
  refine ⟨c₁, evs₁, evs₂, hrun, hw, fun hs => hnot ?_, hstate⟩
  exact Trace.visits_iff.mpr ⟨ticks, t, [], c₁, evs₁, rfl, hrun, hs⟩

theorem Clear.startsFresh (h : Clear c) (hinit : ∀ t, RunsInit t c) : StartsFresh c := by
  have henters : ∀ {state ticks t c'}, state = .writing ∨ state = .reading →
      Enters state ticks t c c' → Fresh c' := by
    intro state ticks t c' hstate henters
    obtain ⟨c₁, evs₁, evs₂, hrun, hw, hnot, -, hin⟩ := henters.exists_step
    have hclear : Clear c₁ :=
      Trace.run_invariant (P := fun _ c _ => Clear c) h (fun hc hw => (clear_of_work hc hw).1) hrun
    obtain ⟨hclear', hnew⟩ := clear_of_work hclear hw
    obtain ⟨hbuf, hrec⟩ := hnew (by rwa [hin]) fun heq =>
      hnot ⟨by rw [hclear.left]; rfl, heq.symm.trans hin⟩
    exact fresh_of_inbound hclear'.left hbuf hrec
  exact ⟨hinit, fun _ _ _ => henters (Or.inl rfl), fun _ _ _ => henters (Or.inr rfl)⟩

/-- No request comes of a URL that is refused. -/
theorem Settled.startsFresh (hleft : c.left.state = false)
    (href : HttpClientRun.Refused c.run.client) (hinit : ∀ t, RunsInit t c) : StartsFresh c := by
  have hsettled : c.left.state = false ∧ HttpClientRun.Refused c.run.client := ⟨hleft, href⟩
  have hstep : ∀ {c c' : StaleClient κ} {t evs},
      c.left.state = false ∧ HttpClientRun.Refused c.run.client → work t c = .ok (c', evs) →
        c'.left.state = false ∧ HttpClientRun.Refused c'.run.client := by
    intro c c' t evs hc hw
    rw [work_of_plain (Settled.plain (Or.inr hc))] at hw
    obtain ⟨⟨r', evs'⟩, hr, hc'⟩ := Fallible.exists_of_map hw
    obtain ⟨rfl, -⟩ := Prod.ext_iff.mp hc'
    exact ⟨hc.1, HttpClientRun.refused_of_work hc.2 hr⟩
  have henters : ∀ {state ticks t c'}, state = .writing ∨ state = .reading →
      ¬ Enters state ticks t c c' := by
    intro state ticks t c' hstate henters
    obtain ⟨c₁, evs₁, evs₂, hrun, hw, -, -, hin⟩ := henters.exists_step
    have hc₁ : c₁.left.state = false ∧ HttpClientRun.Refused c₁.run.client :=
      Trace.run_invariant
        (P := fun _ c _ => c.left.state = false ∧ HttpClientRun.Refused c.run.client)
        hsettled hstep hrun
    obtain ⟨-, hs | ⟨hs, -⟩⟩ := hstep hc₁ hw <;>
      rcases hstate with rfl | rfl <;> cases hs.symm.trans hin
  exact ⟨hinit, fun _ _ _ h => absurd h (henters (Or.inl rfl)),
    fun _ _ _ h => absurd h (henters (Or.inr rfl))⟩

/-! ## Every block -/

theorem ofCode_eq_init {code : UInt32} : HttpClientState.ofCode code = some .init ↔ code = 0 := by
  constructor
  · intro h
    rw [HttpClientState.ofCode] at h
    split at h
    · exact UInt32.toNat_inj.mp ‹_›
    all_goals cases h
  · rintro rfl
    rfl

/-- What `http_client_get` registers. -/
theorem exists_of_httpClientGet {timeout : UInt64} {callback taskOk nodeOk : Bool} {context : κ}
    {smw : Smw κ}
    (h : httpClientGet (some url) timeout callback (some m) taskOk nodeOk context smw
      = (0, some c)) :
    ∃ task smw', smw.createTask taskOk nodeOk context = (task, smw') ∧
      c = { ofBlock m url task smw' with run := { (ofBlock m url task smw').run with
        timeout, client := { (ofBlock m url task smw').run.client with callback } } } := by
  rw [httpClientGet, httpClientInit] at h
  dsimp only at h
  split at h
  · rename_i c' hinit
    obtain rfl := Option.some.inj (Prod.ext_iff.mp h).2
    split at hinit
    · cases (Prod.ext_iff.mp hinit).2
    · obtain rfl := Option.some.inj (Prod.ext_iff.mp hinit).2
      exact ⟨_, _, rfl, rfl⟩
  · cases (Prod.ext_iff.mp h).2

/-- What a client needs of its block: the first state, and where a request comes of the URL a clean
block. -/
def Suits (m : ClientBlock) (url : List Byte) : Prop :=
  m.state = 0 ∧ ((parseUrl url).isSome → Clean m)

section Registered

variable {timeout : UInt64} {callback taskOk nodeOk : Bool} {context : κ} {smw : Smw κ}
  {m' : ClientBlock}

/-- The client registered in a block that suits it. -/
theorem settled_of_suits (hm : Suits m url)
    (h : httpClientGet (some url) timeout callback (some m) taskOk nodeOk context smw
      = (0, some c)) :
    c.left.state = false ∧ c.run.client.state = .init ∧
      (Clear c ∨ HttpClientRun.Refused c.run.client) := by
  obtain ⟨task, smw', -, rfl⟩ := exists_of_httpClientGet h
  obtain ⟨hstate, hclean⟩ := hm
  have hcode := ofCode_eq_init.mpr hstate
  have hinit : (HttpClientState.ofCode m.state).getD .init = .init := by rw [hcode]; rfl
  refine ⟨by simp [ofBlock, leftover, hcode], hinit, ?_⟩
  cases hparse : parseUrl url with
  | none => exact Or.inr (Or.inr ⟨hinit, hparse⟩)
  | some u =>
    obtain ⟨hw, hr, hsize, hstart, hlen, hbody⟩ := hclean (by simp [hparse])
    refine Or.inl ⟨by simp [ofBlock, leftover, hcode, hw, hr, hsize, hbody, Leftover.nothing],
      fun _ => ?_, fun _ => ?_⟩
    · have hidle := (HttpClientRun.initial_zeroed [] false 0 0 smw').idle
      rw [HttpClientRun.Phase]
      dsimp only [ofBlock]
      rw [hinit]
      exact ⟨rfl, hidle.tcpClients, hidle.sockets, rfl, rfl, rfl⟩
    · rw [Prepared]
      dsimp only [ofBlock]
      rw [hinit]
      exact ⟨rfl, by simp [inbound, hstart, hlen]⟩

theorem startsFresh_of_suits (hm : Suits m url)
    (h : httpClientGet (some url) timeout callback (some m) taskOk nodeOk context smw
      = (0, some c)) : StartsFresh c := by
  obtain ⟨hleft, hstate, hc⟩ := settled_of_suits hm h
  have hinit : ∀ t, RunsInit t c := by
    obtain ⟨task, smw', -, rfl⟩ := exists_of_httpClientGet h
    exact fun t => ⟨fun hlate => hlate.1 rfl, hleft, hstate⟩
  rcases hc with hc | hc
  · exact hc.startsFresh hinit
  · exact Settled.startsFresh hleft hc hinit

theorem suits_of_startsFresh (hc : StartsFresh c)
    (h : httpClientGet (some url) timeout callback (some m) taskOk nodeOk context smw
      = (0, some c)) : Suits m url := by
  obtain ⟨task, smw', -, rfl⟩ := exists_of_httpClientGet h
  obtain ⟨-, hleft, hstate⟩ := hc.init (.smooth 0)
  have hcode : HttpClientState.ofCode m.state = some .init := by
    have hsome : (HttpClientState.ofCode m.state).isSome := by
      simpa [ofBlock, leftover] using hleft
    obtain ⟨state, hsome⟩ := Option.isSome_iff_exists.mp hsome
    simpa [ofBlock, hsome] using hstate
  refine ⟨ofCode_eq_init.mp hcode, fun hsome => ?_⟩
  obtain ⟨u, hparse⟩ := Option.isSome_iff_exists.mp hsome
  obtain ⟨c', henters, hleft', -, hrec⟩ := exists_enters_writing hleft rfl rfl hstate hparse
  have hfresh := hc.writing _ _ _ henters
  obtain ⟨⟨hw, -⟩, ⟨hr, hsize, -⟩, ⟨hbody, -⟩, hstart, hlen⟩ := hfresh
  rw [hleft'] at hw hr hsize hbody
  obtain ⟨-, -, hstart', hlen'⟩ : c'.run.client.readBuffer = [] ∧ c'.run.client.body = none ∧
      c'.run.client.bodyStart = m.bodyStart.toNat ∧
        c'.run.client.contentLen = m.contentLen.toNat := by
    simpa [inbound, ofBlock] using hrec
  have hzero : ∀ n : UInt64, n.toNat = 0 → n = 0 := fun n hn => UInt64.toNat_inj.mp hn
  exact ⟨by simpa [ofBlock, leftover] using hw, by simpa [ofBlock, leftover] using hr,
    by simpa [ofBlock, leftover] using hsize, hzero _ (hstart'.symm.trans hstart),
    hzero _ (hlen'.symm.trans hlen), by simpa [ofBlock, leftover] using hbody⟩

/-- **Two blocks that suit give runs that cannot be told apart.** -/
theorem observe_of_suits (hm : Suits m url) (hm' : Suits m' url)
    (h : httpClientGet (some url) timeout callback (some m) taskOk nodeOk context smw
      = (0, some c))
    (h' : httpClientGet (some url) timeout callback (some m') taskOk nodeOk context smw
      = (0, some c')) (ticks : List HttpClientTick) : c.observe ticks = c'.observe ticks := by
  obtain ⟨hleft, hstate, hc⟩ := settled_of_suits hm h
  obtain ⟨hleft', hstate', hc'⟩ := settled_of_suits hm' h'
  have hsame : HttpClientRun.Same c.run c'.run := by
    obtain ⟨task, smw₁, htask, rfl⟩ := exists_of_httpClientGet h
    obtain ⟨task', smw₂, htask', rfl⟩ := exists_of_httpClientGet h'
    obtain ⟨rfl, rfl⟩ := Prod.ext_iff.mp (htask.symm.trans htask')
    refine ⟨_, rfl, ?_⟩
    cases hparse : parseUrl url with
    | none => exact Or.inr ⟨Or.inr ⟨hstate, hparse⟩, hstate'.trans hstate.symm, rfl, rfl⟩
    | some u =>
      have hclean := hm.2 (by simp [hparse])
      have hclean' := hm'.2 (by simp [hparse])
      refine Or.inl ⟨m'.writeSize.toNat, m'.writeOffset.toNat, m'.statusCode.toInt, ?_,
        fun hne => absurd rfl hne, ?_⟩
      · simp [ofBlock, hm.1, hm'.1, hclean.bodyStart, hclean'.bodyStart, hclean.contentLen,
          hclean'.contentLen]
      · rintro (hb | hdone)
        · exact absurd (by simp [ofBlock, hclean.bodyStart]) hb
        · cases hstate.symm.trans hdone
  have hmatch : ∀ {c : StaleClient κ}, c.left.state = false →
      Clear c ∨ HttpClientRun.Refused c.run.client →
        c.observe ticks = (Trace.run HttpClientRun.work ticks c.run).map visible :=
    fun hl hc => observe_of_settled (hc.imp Clear.left fun hr => ⟨hl, hr⟩) ticks
  rw [hmatch hleft hc, hmatch hleft' hc']
  refine (Trace.run_matches (fun t _ _ hs => HttpClientRun.work_matches (t := t) hs) hsame
    ticks).map_eq fun {p q} hpq => ?_
  obtain ⟨⟨d, hr, -⟩, hevs⟩ := hpq
  rw [visible, visible, hr, hevs]

/-- **A client starts a fresh request exactly when its block suits it**: the first state, and all
that a request finds cleared.  Two that do have the same runs. -/
theorem startsFresh_iff
    (h : httpClientGet (some url) timeout callback (some m) taskOk nodeOk context smw
      = (0, some c)) :
    (StartsFresh c ↔ m.state = 0 ∧ ((parseUrl url).isSome → Clean m)) ∧
      ∀ m' c', httpClientGet (some url) timeout callback (some m') taskOk nodeOk context smw
        = (0, some c') → StartsFresh c → StartsFresh c' →
          ∀ ticks, c.observe ticks = c'.observe ticks := by
  refine ⟨⟨fun hc => suits_of_startsFresh hc h, fun hm => startsFresh_of_suits hm h⟩, ?_⟩
  intro m' c' h' hc hc' ticks
  exact observe_of_suits (suits_of_startsFresh hc h) (suits_of_startsFresh hc' h') h h' ticks

/-- A block of zeros suits every URL. -/
theorem startsFresh_zero : ∃ c : StaleClient Unit,
    httpClientGet (some (bytes "a")) 10000 true (some ClientBlock.zero) true true () Smw.init
      = (0, some c) ∧ StartsFresh c := by
  obtain ⟨c, hc⟩ : ∃ c : StaleClient Unit, httpClientGet (some (bytes "a")) 10000 true
      (some ClientBlock.zero) true true () Smw.init = (0, some c) := ⟨_, rfl⟩
  exact ⟨c, hc, (startsFresh_iff hc).1.mpr ⟨rfl, fun _ => ⟨rfl, rfl, rfl, rfl, rfl, rfl⟩⟩⟩

/-- **In the block of a client that was disposed** the first tick disposes the new one, and reports
nothing. -/
theorem startsFresh_disposed : ∃ c c' : StaleClient Unit,
    httpClientGet (some (bytes "a")) 10000 true (some { ClientBlock.zero with state := 6 }) true
      true () Smw.init = (0, some c) ∧ work (.smooth 1) c = .ok (c', []) ∧ c'.run.freed = true ∧
        ¬ StartsFresh c := by
  refine ⟨_, _, rfl, rfl, rfl, fun hc => ?_⟩
  exact absurd (hc.init (.smooth 1)).2.2 (by decide)

end Registered

end StaleClient

import JustWeather.Lib.HttpServerConnection.Steps

/-!
# Lib/HttpServerConnection/Plain — a connection does not look at its numbers

What `recv` and `send` bring reaches a connection whatever its descriptor and its task are, and
neither shows in what it does: a connection without them (`plain`) takes the same steps
(`view_taskWork_plain`), as long as the callback does not look at them either.
-/

open CLib

namespace HTTPServerConnection

variable {onRequest : OnRequest} {a : ReceiveAlloc} {t : Tick} {c : HTTPServerConnection}

/-- The connection without the numbers the rest of the program gave it. -/
def plain (c : HTTPServerConnection) : HTTPServerConnection := { c with fd := 0, task := none }

/-- The event, as a connection without its numbers has it. -/
def Event.plain : Event → Event
  | .request c => .request c.plain
  | e => e

/-- The outcome of a handler, likewise. -/
def Outcome.plain (o : Outcome) : Outcome := ⟨o.code, o.connection.plain, o.events.map Event.plain⟩

/-- The callback does not look at the numbers. -/
def Blind (onRequest : OnRequest) : Prop := ∀ c, onRequest (plain c) = onRequest c

@[simp] theorem plain_plain (c : HTTPServerConnection) : c.plain.plain = c.plain := rfl

@[simp] theorem plain_readBuffer (c : HTTPServerConnection) : c.plain.readBuffer = c.readBuffer :=
  rfl

@[simp] theorem plain_bodyStart (c : HTTPServerConnection) : c.plain.bodyStart = c.bodyStart := rfl

@[simp] theorem plain_contentLen (c : HTTPServerConnection) : c.plain.contentLen = c.contentLen :=
  rfl

@[simp] theorem plain_method (c : HTTPServerConnection) : c.plain.method = c.method := rfl

@[simp] theorem plain_complete (c : HTTPServerConnection) : c.plain.complete = c.complete := rfl

@[simp] theorem plain_writeBuffer (c : HTTPServerConnection) :
    c.plain.writeBuffer = c.writeBuffer :=
  rfl

@[simp] theorem plain_writeSize (c : HTTPServerConnection) : c.plain.writeSize = c.writeSize := rfl

@[simp] theorem plain_writeOffset (c : HTTPServerConnection) :
    c.plain.writeOffset = c.writeOffset :=
  rfl

@[simp] theorem Event.plain_plain (e : Event) : e.plain.plain = e.plain := by
  cases e <;> rfl

/-! ## The handlers -/

theorem grow_plain (chunk : List Byte) (c : HTTPServerConnection) :
    c.plain.grow chunk = (c.grow chunk).map plain := by
  rw [grow, grow, plain_readBuffer]
  split <;> rfl

theorem latch_plain (a : ReceiveAlloc) (c : HTTPServerConnection) :
    c.plain.latch a = (c.latch a).map (Option.map plain) := by
  rw [latch, latch, plain_bodyStart, plain_readBuffer]
  split
  · rcases endOfHeaders c.readBuffer with f | _ | e
    · rfl
    · rfl
    · dsimp only
      split <;> rfl
  · rfl

theorem request_plain (h : Blind onRequest) (c : HTTPServerConnection) :
    c.plain.request onRequest = (c.request onRequest).map Outcome.plain := by
  have hcall : onRequest { c.plain with state := .send } = onRequest { c with state := .send } :=
    h { c with state := .send }
  rw [request, request, hcall]
  rcases onRequest { c with state := .send } with f | r
  · rfl
  · cases r <;> rfl

theorem finish_plain (h : Blind onRequest) (a : ReceiveAlloc) (c : HTTPServerConnection) :
    c.plain.finish onRequest a = (c.finish onRequest a).map Outcome.plain := by
  rw [finish, finish, plain_complete, plain_method, plain_bodyStart, plain_contentLen,
    plain_readBuffer]
  split
  · split
    · exact request_plain h c
    · split
      · split
        · exact request_plain h
            { c with body := some ((c.readBuffer.drop c.bodyStart).take c.contentLen) }
        · rfl
      · rfl
  · rfl

theorem process_plain (h : Blind onRequest) (a : ReceiveAlloc) (c : HTTPServerConnection) :
    c.plain.process onRequest a = (c.process onRequest a).map Outcome.plain := by
  rw [process, process, latch_plain]
  rcases c.latch a with f | _ | d
  · rfl
  · rfl
  · exact finish_plain h a d

theorem receive_plain (h : Blind onRequest) (a : ReceiveAlloc) (r : Recv chunkSize)
    (c : HTTPServerConnection) :
    c.plain.receive onRequest a r = (c.receive onRequest a r).map Outcome.plain := by
  rw [receive, receive]
  dsimp only
  split
  · rfl
  · split
    · rfl
    · split
      · rw [grow_plain]
        rcases c.grow (tcpClientRead r).2 with f | d
        · rfl
        · exact process_plain h a d
      · rfl

theorem send_plain (s : Send) (c : HTTPServerConnection) :
    c.plain.send s = (c.send s).map Outcome.plain := by
  rw [send, send, plain_writeBuffer]
  rcases c.writeBuffer with _ | buffer
  · rfl
  · dsimp only
    rw [plain_writeSize, plain_writeOffset]
    split
    · rfl
    · split
      · rfl
      · split
        · rfl
        · rw [advance_eq, advance_eq]
          rfl

/-! ## One tick -/

/-- What is left of a tick without the scheduler and the numbers. -/
def view {κ : Type} (r : (Smw κ × HTTPServerConnection) × List Event) :
    HTTPServerConnection × List Event :=
  (r.1.2.plain, r.2.map Event.plain)

theorem map_view_of_plain {κ κ' : Type} {smw : Smw κ} {smw' : Smw κ'} {x y : Except Fault Outcome}
    (h : x = y.map Outcome.plain) :
    (x.map fun o : Outcome => ((smw, o.connection), o.events)).map view
      = (y.map fun o : Outcome => ((smw', o.connection), o.events)).map view := by
  rcases y with f | o
  · rw [h]
    rfl
  · rw [h]
    simp [Except.map, view, Outcome.plain]

/-- **A connection takes the same step without its numbers**, in any scheduler. -/
theorem view_taskWork_plain {κ κ' : Type} (h : Blind onRequest) (t : Tick) (smw : Smw κ)
    (smw' : Smw κ') (c : HTTPServerConnection) :
    (taskWork onRequest t (smw, c.plain)).map view = (taskWork onRequest t (smw', c)).map view := by
  cases hstate : c.state with
  | receive =>
    rw [taskWork_of_receive smw (show c.plain.state = .receive from hstate),
      taskWork_of_receive smw' hstate]
    exact map_view_of_plain (receive_plain h t.alloc t.recv c)
  | send =>
    rw [taskWork_of_send smw (show c.plain.state = .send from hstate), taskWork_of_send smw' hstate]
    exact map_view_of_plain (send_plain t.send c)
  | dispose =>
    rw [taskWork_of_dispose smw (show c.plain.state = .dispose from hstate),
      taskWork_of_dispose smw' hstate]
    rfl

end HTTPServerConnection

import JustWeather.Lib.HttpServerConnection.Frame
import JustWeather.Server.WeatherServerInstance

/-!
# Server/WeatherServerInstance/Failures — what becomes of a connection that fails

`http_server_connection_receive` returns `-1` when it fails, to a caller that does not look; the
state stays what it was.  So no failure while a connection receives takes it to `dispose`
(`not_disposed_of_fails`), and a response there is no memory for leaves it sending nothing for good
(`unanswered_of_no_memory`).
-/

open CLib

namespace HTTPServerConnection

variable {t : Tick} {c d : HTTPServerConnection}

/-! ## The allocations of a tick -/

/-- The results of the allocations of `latch`: the copy of the head, and the three strings. -/
def latchAllocs (a : ReceiveAlloc) (c : HTTPServerConnection) : List Bool :=
  if c.bodyStart = 0 then
    match endOfHeaders c.readBuffer with
    | .ok (some _) => if a.headers then [true, a.method, a.requestPath, a.host] else [false]
    | _ => []
  else []

/-- Those of `finish`, with those of the callback: the body, unless the method is `GET`. -/
def finishAllocs (response : HTTPServerConnection → List Bool) (a : ReceiveAlloc)
    (c : HTTPServerConnection) : List Bool :=
  if c.complete then
    if c.method = some (bytes "GET") then response c.dispatched
    else if a.body then true :: response c.dispatched
    else [false]
  else []

/-- **The results of the allocations a call of `receive` makes**, in that order. -/
def receiveAllocs (response : HTTPServerConnection → List Bool) (a : ReceiveAlloc)
    (r : Recv chunkSize) (c : HTTPServerConnection) : List Bool :=
  match r with
  | .data chunk =>
    if a.readBuffer then
      true :: match c.grow chunk.bytes with
        | .error _ => []
        | .ok c => c.latchAllocs a ++ match c.latch a with
          | .ok (some c) => c.finishAllocs response a
          | _ => []
    else [false]
  | _ => []

/-! ## A connection without a response -/

/-- A connection that sends and has nothing to send. -/
def Unanswered (c : HTTPServerConnection) : Prop := c.state = .send ∧ c.writeBuffer = none

theorem taskWork_of_unanswered {κ : Type} (h : Unanswered c) (onRequest : OnRequest) (t : Tick)
    (smw : Smw κ) : taskWork onRequest t (smw, c) = .ok ((smw, c), []) := by
  rw [taskWork_of_send smw h.1, send, h.2]
  rfl

/-- **It stays as it is**, whatever happens. -/
theorem run_of_unanswered {κ : Type} (h : Unanswered c) (onRequest : OnRequest) (ticks : List Tick)
    (smw : Smw κ) : Trace.run (taskWork onRequest) ticks (smw, c) = .ok ((smw, c), []) := by
  induction ticks with
  | nil => rfl
  | cons t ticks ih =>
    rw [Trace.run_cons_of_ok (taskWork_of_unanswered h onRequest t smw), ih]
    rfl

/-- A call of `receive` that leaves the state has dispatched a request. -/
theorem exists_request_of_receive {onRequest : OnRequest} {a : ReceiveAlloc} {r : Recv chunkSize}
    {o : Outcome} (h : c.receive onRequest a r = .ok o) (hstate : o.connection.state ≠ c.state) :
    ∃ e : HTTPServerConnection, e.writeBuffer = c.writeBuffer ∧
      e.dispatched.request onRequest = .ok o := by
  rcases exists_of_receive h with ⟨buf, ho⟩ | ⟨buf, e, hlatch, hfinish⟩
  · rw [ho] at hstate
    exact absurd rfl hstate
  · obtain ⟨-, hsame, hbuf⟩ := latch_keeps hlatch
    rcases finish_cases onRequest a e with ⟨hf, -⟩ | ⟨hf, -⟩ | ⟨hf, -⟩ | ⟨hf, -⟩
    · cases hf.symm.trans hfinish
      exact absurd hsame hstate
    · exact ⟨e, hbuf, hf.symm.trans hfinish⟩
    · cases hf.symm.trans hfinish
    · cases hf.symm.trans hfinish
      exact absurd hsame hstate

/-- A callback that returns and sets nothing leaves the connection without a response. -/
theorem unanswered_of_request {onRequest : OnRequest} {o : Outcome} (hw : c.writeBuffer = none)
    (hnone : ∀ c r, onRequest c = .ok r → r = none)
    (h : c.dispatched.request onRequest = .ok o) : Unanswered o.connection := by
  rw [request_dispatched] at h
  rcases hr : onRequest c.dispatched with f | r
  · rw [hr] at h
    cases h
  · obtain rfl := hnone _ _ hr
    rw [hr] at h
    obtain rfl := Except.ok.inj h
    refine ⟨by simp, ?_⟩
    change c.dispatched.writeBuffer = none
    rw [dispatched]
    split <;> exact hw

end HTTPServerConnection

namespace WeatherServerInstance

open HTTPServerConnection

variable {t : Tick} {c : HTTPServerConnection} {current : Current} {response : Bool}

/-- The results of the allocations of `weather_server_instance_on_request`: the block of the
response, for a request whose path could be copied. -/
def responseAllocs (alloc : Bool) (c : HTTPServerConnection) : List Bool :=
  match c.requestPath with
  | none => []
  | some requestPath =>
    match copyPath requestPath with
    | .error _ => []
    | .ok _ =>
      match c.method with
      | none => []
      | some _ => [alloc]

/-- **The tick fails while the connection receives**: the peer has closed, the read fails, or an
allocation does. -/
def Fails (response : Bool) (t : Tick) (c : HTTPServerConnection) : Prop :=
  c.state = .receive ∧ (t.recv = .closed ∨ t.recv = .error ∨
    false ∈ c.receiveAllocs (responseAllocs response) t.alloc t.recv)

/-- Without memory for the response the callback sets none. -/
theorem onRequest_of_no_memory {r : Option Response} (h : onRequest current false c = .ok r) :
    r = none := by
  rw [onRequest] at h
  split at h
  · cases h
  · split at h
    · cases h
    · split at h
      · cases h
      · split at h
        · cases h
        · split at h
          · cases h
          · split at h
            · split at h
              · exact (Except.ok.inj h).symm
              · exact (Except.ok.inj h).symm
            · exact (Except.ok.inj h).symm

/-- **No failure ends in `dispose`.** -/
theorem not_disposed_of_fails {κ : Type} (h : Fails response t c) (smw : Smw κ) :
    ¬ ∃ smw' d evs, taskWork (onRequest current response) t (smw, c) = .ok ((smw', d), evs) ∧
      d.state = .dispose := by
  rintro ⟨smw', d, evs, hw, hd⟩
  rcases receive_state h.1 hw with hs | hs <;> cases hs.symm.trans hd

/-- **A request there is no memory to answer** is never answered: its connection sends nothing from
then on. -/
theorem unanswered_of_no_memory {κ : Type} {smw smw' : Smw κ} {d : HTTPServerConnection}
    {evs : List Event} (hc : c.state = .receive) (hw : c.writeBuffer = none)
    (h : taskWork (onRequest current false) t (smw, c) = .ok ((smw', d), evs))
    (hd : d.state ≠ .receive) (onRequest' : OnRequest) (ticks : List Tick) :
    Trace.run (taskWork onRequest') ticks (smw', d) = .ok ((smw', d), []) := by
  rw [taskWork_of_receive smw hc] at h
  obtain ⟨o, ho, heq⟩ := Fallible.exists_of_map h
  obtain ⟨hpair, -⟩ := Prod.ext_iff.mp heq
  obtain ⟨rfl, rfl⟩ := Prod.ext_iff.mp hpair
  obtain ⟨e, hbuf, hrequest⟩ := exists_request_of_receive ho (hc ▸ hd)
  have hnothing := unanswered_of_request (hbuf.trans hw)
    (fun _ _ hr => onRequest_of_no_memory hr) hrequest
  exact run_of_unanswered hnothing onRequest' ticks _

/-- A peer that closes leaves the connection as it was. -/
theorem not_disposed_of_closed :
    ¬ ∃ smw' d evs, taskWork (onRequest (fun _ => (none, 0)) true) ⟨.closed, .all, .wouldBlock⟩
      ((Smw.init : Smw Unit), initiate 4 none) = .ok ((smw', d), evs) ∧ d.state = .dispose :=
  not_disposed_of_fails ⟨rfl, Or.inl rfl⟩ _

/-- **The connection of a peer that closed goes on receiving.** -/
theorem receives_after_closed :
    Fails true ⟨.closed, .all, .wouldBlock⟩ (initiate 4 none) ∧
      taskWork (onRequest (fun _ => (none, 0)) true) ⟨.closed, .all, .wouldBlock⟩
        ((Smw.init : Smw Unit), initiate 4 none)
          = .ok ((Smw.init, initiate 4 none), []) ∧
      (initiate 4 none).state = .receive :=
  ⟨⟨rfl, Or.inl rfl⟩, rfl, rfl⟩

end WeatherServerInstance

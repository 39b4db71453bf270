import JustWeather.Server.OpenMeteoHandler.Freshness
import JustWeather.Server.WeatherServer.Serving

/-!
# Server/WeatherService — the server with its handler

The server of `WeatherServer` leaves open what `open_meteo_handler_current` answers, and the handler
of `OpenMeteoHandler` leaves open who asks.  Here they are one: a request for `/v1/current` calls
the handler from the turn that dispatches it (`work`).  A run of the whole is a run of the server
and a run of the handler, which is asked once for each such request and in their order; and what
the connection of the request is sent is the handler's answer to just that request (`hands_on`).
-/

open CLib Fallible HTTPServerConnection WeatherServerInstance ServedConnection
open OpenMeteoHandler (Exchange Request)

namespace HTTPServerConnection

/-! ## Where the callback is called -/

theorem finish_callback (a : ReceiveAlloc) (c : HTTPServerConnection) :
    (∃ y, (∀ onRequest, c.finish onRequest a = y) ∧ ∀ o, y = .ok o → o.events = []) ∨
      ∀ onRequest, c.finish onRequest a = c.dispatched.request onRequest := by
  by_cases hcomp : c.complete
  · by_cases hget : c.method = some (bytes "GET")
    · refine Or.inr fun onRequest => ?_
      rw [finish, if_pos hcomp, if_pos hget, dispatched, if_pos hget]
      rfl
    · by_cases hbody : a.body
      · by_cases hle : c.bodyStart + c.contentLen ≤ c.readBuffer.length
        · refine Or.inr fun onRequest => ?_
          rw [finish, if_pos hcomp, if_neg hget, if_pos hbody, if_pos hle, dispatched, if_neg hget]
          rfl
        · refine Or.inl ⟨.error .copyPastEnd, fun onRequest => ?_, fun o ho => by cases ho⟩
          rw [finish, if_pos hcomp, if_neg hget, if_pos hbody, if_neg hle]
      · refine Or.inl ⟨.ok ⟨-1, { c with body := none }, []⟩, fun onRequest => ?_,
          fun o ho => (congrArg Outcome.events (Except.ok.inj ho)).symm⟩
        rw [finish, if_pos hcomp, if_neg hget, if_neg hbody]
  · exact Or.inl ⟨_, fun onRequest => if_neg hcomp,
      fun o ho => (congrArg Outcome.events (Except.ok.inj ho)).symm⟩

/-- A call of `receive` comes to the same whatever the callback is, or to a call of it. -/
theorem receive_callback (a : ReceiveAlloc) (r : Recv chunkSize) (c : HTTPServerConnection) :
    (∃ y, (∀ onRequest, c.receive onRequest a r = y) ∧ ∀ o, y = .ok o → o.events = []) ∨
      ∃ e : HTTPServerConnection, ∀ onRequest, c.receive onRequest a r
        = e.dispatched.request onRequest := by
  have hquiet : ∀ {code : ℤ} {d : HTTPServerConnection} (o : Outcome),
      (.ok ⟨code, d, []⟩ : Except Fault Outcome) = .ok o → o.events = [] :=
    fun o ho => (congrArg Outcome.events (Except.ok.inj ho)).symm
  by_cases herror : (tcpClientRead r).1 < 0
  · exact Or.inl ⟨_, fun onRequest => if_pos herror, hquiet⟩
  · by_cases hnothing : (tcpClientRead r).1 = 0
    · exact Or.inl ⟨_, fun onRequest => (if_neg herror).trans (if_pos hnothing), hquiet⟩
    · by_cases halloc : a.readBuffer
      · have hreceive : ∀ onRequest, c.receive onRequest a r
            = (c.grow (tcpClientRead r).2).bind fun c => c.process onRequest a := by
          intro onRequest
          rw [receive]
          dsimp only
          rw [if_neg herror, if_neg hnothing, if_pos halloc]
          rcases c.grow (tcpClientRead r).2 with f | d <;> rfl
        rcases hgrow : c.grow (tcpClientRead r).2 with f | d
        · exact Or.inl ⟨.error f, fun onRequest => by rw [hreceive, hgrow]; rfl,
            fun o ho => by cases ho⟩
        · rcases hlatch : d.latch a with f | _ | e
          · exact Or.inl ⟨.error f,
              fun onRequest => by simp only [hreceive, hgrow, Except.bind, process, hlatch],
              fun o ho => by cases ho⟩
          · exact Or.inl ⟨.ok ⟨-1, d, []⟩, fun onRequest => by
              simp only [hreceive, hgrow, Except.bind, process, hlatch], hquiet⟩
          · have hfinish : ∀ onRequest, c.receive onRequest a r = e.finish onRequest a :=
              fun onRequest => by simp only [hreceive, hgrow, Except.bind, process, hlatch]
            simp only [hfinish]
            rcases finish_callback a e with hsame | hcall
            · exact Or.inl hsame
            · exact Or.inr ⟨e, hcall⟩
      · exact Or.inl ⟨_, fun onRequest =>
          (if_neg herror).trans ((if_neg hnothing).trans (if_neg halloc)), hquiet⟩

/-- **A tick comes to the same whatever the callback is, or to a call of it.** -/
theorem taskWork_callback {κ : Type} (t : Tick) (smw : Smw κ) (c : HTTPServerConnection) :
    (∃ y, (∀ onRequest, taskWork onRequest t (smw, c) = y) ∧
      ∀ r, y = .ok r → requested r.2 = []) ∨
    ∃ e : HTTPServerConnection, ∀ onRequest, taskWork onRequest t (smw, c)
      = (e.dispatched.request onRequest).map fun o => ((smw, o.connection), o.events) := by
  by_cases hc : c.state = .receive
  · simp only [taskWork_of_receive smw hc]
    rcases receive_callback t.alloc t.recv c with ⟨y, hy, hquiet⟩ | ⟨e, he⟩
    · refine Or.inl ⟨_, fun onRequest => by rw [hy onRequest], fun r hr => ?_⟩
      obtain ⟨o, ho, rfl⟩ := exists_of_map hr
      rw [hquiet o ho]
      rfl
    · exact Or.inr ⟨e, fun onRequest => by rw [he onRequest]⟩
  · have hsame : ∀ onRequest, taskWork onRequest t (smw, c)
        = taskWork (fun _ => .error .indeterminate) t (smw, c) := by
      intro onRequest
      rw [taskWork, taskWork]
      rcases hstate : c.state
      · rfl
      · exact absurd hstate hc
      · rfl
    refine Or.inl ⟨_, hsame, fun r hr => ?_⟩
    rcases taskWork_of_ne_receive (fun _ => .error .indeterminate) t smw hc with
      ⟨smw', d, evs, hd, -, hno⟩ | hd
    · obtain rfl := Except.ok.inj (hr.symm.trans hd)
      exact filterMap_connection_of_no_request hno
    · cases hr.symm.trans hd

end HTTPServerConnection

/-- A call of the scheduler, and what the environment does in it, the handler's part of it included.
-/
structure ServiceTick where
  task : TaskHandle
  accepts : Bool
  alloc : AcceptAlloc
  connection : HTTPServerConnection.Tick
  response : Bool
  env : Env

/-- The tick, for a server whose handler answers so. -/
def ServiceTick.forServer (current : Current) (t : ServiceTick) : ServerTick :=
  ⟨t.task, t.accepts, t.alloc, t.connection, current, t.response⟩

namespace WeatherService

variable {F D : Type} (x : Platform F D) (config : WeatherConfig) (render : Json D → List Byte)

/-! ## The callback -/

/-- `*response_json` and `*status_code`; `render` is the text `json_dumps` makes of a value. -/
def answered (handled : Handled D) : Option (List Byte) × Int32 :=
  (handled.responseJson.map fun
    | .error text => text
    | .document root => render root, Int32.ofInt handled.statusCode)

/-- `weather_server_instance_on_request`, with the handler it calls. -/
def onRequest (env : Env) (alloc : Bool) (c : HTTPServerConnection) :
    Api F D (Option HTTPServerConnection.Response) :=
  match c.requestPath with
  | none => throw .nullAccess
  | some requestPath => do
    let (path, query) ← copyPath requestPath
    match c.method with
    | none => throw .nullAccess
    | some method =>
      if method = bytes "GET" ∧ path = bytes "/" then homepage alloc
      else if path = bytes "/echo" then echo alloc c.readBuffer
      else if method = bytes "GET" ∧ path = bytes "/v1/current" then do
        match answered render (← OpenMeteoHandler.current x config env query) with
        | (none, _) => currentFailed alloc
        | (some json, statusCode) => currentAnswered alloc statusCode json
      else notFound alloc method path

/-- The query of a request, if it is one for `/v1/current`. -/
def asked (c : HTTPServerConnection) : Option (List Byte) :=
  match c.requestPath, c.method with
  | some requestPath, some method =>
    if method = bytes "GET" ∧ (splitPath requestPath).1 = bytes "/v1/current" then
      some (splitPath requestPath).2
    else none
  | _, _ => none

variable {x config render} {env : Env} {alloc : Bool} {c : HTTPServerConnection}
  {w w' : World F D} {o : Option HTTPServerConnection.Response} {query : List Byte}

theorem of_lift {α : Type} {y : Except Fault α} {a : α}
    (h : (liftM y : Api F D α) w = .ok (a, w')) : y = .ok a ∧ w' = w := by
  rcases y with f | b
  · cases h
  · cases h
    exact ⟨rfl, rfl⟩

variable {requestPath method path : List Byte}

/-- The endpoints, for a handler that answers so. -/
theorem onRequest_of_copyPath (hpath : c.requestPath = some requestPath)
    (hcopy : copyPath requestPath = .ok (path, query)) (hmethod : c.method = some method)
    (current : Current) : WeatherServerInstance.onRequest current alloc c
      = if method = bytes "GET" ∧ path = bytes "/" then homepage alloc
        else if path = bytes "/echo" then echo alloc c.readBuffer
        else if method = bytes "GET" ∧ path = bytes "/v1/current" then
          match current query with
          | (none, _) => currentFailed alloc
          | (some json, statusCode) => currentAnswered alloc statusCode json
        else notFound alloc method path := by
  have honRequest := WeatherServerInstance.onRequest.eq_def current alloc c
  simp only [hpath, hcopy, hmethod] at honRequest
  exact honRequest

theorem asked_of_copyPath (hpath : c.requestPath = some requestPath)
    (hcopy : copyPath requestPath = .ok (path, query)) (hmethod : c.method = some method) :
    asked c = if method = bytes "GET" ∧ path = bytes "/v1/current" then some query else none := by
  have hsplit : splitPath requestPath = (path, query) := by
    rw [copyPath] at hcopy
    dsimp only at hcopy
    split at hcopy
    · exact Except.ok.inj hcopy
    · cases hcopy
  simp only [asked, hpath, hmethod, hsplit]

/-- **What the callback does**: it asks the handler nothing, and returns what it returns whatever
the handler would say; or it asks for the query of the request, and returns what it returns with
such an answer. -/
theorem of_onRequest (h : onRequest x config render env alloc c w = .ok (o, w')) :
    (asked c = none ∧ w' = w ∧ ∀ current, WeatherServerInstance.onRequest current alloc c = .ok o) ∨
    ∃ query handled, asked c = some query ∧
      OpenMeteoHandler.current x config env query w = .ok (handled, w') ∧
      ∀ current : Current, current query = answered render handled →
        WeatherServerInstance.onRequest current alloc c = .ok o := by
  rw [onRequest] at h
  rcases hpath : c.requestPath with _ | requestPath <;> rw [hpath] at h
  · cases h
  · obtain ⟨⟨path, query⟩, w₁, hlift, hrest⟩ := exists_of_bind h
    obtain ⟨hcopy, rfl⟩ := of_lift hlift
    dsimp only at hrest
    rcases hmethod : c.method with _ | method <;> rw [hmethod] at hrest
    · cases hrest
    · simp only [onRequest_of_copyPath hpath hcopy hmethod, asked_of_copyPath hpath hcopy hmethod]
      dsimp only at hrest
      split at hrest <;> rename_i hhome
      · obtain ⟨hy, rfl⟩ := of_lift hrest
        refine Or.inl ⟨if_neg ?_, rfl, fun current => by rw [if_pos hhome, hy]⟩
        rw [hhome.2]
        exact fun h => absurd h.2 (by decide)
      · split at hrest <;> rename_i hecho
        · obtain ⟨hy, rfl⟩ := of_lift hrest
          refine Or.inl ⟨if_neg ?_, rfl, fun current => by rw [if_neg hhome, if_pos hecho, hy]⟩
          rw [hecho]
          exact fun h => absurd h.2 (by decide)
        · split at hrest <;> rename_i hcurrent
          · obtain ⟨handled, w₂, hhandled, hanswer⟩ := exists_of_bind hrest
            refine Or.inr ⟨query, handled, if_pos hcurrent, ?_⟩
            rcases hanswered : answered render handled with ⟨_ | json, code⟩ <;>
              rw [hanswered] at hanswer <;> obtain ⟨hy, rfl⟩ := of_lift hanswer <;>
              refine ⟨hhandled, fun current hsame => ?_⟩ <;>
              rw [if_neg hhome, if_neg hecho, if_pos hcurrent, hsame] <;> exact hy
          · obtain ⟨hy, rfl⟩ := of_lift hrest
            exact Or.inl ⟨if_neg hcurrent, rfl, fun current => by
              rw [if_neg hhome, if_neg hecho, if_neg hcurrent, hy]⟩

/-! ## A turn -/

variable (x config render) in
/-- What the handler would answer. -/
def answers (env : Env) (w : World F D) : Current := fun query =>
  match OpenMeteoHandler.current x config env query w with
  | .error _ => (none, 500)
  | .ok (handled, _) => answered render handled

variable (x config render) in
/-- One call of the scheduler.  A turn that dispatches a request runs the callback on it. -/
def work (t : ServiceTick) (s : WeatherServer × World F D) :
    Except Fault ((WeatherServer × World F D) × List HTTPServerConnection.Event) :=
  match s.1.work (t.forServer (answers x config render t.env s.2)) with
  | .error f => .error f
  | .ok (server, evs) =>
    match requested evs with
    | [] => .ok ((server, s.2), evs)
    | c :: _ => (onRequest x config render t.env t.response c s.2).map fun r =>
        ((server, r.2), evs)

variable {t : ServiceTick} {s s' : WeatherServer} {evs : List HTTPServerConnection.Event}

/-- The turn of a connection comes to the same whatever the handler would answer, or dispatches one
request, on which the callback returns. -/
theorem connectionTaskWork_cases (t : ServiceTick) (b : ℕ) (s : WeatherServer) :
    (∃ y, (∀ current, s.connectionTaskWork (t.forServer current) b = y) ∧
      ∀ r, y = .ok r → requested r.2 = []) ∨
    ∃ c, ∀ current r, s.connectionTaskWork (t.forServer current) b = .ok r → r.2 = [.request c] ∧
      ∃ o, WeatherServerInstance.onRequest current t.response c = .ok o := by
  simp only [WeatherServer.connectionTaskWork]
  rcases hc : s.connections[b]? with _ | c
  · exact Or.inl ⟨.error .notLive, fun _ => rfl, fun r hr => by cases hr⟩
  · rcases taskWork_callback t.connection s.smw c.connection with ⟨y, hy, hnone⟩ | ⟨e, he⟩
    · refine Or.inl ⟨_, fun current => congrArg (Except.map _) (hy _), fun r hr => ?_⟩
      obtain ⟨r', hr', rfl⟩ := exists_of_map hr
      exact hnone r' hr'
    · refine Or.inr ⟨e.dispatched, fun current r hr => ?_⟩
      obtain ⟨r', hr', rfl⟩ := exists_of_map hr
      obtain ⟨o, ho, rfl⟩ := exists_of_map ((he _).symm.trans hr')
      rw [request_dispatched] at ho
      rcases hx : WeatherServer.onRequest (t.forServer current) c e.dispatched with f | x <;>
        rw [hx] at ho
      · cases ho
      · cases ho
        exact ⟨rfl, x, onRequest_of_ok (k := (t.forServer current).forConnection) hx⟩

/-- **A turn of the server comes to the same whatever the handler would answer, or dispatches one
request**, on which the callback returns. -/
theorem server_work_cases (t : ServiceTick) (s : WeatherServer) :
    (∃ y, (∀ current, s.work (t.forServer current) = y) ∧ ∀ r, y = .ok r → requested r.2 = []) ∨
    ∃ c, ∀ current r, s.work (t.forServer current) = .ok r → r.2 = [.request c] ∧
      ∃ o, WeatherServerInstance.onRequest current t.response c = .ok o := by
  have hturn : ∀ current, s.turn (t.forServer current)
      = (s.smw.tasks.find? (·.handle == t.task)).map SmwTask.context := fun _ => rfl
  have hquiet : ∀ {s : WeatherServer} (r : WeatherServer × List HTTPServerConnection.Event),
      Except.ok (ε := Fault) (s, []) = .ok r → requested r.2 = [] := by
    intro s r hr
    rw [← Except.ok.inj hr]
    rfl
  simp only [WeatherServer.work, hturn]
  generalize (s.smw.tasks.find? (·.handle == t.task)).map SmwTask.context = turn
  rcases turn with _ | _ | _ | _ | b
  · exact Or.inl ⟨_, fun _ => rfl, hquiet⟩
  · exact Or.inl ⟨.ok (if t.accepts then s.tcpServerAccept t.alloc else s, []), fun _ => rfl,
      hquiet⟩
  · exact Or.inl ⟨_, fun _ => rfl, hquiet⟩
  · exact Or.inl ⟨_, fun _ => rfl, hquiet⟩
  · exact connectionTaskWork_cases t b s

/-- **What a turn does**: whatever the handler would answer, it is a turn of the server that
dispatches nothing; or it is one with what the handler answers, on the one request it dispatches. -/
theorem of_work (h : work x config render t (s, w) = .ok ((s', w'), evs)) :
    (requested evs = [] ∧ w' = w ∧ ∀ current, s.work (t.forServer current) = .ok (s', evs)) ∨
    ∃ c o, evs = [.request c] ∧ onRequest x config render t.env t.response c w = .ok (o, w') ∧
      s.work (t.forServer (answers x config render t.env w)) = .ok (s', evs) := by
  rw [work] at h
  dsimp only at h
  rcases hwork : s.work (t.forServer (answers x config render t.env w)) with f | ⟨server, evs'⟩ <;>
    rw [hwork] at h
  · cases h
  · dsimp only at h
    rcases server_work_cases t s with ⟨y, hy, hnone⟩ | ⟨c, hc⟩
    · have hreq : requested evs' = [] := hnone _ ((hy _).symm.trans hwork)
      rw [hreq] at h
      cases h
      exact Or.inl ⟨hreq, rfl, fun current => (hy current).trans ((hy _).symm.trans hwork)⟩
    · obtain ⟨hevs, -⟩ := hc _ _ hwork
      dsimp only at hevs
      subst hevs
      obtain ⟨⟨o, w₁⟩, ho, heq⟩ := exists_of_map h
      cases heq
      exact Or.inr ⟨c, o, rfl, ho, rfl⟩

/-! ## The server and the handler, each for itself -/

section

variable (x config render)

/-- The requests a turn dispatches. -/
def calls (t : ServiceTick) (s : WeatherServer × World F D) : List HTTPServerConnection :=
  match work x config render t s with
  | .error _ => []
  | .ok (_, evs) => requested evs

/-- What a turn is to the server alone: if it dispatches a request, the handler answers what it
answers, and otherwise it might as well answer `current`. -/
def serverTick (current : Current) (t : ServiceTick) (s : WeatherServer × World F D) : ServerTick :=
  t.forServer (if (calls x config render t s).isEmpty then current
    else answers x config render t.env s.2)

/-- What a turn is to the handler alone. -/
def exchangesOf (t : ServiceTick) (s : WeatherServer × World F D) : List (Exchange F D) :=
  (calls x config render t s).filterMap fun c =>
    (asked c).bind fun query =>
      match OpenMeteoHandler.current x config t.env query s.2 with
      | .error _ => none
      | .ok (handled, w) => some ⟨⟨query, t.env⟩, s.2, handled, w⟩

/-- What connection number `b` dispatches, and what the handler answers then. -/
def dispatchedBy (b : ℕ) (t : ServiceTick) (s : WeatherServer × World F D) :
    List (HTTPServerConnection × Current) :=
  if ((WeatherServer.component b).own (t.forServer fun _ => (none, 500)) s.1).isSome then
    (calls x config render t s).map fun c => (c.plain, answers x config render t.env s.2)
  else []

/-- The server that was just started, in a world. -/
abbrev start (w₀ : World F D) : WeatherServer × World F D := (WeatherServer.initiate, w₀)

/-- The answers to the request of connection number `b`. -/
def answersTo (b : ℕ) (ticks : List ServiceTick) (w₀ : World F D) : Current :=
  match Trace.gather (work x config render) (dispatchedBy x config render b) ticks (start w₀) with
  | [] => fun _ => (none, 500)
  | p :: _ => p.2

/-- The run of the server alone, as connection number `b` has it. -/
def serverTicks (b : ℕ) (ticks : List ServiceTick) (w₀ : World F D) : List ServerTick :=
  Trace.translate (work x config render)
    (serverTick x config render (answersTo x config render b ticks w₀)) ticks (start w₀)

/-- The run of the handler alone. -/
def exchanges (ticks : List ServiceTick) (w₀ : World F D) : List (Exchange F D) :=
  Trace.gather (work x config render) (exchangesOf x config render) ticks (start w₀)

end

variable {ticks : List ServiceTick} {w₀ : World F D} {b : ℕ}

theorem calls_of_work (h : work x config render t (s, w) = .ok ((s', w'), evs)) :
    calls x config render t (s, w) = requested evs := by
  rw [calls, h]

/-- **A turn of the whole is a turn of the server.** -/
theorem mimics_server (current : Current) : Trace.Mimics (work x config render) WeatherServer.work
    (serverTick x config render current) Prod.fst := by
  rintro t ⟨s, w⟩ ⟨s', w'⟩ evs h
  rcases of_work h with ⟨hreq, -, hall⟩ | ⟨c, o, rfl, -, hwork⟩
  · exact hall _
  · rw [serverTick, calls_of_work h]
    exact hwork

/-- **A run of the whole is a run of the server.** -/
theorem server_of_run (h : Trace.run (work x config render) ticks (start w₀) = .ok ((s, w), evs))
    (b : ℕ) : Trace.run WeatherServer.work (serverTicks x config render b ticks w₀)
      WeatherServer.initiate = .ok (s, evs) :=
  Trace.Mimics.run (mimics_server _) h

/-- **The handler is asked once for each request for `/v1/current`**, in their order. -/
theorem handler_of_run (h : Trace.run (work x config render) ticks (start w₀) = .ok ((s, w), evs)) :
    OpenMeteoHandler.run x config ((exchanges x config render ticks w₀).map Exchange.request) w₀
        = .ok (w, exchanges x config render ticks w₀) ∧
      (exchanges x config render ticks w₀).map (fun e => e.request.queryString)
        = (requested evs).filterMap asked := by
  refine Trace.run_invariant_gather (P := fun es s evs =>
    OpenMeteoHandler.run x config (es.map Exchange.request) w₀ = .ok (s.2, es) ∧
      es.map (fun e => e.request.queryString) = (requested evs).filterMap asked) ⟨rfl, rfl⟩ ?_ h
  rintro es ⟨s, w⟩ ⟨s', w'⟩ evs evs' t - ⟨hrun, hasked⟩ hwork
  rw [requested_append, List.filterMap_append, ← hasked, exchangesOf, calls_of_work hwork]
  rcases of_work hwork with ⟨hreq, rfl, -⟩ | ⟨c, o, rfl, ho, -⟩
  · rw [hreq, List.filterMap_nil, List.filterMap_nil, List.append_nil, List.append_nil]
    exact ⟨hrun, rfl⟩
  · have hreq : requested [HTTPServerConnection.Event.request c] = [c] := rfl
    rw [hreq]
    rcases of_onRequest ho with ⟨hnone, rfl, -⟩ | ⟨query, handled, hquery, hhandled, -⟩
    · simp only [List.filterMap_cons, hnone, Option.bind_none, List.filterMap_nil, List.append_nil]
      exact ⟨hrun, trivial⟩
    · simp only [List.filterMap_cons, hquery, Option.bind_some, hhandled, List.filterMap_nil,
        List.map_append, List.map_cons, List.map_nil]
      exact ⟨Trace.run_concat hrun (OpenMeteoHandler.step_of_current
        (show OpenMeteoHandler.current x config (Request.env ⟨query, t.env⟩) query w = _ from
          hhandled)), trivial⟩

/-! ## One connection -/

theorem own_forServer (b : ℕ) (current : Current) (t : ServiceTick) (s : WeatherServer) :
    (WeatherServer.component b).own (t.forServer current) s
      = ((WeatherServer.component b).own (t.forServer fun _ => (none, 500)) s).map fun k =>
        { k with current } := by
  rw [Trace.Component.own, Trace.Component.own]
  rcases (WeatherServer.component b).part s with _ | c
  · rfl
  · change (if _ then _ else _) = Option.map _ (if _ then _ else _)
    split <;> rename_i hturn
    · rw [if_pos (show s.turn (t.forServer fun _ => (none, 500)) = _ from hturn)]
      rfl
    · rw [if_neg (show ¬ s.turn (t.forServer fun _ => (none, 500)) = _ from hturn)]
      rfl

/-- What the events of a turn are to connection number `b`. -/
theorem requested_of_work {current : Current} {t : ServiceTick} {s s' : WeatherServer × World F D}
    (h : work x config render t s = .ok (s', evs)) (b : ℕ) :
    requested ((WeatherServer.component b).deed (serverTick x config render current t s) s.1)
      = (dispatchedBy x config render b t s).map Prod.fst := by
  rw [Trace.Component.deed, mimics_server current h, serverTick, own_forServer,
    dispatchedBy, calls_of_work h]
  rcases (WeatherServer.component b).own (t.forServer fun _ => (none, 500)) s.1 with _ | k
  · rfl
  · rw [Option.map_some, Option.isSome_some, if_pos rfl, List.map_map]
    change (evs.map Event.plain).filterMap Event.connection?
      = (evs.filterMap Event.connection?).map _
    rw [List.filterMap_map, List.map_filterMap]
    refine List.filterMap_congr fun e _ => ?_
    rcases e with c | bs | _ | _ <;> rfl

/-- **The requests of a connection**, read off the run of the whole. -/
theorem requested_deeds
    (h : Trace.run (work x config render) ticks (start w₀) = .ok ((s, w), evs)) (b : ℕ) :
    requested (WeatherServer.deeds b (serverTicks x config render b ticks w₀))
      = (Trace.gather (work x config render) (dispatchedBy x config render b) ticks
        (start w₀)).map Prod.fst := by
  have hflat : ∀ evs, requested evs = evs.flatMap fun e => e.connection?.toList :=
    List.filterMap_eq_flatMap_toList _
  rw [hflat, WeatherServer.deeds, Trace.Component.events, Trace.gather_flatMap, serverTicks,
    List.map_eq_flatMap, Trace.gather_flatMap]
  refine (Trace.Mimics.gather_translate (mimics_server _) _ ticks (start w₀)).trans
    (Trace.gather_congr h fun hwork => ?_)
  rw [← hflat, ← List.map_eq_flatMap]
  exact requested_of_work hwork b

variable {r : HTTPServerConnection} {k : ConnectionTick}

/-- The one request of a connection, and the answers to it. -/
theorem gather_of_requested
    (h : Trace.run (work x config render) ticks (start w₀) = .ok ((s, w), evs))
    (hreq : requested (WeatherServer.deeds b (serverTicks x config render b ticks w₀)) = [r]) :
    Trace.gather (work x config render) (dispatchedBy x config render b) ticks (start w₀)
      = [(r, answersTo x config render b ticks w₀)] := by
  obtain ⟨p, hp, rfl⟩ := List.map_eq_singleton_iff.mp ((requested_deeds h b).symm.trans hreq)
  rw [answersTo, hp]

variable (x config render ticks w₀ b) in
/-- **The exchange that the request of connection number `b` led to**: the turn of that connection
which dispatches the request takes the world of the handler from before the exchange to after it,
and the other exchanges made by then are those of the turns before it. -/
def OfDispatch (r : HTTPServerConnection) (es : List (Exchange F D)) (e : Exchange F D) : Prop :=
  ∃ pre t post s₁ s₂ evs₁ c before after, ticks = pre ++ t :: post ∧
    Trace.run (work x config render) pre (start w₀) = .ok ((s₁, e.before), evs₁) ∧
    (∀ current, s₁.turn (t.forServer current) = some (.connection b)) ∧
    work x config render t (s₁, e.before) = .ok ((s₂, e.after), [.request c]) ∧ c.plain = r ∧
    e.request.env = t.env ∧ es = before ++ e :: after ∧
    before.map (fun e => e.request.queryString) = (requested evs₁).filterMap asked

theorem OfDispatch.mem {es : List (Exchange F D)} {e : Exchange F D}
    (h : OfDispatch x config render ticks w₀ b r es e) : e ∈ es := by
  obtain ⟨_, _, _, _, _, _, _, before, after, -, -, -, -, -, -, rfl, -⟩ := h
  simp

/-- **The handler was asked for the request of a connection.** -/
theorem exists_exchange
    (h : Trace.run (work x config render) ticks (start w₀) = .ok ((s, w), evs))
    (hreq : requested (WeatherServer.deeds b (serverTicks x config render b ticks w₀)) = [r])
    (hasked : asked r = some query) :
    ∃ e, OfDispatch x config render ticks w₀ b r (exchanges x config render ticks w₀) e ∧
      e.request.queryString = query ∧
      answersTo x config render b ticks w₀ query = answered render e.handled := by
  have hmem : (r, answersTo x config render b ticks w₀) ∈
      Trace.gather (work x config render) (dispatchedBy x config render b) ticks (start w₀) := by
    rw [gather_of_requested h hreq]
    exact List.mem_singleton_self _
  obtain ⟨pre, t, post, ⟨s₁, w₁⟩, evs₁, hticks, hpre, hdispatched⟩ :=
    (Trace.mem_gather_iff h).mp hmem
  rw [dispatchedBy] at hdispatched
  split at hdispatched
  · rename_i hown
    have hturn : ∀ current, s₁.turn (t.forServer current) = some (.connection b) := by
      intro current
      obtain ⟨k, hk⟩ := Option.isSome_iff_exists.mp hown
      rw [Trace.Component.own] at hk
      obtain ⟨-, -, hin⟩ := Option.bind_eq_some_iff.mp hk
      by_contra hne
      cases (if_neg hne).symm.trans hin
    obtain ⟨c, hc, hp⟩ := List.mem_map.mp hdispatched
    rw [Prod.mk.injEq] at hp
    obtain ⟨rfl, hanswers⟩ := hp
    rcases hwork : work x config render t (s₁, w₁) with f | ⟨⟨s₂, w₂⟩, evs₂⟩
    · rw [calls, hwork] at hc
      cases hc
    · rw [calls_of_work hwork] at hc
      rcases of_work hwork with ⟨hnone, -, -⟩ | ⟨c', o, rfl, ho, -⟩
      · rw [hnone] at hc
        cases hc
      · obtain rfl := List.mem_singleton.mp hc
        rcases of_onRequest ho with ⟨hnone, -, -⟩ | ⟨query', handled, hquery, hhandled, -⟩
        · cases hasked.symm.trans hnone
        · obtain rfl := Option.some.inj (hasked.symm.trans hquery)
          have hone : exchangesOf x config render t (s₁, w₁)
              = [⟨⟨query, t.env⟩, w₁, handled, w₂⟩] := by
            have hcalls : requested [HTTPServerConnection.Event.request c] = [c] := rfl
            rw [exchangesOf, calls_of_work hwork, hcalls]
            simp only [List.filterMap_cons, List.filterMap_nil, hquery, Option.bind_some, hhandled]
          have hsplit : exchanges x config render ticks w₀ = exchanges x config render pre w₀ ++
              ⟨⟨query, t.env⟩, w₁, handled, w₂⟩ :: Trace.gather (work x config render)
                (exchangesOf x config render) post (s₂, w₂) := by
            rw [exchanges, hticks, Trace.gather_append hpre, Trace.gather_cons hwork, hone,
              List.singleton_append]
            rfl
          refine ⟨⟨⟨query, t.env⟩, w₁, handled, w₂⟩, ⟨pre, t, post, s₁, s₂, evs₁, c, _, _, hticks,
            hpre, hturn, hwork, rfl, rfl, hsplit, (handler_of_run hpre).2⟩, rfl, ?_⟩
          rw [← hanswers, answers, hhandled]
  · cases hdispatched

/-- Each turn of a connection that has made its request comes with those answers. -/
theorem current_of_mem_turns
    (h : Trace.run (work x config render) ticks (start w₀) = .ok ((s, w), evs))
    (hreq : requested (WeatherServer.deeds b (serverTicks x config render b ticks w₀)) = [r])
    (hk : k ∈ WeatherServer.turns b (serverTicks x config render b ticks w₀)) :
    k.current = answersTo x config render b ticks w₀ := by
  have hturns : WeatherServer.turns b (serverTicks x config render b ticks w₀)
      = Trace.gather (work x config render) (fun t s => ((WeatherServer.component b).own
          (serverTick x config render (answersTo x config render b ticks w₀) t s) s.1).toList)
        ticks (start w₀) :=
    Trace.Mimics.gather_translate (mimics_server _) _ ticks (start w₀)
  rw [hturns] at hk
  obtain ⟨pre, t, post, s₁, evs₁, hticks, hpre, hown⟩ := (Trace.mem_gather_iff h).mp hk
  rw [Option.mem_toList, serverTick, own_forServer] at hown
  obtain ⟨k', hk', rfl⟩ := Option.mem_map.mp hown
  dsimp only
  split <;> rename_i hcalls
  · rfl
  · obtain ⟨c, hc⟩ := List.exists_mem_of_ne_nil _ (by simpa using hcalls)
    have hmem : (c.plain, answers x config render t.env s₁.2) ∈
        Trace.gather (work x config render) (dispatchedBy x config render b) ticks (start w₀) := by
      refine (Trace.mem_gather_iff h).mpr ⟨pre, t, post, s₁, evs₁, hticks, hpre, ?_⟩
      rw [dispatchedBy, if_pos (Option.isSome_of_mem hk')]
      exact List.mem_map.mpr ⟨c, hc, rfl⟩
    rw [gather_of_requested h hreq, List.mem_singleton, Prod.mk.injEq] at hmem
    exact hmem.2

/-! ## What is handed on -/

variable (render) in
/-- What the server answers when the handler has returned so. -/
def answerOf (handled : Handled D) : Answer :=
  match answered render handled with
  | (none, _) => ⟨500, errorText⟩
  | (some json, statusCode) => ⟨statusCode.toInt, json⟩

theorem answer_of_asked {handled : Handled D} {current : Current} (hasked : asked c = some query)
    (hsame : current query = answered render handled) :
    answer current c = answerOf render handled := by
  rw [asked] at hasked
  split at hasked
  · rename_i requestPath method hpath hmethod
    split at hasked
    · rename_i hcurrent
      have hquery := Option.some.inj hasked
      have hhome : ¬ (method = bytes "GET" ∧ (splitPath requestPath).1 = bytes "/") := by
        rw [hcurrent.2]
        exact fun h => absurd h.2 (by decide)
      have hecho : (splitPath requestPath).1 ≠ bytes "/echo" := by
        rw [hcurrent.2]
        decide
      rw [answer, hpath, hmethod]
      dsimp only [Option.getD_some]
      rw [if_neg hhome, if_neg hecho, if_pos hcurrent, hquery, hsame]
      rfl
    · cases hasked
  · cases hasked

/-- **What the handler answers is handed on.**  A run of the whole is a run of the handler, which is
asked once for each request for `/v1/current` and in the order they were dispatched; and it is a run
of the server in which a connection that made such a request was sent nothing but the answer of the
exchange that its own request led to, in order and from the start. -/
theorem hands_on (h : Trace.run (work x config render) ticks (start w₀) = .ok ((s, w), evs)) :
    ∃ es, OpenMeteoHandler.run x config (es.map Exchange.request) w₀ = .ok (w, es) ∧
      es.map (fun e => e.request.queryString) = (requested evs).filterMap asked ∧
      ∀ b, ∃ js, List.Forall₂ (fun t j => ∃ current, j = t.forServer current) ticks js ∧
        Trace.run WeatherServer.work js WeatherServer.initiate = .ok (s, evs) ∧
        ∀ r query, requested (WeatherServer.deeds b js) = [r] → asked r = some query →
          ∃ e ∈ es, OfDispatch x config render ticks w₀ b r es e ∧ e.request.queryString = query ∧
            (sent (WeatherServer.deeds b js) = [] ∨ ∃ response, Carries response
                (answerOf render e.handled) ∧
              sent (WeatherServer.deeds b js)
                <+: response.writeBuffer.take response.writeSize) := by
  obtain ⟨hrun, hqueries⟩ := handler_of_run h
  refine ⟨_, hrun, hqueries, fun b => ⟨_, ?_, server_of_run h b, fun r query hreq hasked => ?_⟩⟩
  · exact (Trace.forall₂_translate h).imp fun _ _ ⟨_, hj⟩ => ⟨_, hj⟩
  · obtain ⟨e, hdispatch, hquery, hanswers⟩ := exists_exchange h hreq hasked
    refine ⟨e, hdispatch.mem, hdispatch, hquery, ?_⟩
    rcases WeatherServer.isServed_of_run (b := b) (server_of_run h b) with ⟨hnone, -, -⟩ |
      ⟨-, -, -, -, hsent, -⟩ |
      ⟨k, r', response, hreq', ⟨pre, post, hsplit, -⟩, hcarries, hsent, -⟩
    · cases hreq.symm.trans hnone
    · exact Or.inl hsent
    · obtain rfl : r = r' := by simpa using hreq.symm.trans hreq'
      refine Or.inr ⟨response, ?_, hsent⟩
      rw [current_of_mem_turns h hreq (by rw [hsplit]; simp), answer_of_asked hasked hanswers]
        at hcarries
      exact hcarries

/-- The ticks of a connection that asks for the weather at `59.25, 18.0`, and gets it. -/
def weatherTicks : List ServiceTick :=
  let env := (OpenMeteoHandler.requestAt 0 OpenMeteoApi.nearText true).env
  [ ⟨0, true, .all, idleTick, true, env⟩,
    ⟨3, true, .all, readTick (bytes "GET /v1/current?lat=59.25&lon=18.0 HTTP/1.1\r\n\r\n")
      (by decide)
      (by decide), true, env⟩,
    ⟨3, true, .all, ⟨.wouldBlock, .all, .accepts ⟨4096, WeatherServer.page_lt_intMax⟩⟩, true, env⟩ ]

/-- The request for the weather is answered out of one transfer. -/
theorem hands_on_weather : ∃ s w evs,
    Trace.run (work OpenMeteoHandler.dayPlatform OpenMeteoApi.handlerConfig fun _ =>
      bytes "weather")
      weatherTicks (start OpenMeteoApi.emptyWorld) = .ok ((s, w), evs) ∧
    (requested evs).filterMap asked = [bytes "lat=59.25&lon=18.0"] ∧ w.fetches.length = 1 ∧
    ∃ es, OpenMeteoHandler.run OpenMeteoHandler.dayPlatform OpenMeteoApi.handlerConfig
        (es.map Exchange.request) OpenMeteoApi.emptyWorld = .ok (w, es) ∧
      es.map (fun e => e.request.queryString) = [bytes "lat=59.25&lon=18.0"] := by
  have hrun : (Trace.run (work OpenMeteoHandler.dayPlatform OpenMeteoApi.handlerConfig
      fun _ => bytes "weather") weatherTicks (start OpenMeteoApi.emptyWorld)).toOption.map
      (fun r => ((requested r.2).filterMap asked, r.1.2.fetches.length))
        = some ([bytes "lat=59.25&lon=18.0"], 1) := by decide +kernel
  obtain ⟨⟨⟨s, w⟩, evs⟩, hrun, hend⟩ := exists_of_toOption hrun
  obtain ⟨hasked, hfetches⟩ := Prod.ext_iff.mp hend
  obtain ⟨es, hhandler, hqueries, -⟩ := hands_on hrun
  exact ⟨s, w, evs, hrun, hasked, hfetches, es, hhandler, hqueries.trans hasked⟩

end WeatherService

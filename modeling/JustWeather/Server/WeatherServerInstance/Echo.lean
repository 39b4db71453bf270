import JustWeather.Lib.HttpServerConnection.RequestLine
import JustWeather.RoundTrip.Response

/-!
# Server/WeatherServerInstance/Echo — what an echo returns

The homepage promises the raw request for `GET /echo` and the raw body for `POST /echo`.  The
handler returns `read_buffer` for both, that is, whatever had been stored when the request was
complete.  So the promise is kept exactly for a request that is not a `POST` and was the whole of
what had been received (`echo_own_iff`).
-/

open CLib MessageHead HTTPServerConnection

namespace WeatherServerInstance

/-- **A request**: a head, and the `content_len` bytes after it. -/
structure IsRequest (request : List Byte) (h : MessageHead RequestFields) : Prop where
  head : headOf readRequest request = some h
  length : request.length = h.bodyStart + h.contentLen

/-- **The echo of a request is of that request only**: for `POST` its body, for `GET` all of it, and
for no method anything else. -/
structure EchoesOwn (request : List Byte) (h : MessageHead RequestFields) (body : List Byte) :
    Prop where
  post : h.fields.method = bytes "POST" → body = request.drop h.bodyStart
  get : h.fields.method = bytes "GET" → body = request
  own : body <:+: request

variable {κ : Type} {current : Current} {alloc : Bool} {smw smw' : Smw κ} {fd : ℤ}
  {task : Option TaskHandle} {ticks : List Tick} {t : Tick} {y : Smw κ × HTTPServerConnection}
  {evs evs' : List Event} {c d : HTTPServerConnection} {request more body : List Byte}
  {h : MessageHead RequestFields}

/-- What begins with a request has its head. -/
theorem IsRequest.headOf_of_prefix (hr : IsRequest request h) {s : List Byte} (hs : request <+: s) :
    headOf readRequest s = some h := by
  obtain ⟨m, rfl⟩ := hs
  exact headOf_append hr.head m

/-- **What is echoed is the request exactly when nothing else is**, and the method is not `POST`. -/
theorem echoesOwn_iff {s : List Byte} (hr : IsRequest request h) (hs : request <+: s ++ more)
    (hbody : h.fields.method = bytes "GET" ∨ request.length ≤ s.length) :
    EchoesOwn request h s ↔ h.fields.method ≠ bytes "POST" ∧ s = request := by
  constructor
  · intro hown
    have hpost : h.fields.method ≠ bytes "POST" := by
      intro hmethod
      have hlen : s.length = request.length - h.bodyStart := by
        rw [hown.post hmethod, List.length_drop]
      have hstart := (bodyStart_bounds hr.head).1
      have htotal := hr.length
      rcases hbody with hget | hle
      · exact absurd (hmethod.symm.trans hget) (by decide)
      · omega
    refine ⟨hpost, ?_⟩
    rcases hbody with hget | hle
    · exact hown.get hget
    · have hpre : request <+: s :=
        List.prefix_of_prefix_length_le hs (List.prefix_append s more) hle
      exact (hpre.eq_of_length_le hown.own.length_le).symm
  · rintro ⟨hpost, rfl⟩
    exact ⟨fun hmethod => absurd hmethod hpost, fun _ => rfl, List.infix_rfl⟩

/-- What the handler makes of a request for the echo. -/
theorem onRequest_of_echo {requestPath : List Byte} {r : Option Response}
    (hp : c.requestPath = some requestPath) (hecho : (splitPath requestPath).1 = bytes "/echo")
    (h : onRequest current alloc c = .ok r) :
    ∃ r', r = some r' ∧ Carries r' ⟨200, c.readBuffer⟩ := by
  have hhome : ∀ method : List Byte, ¬ (method = bytes "GET" ∧ bytes "/echo" = bytes "/") :=
    fun _ h => absurd h.2 (by decide)
  rw [onRequest, hp] at h
  dsimp only at h
  rcases hcopy : copyPath requestPath with f | target
  · rw [hcopy] at h
    cases h
  · obtain rfl := copyPath_eq hcopy
    rcases hm : c.method with _ | method
    · simp only [hcopy, hm] at h
      cases h
    · simp only [hcopy, hm, hecho, if_neg (hhome method), if_true] at h
      cases alloc with
      | false => cases h
      | true =>
        obtain ⟨r', rfl⟩ := exists_of_map_some h
        exact ⟨r', rfl, carries_echo h⟩

/-- **The echo of a request is the buffer**, and the buffer holds the request, unless the method is
`GET`. -/
theorem exists_echo (hr : IsRequest request h)
    (hecho : (splitPath h.fields.requestPath).1 = bytes "/echo")
    (hstream : request <+: received (ticks ++ [t]) ++ more)
    (hrun : connectionRun (onRequest current alloc) smw fd task ticks = .ok ((smw', d), evs))
    (hstep : taskWork (onRequest current alloc) t (smw', d) = .ok (y, evs'))
    (hc : .request c ∈ evs') :
    (∃ r, y.2.writeBuffer = some r.writeBuffer ∧ y.2.writeSize = r.writeSize ∧
      Carries r ⟨200, received (ticks ++ [t])⟩) ∧
    (h.fields.method = bytes "GET" ∨ request.length ≤ (received (ticks ++ [t])).length) := by
  obtain ⟨a, hd, r, hhead, hconn, -, hbody, hcall, rfl⟩ := exists_of_requesting hrun hstep hc
  obtain rfl : hd = h :=
    Option.some.inj ((headOf_append hhead more).symm.trans (hr.headOf_of_prefix hstream))
  have hpath : c.requestPath = strdup a.requestPath hd.fields.requestPath := by
    rw [hconn, dispatched_requestPath]
    rfl
  have hmethod : c.method = strdup a.method hd.fields.method := by
    rw [hconn, dispatched_method]
    rfl
  have hbuffer : c.readBuffer = received (ticks ++ [t]) := by
    rw [hconn, dispatched_readBuffer]
    rfl
  constructor
  · cases hok : a.requestPath with
    | false =>
      -- without a copy of the path the handler faults
      rw [hok] at hpath
      rw [onRequest, hpath] at hcall
      cases hcall
    | true =>
      rw [hok] at hpath
      obtain ⟨r', rfl, hcarries⟩ := onRequest_of_echo hpath hecho hcall
      rw [hbuffer] at hcarries
      exact ⟨r', rfl, rfl, hcarries⟩
  · rw [hr.length]
    refine hbody.imp_left fun hget => ?_
    rw [hmethod] at hget
    exact (strdup_eq_some_iff.mp hget).2

/-- **An echo is what was asked for exactly when** the method is not `POST` and the request is all
that had been received when it was complete: the response is the buffer, whatever is in it. -/
theorem echo_own_iff (hr : IsRequest request h)
    (hecho : (splitPath h.fields.requestPath).1 = bytes "/echo")
    (hstream : request <+: received (ticks ++ [t]) ++ more)
    (hrun : connectionRun (onRequest current alloc) smw fd task ticks = .ok ((smw', d), evs))
    (hstep : taskWork (onRequest current alloc) t (smw', d) = .ok (y, evs'))
    (hc : .request c ∈ evs') :
    ∃ r body, y.2.writeBuffer = some r.writeBuffer ∧ y.2.writeSize = r.writeSize ∧
      Carries r ⟨200, body⟩ ∧
      (EchoesOwn request h body ↔
        h.fields.method ≠ bytes "POST" ∧ received (ticks ++ [t]) = request) := by
  obtain ⟨⟨r, hbuffer, hsize, hcarries⟩, hle⟩ := exists_echo hr hecho hstream hrun hstep hc
  exact ⟨r, _, hbuffer, hsize, hcarries, echoesOwn_iff hr hstream hle⟩

/-- The echo of a request that was all there was. -/
theorem echo_own_get : ∃ y c r body, taskWork (onRequest (fun _ => (none, 500)) true)
      (readTick (bytes "GET /echo HTTP/1.1\r\n\r\n") (by decide) (by decide))
      ((Smw.init : Smw Unit), initiate 4 none) = .ok (y, [.request c]) ∧
    y.2.writeBuffer = some r.writeBuffer ∧ Carries r ⟨200, body⟩ ∧
    body = bytes "GET /echo HTTP/1.1\r\n\r\n" := by
  have hstep : ∃ y c, taskWork (onRequest (fun _ => (none, 500)) true)
      (readTick (bytes "GET /echo HTTP/1.1\r\n\r\n") (by decide) (by decide))
      ((Smw.init : Smw Unit), initiate 4 none) = .ok (y, [.request c]) := ⟨_, _, rfl⟩
  obtain ⟨y, c, hstep⟩ := hstep
  have hr : IsRequest (bytes "GET /echo HTTP/1.1\r\n\r\n")
      ⟨⟨bytes "GET", bytes "/echo", []⟩, 0, 22⟩ := ⟨by rfl, by decide⟩
  have hstream : bytes "GET /echo HTTP/1.1\r\n\r\n" <+: received ([] ++
      [readTick (bytes "GET /echo HTTP/1.1\r\n\r\n") (by decide) (by decide)]) ++ [] :=
    List.prefix_append _ _
  obtain ⟨r, body, hbuffer, -, hcarries, hiff⟩ := echo_own_iff hr (by decide) hstream rfl hstep
    (List.mem_singleton.mpr rfl)
  exact ⟨y, c, r, body, hstep, hbuffer, hcarries, (hiff.mpr ⟨by decide, rfl⟩).get rfl⟩

/-- A `POST` with a body of two bytes. -/
def postEcho : List Byte := bytes "POST /echo HTTP/1.1\r\nContent-Length: 2\r\n\r\nhi"

/-- **The echo of a `POST` is the whole request**, and not the body. -/
theorem echo_post : ∃ h y c r, IsRequest postEcho h ∧
    taskWork (onRequest (fun _ => (none, 500)) true) (readTick postEcho (by decide) (by decide))
      ((Smw.init : Smw Unit), initiate 4 none) = .ok (y, [.request c]) ∧
    y.2.writeBuffer = some r.writeBuffer ∧ Carries r ⟨200, postEcho⟩ ∧
    ¬ EchoesOwn postEcho h postEcho := by
  have hstep : ∃ y c, taskWork (onRequest (fun _ => (none, 500)) true)
      (readTick postEcho (by decide) (by decide)) ((Smw.init : Smw Unit), initiate 4 none)
      = .ok (y, [.request c]) := ⟨_, _, rfl⟩
  obtain ⟨y, c, hstep⟩ := hstep
  have hr : IsRequest postEcho ⟨⟨bytes "POST", bytes "/echo", []⟩, 2, 42⟩ := ⟨by rfl, by decide⟩
  have hstream : postEcho <+: received ([] ++ [readTick postEcho (by decide) (by decide)]) ++ [] :=
    List.prefix_append _ _
  obtain ⟨⟨r, hbuffer, -, hcarries⟩, -⟩ := exists_echo hr (by decide) hstream rfl hstep
    (List.mem_singleton.mpr rfl)
  exact ⟨_, y, c, r, hr, hstep, hbuffer, hcarries, fun hown => absurd (hown.post rfl) (by decide)⟩

end WeatherServerInstance

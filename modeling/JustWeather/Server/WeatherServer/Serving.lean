import JustWeather.Lib.HttpServerConnection.Frame
import JustWeather.RoundTrip.Response
import JustWeather.Server.WeatherServer.Holdings
import JustWeather.Server.WeatherServer.Isolation

/-!
# Server/WeatherServer/Serving — every connection is served by the rules

What a connection has shown in its turns says which phase it is in (`ServedConnection.Phase`), and
each turn keeps that (`Phase.work`).  As a connection lives in the server as it would alone, the
rules hold for every connection of every run: one request at most, made of what was stored so far,
nothing sent but the answer to it, in order and from the start, and one disposal at most, which is
the last thing that happens to it (`serves`).
-/

open CLib MessageHead HTTPServerConnection

namespace ServedConnection

variable {c d : ServedConnection} {k : ConnectionTick} {ks : List ConnectionTick} {s : List Byte}
  {evs evs' : List HTTPServerConnection.Event} {r : HTTPServerConnection}
  {w : HTTPServerConnection.Response}

/-! ## What a connection shows -/

/-- The connections the callback was called on. -/
def requested (evs : List HTTPServerConnection.Event) : List HTTPServerConnection :=
  evs.filterMap Event.connection?

/-- The bytes the socket took. -/
def sent (evs : List HTTPServerConnection.Event) : List Byte :=
  evs.flatMap fun
    | .accepted bs => bs
    | _ => []

/-- The bytes that were stored in these turns. -/
def stored (ks : List ConnectionTick) : List Byte := received (ks.map ConnectionTick.tick)

@[simp] theorem requested_append (evs evs' : List HTTPServerConnection.Event) :
    requested (evs ++ evs') = requested evs ++ requested evs' := List.filterMap_append

@[simp] theorem sent_append (evs evs' : List HTTPServerConnection.Event) :
    sent (evs ++ evs') = sent evs ++ sent evs' := List.flatMap_append

theorem stored_concat (ks : List ConnectionTick) (k : ConnectionTick) :
    stored (ks ++ [k]) = stored ks ++ HTTPServerConnection.stored k.tick := by
  rw [stored, List.map_append, received_append, List.map_singleton, received_singleton, stored]

/-- **The request of a stream**: the connection that has read its head, and stored all that the head
announces. -/
structure IsRequestOf (s : List Byte) (r : HTTPServerConnection) : Prop where
  readBuffer : r.readBuffer = s
  head : ∃ h, headOf readRequest s = some h ∧ r.method = some h.fields.method ∧
    r.requestPath = some h.fields.requestPath ∧ sizeAdd h.bodyStart h.contentLen ≤ s.length

/-- The request `r` was dispatched in the turn `k` that brought the last of its bytes, and the
callback returned `o`. -/
structure Dispatched (ks : List ConnectionTick) (k : ConnectionTick) (r : HTTPServerConnection)
    (o : Option HTTPServerConnection.Response) : Prop where
  split : ∃ pre post, ks = pre ++ k :: post ∧ IsRequestOf (stored (pre ++ [k])) r
  returned : WeatherServerInstance.onRequest k.current k.response r = .ok o

theorem Dispatched.concat {o : Option HTTPServerConnection.Response} (h : Dispatched ks k r o)
    (k' : ConnectionTick) : Dispatched (ks ++ [k']) k r o := by
  obtain ⟨⟨pre, post, rfl, hr⟩, hreturned⟩ := h
  exact ⟨⟨pre, post ++ [k'], by simp, hr⟩, hreturned⟩

/-- **What happens to a connection whose request is answered**, in this order: its request, what the
socket takes, a `send` that fails, and as many disposals as it comes to. -/
def story (r : HTTPServerConnection) (chunks : List (List Byte)) (failed : Bool) (gone : ℕ) :
    List HTTPServerConnection.Event :=
  .request r :: (chunks.map .accepted ++ (if failed then [.sendError] else []) ++
    List.replicate gone .disposed)

theorem story_accepted (r : HTTPServerConnection) (chunks : List (List Byte)) (bs : List Byte) :
    story r chunks false 0 ++ [.accepted bs] = story r (chunks ++ [bs]) false 0 := by
  simp [story]

theorem story_sendError (r : HTTPServerConnection) (chunks : List (List Byte)) :
    story r chunks false 0 ++ [.sendError] = story r chunks true 0 := by
  simp [story]

theorem story_disposed (r : HTTPServerConnection) (chunks : List (List Byte)) (failed : Bool)
    (gone : ℕ) : story r chunks failed gone ++ [.disposed] = story r chunks failed (gone + 1) := by
  simp [story, List.replicate_succ']

/-! ## The phases -/

/-- Whatever runs out of memory. -/
def Any (_ : ReceiveAlloc) : Prop := True

/-- **The phase of a connection** that was given the turns `ks` and has shown `evs`. -/
inductive Phase (ks : List ConnectionTick) (evs : List HTTPServerConnection.Event)
    (c : ServedConnection) : Prop
  /-- it waits for the rest of a request -/
  | receives (hw : Waits Any 0 none (stored ks) c.connection) (hlt : (stored ks).length < sizeMod)
      (hevs : evs = [])
  /-- its request got no response, and it will wait for one for good -/
  | unanswered (k : ConnectionTick) (r : HTTPServerConnection) (hd : Dispatched ks k r none)
      (hstate : c.connection.state = .send) (hbuf : c.connection.writeBuffer = none)
      (hevs : evs = [.request r])
  /-- its request was answered with `w`, and what lies before the offset was sent -/
  | answers (k : ConnectionTick) (r : HTTPServerConnection) (w : HTTPServerConnection.Response)
      (hd : Dispatched ks k r (some w)) (hbuf : c.connection.writeBuffer = some w.writeBuffer)
      (hsize : c.connection.writeSize = w.writeSize)
      (hstate : c.connection.state = .send ∨ c.connection.state = .dispose ∧
        (c.connection.writeOffset = w.writeSize ∨ .sendError ∈ evs))
      (hle : c.connection.writeOffset ≤ w.writeSize) (hreq : requested evs = [r])
      (hsent : sent evs = w.writeBuffer.take c.connection.writeOffset) (hdisp : .disposed ∉ evs)
      (hstory : ∃ chunks failed, evs = story r chunks failed 0 ∧
        (c.connection.state = .send → failed = false))
  /-- it is torn down: all was sent, or a `send` failed -/
  | closed (k : ConnectionTick) (r : HTTPServerConnection) (w : HTTPServerConnection.Response)
      (hd : Dispatched ks k r (some w)) (hstate : c.connection.state = .dispose)
      (hbuf : c.connection.writeBuffer = none) (hreq : requested evs = [r])
      (hsent : sent evs <+: w.writeBuffer.take w.writeSize)
      (hdone : sent evs = w.writeBuffer.take w.writeSize ∨ .sendError ∈ evs)
      (hstory : ∃ chunks failed gone, evs = story r chunks failed gone)

theorem phase_fresh (context : Option ℕ) : Phase [] [] (fresh context) :=
  .receives waits_initiate (by decide) rfl

/-! ## One turn -/

/-- A turn of a connection is a tick of it, as far as one can see without its numbers. -/
theorem exists_of_work (h : c.work k = .ok (d, evs)) : ∃ y evs₀,
    taskWork (c.onRequest k) k.tick ((Smw.init : Smw Unit), c.connection) = .ok (y, evs₀) ∧
      d.connection = y.2.plain ∧ evs = evs₀.map Event.plain := by
  obtain ⟨v, hv, hd⟩ := Fallible.exists_of_map h
  obtain ⟨⟨y, evs₀⟩, hy, rfl⟩ := Fallible.exists_of_map hv
  obtain ⟨rfl, rfl⟩ := Prod.ext_iff.mp hd
  exact ⟨y, evs₀, hy, rfl, rfl⟩

/-- A callback that returned is that of an instance. -/
theorem onRequest_of_ok {o : Option HTTPServerConnection.Response} (h : c.onRequest k r = .ok o) :
    WeatherServerInstance.onRequest k.current k.response r = .ok o := by
  obtain ⟨c, _ | i⟩ := c
  · cases h
  · exact h

theorem plain_of_numbers (hfd : r.fd = 0) (htask : r.task = none) : r.plain = r := by
  rw [HTTPServerConnection.plain, ← hfd, ← htask]

theorem plain_of_waits {A : ReceiveAlloc → Prop} (hw : Waits A 0 none s r) : r.plain = r := by
  obtain ⟨rfl, -⟩ | ⟨a, h, -, -, rfl⟩ := hw <;> rfl

theorem plain_dispatched {A : ReceiveAlloc → Prop} (hw : Waits A 0 none s r) :
    r.dispatched.plain = r.dispatched := by
  have hkeeps := keeps_dispatched r
  have hnumbers : r.fd = 0 ∧ r.task = none := by
    obtain ⟨rfl, -⟩ | ⟨a, h, -, -, rfl⟩ := hw <;> exact ⟨rfl, rfl⟩
  exact plain_of_numbers (hkeeps.fd.trans hnumbers.1) (hkeeps.task.trans hnumbers.2)

/-- What is dispatched is the request of what was stored, when the callback returns. -/
theorem isRequestOf_dispatched {e : HTTPServerConnection}
    {o : Option HTTPServerConnection.Response} (hw : Waits Any 0 none s e)
    (hcomp : e.complete = true)
    (h : WeatherServerInstance.onRequest k.current k.response e.dispatched = .ok o) :
    IsRequestOf s e.dispatched := by
  obtain ⟨a, head, -, hs, rfl, hle⟩ := hw.of_complete hcomp
  refine ⟨(dispatched_readBuffer _).trans hw.readBuffer, head, hs, ?_, ?_, hle⟩
  · rw [dispatched_method]
    rcases hm : a.method with _ | _
    · rw [WeatherServerInstance.onRequest, dispatched_method] at h
      have hnone : ((filled 0 none s).setHead a head).method = none := by
        rw [setHead, strdup, hm]
        rfl
      rw [hnone] at h
      split at h
      · cases h
      · split at h
        · cases h
        · cases h
    · exact strdup_eq_some_iff.mpr ⟨hm, rfl⟩
  · rw [dispatched_requestPath]
    rcases hp : a.requestPath with _ | _
    · have hnone : ((filled 0 none s).setHead a head).requestPath = none := by
        rw [setHead, strdup, hp]
        rfl
      rw [WeatherServerInstance.onRequest, dispatched_requestPath, hnone] at h
      cases h
    · exact strdup_eq_some_iff.mpr ⟨hp, rfl⟩

/-- A turn of a connection that waits. -/
theorem Phase.work_of_waits (hw : Waits Any 0 none (stored ks) c.connection)
    (hlt : (stored ks).length < sizeMod) (h : c.work k = .ok (d, evs)) :
    Phase (ks ++ [k]) evs d := by
  obtain ⟨y, evs₀, hwork, hd, rfl⟩ := exists_of_work h
  rcases hw.of_ok (x := (Smw.init, c.connection)) trivial hlt hwork with
    ⟨e, rfl, rfl, hw', hlt'⟩ | ⟨e, o, rfl, rfl, ho, hw', hcomp⟩
  · rw [← stored_concat] at hw' hlt'
    exact .receives (by rwa [hd, plain_of_waits hw']) hlt' rfl
  · rw [← stored_concat] at hw'
    have hreturned := onRequest_of_ok ho
    have hdispatched : Dispatched (ks ++ [k]) k e.dispatched o :=
      ⟨⟨ks, [], rfl, isRequestOf_dispatched hw' hcomp hreturned⟩, hreturned⟩
    have hevs : [HTTPServerConnection.Event.request e.dispatched].map Event.plain
        = [.request e.dispatched] :=
      congrArg (fun c => [HTTPServerConnection.Event.request c]) (plain_dispatched hw')
    rw [hevs]
    obtain ⟨hoff, hsize⟩ := hw'.writeOffset
    rcases o with _ | w
    · refine .unanswered k _ hdispatched ?_ ?_ rfl
      · rw [hd]
        exact dispatched_state e
      · rw [hd]
        change e.dispatched.writeBuffer = none
        obtain ⟨rfl, -⟩ | ⟨a, head, -, -, rfl⟩ := hw' <;> rw [dispatched] <;> split <;> rfl
    · have hoff' : d.connection.writeOffset = 0 := by
        rw [hd, ← hoff]
        change e.dispatched.writeOffset = e.writeOffset
        rw [dispatched]
        split <;> rfl
      refine .answers k _ w hdispatched ?_ ?_ (Or.inl ?_) ?_ rfl ?_ (by simp)
        ⟨[], false, rfl, fun _ => rfl⟩
      · rw [hd]
        rfl
      · rw [hd]
        rfl
      · rw [hd]
        exact dispatched_state e
      · rw [hoff']
        exact Nat.zero_le _
      · rw [hoff']
        rfl

/-- What one call of `send` does to a connection that answers. -/
theorem Phase.work_of_send (hd : Dispatched ks k r (some w))
    (hbuf : c.connection.writeBuffer = some w.writeBuffer)
    (hsize : c.connection.writeSize = w.writeSize) (hstate : c.connection.state = .send)
    (hle : c.connection.writeOffset ≤ w.writeSize) (hreq : requested evs = [r])
    (hsent : sent evs = w.writeBuffer.take c.connection.writeOffset) (hdisp : .disposed ∉ evs)
    {chunks : List (List Byte)} (hstory : evs = story r chunks false 0)
    {k' : ConnectionTick} (h : c.work k' = .ok (d, evs')) :
    Phase (ks ++ [k']) (evs ++ evs') d := by
  obtain ⟨y, evs₀, hwork, hy, rfl⟩ := exists_of_work h
  rw [taskWork_of_send _ hstate] at hwork
  rcases send_cases k'.tick.send c.connection with
    ⟨hs, -⟩ | ⟨hs, -⟩ | ⟨-, hs⟩ | ⟨b, n, hb, -, hn, hs⟩ <;> rw [hs] at hwork <;> cases hwork
  · have hevs : evs ++ ([] : List HTTPServerConnection.Event).map Event.plain = evs :=
      List.append_nil evs
    rw [hevs]
    exact .answers k r w (hd.concat k') (by rw [hy]; exact hbuf) (by rw [hy]; exact hsize)
      (Or.inl (by rw [hy]; exact hstate)) (by rw [hy]; exact hle) hreq (by rw [hy]; exact hsent)
      hdisp ⟨chunks, false, hstory, fun _ => rfl⟩
  · refine .answers k r w (hd.concat k') ?_ ?_ (Or.inr ⟨?_, Or.inr (by simp [Event.plain])⟩) ?_ ?_
      ?_ (by simpa [Event.plain] using hdisp) ⟨chunks, true, ?_, ?_⟩
    · rw [hy]
      exact hbuf
    · rw [hy]
      exact hsize
    · rw [hy]
      rfl
    · rw [hy]
      exact hle
    · rw [requested_append, hreq]
      rfl
    · rw [hy, sent_append, hsent]
      exact List.append_nil _
    · rw [hstory]
      exact story_sendError r chunks
    · intro hsend
      rw [hy] at hsend
      cases hsend
  · obtain rfl := Option.some.inj (hbuf.symm.trans hb)
    rw [hsize] at hn hy
    refine .answers k r w (hd.concat k') ?_ ?_ ?_ ?_ ?_ ?_ (by simpa [Event.plain] using hdisp)
      ⟨_, false, by rw [hstory]; exact story_accepted r chunks _, fun _ => rfl⟩
    · rw [hy]
      exact hbuf
    · rw [hy]
      rfl
    · rw [hy]
      change (if w.writeSize ≤ c.connection.writeOffset + n then HttpServerConnectionState.dispose
        else c.connection.state) = .send ∨ (if w.writeSize ≤ c.connection.writeOffset + n then
        HttpServerConnectionState.dispose else c.connection.state) = .dispose ∧ _
      split
      · exact Or.inr ⟨rfl, Or.inl (by simp; omega)⟩
      · exact Or.inl hstate
    · rw [hy]
      exact hn
    · rw [requested_append, hreq]
      rfl
    · rw [hy, sent_append, hsent]
      change w.writeBuffer.take c.connection.writeOffset ++
        ((w.writeBuffer.drop c.connection.writeOffset).take n ++ []) = _
      rw [List.append_nil, ← List.take_add]
      rfl

/-- The turn that disposes of a connection. -/
theorem Phase.work_of_dispose (hd : Dispatched ks k r (some w))
    (hstate : c.connection.state = .dispose) (hreq : requested evs = [r])
    (hsent : sent evs <+: w.writeBuffer.take w.writeSize)
    (hdone : sent evs = w.writeBuffer.take w.writeSize ∨ .sendError ∈ evs)
    (hstory : ∃ chunks failed gone, evs = story r chunks failed gone) {k' : ConnectionTick}
    (h : c.work k' = .ok (d, evs')) : Phase (ks ++ [k']) (evs ++ evs') d := by
  obtain ⟨y, evs₀, hwork, hy, rfl⟩ := exists_of_work h
  rw [taskWork_of_dispose _ hstate] at hwork
  cases hwork
  have hnothing : sent (evs ++ [HTTPServerConnection.Event.disposed].map Event.plain)
    = sent evs := by
    rw [sent_append]
    exact List.append_nil _
  obtain ⟨chunks, failed, gone, rfl⟩ := hstory
  refine .closed k r w (hd.concat k') ?_ ?_ ?_ ?_ ?_
    ⟨chunks, failed, gone + 1, story_disposed r chunks failed gone⟩
  · rw [hy]
    exact hstate
  · rw [hy]
    rfl
  · rw [requested_append, hreq]
    rfl
  · rwa [hnothing]
  · rw [hnothing]
    exact hdone.imp_right fun he => List.mem_append_left _ he

/-- **Every turn keeps the phase.** -/
theorem Phase.work (hp : Phase ks evs c) (h : c.work k = .ok (d, evs')) :
    Phase (ks ++ [k]) (evs ++ evs') d := by
  rcases hp with ⟨hw, hlt, rfl⟩ | ⟨k', r, hd, hstate, hbuf, rfl⟩ |
    ⟨k', r, w, hd, hbuf, hsize, hstate, hle, hreq, hsent, hdisp, chunks, failed, hstory, hfailed⟩ |
    ⟨k', r, w, hd, hstate, -, hreq, hsent, hdone, hstory⟩
  · exact work_of_waits hw hlt h
  · obtain ⟨y, evs₀, hwork, hy, rfl⟩ := exists_of_work h
    rw [taskWork_of_send _ hstate, send, hbuf] at hwork
    cases hwork
    exact .unanswered k' r (hd.concat k) (by rw [hy]; exact hstate) (by rw [hy]; exact hbuf) rfl
  · rcases hstate with hstate | ⟨hstate, hdone⟩
    · rw [hfailed hstate] at hstory
      exact work_of_send hd hbuf hsize hstate hle hreq hsent hdisp hstory h
    · refine work_of_dispose hd hstate hreq ?_ (hdone.imp_left fun hall => ?_)
        ⟨chunks, failed, 0, hstory⟩ h
      · rw [hsent]
        exact List.take_prefix_take_left hle
      · rw [hsent, hall]
  · exact work_of_dispose hd hstate hreq hsent hdone hstory h

/-- **Every life of a connection keeps the phase.** -/
theorem phase_of_run {context : Option ℕ}
    (h : Trace.run work ks (fresh context) = .ok (c, evs)) : Phase ks evs c :=
  Trace.run_invariant (P := fun ks c evs => Phase ks evs c) (phase_fresh context)
    (fun hp hw => hp.work hw) h

end ServedConnection

namespace WeatherServer

open ServedConnection

variable {s : WeatherServer} {ticks : List ServerTick} {evs : List HTTPServerConnection.Event}
  {b : ℕ} {c : ServedConnection}

/-- A response there is was one there was memory for. -/
theorem alloc_of_onRequest {current : WeatherServerInstance.Current} {alloc : Bool}
    {r : HTTPServerConnection} {w : HTTPServerConnection.Response}
    (h : WeatherServerInstance.onRequest current alloc r = .ok (some w)) : alloc = true := by
  cases alloc with
  | true => rfl
  | false =>
    exfalso
    rw [WeatherServerInstance.onRequest] at h
    split at h
    · cases h
    · split at h
      · cases h
      · split at h
        · cases h
        · split at h
          · cases h
          · split at h
            · cases h
            · split at h
              · split at h <;> cases h
              · cases h

/-- **What a connection was served**, in the turns `ks` in which it has shown `evs`. -/
inductive IsServed (ks : List ConnectionTick) (evs : List HTTPServerConnection.Event) : Prop
  /-- it asked for nothing so far, and was sent nothing -/
  | waits (hreq : requested evs = []) (hsent : sent evs = []) (hdisp : .disposed ∉ evs)
      (hstory : evs = [])
  /-- it made one request, of the bytes stored up to the turn `k`, and there is no response -/
  | unanswered (k : ConnectionTick) (r : HTTPServerConnection) (hreq : requested evs = [r])
      (hr : ∃ pre post, ks = pre ++ k :: post ∧
        IsRequestOf (ServedConnection.stored (pre ++ [k])) r)
      (hsent : sent evs = []) (hdisp : .disposed ∉ evs) (hstory : evs = story r [] false 0)
  /-- it made one request, and was sent nothing but the response that carries the answer to it, in
  order and from the start; it was disposed of only when all of it was sent, or a `send` failed -/
  | answered (k : ConnectionTick) (r : HTTPServerConnection) (w : HTTPServerConnection.Response)
      (hreq : requested evs = [r])
      (hr : ∃ pre post, ks = pre ++ k :: post ∧
        IsRequestOf (ServedConnection.stored (pre ++ [k])) r)
      (hw : WeatherServerInstance.Carries w (WeatherServerInstance.answer k.current r))
      (hsent : sent evs <+: w.writeBuffer.take w.writeSize)
      (hdisp : .disposed ∈ evs → sent evs = w.writeBuffer.take w.writeSize ∨ .sendError ∈ evs)
      (hstory : ∃ chunks failed gone, evs = story r chunks failed gone)

theorem carries_of_dispatched {ks : List ConnectionTick} {k : ConnectionTick}
    {r : HTTPServerConnection} {w : HTTPServerConnection.Response}
    (hd : Dispatched ks k r (some w)) :
    WeatherServerInstance.Carries w (WeatherServerInstance.answer k.current r) := by
  have hreturned := hd.returned
  rw [alloc_of_onRequest hreturned] at hreturned
  exact WeatherServerInstance.carries_answer hreturned

theorem isServed_of_phase {ks : List ConnectionTick} (h : Phase ks evs c) : IsServed ks evs := by
  rcases h with ⟨-, -, rfl⟩ | ⟨k, r, hd, -, -, rfl⟩ |
    ⟨k, r, w, hd, -, -, -, hle, hreq, hsent, hdisp, chunks, failed, hstory, -⟩ |
    ⟨k, r, w, hd, -, -, hreq, hsent, hdone, hstory⟩
  · exact .waits rfl rfl List.not_mem_nil rfl
  · exact .unanswered k r rfl hd.split rfl (by simp) rfl
  · refine .answered k r w hreq hd.split (carries_of_dispatched hd) ?_ (fun h => absurd h hdisp)
      ⟨chunks, failed, 0, hstory⟩
    rw [hsent]
    exact List.take_prefix_take_left hle
  · exact .answered k r w hreq hd.split (carries_of_dispatched hd) hsent (fun _ => hdone) hstory

/-- What connection number `b` was served, also when it is not there. -/
theorem isServed_of_run (h : Trace.run work ticks initiate = .ok (s, evs)) :
    IsServed (turns b ticks) (deeds b ticks) := by
  rcases hc : s.connections[b]? with _ | c
  · have hnone : (component b).part s = none := congrArg (Option.map _) hc
    obtain ⟨-, hevs⟩ := (component b).run_absent h hnone
    rw [deeds, hevs]
    exact .waits rfl rfl List.not_mem_nil rfl
  · exact isServed_of_phase (phase_of_run (life_of_connection h hc))

theorem disposed_mem_plain : .disposed ∈ evs.map Event.plain ↔ .disposed ∈ evs := by
  refine ⟨fun h => ?_, fun h => List.mem_map.mpr ⟨_, h, rfl⟩⟩
  obtain ⟨e, he, hplain⟩ := List.mem_map.mp h
  cases e with
  | disposed => exact he
  | _ => cases hplain

/-- **A connection is disposed of once**: then its task is gone, and it has no turn any more. -/
theorem disposed_of_run (h : Trace.run work ticks initiate = .ok (s, evs)) :
    (deeds b ticks).count .disposed ≤ 1 ∧ (.disposed ∈ deeds b ticks →
      ∃ c, s.connections[b]? = some c ∧ c.connection.task = none) := by
  induction ticks using List.reverseRecOn generalizing s evs with
  | nil => exact ⟨Nat.zero_le _, fun hmem => absurd hmem List.not_mem_nil⟩
  | append_singleton ticks t ih =>
    obtain ⟨s₁, evs₁, evs₂, hrun, hwork, rfl⟩ := Trace.exists_of_run_concat h
    obtain ⟨hcount, hgone⟩ := ih hrun
    by_cases hturn : s₁.turn t = some (.connection b)
    · obtain ⟨c, -, hc, htask, -⟩ := (holds_of_run hrun).of_turn hturn
      have hnot : .disposed ∉ deeds b ticks := by
        intro hmem
        obtain ⟨c', hc', hnone⟩ := hgone hmem
        obtain rfl := Option.some.inj (hc.symm.trans hc')
        cases hnone.symm.trans htask
      rw [deeds_of_turn hrun hturn hc hwork, List.count_append, List.count_eq_zero.mpr hnot,
        List.mem_append, or_iff_right hnot, disposed_mem_plain]
      rw [work, hturn] at hwork
      obtain ⟨c', d, hc', hconn, hd⟩ := connectionTaskWork_cases hwork
      obtain ⟨hlt, -⟩ := List.getElem?_eq_some_iff.mp hc'
      rcases hd with ⟨hnone, -, -, -, rfl⟩ | ⟨-, -, -, hno⟩
      · refine ⟨le_refl 1, fun _ => ⟨d, ?_, hnone⟩⟩
        rw [hconn, List.getElem?_set_self hlt]
      · refine ⟨?_, fun hmem => absurd hmem hno⟩
        rw [List.count_eq_zero.mpr fun hmem => hno (disposed_mem_plain.mp hmem)]
        exact Nat.zero_le _
    · rw [deeds_of_turn_ne hrun hturn]
      refine ⟨hcount, fun hmem => ?_⟩
      obtain ⟨c, hc, hnone⟩ := hgone hmem
      exact ⟨c, connection_of_turn_ne hwork hturn hc, hnone⟩

/-- **Every connection of every run is served by the rules**: whatever the order of the turns, what
runs out of memory, and what the other connections do. -/
theorem serves (h : Trace.run work ticks initiate = .ok (s, evs))
    (hc : s.connections[b]? = some c) :
    IsServed (turns b ticks) (deeds b ticks) ∧ (deeds b ticks).count .disposed ≤ 1 :=
  ⟨isServed_of_phase (phase_of_run (life_of_connection h hc)), (disposed_of_run h).1⟩

/-- A connection that asks for the homepage. -/
theorem serves_homepage : ∃ s evs c, Trace.run work homepageTicks initiate = .ok (s, evs) ∧
    s.connections[0]? = some c ∧ c.connection.state = .dispose ∧
    IsServed (turns 0 homepageTicks) (deeds 0 homepageTicks) ∧
    (deeds 0 homepageTicks).count .disposed ≤ 1 := by
  have hrun : (Trace.run work homepageTicks initiate).toOption.map
      (fun r => r.1.connections.map fun c => c.connection.state) = some [.dispose] := by
    decide +kernel
  obtain ⟨⟨s, evs⟩, hrun, hend⟩ := Fallible.exists_of_toOption hrun
  obtain ⟨c, hc, hstate⟩ := List.map_eq_singleton_iff.mp hend
  have hget : s.connections[0]? = some c := congrArg (·[0]?) hc
  exact ⟨s, evs, c, hrun, hget, hstate, serves hrun hget⟩

end WeatherServer

import JustWeather.Server.WeatherServer.Passes
import JustWeather.Server.WeatherServer.Progress

/-!
# Server/WeatherServer/Draining — every connection that is answered is let go of

In every pass of the loop each connection has one turn, wherever it is in the list of tasks.  So
while its socket takes a byte a pass, a response of `n` bytes is sent within `n` passes, and the
connection is gone after one more, whatever the others do (`drains`).
-/

open CLib HTTPServerConnection

namespace HTTPServerConnection

variable {c d : HTTPServerConnection} {n : ℕ}

/-- The socket has room for a byte, or fails for good. -/
def Takes : Send → Prop
  | .accepts room => 0 < room.val
  | .wouldBlock => False
  | .error => True

/-- **No more than `n` bytes of the response remain**, or the connection is to be disposed of. -/
def Remains (n : ℕ) (c : HTTPServerConnection) : Prop :=
  c.state = .dispose ∨ (c.state = .send ∧ ∃ b, c.writeBuffer = some b ∧ c.writeSize ≤ b.length ∧
    c.writeOffset < c.writeSize ∧ c.writeSize ≤ c.writeOffset + n)

/-- The connection was disposed of. -/
def Gone (c : HTTPServerConnection) : Prop := c.task = none ∧ c.fd = -1

/-- **A `send` leaves fewer bytes.** -/
theorem Remains.send {s : Send} {o : Outcome} (hr : Remains n c) (hstate : c.state = .send)
    (ht : Takes s) (h : c.send s = .ok o) : ∃ m, n = m + 1 ∧ Remains m o.connection := by
  obtain ⟨-, b, hbuf, hle, hmore, hn⟩ := hr.resolve_left (by simp [hstate])
  obtain ⟨m, rfl⟩ : ∃ m, n = m + 1 := Nat.exists_eq_succ_of_ne_zero (by omega)
  refine ⟨m, rfl, ?_⟩
  rcases s with room | _ | _
  · obtain ⟨k, bs, hk, hs⟩ := ServedConnection.send_accepts room hbuf hmore hle
    have hpos : 0 < room.val := ht
    obtain rfl := Except.ok.inj (hs.symm.trans h)
    by_cases hend : c.writeSize ≤ c.writeOffset + k
    · exact Or.inl (if_pos hend)
    · refine Or.inr ⟨(if_neg hend).trans hstate, b, hbuf, hle, ?_, ?_⟩ <;> dsimp only <;> omega
  · exact ht.elim
  · have hs : c.send .error = .ok ⟨-1, { c with state := .dispose }, [.sendError]⟩ := by
      rw [HTTPServerConnection.send, hbuf]
      dsimp only
      rw [if_neg (by omega), if_neg (by omega)]
      rfl
    obtain rfl := Except.ok.inj (hs.symm.trans h)
    exact Or.inl rfl

/-- **A turn leaves fewer bytes**, or the connection is gone. -/
theorem Remains.taskWork {κ : Type} {onRequest : OnRequest} {t : Tick} {smw smw' : Smw κ}
    {evs : List Event} (hr : Remains n c) (ht : Takes t.send)
    (h : taskWork onRequest t (smw, c) = .ok ((smw', d), evs)) :
    Gone d ∨ (Keeps c d ∧ ∃ m, n = m + 1 ∧ Remains m d) := by
  rcases taskWork_keeps h with ⟨-, hd⟩ | ⟨hstate, -, hkeeps⟩
  · obtain ⟨-, rfl⟩ := Prod.ext_iff.mp hd
    exact Or.inl ⟨rfl, rfl⟩
  · obtain ⟨hsend, -⟩ := hr.resolve_left hstate
    rw [taskWork_of_send smw hsend] at h
    obtain ⟨o, ho, hd⟩ := Fallible.exists_of_map h
    obtain ⟨hpair, -⟩ := Prod.ext_iff.mp hd
    obtain ⟨-, rfl⟩ := Prod.ext_iff.mp hpair
    exact Or.inr ⟨hkeeps, hr.send hsend ht ho⟩

end HTTPServerConnection

namespace WeatherServer

variable {s s' : WeatherServer} {t : ServerTick} {ticks : List ServerTick}
  {evs evs' : List HTTPServerConnection.Event} {b n : ℕ} {c : ServedConnection}
  {own : List (SmwTask ServerContext)} {env : ℕ → ServerTick} {envs : List (ℕ → ServerTick)}
  {handles : List TaskHandle} {handle : TaskHandle}

/-! ## Whose turn it is -/

/-- The task of a connection is registered. -/
theorem Holds.mem_tasks (h : Holds own s evs) (hc : s.connections[b]? = some c)
    (htask : c.connection.task = some handle) : ⟨handle, .connection b⟩ ∈ s.smw.tasks := by
  rw [h.tasks]
  refine List.mem_append_right own (mem_entries.mpr ⟨b, c, hc, ?_⟩)
  rw [ServedConnection.entry, htask, Nat.zero_add]
  rfl

/-- A turn of another task leaves a connection as it is. -/
theorem Holds.stays (h : Holds own s evs) (hc : s.connections[b]? = some c)
    (ht : c.connection.task ≠ some t.task) (hw : s.work t = .ok (s', evs')) :
    s'.connections[b]? = some c := by
  obtain ⟨hlt, -⟩ := List.getElem?_eq_some_iff.mp hc
  rcases work_cases hw with ⟨rfl, -⟩ | ⟨-, -, rfl⟩ | ⟨b', hturn, hw⟩
  · exact hc
  · cases halloc : t.alloc.connection with
    | false => rwa [tcpServerAccept_of_no_connection halloc]
    | true =>
      rw [tcpServerAccept_of_connection halloc]
      exact (List.getElem?_append_left hlt).trans hc
  · obtain ⟨_, _, -, hconn, -⟩ := exists_of_connectionTaskWork hw
    obtain ⟨c', _, hc', htask, -⟩ := h.of_turn hturn
    have hne : b' ≠ b := by
      rintro rfl
      obtain rfl := Option.some.inj (hc.symm.trans hc')
      exact ht htask
    rwa [hconn, List.getElem?_set_ne hne]

theorem Holds.stays_run (h : Holds own s evs) (hc : s.connections[b]? = some c)
    (hticks : ∀ t ∈ ticks, c.connection.task ≠ some t.task)
    (hrun : Trace.run WeatherServer.work ticks s = .ok (s', evs')) :
    s'.connections[b]? = some c := by
  induction ticks generalizing s evs evs' with
  | nil =>
    obtain ⟨rfl, -⟩ := Prod.ext_iff.mp (Except.ok.inj hrun)
    exact hc
  | cons t ticks ih =>
    obtain ⟨_, _, _, hw, hrest, -⟩ := Trace.exists_of_run_cons hrun
    exact ih (h.work hw) (h.stays hc (hticks t (List.mem_cons_self ..)) hw)
      (fun t ht => hticks t (List.mem_cons_of_mem _ ht)) hrest

theorem mem_ticksFrom {turn : ℕ} (h : t ∈ ServerMemory.ticksFrom env turn handles) :
    t.task ∈ handles := by
  induction handles generalizing turn with
  | nil => cases h
  | cons handle handles ih =>
    rcases List.mem_cons.mp h with rfl | h
    · exact List.mem_cons_self ..
    · exact List.mem_cons_of_mem _ (ih h)

theorem ticksFrom_append (turn : ℕ) (handles handles' : List TaskHandle) :
    ServerMemory.ticksFrom env turn (handles ++ handles')
      = ServerMemory.ticksFrom env turn handles ++
        ServerMemory.ticksFrom env (turn + handles.length) handles' := by
  induction handles generalizing turn with
  | nil => rfl
  | cons handle handles ih =>
    rw [List.cons_append, ServerMemory.ticksFrom, ServerMemory.ticksFrom, ih, List.length_cons,
      Nat.add_right_comm, Nat.add_assoc]
    rfl

/-- The connection's turn, if its task is registered. -/
theorem Holds.exists_of_work (h : Holds own s evs) (hc : s.connections[b]? = some c)
    (htask : c.connection.task = some t.task) (hw : s.work t = .ok (s', evs')) :
    ∃ smw d, taskWork (WeatherServer.onRequest t c) t.connection (s.smw, c.connection)
        = .ok ((smw, d), evs') ∧ s'.connections[b]? = some ⟨d, c.context⟩ := by
  obtain ⟨hlt, -⟩ := List.getElem?_eq_some_iff.mp hc
  have hturn : s.turn t = some (.connection b) := by
    rw [turn, Keyed.find?_eq_some s.smw.tasks_nodup (k := t.task) (fun _ => beq_iff_eq)
      (h.mem_tasks hc htask) rfl]
    rfl
  rw [WeatherServer.work, hturn] at hw
  dsimp only at hw
  rw [connectionTaskWork, hc] at hw
  obtain ⟨⟨⟨smw, d⟩, _⟩, hwork, hr⟩ := Fallible.exists_of_map hw
  obtain ⟨rfl, rfl⟩ := Prod.ext_iff.mp hr
  exact ⟨smw, d, hwork, List.getElem?_set_self hlt⟩

/-! ## A pass -/

/-- **In a pass a connection has one turn**, and it is as that turn leaves it. -/
theorem Holds.exists_of_pass (h : Holds own s evs) (hc : s.connections[b]? = some c)
    (htask : c.connection.task = some handle) (hin : handle ∈ handles) (hnodup : handles.Nodup)
    (hrun : Trace.run WeatherServer.work (ServerMemory.ticksFrom env 0 handles) s
      = .ok (s', evs')) :
    ∃ (i : ℕ) (smw smw' : Smw ServerContext) (onRequest : OnRequest)
      (d : HTTPServerConnection) (evs₁ : List HTTPServerConnection.Event),
      taskWork onRequest (env i).connection (smw, c.connection) = .ok ((smw', d), evs₁) ∧
        s'.connections[b]? = some ⟨d, c.context⟩ := by
  obtain ⟨l₁, l₂, rfl⟩ := List.append_of_mem hin
  rw [List.nodup_middle, List.nodup_cons, List.mem_append, not_or] at hnodup
  obtain ⟨⟨hbefore, hafter⟩, -⟩ := hnodup
  rw [ticksFrom_append, ServerMemory.ticksFrom] at hrun
  obtain ⟨s₁, evs₁, _, hrun₁, hrest, -⟩ := Trace.exists_of_run_append hrun
  obtain ⟨s₂, evs₂, _, hw, hrun₂, -⟩ := Trace.exists_of_run_cons hrest
  have hc₁ : s₁.connections[b]? = some c := by
    refine h.stays_run hc (fun t ht heq => ?_) hrun₁
    exact hbefore (Option.some.inj (htask.symm.trans heq) ▸ mem_ticksFrom ht)
  have h₁ := h.run hrun₁
  obtain ⟨smw, d, hwork, hc₂⟩ := h₁.exists_of_work hc₁ htask hw
  refine ⟨_, _, _, _, d, _, hwork, (h₁.work hw).stays_run hc₂ (fun t ht heq => ?_) hrun₂⟩
  have hd : d.task = none ∨ d.task = some handle := by
    rcases taskWork_keeps hwork with ⟨-, hd⟩ | ⟨-, -, hkeeps⟩
    · obtain ⟨-, rfl⟩ := Prod.ext_iff.mp hd
      exact Or.inl rfl
    · exact Or.inr (hkeeps.task.trans htask)
  rcases hd with hd | hd
  · cases hd.symm.trans heq
  · exact hafter (Option.some.inj (hd.symm.trans heq) ▸ mem_ticksFrom ht)

/-- A connection that is gone stays so, and one of which `n` bytes remain is gone after more than
`n` passes. -/
theorem Holds.gone_of_passes (h : Holds own s evs) (hc : s.connections[b]? = some c)
    (hpasses : ServerMemory.Passes envs s ticks)
    (htakes : ∀ env ∈ envs, ∀ i, Takes (env i).connection.send)
    (hc' : Gone c.connection ∨
      (c.connection.task.isSome ∧ Remains n c.connection ∧ n < envs.length))
    (hrun : Trace.run WeatherServer.work ticks s = .ok (s', evs')) :
    ∃ d, s'.connections[b]? = some d ∧ Gone d.connection := by
  induction hpasses generalizing evs c n evs' with
  | nil s =>
    obtain ⟨rfl, -⟩ := Prod.ext_iff.mp (Except.ok.inj hrun)
    exact ⟨c, hc, hc'.resolve_right fun hno => Nat.not_lt_zero _ hno.2.2⟩
  | @cons env envs s handles ticks hold hnodup _ ih =>
    obtain ⟨s₁, evs₁, _, hrun₁, hrest, -⟩ := Trace.exists_of_run_append hrun
    have htakes' : ∀ env ∈ envs, ∀ i, Takes (env i).connection.send :=
      fun env henv => htakes env (List.mem_cons_of_mem _ henv)
    rcases hc' with hgone | ⟨htask, hremains, hlen⟩
    · have hc₁ := h.stays_run hc (fun t _ heq => by cases hgone.1.symm.trans heq) hrun₁
      exact ih (n := n) s₁ evs₁ hrun₁ (h.run hrun₁) hc₁ htakes' (Or.inl hgone) hrest
    · obtain ⟨handle, htask⟩ := Option.isSome_iff_exists.mp htask
      have hin : handle ∈ handles :=
        hold.subset (List.mem_map_of_mem (f := SmwTask.handle) (h.mem_tasks hc htask))
      obtain ⟨i, _, _, _, d, _, hwork, hc₁⟩ := h.exists_of_pass hc htask hin hnodup hrun₁
      rcases hremains.taskWork (htakes env (List.mem_cons_self ..) i) hwork with
        hgone | ⟨hkeeps, m, rfl, hm⟩
      · exact ih (n := n) s₁ evs₁ hrun₁ (h.run hrun₁) hc₁ htakes' (Or.inl hgone) hrest
      · have htask' : d.task.isSome := by
          rw [hkeeps.task, htask]
          rfl
        exact ih s₁ evs₁ hrun₁ (h.run hrun₁) hc₁ htakes'
          (Or.inr ⟨htask', hm, Nat.lt_of_succ_lt_succ hlen⟩) hrest

end WeatherServer

namespace ServerMemory

/-! ## The loop of `main` -/

theorem remains_of_alike {c d : ServedConnection} {n : ℕ} (h : c.Alike d)
    (hr : Remains n c.connection) : Remains n d.connection := by
  have hplain : Remains n c.connection.plain := hr
  rw [h.plain] at hplain
  exact hplain

theorem gone_of_alike {c d : ServedConnection} (h : c.Alike d) (hd : Gone d.connection) :
    Gone c.connection := by
  refine ⟨?_, h.fd.trans hd.2⟩
  rw [← Option.not_isSome_iff_eq_none, h.task, hd.1]
  exact Bool.false_ne_true

/-- **Every connection that is answered is let go of.**  In the loop of `main`, whatever the other
connections do and whatever is registered or removed meanwhile, a connection of whose response `n`
bytes remain is gone after more than `n` passes in each of which the socket takes a byte or fails
for good. -/
theorem drains {m₀ m m' : ServerMemory} {evs₀ evs : List HTTPServerConnection.Event}
    {envs₀ envs : List (ℕ → ServerTick)} {b n : ℕ} {c : ServedConnection} (hstart : start = .ok m₀)
    (hrun₀ : Trace.run step envs₀ m₀ = .ok (m, evs₀)) (hc : m.connections[b]? = some c)
    (htask : c.connection.task.isSome) (hremains : Remains n c.connection)
    (htakes : ∀ env ∈ envs, ∀ i, Takes (env i).connection.send) (hlen : n < envs.length)
    (hrun : Trace.run step envs m = .ok (m', evs)) :
    ∃ d, m'.connections[b]? = some d ∧ Gone d.connection := by
  obtain ⟨_, hm₀, hfollows₀⟩ := exists_start
  obtain rfl := Except.ok.inj (hm₀.symm.trans hstart)
  obtain ⟨ticks₀, -, hmatch₀⟩ := exists_passes hfollows₀ envs₀
  rcases hs : Trace.run WeatherServer.work ticks₀ WeatherServer.initiate with f | ⟨s, evs₁⟩ <;>
  rw [hrun₀, hs] at hmatch₀
  · exact hmatch₀.elim
  · obtain ⟨⟨l, hfollows⟩, -⟩ := hmatch₀
    obtain ⟨ticks, hpasses, hmatch⟩ := exists_passes hfollows envs
    rcases hs' : Trace.run WeatherServer.work ticks s with f | ⟨s', evs₂⟩ <;>
    rw [hrun, hs'] at hmatch
    · exact hmatch.elim
    · obtain ⟨⟨l', hfollows'⟩, -⟩ := hmatch
      rcases hfollows.alike.getElem? b with ⟨hnone, -⟩ | ⟨c', d, hc', hd, halike⟩
      · cases hc.symm.trans hnone
      · obtain rfl := Option.some.inj (hc.symm.trans hc')
        obtain ⟨d', hd', hgone⟩ := (WeatherServer.holds_initiate.run hs).gone_of_passes hd hpasses
          htakes (Or.inr ⟨halike.task ▸ htask, remains_of_alike halike hremains, hlen⟩) hs'
        rcases hfollows'.alike.getElem? b with ⟨-, hnone⟩ | ⟨e, e', he, he', halike'⟩
        · cases hd'.symm.trans hnone
        · obtain rfl := Option.some.inj (hd'.symm.trans he')
          exact ⟨e, he, gone_of_alike halike' hgone⟩

/-- A pass in which the sockets have room for so many bytes. -/
def roomPass (room : Fin (intMax + 1)) (turn : ℕ) : ServerTick :=
  ⟨turn, false, .all, ⟨.wouldBlock, .all, .accepts room⟩, fun _ => (none, 0), true⟩

/-- The homepage is sent but for its last byte; that is sent in one pass, and the next disposes of
the connection. -/
theorem drains_homepage : ∃ m₀ m evs₀ m' evs d, start = .ok m₀ ∧
    Trace.run step [homepagePass, roomPass ⟨527, by decide⟩] m₀ = .ok (m, evs₀) ∧
    Trace.run step [roomPass ⟨1, by decide⟩, roomPass ⟨1, by decide⟩] m = .ok (m', evs) ∧
    m'.connections[0]? = some d ∧ Gone d.connection := by
  obtain ⟨m₀, hm₀, -⟩ := exists_start
  have hnear : (start.bind (Trace.run step [homepagePass, roomPass ⟨527, by decide⟩])).toOption.map
      (fun r => r.1.connections.map fun c => decide (c.connection.state = .send ∧
        c.connection.writeSize = 528 ∧ c.connection.writeOffset = 527 ∧
          c.connection.writeBuffer.map List.length = some 528 ∧ c.connection.task.isSome))
      = some [true] := by
    decide +kernel
  have hfar : (start.bind (Trace.run step ([homepagePass, roomPass ⟨527, by decide⟩] ++
      [roomPass ⟨1, by decide⟩, roomPass ⟨1, by decide⟩]))).toOption.map
        (fun r => r.1.smw.tasks.list.size) = some 3 := by
    decide +kernel
  rw [hm₀] at hnear hfar
  obtain ⟨⟨m, evs₀⟩, hrun₀, hconns⟩ := Fallible.exists_of_toOption hnear
  obtain ⟨⟨m', evs₁⟩, hrun₁, -⟩ := Fallible.exists_of_toOption hfar
  obtain ⟨_, _, evs, hrun₂, hrun, -⟩ := Trace.exists_of_run_append hrun₁
  obtain ⟨rfl, -⟩ := Prod.ext_iff.mp (Except.ok.inj (hrun₀.symm.trans hrun₂))
  obtain ⟨c, hc, hcell⟩ := List.map_eq_singleton_iff.mp hconns
  obtain ⟨hstate, hsize, hoffset, hbuf, htask⟩ := of_decide_eq_true hcell
  obtain ⟨b, hbuf, hlen⟩ := Option.map_eq_some_iff.mp hbuf
  have hremains : Remains 1 c.connection :=
    Or.inr ⟨hstate, b, hbuf, by omega, by omega, by omega⟩
  have hzero : m.connections[0]? = some c := by
    rw [show m.connections = [c] from hc]
    rfl
  have htakes : ∀ env ∈ [roomPass ⟨1, by decide⟩, roomPass ⟨1, by decide⟩], ∀ i,
      Takes (env i).connection.send := by
    intro env henv _
    obtain rfl : env = roomPass ⟨1, by decide⟩ := by simpa using henv
    exact Nat.one_pos
  obtain ⟨d, hd, hgone⟩ := drains hm₀ hrun₀ hzero htask hremains htakes (by decide) hrun
  exact ⟨m₀, m, evs₀, m', evs, d, hm₀, hrun₀, hrun, hd, hgone⟩

end ServerMemory

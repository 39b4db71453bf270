import JustWeather.Server.WeatherServer.Accept

/-!
# Server/WeatherServer/Instances — the list of the instances

Every accept puts an instance on the list of the server, and nothing ever takes one off:
`http_server_connection_dispose` does not know the list.  So the list is one of the live connections
until the first of them is disposed, and not any more from then on (`tracks_iff`).
-/

open CLib

namespace WeatherServer

variable {s s' : WeatherServer} {t : ServerTick} {ticks : List ServerTick}
  {evs : List HTTPServerConnection.Event}

/-! ## What the list is to be -/

/-- The connection was not torn down: `tcp_client_dispose` leaves `-1` for its socket. -/
def Live (c : ServedConnection) : Prop := c.connection.fd ≠ -1

instance (c : ServedConnection) : Decidable (Live c) := inferInstanceAs (Decidable (_ ≠ _))

/-- The connections of the listed instances. -/
def tracked (s : WeatherServer) : List ℕ :=
  s.instances.filterMap fun i => (s.instanceBlocks[i]?).map WeatherServerInstance.connection

/-- **The server tracks its live connections**: one instance for each of them, none for one that was
torn down, and no more. -/
structure Tracks (s : WeatherServer) : Prop where
  count : ∀ b c, s.connections[b]? = some c → s.tracked.count b = if Live c then 1 else 0
  size : s.instances.length = s.connections.countP fun c => Live c

/-- The turn is that of a connection that is to be disposed. -/
def Disposes (t : ServerTick) (s : WeatherServer) : Prop :=
  ∃ b c, s.turn t = some (.connection b) ∧ s.connections[b]? = some c ∧
    c.connection.state = .dispose

/-! ## What the list is -/

/-- The instances are those of the connections, in the order they were accepted. -/
structure Lists (s : WeatherServer) : Prop where
  instances : s.instances = List.range s.connections.length
  instanceBlocks : s.instanceBlocks = (List.range s.connections.length).map WeatherServerInstance.mk

theorem Lists.tracked (h : Lists s) : s.tracked = List.range s.connections.length := by
  rw [WeatherServer.tracked, h.instances, h.instanceBlocks]
  calc (List.range s.connections.length).filterMap _
      = (List.range s.connections.length).filterMap some := by
        refine List.filterMap_congr fun i hi => ?_
        simp [List.mem_range.mp hi]
    _ = List.range s.connections.length := List.filterMap_some ..

/-- **A server that lists every connection tracks the live ones when they all are.** -/
theorem Lists.tracks_iff_live (h : Lists s) : s.Tracks ↔ ∀ c ∈ s.connections, Live c := by
  constructor
  · intro ht c hc
    obtain ⟨b, hb⟩ := List.getElem?_of_mem hc
    obtain ⟨hlt, -⟩ := List.getElem?_eq_some_iff.mp hb
    have hone : s.tracked.count b = 1 := by
      rw [h.tracked]
      exact List.count_eq_one_of_mem List.nodup_range (List.mem_range.mpr hlt)
    by_contra hdead
    rw [ht.count b c hb, if_neg hdead] at hone
    cases hone
  · refine fun hlive => ⟨fun b c hb => ?_, ?_⟩
    · obtain ⟨hlt, -⟩ := List.getElem?_eq_some_iff.mp hb
      rw [h.tracked, if_pos (hlive c (List.mem_of_getElem? hb))]
      exact List.count_eq_one_of_mem List.nodup_range (List.mem_range.mpr hlt)
    · rw [h.instances, List.length_range, eq_comm, List.countP_eq_length]
      exact fun c hc => decide_eq_true (hlive c hc)

theorem Lists.accept (h : Lists s) : Lists (s.tcpServerAccept .all) := by
  have hlen : s.instanceBlocks.length = s.connections.length := by simp [h.instanceBlocks]
  rw [tcpServerAccept_of_connection rfl]
  refine ⟨?_, ?_⟩
  · simp [AcceptAlloc.all, h.instances, hlen, List.range_succ]
  · simp [AcceptAlloc.all, h.instanceBlocks, List.range_succ]

theorem Lists.work (h : Lists s) (ht : t.alloc = .all) (hw : s.work t = .ok (s', evs)) :
    Lists s' := by
  rcases work_cases hw with ⟨rfl, -⟩ | ⟨-, -, rfl⟩ | ⟨b, -, hw⟩
  · exact h
  · rw [ht]
    exact h.accept
  · obtain ⟨c, d, -, hconn, hblocks, hinst, -⟩ := exists_of_connectionTaskWork hw
    have hlen : s'.connections.length = s.connections.length := by rw [hconn, List.length_set]
    exact ⟨by rw [hinst, hlen, h.instances], by rw [hblocks, hlen, h.instanceBlocks]⟩

/-- A connection in the place of one that is as alive. -/
theorem live_set {l : List ServedConnection} {c d : ServedConnection} {b : ℕ} (hc : l[b]? = some c)
    (h : Live d ↔ Live c) : (∀ e ∈ l.set b d, Live e) ↔ ∀ e ∈ l, Live e := by
  obtain ⟨hlt, -⟩ := List.getElem?_eq_some_iff.mp hc
  have hother : ∀ b' ≠ b, (l.set b d)[b']? = l[b']? := fun b' hne => List.getElem?_set_ne hne.symm
  constructor
  · intro hlive e he
    obtain ⟨b', hb'⟩ := List.getElem?_of_mem he
    by_cases heq : b' = b
    · rw [heq, hc] at hb'
      obtain rfl := Option.some.inj hb'
      exact h.mp (hlive d (List.mem_set hlt d))
    · exact hlive e (List.mem_of_getElem? ((hother b' heq).trans hb'))
  · intro hlive e he
    rcases List.mem_or_eq_of_mem_set he with he | rfl
    · exact hlive e he
    · exact h.mpr (hlive c (List.mem_of_getElem? hc))

/-- **A turn keeps the connections alive, unless it disposes one.** -/
theorem live_work (ht : t.alloc = .all) (hw : s.work t = .ok (s', evs)) :
    (∀ c ∈ s'.connections, Live c) ↔ ¬ Disposes t s ∧ ∀ c ∈ s.connections, Live c := by
  rcases work_cases hw with ⟨rfl, hturn⟩ | ⟨hturn, -, rfl⟩ | ⟨b, hturn, hw⟩
  · have hno : ¬ Disposes t s' := fun ⟨b, _, hb, _⟩ => hturn b hb
    simp [hno]
  · have hno : ¬ Disposes t s := by
      rintro ⟨b, _, hb, -⟩
      cases hturn.symm.trans hb
    have hnew : Live ⟨HTTPServerConnection.initiate s.sockets.opened
        (s.smw.createTask true true (.connection s.connections.length)).1,
        some s.instanceBlocks.length⟩ := by
      change (s.sockets.opened : ℤ) ≠ -1
      omega
    rw [ht, tcpServerAccept_of_connection rfl]
    simpa [hno, AcceptAlloc.all, or_imp, forall_and] using fun _ => hnew
  · obtain ⟨c, d, hc, hconn, -, -, -, hd⟩ := exists_of_connectionTaskWork hw
    rcases hd with ⟨hstate, hfd, -⟩ | ⟨hstate, hkeeps, -⟩
    · have hyes : Disposes t s := ⟨b, c, hturn, hc, hstate⟩
      obtain ⟨hlt, -⟩ := List.getElem?_eq_some_iff.mp hc
      simp only [hyes, not_true_eq_false, false_and, iff_false]
      exact fun hlive => hlive _ (hconn ▸ List.mem_set hlt _) hfd
    · have hno : ¬ Disposes t s := by
        rintro ⟨b', c', hturn', hc', hstate'⟩
        cases hturn.symm.trans hturn'
        obtain rfl := Option.some.inj (hc.symm.trans hc')
        exact hstate hstate'
      have hsame : Live { c with connection := d } ↔ Live c := by rw [Live, Live, hkeeps.fd]
      rw [hconn, live_set hc hsame]
      simp [hno]

/-- **The connections are alive as long as none was disposed.** -/
theorem live_of_run (halloc : ∀ t ∈ ticks, t.alloc = .all)
    (h : Trace.run work ticks s = .ok (s', evs)) :
    (∀ c ∈ s'.connections, Live c) ↔
      ¬ Trace.Visits work Disposes ticks s ∧ ∀ c ∈ s.connections, Live c :=
  Trace.run_iff_not_visits (I := fun s => ∀ c ∈ s.connections, Live c)
    (fun ht hw => live_work (halloc _ ht) hw) h

theorem lists_of_run (halloc : ∀ t ∈ ticks, t.alloc = .all) (hs : Lists s)
    (h : Trace.run work ticks s = .ok (s', evs)) : Lists s' := by
  refine Trace.run_invariant (P := fun ticks s _ => (∀ t ∈ ticks, t.alloc = .all) → Lists s)
    (fun _ => hs) (fun hlists hw hall => ?_) h halloc
  have hticks := List.forall_mem_append.mp hall
  exact (hlists hticks.1).work (hticks.2 _ (List.mem_singleton_self _)) hw

/-- **The server tracks its live connections exactly until it disposes one.** -/
theorem tracks_iff (halloc : ∀ t ∈ ticks, t.alloc = .all)
    (h : Trace.run work ticks initiate = .ok (s, evs)) :
    s.Tracks ↔ ¬ Trace.Visits work Disposes ticks initiate := by
  rw [(lists_of_run halloc ⟨rfl, rfl⟩ h).tracks_iff_live, live_of_run halloc h]
  simp [initiate]

/-- A turn in which the socket takes everything, with memory for all and no answer from the handler.
-/
def smoothTick (task : TaskHandle) (connection : HTTPServerConnection.Tick) : ServerTick where
  task
  accepts := true
  alloc := .all
  connection
  current := fun _ => (none, 0)
  response := true

theorem page_lt_intMax : 4096 < intMax + 1 := by decide

/-- The ticks of a connection that asks for the homepage, gets it, and is disposed. -/
def homepageTicks : List ServerTick :=
  [ smoothTick 0 HTTPServerConnection.idleTick,
    smoothTick 3 homepageTick,
    smoothTick 3 ⟨.wouldBlock, .all, .accepts ⟨4096, page_lt_intMax⟩⟩,
    smoothTick 3 HTTPServerConnection.idleTick ]

/-- A connection that was just accepted is tracked. -/
theorem tracks_accepted : ∃ s,
    Trace.run work [smoothTick 0 HTTPServerConnection.idleTick] initiate = .ok (s, []) ∧
      s.Tracks := by
  have hrun : Trace.run work [smoothTick 0 HTTPServerConnection.idleTick] initiate
      = .ok (initiate.tcpServerAccept .all, []) := rfl
  refine ⟨_, hrun, (tracks_iff (by simp [smoothTick]) hrun).mpr ?_⟩
  rintro (⟨b, c, -, hc, -⟩ | ⟨_, _, -, hv⟩)
  · simp [initiate] at hc
  · exact hv

/-- **A connection that is gone is tracked all the same.** -/
theorem tracks_homepage : ∃ s evs, Trace.run work homepageTicks initiate = .ok (s, evs) ∧
    s.instances = [0] ∧ s.connections.countP (fun c => Live c) = 0 ∧ ¬ s.Tracks := by
  have hrun : (Trace.run work homepageTicks initiate).toOption.map
      (fun r => (r.1.instances, r.1.connections.countP fun c => Live c)) = some ([0], 0) := by
    decide +kernel
  obtain ⟨⟨s, evs⟩, hrun, hend⟩ := Fallible.exists_of_toOption hrun
  obtain ⟨hinst, hlive⟩ := Prod.ext_iff.mp hend
  refine ⟨s, evs, hrun, hinst, hlive, fun ht => ?_⟩
  have hsize := ht.size
  rw [show s.instances = [0] from hinst, show s.connections.countP _ = 0 from hlive] at hsize
  cases hsize

end WeatherServer

import JustWeather.Lib.HttpClient.Completion

/-!
# Lib/HttpClient/Release — what a client has let go of when it is freed

Before it connects a client holds its task only, and `http_client_dispose` removes that.  From then
on it holds a socket, a `TCPClient` and buffers, which `http_client_work_done` alone gives up, all
but the block of the `TCPClient` (`released_iff`).
-/

open CLib

namespace HttpClientRun

open HttpClient

variable {κ : Type} {r r' r₁ : HttpClientRun κ} {t : HttpClientTick} {ticks : List HttpClientTick}
  {evs : List Event} {done initiated : Prop}

/-- **The client holds nothing**: its task is off the scheduler, its sockets are closed, each once,
`tcp_conn` and the buffers are `NULL`. -/
structure LetGo (r : HttpClientRun κ) : Prop where
  task : ∀ h, r.task = some h → ∀ t ∈ r.smw.tasks, t.handle ≠ h
  sockets : r.sockets.AllClosed
  tcpConn : r.tcpConn = none
  buffers : NoBuffers r.client

/-- **Nothing of the client is left**, its `TCPClient` included. -/
structure Released (r : HttpClientRun κ) : Prop extends LetGo r where
  tcpClients : ∀ b, r.tcpClients.cell b = none

/-- The tick connects the client. -/
def GetsConnected (t : HttpClientTick) (r : HttpClientRun κ) : Prop :=
  r.client.state = .connect ∧ ¬ TimedOut t r ∧ Initiates t

/-- The tick runs `http_client_work_done`. -/
def RunsDone (t : HttpClientTick) (r : HttpClientRun κ) : Prop :=
  r.client.state = .done ∧ ¬ TimedOut t r

theorem Idle.not_connected (h : Idle r) : ¬ Connected r := by
  rintro ⟨b, fd, hb, -⟩
  cases h.tcpConn.symm.trans hb

theorem Closed.not_idle (h : Closed r) : ¬ Idle r := by
  obtain ⟨b, v, hv⟩ := h.tcpClients
  exact fun hidle => by cases (hidle.tcpClients b).symm.trans hv

theorem Closed.not_connected (h : Closed r) : ¬ Connected r := by
  rintro ⟨b, fd, hb, -⟩
  cases h.tcpConn.symm.trans hb

/-- What a client in each phase has let go of at the end of a run, which runs
`http_client_work_done` or not, and connects or not. -/
structure Ends (r r' : HttpClientRun κ) (done initiated : Prop) : Prop where
  idle : Idle r → (Released r' ↔ ¬ initiated) ∧ (LetGo r' ↔ done ∨ ¬ initiated)
  connected : Connected r → ¬ initiated ∧ ¬ Released r' ∧ (LetGo r' ↔ done)
  closed : Closed r → ¬ initiated ∧ ¬ done ∧ ¬ Released r' ∧ LetGo r'

/-- The task is off the scheduler. -/
theorem task_dispose (r : HttpClientRun κ) {h : TaskHandle} (hh : r.task = some h)
    {t : SmwTask κ} (ht : t ∈ r.dispose.smw.tasks) : t.handle ≠ h := by
  rw [dispose, hh] at ht
  exact Smw.handle_ne_of_mem_destroyTask ht

theorem ends_dispose (r : HttpClientRun κ) : Ends r r.dispose False False := by
  have htask : ∀ h, r.dispose.task = some h → ∀ t ∈ r.dispose.smw.tasks, t.handle ≠ h :=
    fun h hh t ht => task_dispose r hh ht
  refine ⟨fun h => ?_, fun h => ?_, fun h => ?_⟩
  · have hgone : LetGo r.dispose := ⟨htask, h.sockets, h.tcpConn, h.buffers⟩
    exact ⟨⟨fun _ => not_false, fun _ => ⟨hgone, h.tcpClients⟩⟩, fun _ => Or.inr not_false,
      fun _ => hgone⟩
  · have hheld : ¬ LetGo r.dispose := by
      intro hgone
      obtain ⟨b, fd, hb, -⟩ := h
      cases hgone.tcpConn.symm.trans hb
    exact ⟨not_false, fun hr => hheld hr.toLetGo, fun hgone => hheld hgone, False.elim⟩
  · obtain ⟨b, v, hv⟩ := h.tcpClients
    refine ⟨not_false, not_false, fun hr => ?_, htask, h.sockets, h.tcpConn, h.buffers⟩
    cases (hr.tcpClients b).symm.trans hv

theorem Ends.of_setTimer (h : Ends (r.setTimer t) r' done initiated) :
    Ends r r' done initiated :=
  ⟨fun hr => h.idle (hr.setTimer t), fun hr => h.connected (hr.setTimer t),
    fun hr => h.closed (hr.setTimer t)⟩

/-- **A step goes before what follows it.** -/
theorem Steps.ends (hphase : Phase r) (hs : Steps t r r₁ evs) (h : Ends r₁ r' done initiated) :
    Ends r r' (r.client.state = .done ∨ done)
      (r.client.state = .connect ∧ Initiates t ∨ initiated) := by
  have hafter := hs.after
  rw [After] at hafter
  rw [Phase] at hphase
  cases hstate : r.client.state <;> rw [hstate] at hafter hphase
  case init =>
    refine ⟨fun _ => ?_, fun hr => absurd hr hphase.not_connected,
      fun hr => absurd hphase hr.not_idle⟩
    simpa using h.idle hafter
  case connect =>
    refine ⟨fun _ => ?_, fun hr => absurd hr (Idle.not_connected hphase),
      fun hr => absurd hphase hr.not_idle⟩
    by_cases hi : Initiates t
    · obtain ⟨-, hheld, hgone⟩ := h.connected (by simpa [hi] using hafter)
      simp [hi, hheld, hgone]
    · simpa [hi] using h.idle (by simpa [hi] using hafter)
  case done =>
    refine ⟨fun hr => absurd hphase hr.not_connected, fun _ => ?_,
      fun hr => absurd hphase hr.not_connected⟩
    obtain ⟨hinitiated, -, hheld, hgone⟩ := h.closed hafter
    simp [hinitiated, hheld, hgone]
  case dispose => exact absurd hafter not_false
  all_goals
    refine ⟨fun hr => absurd hphase hr.not_connected, fun _ => ?_,
      fun hr => absurd hphase hr.not_connected⟩
    simpa using h.connected hafter

theorem ends_of_run (hphase : Phase r) (hlive : r.freed = false)
    (h : Trace.run work ticks r = .ok (r', evs)) (hfreed : r'.freed = true) :
    Ends r r' (Trace.Visits work RunsDone ticks r) (Trace.Visits work GetsConnected ticks r) := by
  induction ticks generalizing r evs with
  | nil =>
    obtain ⟨rfl, -⟩ := Prod.ext_iff.mp (Except.ok.inj h)
    cases hlive.symm.trans hfreed
  | cons t ticks ih =>
    obtain ⟨r₁, evs₁, evs₂, hstep, hrest, rfl⟩ := Trace.exists_of_run_cons h
    simp only [Trace.visits_cons_of_ok hstep]
    obtain ⟨-, ⟨hlate, rfl, rfl⟩ | ⟨hlate, hstate, rfl, rfl⟩ | ⟨hlate, hs⟩⟩ :=
      work_cases hphase hstep
    · obtain ⟨rfl, rfl, -⟩ := run_of_freed rfl hrest
      simpa [RunsDone, GetsConnected, hlate] using ends_dispose r
    · obtain ⟨rfl, rfl, -⟩ := run_of_freed rfl hrest
      simpa [RunsDone, GetsConnected, hstate] using (ends_dispose (r.setTimer t)).of_setTimer
    · have hends := hs.ends hphase (ih hs.phase (hs.freed.trans hlive) hrest)
      simpa [RunsDone, GetsConnected, hlate] using hends

/-- **Nothing of a client is left exactly when it was never connected**; and its `TCPClient` apart,
exactly when `http_client_work_done` ran or it was never connected. -/
theorem released_iff (hr : Initial r) (h : Trace.run work ticks r = .ok (r', evs))
    (hfreed : r'.freed = true) :
    (Released r' ↔ ¬ Trace.Visits work GetsConnected ticks r) ∧
      (LetGo r' ↔ Trace.Visits work RunsDone ticks r ∨
        ¬ Trace.Visits work GetsConnected ticks r) := by
  have hphase : Phase r := by
    rw [Phase, hr.state]
    exact hr.idle
  exact (ends_of_run hphase hr.live h hfreed).idle hr.idle

/-- A URL without a host is reported, and the client let go of. -/
theorem released_badUrl :
    ∃ r' evs, Trace.run work [.smooth 0, .smooth 0]
        (zeroed (bytes "/") true 10000 0 (Smw.init : Smw Unit)) = .ok (r', evs) ∧
      (Released r' ↔ ¬ Trace.Visits work GetsConnected [.smooth 0, .smooth 0]
        (zeroed (bytes "/") true 10000 0 (Smw.init : Smw Unit))) ∧
      (LetGo r' ↔ Trace.Visits work RunsDone [.smooth 0, .smooth 0]
          (zeroed (bytes "/") true 10000 0 (Smw.init : Smw Unit)) ∨
        ¬ Trace.Visits work GetsConnected [.smooth 0, .smooth 0]
          (zeroed (bytes "/") true 10000 0 (Smw.init : Smw Unit))) := by
  have hrun : (Trace.run work [.smooth 0, .smooth 0]
      (zeroed (bytes "/") true 10000 0 (Smw.init : Smw Unit))).toOption.map
        (fun r => r.1.freed) = some true := by
    decide +kernel
  obtain ⟨⟨r', evs⟩, hrun, hfreed⟩ := Fallible.exists_of_toOption hrun
  exact ⟨r', evs, hrun, released_iff (initial_zeroed _ _ _ _ _) hrun hfreed⟩

/-- **A refused connection leaves its socket open**: `ECONNREFUSED` is what the socket reports. -/
theorem released_refused :
    ∃ r' evs, Trace.run work [.smooth 0, .smooth 0,
        { HttpClientTick.smooth 0 with soError := some 111 }, .smooth 0]
        (zeroed (bytes "a") true 10000 0 (Smw.init : Smw Unit)) = .ok (r', evs) ∧
      r'.freed = true ∧ r'.sockets = ⟨1, []⟩ ∧ ¬ LetGo r' ∧ ¬ Released r' := by
  have hrun : (Trace.run work [.smooth 0, .smooth 0,
      { HttpClientTick.smooth 0 with soError := some 111 }, .smooth 0]
      (zeroed (bytes "a") true 10000 0 (Smw.init : Smw Unit))).toOption.map
        (fun r => (r.1.freed, r.1.sockets)) = some (true, ⟨1, []⟩) := by
    decide +kernel
  obtain ⟨⟨r', evs⟩, hrun, hend⟩ := Fallible.exists_of_toOption hrun
  obtain ⟨hfreed, hsockets⟩ := Prod.ext_iff.mp hend
  have hheld : ¬ LetGo r' := by
    intro hgone
    have hclosed := hgone.sockets
    rw [show r'.sockets = ⟨1, []⟩ from hsockets] at hclosed
    simpa using hclosed.1 0 Nat.zero_lt_one
  exact ⟨r', evs, hrun, hfreed, hsockets, hheld, fun hr => hheld hr.toLetGo⟩

end HttpClientRun

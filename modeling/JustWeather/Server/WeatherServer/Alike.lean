import JustWeather.Lib.HttpServerConnection.Faults
import JustWeather.Server.WeatherServer.Holdings
import JustWeather.Server.WeatherServer.Isolation

/-!
# Server/WeatherServer/Alike — servers that differ in the handles of their tasks

A connection does not look at the handle of its task.  Two servers that differ in such handles only
take the same turns and fault alike (`matches_connectionTaskWork`), and neither faults but in a
connection that is there (`own_of_run`).
-/

open CLib Fallible

/-- The connections differ at most in the handle of their task. -/
structure ServedConnection.Alike (c d : ServedConnection) : Prop where
  plain : c.connection.plain = d.connection.plain
  fd : c.connection.fd = d.connection.fd
  task : c.connection.task.isSome = d.connection.task.isSome
  context : c.context = d.context

theorem ServedConnection.Alike.state {c d : ServedConnection} (h : c.Alike d) :
    c.connection.state = d.connection.state := by
  change c.connection.plain.state = d.connection.plain.state
  rw [h.plain]

namespace WeatherServer

variable {s s' : WeatherServer} {t : ServerTick} {b : ℕ} {c d : ServedConnection}

/-- **The servers differ at most in their tasks.** -/
structure Alike (s s' : WeatherServer) : Prop where
  sockets : s.sockets = s'.sockets
  connections : List.Forall₂ ServedConnection.Alike s.connections s'.connections
  instanceBlocks : s.instanceBlocks = s'.instanceBlocks
  instances : s.instances = s'.instances

/-- Alike connections are at the same numbers. -/
theorem Alike.getElem? (h : Alike s s') (b : ℕ) :
    (s.connections[b]? = none ∧ s'.connections[b]? = none) ∨
      ∃ c d, s.connections[b]? = some c ∧ s'.connections[b]? = some d ∧ c.Alike d := by
  have hlen := h.connections.length_eq
  rcases Nat.lt_or_ge b s.connections.length with hlt | hge
  · exact Or.inr ⟨_, _, List.getElem?_eq_getElem hlt, List.getElem?_eq_getElem (hlen ▸ hlt),
      h.connections.get _ _⟩
  · exact Or.inl ⟨List.getElem?_eq_none hge, List.getElem?_eq_none (hlen ▸ hge)⟩

theorem Alike.state (h : Alike s s') (hc : s.connections[b]? = some c)
    (hd : s'.connections[b]? = some d) : c.connection.state = d.connection.state := by
  rcases h.getElem? b with ⟨hnone, -⟩ | ⟨c', d', hc', hd', halike⟩
  · cases hc.symm.trans hnone
  · obtain rfl := Option.some.inj (hc.symm.trans hc')
    obtain rfl := Option.some.inj (hd.symm.trans hd')
    exact halike.state

/-- Alike servers are alike after an accept, whatever task it got. -/
theorem Alike.accept (h : Alike s s') (alloc : AcceptAlloc) (smw smw' : Smw ServerContext)
    {r r' : Option TaskHandle} (hr : r.isSome = r'.isSome) : Alike
      ⟨smw, s.sockets.socket.2, s.connections ++ [⟨HTTPServerConnection.initiate s.sockets.opened r,
          if alloc.instanceBlock then some s.instanceBlocks.length else none⟩],
        s.instanceBlocks ++ if alloc.instanceBlock then [⟨s.connections.length⟩] else [],
        s.instances ++ if alloc.instanceBlock && alloc.instanceNode then
          [s.instanceBlocks.length] else []⟩
      ⟨smw', s'.sockets.socket.2, s'.connections ++
          [⟨HTTPServerConnection.initiate s'.sockets.opened r',
            if alloc.instanceBlock then some s'.instanceBlocks.length else none⟩],
        s'.instanceBlocks ++ if alloc.instanceBlock then [⟨s'.connections.length⟩] else [],
        s'.instances ++ if alloc.instanceBlock && alloc.instanceNode then
          [s'.instanceBlocks.length] else []⟩ := by
  rw [h.sockets, h.connections.length_eq, h.instanceBlocks, h.instances]
  exact ⟨rfl, List.rel_append h.connections (.cons ⟨rfl, rfl, hr, rfl⟩ .nil), rfl, rfl⟩

theorem forall₂_set {α β : Type} {R : α → β → Prop} {as : List α} {bs : List β} {a : α} {b : β}
    (h : List.Forall₂ R as bs) (hab : R a b) (i : ℕ) :
    List.Forall₂ R (as.set i a) (bs.set i b) := by
  induction h generalizing i with
  | nil => exact .nil
  | cons hcons _ ih =>
    cases i with
    | zero => exact .cons hab (by assumption)
    | succ i => exact .cons hcons (ih i)

/-- **Alike connections take the same step.** -/
theorem matches_taskWork (h : c.Alike d) (t : ServerTick) (smw smw' : Smw ServerContext) :
    Matches (fun r r' => (⟨r.1.2, c.context⟩ : ServedConnection).Alike ⟨r'.1.2, d.context⟩ ∧
        r.2.map HTTPServerConnection.Event.plain = r'.2.map HTTPServerConnection.Event.plain)
      (HTTPServerConnection.taskWork (onRequest t c) t.connection (smw, c.connection))
      (HTTPServerConnection.taskWork (onRequest t d) t.connection (smw', d.connection)) := by
  have hcall : onRequest t c = onRequest t d := by rw [onRequest, onRequest, h.context]
  have hblind : HTTPServerConnection.Blind (onRequest t d) := d.blind_onRequest t.forConnection
  have hc := HTTPServerConnection.view_taskWork_plain hblind t.connection smw smw c.connection
  have hd := HTTPServerConnection.view_taskWork_plain hblind t.connection smw smw' d.connection
  rw [h.plain, hd] at hc
  rw [hcall]
  rcases hx : HTTPServerConnection.taskWork (onRequest t d) t.connection (smw, c.connection)
    with f | r <;>
  rcases hy : HTTPServerConnection.taskWork (onRequest t d) t.connection (smw', d.connection)
    with f' | r' <;> rw [hx, hy] at hc
  · exact (Except.error.inj hc).symm
  · cases hc
  · cases hc
  · obtain ⟨hplain, hevs⟩ := Prod.ext_iff.mp (Except.ok.inj hc)
    have hheld : r.1.2.fd = r'.1.2.fd ∧ r.1.2.task.isSome = r'.1.2.task.isSome := by
      rcases HTTPServerConnection.taskWork_keeps hx with ⟨hs, hr⟩ | ⟨hs, -, hkeeps⟩ <;>
      rcases HTTPServerConnection.taskWork_keeps hy with ⟨hs', hr'⟩ | ⟨hs', -, hkeeps'⟩
      · rw [(Prod.ext_iff.mp hr).2, (Prod.ext_iff.mp hr').2]
        exact ⟨rfl, rfl⟩
      · exact absurd (h.state.symm.trans hs) hs'
      · exact absurd (h.state.trans hs') hs
      · rw [hkeeps.fd, hkeeps'.fd, hkeeps.task, hkeeps'.task]
        exact ⟨h.fd, h.task⟩
    exact ⟨⟨hplain.symm, hheld.1, hheld.2, h.context⟩, hevs.symm⟩

/-- **So do connections of alike servers.** -/
theorem matches_connectionTaskWork (h : Alike s s') (t : ServerTick) (b : ℕ) :
    Matches (fun r r' => Alike r.1 r'.1 ∧
        r.2.map HTTPServerConnection.Event.plain = r'.2.map HTTPServerConnection.Event.plain)
      (s.connectionTaskWork t b) (s'.connectionTaskWork t b) := by
  rw [connectionTaskWork, connectionTaskWork]
  rcases h.getElem? b with ⟨hc, hd⟩ | ⟨c, d, hc, hd, halike⟩
  · rw [hc, hd]
    rfl
  · rw [hc, hd]
    refine (matches_taskWork halike t s.smw s'.smw).map fun {r r'} hr => ⟨⟨?_, ?_, ?_, ?_⟩, hr.2⟩
    · dsimp only
      rw [halike.state, h.sockets, halike.fd]
    · exact forall₂_set h.connections hr.1 b
    · exact h.instanceBlocks
    · exact h.instances

/-- **A server faults in one of its connections**: the one whose turn it is is there. -/
theorem own_of_run {ticks : List ServerTick} {f : Fault}
    (h : Trace.run work ticks initiate = .error f) : HTTPServerConnection.Own f := by
  obtain ⟨pre, t, post, s, evs, rfl, hrun, hstep⟩ := Trace.run_error h
  rw [work] at hstep
  split at hstep
  case h_5 b hturn =>
    obtain ⟨c, fd, hc, -⟩ := (holds_initiate.run hrun).of_turn hturn
    rw [connectionTaskWork, hc] at hstep
    dsimp only at hstep
    rcases hwork : HTTPServerConnection.taskWork (onRequest t c) t.connection (s.smw, c.connection)
      with f' | r <;> rw [hwork] at hstep
    · obtain rfl := Except.error.inj hstep
      exact HTTPServerConnection.own_of_taskWork hwork
    · cases hstep
  all_goals cases hstep

end WeatherServer

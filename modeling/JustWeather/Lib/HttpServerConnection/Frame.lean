import JustWeather.Lib.HttpServerConnection.Steps

/-!
# Lib/HttpServerConnection/Frame — what a tick leaves alone

Receiving and sending touch neither the scheduler nor what ties the connection to it and to its
socket; `http_server_connection_dispose` does (`taskWork_keeps`).  And `receive` never gives a
connection up (`receive_state`).
-/

open CLib

namespace HTTPServerConnection

variable {onRequest : OnRequest} {a : ReceiveAlloc} {t : Tick} {c d : HTTPServerConnection}
  {o : Outcome}

/-- The connection has its socket and its task as before. -/
structure Keeps (c d : HTTPServerConnection) : Prop where
  fd : d.fd = c.fd
  task : d.task = c.task

theorem Keeps.refl (c : HTTPServerConnection) : Keeps c c := ⟨rfl, rfl⟩

theorem Keeps.trans {e : HTTPServerConnection} (h : Keeps c d) (h' : Keeps d e) : Keeps c e :=
  ⟨h'.fd.trans h.fd, h'.task.trans h.task⟩

theorem keeps_dispatched (c : HTTPServerConnection) : Keeps c c.dispatched := by
  rw [dispatched]
  split <;> exact ⟨rfl, rfl⟩

theorem keeps_respond (r : Option Response) (c : HTTPServerConnection) : Keeps c (c.respond r) := by
  cases r <;> exact ⟨rfl, rfl⟩

theorem latch_keeps (h : c.latch a = .ok (some d)) :
    Keeps c d ∧ d.state = c.state ∧ d.writeBuffer = c.writeBuffer := by
  rw [latch] at h
  split at h
  · split at h
    · cases h
    · obtain rfl := Option.some.inj (Except.ok.inj h)
      exact ⟨.refl c, rfl, rfl⟩
    · split at h
      · obtain rfl := Option.some.inj (Except.ok.inj h)
        exact ⟨⟨rfl, rfl⟩, rfl, rfl⟩
      · cases h
  · obtain rfl := Option.some.inj (Except.ok.inj h)
    exact ⟨.refl c, rfl, rfl⟩

theorem finish_keeps (h : c.finish onRequest a = .ok o) : Keeps c o.connection ∧
    (o.connection.state = c.state ∨ o.connection.state = .send) := by
  rcases finish_cases onRequest a c with ⟨hf, -⟩ | ⟨hf, -⟩ | ⟨hf, -⟩ | ⟨hf, -⟩
  · cases hf.symm.trans h
    exact ⟨.refl c, Or.inl rfl⟩
  · rw [hf, request_dispatched] at h
    rcases hr : onRequest c.dispatched with f | r
    · rw [hr] at h
      cases h
    · rw [hr] at h
      cases h
      exact ⟨(keeps_dispatched c).trans (keeps_respond r _), Or.inr (by simp)⟩
  · cases hf.symm.trans h
  · cases hf.symm.trans h
    exact ⟨⟨rfl, rfl⟩, Or.inl rfl⟩

/-- **What `receive` does to a connection**: it leaves all but the read buffer as it is, or it looks
for the head in the buffer and finishes the message. -/
theorem exists_of_receive {r : Recv chunkSize} (h : c.receive onRequest a r = .ok o) :
    (∃ buf, o.connection = { c with readBuffer := buf }) ∨
      ∃ buf d, { c with readBuffer := buf }.latch a = .ok (some d) ∧
        d.finish onRequest a = .ok o := by
  rw [receive] at h
  dsimp only at h
  split at h
  · obtain rfl := Except.ok.inj h
    exact Or.inl ⟨c.readBuffer, rfl⟩
  · split at h
    · obtain rfl := Except.ok.inj h
      exact Or.inl ⟨c.readBuffer, rfl⟩
    · split at h
      · split at h
        · cases h
        · rename_i b hgrow
          obtain ⟨rfl, -⟩ := of_grow hgrow
          rw [process] at h
          split at h
          · cases h
          · obtain rfl := Except.ok.inj h
            exact Or.inl ⟨_, rfl⟩
          · rename_i d hlatch
            exact Or.inr ⟨_, d, hlatch, h⟩
      · obtain rfl := Except.ok.inj h
        exact Or.inl ⟨c.readBuffer, rfl⟩

theorem receive_keeps {r : Recv chunkSize} (h : c.receive onRequest a r = .ok o) :
    Keeps c o.connection ∧ (o.connection.state = c.state ∨ o.connection.state = .send) := by
  rcases exists_of_receive h with ⟨buf, ho⟩ | ⟨buf, d, hlatch, hfinish⟩
  · rw [ho]
    exact ⟨⟨rfl, rfl⟩, Or.inl rfl⟩
  · obtain ⟨hkeeps, hstate, -⟩ := latch_keeps hlatch
    obtain ⟨hkeeps', hstate'⟩ := finish_keeps hfinish
    exact ⟨⟨hkeeps'.fd.trans hkeeps.fd, hkeeps'.task.trans hkeeps.task⟩, hstate ▸ hstate'⟩

theorem send_keeps {s : Send} (h : c.send s = .ok o) : Keeps c o.connection := by
  rcases send_cases s c with ⟨hs, -⟩ | ⟨hs, -⟩ | ⟨-, hs⟩ | ⟨b, n, -, -, -, hs⟩
  · cases hs.symm.trans h
    exact .refl c
  · cases hs.symm.trans h
  · cases hs.symm.trans h
    exact ⟨rfl, rfl⟩
  · cases hs.symm.trans h
    exact ⟨rfl, rfl⟩

/-- **A tick disposes the connection, or leaves the scheduler alone** and the connection its socket
and its task. -/
theorem taskWork_keeps {κ : Type} {smw smw' : Smw κ} {evs : List Event}
    (h : taskWork onRequest t (smw, c) = .ok ((smw', d), evs)) :
    (c.state = .dispose ∧ (smw', d) = c.dispose smw) ∨
      (c.state ≠ .dispose ∧ smw' = smw ∧ Keeps c d) := by
  cases hstate : c.state with
  | dispose =>
    rw [taskWork_of_dispose smw hstate] at h
    exact Or.inl ⟨rfl, (Prod.ext_iff.mp (Except.ok.inj h)).1.symm⟩
  | send =>
    rw [taskWork_of_send smw hstate] at h
    rcases ho : c.send t.send with f | o
    · rw [ho] at h
      cases h
    · rw [ho] at h
      cases h
      exact Or.inr ⟨by simp, rfl, send_keeps ho⟩
  | receive =>
    rw [taskWork_of_receive smw hstate] at h
    rcases ho : c.receive onRequest t.alloc t.recv with f | o
    · rw [ho] at h
      cases h
    · rw [ho] at h
      cases h
      exact Or.inr ⟨by simp, rfl, (receive_keeps ho).1⟩

/-- **A connection that receives is not given up in that tick.** -/
theorem receive_state {κ : Type} {smw smw' : Smw κ} {evs : List Event} (hc : c.state = .receive)
    (h : taskWork onRequest t (smw, c) = .ok ((smw', d), evs)) :
    d.state = .receive ∨ d.state = .send := by
  rw [taskWork_of_receive smw hc] at h
  rcases ho : c.receive onRequest t.alloc t.recv with f | o
  · rw [ho] at h
    cases h
  · rw [ho] at h
    cases h
    exact hc ▸ (receive_keeps ho).2

end HTTPServerConnection

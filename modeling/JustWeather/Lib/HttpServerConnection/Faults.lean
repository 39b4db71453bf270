import JustWeather.Lib.HttpServerConnection.Steps

/-!
# Lib/HttpServerConnection/Faults — what goes wrong in a connection

A tick of a connection reads and writes its own buffers, and calls its callback.  So where it faults
it faults by its own doing: it uses no block that was released, and no loop of it is without an end.
-/

open CLib

namespace HTTPServerConnection

variable {c : HTTPServerConnection} {onRequest : OnRequest} {f : Fault}

/-- A fault that is not of the task list: no use of what was released, no walk without an end. -/
def Own (f : Fault) : Prop := f ≠ .notLive ∧ f ≠ .endless

theorem own_of_request (h : c.request onRequest = .error f) : Own f := by
  rw [request] at h
  split at h
  · obtain rfl := Except.error.inj h
    exact ⟨by simp, by simp⟩
  · cases h

theorem own_of_finish {a : ReceiveAlloc} (h : c.finish onRequest a = .error f) : Own f := by
  rcases finish_cases onRequest a c with ⟨hf, -⟩ | ⟨hf, -⟩ | ⟨hf, -⟩ | ⟨hf, -⟩ <;> rw [hf] at h
  · cases h
  · exact own_of_request h
  · obtain rfl := Except.error.inj h
    exact ⟨by simp, by simp⟩
  · cases h

theorem own_of_latch {a : ReceiveAlloc} (hlt : c.readBuffer.length < sizeMod)
    (h : c.latch a = .error f) : Own f := by
  rcases Nat.eq_zero_or_pos c.bodyStart with hc | hc
  · rcases Nat.lt_or_ge c.readBuffer.length 4 with hshort | h4
    · rw [latch, if_pos hc, endOfHeaders_short hshort] at h
      obtain rfl := Except.error.inj h
      exact ⟨by simp, by simp⟩
    · rcases latch_cases a hc h4 hlt with ⟨hl, -⟩ | ⟨_, hl, -⟩ | ⟨hl, -⟩ | ⟨hl, -⟩ <;> rw [hl] at h
      · cases h
      · cases h
      · cases h
      · obtain rfl := Except.error.inj h
        exact ⟨by simp, by simp⟩
  · rw [latch, if_neg (Nat.ne_of_gt hc)] at h
    cases h

theorem own_of_receive {a : ReceiveAlloc} {r : Recv chunkSize}
    (h : c.receive onRequest a r = .error f) : Own f := by
  rw [receive] at h
  dsimp only at h
  split at h
  · cases h
  · split at h
    · cases h
    · split at h
      · rcases hgrow : c.grow (tcpClientRead r).2 with f' | d <;> rw [hgrow] at h
        · rw [grow] at hgrow
          split at hgrow
          · cases hgrow
          · obtain rfl := Except.error.inj hgrow
            obtain rfl := Except.error.inj h
            exact ⟨by simp, by simp⟩
        · obtain ⟨rfl, hlt⟩ := of_grow hgrow
          dsimp only at h
          rw [process] at h
          split at h
          · rename_i hlatch
            obtain rfl := Except.error.inj h
            exact own_of_latch hlt hlatch
          · cases h
          · exact own_of_finish h
      · cases h

/-- **A connection faults by its own doing.** -/
theorem own_of_taskWork {κ : Type} {t : Tick} {smw : Smw κ}
    (h : taskWork onRequest t (smw, c) = .error f) : Own f := by
  cases hc : c.state with
  | dispose =>
    rw [taskWork_of_dispose smw hc] at h
    cases h
  | receive =>
    rw [taskWork_of_receive smw hc] at h
    rcases hr : c.receive onRequest t.alloc t.recv with f' | o <;> rw [hr] at h
    · obtain rfl := Except.error.inj h
      exact own_of_receive hr
    · cases h
  | send =>
    rw [taskWork_of_send smw hc] at h
    rcases send_cases t.send c with ⟨hs, -⟩ | ⟨hs, -⟩ | ⟨-, hs⟩ | ⟨_, _, -, -, -, hs⟩
      <;> rw [hs] at h
    · cases h
    · obtain rfl := Except.error.inj h
      exact ⟨by simp, by simp⟩
    · cases h
    · cases h

end HTTPServerConnection

import JustWeather.Lib.HttpClient.Bounds
import JustWeather.Lib.HttpServerConnection.Bounds

/-!
# Lib/ReadBounds — where the two readers stay inside their buffers

The server's reader of requests and the client's reader of responses leave their buffers in the same
two ways: the search for the head when the first read has fewer than four bytes, and the copy of the
body when its end is beyond `size_t`.  On every other stream both stay inside.
-/

open CLib MessageHead

/-! ## The search for the head -/

/-- **The search for the head stays inside the buffer exactly when the first chunk stored has four
bytes**, on the server and on the client; and then, as long as `int` can index what arrives, its
index does not overflow either. -/
theorem search_inside_iff {κ : Type} :
    (∀ (onRequest : HTTPServerConnection.OnRequest) (smw : Smw κ) (fd : ℤ)
      (task : Option TaskHandle) (ticks : List HTTPServerConnection.Tick),
      (HTTPServerConnection.connectionRun onRequest smw fd task ticks ≠ .error .readPastEnd ↔
        LongFirst (ticks.map HTTPServerConnection.stored)) ∧
      (LongFirst (ticks.map HTTPServerConnection.stored) →
        (HTTPServerConnection.received ticks).length < intMax →
        HTTPServerConnection.connectionRun onRequest smw fd task ticks ≠ .error .intOverflow)) ∧
    ∀ (c₀ : HttpClient) (ticks : List HttpClient.ReadTick), c₀.Fresh →
      (HttpClient.readRun c₀ ticks ≠ .error .readPastEnd ↔ LongFirst (HttpClient.kept ticks)) ∧
      (LongFirst (HttpClient.kept ticks) → (HttpClient.received ticks).length < intMax →
        HttpClient.readRun c₀ ticks ≠ .error .intOverflow) := by
  refine ⟨fun onRequest smw fd task ticks => ⟨⟨fun h => ?_, fun h => ?_⟩, fun h => ?_⟩,
    fun c₀ ticks hf => ⟨⟨fun h => ?_, fun h => ?_⟩, fun h => ?_⟩⟩
  · by_contra hshort
    exact h (HTTPServerConnection.run_of_not_longFirst hshort)
  · exact (HTTPServerConnection.run_of_longFirst h).1
  · exact (HTTPServerConnection.run_of_longFirst h).2
  · by_contra hshort
    exact h (HttpClient.run_of_not_longFirst hf hshort)
  · exact (HttpClient.run_of_longFirst hf h).1
  · exact (HttpClient.run_of_longFirst hf h).2

/-- On a client that is about to read four bytes. -/
theorem search_inside_of_four :
    HttpClient.readRun .idle [HttpClient.readTick (bytes "HTTP") (by decide) (by decide)]
      ≠ .error .readPastEnd :=
  ((search_inside_iff (κ := Unit)).2 .idle _ HttpClient.fresh_idle).1.mpr (by decide)

/-- A first read of one byte. -/
theorem search_outside_of_one :
    HTTPServerConnection.connectionRun HTTPServerConnection.silent (Smw.init : Smw Unit) 4 (some 0)
        [HTTPServerConnection.readTick (bytes "G") (by decide) (by decide)] = .error .readPastEnd ∧
      HttpClient.readRun .idle [HttpClient.readTick (bytes "H") (by decide) (by decide)]
        = .error .readPastEnd :=
  ⟨HTTPServerConnection.run_of_not_longFirst (by decide),
    HttpClient.run_of_not_longFirst HttpClient.fresh_idle (by decide)⟩

/-! ## The body -/

/-- A run of the server that copies no byte beyond the buffer, and calls the callback only once the
buffer holds the body. -/
def CopiesInside {κ : Type} (onRequest : HTTPServerConnection.OnRequest) (smw : Smw κ) (fd : ℤ)
    (task : Option TaskHandle) (ticks : List HTTPServerConnection.Tick) : Prop :=
  HTTPServerConnection.connectionRun onRequest smw fd task ticks ≠ .error .copyPastEnd ∧
  ∀ x evs, HTTPServerConnection.connectionRun onRequest smw fd task ticks = .ok (x, evs) →
    ∀ c, .request c ∈ evs → c.bodyStart + c.contentLen ≤ c.readBuffer.length

/-- **A body is copied inside its two blocks, and a request handed on with its body there, exactly
when the body ends where `size_t` can say so** — whatever the callback does and whichever `malloc`
fails; on a stream whose first chunk is too short for the search nothing is copied at all. -/
theorem bodies_inside_iff {κ : Type} :
    (∀ (smw : Smw κ) (fd : ℤ) (task : Option TaskHandle) (ticks : List HTTPServerConnection.Tick),
      (∀ onRequest ticks', ticks'.map HTTPServerConnection.stored
          <+: ticks.map HTTPServerConnection.stored →
        CopiesInside onRequest smw fd task ticks') ↔
      (LongFirst (ticks.map HTTPServerConnection.stored) →
        NoWrap HTTPServerConnection.readRequest (HTTPServerConnection.received ticks))) ∧
    ∀ (c₀ : HttpClient) (ticks : List HttpClient.ReadTick), c₀.Fresh →
      ((∀ ticks', HttpClient.kept ticks' <+: HttpClient.kept ticks →
        HttpClient.readRun c₀ ticks' ≠ .error .copyPastEnd) ↔
      (LongFirst (HttpClient.kept ticks) →
        NoWrap HttpClient.scanStatus (HttpClient.kept ticks).flatten)) := by
  refine ⟨fun smw fd task ticks => ⟨fun h hlong => ?_, fun h onRequest ticks' hpre => ?_⟩,
    fun c₀ ticks hf => ⟨fun h hlong => ?_, fun h ticks' hpre => ?_⟩⟩
  · by_contra hwrap
    obtain ⟨ticks', hpre, hbad⟩ :=
      HTTPServerConnection.exists_run_of_wrap smw fd task hlong hwrap
    obtain ⟨hcopy, hreq⟩ := h HTTPServerConnection.silent ticks' hpre
    rcases hbad with hbad | ⟨x, evs, c, hok, hc, hlt⟩
    · exact hcopy hbad
    · exact absurd (hreq x evs hok c hc) (Nat.not_le.mpr hlt)
  · exact HTTPServerConnection.run_of_noWrap (noWrap_of_isPrefix hpre h)
  · by_contra hwrap
    have hgo : ∀ t ∈ HttpClient.plenty ticks, HttpClient.goesOn t = true :=
      fun t ht => HttpClient.goesOn_of_mem_plenty ht
    have halloc : ∀ t ∈ HttpClient.plenty ticks, t.alloc = .all := by
      intro t ht
      obtain ⟨u, -, rfl⟩ := List.mem_map.mp ht
      rfl
    obtain ⟨pre, ⟨rest, hrest⟩, hbad⟩ := HttpClient.exists_run_of_wrap hf hgo halloc
      (by rwa [HttpClient.kept_plenty])
      (by rwa [HttpClient.received_eq hgo, HttpClient.kept_plenty])
    have hgo' : ∀ t ∈ pre, HttpClient.goesOn t = true := by
      intro t ht
      refine hgo t ?_
      rw [← hrest]
      exact List.mem_append_left _ ht
    refine h pre ?_ hbad
    rw [← HttpClient.kept_plenty ticks, ← hrest, HttpClient.kept_append hgo',
      HttpClient.kept_eq hgo']
    exact List.prefix_append _ _
  · exact HttpClient.run_of_noWrap hf (noWrap_of_isPrefix hpre h)

/-- On a client that is about to read a response with a body of two bytes. -/
theorem bodies_inside_of_two :
    HttpClient.readRun .idle
        [HttpClient.readTick (bytes "HTTP/1.1 200 OK\r\nContent-Length: 2\r\n\r\nhi")
          (by decide) (by decide)]
      ≠ .error .copyPastEnd :=
  ((bodies_inside_iff (κ := Unit)).2 .idle
    [HttpClient.readTick (bytes "HTTP/1.1 200 OK\r\nContent-Length: 2\r\n\r\nhi")
      (by decide) (by decide)]
    HttpClient.fresh_idle).mpr (fun _ h hs => by
      obtain rfl : _ = h := Option.some.inj (hs.symm.trans rfl).symm
      decide) _ (List.prefix_refl _)

/-- A request and a response that announce a body of `2 ^ 64 - 1` bytes and end there. -/
theorem bodies_outside_of_max :
    HTTPServerConnection.connectionRun HTTPServerConnection.silent (Smw.init : Smw Unit) 4 (some 0)
        [HTTPServerConnection.readTick
          (bytes "POST / HTTP/1.1\r\nContent-Length: 18446744073709551615\r\n\r\n")
          (by decide) (by decide)] = .error .copyPastEnd ∧
      (∃ x c, HTTPServerConnection.connectionRun HTTPServerConnection.silent (Smw.init : Smw Unit) 4
          (some 0)
          [HTTPServerConnection.readTick
            (bytes "GET / HTTP/1.1\r\nContent-Length: 18446744073709551615\r\n\r\n")
            (by decide) (by decide)] = .ok (x, [.request c]) ∧
        c.readBuffer.length < c.bodyStart + c.contentLen) ∧
      HttpClient.readRun .idle
        [HttpClient.readTick
          (bytes "HTTP/1.1 200 OK\r\nContent-Length: 18446744073709551615\r\n\r\n")
          (by decide) (by decide)] = .error .copyPastEnd := by
  refine ⟨by rfl, ⟨_, _, by rfl, by decide⟩, by rfl⟩

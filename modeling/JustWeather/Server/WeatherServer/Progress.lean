import JustWeather.Server.WeatherServer.Serving

/-!
# Server/WeatherServer/Progress — a connection that nothing holds up

When the scheduler comes to a connection, and what its turn needs is there, the connection stores
the chunk of the request that has come, and is answered with the last of them (`exists_receive`);
and each `send` brings it closer to the end of its response (`exists_send`).
-/

open CLib MessageHead HTTPServerConnection

namespace ServedConnection

variable {c : ServedConnection} {s bs full : List Byte} {k : ConnectionTick}
  {head : MessageHead RequestFields} {r : HTTPServerConnection}
  {evs : List HTTPServerConnection.Event}

/-- A turn that brings a chunk of a request, with memory for everything. -/
def chunkTurn (bs : List Byte) (hne : bs ≠ []) (hle : bs.length ≤ chunkSize) : ConnectionTick :=
  ⟨readTick bs hne hle, fun _ => (none, 500), true⟩

/-- A turn in which the socket has room. -/
def sendTurn : ConnectionTick :=
  ⟨⟨.wouldBlock, .all, .accepts ⟨intMax, Nat.lt_succ_self _⟩⟩, fun _ => (none, 500), true⟩

theorem work_eq (h : taskWork (c.onRequest k) k.tick ((Smw.init : Smw Unit), c.connection)
      = .ok ((Smw.init, r), evs)) :
    c.work k = .ok (⟨r.plain, c.context⟩, evs.map Event.plain) := by
  rw [work, h]
  rfl

/-- A turn of a connection that waits, and waits on. -/
theorem waits_of_work {d : ServedConnection} (hw : Waits (· = .all) 0 none s c.connection)
    (hcomp : c.connection.complete = false) (hlt : s.length < sizeMod) (ha : k.tick.alloc = .all)
    (h : c.work k = .ok (d, evs)) (hstate : d.connection.state = .receive) :
    Waits (· = .all) 0 none (s ++ HTTPServerConnection.stored k.tick) d.connection ∧
      d.connection.complete = false ∧
      (s ++ HTTPServerConnection.stored k.tick).length < sizeMod := by
  obtain ⟨y, evs₀, hwork, hd, -⟩ := exists_of_work h
  by_cases hnil : HTTPServerConnection.stored k.tick = []
  · cases (hw.tick_of_stored_nil hnil _).symm.trans hwork
    rw [hnil, List.append_nil, hd, plain_of_waits hw]
    exact ⟨hw, hcomp, hlt⟩
  · rcases Nat.lt_or_ge (s ++ HTTPServerConnection.stored k.tick).length sizeMod with hlt' | hge
    · by_cases h4 : 4 ≤ (s ++ HTTPServerConnection.stored k.tick).length
      · rcases hw.tick (c.onRequest k) ha hnil h4 hlt' (Smw.init : Smw Unit) with
          ⟨e, he, hw', hcomp' | ⟨a, rfl, hfail | hfail⟩⟩ | ⟨e, he, hw', -⟩ | ⟨e, he, -⟩ | ⟨he, -⟩
        · cases he.symm.trans hwork
          rw [hd, plain_of_waits hw']
          exact ⟨hw', hcomp', hlt'⟩
        · cases hfail
        · cases hfail
        · rw [request_dispatched] at he
          rcases ho : c.onRequest k e.dispatched with f | o <;> rw [ho] at he <;>
            cases he.symm.trans hwork
          rw [hd] at hstate
          cases ((respond_state o e.dispatched).trans (dispatched_state e)).symm.trans hstate
        · cases he.symm.trans hwork
        · cases he.symm.trans hwork
      · cases (hw.tick_of_short (c.onRequest k) hnil (Nat.not_le.mp h4) _).symm.trans hwork
    · cases (hw.tick_of_full hnil hge _).symm.trans hwork

/-- **A connection that waits has not got its request yet**, if there was memory for everything. -/
theorem waits_of_run {context : Option ℕ} {ks : List ConnectionTick}
    (h : Trace.run work ks (fresh context) = .ok (c, evs)) (ha : ∀ k ∈ ks, k.tick.alloc = .all)
    (hstate : c.connection.state = .receive) :
    Waits (· = .all) 0 none (stored ks) c.connection ∧ c.connection.complete = false ∧
      (stored ks).length < sizeMod := by
  refine Trace.run_invariant (P := fun ks c _ => (∀ k ∈ ks, k.tick.alloc = .all) →
    c.connection.state = .receive → Waits (· = .all) 0 none (stored ks) c.connection ∧
      c.connection.complete = false ∧ (stored ks).length < sizeMod) ?_ ?_ h ha hstate
  · exact fun _ _ => ⟨waits_initiate, rfl, by decide⟩
  · intro ks c d evs evs' k ih hwork ha hstate
    have hreceive : c.connection.state = .receive := by
      by_contra hne
      obtain ⟨y, evs₀, hwork, hd, -⟩ := exists_of_work hwork
      rcases taskWork_of_ne_receive (c.onRequest k) k.tick (Smw.init : Smw Unit) hne with
        ⟨smw, e, evs₁, he, hne', -⟩ | he
      · cases he.symm.trans hwork
        rw [hd] at hstate
        exact hne' hstate
      · cases he.symm.trans hwork
    obtain ⟨hw, hcomp, hlt⟩ := ih (fun k hk => ha k (List.mem_append_left _ hk)) hreceive
    rw [stored_concat]
    exact waits_of_work hw hcomp hlt (ha k (by simp)) hwork hstate

/-- **A request that is all head.** -/
structure Bare (full : List Byte) (head : MessageHead RequestFields) : Prop where
  headed : headOf readRequest full = some head
  contentLen : head.contentLen = 0
  bodyStart : head.bodyStart = full.length
  lt : full.length < 2 ^ 63

/-- The connection is complete when it holds the whole request. -/
theorem Bare.complete_iff (hb : Bare full head) (hpre : s <+: full)
    (hw : Waits (· = .all) 0 none s r) :
    r.complete = true ↔ s = full := by
  have hmod : sizeMod = 2 ^ 64 := rfl
  have hlt := hb.lt
  obtain ⟨rest, hrest⟩ := hpre
  have hlen := congrArg List.length hrest
  rw [List.length_append] at hlen
  constructor
  · intro hcomp
    obtain ⟨a, head', -, hs, -, hle⟩ := hw.of_complete hcomp
    have hsome := headOf_append hs rest
    rw [hrest, hb.headed] at hsome
    obtain rfl := Option.some.inj hsome
    rw [hb.contentLen, hb.bodyStart, sizeAdd_of_lt (by omega)] at hle
    have hnil : rest = [] := List.length_eq_zero_iff.mp (by omega)
    rw [← hrest, hnil, List.append_nil]
  · rintro rfl
    obtain ⟨-, hnone | ⟨a, rfl, h | h⟩⟩ | ⟨a, head', -, hs, rfl⟩ := hw
    · cases hb.headed.symm.trans hnone
    · cases h
    · cases h
    · obtain rfl := Option.some.inj (hb.headed.symm.trans hs)
      have hstart := bodyStart_bounds hs
      refine HTTPServerConnection.complete_iff.mpr ⟨?_, ?_⟩
      · change sizeAdd head.bodyStart head.contentLen ≤ s.length
        rw [hb.contentLen, hb.bodyStart, sizeAdd_of_lt (by omega)]
        omega
      · change 0 < head.bodyStart
        omega

/-- **Each chunk of a bare request is stored**: the last has it answered, the
others make the connection wait on. -/
theorem exists_receive (hb : Bare full head) (hw : Waits (· = .all) 0 none s c.connection)
    (hctx : c.context.isSome)
    (hpath : head.fields.requestPath.length ≤ 255) (hne : bs ≠ []) (hle : bs.length ≤ chunkSize)
    (hpre : s ++ bs <+: full) (h4 : 4 ≤ (s ++ bs).length) : ∃ d evs,
      c.work (chunkTurn bs hne hle) = .ok (d, evs) ∧
        if s ++ bs = full then d.connection.state = .send ∧ d.connection.writeBuffer.isSome
        else d.connection.state = .receive := by
  have hmod : sizeMod = 2 ^ 64 := rfl
  have hle' : (s ++ bs).length ≤ full.length := hpre.length_le
  have hlt := hb.lt
  have hstored : HTTPServerConnection.stored (chunkTurn bs hne hle).tick = bs := rfl
  have hcomplete : ∀ {d}, Waits (· = .all) 0 none (s ++ bs) d →
      (d.complete = true ↔ s ++ bs = full) :=
    fun hd => hb.complete_iff hpre hd
  have htick := hw.tick (c.onRequest (chunkTurn bs hne hle)) (t := (chunkTurn bs hne hle).tick)
    rfl (by rwa [hstored]) (by rwa [hstored]) (by rw [hstored]; omega) (Smw.init : Smw Unit)
  rw [hstored] at htick
  rcases htick with ⟨d, hd, hw', hcomp⟩ | ⟨d, hd, hw', hcomp, -⟩ | ⟨d, -, hw', hcomp, hbad⟩ |
    ⟨-, -, hbad⟩
  · have hmore : s ++ bs ≠ full := by
      intro heq
      rcases hcomp with hcomp | ⟨a, rfl, h | h⟩
      · cases hcomp.symm.trans ((hcomplete hw').mpr heq)
      · cases h
      · cases h
    refine ⟨_, _, work_eq hd, ?_⟩
    rw [if_neg hmore]
    exact hw'.state
  · have hwhole := (hcomplete hw').mp hcomp
    obtain ⟨a, head', rfl, hs, rfl, -⟩ := hw'.of_complete hcomp
    rw [hwhole, hb.headed] at hs
    obtain rfl := Option.some.inj hs
    -- the callback has the request, with memory for a response
    obtain ⟨i, hi⟩ := Option.isSome_iff_exists.mp hctx
    have hcall : c.onRequest (chunkTurn bs hne hle)
        = WeatherServerInstance.onRequest (fun _ => (none, 500)) true := by
      rw [onRequest, hi]
      rfl
    obtain ⟨w, hw⟩ : ∃ w, WeatherServerInstance.onRequest (fun _ => (none, 500)) true
        ((filled 0 none (s ++ bs)).setHead .all head).dispatched = .ok (some w) :=
      WeatherServerInstance.exists_of_request (dispatched_method _) (dispatched_requestPath _) hpath
        (by rw [dispatched_readBuffer, hw'.readBuffer]; omega) (fun _ _ _ h => by cases h)
    rw [request_dispatched, hcall, hw] at hd
    refine ⟨_, _, work_eq (hcall ▸ hd), ?_⟩
    rw [if_pos hwhole]
    exact ⟨dispatched_state _, rfl⟩
  · have hwhole := (hcomplete hw').mp hcomp
    obtain ⟨a, head', rfl, hs, rfl, -⟩ := hw'.of_complete hcomp
    rw [hwhole, hb.headed] at hs
    obtain rfl := Option.some.inj hs
    change (s ++ bs).length < head.bodyStart + head.contentLen at hbad
    rw [hwhole, hb.contentLen, hb.bodyStart] at hbad
    omega
  · obtain ⟨rest, hrest⟩ := hpre
    cases (hbad rest).symm.trans (hrest ▸ hb.headed)

/-- A `send` that meets room takes what there is room for. -/
theorem send_accepts {b : List Byte} (room : Fin (intMax + 1)) (hbuf : r.writeBuffer = some b)
    (hmore : r.writeOffset < r.writeSize) (hle : r.writeSize ≤ b.length) :
    ∃ n bs, n = min room.val (r.writeSize - r.writeOffset) ∧ r.send (.accepts room) = .ok ⟨0,
      { r with
        writeOffset := r.writeOffset + n
        state := if r.writeSize ≤ r.writeOffset + n then .dispose else r.state },
      [.accepted bs]⟩ := by
  have hlen : (((b.drop r.writeOffset).take (r.writeSize - r.writeOffset)).take room.val).length
      = min room.val (r.writeSize - r.writeOffset) := by
    simp only [List.length_take, List.length_drop]
    omega
  refine ⟨_, ((b.drop r.writeOffset).take (r.writeSize - r.writeOffset)).take room.val, rfl, ?_⟩
  rw [send, hbuf]
  dsimp only
  rw [if_neg (by omega), if_neg (by omega), tcpClientWrite]
  dsimp only
  rw [if_neg (by simp), advance_eq, hlen, Int.toNat_natCast, hbuf]

/-- **Each turn with room in the socket brings the response closer to its end.** -/
theorem exists_send {b : List Byte} (hstate : c.connection.state = .send)
    (hbuf : c.connection.writeBuffer = some b)
    (hmore : c.connection.writeOffset < c.connection.writeSize)
    (hle : c.connection.writeSize ≤ b.length) : ∃ d evs, c.work sendTurn = .ok (d, evs) ∧
      d.connection.writeBuffer = c.connection.writeBuffer ∧
      d.connection.writeSize = c.connection.writeSize ∧
      c.connection.writeOffset < d.connection.writeOffset ∧
      (d.connection.state = .send ∨ d.connection.writeSize ≤ d.connection.writeOffset) := by
  obtain ⟨n, bs, hn, hs⟩ := send_accepts ⟨intMax, Nat.lt_succ_self _⟩ hbuf hmore hle
  have hwork : taskWork (c.onRequest sendTurn) sendTurn.tick ((Smw.init : Smw Unit), c.connection)
      = .ok ((Smw.init, { c.connection with
        writeOffset := c.connection.writeOffset + n
        state := if c.connection.writeSize ≤ c.connection.writeOffset + n then .dispose
          else c.connection.state }), [.accepted bs]) := by
    rw [taskWork_of_send _ hstate]
    exact congrArg (Except.map _) hs
  have hroom : 0 < intMax := by decide
  refine ⟨_, _, work_eq hwork, rfl, rfl, ?_, ?_⟩
  · change c.connection.writeOffset < c.connection.writeOffset + n
    dsimp only at hn
    omega
  · change (if c.connection.writeSize ≤ c.connection.writeOffset + n then _ else c.connection.state)
      = HttpServerConnectionState.send ∨ c.connection.writeSize ≤ c.connection.writeOffset + n
    split
    · exact Or.inr (by assumption)
    · exact Or.inl hstate

end ServedConnection

namespace WeatherServer

variable {s : WeatherServer} {t : ServerTick} {b : ℕ} {c d : ServedConnection}
  {evs : List HTTPServerConnection.Event}

/-- The scheduler has a task of connection number `b`. -/
def Registered (b : ℕ) (s : WeatherServer) : Prop :=
  ∃ task : TaskHandle, (s.smw.tasks.find? (·.handle == task)).map SmwTask.context
    = some (.connection b)

/-- **What a connection does alone it does in the server**, and the scheduler keeps its task as long
as it is not disposed of. -/
theorem exists_work (hturn : s.turn t = some (.connection b)) (hc : s.connections[b]? = some c)
    (h : c.plain.work t.forConnection = .ok (d, evs)) : ∃ s' c' evs', s.work t = .ok (s', evs') ∧
      evs'.map Event.plain = evs ∧ s'.connections[b]? = some c' ∧ c'.plain = d ∧
      (c.connection.state ≠ .dispose → s'.smw = s.smw) := by
  obtain ⟨hlt, -⟩ := List.getElem?_eq_some_iff.mp hc
  obtain ⟨⟨s', evs'⟩, hwork⟩ : ∃ r, s.connectionTaskWork t b = .ok r := by
    have hview := view_taskWork_plain (c.blind_onRequest t.forConnection) t.connection
      (Smw.init : Smw Unit) s.smw c.connection
    rw [ServedConnection.work, ServedConnection.onRequest_plain] at h
    obtain ⟨v, hv, -⟩ := Fallible.exists_of_map h
    obtain ⟨r, hr, -⟩ := Fallible.exists_of_map (hview.symm.trans hv)
    rw [connectionTaskWork, hc]
    exact Fallible.exists_map_iff.mpr ⟨r, hr⟩
  obtain ⟨c', hplain, hconn⟩ := work_of_connectionTaskWork hc hwork
  obtain ⟨hd, hevs⟩ := Prod.ext_iff.mp (Except.ok.inj (hplain.symm.trans h))
  refine ⟨s', c', evs', ?_, hevs, ?_, hd, fun hstate => ?_⟩
  · rw [work, hturn]
    exact hwork
  · rw [hconn, List.getElem?_set_self hlt]
  · obtain ⟨c₀, d₀, hc₀, -, -, -, -, ⟨hdisp, -⟩ | ⟨-, -, hsmw⟩⟩ :=
      exists_of_connectionTaskWork hwork
    · obtain rfl := Option.some.inj (hc.symm.trans hc₀)
      exact absurd hdisp hstate
    · exact hsmw

end WeatherServer

import JustWeather.Lib.HttpServerConnection.Steps

/-!
# Lib/HttpServerConnection/Bounds — where a run of a connection leaves its buffer

A run that is still receiving waits on the bytes it stored (`run_waits`), so one more step can do
only a few things (`run_step`).  Two of them are out of bounds: the search of a buffer of fewer
than four bytes (`run_of_not_longFirst`), and the copy of a body whose end wrapped
(`exists_run_of_wrap`).
-/

open CLib MessageHead

namespace HTTPServerConnection

variable {κ : Type} {onRequest : OnRequest} {A : ReceiveAlloc → Prop} {fd : ℤ}
  {task : Option TaskHandle} {smw smw' : Smw κ} {c : HTTPServerConnection} {ticks : List Tick}
  {t : Tick} {evs : List Event} {f : Fault}

/-- A run from an accepted socket. -/
def connectionRun (onRequest : OnRequest) (smw : Smw κ) (fd : ℤ) (task : Option TaskHandle)
    (ticks : List Tick) : Except Fault ((Smw κ × HTTPServerConnection) × List Event) :=
  Trace.run (taskWork onRequest) ticks (smw, initiate fd task)

/-! ## Runs that still receive -/

theorem flatten_map_stored (ticks : List Tick) : (ticks.map stored).flatten = received ticks := rfl

/-- Where a chunk was stored, at least four bytes were. -/
theorem length_received_concat (hlong : LongFirst ((ticks ++ [t]).map stored))
    (hne : stored t ≠ []) : 4 ≤ (received ticks ++ stored t).length := by
  rcases hlong.length_flatten with hnil | h4
  · rw [flatten_map_stored, received_append, received_singleton] at hnil
    exact absurd (List.append_eq_nil_iff.mp hnil).2 hne
  · rwa [flatten_map_stored, received_append, received_singleton] at h4

theorem longFirst_of_concat (hlong : LongFirst ((ticks ++ [t]).map stored)) :
    LongFirst (ticks.map stored) := by
  rw [List.map_append] at hlong
  exact hlong.of_append

/-- **A run that still receives waits on what it stored, and nothing has happened yet.** -/
theorem run_waits (hA : ∀ t ∈ ticks, A t.alloc) (hlong : LongFirst (ticks.map stored))
    (h : connectionRun onRequest smw fd task ticks = .ok ((smw', c), evs))
    (hc : c.state = .receive) :
    smw' = smw ∧ Waits A fd task (received ticks) c ∧ (received ticks).length < sizeMod ∧
      evs = [] := by
  refine Trace.run_invariant (P := fun js x evs => (∀ t ∈ js, A t.alloc) →
    LongFirst (js.map stored) → x.2.state = .receive →
      x.1 = smw ∧ Waits A fd task (received js) x.2 ∧ (received js).length < sizeMod ∧ evs = [])
    ?_ ?_ h hA hlong hc
  · intro _ _ _
    exact ⟨rfl, waits_initiate, by decide, rfl⟩
  · rintro js ⟨smw₁, c₁⟩ ⟨smw₂, c₂⟩ evs₁ evs₂ t ih hstep hA hlong hc
    by_cases hc₁ : c₁.state = .receive
    · obtain ⟨rfl, hw, hlt, rfl⟩ :=
        ih (fun u hu => hA u (by simp [hu])) (longFirst_of_concat hlong) hc₁
      rw [received_append, received_singleton]
      rcases hw.step onRequest (hA t (by simp)) hlt
        (length_received_concat hlong) smw₁ with
        ⟨d, hd, hw', hlt'⟩ | ⟨d, r, hd, -⟩ | ⟨f, hd, -⟩
      · cases hd.symm.trans hstep
        exact ⟨rfl, hw', hlt', rfl⟩
      · -- a dispatch leaves the state that receives
        cases hd.symm.trans hstep
        simp at hc
      · cases hd.symm.trans hstep
    · rcases taskWork_of_ne_receive onRequest t smw₁ hc₁ with
        ⟨_, _, _, hd, hne, -⟩ | hd
      · cases hd.symm.trans hstep
        exact absurd hc hne
      · cases hd.symm.trans hstep

/-- **What one more step of a run can do while the connection receives.** -/
theorem run_step (hlong : LongFirst ((ticks ++ [t]).map stored))
    (h : connectionRun onRequest smw fd task ticks = .ok ((smw', c), evs)) :
    (∃ x evs', taskWork onRequest t (smw', c) = .ok (x, evs') ∧
      ∀ e, .request e ∈ evs' → ∃ d, Waits (fun _ => True) fd task (received (ticks ++ [t])) d ∧
        d.complete = true ∧ e = d.dispatched) ∨
    ∃ f, taskWork onRequest t (smw', c) = .error f ∧
      (f = .sendPastEnd ∨ ReceiveFault (fun _ => True) fd task (received (ticks ++ [t])) f) := by
  by_cases hc : c.state = .receive
  · obtain ⟨rfl, hw, hlt, -⟩ :=
      run_waits (A := fun _ => True) (fun _ _ => trivial) (longFirst_of_concat hlong) h hc
    rw [received_append, received_singleton]
    rcases hw.step onRequest trivial hlt (length_received_concat hlong) smw' with
      ⟨d, hd, -⟩ | ⟨d, r, hd, -, hw', hcomp⟩ | ⟨f, hd, hf⟩
    · exact Or.inl ⟨_, _, hd, by simp⟩
    · refine Or.inl ⟨_, _, hd, fun e he => ⟨d, hw', hcomp, ?_⟩⟩
      simpa using he
    · exact Or.inr ⟨f, hd, Or.inr hf⟩
  · rcases taskWork_of_ne_receive onRequest t smw' hc with
      ⟨_, _, _, hd, -, hno⟩ | hd
    · exact Or.inl ⟨_, _, hd, fun e he => absurd he (hno e)⟩
    · exact Or.inr ⟨_, hd, Or.inl rfl⟩

/-! ## Searching past the end -/

/-- A run in which nothing is stored does nothing. -/
theorem run_of_stored_nil (h : ∀ chunk ∈ ticks.map stored, chunk = []) :
    connectionRun onRequest smw fd task ticks = .ok ((smw, initiate fd task), []) := by
  rw [connectionRun]
  induction ticks with
  | nil => rfl
  | cons t ticks ih =>
    have ht : stored t = [] := h _ (by simp)
    have hw : Waits (fun _ => True) fd task [] (initiate fd task) := waits_initiate
    rw [Trace.run_cons_of_ok (hw.tick_of_stored_nil ht smw),
      ih fun chunk hc => h chunk (List.mem_cons_of_mem _ hc)]
    rfl

/-- **A first chunk of fewer than four bytes is searched past its end.** -/
theorem run_of_not_longFirst (h : ¬ LongFirst (ticks.map stored)) :
    connectionRun onRequest smw fd task ticks = .error .readPastEnd := by
  obtain ⟨pre, chunk, post, hmap, hpre, hne, hlt⟩ := exists_of_not_longFirst h
  obtain ⟨us, us', rfl, rfl, hus⟩ := List.map_eq_append_iff.mp hmap
  obtain ⟨t, vs, rfl, rfl, rfl⟩ := List.map_eq_cons_iff.mp hus
  have hw : Waits (fun _ => True) fd task [] (initiate fd task) := waits_initiate
  exact Trace.run_append_error (run_of_stored_nil hpre) (hw.tick_of_short onRequest hne hlt smw) vs

/-- A run whose first chunk is long enough is never searched past its end, and loses the index of
the search only on a buffer `int` cannot index. -/
theorem run_of_longFirst (hlong : LongFirst (ticks.map stored)) :
    connectionRun onRequest smw fd task ticks ≠ .error .readPastEnd ∧
    ((received ticks).length < intMax →
      connectionRun onRequest smw fd task ticks ≠ .error .intOverflow) := by
  have key : ∀ f, connectionRun onRequest smw fd task ticks = .error f →
      f ≠ .readPastEnd ∧ (f = .intOverflow → intMax ≤ (received ticks).length) := by
    intro f hf
    obtain ⟨pre, t, post, ⟨smw', c⟩, evs, rfl, hpre, hstep⟩ := Trace.run_error hf
    rw [List.append_cons, List.map_append] at hlong
    rcases run_step hlong.of_append hpre with ⟨x, evs', hok, -⟩ | ⟨g, hg, hfault⟩
    · cases hok.symm.trans hstep
    · cases hg.symm.trans hstep
      rw [List.append_cons, received_append, List.length_append]
      rcases hfault with rfl | hfault
      · exact ⟨by simp, by simp⟩
      · rcases hfault with _ | hbig | _ | _
        · exact ⟨by simp, by simp⟩
        · exact ⟨by simp, fun _ => by omega⟩
        · exact ⟨by simp, by simp⟩
        · exact ⟨by simp, by simp⟩
  exact ⟨fun h => (key _ h).1 rfl, fun hlt h => absurd ((key _ h).2 rfl) (Nat.not_le.mpr hlt)⟩

/-! ## Bodies -/

/-- A connection that is complete holds the whole body, unless the end of the body wrapped. -/
theorem Waits.le_of_complete {s : List Byte} (hw : Waits A fd task s c) (hcomp : c.complete = true)
    (hno : NoWrap readRequest s) : c.bodyStart + c.contentLen ≤ c.readBuffer.length := by
  obtain ⟨a, h, -, hs, rfl, hle⟩ := hw.of_complete hcomp
  rwa [sizeAdd_of_lt (hno h hs)] at hle

/-- **A run whose bodies do not wrap copies and dispatches only what it holds.** -/
theorem run_of_noWrap (hno : LongFirst (ticks.map stored) → NoWrap readRequest (received ticks)) :
    connectionRun onRequest smw fd task ticks ≠ .error .copyPastEnd ∧
    ∀ x evs, connectionRun onRequest smw fd task ticks = .ok (x, evs) →
      ∀ c, .request c ∈ evs → c.bodyStart + c.contentLen ≤ c.readBuffer.length := by
  by_cases hlong : LongFirst (ticks.map stored)
  · have hno := hno hlong
    refine ⟨fun h => ?_, fun x evs h c hc => ?_⟩
    · obtain ⟨pre, t, post, ⟨smw', c⟩, evs, rfl, hpre, hstep⟩ := Trace.run_error h
      rw [List.append_cons, List.map_append] at hlong
      rw [List.append_cons, received_append] at hno
      rcases run_step hlong.of_append hpre with ⟨x, evs', hok, -⟩ | ⟨g, hg, hfault⟩
      · cases hok.symm.trans hstep
      · cases hg.symm.trans hstep
        rcases hfault with hsend | hfault
        · cases hsend
        · obtain - | - | ⟨d, hw, hcomp, hlt⟩ | - := hfault
          have := hw.le_of_complete hcomp hno.of_append
          omega
    · obtain ⟨pre, t, post, ⟨smw', b⟩, y, evs₁, evs₂, rfl, hpre, hstep, hmem⟩ :=
        Trace.exists_of_mem_events h hc
      rw [List.append_cons, List.map_append] at hlong
      rw [List.append_cons, received_append] at hno
      rcases run_step hlong.of_append hpre with ⟨x, evs', hok, hreq⟩ | ⟨g, hg, -⟩
      · cases hok.symm.trans hstep
        obtain ⟨d, hw, hcomp, rfl⟩ := hreq c hmem
        have := hw.le_of_complete hcomp hno.of_append
        simpa using this
      · cases hg.symm.trans hstep
  · rw [run_of_not_longFirst hlong]
    exact ⟨by simp, by simp⟩

/-- A run that has not been sent a whole head yet has only filled the buffer. -/
theorem run_of_headOf_none {m : List Byte} {h : MessageHead RequestFields}
    (hlong : LongFirst (ticks.map stored)) (hnone : headOf readRequest (received ticks) = none)
    (hsome : headOf readRequest (received ticks ++ m) = some h)
    (hlt : (received ticks).length < sizeMod) :
    connectionRun onRequest smw fd task ticks
      = .ok ((smw, filled fd task (received ticks)), []) := by
  induction ticks using List.reverseRecOn generalizing m with
  | nil => rfl
  | append_singleton ticks t ih =>
    rw [received_append, received_singleton] at hnone hsome hlt ⊢
    have hnone₁ := headOf_eq_none_of_append hnone
    have hlt₁ : (received ticks).length < sizeMod := by
      rw [List.length_append] at hlt
      omega
    have hrun := ih (longFirst_of_concat hlong) hnone₁
      (by rwa [List.append_assoc] at hsome) hlt₁
    have hw : Waits (fun _ => True) fd task (received ticks) (filled fd task (received ticks)) :=
      Or.inl ⟨rfl, Or.inl hnone₁⟩
    have hno : ∀ d, Waits (fun _ => True) fd task (received ticks ++ stored t) d →
        d.complete = true → False := by
      intro d hd hcomp
      obtain ⟨-, _, -, hs, -⟩ := hd.of_complete hcomp
      cases hs.symm.trans hnone
    rcases hw.step onRequest trivial hlt₁ (length_received_concat hlong) smw with
      ⟨d, hd, hw', -⟩ | ⟨d, r, -, -, hw', hcomp⟩ | ⟨f, -, hf⟩
    · obtain ⟨rfl, -⟩ | ⟨a, h, -, hs, -⟩ := hw'
      · exact Trace.run_concat hrun hd
      · cases hs.symm.trans hnone
    · exact (hno d hw' hcomp).elim
    · obtain hge | ⟨-, hall⟩ | ⟨d, hw', hcomp, -⟩ | ⟨-, d, hw', hcomp⟩ := hf
      · omega
      · cases hsome.symm.trans (hall m)
      · exact (hno d hw' hcomp).elim
      · exact (hno d hw' hcomp).elim

/-! ## Bodies that wrap -/

/-- A callback that answers nothing. -/
def silent : OnRequest := fun _ => .ok none

/-- Memory for everything but the buffer. -/
def Ample (a : ReceiveAlloc) : Prop := a.headers = true ∧ a.body = true

theorem not_mayFail_ample : ¬ MayFail Ample := by
  rintro ⟨a, ⟨hheaders, hbody⟩, hfail | hfail⟩
  · cases hheaders.symm.trans hfail
  · cases hbody.symm.trans hfail

/-- A tick that stores the same, with memory for everything but the buffer. -/
theorem exists_ample (t : Tick) : ∃ u : Tick, stored u = stored t ∧ Ample u.alloc :=
  ⟨{ t with alloc := { ReceiveAlloc.all with readBuffer := t.alloc.readBuffer } }, rfl, rfl, rfl⟩

/-- A connection with the head of a body that wraps is complete, and short of the body. -/
theorem Waits.complete_of_wrap {s : List Byte} {h : MessageHead RequestFields}
    (hw : Waits Ample fd task s c) (hs : headOf readRequest s = some h) (hlt : s.length < sizeMod)
    (hge : sizeMod ≤ h.bodyStart + h.contentLen) :
    c.complete = true ∧ c.readBuffer.length < c.bodyStart + c.contentLen := by
  obtain ⟨-, hc | hc⟩ | ⟨a, h', -, hs', rfl⟩ := hw
  · cases hc.symm.trans hs
  · exact absurd hc not_mayFail_ample
  · cases hs.symm.trans hs'
    obtain ⟨-, -, hle⟩ := bodyStart_bounds hs
    have hadd := sizeAdd_lt_left (by omega) (contentLen_lt hs) hge
    refine ⟨complete_iff.mpr ?_, ?_⟩
    · simp only [setHead, filled]
      omega
    · simp only [setHead, filled]
      omega

/-- The tick that brings the head of a body that wraps copies or dispatches the body. -/
theorem run_concat_of_wrap {h : MessageHead RequestFields} (hample : Ample t.alloc)
    (hlong : LongFirst ((ticks ++ [t]).map stored))
    (hnone : headOf readRequest (received ticks) = none)
    (hs : headOf readRequest (received ticks ++ stored t) = some h)
    (hge : sizeMod ≤ h.bodyStart + h.contentLen) :
    connectionRun silent smw fd task (ticks ++ [t]) = .error .copyPastEnd ∨
      ∃ x evs c, connectionRun silent smw fd task (ticks ++ [t]) = .ok (x, evs) ∧
        .request c ∈ evs ∧ c.readBuffer.length < c.bodyStart + c.contentLen := by
  have hlt := length_append_lt hnone hs ((length_stored_le t).trans (by decide))
  have hlt₁ : (received ticks).length < sizeMod := by
    rw [List.length_append] at hlt
    omega
  have hne : stored t ≠ [] := by
    intro hnil
    rw [hnil, List.append_nil, hnone] at hs
    cases hs
  have hrun : connectionRun silent smw fd task ticks = .ok ((smw, _), []) :=
    run_of_headOf_none (longFirst_of_concat hlong) hnone hs hlt₁
  have hw : Waits Ample fd task (received ticks) (filled fd task (received ticks)) :=
    Or.inl ⟨rfl, Or.inl hnone⟩
  rcases hw.tick silent hample hne (length_received_concat hlong hne) hlt smw with
    ⟨d, -, hw', hcomp⟩ | ⟨d, hd, hw', -⟩ | ⟨d, hd, -⟩ | ⟨-, -, hall⟩
  · rcases hcomp with hcomp | hcomp
    · cases hcomp.symm.trans (hw'.complete_of_wrap hs hlt hge).1
    · exact absurd hcomp not_mayFail_ample
  · rw [request_dispatched] at hd
    refine Or.inr ⟨_, _, d.dispatched, Trace.run_concat hrun hd, by simp, ?_⟩
    simpa using (hw'.complete_of_wrap hs hlt hge).2
  · exact Or.inl (Trace.run_append_error hrun hd [])
  · have hhead := hall []
    rw [List.append_nil, hs] at hhead
    cases hhead

/-- **A body whose end wraps is copied or dispatched before it is there**, when memory does not run
out. -/
theorem exists_run_of_wrap (smw : Smw κ) (fd : ℤ) (task : Option TaskHandle)
    (hlong : LongFirst (ticks.map stored))
    (hwrap : ¬ NoWrap readRequest (received ticks)) :
    ∃ ticks', ticks'.map stored <+: ticks.map stored ∧
      (connectionRun silent smw fd task ticks' = .error .copyPastEnd ∨
        ∃ x evs c, connectionRun silent smw fd task ticks' = .ok (x, evs) ∧ .request c ∈ evs ∧
          c.readBuffer.length < c.bodyStart + c.contentLen) := by
  induction ticks using List.reverseRecOn with
  | nil => exact absurd (fun _ hs => by cases hs) hwrap
  | append_singleton ticks t ih =>
    by_cases hno : NoWrap readRequest (received ticks)
    · rw [received_append, received_singleton] at hwrap
      obtain ⟨hnone, h, hs, hge⟩ := exists_of_not_noWrap hno hwrap
      -- the last tick again, with memory for everything but the buffer as before
      obtain ⟨u, hu, hample⟩ := exists_ample t
      have hmap : (ticks ++ [u]).map stored = (ticks ++ [t]).map stored := by simp [hu]
      exact ⟨ticks ++ [u], hmap ▸ List.prefix_refl _,
        run_concat_of_wrap hample (hmap ▸ hlong) hnone (hu ▸ hs) hge⟩
    · obtain ⟨ticks', hpre, hbad⟩ := ih (longFirst_of_concat hlong) hno
      refine ⟨ticks', hpre.trans ?_, hbad⟩
      rw [List.map_append]
      exact List.prefix_append _ _

end HTTPServerConnection

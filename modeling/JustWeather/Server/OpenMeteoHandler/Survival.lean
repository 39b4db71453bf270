import JustWeather.Server.OpenMeteoApi.Blocks
import JustWeather.Server.OpenMeteoHandler.Freshness

/-!
# Server/OpenMeteoHandler/Survival — which requests the handler survives

A request for `/v1/current` is answered just when the file it uses can be loaded, or what it fetches
can be parsed; and whatever it was answered, nothing of what was taken for it stays in the heap
(`conserves`).  A handler that keeps a cache of its own, and asks an upstream that answers in its
format, survives every run of requests (`stays_up`).
-/

open CLib Fallible Heap OpenMeteoApi

namespace OpenMeteoHandler

variable {F D : Type} {x : Platform F D} {config : WeatherConfig} {env : Env} {lat lon : F}
  {L : List ℕ} {w w' : World F D} {queryString : List Byte} {r : Handled D}
  {requests : List Request} {exchanges : List (Exchange F D)}

/-! ## One request -/

/-- **What a request needs to be answered**: the weather for the place it names can be had. -/
def Answers (x : Platform F D) (config : WeatherConfig) (request : Request) (w : World F D) :
    Prop :=
  ∀ lat lon, parseQuery x request.queryString = (0, some lat, some lon) →
    Survives x config request.env w.files lat lon

theorem returns_currentAt (hsurvives : Survives x config env w.files lat lon)
    (h : Holds L w.heap) :
    Returns (currentAt x config env lat lon) w fun _ w' => Holds L w'.heap := by
  refine (returns_getCurrent hsurvives h).bind ?_
  rintro ⟨result, data⟩ w₁ (⟨hzero, p, hp, hL⟩ | ⟨hne, hL⟩)
  · obtain rfl : result = 0 := hzero
    obtain rfl : data = some p := hp
    refine (returns_buildJsonResponse config env lat lon hL (List.mem_cons_self ..)).bind
      fun {built w₂} hbuilt => ?_
    refine (returns_freeCurrent hbuilt).bind ?_
    rintro _ w₃ ⟨hrest, -⟩
    rcases built with _ | root <;> exact .pure hrest
  · have hno : result ≠ 0 := hne
    dsimp only
    rw [if_neg hno]
    exact .pure hL

/-- **A request that can be answered is**, and leaves the heap as it was. -/
theorem returns_current {request : Request} (hanswers : Answers x config request w)
    (h : Holds L w.heap) :
    Returns (current x config request.env request.queryString) w fun _ w' => Holds L w'.heap := by
  rw [current]
  split
  · rename_i lat lon hquery
    exact returns_currentAt (hanswers lat lon hquery) h
  · exact .pure h

theorem answers_of_current {request : Request}
    (h : current x config request.env request.queryString w = .ok (r, w')) :
    Answers x config request w := by
  intro lat lon hquery
  rcases of_current h with ⟨lat', lon', hquery', hat⟩ | ⟨-, h400⟩
  · cases hquery.symm.trans hquery'
    obtain ⟨_, _, _, hget, -⟩ := exists_of_currentAt hat
    exact survives_of_getCurrent hget
  · rw [current, hquery] at h
    obtain ⟨_, _, _, hget, -⟩ := exists_of_currentAt h
    exact survives_of_getCurrent hget

theorem exists_step_iff (request : Request) (w : World F D) :
    (∃ r, step x config request w = .ok r) ↔ Answers x config request w := by
  obtain ⟨L, hL⟩ := exists_holds w.heap
  rw [step, exists_map_iff]
  constructor
  · rintro ⟨⟨r, w'⟩, h⟩
    exact answers_of_current h
  · intro hanswers
    obtain ⟨r, w', h, -⟩ := returns_current hanswers hL
    exact ⟨_, h⟩

theorem held_of_step {request : Request} {es : List (Exchange F D)} (h : Holds L w.heap)
    (hstep : step x config request w = .ok (w', es)) : Holds L w'.heap := by
  obtain ⟨⟨r, t⟩, hcurrent, ht⟩ := exists_of_map hstep
  obtain ⟨rfl, -⟩ := Prod.ext_iff.mp ht
  obtain ⟨_, _, hreturned, hL⟩ := returns_current (answers_of_current hcurrent) h
  cases hcurrent.symm.trans hreturned
  exact hL

/-! ## A run -/

theorem exists_run_iff (requests : List Request) (w : World F D) :
    (∃ r, run x config requests w = .ok r) ↔
      ¬ Trace.Visits (step x config) (fun request w => ¬ Answers x config request w) requests w :=
  Trace.exists_run_iff_not_visits fun request w => (exists_step_iff request w).trans not_not.symm

theorem held_of_run (h : Holds L w.heap) (hrun : run x config requests w = .ok (w', exchanges)) :
    Holds L w'.heap :=
  Trace.run_invariant (P := fun _ w _ => Holds L w.heap) h (fun h hs => held_of_step h hs) hrun

/-! ## A cache of its own -/

/-- A file that can be loaded. -/
def Loadable (file : File D) : Prop :=
  ∃ root current units, file.content = some root ∧ root.get "current" = some current ∧
    root.get "current_units" = some units ∧ AreStrings units

/-- **Every file of the cache can be loaded.** -/
def Sound (w : World F D) : Prop := ∀ path file, w.files path = some file → Loadable file

/-- A request whose environment gives it what it needs: memory to load a file into, and an upstream
that answers in its format, if it does. -/
structure Kind (x : Platform F D) (request : Request) : Prop where
  loaded : request.env.alloc.loaded = true
  parses : Parses x request.env

theorem Sound.answers {request : Request} (h : Sound w) (hkind : Kind x request) :
    Answers x config request w := by
  rintro lat lon - path -
  refine ⟨fun ⟨_, file, hfile, _⟩ => ⟨hkind.loaded, ?_⟩, fun _ => hkind.parses⟩
  obtain ⟨root, current, units, hload⟩ := h path file hfile
  exact ⟨file, root, current, units, hfile, hload⟩

theorem Sound.of_getCurrent {data data' : Option (Ptr (WeatherData F D))} {code : ℤ} (h : Sound w)
    (hget : getCurrent x config env lat lon data w = .ok ((code, data'), w')) : Sound w' := by
  have hkeeps : w'.files = w.files → Sound w' := fun hfiles path file hfile =>
    h path file (by rwa [hfiles] at hfile)
  rcases OpenMeteoApi.of_getCurrent hget with
    ⟨-, -, rfl⟩ | ⟨path, -, ⟨-, p, -, hhit⟩ | ⟨-, ⟨-, p, -, hfetched⟩ | ⟨-, hfetching⟩⟩⟩
  · exact h
  · exact hkeeps hhit.calm.files
  · obtain ⟨body, json, v, -, hjson, hparse, -, hfiles⟩ := hfetched.fetch
    obtain ⟨root, current, units, u, hroot, hc, hu, hcopy, -⟩ := exists_of_parseWeatherJson hparse
    obtain rfl := Option.some.inj (hjson.symm.trans hroot)
    intro path' file hfile
    rw [hfiles, written] at hfile
    split at hfile
    · by_cases hsame : path' = path
      · subst hsame
        rw [Function.update_self] at hfile
        obtain rfl := Option.some.inj hfile
        exact ⟨json, current, units, rfl, hc, hu, exists_copyUnits_iff.mp ⟨u, hcopy⟩⟩
      · rw [Function.update_of_ne hsame] at hfile
        exact h path' file hfile
    · exact h path' file hfile
  · exact hkeeps hfetching.files

/-- **Only what can be loaded is saved.** -/
theorem Sound.of_step {request : Request} {es : List (Exchange F D)} (h : Sound w)
    (hstep : step x config request w = .ok (w', es)) : Sound w' := by
  obtain ⟨⟨r, t⟩, hcurrent, ht⟩ := exists_of_map hstep
  obtain ⟨rfl, -⟩ := Prod.ext_iff.mp ht
  rcases of_current hcurrent with ⟨lat, lon, -, hat⟩ | ⟨rfl, -⟩
  · obtain ⟨code, data, w₁, hget, hcalm, -⟩ := exists_of_currentAt hat
    have hsound := h.of_getCurrent hget
    intro path file hfile
    rw [hcalm.files] at hfile
    exact hsound path file hfile
  · exact h

theorem sound_of_run (h : Sound w) (hrun : run x config requests w = .ok (w', exchanges)) :
    Sound w' :=
  Trace.run_invariant (P := fun _ w _ => Sound w) h (fun h hs => h.of_step hs) hrun

/-- Such a run comes by no request that cannot be answered. -/
theorem Sound.not_visits (h : Sound w) (hkind : ∀ request ∈ requests, Kind x request) :
    ¬ Trace.Visits (step x config) (fun request w => ¬ Answers x config request w) requests w := by
  rw [Trace.visits_iff]
  rintro ⟨pre, request, post, t, es, rfl, hpre, hno⟩
  exact hno ((sound_of_run h hpre).answers (hkind request (by simp)))

/-- Each request has its exchange. -/
theorem map_request_of_run (hrun : run x config requests w = .ok (w', exchanges)) :
    exchanges.map Exchange.request = requests :=
  Trace.run_invariant (P := fun requests _ es => es.map Exchange.request = requests) rfl
    (fun hes hstep => by
      obtain ⟨_, -, heq⟩ := exists_of_map hstep
      obtain ⟨-, rfl⟩ := Prod.ext_iff.mp heq
      rw [List.map_append, hes]
      rfl) hrun

/-! ## Runs -/

/-- **Requests are answered without a loss**: a run of them ends just when it comes by no request
that cannot be answered; and if it ends, then with just those blocks live that were live before it.
-/
theorem conserves (x : Platform F D) (config : WeatherConfig) (requests : List Request)
    (w : World F D) :
    ((∃ r, run x config requests w = .ok r) ↔
      ¬ Trace.Visits (step x config) (fun request w => ¬ Answers x config request w) requests w) ∧
    ∀ w' exchanges, run x config requests w = .ok (w', exchanges) →
      ∀ b, (b < w'.heap.size ∧ b ∉ w'.heap.released) ↔ b < w.heap.size ∧ b ∉ w.heap.released := by
  refine ⟨exists_run_iff requests w, fun w' exchanges h b => ?_⟩
  obtain ⟨L, hL⟩ := exists_holds w.heap
  rw [← hL.mem_iff, ← (held_of_run hL h).mem_iff]

/-- A request of the day, and an upstream that answers it. -/
theorem kind_requestAt (time : Int64) (saved : Bool) :
    Kind dayPlatform (requestAt time nearText saved) := by
  refine ⟨rfl, fun _ _ _ body hbody => ?_⟩
  cases hbody
  refine ⟨nearText, rfl, fun root hroot => ?_⟩
  obtain rfl := Option.some.inj (loadb_nearText_day.symm.trans hroot)
  exact unitsAreStrings_upstream 59.25 18

theorem sound_emptyWorld : Sound (emptyWorld : World F D) := by
  intro path file hfile
  cases hfile

theorem kind_day : ∀ request ∈ [requestAt 0 nearText true, requestAt 1 nearText false],
    Kind dayPlatform request := by
  simp [kind_requestAt]

/-- A request that is fetched, and one that is answered from the file. -/
theorem conserves_day : ∃ w' exchanges, run dayPlatform handlerConfig
      [requestAt 0 nearText true, requestAt 1 nearText false] emptyWorld = .ok (w', exchanges) ∧
    ∀ b, ¬ (b < w'.heap.size ∧ b ∉ w'.heap.released) := by
  obtain ⟨hends, hsame⟩ := conserves dayPlatform handlerConfig
    [requestAt 0 nearText true, requestAt 1 nearText false] emptyWorld
  obtain ⟨⟨w', exchanges⟩, hrun⟩ := hends.mpr (sound_emptyWorld.not_visits kind_day)
  refine ⟨w', exchanges, hrun, fun b hb => ?_⟩
  exact Nat.not_lt_zero _ ((hsame w' exchanges hrun b).mp hb).1

/-- **The handler stays up**: on a cache in which every file can be loaded, and with requests whose
environment is kind, every run of requests ends; each request was answered in its turn, every file
can still be loaded, and the blocks that are live are those that were. -/
theorem stays_up (hw : Sound w) (hkind : ∀ request ∈ requests, Kind x request)
    (h : Holds L w.heap) :
    ∃ w' exchanges, run x config requests w = .ok (w', exchanges) ∧
      exchanges.map Exchange.request = requests ∧ Sound w' ∧ Holds L w'.heap := by
  obtain ⟨⟨w', exchanges⟩, hrun⟩ : ∃ r, run x config requests w = .ok r :=
    (exists_run_iff requests w).mpr (hw.not_visits hkind)
  exact ⟨w', exchanges, hrun, map_request_of_run hrun, sound_of_run hw hrun, held_of_run h hrun⟩

/-- The handler on the same day. -/
theorem stays_up_day : ∃ w' exchanges, run dayPlatform handlerConfig
      [requestAt 0 nearText true, requestAt 1 nearText false] emptyWorld = .ok (w', exchanges) ∧
    exchanges.map Exchange.request = [requestAt 0 nearText true, requestAt 1 nearText false] ∧
    Sound w' ∧ Holds [] w'.heap :=
  stays_up sound_emptyWorld kind_day holds_empty

end OpenMeteoHandler

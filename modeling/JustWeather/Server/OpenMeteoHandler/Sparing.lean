import JustWeather.Server.OpenMeteoHandler.Survival

/-!
# Server/OpenMeteoHandler/Sparing — how often the upstream is asked

A request makes at most one transfer, and none while the cache file of its place is fresh.  So what
was fetched for a place and saved spares the upstream every other request for that place, until it
is older than its time to live (`spares_upstream`).
-/

open CLib Fallible OpenMeteoApi

namespace OpenMeteoHandler

variable {F D : Type} {x : Platform F D} {config : WeatherConfig} {env : Env} {lat lon : F}
  {w w' w'' : World F D} {path : List Byte} {data : Option (Ptr (WeatherData F D))}
  {request : Request} {requests : List Request} {e : Exchange F D} {es : List (Exchange F D)}

/-! ## One transfer -/

/-- No transfer is made. -/
def Mute (w w' : World F D) : Prop := w'.fetches = w.fetches

theorem Mute.trans (h : Mute w w') (h' : Mute w' w'') : Mute w w'' := Eq.trans h' h

theorem mute_of_calm {α : Type} {m : Api F D α} (h : Preserves Calm m) : Preserves Mute m :=
  h.mono Calm.fetches

theorem mute_saveRawJsonToCache (filepath jsonStr : Ptr (List Byte)) :
    Preserves Mute (saveRawJsonToCache x env filepath jsonStr) := by
  refine (mute_of_calm (calm_deref _)).bind Mute.trans fun text => ?_
  rcases x.loadb text with _ | json
  · exact mute_of_calm (Preserves.pure Calm.refl _)
  · refine (mute_of_calm (calm_deref _)).bind Mute.trans fun path => ?_
    split
    · refine Preserves.bind Mute.trans ?_ fun _ => mute_of_calm (Preserves.pure Calm.refl _)
      intro w a w' h
      obtain ⟨-, rfl⟩ := Prod.ext_iff.mp (Except.ok.inj h)
      rfl
    · exact mute_of_calm (Preserves.pure Calm.refl _)

theorem mute_saveFetched (cacheFile : Ptr (List Byte)) (p : Ptr (WeatherData F D)) :
    Preserves Mute (saveFetched x config env cacheFile p) := by
  rw [saveFetched]
  split
  · refine (mute_of_calm (calm_deref _)).bind Mute.trans fun value => ?_
    rcases value.rawJsonCache with _ | raw
    · exact mute_of_calm (Preserves.pure Calm.refl _)
    · exact (mute_saveRawJsonToCache _ _).bind Mute.trans fun _ =>
        (mute_of_calm (calm_free _)).bind Mute.trans fun _ =>
          mute_of_calm (Preserves.pure Calm.refl _)
  · exact mute_of_calm (Preserves.pure Calm.refl _)

/-- The transfer of a request for a place. -/
def transferOf (env : Env) (lat lon : F) : Fetch F := ⟨lat, lon, env.transfer, env.fetchedAt⟩

/-- That transfer is made, or none. -/
def AtMost (f : Fetch F) (w w' : World F D) : Prop :=
  w'.fetches = w.fetches ∨ w'.fetches = f :: w.fetches

theorem AtMost.of_mute {f : Fetch F} (h : Mute w w') (h' : AtMost f w' w'') : AtMost f w w'' := by
  rw [AtMost, h] at h'
  exact h'

theorem AtMost.mute {f : Fetch F} (h : AtMost f w w') (h' : Mute w' w'') : AtMost f w w'' := by
  rw [AtMost, h']
  exact h

/-- A transfer after steps that make none. -/
theorem atMost_after {α β : Type} {f : Fetch F} {m : Api F D α} {g : α → Api F D β}
    (hm : Preserves Mute m) (hg : ∀ a, Preserves (AtMost f) (g a)) :
    Preserves (AtMost f) (m >>= g) := hm.seq hg fun _ _ _ => AtMost.of_mute

/-- A transfer before steps that make none. -/
theorem atMost_before {α β : Type} {f : Fetch F} {m : Api F D α} {g : α → Api F D β}
    (hm : Preserves (AtMost f) m) (hg : ∀ a, Preserves Mute (g a)) :
    Preserves (AtMost f) (m >>= g) := hm.seq hg fun _ _ _ => AtMost.mute

theorem atMost_of_mute {α : Type} {f : Fetch F} {m : Api F D α} (h : Preserves Mute m) :
    Preserves (AtMost f) m := h.mono Or.inl

theorem atMost_pure {α : Type} (f : Fetch F) (a : α) :
    Preserves (AtMost f) (Pure.pure a : Api F D α) :=
  atMost_of_mute (mute_of_calm (Preserves.pure Calm.refl a))

theorem atMost_perform (url : Ptr (List Byte)) (lat lon : F) :
    Preserves (AtMost (transferOf env lat lon)) (perform env url lat lon : Api F D _) :=
  fun _ _ _ h => Or.inr (of_perform h).2.2

/-- **A fetch makes at most one transfer.** -/
theorem atMost_fetchWeatherFromApi (lat lon : F) (data : Option (Ptr (WeatherData F D))) :
    Preserves (AtMost (transferOf env lat lon)) (fetchWeatherFromApi x env lat lon data) := by
  rw [fetchWeatherFromApi]
  split
  · refine atMost_after (mute_of_calm (calm_malloc _)) fun url => ?_
    split
    · refine atMost_before (atMost_perform url lat lon) fun r => mute_of_calm ?_
      dsimp only
      split
      · exact (calm_free _).bind Calm.trans fun _ => (calm_freeOption _).bind Calm.trans fun _ =>
          Preserves.pure Calm.refl _
      · refine (calm_free _).bind Calm.trans fun _ => ?_
        split
        · exact calm_parseResponse _ _ _
        · exact (calm_freeOption _).bind Calm.trans fun _ => Preserves.pure Calm.refl _
    · exact atMost_of_mute (mute_of_calm ((calm_free _).bind Calm.trans fun _ =>
        Preserves.pure Calm.refl _))
  · exact atMost_pure _ _

theorem atMost_fetchAndSave (cacheFile : Ptr (List Byte)) (lat lon : F)
    (data : Option (Ptr (WeatherData F D))) :
    Preserves (AtMost (transferOf env lat lon))
      (fetchAndSave x config env cacheFile lat lon data) := by
  refine atMost_before (atMost_fetchWeatherFromApi lat lon data) fun r => ?_
  dsimp only
  split
  · rcases r.2 with _ | p
    · exact Preserves.throw _
    · exact (mute_saveFetched _ _).bind Mute.trans fun _ => mute_of_calm
        ((calm_free _).bind Calm.trans fun _ => Preserves.pure Calm.refl _)
  · exact mute_of_calm ((calm_free _).bind Calm.trans fun _ => Preserves.pure Calm.refl _)

theorem mute_useCacheFile (filepath : Ptr (List Byte)) :
    Preserves Mute (useCacheFile config env filepath : Api F D Bool) := by
  intro w valid w' h
  rw [(of_useCacheFile h).1]
  exact rfl

theorem atMost_getCurrent (lat lon : F) (data : Option (Ptr (WeatherData F D))) :
    Preserves (AtMost (transferOf env lat lon)) (getCurrent x config env lat lon data) := by
  rw [getCurrent]
  rcases generateCacheFilepath x config env.alloc.cacheFile lat lon with _ | path
  · exact atMost_pure _ _
  · refine atMost_after (mute_of_calm (calm_malloc _)) fun cacheFile =>
      atMost_after (mute_useCacheFile _) fun valid => ?_
    split
    · refine atMost_after (mute_of_calm (calm_loadWeatherFromCache _ _)) fun r =>
        atMost_after (mute_of_calm (calm_free _)) fun _ => ?_
      split
      · exact atMost_pure _ _
      · exact atMost_fetchAndSave _ _ _ _
    · exact atMost_fetchAndSave _ _ _ _

/-! ## One request -/

/-- **What a request does to the files and the upstream**: a file that changes holds a document of
now, and there is at most one transfer, and none while the file of the place is fresh. -/
structure Does (x : Platform F D) (config : WeatherConfig) (request : Request) (w w' : World F D) :
    Prop where
  files : ∀ path, w'.files path = w.files path ∨
    ∃ d, w'.files path = some ⟨some d, request.env.fetchedAt⟩
  fetches : w'.fetches = w.fetches ∨ ∃ lat lon,
    parseQuery x request.queryString = (0, some lat, some lon) ∧
      w'.fetches = transferOf request.env lat lon :: w.fetches
  stale : w'.fetches ≠ w.fetches → ∀ lat lon path,
    parseQuery x request.queryString = (0, some lat, some lon) →
    generateCacheFilepath x config true lat lon = some path →
    ¬ (config.useCache = true ∧ FileFresh config request.env w.files path)

theorem files_of_getCurrent {r : ℤ × Option (Ptr (WeatherData F D))}
    (h : getCurrent x config env lat lon data w = .ok (r, w')) (path : List Byte) :
    w'.files path = w.files path ∨ ∃ d, w'.files path = some ⟨some d, env.fetchedAt⟩ := by
  rcases of_getCurrent h with
    ⟨-, -, rfl⟩ | ⟨path', -, ⟨-, p, -, hhit⟩ | ⟨-, ⟨-, p, -, hfetched⟩ | ⟨-, hfetching⟩⟩⟩
  · exact Or.inl rfl
  · exact Or.inl (congrFun hhit.calm.files path)
  · obtain ⟨body, json, v, -, -, -, -, hfiles⟩ := hfetched.fetch
    rw [hfiles, written]
    split
    · by_cases hsame : path = path'
      · subst hsame
        exact Or.inr ⟨json, Function.update_self ..⟩
      · exact Or.inl (Function.update_of_ne hsame ..)
    · exact Or.inl rfl
  · exact Or.inl (congrFun hfetching.files path)

/-- A call that makes a transfer found no file that is fresh. -/
theorem stale_of_getCurrent {r : ℤ × Option (Ptr (WeatherData F D))}
    (h : getCurrent x config env lat lon data w = .ok (r, w')) (hne : w'.fetches ≠ w.fetches)
    (hpath : generateCacheFilepath x config true lat lon = some path) :
    ¬ (config.useCache = true ∧ FileFresh config env w.files path) := by
  rcases of_getCurrent h with ⟨-, -, rfl⟩ | ⟨path', hpath', ⟨-, p, -, hhit⟩ | ⟨hmiss, -⟩⟩
  · exact absurd rfl hne
  · exact absurd hhit.calm.fetches hne
  · obtain rfl := Option.some.inj (hpath.symm.trans (generateCacheFilepath_of_some hpath').2)
    exact hmiss

theorem does_of_current {r : Handled D}
    (h : current x config request.env request.queryString w = .ok (r, w')) :
    Does x config request w w' := by
  rcases of_current h with ⟨lat, lon, hquery, hat⟩ | ⟨rfl, -⟩
  · obtain ⟨code, data, w₁, hget, hcalm, -⟩ := exists_of_currentAt hat
    refine ⟨fun path => ?_, ?_, fun hne lat' lon' path hquery' hpath => ?_⟩
    · rw [hcalm.files]
      exact files_of_getCurrent hget path
    · rw [hcalm.fetches]
      exact (atMost_getCurrent lat lon none _ _ _ hget).imp_right fun hf => ⟨lat, lon, hquery, hf⟩
    · rw [hcalm.fetches] at hne
      cases hquery.symm.trans hquery'
      exact stale_of_getCurrent hget hne hpath
  · exact ⟨fun _ => Or.inl rfl, Or.inl rfl, fun hne => absurd rfl hne⟩

theorem exists_of_step (h : step x config request w = .ok (w', es)) :
    ∃ r, es = [⟨request, w, r, w'⟩] ∧ Does x config request w w' := by
  obtain ⟨⟨r, t⟩, hcurrent, ht⟩ := exists_of_map h
  obtain ⟨rfl, rfl⟩ := Prod.ext_iff.mp ht
  exact ⟨r, rfl, does_of_current hcurrent⟩

/-! ## A run -/

/-- The request had a transfer made, and `path` is the cache file of its place. -/
def Asks (x : Platform F D) (config : WeatherConfig) (path : List Byte) (e : Exchange F D) : Prop :=
  e.after.fetches ≠ e.before.fetches ∧ ∃ lat lon,
    parseQuery x e.request.queryString = (0, some lat, some lon) ∧
    generateCacheFilepath x config true lat lon = some path

/-- What it was sent is in the file. -/
def Saves (path : List Byte) (e : Exchange F D) : Prop :=
  ∃ d, e.after.files path = some ⟨some d, e.request.env.fetchedAt⟩

/-- No clock goes back from a request to a later one. -/
def Ordered (request request' : Request) : Prop :=
  request.env.fetchedAt.toInt ≤ request'.env.fetchedAt.toInt

/-- The two requests are further apart than the time to live. -/
def Apart (config : WeatherConfig) (e e' : Exchange F D) : Prop :=
  config.cacheTtl.toInt < e'.request.env.checkedAt.toInt - e.request.env.fetchedAt.toInt

/-- What is saved stays, or is replaced by something later. -/
def Covers (path : List Byte) (e : Exchange F D) (w : World F D) : Prop :=
  ∃ file, w.files path = some file ∧ e.request.env.fetchedAt.toInt ≤ file.mtime.toInt

theorem Covers.of_does (h : Covers path e w) (hdoes : Does x config request w w')
    (hordered : Ordered e.request request) : Covers path e w' := by
  obtain ⟨file, hfile, hle⟩ := h
  rcases hdoes.files path with hsame | ⟨d, hnew⟩
  · exact ⟨file, hsame.trans hfile, hle⟩
  · exact ⟨_, hnew, hordered⟩

/-- **While it is covered, a place is not asked for again.** -/
theorem Covers.apart {r : Handled D} (h : Covers path e w) (huse : config.useCache = true)
    (hdoes : Does x config request w w') (hasks : Asks x config path ⟨request, w, r, w'⟩) :
    Apart config e ⟨request, w, r, w'⟩ := by
  obtain ⟨file, hfile, hle⟩ := h
  obtain ⟨hne, lat, lon, hquery, hpath⟩ := hasks
  have hold : ¬ request.env.checkedAt.toInt - file.mtime.toInt ≤ config.cacheTtl.toInt :=
    fun hage => hdoes.stale hne lat lon path hquery hpath ⟨huse, file, hfile, hage⟩
  change config.cacheTtl.toInt < request.env.checkedAt.toInt - _
  omega

/-- **The upstream is spared.**  In a run of requests whose clock does not go back, each request
makes at most one transfer, for the place that it names; and if the cache is used, after one whose
document was saved nothing is transferred for that place until the document is older than its time
to live. -/
theorem spares_upstream
    (h : run x config requests w = .ok (w', es)) (hclock : requests.Pairwise Ordered) :
    (∀ e ∈ es, e.after.fetches = e.before.fetches ∨ ∃ lat lon,
      parseQuery x e.request.queryString = (0, some lat, some lon) ∧
        e.after.fetches = transferOf e.request.env lat lon :: e.before.fetches) ∧
    (config.useCache = true →
      es.Pairwise fun e e' => ∀ path, Saves path e → Asks x config path e' →
        Apart config e e') := by
  have hinv : requests.Pairwise Ordered → es.map Exchange.request = requests ∧
      (∀ e ∈ es, Does x config e.request e.before e.after) ∧
      (config.useCache = true →
        es.Pairwise fun e e' => ∀ path, Saves path e → Asks x config path e' → Apart config e e') ∧
      ∀ e ∈ es, ∀ path, Saves path e → Covers path e w' := by
    refine Trace.run_invariant (P := fun requests w' es => requests.Pairwise Ordered →
      es.map Exchange.request = requests ∧
      (∀ e ∈ es, Does x config e.request e.before e.after) ∧
      (config.useCache = true →
        es.Pairwise fun e e' => ∀ path, Saves path e → Asks x config path e' → Apart config e e') ∧
      ∀ e ∈ es, ∀ path, Saves path e → Covers path e w') ?_ ?_ h
    · exact fun _ => ⟨rfl, by simp, fun _ => .nil, by simp⟩
    · rintro requests t t' es _ request ih hstep hclock
      obtain ⟨hclock, -, hlast⟩ := List.pairwise_append.mp hclock
      obtain ⟨hmap, hdid, hpairs, hcovers⟩ := ih hclock
      obtain ⟨r, rfl, hdoes⟩ := exists_of_step hstep
      have hordered : ∀ e ∈ es, Ordered e.request request := fun e he =>
        hlast _ (hmap ▸ List.mem_map_of_mem he) _ (List.mem_singleton_self _)
      refine ⟨by rw [List.map_append, hmap]; rfl, ?_, ?_, ?_⟩
      · intro e he
        rcases List.mem_append.mp he with he | he
        · exact hdid e he
        · obtain rfl := List.mem_singleton.mp he
          exact hdoes
      · intro huse
        refine List.pairwise_append.mpr ⟨hpairs huse, List.pairwise_singleton .., ?_⟩
        intro e he e' he' path hsaves hasks
        obtain rfl := List.mem_singleton.mp he'
        exact (hcovers e he path hsaves).apart huse hdoes hasks
      · intro e he path hsaves
        rcases List.mem_append.mp he with he | he
        · exact (hcovers e he path hsaves).of_does hdoes (hordered e he)
        · obtain rfl := List.mem_singleton.mp he
          obtain ⟨d, hfile⟩ := hsaves
          exact ⟨_, hfile, le_rfl⟩
  obtain ⟨-, hdid, hpairs, -⟩ := hinv hclock
  exact ⟨fun e he => (hdid e he).fetches, hpairs⟩

/-- The second request of a day makes no transfer. -/
theorem spares_upstream_day : ∃ w' e₁ e₂, run dayPlatform handlerConfig
      [requestAt 0 nearText true, requestAt 1 nearText true] emptyWorld = .ok (w', [e₁, e₂]) ∧
    Saves savingPath.value e₁ ∧ e₂.after.fetches = e₂.before.fetches := by
  obtain ⟨r₁, w₁, hfirst, hfile⟩ := exists_first
  have hone := Trace.run_concat (Trace.run_nil emptyWorld) hfirst
  have hanswers : Answers dayPlatform handlerConfig (requestAt 1 nearText true) w₁ :=
    (sound_of_run sound_emptyWorld hone).answers (kind_requestAt 1 true)
  obtain ⟨⟨w', es⟩, hsecond⟩ := (exists_step_iff (requestAt 1 nearText true) w₁).mpr hanswers
  obtain ⟨r₂, rfl, -⟩ := exists_of_step hsecond
  have hrun := Trace.run_concat hone hsecond
  have hsaves : Saves savingPath.value
      (⟨requestAt 0 nearText true, emptyWorld, r₁, w₁⟩ : Exchange ℚ ℚ) := ⟨_, hfile⟩
  refine ⟨w', _, _, hrun, hsaves, ?_⟩
  obtain ⟨-, hpairs⟩ := spares_upstream hrun (by simp [Ordered, requestAt])
  by_contra hne
  have hapart : handlerConfig.cacheTtl.toInt < (1 : Int64).toInt - (0 : Int64).toInt :=
    (List.pairwise_pair.mp (hpairs rfl)) _ hsaves
      ⟨hne, 59.25, 18, parseQuery_requestAt 1 nearText true, generateCacheFilepath_day⟩
  exact absurd hapart (by decide)

end OpenMeteoHandler

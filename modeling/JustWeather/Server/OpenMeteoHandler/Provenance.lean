import JustWeather.Server.OpenMeteoHandler.Freshness

/-!
# Server/OpenMeteoHandler/Provenance — where the weather in an answer is from

How old the weather in an answer is depends on the files that are in the way; where it is from does
not.  Out of a cache directory that is backed, it is the weather of a document that a transfer got
for a location with the cache path of the location asked for (`traced`).
-/

open CLib Fallible OpenMeteoApi

namespace OpenMeteoHandler

variable {F D : Type} {x : Platform F D} {config : WeatherConfig} {env : Env} {lat lon : F}
  {path queryString : List Byte} {d root : Json D} {w w' : World F D} {p : Ptr (WeatherData F D)}
  {r : Handled D} {requests : List Request}

/-- One of the transfers was for a location with the path, and got the document. -/
def FetchedAt (x : Platform F D) (config : WeatherConfig) (fetches : List (Fetch F))
    (path : List Byte) (d : Json D) : Prop :=
  ∃ f ∈ fetches, generateCacheFilepath x config true f.latitude f.longitude = some path ∧ Got x f d

/-- **The weather is from a transfer** for a location with the cache path of the one asked for. -/
def Traced (x : Platform F D) (config : WeatherConfig) (queryString : List Byte)
    (fetches : List (Fetch F)) (root : Json D) : Prop :=
  ∃ lat lon path d, parseQuery x queryString = (0, some lat, some lon) ∧
    generateCacheFilepath x config true lat lon = some path ∧ FetchedAt x config fetches path d ∧
    Shows x d root

/-- What a backed file holds was fetched. -/
theorem Backed.fetchedAt (hb : Backed x config w) {file : File D} (hfile : w.files path = some file)
    (hcontent : file.content = some d) : FetchedAt x config w.fetches path d := by
  obtain ⟨f, hf, hbacks⟩ := hb path file hfile (by rw [hcontent]; rfl)
  obtain ⟨d', hcontent', hgot⟩ := hbacks.document
  obtain rfl := Option.some.inj (hcontent.symm.trans hcontent')
  exact ⟨f, hf, hbacks.path, hgot⟩

/-- So was what a response is read back from. -/
theorem Backed.of_savedDocument (hb : Backed x config w)
    (hpath : generateCacheFilepath x config true lat lon = some path)
    (h : savedDocument x config env lat lon w.files = some d) :
    FetchedAt x config w.fetches path d := by
  rw [savedDocument_eq hpath] at h
  split at h
  · obtain ⟨file, hfile, hcontent⟩ := Option.bind_eq_some_iff.mp h
    exact hb.fetchedAt hfile hcontent
  · cases h

/-- What was loaded on a hit was fetched. -/
theorem Backed.of_hit (hb : Backed x config w) (hhit : Hit x config env path p w w') :
    ∃ d, FetchedAt x config w'.fetches path d ∧ Shows x d (enrich (buildRoot x p.value)) := by
  obtain ⟨-, -, ⟨file, d, current, units, hfile, -, hcontent, hc, hu, hload⟩, hcalm⟩ := hhit
  refine ⟨d, ?_, shows_of_loadValues hc hu hload⟩
  rw [hcalm.fetches]
  exact hb.fetchedAt hfile hcontent

/-- What a fetch parsed was fetched. -/
theorem fetchedAt_of_fetched (hpath : generateCacheFilepath x config true lat lon = some path)
    (hfetched : Fetched x config env lat lon path p w w') :
    ∃ d, FetchedAt x config w'.fetches path d ∧ Shows x d (enrich (buildRoot x p.value)) := by
  obtain ⟨-, ⟨body, d, v, htransfer, hd, hparse, hp, -⟩, hfetches⟩ := hfetched
  refine ⟨d, ⟨⟨lat, lon, env.transfer, env.fetchedAt⟩, ?_, hpath, body, htransfer, hd⟩,
    shows_of_parseWeatherJson hd hparse hp⟩
  rw [hfetches]
  exact List.mem_cons_self ..

/-- **Where the weather in an answer is from.** -/
theorem traced_of_current (hb : Backed x config w)
    (h : current x config env queryString w = .ok (r, w')) (h200 : r.statusCode = 200) :
    ∃ root, r.responseJson = some (.document root) ∧
      Traced x config queryString w'.fetches root := by
  rcases of_current h with ⟨lat, lon, hquery, hat⟩ | ⟨-, h400⟩
  · obtain ⟨code, data, w₁, hget, hcalm, hanswer⟩ := exists_of_currentAt hat
    obtain ⟨rfl, p, root, rfl, hroot, hjson⟩ := hanswer h200
    refine ⟨root, hjson, ?_⟩
    -- the weather that was got, and the path it was got for
    obtain ⟨path, hpath, d, hd, hshows⟩ : ∃ path, generateCacheFilepath x config true lat lon
        = some path ∧ ∃ d, FetchedAt x config w₁.fetches path d ∧
          Shows x d (enrich (buildRoot x p.value)) := by
      rcases OpenMeteoApi.of_getCurrent hget with
        ⟨-, hcode, -⟩ | ⟨path, hpath, ⟨-, q, hq, hhit⟩ | ⟨-, ⟨-, q, hq, hfetched⟩ | ⟨hcode, -⟩⟩⟩
      · cases hcode
      · obtain rfl := Option.some.inj hq
        exact ⟨path, (generateCacheFilepath_of_some hpath).2, hb.of_hit hhit⟩
      · obtain rfl := Option.some.inj hq
        have hpath' := (generateCacheFilepath_of_some hpath).2
        exact ⟨path, hpath', fetchedAt_of_fetched hpath' hfetched⟩
      · cases hcode
    rw [hcalm.fetches]
    obtain ⟨-, ⟨d', hsaved, rfl⟩ | ⟨-, rfl⟩⟩ := of_response hroot
    · exact ⟨lat, lon, path, d', hquery, hpath,
        (hb.of_getCurrent hget).of_savedDocument hpath hsaved,
        Or.inl rfl⟩
    · exact ⟨lat, lon, path, d, hquery, hpath, hd, hshows⟩
  · rw [h400] at h200
    cases h200

/-- **Where the weather in the answers of a run is from.** -/
theorem traced_of_run {exchanges : List (Exchange F D)} (hb : Backed x config w)
    (hrun : run x config requests w = .ok (w', exchanges)) :
    ∀ e ∈ exchanges, e.handled.statusCode = 200 →
      ∃ root, e.handled.responseJson = some (.document root) ∧
        Traced x config e.request.queryString e.after.fetches root := by
  intro e he h200
  obtain ⟨earlier, request, later, t, t', es, es', -, hearlier, hstep, hmem⟩ :=
    Trace.exists_of_mem_events hrun he
  obtain ⟨⟨r, u⟩, hcurrent, hu⟩ := exists_of_map hstep
  obtain ⟨-, rfl⟩ := Prod.ext_iff.mp hu
  obtain rfl := List.mem_singleton.mp hmem
  exact traced_of_current (hb.of_run hearlier) hcurrent h200

end OpenMeteoHandler

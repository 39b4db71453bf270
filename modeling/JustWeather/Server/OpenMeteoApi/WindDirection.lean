import JustWeather.Machinery.Compass
import JustWeather.Server.OpenMeteoApi.ResponseFormat

/-!
# Server/OpenMeteoApi/WindDirection — the name of the wind direction

`get_wind_direction_name` finds the nearest of the sixteen points and has a table of their names,
two of which are not the standard ones (`getWindDirectionName_eq`).  What the enrichment passes to
it is the direction narrowed to an `int`, which is another direction where it does not fit
(`wind_direction_named_iff`).
-/

open CLib Json

namespace OpenMeteoApi

variable {F D : Type} {x : Platform F D} {config : WeatherConfig} {env : Env} {lat lon : F}
  {p : Ptr (WeatherData F D)} {w w' : World F D} {root : Json D}

/-! ## The table -/

/-- The names in use. -/
def namesInUse : List String :=
  (Compass.names.set 7 " South-Southeast").set 13 "North-Northwest"

/-- The remainder, with its sign fix. -/
theorem normalized_eq (n : ℤ) :
    (if n.tmod 360 < 0 then n.tmod 360 + 360 else n.tmod 360) = n % 360 := by
  rw [Int.tmod_eq_emod]
  split_ifs <;> omega

/-- **The point that is found is the nearest.** -/
theorem getWindDirectionName_eq (n : Int32) :
    getWindDirectionName n = namesInUse.getD (Compass.point n.toInt) "" := by
  have hmod : (if n.toInt.tmod 360 < 0 then ((n.toInt.tmod 360 : ℤ) : ℚ) + 360
      else (n.toInt.tmod 360 : ℤ)) = ((n.toInt % 360).toNat : ℕ) := by
    rw [← Int.cast_natCast, Int.toNat_of_nonneg (by omega), ← normalized_eq]
    push_cast
    rfl
  have hpoint : Compass.point n.toInt = Compass.point ((n.toInt % 360).toNat : ℕ) := by
    rw [Int.toNat_of_nonneg (by omega)]
    have hturns := Compass.point_add_turns (n.toInt % 360) (n.toInt / 360)
    rwa [Int.emod_add_mul_ediv] at hturns
  have hlt : (n.toInt % 360).toNat < 360 := by omega
  rw [getWindDirectionName]
  simp only [hmod]
  rw [hpoint]
  -- every whole number of degrees of one turn
  generalize (n.toInt % 360).toNat = r at hlt
  revert r
  decide +kernel

/-- Where the name in use of one point is the standard name of another. -/
theorem namesInUse_eq_iff {p q : ℕ} (hp : p < 16) (hq : q < 16) :
    namesInUse.getD q "" = Compass.names.getD p "" ↔
      q = p ∧ p ≠ 7 ∧ p ≠ 13 ∨ q = 13 ∧ p = 15 := by
  have hall : ∀ p < 16, ∀ q < 16, (namesInUse.getD q "" = Compass.names.getD p "" ↔
      q = p ∧ p ≠ 7 ∧ p ≠ 13 ∨ q = 13 ∧ p = 15) := by decide +kernel
  exact hall p hp q hq

/-! ## The enrichment -/

/-- The wind direction of a document: an integer `wind_direction_10m` of its `current`. -/
def windDirection (root : Json D) : Option Int64 :=
  match (root.get "current").bind (get "wind_direction_10m") with
  | some (.integer d) => some d
  | _ => none

/-- The `wind_direction_name` of a document. -/
def windDirectionName (root : Json D) : Option (Json D) :=
  (root.get "current").bind (get "wind_direction_name")

theorem exists_of_windDirection {d : Int64} (h : windDirection root = some d) :
    ∃ members, root.get "current" = some (.object members) ∧
      members.lookup "wind_direction_10m" = some (.integer d) := by
  rw [windDirection] at h
  split at h
  · rename_i hget
    obtain rfl := Option.some.inj h
    obtain ⟨current, hcurrent, hdirection⟩ := Option.bind_eq_some_iff.mp hget
    obtain ⟨members, rfl⟩ := exists_of_get hdirection
    exact ⟨members, hcurrent, hdirection⟩
  · cases h

/-- **What the enrichment names a direction.** -/
theorem windDirectionName_enrich {d : Int64} (h : windDirection root = some d) :
    windDirectionName (enrich root) = some (.string (getWindDirectionName d.toInt32)) := by
  obtain ⟨current, hcurrent, hdirection⟩ := exists_of_windDirection h
  obtain ⟨enriched, henriched, hlookup⟩ := exists_enrichCurrent current
  rw [windDirectionName, (get_enrich hcurrent).1, henriched, Option.bind_some, get_object, hlookup,
    if_pos rfl, hdirection]
  rfl

/-- The direction of a document that is built. -/
theorem windDirection_buildRoot (x : Platform F D) (v : WeatherData F D) :
    windDirection (buildRoot x v) = some v.winddirection.toInt64 := by
  rw [windDirection, (get_buildRoot x v).1, Option.bind_some, get_object,
    (lookup_currentFields x v).1]

/-- **The direction is named right**: as an `int` it has the same nearest point, and that is neither
of the two with another name; or it is found to be the one whose name is that of its own. -/
def NamedRight (d : Int64) : Prop :=
  Compass.point d.toInt32.toInt = Compass.point d.toInt ∧ Compass.point d.toInt ≠ 7 ∧
      Compass.point d.toInt ≠ 13 ∨
    Compass.point d.toInt32.toInt = 13 ∧ Compass.point d.toInt = 15

instance (d : Int64) : Decidable (NamedRight d) := inferInstanceAs (Decidable (_ ∨ _))

theorem getWindDirectionName_iff (d : Int64) :
    getWindDirectionName d.toInt32 = Compass.name d.toInt ↔ NamedRight d := by
  rw [getWindDirectionName_eq, Compass.name,
    namesInUse_eq_iff (Compass.point_lt _) (Compass.point_lt _), NamedRight]

/-- A direction that fits an `int` is named right unless it is one of two points. -/
theorem namedRight_toInt64_iff (n : Int32) : NamedRight n.toInt64 ↔
    Compass.point n.toInt ≠ 7 ∧ Compass.point n.toInt ≠ 13 := by
  rw [NamedRight, Int32.toInt32_toInt64, Int32.toInt_toInt64]
  omega

/-- **The name of a document that is built** is right unless the direction is nearest to one of the
two. -/
theorem windDirectionName_buildRoot_iff (x : Platform F D) (v : WeatherData F D) :
    windDirectionName (enrich (buildRoot x v))
        = some (.string (Compass.name v.winddirection.toInt)) ↔
      Compass.point v.winddirection.toInt ≠ 7 ∧ Compass.point v.winddirection.toInt ≠ 13 := by
  have hname := getWindDirectionName_iff v.winddirection.toInt64
  rw [Int32.toInt_toInt64, namedRight_toInt64_iff] at hname
  rw [windDirectionName_enrich (windDirection_buildRoot x v), ← hname]
  exact ⟨fun h => Json.string.inj (Option.some.inj h), fun h => by rw [h]⟩

/-! ## Directions that are named right -/

variable {d d' : Int64}

/-- The name is that of the point the direction is nearest to. -/
theorem NamedRight.nearest (h : NamedRight d) {q : ℕ} (hq : q < 16) {k : ℤ}
    (hk : |(d.toInt : ℚ) - (22.5 * q + 360 * k)| < 11.25) :
    getWindDirectionName d.toInt32 = Compass.names.getD q "" := by
  rw [(getWindDirectionName_iff d).mpr h, Compass.name, (Compass.point_eq_iff hq).mpr ⟨k, hk⟩]

/-- **Two directions have one name when they have one point**, and so at full turns. -/
theorem NamedRight.eq_iff (h : NamedRight d) (h' : NamedRight d') :
    getWindDirectionName d.toInt32 = getWindDirectionName d'.toInt32 ↔
      Compass.point d.toInt = Compass.point d'.toInt := by
  rw [(getWindDirectionName_iff d).mpr h, (getWindDirectionName_iff d').mpr h',
    Compass.name_eq_iff]

/-- The name at half a turn is the opposite one. -/
theorem NamedRight.opposite (h : NamedRight d) (hturn : d.toInt = d'.toInt + 180) :
    getWindDirectionName d.toInt32
      = Compass.names.getD ((Compass.point d'.toInt + 8) % 16) "" := by
  rw [(getWindDirectionName_iff d).mpr h, Compass.name, hturn, Compass.point_add_half]

/-! ## The response -/

/-- **When the wind direction of a response has its standard name**: for the document that is
enriched, read back or built, and the integer that is its direction. -/
theorem wind_direction_named_iff
    (h : buildJsonResponse x config env (some p) lat lon w = .ok (some root, w')) :
    ∃ document, (savedDocument x config env lat lon w.files = some document ∨
        savedDocument x config env lat lon w.files = none ∧ document = buildRoot x p.value) ∧
      ∀ d, windDirection document = some d →
        (windDirectionName root = some (.string (Compass.name d.toInt)) ↔ NamedRight d) := by
  obtain ⟨hresponse, -⟩ := of_buildJsonResponse h
  obtain ⟨-, hcases⟩ := of_response hresponse.symm
  obtain ⟨document, hdocument, rfl⟩ : ∃ document,
      (savedDocument x config env lat lon w.files = some document ∨
        savedDocument x config env lat lon w.files = none ∧ document = buildRoot x p.value) ∧
      root = enrich document := by
    rcases hcases with ⟨d, hd, rfl⟩ | ⟨hnone, rfl⟩
    · exact ⟨d, Or.inl hd, rfl⟩
    · exact ⟨_, Or.inr ⟨hnone, rfl⟩, rfl⟩
  refine ⟨document, hdocument, fun d hd => ?_⟩
  rw [windDirectionName_enrich hd, ← getWindDirectionName_iff]
  constructor
  · intro hname
    exact Json.string.inj (Option.some.inj hname)
  · intro hname
    rw [hname]

/-- A document with a direction. -/
def documentWith (d : Int64) : Json ℚ :=
  .object [("current", .object [("wind_direction_10m", .integer d)])]

/-- The document is read back, and enriched. -/
theorem exists_response_documentWith (d : Int64) :
    savedDocument upstreamPlatform handlerConfig (calmEnv []) 59.25 18
        (savedWorld (documentWith d)).files = some (documentWith d) ∧
      ∃ w', buildJsonResponse upstreamPlatform handlerConfig (calmEnv [])
        (some ⟨2, zeroed upstreamPlatform⟩) 59.25 18 (savedWorld (documentWith d))
          = .ok (some (enrich (documentWith d)), w') := by
  have hpath : generateCacheFilepath upstreamPlatform handlerConfig true 59.25 18
      = some savingPath.value := by decide +kernel
  have hsaved : savedDocument upstreamPlatform handlerConfig (calmEnv []) 59.25 18
      (savedWorld (documentWith d)).files = some (documentWith d) := by
    rw [savedDocument_eq hpath, savedWorld]
    simp [calmEnv, ApiAlloc.all]
  have hlive : Heap.Live (⟨2, zeroed upstreamPlatform⟩ : Ptr (WeatherData ℚ ℚ))
      (savedWorld (documentWith d)).heap := ⟨Nat.lt_succ_self 2, List.not_mem_nil⟩
  obtain ⟨w', hbuild, -⟩ := buildJsonResponse_eq upstreamPlatform handlerConfig (calmEnv []) 59.25
    18 hlive
  rw [response, hsaved] at hbuild
  exact ⟨hsaved, w', hbuild⟩

/-- A wind from the east. -/
theorem wind_direction_named_east : ∃ root w', buildJsonResponse upstreamPlatform handlerConfig
      (calmEnv []) (some ⟨2, zeroed upstreamPlatform⟩) 59.25 18 (savedWorld (documentWith 90))
        = .ok (some root, w') ∧
    windDirectionName root = some (.string "East") := by
  obtain ⟨hsaved, w', hbuild⟩ := exists_response_documentWith 90
  refine ⟨_, w', hbuild, ?_⟩
  obtain ⟨document, hdocument, hnamed⟩ := wind_direction_named_iff hbuild
  rcases hdocument with h | ⟨h, -⟩
  · obtain rfl := Option.some.inj (hsaved.symm.trans h)
    exact (hnamed 90 rfl).mpr (by decide)
  · cases hsaved.symm.trans h

/-- The response for a document with the direction has another name than the standard one. -/
def Misnamed (d : Int64) : Prop :=
  windDirection (documentWith d) = some d ∧ ∃ root w', buildJsonResponse upstreamPlatform
    handlerConfig (calmEnv []) (some ⟨2, zeroed upstreamPlatform⟩) 59.25 18
      (savedWorld (documentWith d)) = .ok (some root, w') ∧
    windDirectionName root ≠ some (.string (Compass.name d.toInt))

theorem misnamed_of_not_namedRight {d : Int64} (h : ¬ NamedRight d) : Misnamed d := by
  obtain ⟨-, w', hbuild⟩ := exists_response_documentWith d
  refine ⟨rfl, _, w', hbuild, fun hname => h ?_⟩
  rw [windDirectionName_enrich rfl] at hname
  exact (getWindDirectionName_iff d).mp (Json.string.inj (Option.some.inj hname))

/-- A wind from the south-southeast, one from the west-northwest, and a direction that does not fit
an `int`. -/
theorem wind_direction_misnamed : Misnamed 160 ∧ Misnamed 290 ∧ Misnamed 4294967296 :=
  ⟨misnamed_of_not_namedRight (by decide), misnamed_of_not_namedRight (by decide),
    misnamed_of_not_namedRight (by decide)⟩

end OpenMeteoApi

import JustWeather.Machinery.JsonText
import JustWeather.Server.WeatherServerInstance.Fits

/-!
# Server/WeatherServerInstance/NotFound — the body of a `404`

The method and the path of a request are pasted between two quotes of a JSON text.  A JSON reader
comes to them in the same places whatever they are, so the text says what it was to say exactly when
both are read back as themselves, and that is when both are plain (`answersNotFound_iff`).
-/

open CLib MessageHead HTTPServerConnection JsonText

namespace WeatherServerInstance

/-- The names in the body of a `404`. -/
def notFoundNames : List (List Byte) :=
  [bytes "error", bytes "message", bytes "method", bytes "path", bytes "available_endpoints"]

/-- **The body of a `404`, as it is meant**: one JSON object that has the method and the path of the
request, and nothing under another name. -/
def AnswersNotFound (method path body : List Byte) : Prop :=
  ∃ ms, parse body = some (.object ms) ∧
    (∀ v, (bytes "method", v) ∈ ms ↔ v = .string method) ∧
    (∀ v, (bytes "path", v) ∈ ms ↔ v = .string path) ∧
    ∀ m ∈ ms, m.1 ∈ notFoundNames

variable {method path rest : List Byte} {k n : ℕ}

/-! ## The text, member by member -/

/-- The line end and the two blanks before a member. -/
def indent : List Byte := [10, 32, 32]

/-- A member that is a string, and what follows it. -/
def stringMember (name v rest : List Byte) : List Byte :=
  34 :: (name ++ 34 :: 58 :: 32 :: 34 :: (v ++ 34 :: rest))

/-- The members after the path. -/
def endpoints : List Byte :=
  [ "\n  \"available_endpoints\": [\n",
    "    \"GET /\",\n",
    "    \"POST /echo\",\n",
    "    \"GET /v1/current?lat=XX&lon=YY\"\n",
    "  ]\n",
    "\x7d\n" ].flatMap bytes

theorem notFoundText_eq (method path : List Byte) : notFoundText method path =
    123 :: (indent ++ stringMember (bytes "error") (bytes "Not Found") (44 :: (indent ++
      stringMember (bytes "message") (bytes "The requested endpoint was not found")
        (44 :: (indent ++ stringMember (bytes "method") method (44 :: (indent ++
          stringMember (bytes "path") path (44 :: endpoints)))))))) := by
  simp only [notFoundText, List.append_assoc]
  rfl

variable {name v s : List Byte} {ms : List (List Byte × Value)}

/-- The reader comes to the string of a member. -/
theorem members_stringMember (hname : ∀ b ∈ name, Plain b) (hlen : name.length < n) (k : ℕ)
    (v rest : List Byte) :
    members (value (k + 1)) (n + 1) (indent ++ stringMember name v rest)
      = (chars k (v ++ 34 :: rest)).bind fun r =>
        following (members (value (k + 1)) n) (name, .string r.1) r.2 :=
  members_string (List.all_iff_forall_prop.mp (by decide)) hname hlen k _

/-- **A plain text is read as it is**, and then the members after it. -/
theorem members_of_plain (hname : ∀ b ∈ name, Plain b) (hv : ∀ b ∈ v, Plain b)
    (hlen : name.length < n) (hvlen : v.length < k) (s : List Byte) :
    members (value (k + 1)) (n + 1) (indent ++ stringMember name v (44 :: s))
      = (members (value (k + 1)) n s).map fun r => ((name, .string v) :: r.1, r.2) := by
  rw [members_stringMember hname hlen, chars_of_plain hv hvlen, Option.bind_some, following_comma]

/-- **A text that is read as itself is plain.** -/
theorem exists_of_members (hname : ∀ b ∈ name, Plain b) (hlen : name.length < n)
    (h : members (value (k + 1)) (n + 1) (indent ++ stringMember name v (44 :: (indent ++ s)))
      = some (ms, rest)) :
    ∃ v', (name, .string v') ∈ ms ∧ (v' = v → ∀ b ∈ v, Plain b) := by
  rw [members_stringMember hname hlen] at h
  obtain ⟨⟨v', r⟩, hchars, hfollow⟩ := Option.bind_eq_some_iff.mp h
  refine ⟨v', mem_of_following hfollow, ?_⟩
  rintro rfl
  exact (plain_of_chars (by decide) (by decide) hchars).1

/-- The last member. -/
theorem members_endpoints (k n : ℕ) : ∃ es, members (value (k + 40)) (n + 40) endpoints
    = some ([(bytes "available_endpoints", .array es)], [10]) := ⟨_, rfl⟩

/-- The first two members, which are the same for every request. -/
theorem value_notFoundText (method path : List Byte) (hn : 60 ≤ n) : ∃ e m,
    value (n + 3) (notFoundText method path)
      = (members (value (n + 2)) n (indent ++ stringMember (bytes "method") method (44 :: (indent ++
          stringMember (bytes "path") path (44 :: endpoints))))).map fun r =>
        (.object ((bytes "error", e) :: (bytes "message", m) :: r.1), r.2) := by
  refine ⟨.string (bytes "Not Found"), .string (bytes "The requested endpoint was not found"), ?_⟩
  have hmessage : (bytes "The requested endpoint was not found").length = 36 := by decide
  have hfound : (bytes "Not Found").length = 9 := by decide
  have hnames : (bytes "error").length = 5 ∧ (bytes "message").length = 7 := by decide
  have herror : ∀ b ∈ bytes "error", Plain b := List.all_iff_forall_prop.mp (by decide)
  have hmessage' : ∀ b ∈ bytes "message", Plain b := List.all_iff_forall_prop.mp (by decide)
  rw [notFoundText_eq, value_object rfl,
    members_of_plain herror (List.all_iff_forall_prop.mp (by decide)) (by omega) (by omega),
    members_of_plain hmessage' (List.all_iff_forall_prop.mp (by decide)) (by omega) (by omega),
    Option.map_map, Option.map_map]
  rfl

/-- The members of the text, read with `j` to spare. -/
theorem exists_parse_notFoundText (method path : List Byte) : ∃ j e m, method.length < j ∧
    path.length < j ∧ parse (notFoundText method path)
      = ((members (value (j + 44)) (j + 42) (indent ++ stringMember (bytes "method") method
          (44 :: (indent ++ stringMember (bytes "path") path (44 :: endpoints))))).map fun r =>
        (.object ((bytes "error", e) :: (bytes "message", m) :: r.1), r.2)).bind fun r =>
          if (skipBlanks r.2).isEmpty then some r.1 else none := by
  have hfixed : 200 ≤ (notFoundText [] []).length := by decide +kernel
  have hlen := length_notFoundText method path
  obtain ⟨j, hj⟩ : ∃ j, (notFoundText method path).length + 1 = j + 45 :=
    ⟨(notFoundText method path).length - 44, by omega⟩
  obtain ⟨e, m, hvalue⟩ := value_notFoundText (n := j + 42) method path (by omega)
  exact ⟨j, e, m, by omega, by omega, by rw [parse, hj, hvalue]⟩

theorem plain_method : ∀ b ∈ bytes "method", Plain b := List.all_iff_forall_prop.mp (by decide)

theorem plain_path : ∀ b ∈ bytes "path", Plain b := List.all_iff_forall_prop.mp (by decide)

theorem answersNotFound_of_plain (hmethod : ∀ b ∈ method, Plain b) (hpath : ∀ b ∈ path, Plain b) :
    AnswersNotFound method path (notFoundText method path) := by
  obtain ⟨j, e, m, hmlen, hplen, hparse⟩ := exists_parse_notFoundText method path
  obtain ⟨es, hes⟩ := members_endpoints (j + 4) j
  have hnames : (bytes "method").length = 6 ∧ (bytes "path").length = 4 := by decide
  rw [members_of_plain plain_method hmethod (by omega) (by omega),
    members_of_plain plain_path hpath (by omega) (by omega), hes] at hparse
  refine ⟨_, hparse, fun v => ?_, fun v => ?_, fun q hq => ?_⟩
  · have hne : bytes "method" ≠ bytes "error" ∧ bytes "method" ≠ bytes "message" ∧
        bytes "method" ≠ bytes "path" ∧ bytes "method" ≠ bytes "available_endpoints" := by decide
    simp [hne]
  · have hne : bytes "path" ≠ bytes "error" ∧ bytes "path" ≠ bytes "message" ∧
        bytes "path" ≠ bytes "method" ∧ bytes "path" ≠ bytes "available_endpoints" := by decide
    simp [hne]
  · simp only [List.mem_cons, List.not_mem_nil, or_false] at hq
    obtain rfl | rfl | rfl | rfl | rfl := hq <;> simp [notFoundNames]

theorem plain_of_answersNotFound (h : AnswersNotFound method path (notFoundText method path)) :
    (∀ b ∈ method, Plain b) ∧ ∀ b ∈ path, Plain b := by
  obtain ⟨j, e, m, hmlen, hplen, hparse⟩ := exists_parse_notFoundText method path
  obtain ⟨ms, hms, hmethod, hpath, -⟩ := h
  rw [hms] at hparse
  obtain ⟨⟨v, r⟩, hr, hv⟩ := Option.bind_eq_some_iff.mp hparse.symm
  obtain ⟨⟨ms', r'⟩, hmembers, heq⟩ := Option.map_eq_some_iff.mp hr
  obtain ⟨rfl, rfl⟩ := Prod.ext_iff.mp heq
  have hobject : ms = (bytes "error", e) :: (bytes "message", m) :: ms' := by
    dsimp only at hv
    split at hv
    · exact (Value.object.inj (Option.some.inj hv)).symm
    · cases hv
  subst hobject
  have hnames : (bytes "method").length = 6 ∧ (bytes "path").length = 4 := by decide
  obtain ⟨v, hv, hplain⟩ := exists_of_members plain_method (by omega) hmembers
  have hm : ∀ b ∈ method, Plain b := hplain (Value.string.inj ((hmethod _).mp (by simp [hv])))
  rw [members_of_plain plain_method hm (by omega) (by omega)] at hmembers
  obtain ⟨⟨ms'', r''⟩, hmembers', heq⟩ := Option.map_eq_some_iff.mp hmembers
  obtain ⟨rfl, rfl⟩ := Prod.ext_iff.mp heq
  obtain ⟨v, hv, hplain⟩ := exists_of_members plain_path (by omega) hmembers'
  exact ⟨hm, hplain (Value.string.inj ((hpath _).mp (by simp [hv])))⟩

/-! ## Every request that is not found -/

/-- The request is for none of the endpoints. -/
structure Unrouted (method path : List Byte) : Prop where
  homepage : ¬ (method = bytes "GET" ∧ path = bytes "/")
  echo : path ≠ bytes "/echo"
  current : ¬ (method = bytes "GET" ∧ path = bytes "/v1/current")

variable {κ : Type} {current : Current} {smw smw' : Smw κ} {fd : ℤ} {task : Option TaskHandle}
  {ticks : List Tick} {t : Tick} {y : Smw κ × HTTPServerConnection} {evs evs' : List Event}
  {c d : HTTPServerConnection} {requestPath : List Byte}

theorem onRequest_of_unrouted {r : Option Response} (hm : c.method = some method)
    (hp : c.requestPath = some requestPath) (hroute : Unrouted method (splitPath requestPath).1)
    (hcall : onRequest current true c = .ok r) :
    ∃ r', r = some r' ∧
      Carries r' ⟨404, (snprintf 512 (notFoundText method (splitPath requestPath).1)).1⟩ := by
  rw [onRequest, hp] at hcall
  dsimp only at hcall
  rcases hcopy : copyPath requestPath with f | target
  · rw [hcopy] at hcall
    cases hcall
  · obtain rfl := copyPath_eq hcopy
    simp only [hcopy, hm, if_neg hroute.homepage, if_neg hroute.echo, if_neg hroute.current]
      at hcall
    have hr := hcall
    simp only [notFound, if_true] at hr
    obtain ⟨r', rfl⟩ := exists_of_map_some hr
    exact ⟨r', rfl, carries_notFound hcall⟩

/-- **The body of a `404` is written whole.** -/
theorem exists_notFound
    (hrun : connectionRun (onRequest current true) smw fd task ticks = .ok ((smw', d), evs))
    (hstep : taskWork (onRequest current true) t (smw', d) = .ok (y, evs'))
    (hc : .request c ∈ evs') (hm : c.method = some method) (hp : c.requestPath = some requestPath)
    (hroute : Unrouted method (splitPath requestPath).1) :
    ∃ r, y.2.writeBuffer = some r.writeBuffer ∧ y.2.writeSize = r.writeSize ∧
      Carries r ⟨404, notFoundText method (splitPath requestPath).1⟩ := by
  have hall := Trace.run_concat hrun hstep
  obtain ⟨hmethod, hpath, -⟩ := length_of_requested hall (List.mem_append_right _ hc)
  obtain ⟨a, hd, r, -, -, -, -, hcall, rfl⟩ := exists_of_requesting hrun hstep hc
  obtain ⟨r', rfl, hcarries⟩ := onRequest_of_unrouted hm hp hroute hcall
  have hlen := length_splitPath_le requestPath
  have hle := (hpath requestPath hp).1
  have hcomplete : Complete 512 (notFoundText method (splitPath requestPath).1) :=
    complete_notFoundText (hmethod method hm).1 (by omega)
  rw [hcomplete.snprintf_eq] at hcarries
  exact ⟨r', rfl, rfl, hcarries⟩

/-- **The body of a `404` is what it was meant to be exactly when** neither the method nor the path
has a quote, a backslash or a control character in it. -/
theorem not_found_json_iff
    (hrun : connectionRun (onRequest current true) smw fd task ticks = .ok ((smw', d), evs))
    (hstep : taskWork (onRequest current true) t (smw', d) = .ok (y, evs'))
    (hc : .request c ∈ evs') (hm : c.method = some method) (hp : c.requestPath = some requestPath)
    (hroute : Unrouted method (splitPath requestPath).1) :
    ∃ r body, y.2.writeBuffer = some r.writeBuffer ∧ y.2.writeSize = r.writeSize ∧
      Carries r ⟨404, body⟩ ∧
      (AnswersNotFound method (splitPath requestPath).1 body ↔
        (∀ b ∈ method, Plain b) ∧ ∀ b ∈ (splitPath requestPath).1, Plain b) := by
  obtain ⟨r, hbuffer, hsize, hcarries⟩ := exists_notFound hrun hstep hc hm hp hroute
  exact ⟨r, _, hbuffer, hsize, hcarries, plain_of_answersNotFound,
    fun hplain => answersNotFound_of_plain hplain.1 hplain.2⟩

/-- A tick that brings a request for a page that is not there. -/
def pageTick : Tick := readTick (bytes "GET /nowhere HTTP/1.1\r\n\r\n") (by decide) (by decide)

set_option maxRecDepth 4000 in
/-- The answer to it. -/
theorem not_found_json_page : ∃ y c r body,
    taskWork (onRequest (fun _ => (none, 500)) true) pageTick
      ((Smw.init : Smw Unit), initiate 4 none) = .ok (y, [.request c]) ∧
    y.2.writeBuffer = some r.writeBuffer ∧ Carries r ⟨404, body⟩ ∧
    AnswersNotFound (bytes "GET") (bytes "/nowhere") body := by
  have hstep : ∃ y c, taskWork (onRequest (fun _ => (none, 500)) true) pageTick
      ((Smw.init : Smw Unit), initiate 4 none) = .ok (y, [.request c]) ∧
      c.method = some (bytes "GET") ∧ c.requestPath = some (bytes "/nowhere") :=
    ⟨_, _, rfl, rfl, rfl⟩
  obtain ⟨y, c, hstep, hm, hp⟩ := hstep
  have hrun : connectionRun (onRequest (fun _ => (none, 500)) true) (Smw.init : Smw Unit) 4 none []
      = .ok ((Smw.init, initiate 4 none), []) := rfl
  obtain ⟨r, body, hbuffer, -, hcarries, hiff⟩ := not_found_json_iff hrun hstep
    (List.mem_singleton.mpr rfl) hm hp ⟨by decide, by decide, by decide⟩
  exact ⟨y, c, r, body, hstep, hbuffer, hcarries, hiff.mpr ⟨by decide, by decide⟩⟩

/-- A tick that brings a request with a quote in its path. -/
def quoteTick : Tick := readTick (bytes "GET /a\"b HTTP/1.1\r\n\r\n") (by decide) (by decide)

set_option maxRecDepth 4000 in
/-- **A path with a quote in it ends its string early**, and the text is not what was meant. -/
theorem not_found_json_quote : ∃ y c r body,
    taskWork (onRequest (fun _ => (none, 500)) true) quoteTick
      ((Smw.init : Smw Unit), initiate 4 none) = .ok (y, [.request c]) ∧
    c.method = some (bytes "GET") ∧ c.requestPath = some (bytes "/a\"b") ∧
    y.2.writeBuffer = some r.writeBuffer ∧ Carries r ⟨404, body⟩ ∧
    ¬ AnswersNotFound (bytes "GET") (bytes "/a\"b") body := by
  have hstep : ∃ y c, taskWork (onRequest (fun _ => (none, 500)) true) quoteTick
      ((Smw.init : Smw Unit), initiate 4 none) = .ok (y, [.request c]) ∧
      c.method = some (bytes "GET") ∧ c.requestPath = some (bytes "/a\"b") :=
    ⟨_, _, rfl, rfl, rfl⟩
  obtain ⟨y, c, hstep, hm, hp⟩ := hstep
  have hrun : connectionRun (onRequest (fun _ => (none, 500)) true) (Smw.init : Smw Unit) 4 none []
      = .ok ((Smw.init, initiate 4 none), []) := rfl
  obtain ⟨r, hbuffer, -, hcarries⟩ := exists_notFound hrun hstep (List.mem_singleton.mpr rfl) hm hp
    ⟨by decide, by decide, by decide⟩
  refine ⟨y, c, r, _, hstep, hm, hp, hbuffer, hcarries, fun hanswers => ?_⟩
  exact absurd ((plain_of_answersNotFound hanswers).2 34 (by decide)) (by decide)

end WeatherServerInstance

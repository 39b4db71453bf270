import JustWeather.CLib.Blocks
import JustWeather.Lib.HttpClient

/-!
# Lib/HttpClient/ParseUrl — the URL, taken apart in place

`parse_url` writes the parts of a URL into three arrays of its caller.  It stays inside of them and
leaves there what `parseUrl` gives (`parseUrlInto_returns`); what `parseUrl` makes of a URL that was
put together is its parts (`parse_url_inverts`), and the other way round it keeps a URL whole
exactly when the port and the path fit their arrays (`reassembles_iff`).
-/

open CLib

/-! ## What is accepted -/

/-- What `parse_url` guarantees of a URL it accepts. -/
structure ParsedUrl (u : HttpClient.Url) : Prop where
  hostname_ne_nil : u.hostname ≠ []
  hostname_le : u.hostname.length ≤ 255
  colon_notMem : (58 : Byte) ∉ u.hostname
  slash_notMem : (47 : Byte) ∉ u.hostname
  zero_notMem_hostname : (0 : Byte) ∉ u.hostname
  path_ne_nil : u.path ≠ []
  path_le : u.path.length ≤ 511
  zero_notMem_path : (0 : Byte) ∉ u.path

theorem mem_of_skipScheme {url : List Byte} {b : Byte} (hb : b ∈ (HttpClient.skipScheme url).1) :
    b ∈ url := by
  rw [HttpClient.skipScheme] at hb
  split at hb
  · exact List.mem_of_mem_drop hb
  · split at hb
    · exact List.mem_of_mem_drop hb
    · exact hb

theorem mem_of_takePort {port s : List Byte} {b : Byte} (hb : b ∈ (HttpClient.takePort port s).1) :
    b ∈ s := by
  unfold HttpClient.takePort at hb
  split at hb
  · exact List.mem_cons_of_mem _ (List.mem_of_mem_drop hb)
  · exact hb

/-- A path is there, fits its field, and has no terminator inside. -/
theorem takePath_bounds {s : List Byte} (hs : (0 : Byte) ∉ s) : HttpClient.takePath s ≠ [] ∧
    (HttpClient.takePath s).length ≤ 511 ∧ (0 : Byte) ∉ HttpClient.takePath s := by
  unfold HttpClient.takePath
  split
  · exact ⟨by simp [strncpy], List.length_take_le _ _, fun hb => hs (List.mem_of_mem_take hb)⟩
  · decide

theorem parsedUrl_of_parseUrl {url : List Byte} {u : HttpClient.Url} (hnul : (0 : Byte) ∉ url)
    (h : HttpClient.parseUrl url = some u) : ParsedUrl u := by
  simp only [HttpClient.parseUrl] at h
  split at h
  · cases h
  · rename_i hlen
    cases h
    have hmem : (0 : Byte) ∉ (HttpClient.skipScheme url).1 := fun hb => hnul (mem_of_skipScheme hb)
    have hhost : ∀ b ∈ (HttpClient.skipScheme url).1.takeWhile fun b => b != 58 && b != 47,
        b ≠ 58 ∧ b ≠ 47 := fun b hb => by simpa using List.mem_takeWhile_imp hb
    obtain ⟨hpath, hle, hzero⟩ := takePath_bounds
      fun hb => hmem (List.mem_of_mem_drop (mem_of_takePort hb))
    refine ⟨fun hnil => hlen (Or.inl ?_), Nat.le_of_not_lt fun hlt => hlen (Or.inr hlt),
      fun hb => (hhost _ hb).1 rfl, fun hb => (hhost _ hb).2 rfl,
      fun hb => hmem ((List.takeWhile_prefix _).subset hb), hpath, hle, hzero⟩
    exact congrArg List.length hnil

namespace HttpClient

/-! ## The arrays -/

/-- `hostname[256]`, `port[16]` and `path[512]`. -/
structure UrlBlocks where
  hostname : Block 256
  port : Block 16
  path : Block 512

/-- The scheme is skipped, and sets the default port. -/
def schemeInto (url : List Byte) (port : Block 16) : Except Fault (List Byte × Block 16) :=
  if startsWith url (bytes "http://") then (port.strcpy (bytes "80")).map fun port =>
    (url.drop 7, port)
  else if startsWith url (bytes "https://") then (port.strcpy (bytes "443")).map fun port =>
    (url.drop 8, port)
  else .ok (url, port)

/-- `if (*end == ':') { … }`. -/
def portInto (port : Block 16) : List Byte → Except Fault (List Byte × Block 16)
  | 58 :: portStart =>
    let portLen := (portStart.takeWhile (· != 47)).length
    if 0 < portLen ∧ portLen < 16 then (port.copyPrefix portLen portStart).map fun port =>
      (portStart.drop portLen, port)
    else .ok (portStart.drop portLen, port)
  | rest => .ok (rest, port)

/-- `if (*end == '/') { … }`. -/
def pathInto (path : Block 512) : List Byte → Except Fault (Block 512)
  | 47 :: rest => path.copyPrefix 511 (47 :: rest)
  | _ => .ok path

/-- `parse_url`: its return code, and the arrays after it. -/
def parseUrlInto (url : List Byte) (f : UrlBlocks) : Except Fault (ℤ × UrlBlocks) := do
  let port ← f.port.strcpy (bytes "80")
  let path ← f.path.strcpy (bytes "/")
  let (start, port) ← schemeInto url port
  let hostnameLen := (start.takeWhile fun b => b != 58 && b != 47).length
  if hostnameLen = 0 ∨ 255 < hostnameLen then
    return (-1, { f with port, path })
  else
    let hostname ← f.hostname.copyPrefix hostnameLen start
    let (rest, port) ← portInto port (start.drop hostnameLen)
    let path ← pathInto path rest
    return (0, ⟨hostname, port, path⟩)

/-- The arrays hold the parts of a URL. -/
structure UrlBlocks.Hold (f : UrlBlocks) (u : Url) : Prop where
  hostname : f.hostname.Has u.hostname
  port : f.port.Has u.port
  path : f.path.Has u.path

theorem exists_schemeInto (url : List Byte) {port : Block 16} (hport : port.Has (bytes "80")) :
    ∃ port', schemeInto url port = .ok ((skipScheme url).1, port') ∧
      port'.Has (skipScheme url).2 := by
  rw [schemeInto, skipScheme]
  split
  · obtain ⟨port', h, hhas⟩ := port.strcpy_of_lt (s := bytes "80") (by decide)
    exact ⟨port', by rw [h]; rfl, hhas⟩
  · split
    · obtain ⟨port', h, hhas⟩ := port.strcpy_of_lt (s := bytes "443") (by decide)
      exact ⟨port', by rw [h]; rfl, hhas⟩
    · exact ⟨port, rfl, hport⟩

theorem take_length_takeWhile (p : Byte → Bool) (s : List Byte) :
    s.take (s.takeWhile p).length = s.takeWhile p :=
  List.prefix_iff_eq_take.mp (List.takeWhile_prefix p) |>.symm

theorem drop_length_takeWhile (p : Byte → Bool) (s : List Byte) :
    s.drop (s.takeWhile p).length = s.dropWhile p := by
  have h : (s.takeWhile p ++ s.dropWhile p).drop (s.takeWhile p).length = s.dropWhile p :=
    List.drop_left
  rwa [List.takeWhile_append_dropWhile] at h

theorem takePort_cons (port r : List Byte) : takePort port (58 :: r)
    = (r.drop (r.takeWhile (· != 47)).length,
      if 0 < (r.takeWhile (· != 47)).length ∧ (r.takeWhile (· != 47)).length < 16 then
        strncpy 15 (r.takeWhile (· != 47)) else port) := rfl

theorem takePort_of_ne {rest : List Byte} (h : ∀ r, rest ≠ 58 :: r) (port : List Byte) :
    takePort port rest = (rest, port) := by
  unfold takePort
  split
  · exact absurd rfl (h _)
  · rfl

theorem takePath_of_ne {rest : List Byte} (h : ∀ r, rest ≠ 47 :: r) :
    takePath rest = bytes "/" := by
  unfold takePath
  split
  · exact absurd rfl (h _)
  · rfl

theorem exists_portInto {digits : List Byte} {port : Block 16} (hport : port.Has digits)
    (rest : List Byte) :
    ∃ port', portInto port rest = .ok ((takePort digits rest).1, port') ∧
      port'.Has (takePort digits rest).2 := by
  unfold portInto
  split
  · rename_i portStart
    rw [takePort_cons]
    dsimp only
    split
    · rename_i hlen
      obtain ⟨port', h, hhas⟩ := Block.copyPrefix_of_lt hlen.2 portStart port
      rw [take_length_takeWhile] at hhas
      refine ⟨port', by rw [h]; rfl, ?_⟩
      rwa [strncpy, List.take_of_length_le (by omega)]
    · exact ⟨port, rfl, hport⟩
  · rename_i hne
    rw [takePort_of_ne hne]
    exact ⟨port, rfl, hport⟩

theorem exists_pathInto {path : Block 512} (hpath : path.Has (bytes "/")) (rest : List Byte) :
    ∃ path', pathInto path rest = .ok path' ∧ path'.Has (takePath rest) := by
  unfold pathInto
  split
  · exact Block.copyPrefix_of_lt (by decide) _ path
  · rename_i hne
    rw [takePath_of_ne hne]
    exact ⟨path, rfl, hpath⟩

/-- **`parse_url` stays inside its arrays**, and leaves there what `parseUrl` gives. -/
theorem parseUrlInto_returns (url : List Byte) (f : UrlBlocks) :
    ∃ code f', parseUrlInto url f = .ok (code, f') ∧
      match parseUrl url with
      | none => code = -1
      | some u => code = 0 ∧ f'.Hold u := by
  obtain ⟨port₀, hport₀, hhas₀⟩ := f.port.strcpy_of_lt (s := bytes "80") (by decide)
  obtain ⟨path₀, hpath₀, hslash⟩ := f.path.strcpy_of_lt (s := bytes "/") (by decide)
  obtain ⟨port₁, hport₁, hhas₁⟩ := exists_schemeInto url hhas₀
  rw [parseUrlInto, parseUrl, hport₀, hpath₀]
  simp only [bind, Except.bind, hport₁, pure, Except.pure]
  split
  · exact ⟨-1, _, rfl, rfl⟩
  · rename_i hlen
    have hle : ((skipScheme url).1.takeWhile fun b => b != 58 && b != 47).length < 256 := by omega
    obtain ⟨hostname, hhost, hhas⟩ := Block.copyPrefix_of_lt hle (skipScheme url).1 f.hostname
    rw [take_length_takeWhile] at hhas
    obtain ⟨port₂, hport₂, hhas₂⟩ := exists_portInto hhas₁ ((skipScheme url).1.drop
      ((skipScheme url).1.takeWhile fun b => b != 58 && b != 47).length)
    obtain ⟨path₁, hpath₁, hhas₃⟩ := exists_pathInto hslash (takePort (skipScheme url).2
      ((skipScheme url).1.drop
        ((skipScheme url).1.takeWhile fun b => b != 58 && b != 47).length)).1
    refine ⟨0, ⟨hostname, port₂, path₁⟩, ?_, rfl, hhas, hhas₂, hhas₃⟩
    simp only [hhost, hport₂, hpath₁]

/-- The URL the arrays hold. -/
def UrlBlocks.url (f : UrlBlocks) : Url :=
  ⟨cstr f.hostname.bytes, cstr f.port.bytes, cstr f.path.bytes⟩

/-! ## A URL that is put together -/

/-- What a URL may start with. -/
inductive Scheme
  | none
  | http
  | https
  deriving DecidableEq

/-- The scheme, as it is written. -/
def Scheme.text : Scheme → List Byte
  | none => []
  | http => bytes "http://"
  | https => bytes "https://"

/-- The port of a URL that says none. -/
def Scheme.port : Scheme → List Byte
  | none => bytes "80"
  | http => bytes "80"
  | https => bytes "443"

/-- **The parts of a URL**, each of which fits its array. -/
structure UrlParts where
  scheme : Scheme
  host : List Byte
  port : Option (List Byte)
  path : List Byte
  host_ne_nil : host ≠ []
  host_le : host.length ≤ 255
  of_mem_host : ∀ b ∈ host, b ≠ 58 ∧ b ≠ 47 ∧ b ≠ 0
  port_ne_nil : ∀ digits ∈ port, digits ≠ []
  port_le : ∀ digits ∈ port, digits.length ≤ 15
  of_mem_port : ∀ digits ∈ port, ∀ b ∈ digits, b ≠ 47 ∧ b ≠ 0
  path_slash : path = [] ∨ ∃ rest, path = 47 :: rest
  path_le : path.length ≤ 511
  zero_notMem_path : (0 : Byte) ∉ path

namespace UrlParts

/-- `:` and the port, if there is one. -/
def portText (p : UrlParts) : List Byte :=
  match p.port with
  | none => []
  | some digits => 58 :: digits

/-- The URL. -/
def text (p : UrlParts) : List Byte := p.scheme.text ++ (p.host ++ (p.portText ++ p.path))

/-- What `parse_url` is to make of it. -/
def url (p : UrlParts) : Url :=
  ⟨p.host, p.port.getD p.scheme.port, if p.path = [] then bytes "/" else p.path⟩

variable (p : UrlParts)

theorem takeWhile_path : p.path.takeWhile (fun b => b != 58 && b != 47) = [] := by
  obtain h | ⟨rest, h⟩ := p.path_slash <;> rw [h] <;> rfl

/-- The hostname ends where it was meant to. -/
theorem takeWhile_host : (p.host ++ (p.portText ++ p.path)).takeWhile
    (fun b => b != 58 && b != 47) = p.host := by
  have hhost : ∀ b ∈ p.host, (b != 58 && b != 47) = true := by
    intro b hb
    obtain ⟨hcolon, hslash, -⟩ := p.of_mem_host b hb
    simp [hcolon, hslash]
  have htail : (p.portText ++ p.path).takeWhile (fun b => b != 58 && b != 47) = [] := by
    rw [portText]
    rcases p.port with _ | digits
    · exact p.takeWhile_path
    · rfl
  rw [List.takeWhile_append_of_pos hhost, htail, List.append_nil]

/-- **A host that is named like a scheme is no scheme**: `//` cannot follow its `:`. -/
theorem text_ne {name : List Byte} (rest : List Byte)
    (hname : name.takeWhile (fun b => b != 58 && b != 47) = name) :
    p.host ++ (p.portText ++ p.path) ≠ name ++ 58 :: 47 :: rest := by
  intro h
  have hhost : p.host = name := by
    rw [← p.takeWhile_host, h, List.takeWhile_append_of_pos (List.takeWhile_eq_self_iff.mp hname)]
    simp
  rw [hhost, List.append_cancel_left_eq, portText] at h
  rcases hp : p.port with _ | digits
  · rw [hp] at h
    obtain hnil | ⟨path, hpath⟩ := p.path_slash
    · rw [hnil] at h
      cases h
    · rw [hpath] at h
      cases h
  · obtain ⟨b, digits', rfl⟩ := List.exists_cons_of_ne_nil (p.port_ne_nil digits hp)
    rw [hp] at h
    obtain ⟨hb, -⟩ : b = 47 ∧ digits' ++ p.path = rest := by simpa using h
    exact (p.of_mem_port _ hp b (List.mem_cons_self ..)).1 hb

end UrlParts

theorem startsWith_append (lit s : List Byte) : startsWith (lit ++ s) lit = true :=
  List.isPrefixOf_iff_prefix.mpr (List.prefix_append lit s)

namespace UrlParts

variable (p : UrlParts)

theorem skipScheme_text :
    skipScheme p.text = (p.host ++ (p.portText ++ p.path), p.scheme.port) := by
  have hno : ∀ name, name.takeWhile (fun b => b != 58 && b != 47) = name →
      startsWith (p.host ++ (p.portText ++ p.path)) (name ++ [58, 47, 47]) = false := by
    intro name hname
    rw [← Bool.not_eq_true]
    intro hstart
    obtain ⟨rest, hrest⟩ := List.isPrefixOf_iff_prefix.mp hstart
    exact p.text_ne (47 :: rest) hname (by rw [← hrest]; simp)
  have hhttp : bytes "http://" = bytes "http" ++ [58, 47, 47] := rfl
  have hhttps : bytes "https://" = bytes "https" ++ [58, 47, 47] := rfl
  rw [text, skipScheme]
  rcases p.scheme with _ | _ | _
  · rw [Scheme.text, List.nil_append, hhttp, hno (bytes "http") (by decide), hhttps,
      hno (bytes "https") (by decide)]
    rfl
  · rw [Scheme.text, startsWith_append]
    rfl
  · rfl

theorem takePort_text (port : List Byte) :
    takePort port (p.portText ++ p.path) = (p.path, p.port.getD port) := by
  have hpath : p.path.takeWhile (· != 47) = [] := by
    obtain h | ⟨rest, h⟩ := p.path_slash <;> rw [h] <;> rfl
  rw [portText]
  rcases hp : p.port with _ | digits
  · rw [takePort_of_ne, Option.getD_none]
    · rfl
    · intro r h
      obtain hnil | ⟨rest, hrest⟩ := p.path_slash
      · simp [hnil] at h
      · simp [hrest] at h
  · have hdigits : ∀ b ∈ digits, (b != 47) = true := by
      intro b hb
      simpa using (p.of_mem_port digits hp b hb).1
    have htake : (digits ++ p.path).takeWhile (· != 47) = digits := by
      rw [List.takeWhile_append_of_pos hdigits, hpath, List.append_nil]
    have hpos := List.length_pos_iff.mpr (p.port_ne_nil digits hp)
    have hle := p.port_le digits hp
    rw [List.cons_append, takePort_cons, htake, List.drop_left, if_pos ⟨hpos, by omega⟩, strncpy,
      List.take_of_length_le hle, Option.getD_some]

theorem takePath_text : takePath p.path = if p.path = [] then bytes "/" else p.path := by
  have hle := p.path_le
  obtain h | ⟨rest, h⟩ := p.path_slash
  · rw [h]
    rfl
  · rw [h] at hle ⊢
    rw [if_neg (List.cons_ne_nil 47 rest)]
    exact List.take_of_length_le hle

/-- **What was put together is taken apart again.** -/
theorem parseUrl_text : parseUrl p.text = some p.url := by
  have hpos := List.length_pos_iff.mpr p.host_ne_nil
  have hle := p.host_le
  rw [parseUrl, p.skipScheme_text]
  dsimp only
  rw [p.takeWhile_host, if_neg (by omega), List.drop_left, p.takePort_text, p.takePath_text]
  rfl

end UrlParts

/-- The parts of a URL that `parse_url` holds are C strings. -/
theorem UrlBlocks.Hold.url_eq {f : UrlBlocks} {u : Url} (h : f.Hold u)
    (hhost : (0 : Byte) ∉ u.hostname) (hport : (0 : Byte) ∉ u.port) (hpath : (0 : Byte) ∉ u.path) :
    f.url = u := by
  rw [url, h.hostname.cstr_eq hhost, h.port.cstr_eq hport, h.path.cstr_eq hpath]

/-- **`parse_url` inverts the formation of a URL.** -/
theorem parse_url_inverts (p : UrlParts) (f : UrlBlocks) :
    ∃ f', parseUrlInto p.text f = .ok (0, f') ∧ f'.url = p.url := by
  obtain ⟨code, f', hrun, hspec⟩ := parseUrlInto_returns p.text f
  rw [p.parseUrl_text] at hspec
  obtain ⟨rfl, hhold⟩ := hspec
  refine ⟨f', hrun, hhold.url_eq (fun h => (p.of_mem_host 0 h).2.2 rfl) ?_ ?_⟩
  · change (0 : Byte) ∉ p.port.getD p.scheme.port
    rcases hp : p.port with _ | digits
    · cases p.scheme <;> decide
    · exact fun h => (p.of_mem_port digits hp 0 h).2 rfl
  · rw [UrlParts.url]
    dsimp only
    split
    · decide
    · exact p.zero_notMem_path

/-- `http://localhost:10680/echo`. -/
def UrlParts.echo : UrlParts where
  scheme := .http
  host := bytes "localhost"
  port := some (bytes "10680")
  path := bytes "/echo"
  host_ne_nil := by decide
  host_le := by decide
  of_mem_host := by decide +kernel
  port_ne_nil := by decide
  port_le := by decide
  of_mem_port := by decide +kernel
  path_slash := Or.inr ⟨bytes "echo", rfl⟩
  path_le := by decide
  zero_notMem_path := by decide

/-- The parts of a URL, out of its text. -/
theorem parse_url_inverts_echo : ∃ f',
    parseUrlInto (bytes "http://localhost:10680/echo") ⟨.zero 256, .zero 16, .zero 512⟩
      = .ok (0, f') ∧ f'.url = ⟨bytes "localhost", bytes "10680", bytes "/echo"⟩ := by
  have htext : UrlParts.echo.text = bytes "http://localhost:10680/echo" := by decide
  have hurl : UrlParts.echo.url = ⟨bytes "localhost", bytes "10680", bytes "/echo"⟩ := by
    decide
  rw [← htext, ← hurl]
  exact parse_url_inverts .echo ⟨.zero 256, .zero 16, .zero 512⟩

/-! ## A URL that is taken apart -/

/-- The scheme a URL starts with. -/
def schemeText (url : List Byte) : List Byte :=
  if startsWith url (bytes "http://") then bytes "http://"
  else if startsWith url (bytes "https://") then bytes "https://"
  else []

/-- What stands before the first `:` or `/` after the scheme. -/
def hostText (url : List Byte) : List Byte :=
  (skipScheme url).1.takeWhile fun b => b != 58 && b != 47

/-- What follows the host. -/
def afterHost (url : List Byte) : List Byte :=
  (skipScheme url).1.dropWhile fun b => b != 58 && b != 47

/-- The port a URL says. -/
def portText (url : List Byte) : List Byte :=
  match afterHost url with
  | 58 :: rest => rest.takeWhile (· != 47)
  | _ => []

/-- The path a URL says. -/
def pathText (url : List Byte) : List Byte :=
  match afterHost url with
  | 58 :: rest => rest.dropWhile (· != 47)
  | rest => rest

/-- **The parts give the URL**: the scheme, the host, the port if the URL says one, and the path,
where a path the URL does not have reads as `/`. -/
def Reassembles (url : List Byte) (u : Url) : Prop :=
  ∃ colon slash, url = schemeText url ++ (u.hostname ++ (colon ++ slash)) ∧
    (if portText url = [] then colon = [] ∨ colon = [58] else colon = 58 :: u.port) ∧
    (slash = u.path ∨ slash = [] ∧ u.path = bytes "/")

/-- Each part of the URL fits its array. -/
def Fits (url : List Byte) : Prop :=
  (hostText url).length < 256 ∧ (portText url).length < 16 ∧ (pathText url).length < 512

theorem schemeText_append (url : List Byte) : schemeText url ++ (skipScheme url).1 = url := by
  have hdrop : ∀ {lit : List Byte}, startsWith url lit = true →
      lit ++ url.drop lit.length = url := by
    intro lit h
    obtain ⟨rest, rfl⟩ := List.isPrefixOf_iff_prefix.mp h
    rw [List.drop_left]
  rw [schemeText, skipScheme]
  split
  · rename_i h
    exact hdrop h
  · split
    · rename_i h
      exact hdrop h
    · rfl

theorem hostText_append (url : List Byte) : hostText url ++ afterHost url = (skipScheme url).1 :=
  List.takeWhile_append_dropWhile

theorem drop_hostText (url : List Byte) :
    (skipScheme url).1.drop (hostText url).length = afterHost url :=
  drop_length_takeWhile _ _

/-- What follows the host is nothing, a port, or a path. -/
theorem afterHost_cases (url : List Byte) :
    (∃ rest, afterHost url = 58 :: rest ∧ portText url = rest.takeWhile (· != 47) ∧
      pathText url = rest.dropWhile (· != 47)) ∨
    (∃ rest, afterHost url = 47 :: rest ∧ portText url = [] ∧ pathText url = 47 :: rest) ∨
    (afterHost url = [] ∧ portText url = [] ∧ pathText url = []) := by
  rw [portText, pathText]
  rcases h : afterHost url with _ | ⟨b, rest⟩
  · exact Or.inr (Or.inr ⟨rfl, rfl, rfl⟩)
  · have hb : (b != 58 && b != 47) = false := by
      have := List.head?_dropWhile_not (fun b : Byte => b != 58 && b != 47) (skipScheme url).1
      rw [← afterHost, h] at this
      simpa using this
    by_cases hcolon : b = 58
    · subst hcolon
      exact Or.inl ⟨rest, rfl, rfl, rfl⟩
    · obtain rfl : b = 47 := by simpa [hcolon] using hb
      exact Or.inr (Or.inl ⟨rest, rfl, rfl, rfl⟩)

/-- A path starts at its `/`. -/
theorem pathText_cases (url : List Byte) :
    pathText url = [] ∨ ∃ rest, pathText url = 47 :: rest := by
  rcases afterHost_cases url with ⟨rest, -, -, hpath⟩ | ⟨rest, -, -, hpath⟩ | ⟨-, -, hpath⟩
  · rcases h : rest.dropWhile (· != 47) with _ | ⟨b, rest'⟩
    · exact Or.inl (hpath.trans h)
    · have hb := List.head?_dropWhile_not (· != (47 : Byte)) rest
      rw [h] at hb
      obtain rfl : b = 47 := by simpa using hb
      exact Or.inr ⟨rest', hpath.trans h⟩
  · exact Or.inr ⟨rest, hpath⟩
  · exact Or.inl hpath

theorem takePort_afterHost (port url : List Byte) : takePort port (afterHost url) = (pathText url,
    if 0 < (portText url).length ∧ (portText url).length < 16 then portText url else port) := by
  rcases afterHost_cases url with
    ⟨rest, h, hport, hpath⟩ | ⟨rest, h, hport, hpath⟩ | ⟨h, hport, hpath⟩
  · rw [h, takePort_cons, hport, hpath, drop_length_takeWhile]
    split
    · rename_i hlen
      rw [strncpy, List.take_of_length_le (by omega)]
    · rfl
  · rw [h, takePort_of_ne (by simp), hport, hpath]
    rfl
  · rw [h, takePort_of_ne (by simp), hport, hpath]
    rfl

/-- What `parse_url` makes of a URL whose host it takes. -/
theorem parseUrl_eq (url : List Byte) : parseUrl url =
    if (hostText url).length = 0 ∨ 255 < (hostText url).length then none
    else some ⟨hostText url,
      if 0 < (portText url).length ∧ (portText url).length < 16 then portText url
      else (skipScheme url).2, takePath (pathText url)⟩ := by
  rw [parseUrl]
  dsimp only
  rw [← hostText]
  split
  · rfl
  · rw [drop_hostText, takePort_afterHost]

theorem length_takePath_le (s : List Byte) : (takePath s).length ≤ 511 := by
  unfold takePath
  split
  · exact List.length_take_le _ _
  · decide

/-- A path is no longer than the one that was written, or it is `/`. -/
theorem length_takePath_le_max (s : List Byte) : (takePath s).length ≤ max 1 s.length := by
  unfold takePath
  split
  · exact (List.length_take_le' _ _).trans (le_max_right _ _)
  · exact le_max_left _ _

theorem takePath_of_le {s : List Byte} (hs : s = [] ∨ ∃ rest, s = 47 :: rest)
    (hle : s.length ≤ 511) : takePath s = s ∨ s = [] ∧ takePath s = bytes "/" := by
  obtain rfl | ⟨rest, rfl⟩ := hs
  · exact Or.inr ⟨rfl, rfl⟩
  · exact Or.inl (List.take_of_length_le hle)

/-- The default ports. -/
theorem skipScheme_snd (url : List Byte) :
    (skipScheme url).2 = bytes "80" ∨ (skipScheme url).2 = bytes "443" := by
  rw [skipScheme]
  split
  · exact Or.inl rfl
  · split
    · exact Or.inr rfl
    · exact Or.inl rfl

theorem length_skipScheme_snd (url : List Byte) : (skipScheme url).2.length ≤ 3 := by
  obtain h | h := skipScheme_snd url <;> rw [h] <;> decide

/-- **An accepted URL is kept whole when its port and path fit.** -/
theorem reassembles_of_fits {url : List Byte} {u : Url} (h : parseUrl url = some u)
    (hfits : Fits url) : Reassembles url u := by
  obtain ⟨-, hport, hpath⟩ := hfits
  rw [parseUrl_eq] at h
  split at h
  · cases h
  · obtain rfl := Option.some.inj h
    have hslash : pathText url = takePath (pathText url) ∨
        pathText url = [] ∧ takePath (pathText url) = bytes "/" :=
      (takePath_of_le (pathText_cases url) (by omega)).imp_left Eq.symm
    rw [Reassembles]
    dsimp only
    rcases afterHost_cases url with
      ⟨rest, hafter, hportText, hpathText⟩ | ⟨rest, hafter, hportText, hpathText⟩ |
        ⟨hafter, hportText, hpathText⟩
    · refine ⟨58 :: portText url, pathText url, ?_, ?_, hslash⟩
      · rw [List.cons_append, hportText, hpathText, List.takeWhile_append_dropWhile, ← hafter,
          hostText_append, schemeText_append]
      · split
        · rename_i hnil
          rw [hnil]
          exact Or.inr rfl
        · rename_i hne
          rw [if_pos ⟨List.length_pos_iff.mpr hne, hport⟩]
    all_goals
      refine ⟨[], pathText url, ?_, ?_, hslash⟩
      · rw [hpathText, List.nil_append, ← hafter, hostText_append, schemeText_append]
      · rw [if_pos hportText]
        exact Or.inl rfl

/-- The path the arrays hold, or the one a URL leaves out, is short and does not start a port. -/
theorem short_of_slash {path slash : List Byte}
    (hslash : slash = takePath path ∨ slash = [] ∧ takePath path = bytes "/") :
    slash.length ≤ 511 ∧ ∀ r, slash ≠ 58 :: r := by
  obtain rfl | ⟨rfl, -⟩ := hslash
  · refine ⟨length_takePath_le _, fun r hpath => ?_⟩
    unfold takePath at hpath
    split at hpath <;> cases hpath
  · exact ⟨Nat.zero_le _, fun r => by simp⟩

/-- A port that is kept whole fits its array, and the path behind it is kept whole too. -/
theorem fits_of_port {url slash : List Byte} (hne : portText url ≠ [])
    (hslash : slash = takePath (pathText url) ∨ slash = [] ∧ takePath (pathText url) = bytes "/")
    (hafter : portText url ++ pathText url
      = (if 0 < (portText url).length ∧ (portText url).length < 16 then portText url
        else (skipScheme url).2) ++ slash) :
    (portText url).length < 16 ∧ pathText url = slash := by
  have hshort : (portText url).length < 16 := by
    -- the default port and the path the arrays hold are too short for the URL
    by_contra hlong
    have hsum := congrArg List.length hafter
    have hdefault := length_skipScheme_snd url
    have hmax := length_takePath_le_max (pathText url)
    rw [if_neg fun hc => hlong hc.2, List.length_append, List.length_append] at hsum
    obtain rfl | ⟨rfl, -⟩ := hslash
    · omega
    · rw [List.length_nil] at hsum
      omega
  rw [if_pos ⟨List.length_pos_iff.mpr hne, hshort⟩] at hafter
  exact ⟨hshort, List.append_cancel_left hafter⟩

/-- **A URL that is kept whole fits its arrays.** -/
theorem fits_of_reassembles {url : List Byte} {u : Url} (h : parseUrl url = some u)
    (hre : Reassembles url u) : Fits url := by
  rw [parseUrl_eq] at h
  split at h
  · cases h
  · rename_i hhost
    obtain rfl := Option.some.inj h
    obtain ⟨colon, slash, hurl, hcolon, hslash⟩ := hre
    dsimp only at hurl hcolon hslash
    have hafter : afterHost url = colon ++ slash := by
      have hcut : schemeText url ++ (hostText url ++ afterHost url)
          = schemeText url ++ (hostText url ++ (colon ++ slash)) := by
        rw [hostText_append, schemeText_append]
        exact hurl
      exact List.append_cancel_left (List.append_cancel_left hcut)
    obtain ⟨hlen, hstart⟩ := short_of_slash hslash
    refine ⟨by omega, ?_⟩
    rcases afterHost_cases url with
      ⟨rest, hrest, hport, hpath⟩ | ⟨rest, hrest, hport, hpath⟩ | ⟨hrest, hport, hpath⟩
    · rw [hrest] at hafter
      by_cases hnil : portText url = []
      · rw [if_pos hnil] at hcolon
        obtain rfl | rfl := hcolon
        · exact absurd hafter.symm (hstart rest)
        · obtain rfl : rest = slash := (List.cons.inj hafter).2
          rw [hnil, hpath]
          exact ⟨by decide, Nat.lt_succ_of_le ((List.dropWhile_suffix _).length_le.trans hlen)⟩
      · rw [if_neg hnil] at hcolon
        have hsplit : rest = portText url ++ pathText url := by
          rw [hport, hpath, List.takeWhile_append_dropWhile]
        rw [hcolon, List.cons_append, List.cons.injEq, hsplit] at hafter
        obtain ⟨hshort, hwhole⟩ := fits_of_port hnil hslash hafter.2
        exact ⟨hshort, hwhole ▸ Nat.lt_succ_of_le hlen⟩
    · rw [if_pos hport] at hcolon
      rw [hrest] at hafter
      obtain rfl | rfl := hcolon
      · rw [hport, hpath, hafter]
        exact ⟨by decide, Nat.lt_succ_of_le hlen⟩
      · cases (List.cons.inj hafter).1
    · rw [hport, hpath]
      exact ⟨by decide, by decide⟩

/-- What `parse_url` takes for the port is a C string. -/
theorem zero_notMem_port {url : List Byte} {u : Url} (hnul : (0 : Byte) ∉ url)
    (h : parseUrl url = some u) : (0 : Byte) ∉ u.port := by
  rw [parseUrl_eq] at h
  split at h
  · cases h
  · obtain rfl := Option.some.inj h
    dsimp only
    split
    · intro hzero
      have hafter : (0 : Byte) ∈ afterHost url := by
        rcases afterHost_cases url with ⟨rest, hrest, hport, -⟩ | ⟨-, -, hport, -⟩ | ⟨-, hport, -⟩
        · rw [hport] at hzero
          rw [hrest]
          exact List.mem_cons_of_mem _ ((List.takeWhile_prefix _).subset hzero)
        · rw [hport] at hzero
          cases hzero
        · rw [hport] at hzero
          cases hzero
      exact hnul (mem_of_skipScheme ((List.dropWhile_suffix _).subset hafter))
    · obtain h | h := skipScheme_snd url <;> rw [h] <;> decide

/-- What `parse_url` accepts it keeps whole. -/
def KeepsWhole (url : List Byte) (f : UrlBlocks) : Prop :=
  ∀ f', parseUrlInto url f = .ok (0, f') → Reassembles url f'.url

/-- What does not fit its array is refused. -/
def RefusesUnfit (url : List Byte) (f : UrlBlocks) : Prop :=
  ¬ Fits url → ∃ f', parseUrlInto url f = .ok (-1, f')

/-- `parse_url` either does not take the host, or the port and the path fit their arrays. -/
def SafeUrl (url : List Byte) : Prop :=
  (hostText url).length = 0 ∨ 255 < (hostText url).length ∨
    ((portText url).length < 16 ∧ (pathText url).length < 512)

/-- A URL whose host is taken is accepted. -/
theorem exists_of_parseUrl {url : List Byte} {u : Url} (hnul : (0 : Byte) ∉ url)
    (h : parseUrl url = some u) (f : UrlBlocks) :
    ∃ f', parseUrlInto url f = .ok (0, f') ∧ f'.url = u := by
  obtain ⟨code, f', hrun, hspec⟩ := parseUrlInto_returns url f
  rw [h] at hspec
  obtain ⟨rfl, hhold⟩ := hspec
  have hparsed := parsedUrl_of_parseUrl hnul h
  exact ⟨f', hrun, hhold.url_eq hparsed.zero_notMem_hostname (zero_notMem_port hnul h)
    hparsed.zero_notMem_path⟩

theorem exists_of_parseUrl_none {url : List Byte} (h : parseUrl url = none) (f : UrlBlocks) :
    ∃ f', parseUrlInto url f = .ok (-1, f') := by
  obtain ⟨code, f', hrun, hspec⟩ := parseUrlInto_returns url f
  rw [h] at hspec
  exact ⟨f', hspec ▸ hrun⟩

/-- **`parse_url` loses nothing, and refuses what does not fit**, exactly when the port and the path
fit, or the host is not taken at all. -/
theorem losesNothing_iff {url : List Byte} (hnul : (0 : Byte) ∉ url) (f : UrlBlocks) :
    (KeepsWhole url f ↔ SafeUrl url) ∧ (RefusesUnfit url f ↔ SafeUrl url) := by
  rcases h : parseUrl url with _ | u
  · have hsafe : SafeUrl url := by
      rw [parseUrl_eq] at h
      split at h
      · rename_i hhost
        exact hhost.imp_right Or.inl
      · cases h
    obtain ⟨f₁, hrun⟩ := exists_of_parseUrl_none h f
    refine ⟨iff_of_true (fun f' h' => ?_) hsafe, iff_of_true (fun _ => ⟨f₁, hrun⟩) hsafe⟩
    cases hrun.symm.trans h'
  · obtain ⟨f₁, hrun, hu⟩ := exists_of_parseUrl hnul h f
    have hhost : ¬ ((hostText url).length = 0 ∨ 255 < (hostText url).length) := by
      rw [parseUrl_eq] at h
      split at h
      · cases h
      · assumption
    have hsafe : SafeUrl url ↔ Fits url := by
      rw [SafeUrl, Fits]
      omega
    rw [hsafe]
    refine ⟨⟨fun hk => fits_of_reassembles h (hu ▸ hk f₁ hrun), fun hfits f' h' => ?_⟩, ?_, ?_⟩
    · cases hrun.symm.trans h'
      exact hu ▸ reassembles_of_fits h hfits
    · intro hr
      by_contra hunfit
      obtain ⟨f', h'⟩ := hr hunfit
      cases hrun.symm.trans h'
    · exact fun hfits hunfit => absurd hfits hunfit

/-- The URL of the server's own echo endpoint. -/
theorem losesNothing_echo :
    (KeepsWhole (bytes "http://localhost:10680/echo") ⟨.zero 256, .zero 16, .zero 512⟩ ↔
      SafeUrl (bytes "http://localhost:10680/echo")) ∧
    (RefusesUnfit (bytes "http://localhost:10680/echo") ⟨.zero 256, .zero 16, .zero 512⟩ ↔
      SafeUrl (bytes "http://localhost:10680/echo")) :=
  losesNothing_iff (by decide) _

/-- **A port of sixteen digits is dropped**, and the client goes to port 80. -/
theorem port_dropped :
    ¬ KeepsWhole (bytes "http://a:1234567890123456/") ⟨.zero 256, .zero 16, .zero 512⟩ ∧
    ¬ RefusesUnfit (bytes "http://a:1234567890123456/") ⟨.zero 256, .zero 16, .zero 512⟩ := by
  have hnul : (0 : Byte) ∉ bytes "http://a:1234567890123456/" := by decide
  have hurl : parseUrl (bytes "http://a:1234567890123456/")
      = some ⟨bytes "a", bytes "80", bytes "/"⟩ := by decide
  have hunfit : ¬ Fits (bytes "http://a:1234567890123456/") := fun h => absurd h.2.1 (by decide)
  obtain ⟨f', hrun, hu⟩ := exists_of_parseUrl hnul hurl ⟨.zero 256, .zero 16, .zero 512⟩
  refine ⟨fun hk => hunfit (fits_of_reassembles hurl (hu ▸ hk f' hrun)), fun hr => ?_⟩
  obtain ⟨f'', h'⟩ := hr hunfit
  cases hrun.symm.trans h'

end HttpClient

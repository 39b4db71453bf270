import JustWeather.CLib.Strings

/-!
# Lib/TcpClient — the client's end of a connection

The environment decides what a call on a socket meets; `tcpClientRead` and `tcpClientWrite` are what
the wrappers of `tcp_client.c` make of one `recv` and one `send` on a non-blocking socket.  An
orderly close and an empty socket read alike: both give `0`.  `Sockets` keeps count of what is
opened and closed.
-/

open CLib

/-- What one `recv` delivers into a buffer of `len` bytes: at least one byte, and no more
than fit. -/
structure Chunk (len : ℕ) where
  bytes : List Byte
  ne_nil : bytes ≠ []
  length_le : bytes.length ≤ len

/-- What `recv` meets. -/
inductive Recv (len : ℕ)
  | data (chunk : Chunk len)
  | closed
  | wouldBlock
  | error

/-- The bytes a `recv` delivers. -/
def Recv.bytes {len : ℕ} : Recv len → List Byte
  | .data chunk => chunk.bytes
  | _ => []

/-- `tcp_client_read`: the count it returns, and what it left in the buffer. -/
def tcpClientRead {len : ℕ} : Recv len → ℤ × List Byte
  | .data chunk => (chunk.bytes.length, chunk.bytes)
  | .closed => (0, [])
  | .wouldBlock => (0, [])
  | .error => (-1, [])

/-- What `send` meets: room for some number of bytes that `int` holds, or a failure. -/
inductive Send
  | accepts (room : Fin (intMax + 1))
  | wouldBlock
  | error

/-- What `tcp_client_write` gives back: its result, the bytes the socket took, and whether `errno`
is `EAGAIN` or `EWOULDBLOCK` after a failure. -/
structure Sent where
  sent : ℤ
  accepted : List Byte
  again : Bool

/-- `tcp_client_write`. -/
def tcpClientWrite (s : Send) (buf : List Byte) : Sent :=
  match s with
  | .accepts room => ⟨(buf.take room).length, buf.take room, false⟩
  | .wouldBlock => ⟨-1, [], true⟩
  | .error => ⟨-1, [], false⟩

/-! ## Opening and closing -/

/-- The sockets that were opened, numbered in that order, and the calls of `close`. -/
structure Sockets where
  opened : ℕ
  closed : List ℕ
  deriving DecidableEq

namespace Sockets

/-- No socket was opened yet. -/
def none : Sockets := ⟨0, []⟩

/-- `socket` or `accept`: the new descriptor. -/
def socket (s : Sockets) : ℕ × Sockets := (s.opened, { s with opened := s.opened + 1 })

/-- `close`. -/
def close (fd : ℕ) (s : Sockets) : Sockets := { s with closed := fd :: s.closed }

/-- Each socket but these was closed exactly once, and these were not. -/
def AllClosedBut (live : List ℕ) (s : Sockets) : Prop :=
  (∀ fd < s.opened, s.closed.count fd = if fd ∈ live then 0 else 1) ∧
    (∀ fd ∈ s.closed, fd < s.opened) ∧ ∀ fd ∈ live, fd < s.opened

/-- **Each socket was closed exactly once.** -/
abbrev AllClosed (s : Sockets) : Prop := s.AllClosedBut []

end Sockets

/-- `TCPClient`: its descriptor, `none` for `-1`. -/
structure TCPClient where
  fd : Option ℕ
  deriving DecidableEq

/-- What one address of `getaddrinfo` comes to: there is no socket for it, `connect` is refused, or
the connection is there or in progress. -/
inductive Attempt
  | noSocket
  | refused
  | initiated
  deriving DecidableEq

/-- The loop of `tcp_client_connect` over the addresses: the descriptor it ends with. -/
def connectFrom : List Attempt → Sockets → Option ℕ × Sockets
  | [], sockets => (none, sockets)
  | .noSocket :: rest, sockets => connectFrom rest sockets
  | .refused :: rest, sockets =>
    let (fd, sockets) := sockets.socket
    connectFrom rest (sockets.close fd)
  | .initiated :: _, sockets =>
    let (fd, sockets) := sockets.socket
    (some fd, sockets)

/-- `tcp_client_connect`, of a `TCPClient` without a descriptor: `addresses` is what `getaddrinfo`
gives, if it gives any.  The client after it tells success, by its descriptor. -/
def tcpClientConnect (addresses : Option (List Attempt)) (sockets : Sockets) :
    TCPClient × Sockets :=
  match addresses with
  | none => (⟨none⟩, sockets)
  | some addresses =>
    let (fd, sockets) := connectFrom addresses sockets
    (⟨fd⟩, sockets)

/-- `tcp_client_disconnect`. -/
def tcpClientDisconnect (c : TCPClient) (sockets : Sockets) : TCPClient × Sockets :=
  match c.fd with
  | none => (⟨none⟩, sockets)
  | some fd => (⟨none⟩, sockets.close fd)

/-- Some address of the list is one that `tcp_client_connect` connects to. -/
def Connects (addresses : Option (List Attempt)) : Prop :=
  ∃ l, addresses = some l ∧ .initiated ∈ l

instance (addresses : Option (List Attempt)) : Decidable (Connects addresses) :=
  match addresses with
  | none => isFalse nofun
  | some l => decidable_of_iff (.initiated ∈ l) ⟨fun h => ⟨l, rfl, h⟩, fun ⟨_, he, h⟩ => by
      cases he
      exact h⟩

namespace Sockets

variable {s : Sockets} {live : List ℕ}

theorem AllClosedBut.socket (h : s.AllClosedBut live) :
    s.socket.2.AllClosedBut (s.socket.1 :: live) := by
  obtain ⟨hcount, hclosed, hlive⟩ := h
  refine ⟨fun fd hfd => ?_, fun fd hfd => Nat.lt_succ_of_lt (hclosed fd hfd), fun fd hfd => ?_⟩
  · rcases Nat.lt_succ_iff_lt_or_eq.mp hfd with hfd | rfl
    · have hne : fd ≠ s.opened := Nat.ne_of_lt hfd
      simpa [Sockets.socket, hne] using hcount fd hfd
    · have hnot : s.opened ∉ s.closed := fun hmem => Nat.lt_irrefl _ (hclosed _ hmem)
      simpa [Sockets.socket] using List.count_eq_zero.mpr hnot
  · rcases List.mem_cons.mp hfd with rfl | hfd
    · exact Nat.lt_succ_self _
    · exact Nat.lt_succ_of_lt (hlive fd hfd)

theorem AllClosedBut.close {fd : ℕ} (h : s.AllClosedBut (fd :: live)) (hfd : fd ∉ live) :
    (s.close fd).AllClosedBut live := by
  obtain ⟨hcount, hclosed, hlive⟩ := h
  refine ⟨fun fd' hfd' => ?_, fun fd' hmem => ?_, fun fd' hmem => ?_⟩
  · have hc := hcount fd' hfd'
    rw [Sockets.close, List.count_cons]
    by_cases heq : fd' = fd
    · subst heq
      simpa [hfd] using hc
    · have hne : fd ≠ fd' := fun h => heq h.symm
      simpa [heq, hne] using hc
  · rcases List.mem_cons.mp hmem with rfl | hmem
    · exact hlive _ (List.mem_cons_self ..)
    · exact hclosed fd' hmem
  · exact hlive fd' (List.mem_cons_of_mem fd hmem)

end Sockets

/-- **`tcp_client_connect` closes every socket it opens, but for the one it connects.** -/
theorem connectFrom_allClosedBut (addresses : List Attempt) {sockets : Sockets}
    (h : sockets.AllClosed) :
    (connectFrom addresses sockets).2.AllClosedBut (connectFrom addresses sockets).1.toList ∧
      ((connectFrom addresses sockets).1.isSome ↔ .initiated ∈ addresses) := by
  induction addresses generalizing sockets with
  | nil => exact ⟨h, by simp [connectFrom]⟩
  | cons a addresses ih =>
    cases a with
    | noSocket => simpa [connectFrom] using ih h
    | refused => simpa [connectFrom] using ih (h.socket.close List.not_mem_nil)
    | initiated => exact ⟨h.socket, by simp [connectFrom]⟩

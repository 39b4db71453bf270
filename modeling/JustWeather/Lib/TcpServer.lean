import JustWeather.Lib.Smw
import JustWeather.Lib.TcpClient
import Mathlib.Logic.Function.Basic

/-!
# Lib/TcpServer — opening the socket a server listens on

`tcp_server_initiate` takes the first address that gets a socket and can be bound, closes the
sockets of the ones before it, listens, and asks the scheduler for a task.  It reports each failure
but the last: it returns `0` without a task (`tcpServerInitiate_reported_iff`).
-/

/-! ## Sockets that are bound -/

/-- The sockets, with the address each is bound to, and whether it listens. -/
structure Net (α : Type) where
  sockets : Sockets
  name : ℕ → Option α
  listening : ℕ → Bool

namespace Net

variable {α : Type}

/-- No socket was opened yet. -/
def none : Net α := ⟨Sockets.none, fun _ => .none, fun _ => false⟩

/-- `socket`. -/
def socket (net : Net α) : ℕ × Net α :=
  let (fd, sockets) := net.sockets.socket
  (fd, { net with sockets })

/-- `bind`, when it succeeds. -/
def bind (fd : ℕ) (a : α) (net : Net α) : Net α :=
  { net with name := Function.update net.name fd (some a) }

/-- `listen`, when it succeeds. -/
def listen (fd : ℕ) (net : Net α) : Net α :=
  { net with listening := Function.update net.listening fd true }

/-- `close`. -/
def close (fd : ℕ) (net : Net α) : Net α :=
  ⟨net.sockets.close fd, Function.update net.name fd .none,
    Function.update net.listening fd false⟩

end Net

/-! ## The process -/

/-- What a process has: its sockets, and the scheduler, if `smw_init` had the memory for it. -/
structure Process (α κ : Type) where
  net : Net α
  smw : Option (Smw κ)

/-- Whether there is memory for a task and for its node. -/
structure TaskAlloc where
  task : Bool
  node : Bool
  deriving DecidableEq

/-- There is memory for both. -/
def TaskAlloc.all : TaskAlloc := ⟨true, true⟩

namespace Process

variable {α κ : Type} {p : Process α κ} {alloc : TaskAlloc} {context other : κ}
  {task : Option TaskHandle}

/-- `smw_create_task`. -/
def createTask (alloc : TaskAlloc) (context : κ) (p : Process α κ) :
    Option TaskHandle × Process α κ :=
  match p.smw with
  | none => (none, p)
  | some smw =>
    let (task, smw) := smw.createTask alloc.task alloc.node context
    (task, { p with smw := some smw })

/-- The task is there, and the scheduler has it. -/
def Scheduled (p : Process α κ) (context : κ) (task : Option TaskHandle) : Prop :=
  ∃ h smw, task = some h ∧ p.smw = some smw ∧ ⟨h, context⟩ ∈ smw.tasks

@[simp] theorem createTask_net : (p.createTask alloc context).2.net = p.net := by
  rw [createTask]
  split <;> rfl

@[simp] theorem createTask_isSome : (p.createTask alloc context).2.smw.isSome = p.smw.isSome := by
  rw [createTask]
  split <;> simp_all

/-- **A task is scheduled when there is a scheduler and the memory for it.** -/
theorem scheduled_createTask_iff :
    (p.createTask alloc context).2.Scheduled context (p.createTask alloc context).1 ↔
      p.smw.isSome = true ∧ alloc = .all := by
  obtain ⟨net, _ | smw⟩ := p
  · simp [createTask, Scheduled]
  · obtain ⟨_ | _, _ | _⟩ := alloc <;>
      simp [createTask, Scheduled, Smw.createTask, TaskAlloc.all]

/-- A task stays scheduled when another is created. -/
theorem Scheduled.createTask (h : p.Scheduled context task) :
    (p.createTask alloc other).2.Scheduled context task := by
  obtain ⟨t, smw, rfl, hsmw, hmem⟩ := h
  refine ⟨t, (smw.createTask alloc.task alloc.node other).2, rfl, ?_, ?_⟩
  · rw [Process.createTask, hsmw]
  · rw [Smw.createTask]
    split
    · exact List.mem_append_left _ hmem
    · exact hmem

end Process

/-! ## Initiating -/

/-- What one address of `getaddrinfo` comes to: there is no socket for it, `bind` is refused, or the
socket is bound. -/
inductive BindAttempt
  | noSocket
  | refused
  | bound
  deriving DecidableEq

/-- What `tcp_server_initiate` meets: the addresses `getaddrinfo` gives, if it gives any, whether
`listen` succeeds, and the memory for the task. -/
structure TcpSetup (α : Type) where
  addresses : Option (List (α × BindAttempt))
  listens : Bool
  alloc : TaskAlloc

/-- `TCPServer`. -/
structure TCPServer where
  listenFd : ℤ
  task : Option TaskHandle

variable {α κ : Type}

/-- The loop of `tcp_server_initiate` over the addresses: the descriptor it ends with. -/
def bindFrom : List (α × BindAttempt) → Net α → Option ℕ × Net α
  | [], net => (none, net)
  | (_, .noSocket) :: rest, net => bindFrom rest net
  | (_, .refused) :: rest, net =>
    let (fd, net) := net.socket
    bindFrom rest (net.close fd)
  | (a, .bound) :: _, net =>
    let (fd, net) := net.socket
    (some fd, net.bind fd a)

/-- `tcp_server_initiate`: what it returns, the server, and the process.  The result of
`smw_create_task` is not looked at. -/
def tcpServerInitiate (setup : TcpSetup α) (context : κ) (server : TCPServer) (p : Process α κ) :
    ℤ × TCPServer × Process α κ :=
  match setup.addresses with
  | none => (-1, server, p)
  | some addresses =>
    match bindFrom addresses p.net with
    | (none, net) => (-1, server, { p with net })
    | (some fd, net) =>
      if setup.listens then
        let (task, p) := ({ p with net := net.listen fd } : Process α κ).createTask setup.alloc
          context
        (0, ⟨fd, task⟩, p)
      else (-1, server, { p with net := net.close fd })

/-! ## What it is to report -/

/-- The first address that gets a socket and is bound. -/
def firstBound (addresses : List (α × BindAttempt)) : Option α :=
  (addresses.find? fun a => a.2 = .bound).map Prod.fst

/-- The address the server is to listen on. -/
def TcpSetup.address (setup : TcpSetup α) : Option α := setup.addresses.bind firstBound

/-- The server has a socket that is bound to the address and listens. -/
def TCPServer.ListensOn (server : TCPServer) (net : Net α) (a : α) : Prop :=
  ∃ fd : ℕ, server.listenFd = fd ∧ net.name fd = some a ∧ net.listening fd = true

/-- What the three parts of a result of `tcp_server_initiate` are to say, when the process was `p`
before. -/
structure TcpReported (setup : TcpSetup α) (context : κ) (p : Process α κ)
    (r : ℤ × TCPServer × Process α κ) : Prop where
  address : r.1 = 0 → ∃ a, setup.address = some a ∧ r.2.1.ListensOn r.2.2.net a
  task : r.1 = 0 → r.2.2.Scheduled context r.2.1.task
  others : r.1 = 0 → ∀ live, p.net.sockets.AllClosedBut live →
    r.2.2.net.sockets.AllClosedBut (r.2.1.listenFd.toNat :: live)
  nothing : r.1 ≠ 0 → ∀ live, p.net.sockets.AllClosedBut live →
    r.2.2.net.sockets.AllClosedBut live

/-! ## What it does -/

variable {setup : TcpSetup α} {context : κ} {server : TCPServer} {p : Process α κ}
  {addresses : List (α × BindAttempt)} {net : Net α} {live : List ℕ}

/-- A socket that was opened and closed again leaves the others as they were. -/
theorem Net.allClosedBut_close_socket (h : net.sockets.AllClosedBut live) :
    (net.socket.2.close net.socket.1).sockets.AllClosedBut live :=
  h.socket.close fun hmem => Nat.lt_irrefl _ (h.2.2 _ hmem)

/-- **The loop closes every socket it opens, but for the one it binds.** -/
theorem bindFrom_allClosedBut (addresses : List (α × BindAttempt))
    (h : net.sockets.AllClosedBut live) : (bindFrom addresses net).2.sockets.AllClosedBut
      ((bindFrom addresses net).1.toList ++ live) := by
  induction addresses generalizing net with
  | nil => exact h
  | cons entry rest ih =>
    obtain ⟨a, meets⟩ := entry
    cases meets with
    | noSocket => exact ih h
    | refused => exact ih (Net.allClosedBut_close_socket h)
    | bound => exact h.socket

/-- **The loop ends with a new socket for the first address that can be bound**, if there is one. -/
theorem bindFrom_cases (addresses : List (α × BindAttempt)) (net : Net α) :
    (∃ fd a, (bindFrom addresses net).1 = some fd ∧ net.sockets.opened ≤ fd ∧
      firstBound addresses = some a ∧ (bindFrom addresses net).2.name fd = some a) ∨
    ((bindFrom addresses net).1 = none ∧ firstBound addresses = none) := by
  induction addresses generalizing net with
  | nil => exact Or.inr ⟨rfl, rfl⟩
  | cons entry rest ih =>
    obtain ⟨a, meets⟩ := entry
    cases meets with
    | noSocket => exact ih net
    | refused =>
      refine (ih (net.socket.2.close net.socket.1)).imp_left ?_
      rintro ⟨fd, b, hfd, hle, hb, hname⟩
      exact ⟨fd, b, hfd, Nat.le_of_succ_le hle, hb, hname⟩
    | bound => exact Or.inl ⟨_, a, rfl, Nat.le_refl _, rfl, Function.update_self ..⟩

/-- **What `tcp_server_initiate` does**: it listens and asks for a task, or it fails and leaves no
socket open. -/
theorem tcpServerInitiate_cases (setup : TcpSetup α) (context : κ) (server : TCPServer)
    (p : Process α κ) :
    (∃ a, ∃ fd : ℕ, ∃ net, setup.address = some a ∧ setup.listens = true ∧ net.name fd = some a ∧
      net.listening fd = true ∧
      (∀ live, p.net.sockets.AllClosedBut live → net.sockets.AllClosedBut (fd :: live)) ∧
      tcpServerInitiate setup context server p
        = (0, ⟨fd, (({ p with net } : Process α κ).createTask setup.alloc context).1⟩,
          (({ p with net } : Process α κ).createTask setup.alloc context).2)) ∨
    (¬ (setup.address.isSome = true ∧ setup.listens = true) ∧
      ∃ net, (∀ live, p.net.sockets.AllClosedBut live → net.sockets.AllClosedBut live) ∧
        tcpServerInitiate setup context server p = (-1, server, { p with net })) := by
  rw [tcpServerInitiate, TcpSetup.address]
  rcases setup.addresses with _ | addresses
  · exact Or.inr ⟨fun h => Bool.false_ne_true h.1, p.net, fun _ h => h, rfl⟩
  · have hclosed := fun live (h : p.net.sockets.AllClosedBut live) =>
      bindFrom_allClosedBut addresses h
    dsimp only [Option.bind_some]
    rcases bindFrom_cases addresses p.net with ⟨fd, a, hfd, hle, ha, hname⟩ | ⟨hfd, ha⟩
    · rcases hbind : bindFrom addresses p.net with ⟨fd', net⟩
      rw [hbind] at hclosed hfd hname
      obtain rfl : fd' = some fd := hfd
      dsimp only
      by_cases hlistens : setup.listens = true
      · exact Or.inl ⟨a, fd, net.listen fd, ha, hlistens, hname, Function.update_self ..,
          hclosed, if_pos hlistens⟩
      · refine Or.inr ⟨fun h => hlistens h.2, net.close fd, fun live h => ?_, if_neg hlistens⟩
        exact Sockets.AllClosedBut.close (hclosed live h) fun hmem =>
          absurd (h.2.2 fd hmem) (Nat.not_lt_of_le hle)
    · rcases hbind : bindFrom addresses p.net with ⟨fd', net⟩
      rw [hbind] at hclosed hfd
      obtain rfl : fd' = none := hfd
      exact Or.inr ⟨fun h => by simp [ha] at h, net, hclosed, rfl⟩

/-- It returns `0` exactly when it listens. -/
theorem tcpServerInitiate_eq_zero_iff : (tcpServerInitiate setup context server p).1 = 0 ↔
    setup.address.isSome = true ∧ setup.listens = true := by
  rcases tcpServerInitiate_cases setup context server p with
    ⟨a, fd, net, ha, hlistens, -, -, -, hr⟩ | ⟨hno, net, -, hr⟩
  · rw [hr, ha, hlistens]
    exact iff_of_true rfl ⟨rfl, rfl⟩
  · have hcode : (-1 : ℤ) ≠ 0 := by decide
    rw [hr]
    exact iff_of_false hcode hno

/-- The scheduler is there after it, if it was before. -/
theorem tcpServerInitiate_isSome :
    (tcpServerInitiate setup context server p).2.2.smw.isSome = p.smw.isSome := by
  rcases tcpServerInitiate_cases setup context server p with
    ⟨a, fd, net, -, -, -, -, -, hr⟩ | ⟨-, net, -, hr⟩
  · rw [hr, Process.createTask_isSome]
  · rw [hr]

/-- **It reports what it did, unless it listens and gets no task.** -/
theorem tcpServerInitiate_reported_iff (setup : TcpSetup α) (context : κ) (server : TCPServer)
    (p : Process α κ) :
    TcpReported setup context p (tcpServerInitiate setup context server p) ↔
      (setup.address.isSome = true ∧ setup.listens = true →
        p.smw.isSome = true ∧ setup.alloc = .all) := by
  rcases tcpServerInitiate_cases setup context server p with
    ⟨a, fd, net, ha, hlistens, hname, hlistening, hclosed, hr⟩ | ⟨hno, net, hclosed, hr⟩
  · have hscheduled :
        (({ p with net } : Process α κ).createTask setup.alloc context).2.Scheduled context
          (({ p with net } : Process α κ).createTask setup.alloc context).1 ↔
        p.smw.isSome = true ∧ setup.alloc = .all := Process.scheduled_createTask_iff
    rw [hr]
    constructor
    · exact fun h _ => hscheduled.mp (h.task rfl)
    · intro halloc
      have htask := halloc ⟨ha ▸ rfl, hlistens⟩
      refine ⟨fun _ => ⟨a, ha, fd, rfl, ?_, ?_⟩,
        fun _ => hscheduled.mpr htask, fun _ live h => ?_,
        fun h => absurd rfl h⟩
      · rw [Process.createTask_net]
        exact hname
      · rw [Process.createTask_net]
        exact hlistening
      · rw [Process.createTask_net]
        exact hclosed live h
  · rw [hr]
    have hcode : (-1 : ℤ) ≠ 0 := by decide
    exact iff_of_true ⟨fun h => absurd h hcode, fun h => absurd h hcode, fun h => absurd h hcode,
      fun _ => hclosed⟩ fun h => absurd h hno

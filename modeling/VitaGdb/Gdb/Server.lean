/-
  `gdb/main.rs`: the listening thread and the worker threads, with what they hold of the kernel.

  `main_thread` listens, accepts, and starts a worker for each connection; a worker makes its event
  flag, its `TcpConn` and its target, serves the session, and drops the target and the flag, in that
  order.  A socket and an event flag are values that give their handle back when they are dropped,
  so at each return of a function what its locals own goes back.  Any call of the kernel may fail,
  and each function below takes the kernel's answers as parameters.  Exception handlers and process
  callbacks work on the slots of the session pool in between, each as one step.

  Spec (`sockets_held`), over every run, whatever fails: no descriptor is closed that is not open,
  and the open ones are those of the listener and of the workers and the lost ones, each of one kind
  and with one holder.  A descriptor is lost where `listen` or `accept` fails behind the call that
  has made it, and where a close fails: the code is not looked at, and the descriptor forgotten.
  The event flags and the slots they are stored in are the subject of `EventFlags`.
-/
import VitaGdb.Lib.Runs
import VitaGdb.Lib.HandleTable
import VitaGdb.Gdb.ConnPool
import VitaGdb.Gdb.Exclusive

namespace VitaGdb

open HandleTable (Handles Ledger)

/-! ## Sockets -/

/-- A descriptor the kernel answers with: it is not in use. -/
def Fresh {I : Type} (t : Handles I) (h : I) : Prop := t.used h = false

instance {I : Type} (t : Handles I) (h : I) : Decidable (Fresh t h) :=
  inferInstanceAs (Decidable (_ = _))

/-- The descriptor of a `TcpSocket`, and the `socket` of a `TcpListener`: -1 once it is closed. -/
structure SocketFd where
  raw : I32
  deriving DecidableEq

namespace SocketFd

/-- `close`, which `drop` calls.  The kernel's answer is not looked at: the descriptor is forgotten,
    though it stays open where the call fails. -/
def close (s : SocketFd) (t : Handles I32) (answer : I32) : SocketFd × Handles I32 :=
  if s.raw.slt 0#32 then (s, t) else (⟨-1#32⟩, t.tryTake s.raw (!answer.slt 0#32))

/-- `drop`. -/
def drop (s : SocketFd) (t : Handles I32) (answer : I32) : Handles I32 := (s.close t answer).2

/-- What a close that fails leaves open. -/
def lost (s : SocketFd) (answer : I32) : List I32 := if answer.slt 0#32 then [s.raw] else []

/-- A descriptor that is not -1 is closed. -/
theorem drop_eq {s : SocketFd} (h : s.raw.slt 0#32 = false) (t : Handles I32) (answer : I32) :
    s.drop t answer = t.tryTake s.raw (!answer.slt 0#32) := by
  rw [drop, close, h]
  rfl

/-- **Closing twice is closing once**: the second finds -1 and calls nobody. -/
theorem drop_close (s : SocketFd) (t : Handles I32) (answer again : I32) :
    (s.close t answer).1.drop (s.close t answer).2 again = s.drop t answer := by
  cases hclosed : s.raw.slt 0#32 with
  | true => simp only [drop, close, hclosed, if_true]
  | false =>
    have hminus : (-1#32 : I32).slt 0#32 = true := rfl
    simp only [drop, close, hclosed, Bool.false_eq_true, if_false, hminus, if_true]

end SocketFd

/-- `drop` of a `TcpConn`: its `close`, and then that of its socket, which is closed by then. -/
def LiveConn.drop (c : LiveConn) (pool : ConnPool) (t : Handles I32) (answer again : I32) :
    ConnPool × Handles I32 :=
  let (socket, t) := SocketFd.close ⟨c.socket⟩ t answer
  ((c.close pool).2, socket.drop t again)

theorem LiveConn.drop_eq (c : LiveConn) (pool : ConnPool) (t : Handles I32) (answer again : I32) :
    c.drop pool t answer again = ((c.close pool).2, SocketFd.drop ⟨c.socket⟩ t answer) := by
  rw [← SocketFd.drop_close ⟨c.socket⟩ t answer again]
  rfl

/-- What the kernel answers to the calls of `TcpListener::listen`. -/
structure ListenAnswers where
  socket : I32
  bind : I32
  listen : I32

namespace ListenAnswers

/-- The descriptor made, if one was. -/
def made (a : ListenAnswers) : Option I32 := if a.socket.slt 0#32 then none else some a.socket

theorem made_nonneg {a : ListenAnswers} {fd : I32} (h : a.made = some fd) :
    fd.slt 0#32 = false := by
  rw [made] at h
  split at h
  · exact absurd h (by simp)
  · next hfd => exact Option.some.inj h ▸ Bool.not_eq_true _ ▸ hfd

/-- The calls behind it go through. -/
def goes (a : ListenAnswers) : Bool := !a.bind.slt 0#32 && !a.listen.slt 0#32

/-- The descriptor that nothing closes. -/
def lost (a : ListenAnswers) : Option I32 := if a.goes then none else a.made

end ListenAnswers

/-- What the kernel answers to the calls of `TcpListener::accept`. -/
structure AcceptAnswers where
  accept : I32
  setsockopt : I32

namespace AcceptAnswers

/-- The descriptor made, if one was. -/
def made (a : AcceptAnswers) : Option I32 := if a.accept.slt 0#32 then none else some a.accept

theorem made_nonneg {a : AcceptAnswers} {fd : I32} (h : a.made = some fd) :
    fd.slt 0#32 = false := by
  rw [made] at h
  split at h
  · exact absurd h (by simp)
  · next hfd => exact Option.some.inj h ▸ Bool.not_eq_true _ ▸ hfd

/-- The call behind it goes through. -/
def goes (a : AcceptAnswers) : Bool := !a.setsockopt.slt 0#32

/-- The descriptor that nothing closes. -/
def lost (a : AcceptAnswers) : Option I32 := if a.goes then none else a.made

end AcceptAnswers

/-- A descriptor given out by the first of several calls; it is wrapped behind the last of them. -/
def wrapped (t : Handles I32) (made : Option I32) (goes : Bool) :
    Option SocketFd × Handles I32 :=
  match made with
  | none => (none, t)
  | some fd => (if goes then some ⟨fd⟩ else none, t.give fd)

/-- `TcpListener::listen`; the errors are printed only. -/
def TcpListener.listen (t : Handles I32) (a : ListenAnswers) : Option SocketFd × Handles I32 :=
  wrapped t a.made a.goes

/-- `TcpListener::accept`. -/
def TcpListener.accept (t : Handles I32) (a : AcceptAnswers) : Option SocketFd × Handles I32 :=
  wrapped t a.made a.goes

/-- `handle_connection`: the socket the worker thread starts with.  Where the thread cannot be
    created, or started, the socket is dropped. -/
def handleConnection (t : Handles I32) (socket : SocketFd) (create start close : I32) :
    Option SocketFd × Handles I32 :=
  if create.slt 0#32 then (none, socket.drop t close)
  else if start.slt 0#32 then (none, socket.drop t close)
  else (some socket, t)

/-! ## Event flags -/

/-- `EventFlag`: 0 once it is deleted. -/
structure EventFlag where
  evfid : SceUID
  deriving DecidableEq

namespace EventFlag

/-- `EventFlag::new`, where the kernel answers `answer`. -/
def new (t : Handles SceUID) (answer : I32) : Option EventFlag × Handles SceUID :=
  if answer.slt 0#32 then (none, t) else (some ⟨answer⟩, t.give answer)

/-- `EventFlag::as_ref`. -/
def asRef (e : EventFlag) : EventFlagRef := ⟨e.evfid⟩

/-- The deletion of the flag goes through. -/
def deletes (e : EventFlag) (answer : I32) : Bool := e.evfid ≠ 0#32 && !answer.slt 0#32

/-- `EventFlag::delete`, which `drop` calls. -/
def delete (e : EventFlag) (t : Handles SceUID) (answer : I32) : EventFlag × Handles SceUID :=
  if e.deletes answer then (⟨0#32⟩, t.take e.evfid) else (e, t)

/-- `drop`. -/
def drop (e : EventFlag) (t : Handles SceUID) (answer : I32) : Handles SceUID :=
  (e.delete t answer).2

end EventFlag

/-! ## The server -/

/-- Where the worker thread of a connection is in `gdb_thread`, with its locals. -/
inductive GdbThread where
  | started (socket : SocketFd)
  | flagged (socket : SocketFd) (evflag : EventFlag)
  /-- In `run_session`. -/
  | serving (conn : LiveConn) (evflag : EventFlag) (target : VitaTarget)
  /-- `run_session` has returned, and dropped the connection. -/
  | served (evflag : EventFlag) (target : VitaTarget)
  /-- The target is dropped. -/
  | dropped (evflag : EventFlag)

namespace GdbThread

/-- The socket the thread owns. -/
def socket : GdbThread → Option I32
  | started s | flagged s _ => some s.raw
  | serving conn _ _ => some conn.socket
  | served _ _ | dropped _ => none

/-- The event flag the thread owns. -/
def evflag : GdbThread → Option SceUID
  | started _ => none
  | flagged _ e | serving _ e _ | served e _ | dropped e => some e.evfid

/-- The target of the thread. -/
def target : GdbThread → Option VitaTarget
  | serving _ _ t | served _ t => some t
  | started _ | flagged _ _ | dropped _ => none

end GdbThread

/-- The handles in use, the pools, the listener of `main_thread`, and the workers. -/
structure Server (C : Type) where
  sockets : Handles I32
  evflags : Handles SceUID
  connPool : ConnPool
  world : World
  listener : Option SocketFd
  threads : C → Option GdbThread

/-- The calls of `gdbstub` on the target of a worker, and those of its event loop. -/
inductive ServeCall where
  | attach (newPid : SceUID)
  | run (pid : SceUID) (started : Bool)
  | session (call : SessionCall)

/-- One call. -/
def serveCall (t : VitaTarget) (w : World) : ServeCall → VitaTarget × World
  | .attach newPid => (t.extendedAttach w newPid).2
  | .run pid started => (t.runLaunched w pid started).2
  | .session call =>
    match t.session with
    | none => (t, w)
    | some i =>
      let (s, k) := sessionCall (w.pool i) w.kernel call
      (t, w.put i s k)

/-- What happens next, with the kernel's answers. -/
inductive ServerEvent (C : Type) where
  /-- `main_thread` tries to listen. -/
  | listen (a : ListenAnswers)
  /-- `main_thread` accepts: the worker of the connection is `c`.  Here and below `close` is the
      kernel's answer where a socket is closed. -/
  | accept (c : C) (a : AcceptAnswers) (create start close : I32)
  /-- `gdb_thread` makes its event flag. -/
  | newEvflag (c : C) (answer close : I32)
  /-- `gdb_thread` makes its connection, the stub and the target; `built` is what the builder of the
      stub answers, `delete` what a deletion of the event flag does. -/
  | newConn (c : C) (create start : I32) (built : Bool) (close delete : I32)
  | serve (c : C) (call : ServeCall)
  /-- `run_session` returns. -/
  | endSession (c : C) (close : I32)
  | dropTarget (c : C)
  | dropEvflag (c : C) (delete : I32)
  /-- A handler or a process callback is at work on a slot. -/
  | callback (i : Fin 4) (call : SessionCall)

variable {C : Type} [DecidableEq C]

namespace Server

/-- A worker moves on, or ends. -/
def moveTo (x : Server C) (c : C) (th : Option GdbThread) : Server C :=
  { x with threads := Function.update x.threads c th }

/-- Nothing is open and nobody is connected. -/
def start (k : Kernel) : Server C where
  sockets := .none
  evflags := .none
  connPool := .new
  world := ⟨.uninit, k⟩
  listener := none
  threads := fun _ => none

end Server

/-- One event.  The kernel gives a handle out only where it is not in use. -/
def serverStep (x : Server C) : ServerEvent C → Option (Server C)
  | .listen a =>
    match x.listener with
    | some _ => none
    | none =>
      if a.made.all fun fd => Fresh x.sockets fd then
        let (listener, sockets) := TcpListener.listen x.sockets a
        some { x with listener := listener, sockets := sockets }
      else none
  | .accept c a create start close =>
    match x.listener, x.threads c with
    | some listener, none =>
      if a.made.all fun fd => Fresh x.sockets fd then
        match TcpListener.accept x.sockets a with
        -- the loop is left, and the listener dropped
        | (none, sockets) => some { x with listener := none, sockets := listener.drop sockets close }
        | (some socket, sockets) =>
          let (started, sockets) := handleConnection sockets socket create start close
          some ({ x with sockets := sockets }.moveTo c (started.map .started))
      else none
    | _, _ => none
  | .newEvflag c answer close =>
    match x.threads c with
    | some (.started socket) =>
      if answer.slt 0#32 || Fresh x.evflags answer then
        match EventFlag.new x.evflags answer with
        | (none, evflags) =>
          some ({ x with evflags := evflags, sockets := socket.drop x.sockets close }.moveTo c none)
        | (some evflag, evflags) =>
          some ({ x with evflags := evflags }.moveTo c (some (.flagged socket evflag)))
      else none
    | _ => none
  | .newConn c create start built close delete =>
    match x.threads c with
    | some (.flagged socket evflag) =>
      match LiveConn.new x.connPool socket.raw evflag.asRef create start with
      | (.error _, pool) =>
        some ({ x with
          connPool := pool
          sockets := socket.drop x.sockets close
          evflags := evflag.drop x.evflags delete }.moveTo c none)
      | (.ok conn, pool) =>
        if built then
          some ({ x with connPool := pool }.moveTo c
            (some (.serving conn evflag (.new evflag.asRef))))
        else
          let (pool, sockets) := conn.drop pool x.sockets close close
          some ({ x with
            connPool := pool
            sockets := sockets
            evflags := evflag.drop x.evflags delete }.moveTo c none)
    | _ => none
  | .serve c call =>
    match x.threads c with
    | some (.serving conn evflag target) =>
      let (target, world) := serveCall target x.world call
      some ({ x with world := world }.moveTo c (some (.serving conn evflag target)))
    | _ => none
  | .endSession c close =>
    match x.threads c with
    | some (.serving conn evflag target) =>
      let (pool, sockets) := conn.drop x.connPool x.sockets close close
      some ({ x with connPool := pool, sockets := sockets }.moveTo c (some (.served evflag target)))
    | _ => none
  | .dropTarget c =>
    match x.threads c with
    | some (.served evflag target) =>
      some ({ x with world := (target.detach x.world).2 }.moveTo c (some (.dropped evflag)))
    | _ => none
  | .dropEvflag c delete =>
    match x.threads c with
    | some (.dropped evflag) =>
      some ({ x with evflags := evflag.drop x.evflags delete }.moveTo c none)
    | _ => none
  | .callback i call =>
    let (s, k) := sessionCall (x.world.pool i) x.world.kernel call
    some { x with world := x.world.put i s k }

/-- **The step relation**: every way an event can go. -/
inductive ServerEffect (x : Server C) : ServerEvent C → Server C → Prop where
  | listened (a : ListenAnswers) (hlistener : x.listener = none)
      (hfresh : ∀ fd, a.made = some fd → Fresh x.sockets fd) :
    ServerEffect x (.listen a) { x with
      listener := (wrapped x.sockets a.made a.goes).1
      sockets := (wrapped x.sockets a.made a.goes).2 }
  | notAccepted (c : C) (a : AcceptAnswers) (create start close : I32) (l : SocketFd)
      (hlistener : x.listener = some l) (hfresh : ∀ fd, a.made = some fd → Fresh x.sockets fd)
      (hnone : (wrapped x.sockets a.made a.goes).1 = none) :
    ServerEffect x (.accept c a create start close) { x with
      listener := none
      sockets := l.drop (wrapped x.sockets a.made a.goes).2 close }
  | accepted (c : C) (a : AcceptAnswers) (create start close : I32) (fd : I32)
      (hthread : x.threads c = none) (hfresh : Fresh x.sockets fd) (hmade : a.made = some fd)
      (hgoes : a.goes = true) :
    ServerEffect x (.accept c a create start close) ({ x with
      sockets := (handleConnection (x.sockets.give fd) ⟨fd⟩ create start close).2 }.moveTo c
        ((handleConnection (x.sockets.give fd) ⟨fd⟩ create start close).1.map .started))
  | noEvflag (c : C) (answer close : I32) (socket : SocketFd)
      (hthread : x.threads c = some (.started socket)) (hneg : answer.slt 0#32 = true) :
    ServerEffect x (.newEvflag c answer close)
      ({ x with sockets := socket.drop x.sockets close }.moveTo c none)
  | evflag (c : C) (answer close : I32) (socket : SocketFd)
      (hthread : x.threads c = some (.started socket)) (hfresh : Fresh x.evflags answer)
      (hnonneg : answer.slt 0#32 = false) :
    ServerEffect x (.newEvflag c answer close)
      ({ x with evflags := x.evflags.give answer }.moveTo c (some (.flagged socket ⟨answer⟩)))
  | noConn (c : C) (create start : I32) (built : Bool) (close delete : I32) (socket : SocketFd)
      (evflag : EventFlag) (err : SceError) (pool : ConnPool)
      (hthread : x.threads c = some (.flagged socket evflag))
      (hnew : LiveConn.new x.connPool socket.raw evflag.asRef create start = (.error err, pool)) :
    ServerEffect x (.newConn c create start built close delete) ({ x with
      connPool := pool
      sockets := socket.drop x.sockets close
      evflags := evflag.drop x.evflags delete }.moveTo c none)
  | noStub (c : C) (create start close delete : I32) (socket : SocketFd) (evflag : EventFlag)
      (conn : LiveConn) (pool : ConnPool) (hthread : x.threads c = some (.flagged socket evflag))
      (hnew : LiveConn.new x.connPool socket.raw evflag.asRef create start = (.ok conn, pool))
      (hsocket : conn.socket = socket.raw) :
    ServerEffect x (.newConn c create start false close delete) ({ x with
      connPool := (conn.close pool).2
      sockets := SocketFd.drop ⟨conn.socket⟩ x.sockets close
      evflags := evflag.drop x.evflags delete }.moveTo c none)
  | conn (c : C) (create start close delete : I32) (socket : SocketFd) (evflag : EventFlag)
      (conn : LiveConn) (pool : ConnPool) (hthread : x.threads c = some (.flagged socket evflag))
      (hnew : LiveConn.new x.connPool socket.raw evflag.asRef create start = (.ok conn, pool))
      (hsocket : conn.socket = socket.raw) :
    ServerEffect x (.newConn c create start true close delete) ({ x with connPool := pool }.moveTo c
      (some (.serving conn evflag (.new evflag.asRef))))
  | served (c : C) (call : ServeCall) (conn : LiveConn) (evflag : EventFlag) (target : VitaTarget)
      (hthread : x.threads c = some (.serving conn evflag target)) :
    ServerEffect x (.serve c call)
      ({ x with world := (serveCall target x.world call).2 }.moveTo c
        (some (.serving conn evflag (serveCall target x.world call).1)))
  | ended (c : C) (close : I32) (conn : LiveConn) (evflag : EventFlag) (target : VitaTarget)
      (hthread : x.threads c = some (.serving conn evflag target)) :
    ServerEffect x (.endSession c close) ({ x with
      connPool := (conn.close x.connPool).2
      sockets := SocketFd.drop ⟨conn.socket⟩ x.sockets close }.moveTo c (some (.served evflag target)))
  | droppedTarget (c : C) (evflag : EventFlag) (target : VitaTarget)
      (hthread : x.threads c = some (.served evflag target)) :
    ServerEffect x (.dropTarget c)
      ({ x with world := (target.detach x.world).2 }.moveTo c (some (.dropped evflag)))
  | droppedEvflag (c : C) (delete : I32) (evflag : EventFlag)
      (hthread : x.threads c = some (.dropped evflag)) :
    ServerEffect x (.dropEvflag c delete)
      ({ x with evflags := evflag.drop x.evflags delete }.moveTo c none)
  | calledBack (i : Fin 4) (call : SessionCall) :
    ServerEffect x (.callback i call) { x with
      world := x.world.put i (sessionCall (x.world.pool i) x.world.kernel call).1
        (sessionCall (x.world.pool i) x.world.kernel call).2 }

/-- A connection holds the socket it was made with. -/
theorem LiveConn.new_socket {pool pool' : ConnPool} {socket : I32} {evflag : EventFlagRef}
    {create start : I32} {conn : LiveConn}
    (h : LiveConn.new pool socket evflag create start = (.ok conn, pool')) :
    conn.socket = socket := by
  rw [LiveConn.new] at h
  split at h
  · exact absurd h (by simp)
  · split at h
    · exact absurd h (by simp)
    · split at h
      · exact absurd h (by simp)
      · obtain rfl := Except.ok.inj (Prod.mk.inj h).1
        rfl

/-- **What a step can do.** -/
theorem serverStep_effect {x y : Server C} {e : ServerEvent C} (hs : serverStep x e = some y) :
    ServerEffect x e y := by
  cases e with
  | listen a =>
    simp only [serverStep] at hs
    split at hs
    · exact absurd hs (by simp)
    · next hlistener =>
      split at hs
      · next hfresh =>
        obtain rfl := Option.some.inj hs
        refine .listened a hlistener fun fd hfd => ?_
        rw [hfd, Option.all_some, decide_eq_true_eq] at hfresh
        exact hfresh
      · exact absurd hs (by simp)
  | accept c a create start close =>
    simp only [serverStep] at hs
    split at hs
    · next l hlistener hthread =>
      split at hs
      · next hfresh =>
        have hfresh' : ∀ fd, a.made = some fd → Fresh x.sockets fd := by
          intro fd hfd
          rw [hfd, Option.all_some, decide_eq_true_eq] at hfresh
          exact hfresh
        split at hs
        · next sockets haccept =>
          obtain rfl := Option.some.inj hs
          obtain rfl := congrArg Prod.snd haccept
          exact .notAccepted c a create start close l hlistener hfresh' (congrArg Prod.fst haccept)
        · next socket sockets haccept =>
          obtain rfl := Option.some.inj hs
          -- a socket is wrapped where both calls went through
          unfold TcpListener.accept wrapped at haccept
          split at haccept
          · exact absurd (congrArg Prod.fst haccept) (by simp)
          · next fd hmade =>
            split at haccept
            · next hgoes =>
              obtain ⟨hsocket, rfl⟩ := Prod.mk.inj haccept
              obtain rfl := Option.some.inj hsocket
              exact .accepted c a create start close fd hthread (hfresh' fd hmade) hmade hgoes
            · exact absurd (congrArg Prod.fst haccept) (by simp)
      · exact absurd hs (by simp)
    · exact absurd hs (by simp)
  | newEvflag c answer close =>
    simp only [serverStep] at hs
    split at hs
    · next socket hthread =>
      split at hs
      · next hfresh =>
        cases hneg : answer.slt 0#32 with
        | true =>
          rw [EventFlag.new, hneg] at hs
          obtain rfl := Option.some.inj hs
          exact .noEvflag c answer close socket hthread hneg
        | false =>
          rw [hneg, Bool.false_or, decide_eq_true_eq] at hfresh
          rw [EventFlag.new, hneg] at hs
          obtain rfl := Option.some.inj hs
          exact .evflag c answer close socket hthread hfresh hneg
      · exact absurd hs (by simp)
    · exact absurd hs (by simp)
  | newConn c create start built close delete =>
    simp only [serverStep, LiveConn.drop_eq] at hs
    split at hs
    · next socket evflag hthread =>
      split at hs
      · next err pool hnew =>
        obtain rfl := Option.some.inj hs
        exact .noConn c create start built close delete socket evflag err pool hthread hnew
      · next conn pool hnew =>
        have hsocket := LiveConn.new_socket hnew
        cases built with
        | true =>
          obtain rfl := Option.some.inj hs
          exact .conn c create start close delete socket evflag conn pool hthread hnew hsocket
        | false =>
          obtain rfl := Option.some.inj hs
          exact .noStub c create start close delete socket evflag conn pool hthread hnew hsocket
    · exact absurd hs (by simp)
  | serve c call =>
    simp only [serverStep] at hs
    split at hs
    · next conn evflag target hthread =>
      obtain rfl := Option.some.inj hs
      exact .served c call conn evflag target hthread
    · exact absurd hs (by simp)
  | endSession c close =>
    simp only [serverStep, LiveConn.drop_eq] at hs
    split at hs
    · next conn evflag target hthread =>
      obtain rfl := Option.some.inj hs
      exact .ended c close conn evflag target hthread
    · exact absurd hs (by simp)
  | dropTarget c =>
    simp only [serverStep] at hs
    split at hs
    · next evflag target hthread =>
      obtain rfl := Option.some.inj hs
      exact .droppedTarget c evflag target hthread
    · exact absurd hs (by simp)
  | dropEvflag c delete =>
    simp only [serverStep] at hs
    split at hs
    · next evflag hthread =>
      obtain rfl := Option.some.inj hs
      exact .droppedEvflag c delete evflag hthread
    · exact absurd hs (by simp)
  | callback i call =>
    obtain rfl := Option.some.inj hs
    exact .calledBack i call

/-! ## Descriptors -/

/-- The descriptor each holder has: the listener is `none`, and a worker is named by its
    connection. -/
def socketHolds (x : Server C) : Option C → Option I32
  | none => x.listener.map (·.raw)
  | some c => (x.threads c).bind GdbThread.socket

/-- The descriptors an event loses. -/
def lostSockets (x : Server C) : ServerEvent C → List I32
  | .listen a => a.lost.toList
  | .accept _ a create start close =>
    if (wrapped x.sockets a.made a.goes).1.isNone then
      a.lost.toList ++ x.listener.elim [] fun l => l.lost close
    else if create.slt 0#32 || start.slt 0#32 then a.made.elim [] fun fd => SocketFd.lost ⟨fd⟩ close
    else []
  | .newEvflag c answer close =>
    match x.threads c with
    | some (.started socket) => if answer.slt 0#32 then socket.lost close else []
    | _ => []
  | .newConn c create start built close _ =>
    match x.threads c with
    | some (.flagged socket evflag) =>
      match (LiveConn.new x.connPool socket.raw evflag.asRef create start).1, built with
      | .ok _, true => []
      | _, _ => socket.lost close
    | _ => []
  | .endSession c close =>
    match x.threads c with
    | some (.serving conn _ _) => SocketFd.lost ⟨conn.socket⟩ close
    | _ => []
  | _ => []

/-- The open descriptors are the held ones and the lost ones, and were never closed wrongly. -/
structure SocketsHeld (x : Server C) (lost : List I32) : Prop where
  ledger : Ledger x.sockets (socketHolds x) lost
  nonneg : ∀ h fd, socketHolds x h = some fd → fd.slt 0#32 = false

/-- A worker moves on. -/
theorem socketHolds_worker {x z : Server C} {c : C} (th : Option GdbThread)
    (hlistener : z.listener = x.listener) (hthreads : z.threads = Function.update x.threads c th) :
    socketHolds z = Function.update (socketHolds x) (some c) (th.bind GdbThread.socket) := by
  funext h
  cases h with
  | none => simp [socketHolds, hlistener]
  | some d =>
    by_cases hd : d = c
    · subst hd
      simp [socketHolds, hthreads]
    · simp [socketHolds, hthreads, hd]

omit [DecidableEq C] in
theorem socketHolds_congr {x z : Server C} (hlistener : z.listener = x.listener)
    (hthreads : z.threads = x.threads) : socketHolds z = socketHolds x := by
  funext h
  cases h <;> simp [socketHolds, hlistener, hthreads]

/-- A worker moves on with its socket. -/
theorem socketHolds_same {x z : Server C} {c : C} {th : Option GdbThread}
    (hlistener : z.listener = x.listener) (hthreads : z.threads = Function.update x.threads c th)
    (hsame : th.bind GdbThread.socket = (x.threads c).bind GdbThread.socket) :
    socketHolds z = socketHolds x := by
  rw [socketHolds_worker th hlistener hthreads, hsame]
  exact Function.update_eq_self (some c) (socketHolds x)

/-- The listener changes. -/
theorem socketHolds_listener {x z : Server C} (hthreads : z.threads = x.threads) :
    socketHolds z = Function.update (socketHolds x) none (z.listener.map (·.raw)) := by
  funext h
  cases h <;> simp [socketHolds, hthreads]

namespace SocketsHeld

variable {x y : Server C} {lost : List I32}

/-- A descriptor for a holder that has none. -/
theorem give (h : SocketsHeld x lost) {z : Server C} {o : Option C} {fd : I32}
    (hfresh : Fresh x.sockets fd) (hidle : socketHolds x o = none) (hnonneg : fd.slt 0#32 = false)
    (hsockets : z.sockets = x.sockets.give fd)
    (hholds : socketHolds z = Function.update (socketHolds x) o (some fd)) :
    SocketsHeld z lost := by
  refine ⟨?_, fun o' fd' hown => ?_⟩
  · rw [hsockets, hholds]
    exact h.ledger.give hfresh hidle
  · rw [hholds] at hown
    by_cases ho : o' = o
    · rw [ho, Function.update_self, Option.some.injEq] at hown
      rwa [← hown]
    · rw [Function.update_of_ne ho] at hown
      exact h.nonneg o' fd' hown

/-- A held descriptor is closed, or lost. -/
theorem take (h : SocketsHeld x lost) {z : Server C} {o : Option C} {fd answer : I32}
    (hown : socketHolds x o = some fd)
    (hsockets : z.sockets = SocketFd.drop ⟨fd⟩ x.sockets answer)
    (hholds : socketHolds z = Function.update (socketHolds x) o none) :
    SocketsHeld z (lost ++ SocketFd.lost ⟨fd⟩ answer) := by
  refine ⟨?_, fun o' fd' hown' => ?_⟩
  · have hled := h.ledger.tryTake hown (!answer.slt 0#32)
    rw [hsockets, hholds, SocketFd.drop_eq (h.nonneg o fd hown), SocketFd.lost]
    cases hanswer : answer.slt 0#32 with
    | true => simpa [hanswer] using hled
    | false => simpa [hanswer] using hled
  · rw [hholds] at hown'
    by_cases ho : o' = o
    · rw [ho, Function.update_self] at hown'
      exact absurd hown' (by simp)
    · rw [Function.update_of_ne ho] at hown'
      exact h.nonneg o' fd' hown'

omit [DecidableEq C] in
/-- Nothing is opened or closed. -/
theorem stay (h : SocketsHeld x lost) {z : Server C} (hsockets : z.sockets = x.sockets)
    (hholds : socketHolds z = socketHolds x) : SocketsHeld z lost := by
  refine ⟨?_, fun o fd hown => ?_⟩
  · rw [hsockets, hholds]
    exact h.ledger
  · rw [hholds] at hown
    exact h.nonneg o fd hown

/-- A descriptor that is lost as soon as it is made. -/
theorem lose (h : SocketsHeld x lost) {z : Server C} {fd : I32} (hfresh : Fresh x.sockets fd)
    (hsockets : z.sockets = x.sockets.give fd) (hlistener : z.listener = x.listener)
    (hthreads : z.threads = x.threads) : SocketsHeld z (lost ++ [fd]) := by
  have hholds : socketHolds z = socketHolds x := socketHolds_congr hlistener hthreads
  refine ⟨?_, fun o gd hown => h.nonneg o gd (hholds ▸ hown)⟩
  rw [hsockets, hholds]
  exact h.ledger.lose hfresh

/-- A descriptor that is closed as soon as it is made. -/
theorem closeAtOnce (h : SocketsHeld x lost) {z : Server C} {fd : I32} (hfresh : Fresh x.sockets fd)
    (hnonneg : fd.slt 0#32 = false) (answer : I32)
    (hsockets : z.sockets = SocketFd.drop ⟨fd⟩ (x.sockets.give fd) answer)
    (hholds : socketHolds z = socketHolds x) :
    SocketsHeld z (lost ++ SocketFd.lost ⟨fd⟩ answer) := by
  have hused : (x.sockets.give fd).used fd = true := Function.update_self ..
  refine ⟨?_, fun o gd hown => h.nonneg o gd (hholds ▸ hown)⟩
  rw [hsockets, hholds, SocketFd.drop_eq hnonneg, HandleTable.Handles.tryTake, SocketFd.lost]
  cases answer.slt 0#32 with
  | true => simpa [hused] using h.ledger.lose hfresh
  | false => simpa [HandleTable.Handles.give_take hfresh] using h.ledger

/-- `handle_connection`, with a socket that has just been accepted. -/
theorem connect (h : SocketsHeld x lost) {c : C} {fd : I32} (hfresh : Fresh x.sockets fd)
    (hnonneg : fd.slt 0#32 = false) (hthread : x.threads c = none) (create start close : I32) :
    SocketsHeld ({ x with
      sockets := (handleConnection (x.sockets.give fd) ⟨fd⟩ create start close).2 }.moveTo c
        ((handleConnection (x.sockets.give fd) ⟨fd⟩ create start close).1.map .started))
      (lost ++ if create.slt 0#32 || start.slt 0#32 then SocketFd.lost ⟨fd⟩ close else []) := by
  have hidle : socketHolds x (some c) = none := by rw [socketHolds, hthread]; rfl
  have hgone : ∀ {z : Server C}, z.listener = x.listener →
      z.threads = Function.update x.threads c none → socketHolds z = socketHolds x :=
    fun hl hth => socketHolds_same hl hth (by rw [hthread])
  rw [handleConnection]
  cases create.slt 0#32 with
  | true => exact h.closeAtOnce hfresh hnonneg close rfl (hgone rfl rfl)
  | false =>
    cases start.slt 0#32 with
    | true => exact h.closeAtOnce hfresh hnonneg close rfl (hgone rfl rfl)
    | false =>
      have hholds : socketHolds ({ x with sockets := x.sockets.give fd }.moveTo c
          (some (.started ⟨fd⟩))) = Function.update (socketHolds x) (some c) (some fd) :=
        socketHolds_worker (some (.started ⟨fd⟩)) (by rfl) (by rfl)
      simpa using h.give hfresh hidle hnonneg rfl hholds

/-- A descriptor that is made is wrapped, or lost. -/
theorem wrap (h : SocketsHeld x lost) {z : Server C} {made : Option I32} {goes : Bool}
    (hfresh : ∀ fd, made = some fd → Fresh x.sockets fd)
    (hnone : (wrapped x.sockets made goes).1 = none)
    (hsockets : z.sockets = (wrapped x.sockets made goes).2)
    (hlistener : z.listener = x.listener) (hthreads : z.threads = x.threads) :
    SocketsHeld z (lost ++ (if goes then none else made).toList) := by
  cases made with
  | none =>
    rw [ite_self, Option.toList_none, List.append_nil]
    exact h.stay hsockets (socketHolds_congr hlistener hthreads)
  | some fd =>
    cases goes with
    | true => exact absurd hnone (by simp [wrapped])
    | false => exact h.lose (hfresh fd rfl) hsockets hlistener hthreads

/-- A worker drops its socket. -/
theorem workerDrops (h : SocketsHeld x lost) {z : Server C} {c : C} {fd answer : I32}
    {th : Option GdbThread} (hown : (x.threads c).bind GdbThread.socket = some fd)
    (hsockets : z.sockets = SocketFd.drop ⟨fd⟩ x.sockets answer)
    (hlistener : z.listener = x.listener) (hthreads : z.threads = Function.update x.threads c th)
    (hgone : th.bind GdbThread.socket = none) :
    SocketsHeld z (lost ++ SocketFd.lost ⟨fd⟩ answer) := by
  refine h.take (o := some c) hown hsockets ?_
  rw [socketHolds_worker th hlistener hthreads, hgone]

/-- A worker goes on with its socket. -/
theorem workerGoes (h : SocketsHeld x lost) {z : Server C} {c : C} {th : Option GdbThread}
    (hsame : th.bind GdbThread.socket = (x.threads c).bind GdbThread.socket)
    (hsockets : z.sockets = x.sockets) (hlistener : z.listener = x.listener)
    (hthreads : z.threads = Function.update x.threads c th) : SocketsHeld z lost :=
  h.stay hsockets (socketHolds_same hlistener hthreads hsame)

/-- **Every event keeps the account of the descriptors.** -/
theorem step (h : SocketsHeld x lost) {e : ServerEvent C} (hs : serverStep x e = some y) :
    SocketsHeld y (lost ++ lostSockets x e) := by
  -- the events that lose no descriptor
  have hkept : ∀ {z : Server C}, SocketsHeld z lost → SocketsHeld z (lost ++ []) := fun hz => by
    rwa [List.append_nil]
  cases serverStep_effect hs with
  | listened a hlistener hfresh =>
    cases hwrap : (wrapped x.sockets a.made a.goes).1 with
    | none => exact h.wrap hfresh hwrap rfl hlistener.symm rfl
    | some l =>
      have hidle : socketHolds x none = none := by rw [socketHolds, hlistener]; rfl
      unfold wrapped at hwrap
      split at hwrap
      · exact absurd hwrap (by simp)
      · next fd hmade =>
        split at hwrap
        · next hgoes =>
          obtain rfl := Option.some.inj hwrap
          have hlost : a.lost = none := by rw [ListenAnswers.lost, hgoes]; rfl
          rw [lostSockets, hlost]
          simp only [wrapped, hmade, hgoes, if_true]
          exact hkept (h.give (hfresh fd hmade) hidle (ListenAnswers.made_nonneg hmade) rfl
            (socketHolds_listener (by rfl)))
        · exact absurd hwrap (by simp)
  | notAccepted c a create start close l hlistener hfresh hnone =>
    have hlost : lostSockets x (.accept c a create start close) = a.lost.toList ++ l.lost close := by
      simp only [lostSockets, hnone, Option.isNone_none, if_true, hlistener, Option.elim_some]
    -- the descriptor, if there is one, is lost, and the listener closed behind it
    have hlose : SocketsHeld { x with sockets := (wrapped x.sockets a.made a.goes).2 }
        (lost ++ a.lost.toList) := h.wrap hfresh hnone rfl rfl rfl
    rw [hlost, ← List.append_assoc]
    refine hlose.take (o := none) ?_ rfl (socketHolds_listener (by rfl))
    show x.listener.map (·.raw) = some l.raw
    rw [hlistener]
    rfl
  | accepted c a create start close fd hthread hfresh hmade hgoes =>
    have hlost : lostSockets x (.accept c a create start close) =
        if create.slt 0#32 || start.slt 0#32 then SocketFd.lost ⟨fd⟩ close else [] := by
      simp only [lostSockets, wrapped, hmade, hgoes, if_true, Option.isNone_some,
        Bool.false_eq_true, if_false, Option.elim_some]
    rw [hlost]
    exact h.connect hfresh (AcceptAnswers.made_nonneg hmade) hthread create start close
  | noEvflag c answer close socket hthread hneg =>
    have hlost : lostSockets x (.newEvflag c answer close) = socket.lost close := by
      simp only [lostSockets, hthread, hneg, if_true]
    rw [hlost]
    exact h.workerDrops (by rw [hthread]; rfl) rfl rfl rfl rfl
  | evflag c answer close socket hthread hfresh hnonneg =>
    have hlost : lostSockets x (.newEvflag c answer close) = [] := by
      simp only [lostSockets, hthread, hnonneg, Bool.false_eq_true, if_false]
    rw [hlost]
    exact hkept (h.workerGoes (by rw [hthread]; rfl) rfl rfl rfl)
  | noConn c create start built close delete socket evflag err pool hthread hnew =>
    have hlost : lostSockets x (.newConn c create start built close delete) = socket.lost close := by
      simp only [lostSockets, hthread, hnew]
    rw [hlost]
    exact h.workerDrops (by rw [hthread]; rfl) rfl rfl rfl rfl
  | noStub c create start close delete socket evflag conn pool hthread hnew hsocket =>
    have hlost : lostSockets x (.newConn c create start false close delete) =
        socket.lost close := by
      simp only [lostSockets, hthread, hnew]
    rw [hlost]
    exact h.workerDrops (by rw [hthread]; rfl) (by rw [hsocket]; rfl) rfl rfl rfl
  | conn c create start close delete socket evflag conn pool hthread hnew hsocket =>
    have hlost : lostSockets x (.newConn c create start true close delete) = [] := by
      simp only [lostSockets, hthread, hnew]
    rw [hlost]
    exact hkept (h.workerGoes (by rw [hthread]; exact congrArg some hsocket) rfl rfl rfl)
  | served c call conn evflag target hthread =>
    exact hkept (h.workerGoes (by rw [hthread]; rfl) rfl rfl rfl)
  | ended c close conn evflag target hthread =>
    have hlost : lostSockets x (.endSession c close) = SocketFd.lost ⟨conn.socket⟩ close := by
      simp only [lostSockets, hthread]
    rw [hlost]
    exact h.workerDrops (by rw [hthread]; rfl) rfl rfl rfl rfl
  | droppedTarget c evflag target hthread =>
    exact hkept (h.workerGoes (by rw [hthread]; rfl) rfl rfl rfl)
  | droppedEvflag c delete evflag hthread =>
    exact hkept (h.workerGoes (by rw [hthread]; rfl) rfl rfl rfl)
  | calledBack i call => exact hkept (h.stay rfl rfl)

end SocketsHeld

/-- What is open after a run: `lost` are the descriptors that the run has lost. -/
structure SocketsAccounted (x : Server C) (lost : List I32) : Prop where
  /-- Nothing was closed that was not open. -/
  mistakes : x.sockets.mistakes = 0
  /-- What is open is the listener's, or a worker's, or lost. -/
  openIff : ∀ fd, x.sockets.used fd = true ↔
    x.listener = some ⟨fd⟩ ∨ (∃ c, (x.threads c).bind GdbThread.socket = some fd) ∨ fd ∈ lost
  /-- No two workers share a descriptor, nor does one share the listener's or a lost one; nor is the
      listener's lost. -/
  single : ∀ c c' fd, (x.threads c).bind GdbThread.socket = some fd →
    (x.threads c').bind GdbThread.socket = some fd → c = c'
  apart : ∀ c fd, (x.threads c).bind GdbThread.socket = some fd →
    x.listener ≠ some ⟨fd⟩ ∧ fd ∉ lost
  listenerApart : ∀ fd, x.listener = some ⟨fd⟩ → fd ∉ lost

omit [DecidableEq C] in
theorem SocketsHeld.accounted {x : Server C} {lost : List I32} (h : SocketsHeld x lost) :
    SocketsAccounted x lost := by
  have hlistener : ∀ fd, socketHolds x none = some fd ↔ x.listener = some ⟨fd⟩ := by
    intro fd
    show x.listener.map (·.raw) = some fd ↔ _
    rw [Option.map_eq_some_iff]
    constructor
    · rintro ⟨⟨raw⟩, hl, rfl⟩
      exact hl
    · intro hl
      exact ⟨_, hl, rfl⟩
  refine ⟨h.ledger.mistakes, fun fd => ?_, fun c c' fd hc hc' => ?_, fun c fd hc => ⟨?_, ?_⟩,
    fun fd hl => h.ledger.apart ((hlistener fd).mpr hl)⟩
  · rw [h.ledger.used_iff fd, ← or_assoc]
    refine or_congr_left ?_
    constructor
    · rintro ⟨o, hown⟩
      cases o with
      | none => exact .inl ((hlistener fd).mp hown)
      | some c => exact .inr ⟨c, hown⟩
    · rintro (hl | ⟨c, hc⟩)
      · exact ⟨none, (hlistener fd).mpr hl⟩
      · exact ⟨some c, hc⟩
  · have hsame : some c = some c' := h.ledger.single hc hc'
    exact Option.some.inj hsame
  · intro hl
    have hsame : some c = none := h.ledger.single hc ((hlistener fd).mpr hl)
    exact absurd hsame (by simp)
  · have hown : socketHolds x (some c) = some fd := hc
    exact h.ledger.apart hown

/-- **The descriptors, over every run** of the listening thread, the workers and the callbacks. -/
theorem sockets_held (k : Kernel) (es : List (ServerEvent C)) {y : Server C}
    (hrun : LTS.exec serverStep (Server.start k) es = some y) :
    SocketsAccounted y
      (LTS.trace serverStep (fun x e => some (lostSockets x e)) (Server.start k) es).flatten := by
  have hstart : SocketsHeld (Server.start k : Server C) [] := by
    have hnone : socketHolds (Server.start k : Server C) = fun _ => none := by
      funext h
      cases h <;> rfl
    refine ⟨?_, fun h fd hown => ?_⟩
    · rw [hnone]
      exact HandleTable.Ledger.start
    · rw [hnone] at hown
      exact absurd hown (by simp)
  -- the history is a list of lists, one for each event
  have hstep : ∀ (x : Server C) e y ls, SocketsHeld x ls.flatten → serverStep x e = some y →
      SocketsHeld y (ls ++ (some (lostSockets x e)).toList).flatten := by
    intro x e y ls hx hs
    rw [List.flatten_append, Option.toList_some, List.flatten_singleton]
    exact hx.step hs
  have hfirst : SocketsHeld (Server.start k : Server C) ([] : List (List I32)).flatten := hstart
  have hend := LTS.exec_traced hstep es hfirst hrun
  rw [List.nil_append] at hend
  exact hend.accounted

/-- The server listens on 5 and starts a worker on 6; 7 is accepted but cannot be configured, and
    the listener is closed; the worker makes no event flag, and its close fails. -/
def lostConnection : List (ServerEvent Bool) :=
  [.listen ⟨5, 0, 0⟩, .accept true ⟨6, 0⟩ 20 0 0, .accept false ⟨7, -1⟩ 21 0 0,
    .newEvflag true (-1) (-1)]

/-- The listener is closed, 7 is lost, and so is 6. -/
theorem sockets_held_lostConnection :
    ∃ y, LTS.exec serverStep (Server.start (Kernel.quiet fun _ _ => none)) lostConnection = some y ∧
      SocketsAccounted y [7, 6] ∧ y.sockets.used 6 = true ∧ y.sockets.used 5 = false := by
  have hrun : ∃ y,
      LTS.exec serverStep (Server.start (Kernel.quiet fun _ _ => none)) lostConnection = some y ∧
        y.sockets.used 6 = true ∧ y.sockets.used 5 = false := ⟨_, rfl, rfl, rfl⟩
  obtain ⟨y, hy, hworker, hlistener⟩ := hrun
  have hlost : (LTS.trace serverStep (fun x e => some (lostSockets x e))
      (Server.start (Kernel.quiet fun _ _ => none)) lostConnection).flatten = [7, 6] := rfl
  have hheld := sockets_held _ lostConnection hy
  rw [hlost] at hheld
  exact ⟨y, hy, hheld, hworker, hlistener⟩

end VitaGdb

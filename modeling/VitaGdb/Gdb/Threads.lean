/-
  The threads of the module, atomic step by atomic step: exception handlers and process callbacks,
  and for each connection its worker and its receive thread.

  Any number of connections share the session pool, and each has an event flag of its own.  A
  callback runs on any thread of any process: it finds the slot of the process, and goes on with
  that slot whatever happens to it in the meantime.  `CallbackPc.step` cuts `handle_watch`,
  `handle_break`, `handle_exception`, `handle_proc_kill` and `handle_proc_create` at what they share
  with others, `workerStep` does so for the worker: `next_event_or_byte`, `next_byte`, the steps of
  attaching and of `reset`, and `run` from the launch call on.  The ring of a slot is that of
  `Kernel.MpscSteps`, a connection that of `Gdb.TcpConn`.

  `EventFlagRef::set` ORs bits in; a wait ends when a bit it asks for is set, and clears these bits.
  The tables of breakpoints and watchpoints and the halts take no part.  `Gdb.CallbackRuns` says
  that a callback with nothing in between is the whole function of `Gdb.Handlers`.

  The lemmas at the end say once what a step of each kind moves: every invariant of the system is
  derived from them.
-/
import VitaGdb.Gdb.TcpConn
import VitaGdb.Gdb.Handlers
import VitaGdb.Gdb.Exclusive
import VitaGdb.Kernel.MpscSteps

namespace VitaGdb

/-! ## Event flags -/

/-- `EV_WAKE_READER`. -/
def evWakeReader : U32 := 1#32 <<< 1

/-- Some of the bits are set. -/
def hasBit (flag bits : U32) : Bool := flag &&& bits != 0#32

theorem hasBit_iff {flag bits : U32} : hasBit flag bits = true ↔ flag &&& bits ≠ 0#32 := bne_iff_ne

/-- Setting bits clears none. -/
theorem hasBit_or {flag bits : U32} (h : hasBit flag bits = true) (more : U32) :
    hasBit (flag ||| more) bits = true := by
  rw [hasBit_iff] at h ⊢
  intro hzero
  rw [BitVec.and_or_distrib_right, BitVec.or_eq_zero_iff] at hzero
  exact h hzero.1

theorem hasBit_or_self {bits : U32} (h : bits ≠ 0#32) (flag : U32) :
    hasBit (flag ||| bits) bits = true := by
  rw [hasBit_iff]
  intro hzero
  rw [BitVec.and_or_distrib_right, BitVec.or_eq_zero_iff, BitVec.and_self] at hzero
  exact h hzero.2

/-- Setting other bits. -/
theorem hasBit_or_other {bits more : U32} (h : more &&& bits = 0#32) (flag : U32) :
    hasBit (flag ||| more) bits = hasBit flag bits := by
  rw [hasBit, hasBit, BitVec.and_or_distrib_right, h, BitVec.or_zero]

/-- Clearing other bits. -/
theorem hasBit_clear_other {bits less : U32} (h : less &&& bits = 0#32) (flag : U32) :
    hasBit (flag &&& ~~~less) bits = hasBit flag bits := by
  have hbits : ~~~less &&& bits = bits := by
    calc ~~~less &&& bits = (~~~less &&& bits) ||| (less &&& bits) := by rw [h, BitVec.or_zero]
      _ = (~~~less ||| less) &&& bits := (BitVec.and_or_distrib_right).symm
      _ = bits := by rw [BitVec.not_or_self, BitVec.allOnes_and]
  rw [hasBit, hasBit, BitVec.and_assoc, hbits]

/-- The bits that were cleared are. -/
theorem hasBit_clear_self (flag bits : U32) : hasBit (flag &&& ~~~bits) bits = false := by
  have hzero : flag &&& ~~~bits &&& bits = 0#32 := by
    rw [BitVec.and_assoc, BitVec.and_comm (~~~bits), BitVec.and_not_self]
    exact BitVec.and_zero
  simp [hasBit, hzero]

/-! ## Slots and callbacks -/

/-- The thread an event is about. -/
def ExceptionEvent.tid : ExceptionEvent → SceUID
  | .hwBreak tid | .swBreak tid | .watch tid _ _ | .exception tid _ => tid

/-- A slot of the pool, as the threads see it; an event flag is named by its connection. -/
structure ThreadSlot (H C : Type) where
  pid : SceUID
  evflag : Option C
  step : Option (SceUID × U32)
  stepResult : Option SceUID
  exited : Bool
  exceptions : RingState H ExceptionEvent 8

/-- `GdbSessionInner::uninit`. -/
def ThreadSlot.uninit {H C : Type} : ThreadSlot H C where
  pid := pidUnused
  evflag := none
  step := none
  stepResult := none
  exited := false
  exceptions := RingState.new

/-- Why a callback runs: an exception that is the debugger's, the end of a process, its start. -/
inductive Entry where
  | exception (halted : Halted)
  | kill
  | create

/-- Where a callback is. -/
inductive CallbackPc (C : Type) where
  /-- In `find_session_for_pid`: before it compares its slot, and when it has found none. -/
  | scanning (entry : Entry)
  | missed
  /-- An exception handler before and after `halt_for_debug`. -/
  | found (halted : Halted)
  | halted (halted : Halted)
  /-- `step_finished`: before the take, the store of the result, the load of the event flag. -/
  | taking
  | took (stepTid : SceUID)
  | stored
  /-- `push_excp`: before the load of the event flag, and in `push`. -/
  | pushing (event : ExceptionEvent)
  | queueing (evflag : C)
  /-- "exceptions overflow". -/
  | overflowed (evflag : C)
  /-- `push_exited`: before the load of the event flag, and before the store. -/
  | exiting
  | exitStoring (evflag : C)
  /-- `EV_WAKE_WORKER` is to be set, after a store. -/
  | setting (evflag : C)
  /-- `handle_proc_create`: before the load of the event flag, and before `EV_PROCESS_STARTED` is
      set. -/
  | starting
  | settingStarted (evflag : C)
  | returned
  | panicked

/-- It has returned. -/
def CallbackPc.isOver {C : Type} : CallbackPc C → Bool
  | .returned => true
  | _ => false

/-- A call of a callback: the process and the thread it is for, and the slot it is at. -/
structure Callback (C : Type) where
  pid : SceUID
  tid : SceUID
  slot : Fin 4
  pc : CallbackPc C

/-- The first step after the slot is found. -/
def Entry.pc {C : Type} : Entry → CallbackPc C
  | .exception halted => .found halted
  | .kill => .exiting
  | .create => .starting

/-- The event of an exception is about the thread that raised it. -/
def Entry.IsOf (tid : SceUID) : Entry → Prop
  | .exception halted => (GdbSessionInner.queuedEvent tid halted).tid = tid
  | _ => True

instance Entry.decidableIsOf (tid : SceUID) : ∀ entry : Entry, Decidable (entry.IsOf tid)
  | .exception halted =>
    inferInstanceAs (Decidable ((GdbSessionInner.queuedEvent tid halted).tid = tid))
  | .kill => isTrue trivial
  | .create => isTrue trivial

/-- Each vector makes an event of the thread that raised the exception. -/
theorem Entry.isOf_vectorHalts {vector : ExcpVector} {s : GdbSessionInner} {k : Kernel}
    {pid tid : SceUID} {context : SceExcpmgrExceptionContext} {halted : Halted}
    (h : vectorHalts vector s k pid tid context = some halted) :
    (Entry.exception halted).IsOf tid := by
  have hbrk : ∀ halted, breakHalts k pid context = some halted →
      (Entry.exception halted).IsOf tid := by
    intro halted hhalted
    unfold breakHalts at hhalted
    split at hhalted
    · exact absurd hhalted (by simp)
    · obtain rfl := Option.some.inj hhalted
      show (GdbSessionInner.queuedEvent tid _).tid = tid
      unfold GdbSessionInner.queuedEvent
      dsimp only
      split <;> rfl
  cases vector with
  | pabt =>
    simp only [vectorHalts] at h
    split at h
    · exact hbrk halted h
    · obtain rfl := Option.some.inj h
      rfl
  | dabt =>
    simp only [vectorHalts, watchHalts] at h
    split at h
    · split at h
      · obtain rfl := Option.some.inj h
        rfl
      · exact absurd h (by simp)
    · obtain rfl := Option.some.inj h
      rfl
  | undefInstruction =>
    obtain rfl := Option.some.inj h
    rfl

variable {H C : Type}

section Steps

variable [DecidableEq H] [DecidableEq C]

/-- The next atomic step of a callback that has found its slot: the slot, where the callback is
    then, and the bits it sets. -/
def CallbackPc.step (h : H) (tid : SceUID) (s : ThreadSlot H C) :
    CallbackPc C → Option (ThreadSlot H C × CallbackPc C × Option (C × U32))
  | .scanning _ => none
  | .missed => none
  | .found halts => some (s, .halted halts, none)
  | .halted (.brk faultAddr insn thumb) =>
    match s.step with
    | some (_, addr) =>
      if addr = faultAddr then some (s, .taking, none)
      else some (s, .pushing (GdbSessionInner.queuedEvent tid (.brk faultAddr insn thumb)), none)
    | none => some (s, .pushing (GdbSessionInner.queuedEvent tid (.brk faultAddr insn thumb)), none)
  | .halted (.event event) => some (s, .pushing event, none)
  | .taking =>
    match s.step with
    | none => some (s, .returned, none)
    | some (stepTid, _) => some ({ s with step := none }, .took stepTid, none)
  | .took stepTid => some ({ s with stepResult := some stepTid }, .stored, none)
  | .stored =>
    match s.evflag with
    | none => some (s, .panicked, none)
    | some evflag => some (s, .setting evflag, none)
  | .pushing event =>
    match s.evflag with
    | none => some (s, .returned, none)
    | some evflag => (ringStep s.exceptions (.push h event)).map fun ring =>
      ({ s with exceptions := ring }, .queueing evflag, none)
  | .queueing evflag => (ringStep s.exceptions (.produce h)).map fun ring =>
    ({ s with exceptions := ring },
      match ringLabel s.exceptions (.produce h) with
      | some (.pushed _) => .setting evflag
      | some (.refused _) => .overflowed evflag
      | _ => .queueing evflag,
      none)
  | .overflowed evflag => some (s, .returned, some (evflag, evWakeWorker))
  | .exiting =>
    match s.evflag with
    | none => some (s, .returned, none)
    | some evflag => some (s, .exitStoring evflag, none)
  | .exitStoring evflag => some ({ s with exited := true }, .setting evflag, none)
  | .setting evflag => some (s, .returned, some (evflag, evWakeWorker))
  | .starting =>
    match s.evflag with
    | none => some (s, .returned, none)
    | some evflag => some (s, .settingStarted evflag, none)
  | .settingStarted evflag => some (s, .returned, some (evflag, evProcessStarted))
  | .returned => none
  | .panicked => none

/-! ## Workers -/

/-- What a worker waits for: in `next_byte`, or in `next_event_or_byte`. -/
inductive Turn where
  | byte
  | eventOrByte
  deriving DecidableEq

/-- Where a worker is in `reset`: before the step named. -/
inductive ResetPhase (C : Type) where
  | loadFlag
  | clearFlag (evflag : C)
  | storeFlag
  | clearStep
  | clearExited
  | clearExceptions
  | storePid

/-- Where a worker is. -/
inductive WorkerPc (C : Type) where
  /-- In the protocol or in a method of the target, between the steps that are named here. -/
  | outside
  /-- In the launch call, which will answer this process. -/
  | launching (pid : SceUID)
  /-- In `GdbSession::new`: before the exchange on a slot, and before the store of the event flag.
  -/
  | attaching (pid : SceUID) (kind : AttachKind) (slot : Fin 4)
  | claimed (pid : SceUID) (kind : AttachKind)
  /-- In `run`'s wait for `EV_PROCESS_STARTED`. -/
  | starting (pid : SceUID)
  /-- At the top of the loop. -/
  | looping (turn : Turn)
  /-- Before `pop_step_finished`, in `pop_excp`, in `read`, in the wait. -/
  | steps
  | events
  | bytes (turn : Turn)
  | waiting (turn : Turn)
  /-- In `detach`, and what to attach then. -/
  | resetting (phase : ResetPhase C) (next : Option (SceUID × AttachKind))

/-- A worker: the slot it has claimed, and `VitaTarget::detached`. -/
structure WorkerThread (C : Type) where
  session : Option (Fin 4)
  detached : Bool
  pc : WorkerPc C

/-- The pool, the event flags, and every thread. -/
structure Threads (H C : Type) where
  slots : Fin 4 → ThreadSlot H C
  flags : C → U32
  handlers : H → Option (Callback C)
  workers : C → WorkerThread C
  conns : C → ConnRun

namespace Threads

def setSlot (x : Threads H C) (i : Fin 4) (s : ThreadSlot H C) : Threads H C :=
  { x with slots := Function.update x.slots i s }

def setFlag (x : Threads H C) (c : C) (bits : U32) : Threads H C :=
  { x with flags := Function.update x.flags c (x.flags c ||| bits) }

def clearFlag (x : Threads H C) (c : C) (bits : U32) : Threads H C :=
  { x with flags := Function.update x.flags c (x.flags c &&& ~~~bits) }

def setWorker (x : Threads H C) (c : C) (w : WorkerThread C) : Threads H C :=
  { x with workers := Function.update x.workers c w }

/-- A worker goes on. -/
def moveTo (x : Threads H C) (c : C) (pc : WorkerPc C) : Threads H C :=
  x.setWorker c { x.workers c with pc := pc }

def setConn (x : Threads H C) (c : C) (r : ConnRun) : Threads H C :=
  { x with conns := Function.update x.conns c r }

/-- The bits a step of a callback sets, if any. -/
def setBits (x : Threads H C) : Option (C × U32) → Threads H C
  | none => x
  | some (c, bits) => x.setFlag c bits

def setHandler (x : Threads H C) (h : H) (hd : Callback C) : Threads H C :=
  { x with handlers := Function.update x.handlers h (some hd) }

omit [DecidableEq C] in
theorem setHandler_self (x : Threads H C) (h : H) (hd : Callback C) :
    (x.setHandler h hd).handlers h = some hd := Function.update_self _ _ _

omit [DecidableEq C] in
theorem setHandler_of_ne (x : Threads H C) {h h' : H} (hne : h' ≠ h) (hd : Callback C) :
    (x.setHandler h hd).handlers h' = x.handlers h' := Function.update_of_ne hne _ _

/-- Detaching, and what comes then. -/
def detachThen (x : Threads H C) (c : C) (next : Option (SceUID × AttachKind)) : Threads H C :=
  match (x.workers c).session, next with
  | some _, _ => x.moveTo c (.resetting .loadFlag next)
  | none, some (pid, kind) => x.moveTo c (.attaching pid kind 0)
  | none, none => x.moveTo c .outside

end Threads

/-- The step of `pop` or `clear` that comes next. -/
def RingState.nextConsume {P T : Type} {CAP : Nat} (ring : RingState P T CAP)
    (start : RingEvent P T) : RingEvent P T :=
  match ring.consumer with
  | .idle => start
  | _ => .consume

/-- The next atomic step of `reset`, on the worker's slot. -/
def resetStep (x : Threads H C) (c : C) (i : Fin 4) (next : Option (SceUID × AttachKind)) :
    ResetPhase C → Option (Threads H C)
  | .loadFlag =>
    match (x.slots i).evflag with
    | some evflag => some (x.moveTo c (.resetting (.clearFlag evflag) next))
    | none => some (x.moveTo c (.resetting .clearStep next))
  | .clearFlag evflag =>
    some ((x.clearFlag evflag evWakeWorker).moveTo c (.resetting .storeFlag next))
  | .storeFlag =>
    some ((x.setSlot i { x.slots i with evflag := none }).moveTo c (.resetting .clearStep next))
  | .clearStep =>
    some ((x.setSlot i { x.slots i with step := none }).moveTo c (.resetting .clearExited next))
  | .clearExited =>
    some ((x.setSlot i { x.slots i with exited := false }).moveTo c
      (.resetting .clearExceptions next))
  | .clearExceptions =>
    let ring := (x.slots i).exceptions
    let e := ring.nextConsume .clear
    (ringStep ring e).map fun ring' =>
      (x.setSlot i { x.slots i with exceptions := ring' }).moveTo c
        (match ringLabel ring e with
        | some (.cleared _) => .resetting .storePid next
        | _ => .resetting .clearExceptions next)
  | .storePid =>
    some ((x.setSlot i { x.slots i with pid := pidUnused }).setWorker c
      { session := none
        detached := true
        pc := match next with
          | some (pid, kind) => .attaching pid kind 0
          | none => .outside })

/-- The next atomic step of a worker, where it has one of its own. -/
def workerStep (x : Threads H C) (c : C) : Option (Threads H C) :=
  match (x.workers c).pc, (x.workers c).session with
  | .outside, _ => none
  | .launching pid, _ => some (x.detachThen c (some (pid, .run)))
  | .attaching pid kind slot, _ =>
    if (x.slots slot).pid = pidUnused then
      some ((x.setSlot slot { x.slots slot with pid := pid }).setWorker c
        { x.workers c with session := some slot, pc := .claimed pid kind })
    else
      match nextSlot slot with
      | some slot => some (x.moveTo c (.attaching pid kind slot))
      | none => some (x.moveTo c .outside)
  | .claimed pid kind, some i =>
    some ((x.setSlot i { x.slots i with evflag := some c }).setWorker c
      { session := some i
        detached := false
        pc := match kind with
          | .run => .starting pid
          | .attach => .outside })
  | .starting _, _ =>
    if hasBit (x.flags c) evProcessStarted then
      some ((x.clearFlag c evProcessStarted).moveTo c .outside)
    else none
  | .looping .eventOrByte, session =>
    if (x.workers c).detached then
      some (x.setWorker c { x.workers c with detached := false, pc := .outside })
    else
      match session with
      | none => some (x.moveTo c (.bytes .eventOrByte))
      | some i =>
        if (x.slots i).exited then
          some ((x.setSlot i { x.slots i with exited := false }).moveTo c .outside)
        else some (x.moveTo c .steps)
  | .looping .byte, session =>
    match session with
    | none => some (x.moveTo c (.bytes .byte))
    | some i =>
      if (x.slots i).exited then
        some ((x.setSlot i { x.slots i with exited := false }).moveTo c .outside)
      else some (x.moveTo c (.bytes .byte))
  | .steps, some i =>
    match (x.slots i).stepResult with
    | some _ => some ((x.setSlot i { x.slots i with stepResult := none }).moveTo c .outside)
    | none => some (x.moveTo c .events)
  | .events, some i =>
    let ring := (x.slots i).exceptions
    let e := ring.nextConsume .pop
    (ringStep ring e).map fun ring' =>
      (x.setSlot i { x.slots i with exceptions := ring' }).moveTo c
        (match ringLabel ring e with
        | some .empty => .bytes .eventOrByte
        | some _ => .outside
        | none => .events)
  | .bytes turn, _ =>
    match (x.conns c).user with
    | .idle _ => (connStep (x.conns c) .call).map fun r => (x.setConn c r).moveTo c (.bytes turn)
    | .reading (.released _) => (connStep (x.conns c) .read).map fun r =>
      ((x.setFlag c evWakeReader).setConn c r).moveTo c .outside
    | .reading _ => (connStep (x.conns c) .read).map fun r =>
      (x.setConn c r).moveTo c
        (match r.user with
        | .idle (some .none) => .waiting turn
        | .idle _ => .outside
        | _ => .bytes turn)
    | _ => none
  | .waiting turn, _ =>
    if hasBit (x.flags c) evWakeWorker then
      some ((x.clearFlag c evWakeWorker).moveTo c (.looping turn))
    else none
  | .resetting phase next, some i => resetStep x c i next phase
  | _, none => none

/-- What a worker does of its own accord, or the kernel does to it. -/
inductive WorkerEvent where
  /-- Its next atomic step. -/
  | step
  /-- It calls `next_byte` or `next_event_or_byte`. -/
  | turn (turn : Turn)
  | detach
  | attach (pid : SceUID)
  /-- `run` begins: the launch call will answer `pid`, or fail. -/
  | launch (pid : SceUID)
  | launchFailed
  /-- `set_step`. -/
  | setStep (tid : SceUID) (addr : U32)
  /-- The time limit of `run`'s wait. -/
  | timeout

def workerEvent (x : Threads H C) (c : C) (e : WorkerEvent) : Option (Threads H C) :=
  match e, (x.workers c).pc with
  | .step, _ => workerStep x c
  | .turn turn, .outside => some (x.moveTo c (.looping turn))
  | .detach, .outside => some (x.detachThen c none)
  | .attach pid, .outside =>
    if pid = 0#32 || pid = 1#32 || pid = 0x10005#32 then none
    else some (x.detachThen c (some (pid, .attach)))
  | .launch pid, .outside => some (x.moveTo c (.launching pid))
  | .launchFailed, .launching _ => some (x.moveTo c .outside)
  | .setStep tid addr, .outside =>
    match (x.workers c).session with
    | some i => some ((x.setSlot i { x.slots i with step := some (tid, addr) }).moveTo c .outside)
    | none => none
  | .timeout, .starting _ =>
    if hasBit (x.flags c) evProcessStarted then none else some (x.detachThen c none)
  | _, _ => none

/-! ## Runs -/

/-- A step of a connection's receive thread, or of its socket. -/
def socketStep (x : Threads H C) (c : C) (e : ConnEvent) : Option (Threads H C) :=
  match e, (x.conns c).rx with
  | .rx, .waiting =>
    if hasBit (x.flags c) evWakeReader then
      (connStep (x.conns c) .rx).map fun r => (x.clearFlag c evWakeReader).setConn c r
    else none
  | .rx, .waking => (connStep (x.conns c) .rx).map fun r => (x.setFlag c evWakeWorker).setConn c r
  | .rx, .wakingLast =>
    (connStep (x.conns c) .rx).map fun r => (x.setFlag c evWakeWorker).setConn c r
  | .call, _ => none
  | .read, _ => none
  | .close, _ => none
  | e, _ => (connStep (x.conns c) e).map (x.setConn c)

/-- A step of a callback: it compares the next slot, or goes on with the one it has found. -/
def handlerStep (x : Threads H C) (h : H) (hd : Callback C) : Option (Threads H C) :=
  match hd.pc with
  | .scanning entry =>
    if (x.slots hd.slot).pid = hd.pid then some (x.setHandler h { hd with pc := entry.pc })
    else
      match nextSlot hd.slot with
      | some slot => some (x.setHandler h { hd with slot := slot })
      | none => some (x.setHandler h { hd with pc := .missed })
  | pc => (pc.step h hd.tid (x.slots hd.slot)).map fun (s, pc, set) =>
    ((x.setSlot hd.slot s).setBits set).setHandler h { hd with pc := pc }

inductive ThreadEvent (H C : Type) where
  /-- A callback is called, for a process that exists. -/
  | enter (h : H) (pid tid : SceUID) (entry : Entry)
  /-- Its next step. -/
  | handler (h : H)
  | socket (c : C) (e : ConnEvent)
  | worker (c : C) (e : WorkerEvent)

/-- One atomic step of one thread. -/
def threadStep (x : Threads H C) : ThreadEvent H C → Option (Threads H C)
  | .enter h pid tid entry =>
    match x.handlers h with
    | some _ => none
    | none =>
      if pid ≠ pidUnused ∧ entry.IsOf tid then
        some (x.setHandler h { pid := pid, tid := tid, slot := 0, pc := .scanning entry })
      else none
  | .handler h => (x.handlers h).bind (handlerStep x h)
  | .socket c e => socketStep x c e
  | .worker c e => workerEvent x c e

/-- A handler is entered where it is not running, and only for a thread it can be entered for. -/
theorem threadStep_enter {x y : Threads H C} {h : H} {pid tid : SceUID} {entry : Entry}
    (hy : threadStep x (.enter h pid tid entry) = some y) :
    x.handlers h = none ∧ (pid ≠ pidUnused ∧ entry.IsOf tid) ∧
      y = x.setHandler h { pid := pid, tid := tid, slot := 0, pc := .scanning entry } := by
  simp only [threadStep] at hy
  split at hy
  · exact absurd hy (by simp)
  · rename_i hnone
    split at hy
    · rename_i henter
      exact ⟨hnone, henter, (Option.some.inj hy).symm⟩
    · exact absurd hy (by simp)

/-- The module when it has been started: nobody is attached, and every connection is new. -/
def Threads.start (states : C → ConnState) : Threads H C where
  slots := fun _ => .uninit
  flags := fun _ => 0
  handlers := fun _ => none
  workers := fun _ => { session := none, detached := false, pc := .outside }
  conns := fun c => .start (states c)

end Steps

/-! ## What a step moves -/

/-- **What the receive thread moves**: it stores for the worker and is then about to set the event
    flag, or what the worker sees stays; and it waits for a worker that has bytes to read only. -/
theorem rxThread_moves {s s' : ConnState} {rx rx' : RxThread} (h : rx.step s = some (s', rx')) :
    (rx' = .waking ∨ rx' = .wakingLast) ∨
      s'.len = s.len ∧ s'.closed = s.closed ∧ (rx' = .waiting → s.len ≠ 0) := by
  cases rx with
  | looping =>
    obtain ⟨rfl, rfl⟩ := Prod.mk.inj (Option.some.inj h)
    exact .inr ⟨rfl, rfl, fun hw => by split at hw <;> simp at hw⟩
  | opened =>
    obtain ⟨rfl, rfl⟩ := Prod.mk.inj (Option.some.inj h)
    refine .inr ⟨rfl, rfl, fun hw => ?_⟩
    split at hw
    · assumption
    · exact absurd hw (by simp)
  | copying chunk copied =>
    simp only [RxThread.step] at h
    split at h
    · obtain ⟨rfl, rfl⟩ := Prod.mk.inj (Option.some.inj h)
      exact .inr ⟨rfl, rfl, by simp⟩
    · obtain ⟨rfl, rfl⟩ := Prod.mk.inj (Option.some.inj h)
      exact .inr ⟨rfl, rfl, by simp⟩
  | storing n =>
    obtain ⟨rfl, rfl⟩ := Prod.mk.inj (Option.some.inj h)
    exact .inl (.inl rfl)
  | failing err =>
    obtain ⟨rfl, rfl⟩ := Prod.mk.inj (Option.some.inj h)
    exact .inl (.inr rfl)
  | closing =>
    obtain ⟨rfl, rfl⟩ := Prod.mk.inj (Option.some.inj h)
    exact .inl (.inr rfl)
  | receiving => exact absurd h (by simp [RxThread.step])
  | ended => exact absurd h (by simp [RxThread.step])
  | waiting | waking | wakingLast =>
    obtain ⟨rfl, rfl⟩ := Prod.mk.inj (Option.some.inj h)
    exact .inr ⟨rfl, rfl, by simp⟩

section Sockets

variable {x y : Threads H C}

/-- What a receive thread's step, or the socket, leaves alone. -/
structure SocketMoves (x : Threads H C) (c : C) (y : Threads H C) : Prop where
  slots : y.slots = x.slots
  handlers : y.handlers = x.handlers
  workers : y.workers = x.workers
  conns : ∀ d, d ≠ c → y.conns d = x.conns d
  flags : ∀ d, d ≠ c → y.flags d = x.flags d
  user : (y.conns c).user = (x.conns c).user
  /-- It stores, and is then about to set the event flag; or it has just set it; or the worker sees
      no difference. -/
  wakes : (y.conns c).rx = .waking ∨ (y.conns c).rx = .wakingLast ∨
    hasBit (y.flags c) evWakeWorker = true ∨
    (y.conns c).conn.state.len = (x.conns c).conn.state.len ∧
      (y.conns c).conn.state.closed = (x.conns c).conn.state.closed ∧
      (hasBit (x.flags c) evWakeWorker = true → hasBit (y.flags c) evWakeWorker = true) ∧
      (x.conns c).rx ≠ .waking ∧ (x.conns c).rx ≠ .wakingLast
  reader : (y.conns c).rx = .waiting → (y.conns c).conn.state.len ≠ 0

variable [DecidableEq C]

/-- A step of one connection's receive thread, which may set or clear bits of its event flag. -/
theorem SocketMoves.of_conn {c : C} {r : ConnRun} {bits : U32} (huser : r.user = (x.conns c).user)
    (hwakes : r.rx = .waking ∨ r.rx = .wakingLast ∨ hasBit bits evWakeWorker = true ∨
      r.conn.state.len = (x.conns c).conn.state.len ∧
        r.conn.state.closed = (x.conns c).conn.state.closed ∧
        (hasBit (x.flags c) evWakeWorker = true → hasBit bits evWakeWorker = true) ∧
        (x.conns c).rx ≠ .waking ∧ (x.conns c).rx ≠ .wakingLast)
    (hreader : r.rx = .waiting → r.conn.state.len ≠ 0) :
    SocketMoves x c ({ x with flags := Function.update x.flags c bits }.setConn c r) := by
  have hconn : ({ x with flags := Function.update x.flags c bits }.setConn c r).conns c = r :=
    Function.update_self _ _ _
  have hflag : ({ x with flags := Function.update x.flags c bits }.setConn c r).flags c = bits :=
    Function.update_self _ _ _
  refine ⟨rfl, rfl, rfl, fun d hd => Function.update_of_ne hd _ _,
    fun d hd => Function.update_of_ne hd _ _, ?_, ?_, ?_⟩
  · rw [hconn]
    exact huser
  · rw [hconn, hflag]
    exact hwakes
  · rw [hconn]
    exact hreader

/-- The same, where the event flag stays. -/
theorem SocketMoves.of_quiet {c : C} {r : ConnRun} (huser : r.user = (x.conns c).user)
    (hwakes : (r.rx = .waking ∨ r.rx = .wakingLast) ∨
      r.conn.state.len = (x.conns c).conn.state.len ∧
        r.conn.state.closed = (x.conns c).conn.state.closed)
    (hrx : (x.conns c).rx ≠ .waking ∧ (x.conns c).rx ≠ .wakingLast)
    (hreader : r.rx = .waiting → r.conn.state.len ≠ 0) : SocketMoves x c (x.setConn c r) := by
  have h : SocketMoves x c ({ x with flags := Function.update x.flags c (x.flags c) }.setConn c r) :=
    SocketMoves.of_conn huser ?_ hreader
  · rwa [Function.update_eq_self] at h
  · rcases hwakes with (hwaking | hlast) | ⟨hlen, hclosed⟩
    · exact .inl hwaking
    · exact .inr (.inl hlast)
    · exact .inr (.inr (.inr ⟨hlen, hclosed, id, hrx⟩))

/-- **A step of a receive thread, or of its socket.** -/
theorem socketStep_moves {c : C} {e : ConnEvent} (h : socketStep x c e = some y) :
    SocketMoves x c y := by
  unfold socketStep at h
  split at h
  · rename_i hrx
    split at h
    · simp only [connStep, hrx, RxThread.step, Option.map_some, Option.some.injEq] at h
      subst h
      refine .of_conn rfl (.inr (.inr (.inr ⟨rfl, rfl, fun hset => ?_, ?_, ?_⟩))) (by simp)
      · rwa [hasBit_clear_other (by decide)]
      · rw [hrx]; simp
      · rw [hrx]; simp
    · exact absurd h (by simp)
  · rename_i hrx
    simp only [connStep, hrx, RxThread.step, Option.map_some, Option.some.injEq] at h
    subst h
    exact .of_conn rfl (.inr (.inr (.inl (hasBit_or_self (by decide) _)))) (by simp)
  · rename_i hrx
    simp only [connStep, hrx, RxThread.step, Option.map_some, Option.some.injEq] at h
    subst h
    exact .of_conn rfl (.inr (.inr (.inl (hasBit_or_self (by decide) _)))) (by simp)
  · exact absurd h (by simp)
  · exact absurd h (by simp)
  · exact absurd h (by simp)
  · rename_i e _ _ hcall hread hclose hwaiting hwaking hlast
    rw [Option.map_eq_some_iff] at h
    obtain ⟨r, hr, rfl⟩ := h
    cases e with
    | rx =>
      simp only [connStep, Option.map_eq_some_iff] at hr
      obtain ⟨⟨state, rx⟩, hrx, rfl⟩ := hr
      refine .of_quiet rfl ?_ ⟨hwaking rfl, hlast rfl⟩ fun hw => ?_
      · rcases rxThread_moves hrx with hwakes | ⟨hlen, hclosed, -⟩
        · exact .inl hwakes
        · exact .inr ⟨hlen, hclosed⟩
      · rcases rxThread_moves hrx with (hrx' | hrx') | ⟨hlen, -, hne⟩
        · exact absurd (hrx'.symm.trans hw) (by simp)
        · exact absurd (hrx'.symm.trans hw) (by simp)
        · show state.len ≠ 0
          rw [hlen]
          exact hne hw
    | recv chunk =>
      simp only [connStep] at hr
      split at hr
      · rename_i hrx
        split at hr
        · obtain rfl := Option.some.inj hr
          exact .of_quiet rfl (.inr ⟨rfl, rfl⟩) (by simp [hrx]) (by simp)
        · exact absurd hr (by simp)
      · exact absurd hr (by simp)
    | eof =>
      simp only [connStep] at hr
      split at hr
      · rename_i hrx
        obtain rfl := Option.some.inj hr
        exact .of_quiet rfl (.inr ⟨rfl, rfl⟩) (by simp [hrx]) (by simp)
      · exact absurd hr (by simp)
    | fail err =>
      simp only [connStep] at hr
      split at hr
      · rename_i hrx
        obtain rfl := Option.some.inj hr
        exact .of_quiet rfl (.inr ⟨rfl, rfl⟩) (by simp [hrx]) (by simp)
      · exact absurd hr (by simp)
    | call => exact absurd rfl hcall
    | read => exact absurd rfl hread
    | close => exact absurd rfl hclose

end Sockets

section Ring

variable {P T : Type} {CAP : Nat} [DecidableEq P] {r r' : RingState P T CAP}

/-- Calling `push` moves nothing yet. -/
theorem ringStep_push_cells {p : P} {v : T} (h : ringStep r (.push p v) = some r') :
    r'.cells = r.cells := by
  simp only [ringStep] at h
  split at h
  · rw [← Option.some.inj h]
  · exact absurd h (by simp)

/-- A step of `push` moves no index, but for the store of `head` at its end. -/
theorem ringStep_produce_indices {p : P} (h : ringStep r (.produce p) = some r') :
    r'.cells.tail = r.cells.tail ∧ (r'.cells.head = r.cells.head ∨
      Pushing.isWritten (r.producers p) = true ∧
        ∃ v, ringLabel r (.produce p) = some (.pushed v)) := by
  cases hp : r.producers p with
  | none => simp [ringStep, hp] at h
  | some pushing =>
    simp only [ringStep, hp, Option.some.injEq] at h
    subst h
    cases pushing with
    | entered v => exact ⟨rfl, .inl rfl⟩
    | loadedHead v head =>
      simp only [RingCells.pushStep]
      split
      · exact ⟨rfl, .inl rfl⟩
      · exact ⟨rfl, .inl rfl⟩
    | room v head => exact ⟨rfl, .inl rfl⟩
    | written v head =>
      exact ⟨rfl, .inr ⟨rfl, v, by simp [ringLabel, hp, RingCells.pushStep, Pushing.value]⟩⟩

/-- A `pop` under way has loaded the `tail` that is there. -/
def TailLoaded (r : RingState P T CAP) : Prop :=
  ∀ t, r.consumer = .popping (.loadedTail t) → t = r.cells.tail

theorem TailLoaded.step {e : RingEvent P T} (hr : TailLoaded r) (h : ringStep r e = some r') :
    TailLoaded r' := by
  intro t ht
  cases e with
  | push p v =>
    simp only [ringStep] at h
    split at h
    · obtain rfl := Option.some.inj h
      exact hr t ht
    · exact absurd h (by simp)
  | produce p =>
    have hconsumer : r'.consumer = r.consumer := by
      simp only [ringStep] at h
      split at h
      · exact absurd h (by simp)
      · rw [← Option.some.inj h]
    rw [(ringStep_produce_indices h).1]
    exact hr t (hconsumer.symm.trans ht)
  | pop =>
    simp only [ringStep] at h
    split at h
    · obtain rfl := Option.some.inj h
      exact absurd ht (by simp)
    · exact absurd h (by simp)
  | clear =>
    simp only [ringStep] at h
    split at h
    · obtain rfl := Option.some.inj h
      exact absurd ht (by simp)
    · exact absurd h (by simp)
  | consume =>
    cases hc : r.consumer with
    | idle => simp [ringStep, hc] at h
    | clearing c =>
      simp only [ringStep, hc, Option.some.injEq] at h
      subst h
      dsimp only at ht
      split at ht <;> simp at ht
    | popping c =>
      simp only [ringStep, hc, Option.some.injEq] at h
      subst h
      cases c with
      | entered =>
        simp only [RingCells.popStep, Consumer.popping.injEq, Popping.loadedTail.injEq] at ht
        exact ht.symm
      | loadedTail t' =>
        by_cases hindex : t' = r.cells.head
        · simp [RingCells.popStep, hindex] at ht
        · simp [RingCells.popStep, hindex] at ht
      | found t' => simp [RingCells.popStep] at ht
      | read t' cell => simp [RingCells.popStep] at ht

/-- A `pop` that answers that there is nothing has found the indices equal, and leaves them so. -/
theorem TailLoaded.empty {e : RingEvent P T} (hr : TailLoaded r) (h : ringStep r e = some r')
    (hempty : ringLabel r e = some .empty) : r'.cells.tail = r'.cells.head := by
  cases e with
  | consume =>
    cases hc : r.consumer with
    | idle => simp [ringStep, hc] at h
    | clearing c =>
      simp only [ringLabel, hc] at hempty
      split at hempty <;> simp at hempty
    | popping c =>
      cases c with
      | loadedTail t =>
        obtain rfl := hr t hc
        simp only [ringStep, hc, Option.some.injEq] at h
        subst h
        by_cases hindex : r.cells.tail = r.cells.head
        · simp only [RingCells.popStep, if_pos hindex]
          exact hindex
        · simp [ringLabel, hc, RingCells.popStep, hindex] at hempty
      | entered => simp [ringLabel, hc, RingCells.popStep] at hempty
      | found t => simp [ringLabel, hc, RingCells.popStep] at hempty
      | read t cell => simp [ringLabel, hc, RingCells.popStep] at hempty
  | produce p =>
    simp only [ringLabel] at hempty
    split at hempty
    · simp at hempty
    · split at hempty <;> simp at hempty
  | _ => simp [ringLabel] at hempty

end Ring

section Callbacks

variable [DecidableEq H]

/-- **A step of a callback** looks at a slot, or is one on the slot it has found. -/
theorem handlerStep_cases [DecidableEq C] {x y : Threads H C} {h : H} {hd : Callback C}
    (hstep : handlerStep x h hd = some y) :
    (∃ entry hd', hd.pc = .scanning entry ∧ y = x.setHandler h hd' ∧
      (hd' = { hd with pc := entry.pc } ∧ (x.slots hd.slot).pid = hd.pid ∨
        (∃ slot, hd' = { hd with slot := slot }) ∨
        hd' = { hd with pc := .missed } ∧ (x.slots hd.slot).pid ≠ hd.pid ∧
          nextSlot hd.slot = none)) ∨
    ∃ s pc set, hd.pc.step h hd.tid (x.slots hd.slot) = some (s, pc, set) ∧
      y = ((x.setSlot hd.slot s).setBits set).setHandler h { hd with pc := pc } := by
  unfold handlerStep at hstep
  split at hstep
  · rename_i entry hpc
    split at hstep
    · rename_i hpid
      exact .inl ⟨entry, _, hpc, (Option.some.inj hstep).symm, .inl ⟨rfl, hpid⟩⟩
    · rename_i hpid
      split at hstep
      · exact .inl ⟨entry, _, hpc, (Option.some.inj hstep).symm, .inr (.inl ⟨_, rfl⟩)⟩
      · rename_i hlast
        exact .inl ⟨entry, _, hpc, (Option.some.inj hstep).symm, .inr (.inr ⟨rfl, hpid, hlast⟩)⟩
  · rw [Option.map_eq_some_iff] at hstep
    obtain ⟨⟨s, pc, set⟩, hstep, rfl⟩ := hstep
    exact .inr ⟨s, pc, set, hstep, rfl⟩

/-- Where a callback is after a step of its push, which is labelled so. -/
def CallbackPc.produced (evflag : C) : Option (Fifo.Label ExceptionEvent) → CallbackPc C
  | some (.pushed _) => .setting evflag
  | some (.refused _) => .overflowed evflag
  | _ => .queueing evflag

/-- What the next step of a callback can be: one case for each way its code goes on. -/
inductive CallbackGoes (h : H) (tid : SceUID) (s : ThreadSlot H C) :
    CallbackPc C → ThreadSlot H C → CallbackPc C → Option (C × U32) → Prop where
  | halts (halts : Halted) : CallbackGoes h tid s (.found halts) s (.halted halts) none
  | completes (stepTid : SceUID) (faultAddr : U32) (insn : List U8) (thumb : Bool)
      (hstep : s.step = some (stepTid, faultAddr)) :
      CallbackGoes h tid s (.halted (.brk faultAddr insn thumb)) s .taking none
  | raises (halts : Halted)
      (hnot : ∀ stepTid faultAddr insn thumb, halts = .brk faultAddr insn thumb →
        s.step ≠ some (stepTid, faultAddr)) :
      CallbackGoes h tid s (.halted halts) s (.pushing (GdbSessionInner.queuedEvent tid halts)) none
  | stepGone (hstep : s.step = none) : CallbackGoes h tid s .taking s .returned none
  | takes (stepTid : SceUID) (addr : U32) (hstep : s.step = some (stepTid, addr)) :
      CallbackGoes h tid s .taking { s with step := none } (.took stepTid) none
  | stores (stepTid : SceUID) :
      CallbackGoes h tid s (.took stepTid) { s with stepResult := some stepTid } .stored none
  | unwraps (hflag : s.evflag = none) : CallbackGoes h tid s .stored s .panicked none
  | notifies (evflag : C) (hflag : s.evflag = some evflag) :
      CallbackGoes h tid s .stored s (.setting evflag) none
  | drops (event : ExceptionEvent) (hflag : s.evflag = none) :
      CallbackGoes h tid s (.pushing event) s .returned none
  | pushes (event : ExceptionEvent) (evflag : C) (ring : RingState H ExceptionEvent 8)
      (hflag : s.evflag = some evflag) (hring : ringStep s.exceptions (.push h event) = some ring) :
      CallbackGoes h tid s (.pushing event) { s with exceptions := ring } (.queueing evflag) none
  | queues (evflag : C) (ring : RingState H ExceptionEvent 8)
      (hring : ringStep s.exceptions (.produce h) = some ring) :
      CallbackGoes h tid s (.queueing evflag) { s with exceptions := ring }
        (.produced evflag (ringLabel s.exceptions (.produce h))) none
  | overflows (evflag : C) :
      CallbackGoes h tid s (.overflowed evflag) s .returned (some (evflag, evWakeWorker))
  | exitDrops (hflag : s.evflag = none) : CallbackGoes h tid s .exiting s .returned none
  | exits (evflag : C) (hflag : s.evflag = some evflag) :
      CallbackGoes h tid s .exiting s (.exitStoring evflag) none
  | exitStores (evflag : C) :
      CallbackGoes h tid s (.exitStoring evflag) { s with exited := true } (.setting evflag) none
  | sets (evflag : C) :
      CallbackGoes h tid s (.setting evflag) s .returned (some (evflag, evWakeWorker))
  | startDrops (hflag : s.evflag = none) : CallbackGoes h tid s .starting s .returned none
  | starts (evflag : C) (hflag : s.evflag = some evflag) :
      CallbackGoes h tid s .starting s (.settingStarted evflag) none
  | setsStarted (evflag : C) :
      CallbackGoes h tid s (.settingStarted evflag) s .returned (some (evflag, evProcessStarted))

/-- **The step of a callback**, inverted. -/
theorem callbackPc_goes {h : H} {tid : SceUID} {s s' : ThreadSlot H C} {pc pc' : CallbackPc C}
    {set : Option (C × U32)} (hstep : pc.step h tid s = some (s', pc', set)) :
    CallbackGoes h tid s pc s' pc' set := by
  cases pc with
  | scanning entry => exact absurd hstep (by simp [CallbackPc.step])
  | missed => exact absurd hstep (by simp [CallbackPc.step])
  | returned => exact absurd hstep (by simp [CallbackPc.step])
  | panicked => exact absurd hstep (by simp [CallbackPc.step])
  | found halts =>
    cases hstep
    exact .halts halts
  | halted halts =>
    cases halts with
    | event event =>
      cases hstep
      exact .raises (.event event) fun _ _ _ _ h => by simp at h
    | brk faultAddr insn thumb =>
      simp only [CallbackPc.step] at hstep
      split at hstep
      · next stepTid addr hs =>
        split at hstep
        · next haddr =>
          cases hstep
          exact .completes stepTid faultAddr insn thumb (haddr ▸ hs)
        · next haddr =>
          cases hstep
          refine .raises _ fun stepTid' faultAddr' insn' thumb' hbrk hs' => haddr ?_
          rw [hs] at hs'
          cases hbrk
          cases hs'
          rfl
      · next hs =>
        cases hstep
        exact .raises _ fun _ _ _ _ _ => by simp [hs]
  | taking =>
    simp only [CallbackPc.step] at hstep
    split at hstep
    · next hs =>
      cases hstep
      exact .stepGone hs
    · next stepTid addr hs =>
      cases hstep
      exact .takes stepTid addr hs
  | took stepTid =>
    cases hstep
    exact .stores stepTid
  | stored =>
    simp only [CallbackPc.step] at hstep
    split at hstep
    · next hflag =>
      cases hstep
      exact .unwraps hflag
    · next evflag hflag =>
      cases hstep
      exact .notifies evflag hflag
  | pushing event =>
    simp only [CallbackPc.step] at hstep
    split at hstep
    · next hflag =>
      cases hstep
      exact .drops event hflag
    · next evflag hflag =>
      obtain ⟨ring, hring, heq⟩ := Option.map_eq_some_iff.mp hstep
      cases heq
      exact .pushes event evflag ring hflag hring
  | queueing evflag =>
    obtain ⟨ring, hring, heq⟩ := Option.map_eq_some_iff.mp hstep
    cases heq
    exact .queues evflag ring hring
  | overflowed evflag =>
    cases hstep
    exact .overflows evflag
  | exiting =>
    simp only [CallbackPc.step] at hstep
    split at hstep
    · next hflag =>
      cases hstep
      exact .exitDrops hflag
    · next evflag hflag =>
      cases hstep
      exact .exits evflag hflag
  | exitStoring evflag =>
    cases hstep
    exact .exitStores evflag
  | setting evflag =>
    cases hstep
    exact .sets evflag
  | starting =>
    simp only [CallbackPc.step] at hstep
    split at hstep
    · next hflag =>
      cases hstep
      exact .startDrops hflag
    · next evflag hflag =>
      cases hstep
      exact .starts evflag hflag
  | settingStarted evflag =>
    cases hstep
    exact .setsStarted evflag

/-- A callback's step, for its slot: the pid and the event flag stay, and whatever it stores for the
    worker, it is then about to set an event flag. -/
structure CallbackMoves (h : H) (s : ThreadSlot H C) (pc : CallbackPc C) (s' : ThreadSlot H C)
    (pc' : CallbackPc C) : Prop where
  pid : s'.pid = s.pid
  evflag : s'.evflag = s.evflag
  exited : s'.exited = s.exited ∨ ∃ evflag, pc = .exitStoring evflag ∧ pc' = .setting evflag
  stepResult : s'.stepResult = s.stepResult ∨ pc' = .stored
  tail : s'.exceptions.cells.tail = s.exceptions.cells.tail
  head : s'.exceptions.cells.head = s.exceptions.cells.head ∨
    Pushing.isWritten (s.exceptions.producers h) = true ∧
      ∃ evflag, pc = .queueing evflag ∧ pc' = .setting evflag
  tailLoaded : TailLoaded s.exceptions → TailLoaded s'.exceptions

/-- **What a callback's step moves.** -/
theorem callbackPc_moves {h : H} {tid : SceUID} {s s' : ThreadSlot H C} {pc pc' : CallbackPc C}
    {set : Option (C × U32)} (hstep : pc.step h tid s = some (s', pc', set)) :
    CallbackMoves h s pc s' pc' := by
  cases callbackPc_goes hstep with
  | takes stepTid addr => exact ⟨rfl, rfl, .inl rfl, .inl rfl, rfl, .inl rfl, id⟩
  | stores stepTid => exact ⟨rfl, rfl, .inl rfl, .inr rfl, rfl, .inl rfl, id⟩
  | exitStores evflag =>
    exact ⟨rfl, rfl, .inr ⟨evflag, rfl, rfl⟩, .inl rfl, rfl, .inl rfl, id⟩
  | pushes event evflag ring hflag hring =>
    have hcells := ringStep_push_cells hring
    exact ⟨rfl, rfl, .inl rfl, .inl rfl, congrArg RingCells.tail hcells,
      .inl (congrArg RingCells.head hcells), fun ht => ht.step hring⟩
  | queues evflag ring hring =>
    obtain ⟨htail, hhead⟩ := ringStep_produce_indices hring
    refine ⟨rfl, rfl, .inl rfl, .inl rfl, htail, ?_, fun ht => ht.step hring⟩
    rcases hhead with hhead | ⟨hwritten, v, hlabel⟩
    · exact .inl hhead
    · exact .inr ⟨hwritten, evflag, rfl, by rw [hlabel]; rfl⟩
  | _ => exact ⟨rfl, rfl, .inl rfl, .inl rfl, rfl, .inl rfl, id⟩

variable [DecidableEq C] {x : Threads H C}

/-- A step of a callback, for the system: its slot, itself, and the bits it sets. -/
structure Called (x : Threads H C) (h : H) (hd : Callback C) (s : ThreadSlot H C)
    (pc : CallbackPc C) (y : Threads H C) : Prop where
  slots : y.slots = Function.update x.slots hd.slot s
  handlers : y.handlers = Function.update x.handlers h (some { hd with pc := pc })
  workers : y.workers = x.workers
  conns : y.conns = x.conns
  flags : ∀ c bits, hasBit (x.flags c) bits = true → hasBit (y.flags c) bits = true
  set : ∀ c, hd.pc = .setting c → hasBit (y.flags c) evWakeWorker = true

theorem called {h : H} {hd : Callback C} {s : ThreadSlot H C} {pc : CallbackPc C}
    {set : Option (C × U32)}
    (hstep : hd.pc.step h hd.tid (x.slots hd.slot) = some (s, pc, set)) :
    Called x h hd s pc (((x.setSlot hd.slot s).setBits set).setHandler h { hd with pc := pc }) := by
  cases set with
  | none =>
    refine ⟨rfl, rfl, rfl, rfl, fun _ _ => id, fun c hpc => ?_⟩
    rw [hpc] at hstep
    exact absurd hstep (by simp [CallbackPc.step])
  | some set =>
    obtain ⟨d, bits⟩ := set
    refine ⟨rfl, rfl, rfl, rfl, fun c bits' hset => ?_, fun c hpc => ?_⟩
    · show hasBit (Function.update x.flags d (x.flags d ||| bits) c) bits' = true
      by_cases hc : c = d
      · rw [hc, Function.update_self]
        rw [hc] at hset
        exact hasBit_or hset bits
      · rw [Function.update_of_ne hc]
        exact hset
    · rw [hpc] at hstep
      simp only [CallbackPc.step, Option.some.injEq, Prod.mk.injEq] at hstep
      obtain ⟨-, -, rfl, rfl⟩ := hstep
      show hasBit (Function.update x.flags c (x.flags c ||| evWakeWorker) c) evWakeWorker = true
      rw [Function.update_self]
      exact hasBit_or_self (by decide) _

end Callbacks

section Workers

variable {x y : Threads H C} {c : C}

/-- A worker's step, for the others: it keeps to its own connection and to the slot it has
    claimed. -/
structure WorkerMoves (x : Threads H C) (c : C) (y : Threads H C) : Prop where
  handlers : y.handlers = x.handlers
  workers : ∀ d, d ≠ c → y.workers d = x.workers d
  conns : ∀ d, d ≠ c → y.conns d = x.conns d
  flags : ∀ d, d ≠ c → y.flags d = x.flags d
  slots : ∀ i, (x.workers c).session ≠ some i → y.slots i = x.slots i

namespace WorkerMoves

theorem refl (x : Threads H C) (c : C) : WorkerMoves x c x :=
  ⟨rfl, fun _ _ => rfl, fun _ _ => rfl, fun _ _ => rfl, fun _ _ => rfl⟩

theorem setSlot (h : WorkerMoves x c y) {i : Fin 4} (hi : (x.workers c).session = some i)
    (s : ThreadSlot H C) : WorkerMoves x c (y.setSlot i s) := by
  refine ⟨h.handlers, h.workers, h.conns, h.flags, fun j hj => ?_⟩
  have hne : j ≠ i := by
    rintro rfl
    exact hj hi
  exact (Function.update_of_ne hne _ _).trans (h.slots j hj)

variable [DecidableEq C]

theorem setWorker (h : WorkerMoves x c y) (w : WorkerThread C) : WorkerMoves x c (y.setWorker c w) :=
  ⟨h.handlers, fun d hd => (Function.update_of_ne hd _ _).trans (h.workers d hd), h.conns, h.flags,
    h.slots⟩

theorem moveTo (h : WorkerMoves x c y) (pc : WorkerPc C) : WorkerMoves x c (y.moveTo c pc) :=
  h.setWorker _

theorem setConn (h : WorkerMoves x c y) (r : ConnRun) : WorkerMoves x c (y.setConn c r) :=
  ⟨h.handlers, h.workers, fun d hd => (Function.update_of_ne hd _ _).trans (h.conns d hd), h.flags,
    h.slots⟩

theorem setFlag (h : WorkerMoves x c y) (bits : U32) : WorkerMoves x c (y.setFlag c bits) :=
  ⟨h.handlers, h.workers, h.conns, fun d hd => (Function.update_of_ne hd _ _).trans (h.flags d hd),
    h.slots⟩

theorem clearFlag (h : WorkerMoves x c y) (bits : U32) : WorkerMoves x c (y.clearFlag c bits) :=
  ⟨h.handlers, h.workers, h.conns, fun d hd => (Function.update_of_ne hd _ _).trans (h.flags d hd),
    h.slots⟩

theorem detachThen (h : WorkerMoves x c y) (next : Option (SceUID × AttachKind)) :
    WorkerMoves x c (y.detachThen c next) := by
  unfold Threads.detachThen
  split
  · exact h.moveTo _
  · exact h.moveTo _
  · exact h.moveTo _

end WorkerMoves

variable [DecidableEq C]

/-- A worker that exchanges the pid of a free slot, and what it moves then. -/
def Claims (x : Threads H C) (c : C) (i : Fin 4) (y : Threads H C) : Prop :=
  ∃ pid kind, (x.workers c).pc = .attaching pid kind i ∧ (x.slots i).pid = pidUnused ∧
    y = (x.setSlot i { x.slots i with pid := pid }).setWorker c
      { x.workers c with session := some i, pc := .claimed pid kind }

/-- A worker that clears the event flag it has found in its slot, whosever it is. -/
def ClearsFlag (x : Threads H C) (c d : C) (y : Threads H C) : Prop :=
  ∃ next, (x.workers c).pc = .resetting (.clearFlag d) next ∧
    y = (x.clearFlag d evWakeWorker).moveTo c (.resetting .storeFlag next)

variable [DecidableEq H]

theorem resetStep_moves {i : Fin 4} {next : Option (SceUID × AttachKind)} {phase : ResetPhase C}
    (hpc : (x.workers c).pc = .resetting phase next) (hi : (x.workers c).session = some i)
    (h : resetStep x c i next phase = some y) : WorkerMoves x c y ∨ ∃ d, ClearsFlag x c d y := by
  have hrefl := WorkerMoves.refl x c
  cases phase with
  | loadFlag =>
    simp only [resetStep] at h
    split at h
    · exact .inl (Option.some.inj h ▸ hrefl.moveTo _)
    · exact .inl (Option.some.inj h ▸ hrefl.moveTo _)
  | clearFlag d => exact .inr ⟨d, next, hpc, (Option.some.inj h).symm⟩
  | clearExceptions =>
    simp only [resetStep, Option.map_eq_some_iff] at h
    obtain ⟨ring, -, rfl⟩ := h
    exact .inl ((hrefl.setSlot hi _).moveTo _)
  | storePid => exact .inl (Option.some.inj h ▸ (hrefl.setSlot hi _).setWorker _)
  | _ => exact .inl (Option.some.inj h ▸ (hrefl.setSlot hi _).moveTo _)

/-- Where a worker is once its session has its event flag. -/
def WorkerPc.afterClaim (pid : SceUID) : AttachKind → WorkerPc C
  | .run => .starting pid
  | .attach => .outside

/-- Where a worker is after a step of `pop_excp`, which is labelled so. -/
def WorkerPc.afterPop : Option (Fifo.Label ExceptionEvent) → WorkerPc C
  | some .empty => .bytes .eventOrByte
  | some _ => .outside
  | none => .events

/-- Where a worker is after a step of `read`, which is then here. -/
def WorkerPc.afterRead (turn : Turn) : ConnUser → WorkerPc C
  | .idle (some .none) => .waiting turn
  | .idle _ => .outside
  | _ => .bytes turn

/-- What the next step of a worker can be: one case for each way its code goes on. -/
inductive WorkerGoes (x : Threads H C) (c : C) : Threads H C → Prop where
  | launched (pid : SceUID) (hpc : (x.workers c).pc = .launching pid) :
      WorkerGoes x c (x.detachThen c (some (pid, .run)))
  | claims (pid : SceUID) (kind : AttachKind) (slot : Fin 4)
      (hpc : (x.workers c).pc = .attaching pid kind slot) (hfree : (x.slots slot).pid = pidUnused) :
      WorkerGoes x c ((x.setSlot slot { x.slots slot with pid := pid }).setWorker c
        { x.workers c with session := some slot, pc := .claimed pid kind })
  | tries (pid : SceUID) (kind : AttachKind) (slot slot' : Fin 4)
      (hpc : (x.workers c).pc = .attaching pid kind slot) (hused : (x.slots slot).pid ≠ pidUnused)
      (hnext : nextSlot slot = some slot') : WorkerGoes x c (x.moveTo c (.attaching pid kind slot'))
  | givesUp (pid : SceUID) (kind : AttachKind) (slot : Fin 4)
      (hpc : (x.workers c).pc = .attaching pid kind slot) (hused : (x.slots slot).pid ≠ pidUnused)
      (hlast : nextSlot slot = none) : WorkerGoes x c (x.moveTo c .outside)
  | publishes (pid : SceUID) (kind : AttachKind) (i : Fin 4)
      (hpc : (x.workers c).pc = .claimed pid kind) (hi : (x.workers c).session = some i) :
      WorkerGoes x c ((x.setSlot i { x.slots i with evflag := some c }).setWorker c
        { session := some i, detached := false, pc := .afterClaim pid kind })
  | started (pid : SceUID) (hpc : (x.workers c).pc = .starting pid)
      (hset : hasBit (x.flags c) evProcessStarted = true) :
      WorkerGoes x c ((x.clearFlag c evProcessStarted).moveTo c .outside)
  | hasDetached (hpc : (x.workers c).pc = .looping .eventOrByte)
      (hdetached : (x.workers c).detached = true) :
      WorkerGoes x c (x.setWorker c { x.workers c with detached := false, pc := .outside })
  | noSession (turn : Turn) (hpc : (x.workers c).pc = .looping turn)
      (hdetached : turn = .eventOrByte → (x.workers c).detached = false)
      (hi : (x.workers c).session = none) : WorkerGoes x c (x.moveTo c (.bytes turn))
  | exited (turn : Turn) (i : Fin 4) (hpc : (x.workers c).pc = .looping turn)
      (hdetached : turn = .eventOrByte → (x.workers c).detached = false)
      (hi : (x.workers c).session = some i) (hexited : (x.slots i).exited = true) :
      WorkerGoes x c ((x.setSlot i { x.slots i with exited := false }).moveTo c .outside)
  | looksForStep (i : Fin 4) (hpc : (x.workers c).pc = .looping .eventOrByte)
      (hdetached : (x.workers c).detached = false) (hi : (x.workers c).session = some i)
      (hexited : (x.slots i).exited = false) : WorkerGoes x c (x.moveTo c .steps)
  | looksForByte (i : Fin 4) (hpc : (x.workers c).pc = .looping .byte)
      (hi : (x.workers c).session = some i) (hexited : (x.slots i).exited = false) :
      WorkerGoes x c (x.moveTo c (.bytes .byte))
  | takesStep (i : Fin 4) (stepTid : SceUID) (hpc : (x.workers c).pc = .steps)
      (hi : (x.workers c).session = some i) (hresult : (x.slots i).stepResult = some stepTid) :
      WorkerGoes x c ((x.setSlot i { x.slots i with stepResult := none }).moveTo c .outside)
  | noStep (i : Fin 4) (hpc : (x.workers c).pc = .steps) (hi : (x.workers c).session = some i)
      (hresult : (x.slots i).stepResult = none) : WorkerGoes x c (x.moveTo c .events)
  | pops (i : Fin 4) (ring : RingState H ExceptionEvent 8) (hpc : (x.workers c).pc = .events)
      (hi : (x.workers c).session = some i)
      (hring : ringStep (x.slots i).exceptions ((x.slots i).exceptions.nextConsume .pop) = some ring) :
      WorkerGoes x c ((x.setSlot i { x.slots i with exceptions := ring }).moveTo c
        (.afterPop (ringLabel (x.slots i).exceptions ((x.slots i).exceptions.nextConsume .pop))))
  | calls (turn : Turn) (answer : Option ReadResult) (r : ConnRun)
      (hpc : (x.workers c).pc = .bytes turn) (huser : (x.conns c).user = .idle answer)
      (hr : connStep (x.conns c) .call = some r) :
      WorkerGoes x c ((x.setConn c r).moveTo c (.bytes turn))
  | wakesReader (turn : Turn) (byte : U8) (r : ConnRun) (hpc : (x.workers c).pc = .bytes turn)
      (huser : (x.conns c).user = .reading (.released byte))
      (hr : connStep (x.conns c) .read = some r) :
      WorkerGoes x c (((x.setFlag c evWakeReader).setConn c r).moveTo c .outside)
  | reads (turn : Turn) (reading : Reading) (r : ConnRun) (hpc : (x.workers c).pc = .bytes turn)
      (huser : (x.conns c).user = .reading reading) (hnot : ∀ byte, reading ≠ .released byte)
      (hr : connStep (x.conns c) .read = some r) :
      WorkerGoes x c ((x.setConn c r).moveTo c (.afterRead turn r.user))
  | woken (turn : Turn) (hpc : (x.workers c).pc = .waiting turn)
      (hset : hasBit (x.flags c) evWakeWorker = true) :
      WorkerGoes x c ((x.clearFlag c evWakeWorker).moveTo c (.looping turn))
  | resets (phase : ResetPhase C) (next : Option (SceUID × AttachKind)) (i : Fin 4)
      (y : Threads H C) (hpc : (x.workers c).pc = .resetting phase next)
      (hi : (x.workers c).session = some i) (hreset : resetStep x c i next phase = some y) :
      WorkerGoes x c y

/-- At the top of the loop a session's exit flag is looked at first. -/
theorem workerStep_looping {turn : Turn} (hpc : (x.workers c).pc = .looping turn)
    (h : workerStep x c = some y) : WorkerGoes x c y := by
  cases turn with
  | eventOrByte =>
    simp only [workerStep, hpc] at h
    split at h
    · next hdetached =>
      cases h
      exact .hasDetached hpc hdetached
    · next hdetached =>
      have hattached := Bool.eq_false_iff.mpr hdetached
      split at h
      · next hi =>
        cases h
        exact .noSession .eventOrByte hpc (fun _ => hattached) hi
      · next i hi =>
        split at h
        · next hexited =>
          cases h
          exact .exited .eventOrByte i hpc (fun _ => hattached) hi hexited
        · next hexited =>
          cases h
          exact .looksForStep i hpc hattached hi (Bool.eq_false_iff.mpr hexited)
  | byte =>
    simp only [workerStep, hpc] at h
    split at h
    · next hi =>
      cases h
      exact .noSession .byte hpc (by simp) hi
    · next i hi =>
      split at h
      · next hexited =>
        cases h
        exact .exited .byte i hpc (by simp) hi hexited
      · next hexited =>
        cases h
        exact .looksForByte i hpc hi (Bool.eq_false_iff.mpr hexited)

/-- In `read` the worker goes on with the call it is in. -/
theorem workerStep_bytes {turn : Turn} (hpc : (x.workers c).pc = .bytes turn)
    (h : workerStep x c = some y) : WorkerGoes x c y := by
  cases huser : (x.conns c).user with
  | panicked => simp [workerStep, hpc, huser] at h
  | closed => simp [workerStep, hpc, huser] at h
  | idle answer =>
    simp only [workerStep, hpc, huser, Option.map_eq_some_iff] at h
    obtain ⟨r, hr, rfl⟩ := h
    exact .calls turn answer r hpc huser hr
  | reading reading =>
    by_cases hreleased : ∃ byte, reading = .released byte
    · obtain ⟨byte, rfl⟩ := hreleased
      simp only [workerStep, hpc, huser, Option.map_eq_some_iff] at h
      obtain ⟨r, hr, rfl⟩ := h
      exact .wakesReader turn byte r hpc huser hr
    · have hnot : ∀ byte, reading ≠ .released byte := not_exists.mp hreleased
      obtain ⟨r, hr, rfl⟩ : ∃ r, connStep (x.conns c) .read = some r ∧
          (x.setConn c r).moveTo c (.afterRead turn r.user) = y := by
        cases reading with
        | released byte => exact absurd rfl (hnot byte)
        | _ =>
          simp only [workerStep, hpc, huser, Option.map_eq_some_iff] at h
          exact h
      exact .reads turn reading r hpc huser hnot hr

/-- **The step of a worker**, inverted. -/
theorem workerStep_goes (h : workerStep x c = some y) : WorkerGoes x c y := by
  cases hpc : (x.workers c).pc with
  | outside => simp [workerStep, hpc] at h
  | launching pid =>
    simp only [workerStep, hpc, Option.some.injEq] at h
    subst h
    exact .launched pid hpc
  | attaching pid kind slot =>
    simp only [workerStep, hpc] at h
    split at h
    · next hfree =>
      cases h
      exact .claims pid kind slot hpc hfree
    · next hused =>
      split at h
      · next slot' hnext =>
        cases h
        exact .tries pid kind slot slot' hpc hused hnext
      · next hlast =>
        cases h
        exact .givesUp pid kind slot hpc hused hlast
  | claimed pid kind =>
    cases hi : (x.workers c).session with
    | none => simp [workerStep, hpc, hi] at h
    | some i =>
      simp only [workerStep, hpc, hi, Option.some.injEq] at h
      subst h
      exact .publishes pid kind i hpc hi
  | starting pid =>
    simp only [workerStep, hpc] at h
    split at h
    · next hset =>
      cases h
      exact .started pid hpc hset
    · exact absurd h (by simp)
  | looping turn => exact workerStep_looping hpc h
  | steps =>
    cases hi : (x.workers c).session with
    | none => simp [workerStep, hpc, hi] at h
    | some i =>
      simp only [workerStep, hpc, hi] at h
      split at h
      · next stepTid hresult =>
        cases h
        exact .takesStep i stepTid hpc hi hresult
      · next hresult =>
        cases h
        exact .noStep i hpc hi hresult
  | events =>
    cases hi : (x.workers c).session with
    | none => simp [workerStep, hpc, hi] at h
    | some i =>
      simp only [workerStep, hpc, hi, Option.map_eq_some_iff] at h
      obtain ⟨ring, hring, rfl⟩ := h
      exact .pops i ring hpc hi hring
  | bytes turn => exact workerStep_bytes hpc h
  | waiting turn =>
    simp only [workerStep, hpc] at h
    split at h
    · next hset =>
      cases h
      exact .woken turn hpc hset
    · exact absurd h (by simp)
  | resetting phase next =>
    cases hi : (x.workers c).session with
    | none => simp [workerStep, hpc, hi] at h
    | some i =>
      simp only [workerStep, hpc, hi] at h
      exact .resets phase next i y hpc hi h

/-- **What a worker's step moves.** -/
theorem workerStep_moves (h : workerStep x c = some y) :
    WorkerMoves x c y ∨ (∃ i, Claims x c i y) ∨ ∃ d, ClearsFlag x c d y := by
  have hrefl := WorkerMoves.refl x c
  cases workerStep_goes h with
  | launched => exact .inl (hrefl.detachThen _)
  | claims pid kind slot hpc hfree => exact .inr (.inl ⟨slot, pid, kind, hpc, hfree, rfl⟩)
  | publishes _ _ _ _ hi => exact .inl ((hrefl.setSlot hi _).setWorker _)
  | started => exact .inl ((hrefl.clearFlag _).moveTo _)
  | hasDetached => exact .inl (hrefl.setWorker _)
  | exited _ _ _ _ hi => exact .inl ((hrefl.setSlot hi _).moveTo _)
  | takesStep _ _ _ hi => exact .inl ((hrefl.setSlot hi _).moveTo _)
  | pops _ _ _ hi => exact .inl ((hrefl.setSlot hi _).moveTo _)
  | calls => exact .inl ((hrefl.setConn _).moveTo _)
  | wakesReader => exact .inl (((hrefl.setFlag _).setConn _).moveTo _)
  | reads => exact .inl ((hrefl.setConn _).moveTo _)
  | woken => exact .inl ((hrefl.clearFlag _).moveTo _)
  | resets phase next i _ hpc hi hreset =>
    rcases resetStep_moves hpc hi hreset with hmoves | hclears
    · exact .inl hmoves
    · exact .inr (.inr hclears)
  | _ => exact .inl (hrefl.moveTo _)

/-- **What any event of a worker moves.** -/
theorem workerEvent_moves {e : WorkerEvent} (h : workerEvent x c e = some y) :
    WorkerMoves x c y ∨ (∃ i, Claims x c i y) ∨ ∃ d, ClearsFlag x c d y := by
  have hrefl := WorkerMoves.refl x c
  unfold workerEvent at h
  split at h
  · exact workerStep_moves h
  · exact .inl (Option.some.inj h ▸ hrefl.moveTo _)
  · exact .inl (Option.some.inj h ▸ hrefl.detachThen _)
  · split at h
    · exact absurd h (by simp)
    · exact .inl (Option.some.inj h ▸ hrefl.detachThen _)
  · exact .inl (Option.some.inj h ▸ hrefl.moveTo _)
  · exact .inl (Option.some.inj h ▸ hrefl.moveTo _)
  · split at h
    · rename_i hi
      exact .inl (Option.some.inj h ▸ (hrefl.setSlot hi _).moveTo _)
    · exact absurd h (by simp)
  · split at h
    · exact absurd h (by simp)
    · exact .inl (Option.some.inj h ▸ hrefl.detachThen _)
  · exact absurd h (by simp)

theorem workerEvent_handlers {e : WorkerEvent} (h : workerEvent x c e = some y) :
    y.handlers = x.handlers := by
  rcases workerEvent_moves h with hmoves | ⟨i, pid, kind, -, -, rfl⟩ | ⟨d, next, -, rfl⟩
  · exact hmoves.handlers
  · rfl
  · rfl

end Workers

end VitaGdb

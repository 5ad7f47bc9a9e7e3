/-
  Wake-ups: whether a thread that waits for an event flag has something to do.

  Five things wake a worker: an exception, a finished step, the exit of the process, bytes, the end
  of the file.  Each is stored first, and `EV_WAKE_WORKER` set after; the worker looks at all five
  before it waits, and goes round again when it is woken.  So a set that comes while it looks is not
  lost, and neither is one that `reset` clears.

  The event flag must be the worker's, though.  `step_finished` loads it after its store;
  `push_excp` and `push_exited` load it before theirs, and a slot can change hands in between: the
  exception is then in the ring of one connection, and the flag of another is set
  (`wakeups_lost`).  `wakeups_kept` is for the runs in which a store that follows the load of an
  event flag finds that flag in the slot, or none, and no two workers claim one slot;
  `wakeups_kept_alone` is for a single connection, which meets this always.
-/
import VitaGdb.Gdb.Threads

namespace VitaGdb

variable {H C : Type}

/-! ## Waiting for nothing -/

/-- Between a store and the set that follows it. -/
def CallbackPc.storing : CallbackPc C → Bool
  | .stored => true
  | .setting _ => true
  | _ => false

/-- A callback that is to wake a worker is. -/
theorem CallbackPc.storing_of_wakes {pc : CallbackPc C} {c : C} {P : Prop}
    (h : pc = .setting c ∨ pc = .stored ∧ P) : pc.storing = true := by
  rcases h with rfl | ⟨rfl, -⟩ <;> rfl

/-- No thread is between its store and its set. -/
structure Quiet (x : Threads H C) : Prop where
  handlers : ∀ h hd, x.handlers h = some hd → hd.pc.storing = false
  rx : ∀ c, (x.conns c).rx ≠ .waking ∧ (x.conns c).rx ≠ .wakingLast
  readers : ∀ c byte, (x.conns c).user ≠ .reading (.released byte)

/-- Something is there for `next_event_or_byte` of this connection to return. -/
def ForWorker (x : Threads H C) (c : C) : Prop :=
  (∃ i, (x.workers c).session = some i ∧ ((x.slots i).exited = true ∨
      (x.slots i).stepResult ≠ none ∨
      (x.slots i).exceptions.cells.tail ≠ (x.slots i).exceptions.cells.head)) ∨
    (x.conns c).conn.state.len ≠ 0 ∨ (x.conns c).conn.state.closed = true

/-- No thread is blocked on its event flag with something to do. -/
def NoLostWakeup (x : Threads H C) : Prop :=
  Quiet x → ∀ c,
    ¬ ((x.workers c).pc = .waiting .eventOrByte ∧ hasBit (x.flags c) evWakeWorker = false ∧
      ForWorker x c) ∧
    ¬ ((x.conns c).rx = .waiting ∧ hasBit (x.flags c) evWakeReader = false ∧
      (x.conns c).conn.state.len = 0)

/-! ## The condition -/

/-- The slot has this event flag, or none. -/
def HasFlag (s : ThreadSlot H C) (evflag : C) : Prop := ∀ other ∈ s.evflag, other = evflag

/-- The event flag of a store that follows its load. -/
def storesFor (h : H) (s : ThreadSlot H C) : CallbackPc C → Option C
  | .exitStoring evflag => some evflag
  | .queueing evflag =>
    if Pushing.isWritten (s.exceptions.producers h) then some evflag else none
  | _ => none

/-- A callback that is about to store finds the event flag it has loaded, or none; and a worker that
    is about to claim a slot finds it with no other. -/
def FlagsMeet (x : Threads H C) : ThreadEvent H C → Prop
  | .handler h => ∀ hd ∈ x.handlers h, ∀ evflag ∈ storesFor h (x.slots hd.slot) hd.pc,
      HasFlag (x.slots hd.slot) evflag
  | .worker c .step =>
    match (x.workers c).pc with
    | .attaching _ _ i =>
      (x.slots i).pid = pidUnused → ∀ d, (x.workers d).session = some i → d = c
    | _ => True
  | _ => True

/-! ## What a worker has looked at -/

namespace WorkerPc

/-- It has found the exit flag clear, and has not waited since. -/
def pastExit : WorkerPc C → Bool
  | .steps | .events | .bytes _ | .waiting _ => true
  | _ => false

def pastStep : WorkerPc C → Bool
  | .events | .bytes .eventOrByte | .waiting .eventOrByte => true
  | _ => false

def pastEvents : WorkerPc C → Bool
  | .bytes .eventOrByte | .waiting .eventOrByte => true
  | _ => false

/-- Its slot has its event flag. -/
def published : WorkerPc C → Bool
  | .claimed _ _ => false
  | .resetting .loadFlag _ | .resetting (.clearFlag _) _ | .resetting .storeFlag _ => true
  | .resetting _ _ => false
  | _ => true

end WorkerPc

/-- Something it has looked at has come since. -/
def Unseen (x : Threads H C) (c : C) : Prop :=
  (∃ i, (x.workers c).session = some i ∧
    ((x.workers c).pc.pastExit = true ∧ (x.slots i).exited = true ∨
      (x.workers c).pc.pastStep = true ∧ (x.slots i).stepResult ≠ none ∨
      (x.workers c).pc.pastEvents = true ∧
        (x.slots i).exceptions.cells.tail ≠ (x.slots i).exceptions.cells.head)) ∨
  (∃ turn, (x.workers c).pc = .bytes turn ∧ (x.conns c).user = .reading .opened ∧
    (x.conns c).conn.state.closed = true) ∨
  ∃ turn, (x.workers c).pc = .waiting turn ∧
    ((x.conns c).conn.state.closed = true ∨ (x.conns c).conn.state.len ≠ 0)

/-- It is woken already, or is about to be. -/
def Due (x : Threads H C) (c : C) : Prop :=
  hasBit (x.flags c) evWakeWorker = true ∨
  (∃ h hd, x.handlers h = some hd ∧
    (hd.pc = .setting c ∨ hd.pc = .stored ∧ (x.workers c).session = some hd.slot)) ∨
  (x.conns c).rx = .waking ∨ (x.conns c).rx = .wakingLast

/-- A receive thread that waits is woken already, or is about to be, or has to wait. -/
def ReaderDue (x : Threads H C) (c : C) : Prop :=
  (x.conns c).rx = .waiting → (x.conns c).conn.state.len = 0 →
    hasBit (x.flags c) evWakeReader = true ∨ ∃ byte, (x.conns c).user = .reading (.released byte)

/-- What holds along a run. -/
structure Wakeful (x : Threads H C) : Prop where
  /-- A slot is one worker's, and has its event flag. -/
  single : ∀ c d i, (x.workers c).session = some i → (x.workers d).session = some i → c = d
  free : ∀ c pid kind i, (x.workers c).pc = .attaching pid kind i → (x.workers c).session = none
  flag : ∀ c i, (x.workers c).session = some i → (x.workers c).pc.published = true →
    (x.slots i).evflag = some c
  own : ∀ c d next, (x.workers c).pc = .resetting (.clearFlag d) next → d = c
  calls : ∀ c r, (x.conns c).user = .reading r → ∃ turn, (x.workers c).pc = .bytes turn
  tails : ∀ i, TailLoaded (x.slots i).exceptions
  /-- Nothing comes that the worker has looked at and will not look at again. -/
  due : ∀ c, Unseen x c → Due x c
  readers : ∀ c, ReaderDue x c

variable {x y : Threads H C}

/-- **A wakeful state has no lost wake-up.** -/
theorem Wakeful.noLostWakeup (h : Wakeful x) : NoLostWakeup x := by
  intro hquiet c
  constructor
  · rintro ⟨hpc, hclear, hfor⟩
    have hunseen : Unseen x c := by
      rcases hfor with ⟨i, hi, hpending⟩ | hbytes
      · refine .inl ⟨i, hi, ?_⟩
        rw [hpc]
        rcases hpending with hexited | hresult | hring
        · exact .inl ⟨rfl, hexited⟩
        · exact .inr (.inl ⟨rfl, hresult⟩)
        · exact .inr (.inr ⟨rfl, hring⟩)
      · exact .inr (.inr ⟨.eventOrByte, hpc, hbytes.symm⟩)
    rcases h.due c hunseen with hset | ⟨k, hd, hk, hstoring⟩ | hrx | hrx
    · exact absurd hset (by rw [hclear]; simp)
    · have hnone := hquiet.handlers k hd hk
      rw [CallbackPc.storing_of_wakes hstoring] at hnone
      exact absurd hnone (by simp)
    · exact (hquiet.rx c).1 hrx
    · exact (hquiet.rx c).2 hrx
  · rintro ⟨hrx, hclear, hlen⟩
    rcases h.readers c hrx hlen with hset | ⟨byte, hreleased⟩
    · exact absurd hset (by rw [hclear]; simp)
    · exact hquiet.readers c byte hreleased

theorem wakeful_start (states : C → ConnState) : Wakeful (Threads.start states : Threads H C) where
  single := fun c d i hc => absurd hc (by simp [Threads.start])
  free := fun c pid kind i _ => rfl
  flag := fun c i hc => absurd hc (by simp [Threads.start])
  own := fun c d next hpc => absurd hpc (by simp [Threads.start])
  calls := fun c r huser => absurd huser (by simp [Threads.start, ConnRun.start])
  tails := fun i t ht => absurd ht (by simp [Threads.start, ThreadSlot.uninit, RingState.new])
  due := fun c hunseen => by
    rcases hunseen with ⟨i, hi, -⟩ | ⟨turn, hpc, -⟩ | ⟨turn, hpc, -⟩
    · exact absurd hi (by simp [Threads.start])
    · exact absurd hpc (by simp [Threads.start])
    · exact absurd hpc (by simp [Threads.start])
  readers := fun c hrx => absurd hrx (by simp [Threads.start, ConnRun.start])

/-! ## Steps of callbacks -/

/-- A worker in its loop has its event flag in its slot. -/
theorem Unseen.published {c : C} (h : Unseen x c) : (x.workers c).pc.published = true := by
  have hpast : (x.workers c).pc.pastExit = true → (x.workers c).pc.published = true := by
    cases (x.workers c).pc with
    | resetting phase next => exact fun h => absurd h (by simp [WorkerPc.pastExit])
    | _ => simp [WorkerPc.pastExit, WorkerPc.published]
  rcases h with ⟨i, -, hlooked⟩ | ⟨turn, hpc, -⟩ | ⟨turn, hpc, -⟩
  · refine hpast ?_
    rcases hlooked with ⟨hpc, -⟩ | ⟨hpc, -⟩ | ⟨hpc, -⟩
    · exact hpc
    · revert hpc
      cases (x.workers c).pc <;> simp [WorkerPc.pastStep, WorkerPc.pastExit]
    · revert hpc
      cases (x.workers c).pc <;> simp [WorkerPc.pastEvents, WorkerPc.pastExit]
  · rw [hpc]
    rfl
  · rw [hpc]
    rfl

/-- One slot changes, and its ring is in order. -/
theorem tails_update {slots : Fin 4 → ThreadSlot H C} {i : Fin 4} {s : ThreadSlot H C}
    (h : ∀ j, TailLoaded (slots j).exceptions) (hs : TailLoaded s.exceptions) (j : Fin 4) :
    TailLoaded (Function.update slots i s j).exceptions := by
  by_cases hj : j = i
  · rw [hj, Function.update_self]
    exact hs
  · rw [Function.update_of_ne hj]
    exact h j

section Callbacks

variable [DecidableEq H]

/-- A callback that is not between a store and a set goes on. -/
theorem Wakeful.setHandler (hx : Wakeful x) {h : H} {hd' : Callback C}
    (hold : ∀ hd, x.handlers h = some hd → hd.pc.storing = false) :
    Wakeful (x.setHandler h hd') where
  single := hx.single
  free := hx.free
  flag := hx.flag
  own := hx.own
  calls := hx.calls
  tails := hx.tails
  due := fun c hunseen => by
    rcases hx.due c hunseen with hset | ⟨k, hd, hk, hstoring⟩ | hrx
    · exact .inl hset
    · refine .inr (.inl ⟨k, hd, ?_, hstoring⟩)
      have hne : k ≠ h := by
        rintro rfl
        have hnone := hold hd hk
        rw [CallbackPc.storing_of_wakes hstoring] at hnone
        exact absurd hnone (by simp)
      exact (Function.update_of_ne hne _ _).trans hk
    · exact .inr (.inr hrx)
  readers := hx.readers

/-- Who is about to be woken still is, or is woken, when a callback goes on. -/
theorem Due.called {h : H} {hd : Callback C} {s : ThreadSlot H C} {pc : CallbackPc C}
    {set : Option (C × U32)} {c : C} (hdue : Due x c) (hh : x.handlers h = some hd)
    (hstep : hd.pc.step h hd.tid (x.slots hd.slot) = some (s, pc, set))
    (hy : Called x h hd s pc y)
    (hflag : (x.workers c).session = some hd.slot → (x.slots hd.slot).evflag = some c) :
    Due y c := by
  rcases hdue with hset | ⟨k, hd', hk, hstoring⟩ | hrx
  · exact .inl (hy.flags c _ hset)
  · by_cases hkh : k = h
    · subst hkh
      obtain rfl : hd = hd' := Option.some.inj (hh.symm.trans hk)
      rcases hstoring with hpc | ⟨hpc, hsession⟩
      · exact .inl (hy.set c hpc)
      · -- the result is stored, and the event flag loaded after it is the worker's
        rw [hpc] at hstep
        simp only [CallbackPc.step, hflag hsession, Option.some.injEq, Prod.mk.injEq] at hstep
        obtain ⟨-, rfl, -⟩ := hstep
        refine .inr (.inl ⟨k, { hd with pc := .setting c }, ?_, .inl rfl⟩)
        rw [hy.handlers, Function.update_self]
    · refine .inr (.inl ⟨k, hd', ?_, ?_⟩)
      · rw [hy.handlers, Function.update_of_ne hkh]
        exact hk
      · rw [hy.workers]
        exact hstoring
  · rw [Due, hy.conns]
    exact .inr (.inr hrx)

/-- **A step of a callback** keeps every thread awake, if its store finds the event flag it has
    loaded. -/
theorem Wakeful.callback (hx : Wakeful x) {h : H} {hd : Callback C} {s : ThreadSlot H C}
    {pc : CallbackPc C} {set : Option (C × U32)} (hh : x.handlers h = some hd)
    (hmeet : ∀ evflag, storesFor h (x.slots hd.slot) hd.pc = some evflag →
      HasFlag (x.slots hd.slot) evflag)
    (hstep : hd.pc.step h hd.tid (x.slots hd.slot) = some (s, pc, set))
    (hy : Called x h hd s pc y) : Wakeful y := by
  have hmoves := callbackPc_moves hstep
  have hsame : ∀ i, i ≠ hd.slot → y.slots i = x.slots i := by
    intro i hi
    rw [hy.slots, Function.update_of_ne hi]
  have hslot : y.slots hd.slot = s := by rw [hy.slots, Function.update_self]
  have hevflag : ∀ i, (y.slots i).evflag = (x.slots i).evflag := by
    intro i
    by_cases hi : i = hd.slot
    · rw [hi, hslot, hmoves.evflag]
    · rw [hsame i hi]
  have hsetting : ∀ c, pc = .setting c → Due y c := by
    intro c hpc
    refine .inr (.inl ⟨h, { hd with pc := pc }, ?_, .inl hpc⟩)
    rw [hy.handlers, Function.update_self]
  constructor
  · rw [hy.workers]
    exact hx.single
  · rw [hy.workers]
    exact hx.free
  · intro c i hi hpub
    rw [hy.workers] at hi hpub
    rw [hevflag]
    exact hx.flag c i hi hpub
  · rw [hy.workers]
    exact hx.own
  · rw [hy.workers, hy.conns]
    exact hx.calls
  · intro i
    by_cases hi : i = hd.slot
    · rw [hi, hslot]
      exact hmoves.tailLoaded (hx.tails hd.slot)
    · rw [hsame i hi]
      exact hx.tails i
  · intro c hunseen
    have hpub := hunseen.published
    rw [hy.workers] at hpub
    have hflag : (x.workers c).session = some hd.slot → (x.slots hd.slot).evflag = some c :=
      fun hsession => hx.flag c hd.slot hsession hpub
    -- the event flag a store is for is this worker's
    have hmine : ∀ evflag, (x.workers c).session = some hd.slot →
        storesFor h (x.slots hd.slot) hd.pc = some evflag → c = evflag := by
      intro evflag hsession hstores
      exact hmeet evflag hstores c (hflag hsession)
    have hold : Unseen x c → Due y c := fun hold => (hx.due c hold).called hh hstep hy hflag
    rcases hunseen with ⟨i, hi, hlooked⟩ | hconn | hconn
    · rw [hy.workers] at hi hlooked
      by_cases his : i = hd.slot
      · subst his
        rw [hslot] at hlooked
        rcases hlooked with ⟨hpast, hexited⟩ | ⟨hpast, hresult⟩ | ⟨hpast, hring⟩
        · rcases hmoves.exited with heq | ⟨evflag, hpc, hpc'⟩
          · exact hold (.inl ⟨_, hi, .inl ⟨hpast, heq ▸ hexited⟩⟩)
          · obtain rfl := hmine evflag hi (by rw [hpc]; rfl)
            exact hsetting c hpc'
        · rcases hmoves.stepResult with heq | hpc'
          · exact hold (.inl ⟨_, hi, .inr (.inl ⟨hpast, heq ▸ hresult⟩)⟩)
          · refine .inr (.inl ⟨h, { hd with pc := pc }, ?_, .inr ⟨hpc', ?_⟩⟩)
            · rw [hy.handlers, Function.update_self]
            · rw [hy.workers]
              exact hi
        · rw [hmoves.tail] at hring
          rcases hmoves.head with heq | ⟨hwritten, evflag, hpc, hpc'⟩
          · exact hold (.inl ⟨_, hi, .inr (.inr ⟨hpast, heq ▸ hring⟩)⟩)
          · obtain rfl := hmine evflag hi (by rw [hpc, storesFor, if_pos hwritten])
            exact hsetting c hpc'
      · rw [hsame i his] at hlooked
        exact hold (.inl ⟨i, hi, hlooked⟩)
    · rw [hy.workers, hy.conns] at hconn
      exact hold (.inr (.inl hconn))
    · rw [hy.workers, hy.conns] at hconn
      exact hold (.inr (.inr hconn))
  · intro c hrx hlen
    rw [hy.conns] at hrx hlen ⊢
    rcases hx.readers c hrx hlen with hset | hreleased
    · exact .inl (hy.flags c _ hset)
    · exact .inr hreleased

end Callbacks

/-! ## Steps of receive threads -/

variable [DecidableEq C]

theorem Wakeful.socket (hx : Wakeful x) {c : C} (h : SocketMoves x c y) : Wakeful y := by
  constructor
  · rw [h.workers]
    exact hx.single
  · rw [h.workers]
    exact hx.free
  · rw [h.workers, h.slots]
    exact hx.flag
  · rw [h.workers]
    exact hx.own
  · intro d r huser
    rw [h.workers]
    by_cases hd : d = c
    · subst hd
      exact hx.calls d r (h.user ▸ huser)
    · exact hx.calls d r (h.conns d hd ▸ huser)
  · rw [h.slots]
    exact hx.tails
  · intro d hunseen
    by_cases hd : d = c
    · subst hd
      rcases h.wakes with hrx | hrx | hset | ⟨hlen, hclosed, hflag, hnot, hlast⟩
      · exact .inr (.inr (.inl hrx))
      · exact .inr (.inr (.inr hrx))
      · exact .inl hset
      · rw [Unseen, h.workers, h.slots, h.user, hlen, hclosed] at hunseen
        rcases hx.due d hunseen with hset | hstoring | hrx | hrx
        · exact .inl (hflag hset)
        · exact .inr (.inl (by rw [h.handlers, h.workers]; exact hstoring))
        · exact absurd hrx hnot
        · exact absurd hrx hlast
    · rw [Unseen, h.workers, h.slots, h.conns d hd] at hunseen
      have hdue := hx.due d hunseen
      rw [Due, h.flags d hd, h.handlers, h.workers, h.conns d hd]
      exact hdue
  · intro d hrx hlen
    by_cases hd : d = c
    · subst hd
      exact absurd hlen (h.reader hrx)
    · rw [h.conns d hd] at hrx hlen ⊢
      rw [h.flags d hd]
      exact hx.readers d hrx hlen

/-! ## Steps of workers -/

/-- What a worker owes to itself. -/
structure OwnAwake (c : C) (y : Threads H C) : Prop where
  free : ∀ pid kind i, (y.workers c).pc = .attaching pid kind i → (y.workers c).session = none
  flag : ∀ i, (y.workers c).session = some i → (y.workers c).pc.published = true →
    (y.slots i).evflag = some c
  own : ∀ d next, (y.workers c).pc = .resetting (.clearFlag d) next → d = c
  calls : ∀ r, (y.conns c).user = .reading r → ∃ turn, (y.workers c).pc = .bytes turn
  tails : ∀ i, TailLoaded (y.slots i).exceptions
  due : Unseen y c → Due y c
  reader : ReaderDue y c

omit [DecidableEq C] in
/-- A worker that is on its way somewhere, and not in its loop, owes itself nothing. -/
theorem OwnAwake.away (hx : Wakeful x) {c : C}
    (hbefore : ∀ turn, (x.workers c).pc ≠ .bytes turn) (haway : (y.workers c).pc.pastExit = false)
    (hconn : y.conns c = x.conns c)
    (hflag : hasBit (x.flags c) evWakeReader = true → hasBit (y.flags c) evWakeReader = true)
    (hfree : ∀ pid kind i, (y.workers c).pc = .attaching pid kind i → (y.workers c).session = none)
    (hpub : ∀ i, (y.workers c).session = some i → (y.workers c).pc.published = true →
      (y.slots i).evflag = some c)
    (hown : ∀ d next, (y.workers c).pc = .resetting (.clearFlag d) next → d = c)
    (htails : ∀ i, TailLoaded (y.slots i).exceptions) : OwnAwake c y := by
  refine ⟨hfree, hpub, hown, fun r huser => ?_, htails, fun hunseen => ?_,
    fun hrx hlen => ?_⟩
  · rw [hconn] at huser
    obtain ⟨turn, hpc⟩ := hx.calls c r huser
    exact absurd hpc (hbefore turn)
  · exfalso
    revert haway
    rcases hunseen with ⟨i, -, ⟨hpc, -⟩ | ⟨hpc, -⟩ | ⟨hpc, -⟩⟩ | ⟨turn, hpc, -⟩ | ⟨turn, hpc, -⟩
    · rw [hpc]; simp
    · revert hpc
      cases (y.workers c).pc <;> simp [WorkerPc.pastStep, WorkerPc.pastExit]
    · revert hpc
      cases (y.workers c).pc <;> simp [WorkerPc.pastEvents, WorkerPc.pastExit]
    · rw [hpc]; simp [WorkerPc.pastExit]
    · rw [hpc]; simp [WorkerPc.pastExit]
  · rw [hconn] at hrx hlen ⊢
    rcases hx.readers c hrx hlen with hset | hreleased
    · exact .inl (hflag hset)
    · exact .inr hreleased

/-- The slots of the others are as they were. -/
theorem Wakeful.others (hx : Wakeful x) {c : C} (hhandlers : y.handlers = x.handlers)
    (hworkers : ∀ d, d ≠ c → y.workers d = x.workers d)
    (hconns : ∀ d, d ≠ c → y.conns d = x.conns d)
    (hflags : ∀ d, d ≠ c → y.flags d = x.flags d)
    (hslots : ∀ d i, d ≠ c → (x.workers d).session = some i → y.slots i = x.slots i)
    (hsingle : ∀ d i, d ≠ c → (x.workers d).session = some i → (y.workers c).session ≠ some i)
    (hown : OwnAwake c y) : Wakeful y := by
  constructor
  · intro d d' i hd hd'
    by_cases hc : d = c
    · by_cases hc' : d' = c
      · rw [hc, hc']
      · rw [hworkers d' hc'] at hd'
        exact absurd (hc ▸ hd) (hsingle d' i hc' hd')
    · rw [hworkers d hc] at hd
      by_cases hc' : d' = c
      · exact absurd (hc' ▸ hd') (hsingle d i hc hd)
      · rw [hworkers d' hc'] at hd'
        exact hx.single d d' i hd hd'
  · intro d pid kind i hpc
    by_cases hc : d = c
    · subst hc
      exact hown.free pid kind i hpc
    · rw [hworkers d hc] at hpc ⊢
      exact hx.free d pid kind i hpc
  · intro d i hi hpub
    by_cases hc : d = c
    · subst hc
      exact hown.flag i hi hpub
    · rw [hworkers d hc] at hi hpub
      rw [hslots d i hc hi]
      exact hx.flag d i hi hpub
  · intro d e next hpc
    by_cases hc : d = c
    · subst hc
      exact hown.own e next hpc
    · rw [hworkers d hc] at hpc
      exact hx.own d e next hpc
  · intro d r huser
    by_cases hc : d = c
    · subst hc
      exact hown.calls r huser
    · rw [hconns d hc] at huser
      rw [hworkers d hc]
      exact hx.calls d r huser
  · exact hown.tails
  · intro d hunseen
    by_cases hc : d = c
    · subst hc
      exact hown.due hunseen
    · have hold : Unseen x d := by
        rw [Unseen, hworkers d hc, hconns d hc] at hunseen
        rcases hunseen with ⟨i, hi, hlooked⟩ | hconn
        · exact .inl ⟨i, hi, by rwa [hslots d i hc hi] at hlooked⟩
        · exact .inr hconn
      have hdue := hx.due d hold
      rw [Due, hflags d hc, hhandlers, hworkers d hc, hconns d hc]
      exact hdue
  · intro d
    by_cases hc : d = c
    · subst hc
      exact hown.reader
    · rw [ReaderDue, hconns d hc, hflags d hc]
      exact hx.readers d

/-- A worker that keeps to its slot disturbs nobody. -/
theorem Wakeful.moves (hx : Wakeful x) {c : C} (h : WorkerMoves x c y)
    (hsession : (y.workers c).session = (x.workers c).session ∨ (y.workers c).session = none)
    (hown : OwnAwake c y) : Wakeful y := by
  have hother : ∀ d i, d ≠ c → (x.workers d).session = some i → (x.workers c).session ≠ some i :=
    fun d i hd hi hc => hd (hx.single d c i hi hc)
  refine hx.others h.handlers h.workers h.conns h.flags (fun d i hd hi => h.slots i (hother d i hd hi))
    (fun d i hd hi => ?_) hown
  rcases hsession with heq | hnone
  · rw [heq]
    exact hother d i hd hi
  · rw [hnone]
    simp

/-- A worker goes somewhere else, and has changed its slot at most. -/
theorem Wakeful.slotAway (hx : Wakeful x) {c : C} {i : Fin 4} {s : ThreadSlot H C} {pc : WorkerPc C}
    (hi : (x.workers c).session = some i) (hbefore : ∀ turn, (x.workers c).pc ≠ .bytes turn)
    (haway : pc.pastExit = false) (hattach : ∀ pid kind slot, pc ≠ .attaching pid kind slot)
    (hflag : pc.published = true → s.evflag = some c)
    (hown : ∀ d next, pc = .resetting (.clearFlag d) next → d = c)
    (htail : TailLoaded s.exceptions) : Wakeful ((x.setSlot i s).moveTo c pc) := by
  have hworker : ((x.setSlot i s).moveTo c pc).workers c = { x.workers c with pc := pc } :=
    Function.update_self _ _ _
  refine hx.moves (((WorkerMoves.refl x c).setSlot hi s).moveTo pc) (.inl (by rw [hworker]))
    (.away hx hbefore ?_ rfl id ?_ ?_ ?_ ?_)
  · rw [hworker]
    exact haway
  · intro pid kind slot hpc
    rw [hworker] at hpc
    exact absurd hpc (hattach pid kind slot)
  · intro j hj hpub
    rw [hworker] at hj hpub
    obtain rfl : i = j := Option.some.inj (hi.symm.trans hj)
    show (Function.update x.slots i s i).evflag = some c
    rw [Function.update_self]
    exact hflag hpub
  · intro d next hpc
    rw [hworker] at hpc
    exact hown d next hpc
  · exact tails_update hx.tails htail

/-- A worker goes somewhere else. -/
theorem Wakeful.goAway (hx : Wakeful x) {c : C} {pc : WorkerPc C}
    (hbefore : ∀ turn, (x.workers c).pc ≠ .bytes turn) (haway : pc.pastExit = false)
    (hattach : ∀ pid kind slot, pc = .attaching pid kind slot → (x.workers c).session = none)
    (hpub : ∀ i, (x.workers c).session = some i → pc.published = true →
      (x.workers c).pc.published = true)
    (hown : ∀ d next, pc = .resetting (.clearFlag d) next → d = c) : Wakeful (x.moveTo c pc) := by
  have hworker : (x.moveTo c pc).workers c = { x.workers c with pc := pc } :=
    Function.update_self _ _ _
  refine hx.moves ((WorkerMoves.refl x c).moveTo pc) (.inl (by rw [hworker]))
    (.away hx hbefore ?_ rfl id ?_ ?_ ?_ hx.tails)
  · rw [hworker]
    exact haway
  · intro pid kind slot hpc
    rw [hworker] at hpc ⊢
    exact hattach pid kind slot hpc
  · intro i hi hp
    rw [hworker] at hi hp
    exact hx.flag c i hi (hpub i hi hp)
  · intro d next hpc
    rw [hworker] at hpc
    exact hown d next hpc

/-- A worker goes on in its loop, and what it has looked at it has seen. -/
theorem Wakeful.goOn (hx : Wakeful x) {c : C} {pc : WorkerPc C}
    (hbefore : ∀ turn, (x.workers c).pc ≠ .bytes turn)
    (hpub : (x.workers c).pc.published = true) (hpast : pc.pastExit = true)
    (hwait : ∀ turn, pc ≠ .waiting turn)
    (hlooked : ∀ i, (x.workers c).session = some i →
      pc.pastExit = true ∧ (x.slots i).exited = true ∨
        pc.pastStep = true ∧ (x.slots i).stepResult ≠ none ∨
        pc.pastEvents = true ∧
          (x.slots i).exceptions.cells.tail ≠ (x.slots i).exceptions.cells.head → Unseen x c) :
    Wakeful (x.moveTo c pc) := by
  have hworker : (x.moveTo c pc).workers c = { x.workers c with pc := pc } :=
    Function.update_self _ _ _
  have hreading : ∀ r, (x.conns c).user ≠ .reading r := by
    intro r huser
    obtain ⟨turn, hpc⟩ := hx.calls c r huser
    exact hbefore turn hpc
  refine hx.moves ((WorkerMoves.refl x c).moveTo pc) (.inl (by rw [hworker]))
    ⟨?_, ?_, ?_, ?_, hx.tails, ?_, hx.readers c⟩
  · intro pid kind slot hpc
    rw [hworker] at hpc
    obtain rfl : pc = _ := hpc
    exact absurd hpast (by simp [WorkerPc.pastExit])
  · intro i hi _
    rw [hworker] at hi
    exact hx.flag c i hi hpub
  · intro d next hpc
    rw [hworker] at hpc
    obtain rfl : pc = _ := hpc
    exact absurd hpast (by simp [WorkerPc.pastExit])
  · intro r huser
    exact absurd huser (hreading r)
  · intro hunseen
    have hold : Unseen x c := by
      rw [Unseen, hworker] at hunseen
      rcases hunseen with ⟨i, hi, hl⟩ | ⟨turn, -, huser, -⟩ | ⟨turn, hpc, -⟩
      · exact hlooked i hi hl
      · exact absurd huser (hreading _)
      · exact absurd hpc (hwait turn)
    have hdue := hx.due c hold
    rw [Due, hworker]
    exact hdue

/-- A step of `read`, in the loop. -/
theorem Wakeful.readOn (hx : Wakeful x) {c : C} {turn : Turn} {r : ConnRun} {bits : U32}
    {pc : WorkerPc C} (hpc : (x.workers c).pc = .bytes turn) (hrx : r.rx = (x.conns c).rx)
    (hbits : ∀ b, hasBit (x.flags c) b = true → hasBit bits b = true)
    (hnext : pc = .bytes turn ∨ pc = .waiting turn ∨ pc = .outside)
    (hcalls : ∀ reading, r.user = .reading reading → pc = .bytes turn)
    (hopened : r.user = .reading .opened → r.conn.state.closed = false)
    (hwait : pc = .waiting turn → r.conn.state.len = 0 ∧ (r.conn.state.closed = true → Unseen x c))
    (hreader : r.rx = .waiting → r.conn.state.len = 0 →
      hasBit bits evWakeReader = true ∨ ∃ byte, r.user = .reading (.released byte)) :
    Wakeful (({ x with flags := Function.update x.flags c bits }.setConn c r).moveTo c pc) := by
  generalize hy : ({ x with flags := Function.update x.flags c bits }.setConn c r).moveTo c pc = y
  have hworker : y.workers c = { x.workers c with pc := pc } := by
    rw [← hy]
    exact Function.update_self _ _ _
  have hconn : y.conns c = r := by
    rw [← hy]
    exact Function.update_self _ _ _
  have hflag : y.flags c = bits := by
    rw [← hy]
    exact Function.update_self _ _ _
  have hslots : y.slots = x.slots := by rw [← hy]; rfl
  have hhandlers : y.handlers = x.handlers := by rw [← hy]; rfl
  have hmoves : WorkerMoves x c y := by
    rw [← hy]
    refine WorkerMoves.moveTo (WorkerMoves.setConn ?_ r) pc
    exact ⟨rfl, fun _ _ => rfl, fun _ _ => rfl, fun d hd => Function.update_of_ne hd _ _,
      fun _ _ => rfl⟩
  have hpub : (x.workers c).pc.published = true := by
    rw [hpc]
    rfl
  refine hx.moves hmoves (.inl (by rw [hworker])) ⟨?_, ?_, ?_, ?_, ?_, ?_, ?_⟩
  · intro pid kind slot hpc'
    rw [hworker] at hpc'
    rcases hnext with rfl | rfl | rfl <;> simp at hpc'
  · intro i hi _
    rw [hworker] at hi
    rw [hslots]
    exact hx.flag c i hi hpub
  · intro d next hpc'
    rw [hworker] at hpc'
    rcases hnext with rfl | rfl | rfl <;> simp at hpc'
  · intro reading huser
    rw [hconn] at huser
    exact ⟨turn, by rw [hworker]; exact hcalls reading huser⟩
  · rw [hslots]
    exact hx.tails
  · intro hunseen
    have hold : Unseen x c := by
      rw [Unseen, hworker, hconn, hslots] at hunseen
      rcases hunseen with ⟨i, hi, hl⟩ | ⟨turn', -, huser, hclosed⟩ | ⟨turn', hwaiting, hl⟩
      · refine .inl ⟨i, hi, ?_⟩
        rw [hpc]
        -- having read nothing, it has looked at the same things
        rcases hnext with rfl | rfl | rfl
        · exact hl
        · cases turn
          · exact hl
          · exact hl
        · exact absurd hl (by
            simp [WorkerPc.pastExit, WorkerPc.pastStep, WorkerPc.pastEvents])
      · exact absurd hclosed (by rw [hopened huser]; simp)
      · have hpc' : pc = .waiting turn := by
          rcases hnext with rfl | rfl | rfl
          · exact absurd hwaiting (by simp)
          · rfl
          · exact absurd hwaiting (by simp)
        obtain ⟨hlen, hclosed⟩ := hwait hpc'
        rcases hl with hc | hne
        · exact hclosed hc
        · exact absurd hlen hne
    rw [Due, hflag, hhandlers, hworker, hconn, hrx]
    rcases hx.due c hold with hset | hdue
    · exact .inl (hbits _ hset)
    · exact .inr hdue
  · rw [ReaderDue, hconn, hflag]
    exact hreader

/-- The same, where the event flag stays, and `len` or what follows its store. -/
theorem Wakeful.readQuiet (hx : Wakeful x) {c : C} {turn : Turn} (r : ConnRun) (pc : WorkerPc C)
    (hpc : (x.workers c).pc = .bytes turn) (hrx : r.rx = (x.conns c).rx)
    (hnext : pc = .bytes turn ∨ pc = .waiting turn ∨ pc = .outside)
    (hcalls : ∀ reading, r.user = .reading reading → pc = .bytes turn)
    (hopened : r.user = .reading .opened → r.conn.state.closed = false)
    (hwait : pc = .waiting turn → r.conn.state.len = 0 ∧ (r.conn.state.closed = true → Unseen x c))
    (hreleased : ∀ byte, (x.conns c).user ≠ .reading (.released byte))
    (hlen : r.conn.state.len = (x.conns c).conn.state.len ∨
      ∃ byte, r.user = .reading (.released byte)) :
    Wakeful ((x.setConn c r).moveTo c pc) := by
  have hkeep : ∀ b, hasBit (x.flags c) b = true → hasBit (x.flags c) b = true := fun _ => id
  have h := hx.readOn hpc hrx hkeep hnext hcalls hopened hwait ?_
  · rwa [Function.update_eq_self] at h
  · intro hwaiting hzero
    rcases hlen with hlen | hreleased'
    · rw [hrx] at hwaiting
      rw [hlen] at hzero
      rcases hx.readers c hwaiting hzero with hset | ⟨byte, huser⟩
      · exact .inl hset
      · exact absurd huser (hreleased byte)
    · exact .inr hreleased'

/-- Detaching from outside of the loop. -/
theorem Wakeful.detachThen (hx : Wakeful x) {c : C} (next : Option (SceUID × AttachKind))
    (hbefore : ∀ turn, (x.workers c).pc ≠ .bytes turn)
    (hpub : ∀ i, (x.workers c).session = some i → (x.workers c).pc.published = true) :
    Wakeful (x.detachThen c next) := by
  unfold Threads.detachThen
  split
  · exact hx.goAway hbefore rfl (by simp) (fun i hi _ => hpub i hi) (by simp)
  · rename_i hnone
    exact hx.goAway hbefore rfl (fun _ _ _ _ => hnone) (fun i hi _ => hpub i hi) (by simp)
  · exact hx.goAway hbefore rfl (by simp) (fun i hi _ => hpub i hi) (by simp)

/-- A worker claims a slot that no other has. -/
theorem Wakeful.claims (hx : Wakeful x) {c : C} {i : Fin 4} (h : Claims x c i y)
    (hmeet : ∀ d, (x.workers d).session = some i → d = c) : Wakeful y := by
  obtain ⟨pid, kind, hpc, -, hy⟩ := h
  have hworker : y.workers c = { x.workers c with session := some i, pc := .claimed pid kind } := by
    rw [hy]
    exact Function.update_self _ _ _
  have hslots : ∀ j, j ≠ i → y.slots j = x.slots j := by
    intro j hj
    rw [hy]
    exact Function.update_of_ne hj _ _
  have hother : ∀ d j, d ≠ c → (x.workers d).session = some j → j ≠ i := by
    rintro d j hd hj rfl
    exact hd (hmeet d hj)
  refine hx.others (c := c) (by rw [hy]; rfl)
    (fun d hd => by rw [hy]; exact Function.update_of_ne hd _ _) (fun _ _ => by rw [hy]; rfl)
    (fun _ _ => by rw [hy]; rfl) (fun d j hd hj => hslots j (hother d j hd hj))
    (fun d j hd hj => ?_) ?_
  · rw [hworker]
    exact fun he => hother d j hd hj (Option.some.inj he).symm
  · refine .away hx (by simp [hpc]) (by rw [hworker]; rfl) (by rw [hy]; rfl)
      (fun hset => by rw [hy]; exact hset) (by rw [hworker]; simp)
      (by rw [hworker]; simp [WorkerPc.published])
      (by rw [hworker]; simp) (fun j => ?_)
    by_cases hj : j = i
    · subst hj
      rw [hy]
      show TailLoaded (Function.update x.slots j _ j).exceptions
      rw [Function.update_self]
      exact hx.tails j
    · rw [hslots j hj]
      exact hx.tails j

/-- A wait of the worker that ends, and clears the bits it was for. -/
theorem Wakeful.woken (hx : Wakeful x) {c : C} {pc : WorkerPc C} {bits : U32}
    (hbefore : ∀ turn, (x.workers c).pc ≠ .bytes turn)
    (hpub : (x.workers c).pc.published = true) (haway : pc.pastExit = false)
    (hnext : (∃ turn, pc = .looping turn) ∨ pc = .outside) (hbits : bits &&& evWakeReader = 0#32) :
    Wakeful ((x.clearFlag c bits).moveTo c pc) := by
  have hworker : ((x.clearFlag c bits).moveTo c pc).workers c = { x.workers c with pc := pc } :=
    Function.update_self _ _ _
  refine hx.moves (((WorkerMoves.refl x c).clearFlag bits).moveTo pc) (.inl (by rw [hworker]))
    (.away hx hbefore (by rw [hworker]; exact haway) rfl (fun hset => ?_) (fun pid kind slot hpc => ?_)
      (fun j hj _ => ?_) (fun d next hpc => ?_) hx.tails)
  · show hasBit (Function.update x.flags c (x.flags c &&& ~~~bits) c) evWakeReader = true
    rw [Function.update_self, hasBit_clear_other hbits]
    exact hset
  · rw [hworker] at hpc
    rcases hnext with ⟨turn, rfl⟩ | rfl <;> simp at hpc
  · rw [hworker] at hj
    exact hx.flag c j hj hpub
  · rw [hworker] at hpc
    rcases hnext with ⟨turn, rfl⟩ | rfl <;> simp at hpc

variable [DecidableEq H]

/-- A step of `pop_excp`. -/
theorem Wakeful.popStep (hx : Wakeful x) {c : C} {i : Fin 4} {ring : RingState H ExceptionEvent 8}
    {e : RingEvent H ExceptionEvent} {pc : WorkerPc C} (hi : (x.workers c).session = some i)
    (hpc : (x.workers c).pc = .events) (hring : ringStep (x.slots i).exceptions e = some ring)
    (hnext : pc = .events ∨
      pc = .bytes .eventOrByte ∧ ringLabel (x.slots i).exceptions e = some .empty) :
    Wakeful ((x.setSlot i { x.slots i with exceptions := ring }).moveTo c pc) := by
  have hworker : ((x.setSlot i { x.slots i with exceptions := ring }).moveTo c pc).workers c =
      { x.workers c with pc := pc } := Function.update_self _ _ _
  have hslot : ((x.setSlot i { x.slots i with exceptions := ring }).moveTo c pc).slots i =
      { x.slots i with exceptions := ring } := Function.update_self _ _ _
  have hpub : (x.workers c).pc.published = true := by
    rw [hpc]
    rfl
  have hreading : ∀ r, (x.conns c).user ≠ .reading r := by
    intro r huser
    obtain ⟨turn, hpc'⟩ := hx.calls c r huser
    exact absurd (hpc.symm.trans hpc') (by simp)
  refine hx.moves (((WorkerMoves.refl x c).setSlot hi _).moveTo pc) (.inl (by rw [hworker]))
    ⟨?_, ?_, ?_, ?_, ?_, ?_, hx.readers c⟩
  · intro pid kind slot hpc'
    rw [hworker] at hpc'
    rcases hnext with rfl | ⟨rfl, -⟩ <;> simp at hpc'
  · intro j hj _
    rw [hworker] at hj
    obtain rfl : i = j := Option.some.inj (hi.symm.trans hj)
    rw [hslot]
    exact hx.flag c i hi hpub
  · intro d next hpc'
    rw [hworker] at hpc'
    rcases hnext with rfl | ⟨rfl, -⟩ <;> simp at hpc'
  · intro r huser
    exact absurd huser (hreading r)
  · exact tails_update hx.tails ((hx.tails i).step hring)
  · intro hunseen
    have hold : Unseen x c := by
      rw [Unseen, hworker] at hunseen
      rcases hunseen with ⟨j, hj, hl⟩ | ⟨turn, -, huser, -⟩ | ⟨turn, hwaiting, -⟩
      · obtain rfl : i = j := Option.some.inj (hi.symm.trans hj)
        rw [hslot] at hl
        refine .inl ⟨i, hi, ?_⟩
        rw [hpc]
        rcases hl with ⟨-, hexited⟩ | ⟨-, hresult⟩ | ⟨hpast, hindices⟩
        · exact .inl ⟨rfl, hexited⟩
        · exact .inr (.inl ⟨rfl, hresult⟩)
        · -- past the ring only where it was empty
          rcases hnext with rfl | ⟨rfl, hempty⟩
          · exact absurd hpast (by simp [WorkerPc.pastEvents])
          · exact absurd ((hx.tails i).empty hring hempty) hindices
      · exact absurd huser (hreading _)
      · rcases hnext with rfl | ⟨rfl, -⟩ <;> simp at hwaiting
    have hdue := hx.due c hold
    rw [Due, hworker]
    exact hdue

/-- A step in `read`. -/
theorem Wakeful.bytes (hx : Wakeful x) {c : C} {turn : Turn} (hpc : (x.workers c).pc = .bytes turn)
    (h : workerStep x c = some y) : Wakeful y := by
  simp only [workerStep, hpc] at h
  have hquiet := @Wakeful.readQuiet H C x _ hx c turn
  cases huser : (x.conns c).user with
  | panicked => simp [huser] at h
  | closed => simp [huser] at h
  | idle answer =>
    simp only [huser, connStep, Option.map_some, Option.some.injEq] at h
    subst h
    exact hquiet _ _ hpc rfl (.inl rfl) (fun _ _ => rfl) (by simp) (by simp) (by simp [huser])
      (.inl rfl)
  | reading reading =>
    cases reading with
    | entered =>
      simp only [huser, connStep, Reading.step, Option.map_some, Option.some.injEq] at h
      subst h
      refine hquiet _ _ hpc rfl (.inl rfl) (fun _ _ => rfl) (fun hopened => ?_) (by simp)
        (by simp [huser]) (.inl rfl)
      -- the load of `closed` answers false
      by_cases hclosed : (x.conns c).conn.state.closed = true
      · simp [hclosed] at hopened
      · exact Bool.eq_false_iff.mpr hclosed
    | sawClosed =>
      simp only [huser, connStep, Reading.step] at h
      cases herr : (x.conns c).conn.state.err with
      | some err =>
        simp only [herr, Option.map_some, Option.some.injEq] at h
        subst h
        exact hquiet _ _ hpc rfl (.inr (.inr rfl)) (by simp [ConnUser.answered])
          (by simp [ConnUser.answered]) (by simp [ConnUser.answered]) (by simp [huser]) (.inl rfl)
      | none =>
        simp only [herr, Option.map_some, Option.some.injEq] at h
        subst h
        exact hquiet _ _ hpc rfl (.inr (.inr rfl)) (by simp [ConnUser.answered])
          (by simp [ConnUser.answered]) (by simp [ConnUser.answered]) (by simp [huser]) (.inl rfl)
    | opened =>
      simp only [huser, connStep, Reading.step] at h
      by_cases hlen : (x.conns c).conn.state.len = 0
      · simp only [if_pos hlen, Option.map_some, Option.some.injEq] at h
        subst h
        refine hquiet _ _ hpc rfl (.inr (.inl rfl)) (by simp [ConnUser.answered])
          (by simp [ConnUser.answered]) (fun _ => ⟨hlen, fun hclosed => ?_⟩) (by simp [huser])
          (.inl rfl)
        exact .inr (.inl ⟨turn, hpc, huser, hclosed⟩)
      · simp only [if_neg hlen, Option.map_some, Option.some.injEq] at h
        subst h
        exact hquiet _ _ hpc rfl (.inl rfl) (fun _ _ => rfl) (by simp) (by simp) (by simp [huser])
          (.inl rfl)
    | loaded len =>
      simp only [huser, connStep, Reading.step] at h
      cases hbyte : (x.conns c).conn.state.buf[(x.conns c).conn.readLen]? with
      | none =>
        simp only [hbyte, Option.map_some, Option.some.injEq] at h
        subst h
        exact hquiet _ _ hpc rfl (.inl rfl) (fun _ _ => rfl) (by simp [ConnUser.answered])
          (by simp [ConnUser.answered]) (by simp [huser]) (.inl rfl)
      | some byte =>
        by_cases hlast : (x.conns c).conn.readLen + 1 = len
        · simp only [hbyte, if_pos hlast, Option.map_some, Option.some.injEq] at h
          subst h
          exact hquiet _ _ hpc rfl (.inl rfl) (fun _ _ => rfl) (by simp) (by simp)
            (by simp [huser]) (.inl rfl)
        · simp only [hbyte, if_neg hlast, Option.map_some, Option.some.injEq] at h
          subst h
          exact hquiet _ _ hpc rfl (.inr (.inr rfl)) (by simp [ConnUser.answered])
            (by simp [ConnUser.answered]) (by simp [ConnUser.answered]) (by simp [huser])
            (.inl rfl)
    | emptied byte =>
      simp only [huser, connStep, Reading.step, Option.map_some, Option.some.injEq] at h
      subst h
      exact hquiet _ _ hpc rfl (.inl rfl) (fun _ _ => rfl) (by simp) (by simp) (by simp [huser])
        (.inr ⟨byte, rfl⟩)
    | released byte =>
      simp only [huser, connStep, Reading.step, Option.map_some, Option.some.injEq] at h
      subst h
      exact hx.readOn hpc rfl (fun b hset => hasBit_or hset _) (.inr (.inr rfl))
        (by simp [ConnUser.answered]) (by simp [ConnUser.answered]) (by simp)
        (fun _ _ => .inl (hasBit_or_self (by decide) _))

/-- A step of `reset`. -/
theorem Wakeful.reset (hx : Wakeful x) {c : C} {i : Fin 4} {next : Option (SceUID × AttachKind)}
    {phase : ResetPhase C} (hpc : (x.workers c).pc = .resetting phase next)
    (hi : (x.workers c).session = some i) (h : resetStep x c i next phase = some y) :
    Wakeful y := by
  have hbefore : ∀ turn, (x.workers c).pc ≠ .bytes turn := by simp [hpc]
  cases phase with
  | loadFlag =>
    have hflag : (x.slots i).evflag = some c := hx.flag c i hi (by rw [hpc]; rfl)
    simp only [resetStep, hflag, Option.some.injEq] at h
    subst h
    refine hx.goAway hbefore rfl (by simp) (fun _ _ _ => by rw [hpc]; rfl) (fun d next' hclear => ?_)
    simp only [WorkerPc.resetting.injEq, ResetPhase.clearFlag.injEq] at hclear
    exact hclear.1.symm
  | clearFlag d =>
    obtain rfl := hx.own c d next hpc
    obtain rfl := Option.some.inj h
    have hworker : ((x.clearFlag d evWakeWorker).moveTo d (.resetting .storeFlag next)).workers d =
        { x.workers d with pc := .resetting .storeFlag next } := Function.update_self _ _ _
    refine hx.moves (((WorkerMoves.refl x d).clearFlag _).moveTo _) (.inl (by rw [hworker]))
      (.away hx hbefore (by rw [hworker]; rfl) rfl (fun hset => ?_) (by rw [hworker]; simp)
        (fun j hj _ => ?_) (by rw [hworker]; simp) hx.tails)
    · show hasBit (Function.update x.flags d (x.flags d &&& ~~~evWakeWorker) d) evWakeReader = true
      rw [Function.update_self, hasBit_clear_other (by decide)]
      exact hset
    · rw [hworker] at hj
      exact hx.flag d j hj (by rw [hpc]; rfl)
  | storeFlag =>
    obtain rfl := Option.some.inj h
    exact hx.slotAway hi hbefore rfl (by simp) (by simp [WorkerPc.published]) (by simp) (hx.tails i)
  | clearStep =>
    obtain rfl := Option.some.inj h
    exact hx.slotAway hi hbefore rfl (by simp) (by simp [WorkerPc.published]) (by simp) (hx.tails i)
  | clearExited =>
    obtain rfl := Option.some.inj h
    exact hx.slotAway hi hbefore rfl (by simp) (by simp [WorkerPc.published]) (by simp) (hx.tails i)
  | clearExceptions =>
    simp only [resetStep, Option.map_eq_some_iff] at h
    obtain ⟨ring, hring, rfl⟩ := h
    have htail := (hx.tails i).step hring
    split
    · exact hx.slotAway hi hbefore rfl (by simp) (by simp [WorkerPc.published]) (by simp) htail
    · exact hx.slotAway hi hbefore rfl (by simp) (by simp [WorkerPc.published]) (by simp) htail
  | storePid =>
    obtain rfl := Option.some.inj h
    generalize hw : ({ session := none, detached := true, pc := _ } : WorkerThread C) = w
    have hnone : w.session = none := by rw [← hw]
    have haway : w.pc.pastExit = false ∧ (∀ d next, w.pc ≠ .resetting (.clearFlag d) next) := by
      rw [← hw]
      cases next with
      | none => exact ⟨rfl, by simp⟩
      | some next => exact ⟨rfl, by simp⟩
    have hworker : ((x.setSlot i { x.slots i with pid := pidUnused }).setWorker c w).workers c = w :=
      Function.update_self _ _ _
    refine hx.moves (((WorkerMoves.refl x c).setSlot hi _).setWorker w)
      (.inr (by rw [hworker]; exact hnone))
      (.away hx hbefore (by rw [hworker]; exact haway.1) rfl id
        (fun _ _ _ _ => by rw [hworker]; exact hnone) (fun j hj _ => ?_) (fun d next hd => ?_)
        (fun j => ?_))
    · rw [hworker, hnone] at hj
      exact absurd hj (by simp)
    · rw [hworker] at hd
      exact absurd hd (haway.2 d next)
    · refine tails_update hx.tails ?_ j
      exact hx.tails i

omit [DecidableEq H] in
/-- The store of the event flag in a slot that has been claimed. -/
theorem Wakeful.publish (hx : Wakeful x) {c : C} {i : Fin 4} {pid : SceUID} {kind : AttachKind}
    (hpc : (x.workers c).pc = .claimed pid kind) (hi : (x.workers c).session = some i) :
    Wakeful ((x.setSlot i { x.slots i with evflag := some c }).setWorker c
      { session := some i, detached := false, pc := .afterClaim pid kind }) := by
  generalize hw : ({ session := some i, detached := false, pc := _ } : WorkerThread C) = w
  have hsession : w.session = some i := by rw [← hw]
  have haway : w.pc.pastExit = false ∧ (∀ pid kind slot, w.pc ≠ .attaching pid kind slot) ∧
      ∀ d next, w.pc ≠ .resetting (.clearFlag d) next := by
    rw [← hw]
    cases kind with
    | attach => exact ⟨rfl, by simp [WorkerPc.afterClaim], by simp [WorkerPc.afterClaim]⟩
    | run => exact ⟨rfl, by simp [WorkerPc.afterClaim], by simp [WorkerPc.afterClaim]⟩
  have hworker : ((x.setSlot i { x.slots i with evflag := some c }).setWorker c w).workers c = w :=
    Function.update_self _ _ _
  refine hx.moves (((WorkerMoves.refl x c).setSlot hi _).setWorker w)
    (.inl (by rw [hworker, hsession, hi]))
    (.away hx (by simp [hpc]) (by rw [hworker]; exact haway.1) rfl id (fun pid kind slot hpc' => ?_)
      (fun j hj _ => ?_) (fun d next hd => ?_) (fun j => ?_))
  · rw [hworker] at hpc'
    exact absurd hpc' (haway.2.1 pid kind slot)
  · rw [hworker, hsession] at hj
    obtain rfl : i = j := Option.some.inj hj
    show (Function.update x.slots i _ i).evflag = some c
    rw [Function.update_self]
  · rw [hworker] at hd
    exact absurd hd (haway.2.2 d next)
  · refine tails_update hx.tails ?_ j
    exact hx.tails i

omit [DecidableEq H] in
/-- A target that has detached while the worker was elsewhere. -/
theorem Wakeful.hasDetached (hx : Wakeful x) {c : C} {turn : Turn}
    (hpc : (x.workers c).pc = .looping turn) :
    Wakeful (x.setWorker c { x.workers c with detached := false, pc := .outside }) := by
  generalize hw : ({ x.workers c with detached := false, pc := .outside } : WorkerThread C) = w
  have hworker : (x.setWorker c w).workers c = w := Function.update_self _ _ _
  have hout : w.pc = .outside ∧ w.session = (x.workers c).session := by
    rw [← hw]
    exact ⟨rfl, rfl⟩
  refine hx.moves ((WorkerMoves.refl x c).setWorker w) (.inl (by rw [hworker, hout.2]))
    (.away hx (by simp [hpc]) (by rw [hworker, hout.1]; rfl) rfl id (by rw [hworker, hout.1]; simp)
      (fun j hj _ => ?_) (by rw [hworker, hout.1]; simp) hx.tails)
  rw [hworker, hout.2] at hj
  exact hx.flag c j hj (by rw [hpc]; rfl)

omit [DecidableEq H] in
/-- A session that has not ended: the worker goes on to look at what there is. -/
theorem Wakeful.notExited (hx : Wakeful x) {c : C} {turn : Turn} {i : Fin 4} {pc : WorkerPc C}
    (hpc : (x.workers c).pc = .looping turn) (hi : (x.workers c).session = some i)
    (hexited : (x.slots i).exited = false) (hnext : pc = .steps ∨ pc = .bytes .byte) :
    Wakeful (x.moveTo c pc) := by
  rcases hnext with rfl | rfl
  all_goals
    refine hx.goOn (by simp [hpc]) (by rw [hpc]; rfl) rfl (by simp) (fun j hj hl => ?_)
    obtain rfl : i = j := Option.some.inj (hi.symm.trans hj)
    rcases hl with ⟨-, hset⟩ | ⟨hpast, -⟩ | ⟨hpast, -⟩
    · exact absurd (hexited.symm.trans hset) (by simp)
    · exact absurd hpast (by simp [WorkerPc.pastStep])
    · exact absurd hpast (by simp [WorkerPc.pastEvents])

/-- **A worker's own step** keeps every thread awake, if the slot it claims is no other's. -/
theorem Wakeful.worker (hx : Wakeful x) {c : C} (h : workerStep x c = some y)
    (hmeet : FlagsMeet x (.worker c .step : ThreadEvent H C)) : Wakeful y := by
  have hpublished : (x.workers c).pc.published = true → ∀ i, (x.workers c).session = some i →
      (x.slots i).evflag = some c := fun hpub i hi => hx.flag c i hi hpub
  cases workerStep_goes h with
  | launched pid hpc => exact hx.detachThen _ (by simp [hpc]) (fun _ _ => by rw [hpc]; rfl)
  | claims pid kind slot hpc hfree =>
    rw [FlagsMeet, hpc] at hmeet
    exact hx.claims ⟨pid, kind, hpc, hfree, rfl⟩ (hmeet hfree)
  | tries pid kind slot slot' hpc =>
    exact hx.goAway (by simp [hpc]) rfl (fun _ _ _ _ => hx.free c pid kind slot hpc)
      (fun _ _ _ => by rw [hpc]; rfl) (by simp)
  | givesUp pid kind slot hpc =>
    exact hx.goAway (by simp [hpc]) rfl (by simp) (fun _ _ _ => by rw [hpc]; rfl) (by simp)
  | publishes pid kind i hpc hi => exact hx.publish hpc hi
  | started pid hpc =>
    exact hx.woken (by simp [hpc]) (by rw [hpc]; rfl) rfl (.inr rfl) (by decide)
  | hasDetached hpc => exact hx.hasDetached hpc
  | noSession turn hpc hdetached hi =>
    exact hx.goOn (by simp [hpc]) (by rw [hpc]; rfl) rfl (by simp)
      (fun i hi' => absurd (hi.symm.trans hi') (by simp))
  | exited turn i hpc hdetached hi =>
    exact hx.slotAway hi (by simp [hpc]) rfl (by simp) (fun _ => hpublished (by rw [hpc]; rfl) i hi)
      (by simp) (hx.tails i)
  | looksForStep i hpc hdetached hi hexited => exact hx.notExited hpc hi hexited (.inl rfl)
  | looksForByte i hpc hi hexited => exact hx.notExited hpc hi hexited (.inr rfl)
  | takesStep i stepTid hpc hi =>
    exact hx.slotAway hi (by simp [hpc]) rfl (by simp) (fun _ => hpublished (by rw [hpc]; rfl) i hi)
      (by simp) (hx.tails i)
  | noStep i hpc hi hresult =>
    refine hx.goOn (by simp [hpc]) (by rw [hpc]; rfl) rfl (by simp) (fun j hj hl => ?_)
    obtain rfl : i = j := Option.some.inj (hi.symm.trans hj)
    rcases hl with ⟨-, hset⟩ | ⟨-, hne⟩ | ⟨hpast, -⟩
    · exact .inl ⟨i, hi, .inl ⟨by rw [hpc]; rfl, hset⟩⟩
    · exact absurd hresult hne
    · exact absurd hpast (by simp [WorkerPc.pastEvents])
  | pops i ring hpc hi hring =>
    unfold WorkerPc.afterPop
    split
    · rename_i hempty
      exact hx.popStep hi hpc hring (.inr ⟨rfl, hempty⟩)
    · exact hx.slotAway hi (by simp [hpc]) rfl (by simp)
        (fun _ => hpublished (by rw [hpc]; rfl) i hi) (by simp) ((hx.tails i).step hring)
    · exact hx.popStep hi hpc hring (.inl rfl)
  | calls turn answer r hpc => exact hx.bytes hpc h
  | wakesReader turn byte r hpc => exact hx.bytes hpc h
  | reads turn reading r hpc => exact hx.bytes hpc h
  | woken turn hpc =>
    exact hx.woken (by simp [hpc]) (by rw [hpc]; rfl) rfl (.inl ⟨turn, rfl⟩) (by decide)
  | resets phase next i _ hpc hi hreset => exact hx.reset hpc hi hreset

/-- **Any event of a worker.** -/
theorem Wakeful.workerEvent (hx : Wakeful x) {c : C} {e : WorkerEvent}
    (h : workerEvent x c e = some y) (hmeet : FlagsMeet x (.worker c e : ThreadEvent H C)) :
    Wakeful y := by
  unfold VitaGdb.workerEvent at h
  split at h
  · exact hx.worker h hmeet
  · rename_i turn hpc
    obtain rfl := Option.some.inj h
    exact hx.goAway (by simp [hpc]) rfl (by simp) (fun _ _ _ => by rw [hpc]; rfl) (by simp)
  · rename_i hpc
    obtain rfl := Option.some.inj h
    exact hx.detachThen _ (by simp [hpc]) (fun _ _ => by rw [hpc]; rfl)
  · rename_i pid hpc
    split at h
    · exact absurd h (by simp)
    · obtain rfl := Option.some.inj h
      exact hx.detachThen _ (by simp [hpc]) (fun _ _ => by rw [hpc]; rfl)
  · rename_i pid hpc
    obtain rfl := Option.some.inj h
    exact hx.goAway (by simp [hpc]) rfl (by simp) (fun _ _ _ => by rw [hpc]; rfl) (by simp)
  · rename_i pid hpc
    obtain rfl := Option.some.inj h
    exact hx.goAway (by simp [hpc]) rfl (by simp) (fun _ _ _ => by rw [hpc]; rfl) (by simp)
  · rename_i tid addr hpc
    split at h
    · rename_i i hi
      obtain rfl := Option.some.inj h
      exact hx.slotAway hi (by simp [hpc]) rfl (by simp)
        (fun _ => hx.flag c i hi (by rw [hpc]; rfl)) (by simp) (hx.tails i)
    · exact absurd h (by simp)
  · rename_i pid hpc
    split at h
    · exact absurd h (by simp)
    · obtain rfl := Option.some.inj h
      exact hx.detachThen _ (by simp [hpc]) (fun _ _ => by rw [hpc]; rfl)
  · exact absurd h (by simp)

/-! ## Runs -/

/-- **One step** that meets the condition keeps every thread awake. -/
theorem wakeful_step {e : ThreadEvent H C} (hx : Wakeful x) (hmeet : FlagsMeet x e)
    (h : threadStep x e = some y) : Wakeful y := by
  cases e with
  | enter k pid tid entry =>
    obtain ⟨hnone, -, rfl⟩ := threadStep_enter h
    exact hx.setHandler (fun hd hk => absurd (hnone.symm.trans hk) (by simp))
  | handler k =>
    obtain ⟨hd, hk, hstep⟩ := Option.bind_eq_some_iff.mp h
    rcases handlerStep_cases hstep with ⟨entry, hd', hpc, rfl, -⟩ | ⟨s, pc, set, hpc, rfl⟩
    · refine hx.setHandler (fun hd'' hk' => ?_)
      obtain rfl : hd = hd'' := Option.some.inj (hk.symm.trans hk')
      rw [hpc]
      rfl
    · exact hx.callback hk (hmeet hd hk) hpc (called hpc)
  | socket c e => exact hx.socket (socketStep_moves h)
  | worker c e => exact hx.workerEvent h hmeet

/-- A run that meets the condition. -/
theorem exec_wakeful (states : C → ConnState) (es : List (ThreadEvent H C))
    (hmeet : LTS.Along threadStep FlagsMeet (Threads.start states) es)
    (h : LTS.exec threadStep (Threads.start states) es = some x) : Wakeful x :=
  LTS.exec_invariant (fun _ _ _ hx hmeet hstep => wakeful_step hx hmeet hstep) es
    (wakeful_start states) hmeet h

/-- **With a single connection** no wake-up is lost, whatever the callbacks, the socket and the
    worker do: there is one event flag to load. -/
theorem wakeups_kept_alone [Subsingleton C] (states : C → ConnState) (es : List (ThreadEvent H C))
    (h : LTS.exec threadStep (Threads.start states) es = some x) : NoLostWakeup x := by
  refine (exec_wakeful states es (LTS.Along.of_forall (fun z e => ?_) es) h).noLostWakeup
  cases e with
  | handler k => exact fun _ _ _ _ _ _ => Subsingleton.elim _ _
  | worker c e =>
    cases e with
    | step =>
      simp only [FlagsMeet]
      split
      · exact fun _ _ _ => Subsingleton.elim _ _
      · trivial
    | _ => trivial
  | _ => trivial

/-- **No wake-up is lost**, of a worker or of a receive thread, in any run in which every store that
    follows the load of an event flag finds this flag in its slot, or none, and every slot that is
    claimed is no other worker's. -/
theorem wakeups_kept (states : C → ConnState) (es : List (ThreadEvent H C))
    (hmeet : LTS.Along threadStep FlagsMeet (Threads.start states) es)
    (h : LTS.exec threadStep (Threads.start states) es = some x) : NoLostWakeup x :=
  (exec_wakeful states es hmeet h).noLostWakeup

instance FlagsMeet.decidable [Fintype C] (x : Threads H C) :
    ∀ e : ThreadEvent H C, Decidable (FlagsMeet x e)
  | .enter _ _ _ _ => isTrue trivial
  | .socket _ _ => isTrue trivial
  | .handler h =>
    inferInstanceAs (Decidable (∀ hd ∈ x.handlers h,
      ∀ evflag ∈ storesFor h (x.slots hd.slot) hd.pc,
        ∀ other ∈ (x.slots hd.slot).evflag, other = evflag))
  | .worker c e =>
    match e with
    | .step =>
      show Decidable (match (x.workers c).pc with
        | .attaching _ _ i =>
          (x.slots i).pid = pidUnused → ∀ d, (x.workers d).session = some i → d = c
        | _ => True) from
      match (x.workers c).pc with
      | .attaching _ _ i => inferInstanceAs (Decidable ((x.slots i).pid = pidUnused →
          ∀ d, (x.workers d).session = some i → d = c))
      | .outside | .launching _ | .claimed _ _ | .starting _ | .looping _ | .steps | .events
      | .bytes _ | .waiting _ | .resetting _ _ => isTrue trivial
    | .turn _ | .detach | .attach _ | .launch _ | .launchFailed | .setStep _ _ | .timeout =>
      isTrue trivial

/-- A worker attaches to process 5, whose thread 7 has a data abort; its handler has loaded the
    worker's event flag. -/
def abortWhileAttached : List (ThreadEvent Unit Bool) :=
  [.worker false (.attach 5), .worker false .step, .worker false .step,
    .enter () 5 7 (.exception (.event (.exception 7 .dabt))),
    .handler (), .handler (), .handler (), .handler ()]

/-- The rest of the handler: the push, and the set. -/
def abortQueued : List (ThreadEvent Unit Bool) :=
  [.handler (), .handler (), .handler (), .handler (), .handler ()]

/-- The worker detaches, step by step, and drops so many exceptions. -/
def detaches (exceptions : Nat) : List (ThreadEvent Unit Bool) :=
  .worker false .detach :: List.replicate (10 + exceptions) (.worker false .step)

/-- Another worker attaches to process 6, in the slot that has become free, and waits for an
    event. -/
def otherWaits : List (ThreadEvent Unit Bool) :=
  [.worker true (.attach 6), .worker true .step, .worker true .step,
    .worker true (.turn .eventOrByte)] ++ List.replicate 8 (.worker true .step)

/-- The handler pushes before the worker detaches. -/
theorem wakeups_kept_inTime :
    ∃ x, LTS.exec threadStep (Threads.start fun _ => .new)
        (abortWhileAttached ++ abortQueued ++ detaches 1 ++ otherWaits) = some x ∧
      (x.workers true).pc = .waiting .eventOrByte ∧ NoLostWakeup x := by
  have hrun : ∃ x, LTS.exec threadStep (Threads.start fun _ => .new)
      (abortWhileAttached ++ abortQueued ++ detaches 1 ++ otherWaits) = some x ∧
      (x.workers true).pc = .waiting .eventOrByte := ⟨_, rfl, rfl⟩
  obtain ⟨x, hx, hpc⟩ := hrun
  exact ⟨x, hx, hpc, wakeups_kept _ _ (by decide +kernel) hx⟩

/-- The slot changes hands between the handler's load and its push: **the exception is in the ring
    of the second worker, which waits, and the event flag of the first is set**. -/
theorem wakeups_lost :
    ¬ ∀ (H C : Type) (_ : DecidableEq H) (_ : DecidableEq C) (states : C → ConnState)
      (es : List (ThreadEvent H C)) (x : Threads H C),
      LTS.exec threadStep (Threads.start states) es = some x → NoLostWakeup x := by
  intro hclaim
  have hrun : ∃ x, LTS.exec threadStep (Threads.start fun _ => .new)
        (abortWhileAttached ++ detaches 0 ++ otherWaits ++ abortQueued) = some x ∧ Quiet x ∧
      (x.workers true).pc = .waiting .eventOrByte ∧
      hasBit (x.flags true) evWakeWorker = false ∧ ForWorker x true := by
    refine ⟨_, rfl, ⟨fun h hd hh => ?_, ?_, ?_⟩, rfl, rfl, .inl ⟨0, rfl, .inr (.inr ?_)⟩⟩
    · exact (Option.some.inj hh) ▸ rfl
    · have hlooping : RxThread.looping ≠ .waking ∧ RxThread.looping ≠ .wakingLast := by decide
      intro c
      cases c with
      | false => exact hlooping
      | true => exact hlooping
    · intro c byte
      cases c with
      | false => exact (by simp : ConnUser.idle none ≠ .reading (.released byte))
      | true => exact (by simp : ConnUser.idle (some .none) ≠ .reading (.released byte))
    · exact (by decide : (0 : Nat) ≠ 1)
  obtain ⟨x, hx, hquiet, hlost⟩ := hrun
  exact (hclaim Unit Bool inferInstance inferInstance _ _ x hx hquiet true).1 hlost

end VitaGdb

/-
  `gdb/tcpconn.rs`: the pool of connection slots.

  `TcpConn::new` claims a slot first, and then creates and starts its receive thread; the slot is
  given back by `close`, which only an existing `TcpConn` can call.  Where the thread can not be
  created or started, `new` returns its error and the slot stays claimed, with no owner: `CONN_POOL`
  is an instance of `FlaggedSlots`, and that call leaks (`connPoolStep_goes`).

  So the claimed slots are those of the live connections exactly along the histories in which every
  call of `new` that has a slot gets its thread (`connSlots_exact_iff`).
-/
import VitaGdb.Lib.Runs
import VitaGdb.Lib.FlaggedSlots
import VitaGdb.Gdb.TcpWrite

namespace VitaGdb

/-! ## The pool -/

/-- `MAX_CONNS`. -/
abbrev maxConns : Nat := 4

/-- An entry of `CONN_POOL`. -/
structure ConnSlot where
  claimed : Bool
  state : ConnState

/-- `CONN_POOL`. -/
abbrev ConnPool := Fin maxConns → ConnSlot

namespace ConnPool

/-- The pool at start. -/
def new : ConnPool := fun _ => { claimed := false, state := .new }

/-- `acquire_state`: the first slot whose exchange of `false` for `true` succeeds. -/
def acquireState (pool : ConnPool) : Option (Fin maxConns) × ConnPool :=
  match (List.finRange maxConns).find? fun i => !(pool i).claimed with
  | some i => (some i, Function.update pool i { claimed := true, state := (pool i).state.reset })
  | none => (none, pool)

/-- `release_state`. -/
def releaseState (pool : ConnPool) (i : Fin maxConns) : ConnPool :=
  Function.update pool i { pool i with claimed := false }

/-- The flags. -/
def flags (pool : ConnPool) (i : Fin maxConns) : Bool := (pool i).claimed

theorem acquireState_some {pool pool' : ConnPool} {i : Fin maxConns}
    (h : pool.acquireState = (some i, pool')) : (pool i).claimed = false ∧
      pool' = Function.update pool i { claimed := true, state := (pool i).state.reset } := by
  rw [acquireState] at h
  split at h
  · rename_i j hj
    have hfree := List.find?_some (p := fun i => !(pool i).claimed) hj
    obtain ⟨hij, hpool⟩ := Prod.mk.inj h
    obtain rfl := Option.some.inj hij
    exact ⟨by simpa using hfree, hpool.symm⟩
  · exact absurd h (by simp)

theorem acquireState_none {pool pool' : ConnPool} (h : pool.acquireState = (none, pool')) :
    pool' = pool ∧ ∀ i, (pool i).claimed = true := by
  rw [acquireState] at h
  split at h
  · exact absurd h (by simp)
  · rename_i hnone
    rw [List.find?_eq_none] at hnone
    exact ⟨(Prod.mk.inj h).2.symm, fun i => by simpa using hnone i (List.mem_finRange i)⟩

/-- It answers a slot as long as one is free. -/
theorem acquireState_isSome {pool : ConnPool} {i : Fin maxConns} (h : (pool i).claimed = false) :
    pool.acquireState.1.isSome := by
  rcases hacq : pool.acquireState with ⟨_ | j, pool'⟩
  · exact absurd (h.symm.trans ((acquireState_none hacq).2 i)) (by simp)
  · rfl

/-- What a write of the flag does to the flags. -/
theorem flags_update (pool : ConnPool) (i : Fin maxConns) (slot : ConnSlot) :
    flags (Function.update pool i slot) = Function.update pool.flags i slot.claimed := by
  funext j
  by_cases hj : j = i
  · subst hj
    simp [flags]
  · simp [flags, Function.update_of_ne hj]

end ConnPool

/-! ## Connections -/

/-- A `TcpConn`.  Its `state` is a slot of the pool. -/
structure LiveConn where
  socket : I32
  evflag : EventFlagRef
  thread : Option SceUID
  state : Fin maxConns
  readLen : Nat
  writer : TcpWriter

namespace LiveConn

/-- `TcpConn::new`, where the kernel answers `create` and `start` to the two calls for the thread.
    -/
def new (pool : ConnPool) (socket : I32) (evflag : EventFlagRef) (create start : I32) :
    Except SceError LiveConn × ConnPool :=
  match pool.acquireState with
  | (none, pool) => (.error ⟨-1#32, "acquire_state"⟩, pool)
  | (some state, pool) =>
    if create.slt 0#32 then (.error ⟨create, "ksceKernelCreateThread"⟩, pool)
    else if start.slt 0#32 then (.error ⟨start, "ksceKernelStartThread"⟩, pool)
    else
      let conn : LiveConn :=
        { socket := socket, evflag := evflag, thread := some create, state := state, readLen := 0,
          writer := .new }
      (.ok conn, pool)

/-- The reading half. -/
def reader (c : LiveConn) (pool : ConnPool) : TcpConn :=
  { state := (pool c.state).state, readLen := c.readLen }

/-- `close`, which `drop` calls: the receive thread is woken and joined (a join that fails is
    printed only), and the slot is released. -/
def close (c : LiveConn) (pool : ConnPool) : LiveConn × ConnPool :=
  let slot := pool c.state
  let closed : ConnPool :=
    Function.update pool c.state { slot with state := { slot.state with closed := true } }
  ({ c with socket := -1#32, thread := none }, closed.releaseState c.state)

/-- What a call of `new` can do to the pool. -/
inductive NewGoes (pool : ConnPool) (create start : I32) :
    Except SceError LiveConn × ConnPool → Prop where
  | full (err : SceError) (hfull : ∀ i, (pool i).claimed = true) :
      NewGoes pool create start (.error err, pool)
  | failed (i : Fin maxConns) (slot : ConnSlot) (err : SceError) (hfree : (pool i).claimed = false)
      (hslot : slot.claimed = true) (hfail : create.slt 0#32 = true ∨ start.slt 0#32 = true) :
      NewGoes pool create start (.error err, Function.update pool i slot)
  | made (slot : ConnSlot) (conn : LiveConn) (hfree : (pool conn.state).claimed = false)
      (hslot : slot.claimed = true) (hcreate : create.slt 0#32 = false)
      (hstart : start.slt 0#32 = false) :
      NewGoes pool create start (.ok conn, Function.update pool conn.state slot)

theorem new_goes (pool : ConnPool) (socket : I32) (evflag : EventFlagRef) (create start : I32) :
    NewGoes pool create start (new pool socket evflag create start) := by
  rw [new]
  rcases hacq : pool.acquireState with ⟨_ | i, pool'⟩
  · obtain ⟨rfl, hfull⟩ := ConnPool.acquireState_none hacq
    exact .full _ hfull
  · obtain ⟨hfree, rfl⟩ := ConnPool.acquireState_some hacq
    cases hcreate : create.slt 0#32 with
    | true => exact .failed i _ _ hfree rfl (.inl hcreate)
    | false =>
      cases hstart : start.slt 0#32 with
      | true => exact .failed i _ _ hfree rfl (.inr hstart)
      | false => exact .made _ ⟨_, _, _, i, _, _⟩ hfree rfl hcreate hstart

/-- **A new connection starts with an empty slot**, read by nobody yet. -/
theorem new_reader {pool pool' : ConnPool} {socket : I32} {evflag : EventFlagRef}
    {create start : I32} {conn : LiveConn}
    (h : new pool socket evflag create start = (.ok conn, pool')) :
    conn.reader pool' = .new (pool conn.state).state ∧ conn.writer = .new := by
  rw [new] at h
  rcases hacq : pool.acquireState with ⟨_ | i, pool''⟩
  · rw [hacq] at h
    exact absurd h (by simp)
  · obtain ⟨-, rfl⟩ := ConnPool.acquireState_some hacq
    rw [hacq] at h
    dsimp only at h
    split at h
    · exact absurd h (by simp)
    · split at h
      · exact absurd h (by simp)
      · obtain ⟨hconn, rfl⟩ := Prod.mk.inj h
        obtain rfl := Except.ok.inj hconn
        exact ⟨by simp [reader, TcpConn.new], rfl⟩

/-- `close` clears the flag of its slot, and no other. -/
theorem close_flags (c : LiveConn) (pool : ConnPool) :
    (c.close pool).2.flags = Function.update pool.flags c.state false := by
  simp only [close, ConnPool.releaseState, ConnPool.flags_update, Function.update_idem]

end LiveConn

/-! ## Histories of the pool -/

variable {C : Type} [DecidableEq C]

/-- The pool, and the connections that are live. -/
structure ConnPoolRun (C : Type) where
  pool : ConnPool
  live : C → Option LiveConn

/-- Before the first connection. -/
def ConnPoolRun.start : ConnPoolRun C := { pool := .new, live := fun _ => none }

/-- The calls on the pool, in any order. -/
inductive ConnPoolEvent (C : Type) where
  /-- `TcpConn::new`, and what the kernel answers to its two calls. -/
  | new (c : C) (socket : I32) (evflag : EventFlagRef) (create start : I32)
  /-- The receive thread of a live connection and its worker go on. -/
  | used (c : C) (state : ConnState) (readLen : Nat) (writer : TcpWriter)
  | drop (c : C)

def connPoolStep (x : ConnPoolRun C) : ConnPoolEvent C → Option (ConnPoolRun C)
  | .new c socket evflag create start =>
    match x.live c with
    | some _ => none
    | none =>
      match LiveConn.new x.pool socket evflag create start with
      | (.ok conn, pool) => some { pool := pool, live := Function.update x.live c (some conn) }
      | (.error _, pool) => some { x with pool := pool }
  | .used c state readLen writer =>
    (x.live c).map fun conn =>
      { pool := Function.update x.pool conn.state { x.pool conn.state with state := state }
        live := Function.update x.live c (some { conn with readLen := readLen, writer := writer }) }
  | .drop c =>
    (x.live c).map fun conn =>
      { pool := (conn.close x.pool).2, live := Function.update x.live c none }

/-- The claimed slots are those of the live connections, one each; while fewer than four connections
    are live there is a slot for another. -/
structure SlotsExact (x : ConnPoolRun C) : Prop where
  owned : ∀ i, (x.pool i).claimed = true ↔ ∃ c conn, x.live c = some conn ∧ conn.state = i
  single : ∀ c c' conn conn', x.live c = some conn → x.live c' = some conn' →
    conn.state = conn'.state → c = c'
  acquires : {c | (x.live c).isSome}.encard < 4 → x.pool.acquireState.1.isSome

/-- A call of `new` that has a slot gets its thread: it is created and started. -/
def ThreadMade (x : ConnPoolRun C) : ConnPoolEvent C → Prop
  | .new _ _ _ create start =>
    (∃ i, (x.pool i).claimed = false) → create.slt 0#32 = false ∧ start.slt 0#32 = false
  | _ => True

instance ThreadMade.decidable (x : ConnPoolRun C) : ∀ e, Decidable (ThreadMade x e)
  | .new _ _ _ create start => inferInstanceAs (Decidable ((∃ i, (x.pool i).claimed = false) →
      create.slt 0#32 = false ∧ start.slt 0#32 = false))
  | .used _ _ _ _ => isTrue trivial
  | .drop _ => isTrue trivial

/-! ## The pool as flagged slots -/

variable {x y : ConnPoolRun C}

/-- The flags of the pool and their owners. -/
def ConnPoolRun.slots (x : ConnPoolRun C) : FlaggedSlots.State (Fin maxConns) C where
  claimed := x.pool.flags
  owner := fun c => (x.live c).map (·.state)

omit [DecidableEq C] in
theorem ConnPoolRun.slots_owner {c : C} {i : Fin maxConns} :
    x.slots.owner c = some i ↔ ∃ conn, x.live c = some conn ∧ conn.state = i :=
  Option.map_eq_some_iff

omit [DecidableEq C] in
theorem slotsExact_iff : SlotsExact x ↔ FlaggedSlots.Exact x.slots := by
  constructor
  · intro h
    refine ⟨fun i => ?_, fun c c' i hc hc' => ?_⟩
    · simp only [ConnPoolRun.slots_owner]
      exact h.owned i
    · obtain ⟨conn, hlive, hi⟩ := ConnPoolRun.slots_owner.mp hc
      obtain ⟨conn', hlive', hi'⟩ := ConnPoolRun.slots_owner.mp hc'
      exact h.single c c' conn conn' hlive hlive' (hi.trans hi'.symm)
  · intro h
    refine ⟨fun i => ?_, fun c c' conn conn' hc hc' hsame => ?_, fun hfew => ?_⟩
    · simp only [← ConnPoolRun.slots_owner]
      exact h.owned i
    · exact h.single c c' conn.state (ConnPoolRun.slots_owner.mpr ⟨conn, hc, rfl⟩)
        (ConnPoolRun.slots_owner.mpr ⟨conn', hc', hsame.symm⟩)
    · have howners : {c | (x.slots.owner c).isSome} = {c | (x.live c).isSome} := by
        simp [ConnPoolRun.slots]
      obtain ⟨i, hi⟩ := h.free (by simpa [howners] using hfew)
      exact ConnPool.acquireState_isSome hi

/-- The owners after a connection has been made or dropped. -/
theorem ConnPoolRun.owner_update (live : C → Option LiveConn) (c : C) (conn : Option LiveConn) :
    (fun d => (Function.update live c conn d).map (·.state)) =
      Function.update (fun d => (live d).map (·.state)) c (conn.map (·.state)) := by
  funext d
  by_cases hd : d = c
  · subst hd
    simp
  · simp [Function.update_of_ne hd]

/-- **What a call does to the slots**: a step of the protocol, or a leak where the thread is not
    made. -/
theorem connPoolStep_goes {e : ConnPoolEvent C} (h : connPoolStep x e = some y) :
    ThreadMade x e ∧ FlaggedSlots.Step x.slots y.slots ∨
      ¬ ThreadMade x e ∧ FlaggedSlots.Leaks x.slots y.slots := by
  cases e with
  | new c socket evflag create start =>
    simp only [connPoolStep] at h
    split at h
    · exact absurd h (by simp)
    · rename_i hidle
      have hgoes := LiveConn.new_goes x.pool socket evflag create start
      generalize LiveConn.new x.pool socket evflag create start = answer at h hgoes
      cases hgoes with
      | full err hfull =>
        obtain rfl := Option.some.inj h
        exact .inl ⟨fun ⟨i, hi⟩ => absurd ((hfull i).symm.trans hi) (by simp), .stay⟩
      | failed i slot err hfree hslot hfail =>
        obtain rfl := Option.some.inj h
        refine .inr ⟨fun hmade => ?_, i, hfree, ?_⟩
        · obtain ⟨hcreate, hstart⟩ := hmade ⟨i, hfree⟩
          rcases hfail with hfail | hfail
          · exact absurd (hcreate.symm.trans hfail) (by simp)
          · exact absurd (hstart.symm.trans hfail) (by simp)
        · simp only [ConnPoolRun.slots, ConnPool.flags_update, hslot]
      | made slot conn hfree hslot hcreate hstart =>
        obtain rfl := Option.some.inj h
        refine .inl ⟨fun _ => ⟨hcreate, hstart⟩, ?_⟩
        have hclaim := FlaggedSlots.Step.claim (s := x.slots) c conn.state hfree
          (by simp [ConnPoolRun.slots, hidle])
        simpa only [ConnPoolRun.slots, ConnPool.flags_update, ConnPoolRun.owner_update, hslot,
          Option.map_some] using hclaim
  | used c state readLen writer =>
    simp only [connPoolStep, Option.map_eq_some_iff] at h
    obtain ⟨conn, hlive, rfl⟩ := h
    refine .inl ⟨trivial, ?_⟩
    have hflags : Function.update x.pool.flags conn.state (x.pool conn.state).claimed = x.pool.flags :=
      Function.update_eq_self _ _
    have howner : Function.update (fun d => (x.live d).map (·.state)) c (some conn.state) =
        fun d => (x.live d).map (·.state) := by
      rw [Function.update_eq_self_iff, hlive, Option.map_some]
    simpa only [ConnPoolRun.slots, ConnPool.flags_update, ConnPoolRun.owner_update, hflags, howner,
      Option.map_some] using FlaggedSlots.Step.stay (s := x.slots)
  | drop c =>
    simp only [connPoolStep, Option.map_eq_some_iff] at h
    obtain ⟨conn, hlive, rfl⟩ := h
    refine .inl ⟨trivial, ?_⟩
    have hrelease := FlaggedSlots.Step.release (s := x.slots) c conn.state
      (ConnPoolRun.slots_owner.mpr ⟨conn, hlive, rfl⟩)
    simpa only [ConnPoolRun.slots, LiveConn.close_flags, ConnPoolRun.owner_update, Option.map_none]
      using hrelease

/-- A history that goes on after a leak has it still. -/
theorem leaked_stays (i : Fin maxConns) (es : List (ConnPoolEvent C))
    (hx : FlaggedSlots.Leaked x.slots i) (h : LTS.exec connPoolStep x es = some y) :
    FlaggedSlots.Leaked y.slots i := by
  have hstep : ∀ (x : ConnPoolRun C) (e : ConnPoolEvent C) y, FlaggedSlots.Leaked x.slots i →
      connPoolStep x e = some y → FlaggedSlots.Leaked y.slots i := by
    intro x e y hx h
    rcases connPoolStep_goes h with ⟨-, hstep⟩ | ⟨-, hleaks⟩
    · exact hx.step hstep
    · exact hx.leaks hleaks
  exact LTS.exec_keeps hstep es hx h

/-- **Slots are not leaked or shared** exactly along the histories in which every call of `new` that
    has a slot gets its thread. -/
theorem connSlots_exact_iff (es : List (ConnPoolEvent C))
    (h : LTS.exec connPoolStep ConnPoolRun.start es = some x) :
    SlotsExact x ↔ LTS.Along connPoolStep ThreadMade ConnPoolRun.start es := by
  have hstart : FlaggedSlots.Exact (ConnPoolRun.start : ConnPoolRun C).slots := .start
  rw [slotsExact_iff]
  generalize (ConnPoolRun.start : ConnPoolRun C) = s at hstart h
  -- induction on the history: the first call keeps the slots exact, or leaks one for good
  induction es generalizing s with
  | nil =>
    obtain rfl := Option.some.inj h
    exact ⟨fun _ => trivial, fun _ => hstart⟩
  | cons e es ih =>
    obtain ⟨s', hs, hrest⟩ := LTS.exec_cons_some h
    rcases connPoolStep_goes hs with ⟨hmade, hstep⟩ | ⟨hmade, hleaks⟩
    · have hiff := ih s' (hstart.step hstep) hrest
      exact hiff.trans ⟨fun hes => .cons hs hmade hes, fun hes => hes.2 s' hs⟩
    · obtain ⟨i, hi⟩ := hstart.leaks hleaks
      exact ⟨fun hexact => absurd (leaked_stays i es hi hrest) (hexact.not_leaked i),
        fun hes => absurd hes.1 hmade⟩

/-- Connection 1 is made and dropped; connection 2 finds the slot again. -/
def twoConns : List (ConnPoolEvent Nat) :=
  [.new 1 5#32 ⟨3#32⟩ 0x40010001#32 0#32, .drop 1, .new 2 6#32 ⟨4#32⟩ 0x40010003#32 0#32]

theorem connSlots_exact_twoConns : ∃ x, LTS.exec connPoolStep ConnPoolRun.start twoConns = some x ∧
    SlotsExact x := by
  refine ⟨_, rfl, (connSlots_exact_iff twoConns rfl).mpr ?_⟩
  decide +kernel

/-- Four connections whose thread can not be started: nobody is live, and no slot is left. -/
def fourFailures : List (ConnPoolEvent Nat) :=
  List.replicate 4 (.new 1 5#32 ⟨3#32⟩ 0x40010001#32 0x80020190#32)

theorem connSlots_leak : ¬ ∀ (C : Type) (_ : DecidableEq C) (es : List (ConnPoolEvent C))
    (x : ConnPoolRun C), LTS.exec connPoolStep ConnPoolRun.start es = some x → SlotsExact x := by
  intro hclaim
  have hexact := hclaim Nat inferInstance fourFailures _ rfl
  exact absurd (hexact.acquires (by simp [ConnPoolRun.start])) (by decide +kernel)

end VitaGdb

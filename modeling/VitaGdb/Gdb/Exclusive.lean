/-
  Sessions of several connections: who owns which slot of the pool.

  Any number of connections attach, run, detach and drop at the same time.  `GdbSession::new` is
  cut at its atomic steps: it tries the slots in order, one compare-and-exchange each
  (`exchange`), and stores the event flag after the one that succeeds (`publish`).  A drop ends
  with the store of `PID_UNUSED` (`free`), before which it is still the owner's.  Session calls of
  live sessions run in between.

  The pool is an instance of `KeyedSlots`: the cell is the pid field, the key the pid, the marker
  `PID_UNUSED`; `poolStep_refines` maps every step to one of that protocol.  The exchange checks
  that the slot is free and nothing else, so a claim is fresh only where the pid is not -1 and no
  slot holds it; `sessions_exclusive` is for the runs whose successful exchanges are.
-/
import VitaGdb.Lib.KeyedSlots
import VitaGdb.Gdb.Reuse

namespace VitaGdb

open GdbSessionInner

/-! ## Session calls keep the pid -/

theorem stepFinished_pid (s : GdbSessionInner) (k : Kernel) :
    (s.stepFinished k).2.1.pid = s.pid := by
  cases hstep : s.step with
  | none => rw [stepFinished_none hstep]
  | some step =>
    obtain ⟨tid, addr⟩ := step
    rw [stepFinished_some hstep]
    exact (clearSwBreakpoint_swOnly { s with step := none } k addr).pid

/-- **A session call keeps the pid**: only `new` and `reset` store it. -/
theorem sessionCall_pid (s : GdbSessionInner) (k : Kernel) (call : SessionCall) :
    (sessionCall s k call).1.pid = s.pid := by
  cases call with
  | setSwBreakpoint addr kind => exact (setSwBreakpoint_swOnly s k addr kind).pid
  | clearSwBreakpoint addr => exact (clearSwBreakpoint_swOnly s k addr).pid
  | setHwBreakpoint addr => exact (setHwBreakpoint_frame s k addr).1.pid
  | clearHwBreakpoint addr => exact (clearHwBreakpoint_frame s k addr).1.pid
  | setHwWatchpoint addr len kind => exact (setHwWatchpoint_frame s k addr len kind).1.pid
  | clearHwWatchpoint addr => exact (clearHwWatchpoint_frame s k addr).1.pid
  | stepFinished => exact stepFinished_pid s k
  | pushExcp event =>
    obtain ⟨r, hr⟩ := (pushExcp_frame s k event).1
    show (s.pushExcp k event).1.pid = s.pid
    rw [hr]
  | pushExited =>
    show (s.pushExited k).1.pid = s.pid
    unfold pushExited
    split <;> rfl
  | setStep tid addr => rfl
  | popExited => rfl
  | popStepFinished => rfl
  | popExcp => rfl
  | clearAll => rfl

/-! ## Connections -/

/-- Where a connection is with its session. -/
inductive ConnPhase where
  | idle
  /-- `GdbSession::new`, about to try this slot. -/
  | scanning (pid : SceUID) (slot : Fin 4)
  /-- The exchange has succeeded. -/
  | exchanged (slot : Fin 4) (pid : SceUID)
  | live (slot : Fin 4) (pid : SceUID)
  /-- `drop`, up to the store of `PID_UNUSED`. -/
  | dropping (slot : Fin 4) (pid : SceUID)

/-- The slot a connection has claimed and not given back, with the pid it was claimed for. -/
def ConnPhase.owned : ConnPhase → Option (Fin 4 × SceUID)
  | .idle => none
  | .scanning _ _ => none
  | .exchanged slot pid => some (slot, pid)
  | .live slot pid => some (slot, pid)
  | .dropping slot pid => some (slot, pid)

/-- The pool, the kernel, and every connection. -/
structure Connections (C : Type) where
  world : World
  phase : C → ConnPhase

inductive PoolEvent (C : Type) where
  /-- `vAttach` with any process id the protocol carries. -/
  | attach (c : C) (pid : SceUID)
  /-- `vRun`: the process id is the answer of the launch. -/
  | run (c : C) (pid : SceUID)
  | exchange (c : C)
  | publish (c : C) (evflag : EventFlagRef)
  | call (c : C) (call : SessionCall)
  | drop (c : C)
  | free (c : C)

variable {C : Type} [DecidableEq C]

namespace Connections

/-- A connection moves on. -/
def moveTo (x : Connections C) (c : C) (phase : ConnPhase) : Connections C :=
  { x with phase := Function.update x.phase c phase }

/-- A slot and the kernel change. -/
def putSlot (x : Connections C) (i : Fin 4) (s : GdbSessionInner) (k : Kernel) : Connections C :=
  { x with world := x.world.put i s k }

end Connections

/-- The slot after this one, if there is one. -/
def nextSlot (i : Fin 4) : Option (Fin 4) := if h : i.val + 1 < 4 then some ⟨i.val + 1, h⟩ else none

/-- One atomic step of one connection. -/
def poolStep (x : Connections C) : PoolEvent C → Option (Connections C)
  | .attach c pid =>
    match x.phase c with
    | .idle =>
      if pid = 0#32 || pid = 1#32 || pid = 0x10005#32 then none
      else some (x.moveTo c (.scanning pid 0))
    | _ => none
  | .run c pid =>
    match x.phase c with
    | .idle => if pid.slt 0#32 then none else some (x.moveTo c (.scanning pid 0))
    | _ => none
  | .exchange c =>
    match x.phase c with
    | .scanning pid i =>
      if (x.world.pool i).pid = pidUnused then
        some ((x.putSlot i { x.world.pool i with pid := pid } x.world.kernel).moveTo c
          (.exchanged i pid))
      else
        match nextSlot i with
        | some j => some (x.moveTo c (.scanning pid j))
        | none => some (x.moveTo c .idle)
    | _ => none
  | .publish c evflag =>
    match x.phase c with
    | .exchanged i pid =>
      some ((x.putSlot i { x.world.pool i with evflag := some evflag } x.world.kernel).moveTo c
        (.live i pid))
    | _ => none
  | .call c call =>
    match x.phase c with
    | .live i _ =>
      let (s, k) := sessionCall (x.world.pool i) x.world.kernel call
      some (x.putSlot i s k)
    | _ => none
  | .drop c =>
    match x.phase c with
    | .live i pid =>
      -- everything `drop` does before its last store, which is the pid
      let (s, k) := (x.world.pool i).drop x.world.kernel
      some ((x.putSlot i { s with pid := (x.world.pool i).pid } k).moveTo c (.dropping i pid))
    | _ => none
  | .free c =>
    match x.phase c with
    | .dropping i _ =>
      some ((x.putSlot i { x.world.pool i with pid := pidUnused } x.world.kernel).moveTo c .idle)
    | _ => none

/-- A successful exchange is for a pid that is not -1 and that no slot holds. -/
def ExchangesFresh (x : Connections C) : PoolEvent C → Prop
  | .exchange c => ∀ pid i, x.phase c = .scanning pid i → (x.world.pool i).pid = pidUnused →
      pid ≠ pidUnused ∧ ∀ j, (x.world.pool j).pid ≠ pid
  | _ => True

/-! ## The pool as keyed slots -/

/-- The protocol state of the pool. -/
def keyedSlots (x : Connections C) : KeyedSlots.State (Fin 4) SceUID C where
  keys := fun i => (x.world.pool i).pid
  owner := fun c => (x.phase c).owned

omit [DecidableEq C] in
theorem keyedSlots_putSlot (x : Connections C) (i : Fin 4) (s : GdbSessionInner) (k : Kernel) :
    keyedSlots (x.putSlot i s k) =
      { keyedSlots x with keys := Function.update (keyedSlots x).keys i s.pid } := by
  have hkeys :
      (keyedSlots (x.putSlot i s k)).keys = Function.update (keyedSlots x).keys i s.pid := by
    funext j
    show (Function.update x.world.pool i s j).pid = Function.update (keyedSlots x).keys i s.pid j
    by_cases hj : j = i
    · rw [hj, Function.update_self, Function.update_self]
    · rw [Function.update_of_ne hj, Function.update_of_ne hj]
      rfl
  rw [← hkeys]
  rfl

theorem keyedSlots_moveTo (x : Connections C) (c : C) (phase : ConnPhase) :
    keyedSlots (x.moveTo c phase) =
      { keyedSlots x with owner := Function.update (keyedSlots x).owner c phase.owned } := by
  have howner : (keyedSlots (x.moveTo c phase)).owner =
      Function.update (keyedSlots x).owner c phase.owned := by
    funext c'
    show (Function.update x.phase c phase c').owned =
      Function.update (keyedSlots x).owner c phase.owned c'
    by_cases hc : c' = c
    · rw [hc, Function.update_self, Function.update_self]
    · rw [Function.update_of_ne hc, Function.update_of_ne hc]
      rfl
  rw [← howner]
  rfl

omit [DecidableEq C] in
/-- A slot keeps its pid. -/
theorem keyedSlots_putSlot_same (x : Connections C) {i : Fin 4} {s : GdbSessionInner} {k : Kernel}
    (h : s.pid = (x.world.pool i).pid) : keyedSlots (x.putSlot i s k) = keyedSlots x := by
  rw [keyedSlots_putSlot, h]
  have hkeys : Function.update (keyedSlots x).keys i (x.world.pool i).pid = (keyedSlots x).keys :=
    Function.update_eq_self i (keyedSlots x).keys
  rw [hkeys]

/-- A connection keeps what it owns. -/
theorem keyedSlots_moveTo_same (x : Connections C) {c : C} {phase : ConnPhase}
    (h : phase.owned = (x.phase c).owned) : keyedSlots (x.moveTo c phase) = keyedSlots x := by
  rw [keyedSlots_moveTo, h]
  have howner : Function.update (keyedSlots x).owner c (x.phase c).owned = (keyedSlots x).owner :=
    Function.update_eq_self c (keyedSlots x).owner
  rw [howner]

/-- **What a step is to the protocol**: nothing, the claim of a free slot by an exchange, or the
    release of an owned one. -/
theorem poolStep_cases {x y : Connections C} {e : PoolEvent C} (hy : poolStep x e = some y) :
    keyedSlots y = keyedSlots x ∨
    (∃ c i pid, e = .exchange c ∧ x.phase c = .scanning pid i ∧ (x.world.pool i).pid = pidUnused ∧
      keyedSlots y =
        { keys := Function.update (keyedSlots x).keys i pid
          owner := Function.update (keyedSlots x).owner c (some (i, pid)) }) ∨
    ∃ c i pid, (keyedSlots x).owner c = some (i, pid) ∧
      keyedSlots y =
        { keys := Function.update (keyedSlots x).keys i pidUnused
          owner := Function.update (keyedSlots x).owner c none } := by
  cases e with
  | attach c pid =>
    cases hphase : x.phase c with
    | idle =>
      simp only [poolStep, hphase] at hy
      split at hy
      · exact absurd hy (by simp)
      · rw [← Option.some.inj hy]
        exact .inl (keyedSlots_moveTo_same x (by rw [hphase]; rfl))
    | _ => simp [poolStep, hphase] at hy
  | run c pid =>
    cases hphase : x.phase c with
    | idle =>
      simp only [poolStep, hphase] at hy
      split at hy
      · exact absurd hy (by simp)
      · rw [← Option.some.inj hy]
        exact .inl (keyedSlots_moveTo_same x (by rw [hphase]; rfl))
    | _ => simp [poolStep, hphase] at hy
  | exchange c =>
    cases hphase : x.phase c with
    | scanning pid i =>
      simp only [poolStep, hphase] at hy
      split at hy
      · next hfree =>
        rw [← Option.some.inj hy]
        refine .inr (.inl ⟨c, i, pid, rfl, hphase, hfree, ?_⟩)
        rw [keyedSlots_moveTo, keyedSlots_putSlot]
        rfl
      · split at hy <;> rw [← Option.some.inj hy]
        · exact .inl (keyedSlots_moveTo_same x (by rw [hphase]; rfl))
        · exact .inl (keyedSlots_moveTo_same x (by rw [hphase]; rfl))
    | _ => simp [poolStep, hphase] at hy
  | publish c evflag =>
    cases hphase : x.phase c with
    | exchanged i pid =>
      simp only [poolStep, hphase] at hy
      rw [← Option.some.inj hy]
      refine .inl ((keyedSlots_moveTo_same _ ?_).trans (keyedSlots_putSlot_same x rfl))
      show (ConnPhase.live i pid).owned = (x.phase c).owned
      rw [hphase]
      rfl
    | _ => simp [poolStep, hphase] at hy
  | call c call =>
    cases hphase : x.phase c with
    | live i pid =>
      simp only [poolStep, hphase] at hy
      rw [← Option.some.inj hy]
      exact .inl (keyedSlots_putSlot_same x (sessionCall_pid _ _ call))
    | _ => simp [poolStep, hphase] at hy
  | drop c =>
    cases hphase : x.phase c with
    | live i pid =>
      simp only [poolStep, hphase] at hy
      rw [← Option.some.inj hy]
      refine .inl ((keyedSlots_moveTo_same _ ?_).trans (keyedSlots_putSlot_same x rfl))
      show (ConnPhase.dropping i pid).owned = (x.phase c).owned
      rw [hphase]
      rfl
    | _ => simp [poolStep, hphase] at hy
  | free c =>
    cases hphase : x.phase c with
    | dropping i pid =>
      simp only [poolStep, hphase] at hy
      rw [← Option.some.inj hy]
      have howned : (x.phase c).owned = some (i, pid) := by rw [hphase]; rfl
      refine .inr (.inr ⟨c, i, pid, howned, ?_⟩)
      rw [keyedSlots_moveTo, keyedSlots_putSlot]
      rfl
    | _ => simp [poolStep, hphase] at hy

/-- Every step of the connections is a step of the protocol. -/
theorem poolStep_refines {x y : Connections C} {e : PoolEvent C} (hy : poolStep x e = some y) :
    KeyedSlots.Step pidUnused (keyedSlots x) (keyedSlots y) := by
  rcases poolStep_cases hy with heq | ⟨c, i, pid, -, hphase, hfree, heq⟩ | ⟨c, i, pid, hown, heq⟩
  · rw [heq]
    exact .stay
  · have hidle : (keyedSlots x).owner c = none := by
      show (x.phase c).owned = none
      rw [hphase]
      rfl
    rw [heq]
    exact .claim c i pid hfree hidle
  · rw [heq]
    exact .release c i pid hown

/-! ## Exclusive sessions -/

/-- No two sessions share a slot, no two hold one pid, and the lookup of a session's pid finds its
    slot.  (A session is a session from its exchange to the store that frees its slot.) -/
structure SessionsExclusive (x : Connections C) : Prop where
  slots : ∀ c c' i pid pid', (x.phase c).owned = some (i, pid) →
    (x.phase c').owned = some (i, pid') → c = c'
  pids : ∀ c c' i i' pid, (x.phase c).owned = some (i, pid) →
    (x.phase c').owned = some (i', pid) → c = c'
  lookup : ∀ c i pid, (x.phase c).owned = some (i, pid) →
    findSessionForPid x.world.pool pid = some i

omit [DecidableEq C] in
theorem sessionsExclusive_of {x : Connections C}
    (h : KeyedSlots.Exclusive pidUnused (keyedSlots x)) : SessionsExclusive x where
  slots := fun _ _ _ _ _ hc hc' => h.slot_inj hc hc'
  pids := fun _ _ _ _ _ hc hc' => h.key_inj hc hc'
  lookup := fun c i pid hc =>
    SessionPool.slotOf_unique (h.keyed c i pid hc).1 fun _ hj => h.only_holder hc hj

/-- One step. -/
theorem exclusive_step {x y : Connections C} {e : PoolEvent C}
    (h : KeyedSlots.Exclusive pidUnused (keyedSlots x)) (hfresh : ExchangesFresh x e)
    (hy : poolStep x e = some y) : KeyedSlots.Exclusive pidUnused (keyedSlots y) := by
  refine h.step (poolStep_refines hy) fun c' i' pid' hnone hsome => ?_
  -- only an exchange makes an owner
  rcases poolStep_cases hy with heq | ⟨c, i, pid, rfl, hphase, hfree, heq⟩ |
    ⟨c, i, pid, hown, heq⟩ <;> simp only [heq] at hsome
  · exact absurd (hnone.symm.trans hsome) (by simp)
  · by_cases hc : c' = c
    · rw [hc, Function.update_self, Option.some.injEq, Prod.mk.injEq] at hsome
      rw [← hsome.2]
      exact hfresh pid i hphase hfree
    · rw [Function.update_of_ne hc] at hsome
      exact absurd (hnone.symm.trans hsome) (by simp)
  · by_cases hc : c' = c
    · rw [hc, Function.update_self] at hsome
      exact absurd hsome (by simp)
    · rw [Function.update_of_ne hc] at hsome
      exact absurd (hnone.symm.trans hsome) (by simp)

/-- Every connection idle, and a pool of unused slots. -/
def noSessions (C : Type) (k : Kernel) : Connections C where
  world := { pool := SessionPool.uninit, kernel := k }
  phase := fun _ => .idle

/-- **Sessions are exclusive** along every run of any number of connections whose successful
    exchanges are for a pid that is not -1 and that no slot holds at that moment. -/
theorem sessions_exclusive (k : Kernel) (events : List (PoolEvent C))
    (hfresh : LTS.Along poolStep ExchangesFresh (noSessions C k) events) (x : Connections C)
    (hrun : LTS.exec poolStep (noSessions C k) events = some x) : SessionsExclusive x :=
  sessionsExclusive_of (LTS.exec_invariant (fun _ _ _ hx hc hy => exclusive_step hx hc hy) events
    (KeyedSlots.Exclusive.start pidUnused) hfresh hrun)

/-- Two connections that attach, one after the other. -/
def twoAttach (pid pid' : SceUID) : List (PoolEvent Bool) :=
  [.attach false pid, .exchange false, .publish false ⟨3#32⟩,
    .attach true pid', .exchange true, .exchange true, .publish true ⟨4#32⟩]

theorem sessions_exclusive_two :
    ∃ x, LTS.exec poolStep (noSessions Bool (Kernel.quiet fun _ _ => none)) (twoAttach 7#32 8#32) =
        some x ∧ SessionsExclusive x := by
  refine ⟨_, rfl, sessions_exclusive (Kernel.quiet fun _ _ => none) (twoAttach 7#32 8#32) ?_ _ rfl⟩
  refine .cons rfl trivial (.cons rfl ?_ (.cons rfl trivial (.cons rfl trivial (.cons rfl ?_
    (.cons rfl ?_ (.cons rfl trivial trivial))))))
  · intro pid i hphase _
    obtain ⟨rfl, rfl⟩ := ConnPhase.scanning.inj hphase
    decide
  · intro pid i hphase hfree
    obtain ⟨rfl, rfl⟩ := ConnPhase.scanning.inj hphase
    exact absurd hfree (by decide)
  · intro pid i hphase _
    obtain ⟨rfl, rfl⟩ := ConnPhase.scanning.inj hphase
    decide

/-- **Two connections that attach to one process** both get a session. -/
theorem sessions_not_exclusive :
    ¬ ∀ (C : Type) (_ : DecidableEq C) (k : Kernel) (events : List (PoolEvent C))
      (x : Connections C),
      LTS.exec poolStep (noSessions C k) events = some x → SessionsExclusive x := by
  intro hclaim
  have hexcl := hclaim Bool inferInstance (Kernel.quiet fun _ _ => none) (twoAttach 7#32 7#32) _ rfl
  exact absurd (hexcl.pids false true 0 1 7#32 rfl rfl) (by decide)

end VitaGdb

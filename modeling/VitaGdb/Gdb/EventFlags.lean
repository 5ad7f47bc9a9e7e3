/-
  The event flags of the workers, and the slots of the session pool that name them.

  A worker owns its event flag from `EventFlag::new` to the end of its thread; its target and its
  connection hold references, which are bare ids, and so does the slot of the pool that the target
  owns.  Exception handlers load the flag of a slot and then set it.  Here a callback is one step,
  so what is said is that a slot names an existing flag at every moment between the steps; a worker
  that lets go of its slot between a handler's load and its set is not covered.

  Spec, over every run of the server:
    * no flag is deleted that does not exist, and the existing ones are those of the workers, one
      each, and those whose deletion failed                        — `evflags_held`;
    * the flag that a slot names exists, and is that of the worker whose target owns the slot, in
      every run in which nobody attaches to process -1             — `slot_evflags_exist`.

  Crux: a call of the target either keeps its slot, or resets it and has none, or claims a slot that
  looks free and stores its own flag there (`SlotMove`); the locals of `gdb_thread` are dropped in
  an order in which the target comes before the flag.  Process -1 is the mark of a free slot, so a
  slot claimed for it would look free to the next worker.
-/
import VitaGdb.Gdb.Server

namespace VitaGdb

open GdbSessionInner HandleTable

variable {C : Type} [DecidableEq C]

/-! ## The flags of the workers -/

/-- The event flag each worker has. -/
def evflagHolds (x : Server C) (c : C) : Option SceUID := (x.threads c).bind GdbThread.evflag

/-- What a dropped flag leaves behind. -/
def EventFlag.lost (e : EventFlag) (answer : I32) : Option SceUID :=
  if e.deletes answer then none else some e.evfid

/-- The event flag an event leaves behind. -/
def lostEvflag (x : Server C) : ServerEvent C → Option SceUID
  | .newConn c create start built _ delete =>
    match x.threads c with
    | some (.flagged socket evflag) =>
      match (LiveConn.new x.connPool socket.raw evflag.asRef create start).1, built with
      | .ok _, true => none
      | _, _ => evflag.lost delete
    | _ => none
  | .dropEvflag c delete =>
    match x.threads c with
    | some (.dropped evflag) => evflag.lost delete
    | _ => none
  | _ => none

/-- The existing event flags are the held ones and those left behind, and none was deleted that did
    not exist. -/
def EvflagsHeld (x : Server C) (lost : List SceUID) : Prop := Ledger x.evflags (evflagHolds x) lost

/-- A worker moves on. -/
theorem evflagHolds_worker {x z : Server C} {c : C} (th : Option GdbThread)
    (hthreads : z.threads = Function.update x.threads c th) :
    evflagHolds z = Function.update (evflagHolds x) c (th.bind GdbThread.evflag) := by
  funext d
  by_cases hd : d = c
  · subst hd
    simp [evflagHolds, hthreads]
  · simp [evflagHolds, hthreads, hd]

namespace EvflagsHeld

variable {x y : Server C} {lost : List SceUID}

/-- A worker goes on with its flag, or without one. -/
theorem workerGoes (h : EvflagsHeld x lost) {z : Server C} {c : C} {th : Option GdbThread}
    (hsame : th.bind GdbThread.evflag = (x.threads c).bind GdbThread.evflag)
    (hevflags : z.evflags = x.evflags) (hthreads : z.threads = Function.update x.threads c th) :
    EvflagsHeld z lost := by
  rw [EvflagsHeld, hevflags, evflagHolds_worker th hthreads, hsame]
  show Ledger x.evflags (Function.update _ c (evflagHolds x c)) lost
  rw [Function.update_eq_self]
  exact h

/-- A worker drops its flag: the flag is deleted, or left behind. -/
theorem workerDrops (h : EvflagsHeld x lost) {z : Server C} {c : C} {evflag : EventFlag}
    {delete : I32} (hown : (x.threads c).bind GdbThread.evflag = some evflag.evfid)
    (hevflags : z.evflags = evflag.drop x.evflags delete)
    (hthreads : z.threads = Function.update x.threads c none) :
    EvflagsHeld z (lost ++ (evflag.lost delete).toList) := by
  have hown' : evflagHolds x c = some evflag.evfid := hown
  rw [EvflagsHeld, hevflags, evflagHolds_worker none hthreads, EventFlag.drop, EventFlag.delete,
    EventFlag.lost]
  split
  · rw [Option.toList_none, List.append_nil]
    exact Ledger.take h hown'
  · rw [Option.toList_some]
    exact Ledger.abandon h hown'

/-- **Every event keeps the account of the event flags.** -/
theorem step (h : EvflagsHeld x lost) {e : ServerEvent C} (hs : serverStep x e = some y) :
    EvflagsHeld y (lost ++ (lostEvflag x e).toList) := by
  -- the events that leave no flag behind
  have hkept : ∀ {z : Server C}, EvflagsHeld z lost → EvflagsHeld z (lost ++ []) := fun hz => by
    rwa [List.append_nil]
  cases serverStep_effect hs with
  | listened | notAccepted | calledBack => exact hkept h
  | accepted c a create start close fd hthread =>
    refine hkept (h.workerGoes ?_ rfl rfl)
    rw [hthread]
    cases (handleConnection (x.sockets.give fd) ⟨fd⟩ create start close).1 <;> rfl
  | noEvflag c answer close socket hthread =>
    exact hkept (h.workerGoes (by rw [hthread]; rfl) rfl rfl)
  | evflag c answer close socket hthread hfresh =>
    have hidle : evflagHolds x c = none := by rw [evflagHolds, hthread]; rfl
    apply hkept
    rw [EvflagsHeld, evflagHolds_worker (some (.flagged socket ⟨answer⟩)) rfl]
    exact Ledger.give h hfresh hidle
  | noConn c create start built close delete socket evflag err pool hthread hnew =>
    have hlost : lostEvflag x (.newConn c create start built close delete) = evflag.lost delete := by
      simp only [lostEvflag, hthread, hnew]
    rw [hlost]
    exact h.workerDrops (by rw [hthread]; rfl) rfl rfl
  | noStub c create start close delete socket evflag conn pool hthread hnew =>
    have hlost : lostEvflag x (.newConn c create start false close delete) = evflag.lost delete := by
      simp only [lostEvflag, hthread, hnew]
    rw [hlost]
    exact h.workerDrops (by rw [hthread]; rfl) rfl rfl
  | conn c create start close delete socket evflag conn pool hthread hnew =>
    have hlost : lostEvflag x (.newConn c create start true close delete) = none := by
      simp only [lostEvflag, hthread, hnew]
    rw [hlost]
    exact hkept (h.workerGoes (by rw [hthread]; rfl) rfl rfl)
  | served c call conn evflag target hthread =>
    exact hkept (h.workerGoes (by rw [hthread]; rfl) rfl rfl)
  | ended c close conn evflag target hthread =>
    exact hkept (h.workerGoes (by rw [hthread]; rfl) rfl rfl)
  | droppedTarget c evflag target hthread =>
    exact hkept (h.workerGoes (by rw [hthread]; rfl) rfl rfl)
  | droppedEvflag c delete evflag hthread =>
    have hlost : lostEvflag x (.dropEvflag c delete) = evflag.lost delete := by
      simp only [lostEvflag, hthread]
    rw [hlost]
    exact h.workerDrops (by rw [hthread]; rfl) rfl rfl

end EvflagsHeld

/-- What exists after a run: `lost` are the flags whose deletion failed. -/
structure EvflagsAccounted (x : Server C) (lost : List SceUID) : Prop where
  /-- Nothing was deleted that did not exist. -/
  mistakes : x.evflags.mistakes = 0
  existsIff : ∀ evfid, x.evflags.used evfid = true ↔
    (∃ c, (x.threads c).bind GdbThread.evflag = some evfid) ∨ evfid ∈ lost
  single : ∀ c c' evfid, (x.threads c).bind GdbThread.evflag = some evfid →
    (x.threads c').bind GdbThread.evflag = some evfid → c = c'
  apart : ∀ c evfid, (x.threads c).bind GdbThread.evflag = some evfid → evfid ∉ lost

omit [DecidableEq C] in
theorem EvflagsHeld.accounted {x : Server C} {lost : List SceUID} (h : EvflagsHeld x lost) :
    EvflagsAccounted x lost where
  mistakes := h.mistakes
  existsIff := Ledger.used_iff h
  single := fun _ _ _ hc hc' => Ledger.single h hc hc'
  apart := fun _ _ hc => Ledger.apart h hc

omit [DecidableEq C] in
theorem EvflagsHeld.start (k : Kernel) : EvflagsHeld (Server.start k : Server C) [] := Ledger.start

/-- **The event flags, over every run.** -/
theorem evflags_held (k : Kernel) (es : List (ServerEvent C)) {y : Server C}
    (hrun : LTS.exec serverStep (Server.start k) es = some y) :
    EvflagsAccounted y (LTS.trace serverStep lostEvflag (Server.start k) es) := by
  have hend := LTS.exec_traced (fun x e y ls (hx : EvflagsHeld x ls) hs => hx.step hs) es
    (EvflagsHeld.start k) hrun
  rw [List.nil_append] at hend
  exact hend.accounted

/-- The server listens on 5, accepts 6, and its worker makes the event flag 9 and attaches to 7. -/
def oneWorker : List (ServerEvent Unit) :=
  [.listen ⟨5, 0, 0⟩, .accept () ⟨6, 0⟩ 20 0 0, .newEvflag () 9 0, .newConn () 21 0 true 0 0,
    .serve () (.attach 7)]

/-- The worker ends, and the deletion of its flag fails. -/
def oneWorkerEnds : List (ServerEvent Unit) :=
  oneWorker ++ [.endSession () 0, .dropTarget (), .dropEvflag () (-1)]

/-- The flag is left behind. -/
theorem evflags_held_oneWorkerEnds :
    ∃ y, LTS.exec serverStep (Server.start (Kernel.quiet fun _ _ => none)) oneWorkerEnds = some y ∧
      EvflagsAccounted y [9] := by
  have hrun : ∃ y,
      LTS.exec serverStep (Server.start (Kernel.quiet fun _ _ => none)) oneWorkerEnds = some y :=
    ⟨_, rfl⟩
  obtain ⟨y, hy⟩ := hrun
  have hlost : LTS.trace serverStep lostEvflag (Server.start (Kernel.quiet fun _ _ => none))
      oneWorkerEnds = [9] := rfl
  have hheld := evflags_held _ oneWorkerEnds hy
  rw [hlost] at hheld
  exact ⟨y, hy, hheld⟩

/-! ## The flag a slot names -/

/-- A session call keeps the event flag of its slot: only `new` and `reset` store it. -/
theorem sessionCall_evflag (s : GdbSessionInner) (k : Kernel) (call : SessionCall) :
    (sessionCall s k call).1.evflag = s.evflag := by
  have hw : ∀ {s' : GdbSessionInner}, s.HwOnly s' → s'.evflag = s.evflag := by
    rintro s' ⟨_, _, rfl⟩
    rfl
  cases call with
  | setSwBreakpoint addr kind => exact (setSwBreakpoint_swOnly s k addr kind).evflag
  | clearSwBreakpoint addr => exact (clearSwBreakpoint_swOnly s k addr).evflag
  | setHwBreakpoint addr => exact hw (setHwBreakpoint_frame s k addr).1
  | clearHwBreakpoint addr => exact hw (clearHwBreakpoint_frame s k addr).1
  | setHwWatchpoint addr len kind => exact hw (setHwWatchpoint_frame s k addr len kind).1
  | clearHwWatchpoint addr => exact hw (clearHwWatchpoint_frame s k addr).1
  | stepFinished =>
    show (s.stepFinished k).2.1.evflag = s.evflag
    cases hstep : s.step with
    | none => rw [stepFinished_none hstep]
    | some step =>
      obtain ⟨tid, addr⟩ := step
      rw [stepFinished_some hstep]
      exact (clearSwBreakpoint_swOnly { s with step := none } k addr).evflag
  | pushExcp event =>
    obtain ⟨r, hr⟩ := (pushExcp_frame s k event).1
    show (s.pushExcp k event).1.evflag = s.evflag
    rw [hr]
  | pushExited =>
    show (s.pushExited k).1.evflag = s.evflag
    unfold pushExited
    split <;> rfl
  | setStep tid addr => rfl
  | popExited => rfl
  | popStepFinished => rfl
  | popExcp => rfl
  | clearAll => rfl

/-- **What a target does with its slot**: it keeps it, or resets it and has none, or claims one that
    looks free and stores its flag there. -/
inductive SlotMove (flag : EventFlagRef) :
    Option (Fin 4) × SessionPool → Option (Fin 4) × SessionPool → Prop where
  | keep {session : Option (Fin 4)} {pool pool' : SessionPool}
      (hpid : ∀ j, (pool' j).pid = (pool j).pid)
      (hflag : ∀ j, (pool' j).evflag = (pool j).evflag) :
    SlotMove flag (session, pool) (session, pool')
  | release {i : Fin 4} {pool : SessionPool} {s : GdbSessionInner} (hflag : s.evflag = none) :
    SlotMove flag (some i, pool) (none, Function.update pool i s)
  | claim {i : Fin 4} {pool : SessionPool} {s : GdbSessionInner}
      (hfree : (pool i).pid = pidUnused) (hpid : s.pid ≠ pidUnused) (hflag : s.evflag = some flag) :
    SlotMove flag (none, pool) (some i, Function.update pool i s)

theorem SlotMove.refl (flag : EventFlagRef) (x : Option (Fin 4) × SessionPool) :
    SlotMove flag x x := .keep (fun _ => rfl) (fun _ => rfl)

/-- A call on one slot that keeps its pid and its flag. -/
theorem SlotMove.put {flag : EventFlagRef} {session : Option (Fin 4)} {w : World} {i : Fin 4}
    {s : GdbSessionInner} {k : Kernel} (hpid : s.pid = (w.pool i).pid)
    (hflag : s.evflag = (w.pool i).evflag) :
    SlotMove flag (session, w.pool) (session, (w.put i s k).pool) := by
  refine .keep (fun j => ?_) (fun j => ?_)
  · by_cases hj : j = i
    · rw [hj, World.put_pool_self, hpid]
    · exact congrArg GdbSessionInner.pid (Function.update_of_ne hj _ _)
  · by_cases hj : j = i
    · rw [hj, World.put_pool_self, hflag]
    · exact congrArg GdbSessionInner.evflag (Function.update_of_ne hj _ _)

/-- `detach` resets the slot, or there is none. -/
theorem detach_moves (t : VitaTarget) (w : World) :
    (t.detach w).1.evflag = t.evflag ∧
      SlotMove t.evflag (t.session, w.pool) ((t.detach w).1.session, (t.detach w).2.pool) ∧
      (t.detach w).1.session = none := by
  rw [VitaTarget.detach]
  split
  · next hnone => exact ⟨rfl, SlotMove.refl _ _, hnone⟩
  · next i hsome =>
    rw [hsome]
    exact ⟨rfl, .release rfl, rfl⟩

/-- `attach` claims a slot that looks free, or none. -/
theorem attach_moves (t : VitaTarget) (w : World) {pid : SceUID} (hpid : pid ≠ pidUnused)
    (kind : AttachKind) :
    (t.attach w pid kind).2.1.evflag = t.evflag ∧
      SlotMove t.evflag (t.session, w.pool)
        ((t.attach w pid kind).2.1.session, (t.attach w pid kind).2.2.pool) := by
  rw [VitaTarget.attach]
  split
  · exact ⟨rfl, SlotMove.refl _ _⟩
  · next hnone =>
    rw [Option.not_isSome_iff_eq_none] at hnone
    rw [GdbSession.new]
    cases hslot : w.pool.slotOf pidUnused with
    | none => exact ⟨rfl, SlotMove.refl _ _⟩
    | some i =>
      rw [hnone]
      exact ⟨rfl, .claim (SessionPool.slotOf_some hslot) hpid rfl⟩

/-- The process that a call attaches to has an id that no free slot holds. -/
def ServeCall.Names : ServeCall → Prop
  | .attach newPid => newPid ≠ pidUnused
  | .run pid _ => pid ≠ pidUnused
  | .session _ => True

/-- **A call of the target** is a row of such moves. -/
theorem serveCall_moves (t : VitaTarget) (w : World) (call : ServeCall) (hnames : call.Names) :
    (serveCall t w call).1.evflag = t.evflag ∧
      Relation.ReflTransGen (SlotMove t.evflag) (t.session, w.pool)
        ((serveCall t w call).1.session, (serveCall t w call).2.pool) := by
  obtain ⟨hflag, hdetach, -⟩ := detach_moves t w
  cases call with
  | attach newPid =>
    obtain ⟨hflag', hattach⟩ := attach_moves (t.detach w).1 (t.detach w).2 hnames .attach
    rw [hflag] at hflag' hattach
    have hboth := (Relation.ReflTransGen.single hdetach).tail hattach
    rw [serveCall, VitaTarget.extendedAttach]
    split
    · exact ⟨rfl, .refl⟩
    · dsimp only
      split
      · next t₁ w₁ heq =>
        rw [heq] at hflag' hboth
        exact ⟨hflag', hboth⟩
      · next t₁ w₁ heq =>
        rw [heq] at hflag' hboth
        split <;> exact ⟨hflag', hboth⟩
  | run pid started =>
    obtain ⟨hflag', hattach⟩ := attach_moves (t.detach w).1 (t.detach w).2 hnames .run
    rw [hflag] at hflag' hattach
    have hboth := (Relation.ReflTransGen.single hdetach).tail hattach
    rw [serveCall, VitaTarget.runLaunched]
    dsimp only
    split
    · next t₁ w₁ heq =>
      rw [heq] at hflag' hboth
      exact ⟨hflag', hboth⟩
    · next t₁ w₁ heq =>
      rw [heq] at hflag' hboth
      split
      · exact ⟨hflag', hboth⟩
      · obtain ⟨hflag₂, hdetach₂, -⟩ := detach_moves t₁ w₁
        dsimp only at hflag'
        rw [hflag'] at hflag₂ hdetach₂
        exact ⟨hflag₂, hboth.tail hdetach₂⟩
  | session call =>
    rw [serveCall]
    split
    · exact ⟨rfl, .refl⟩
    · next i hsome =>
      exact ⟨rfl, .single (SlotMove.put (sessionCall_pid _ _ call) (sessionCall_evflag _ _ call))⟩

/-! ## Slots and their targets -/

/-- The slot and the event flag of each target. -/
abbrev TargetView (C : Type) := C → Option (Option (Fin 4) × EventFlagRef)

/-- A slot that a target owns names the flag of the target, and no other slot names one. -/
structure SlotsFlagged (pool : SessionPool) (view : TargetView C) : Prop where
  owned : ∀ c i flag, view c = some (some i, flag) →
    (pool i).pid ≠ pidUnused ∧ (pool i).evflag = some flag
  flagged : ∀ i flag, (pool i).evflag = some flag → ∃ c, view c = some (some i, flag)

namespace SlotsFlagged

variable {pool pool' : SessionPool} {view : TargetView C} {c : C} {flag : EventFlagRef}
  {s s' : Option (Fin 4)}

omit [DecidableEq C] in
/-- A pool with the same pids and flags. -/
theorem congr (h : SlotsFlagged pool view) (hpid : ∀ j, (pool' j).pid = (pool j).pid)
    (hflag : ∀ j, (pool' j).evflag = (pool j).evflag) : SlotsFlagged pool' view := by
  refine ⟨fun d i f hd => ?_, fun i f hi => ?_⟩
  · rw [hpid, hflag]
    exact h.owned d i f hd
  · rw [hflag] at hi
    exact h.flagged i f hi

/-- **One move of one target**, where no other has its flag. -/
theorem move (h : SlotsFlagged pool view) (hc : view c = some (s, flag))
    (hsingle : ∀ d s, view d = some (s, flag) → d = c)
    (hmove : SlotMove flag (s, pool) (s', pool')) :
    SlotsFlagged pool' (Function.update view c (some (s', flag))) := by
  cases hmove with
  | keep hpid hflag =>
    have hsame : Function.update view c (some (s, flag)) = view := by
      rw [← hc, Function.update_eq_self]
    rw [hsame]
    exact h.congr hpid hflag
  | @release i _ r hflag =>
    refine ⟨fun d j f hd => ?_, fun j f hj => ?_⟩
    · have hdc : d ≠ c := by
        rintro rfl
        rw [Function.update_self] at hd
        exact absurd hd (by simp)
      rw [Function.update_of_ne hdc] at hd
      have hji : j ≠ i := by
        rintro rfl
        -- the slot names the flag of its owner, which this target alone has
        have hf := (h.owned d j f hd).2.symm.trans (h.owned c j flag hc).2
        exact hdc (hsingle d (some j) (Option.some.inj hf ▸ hd))
      rw [Function.update_of_ne hji]
      exact h.owned d j f hd
    · by_cases hji : j = i
      · subst hji
        rw [Function.update_self, hflag] at hj
        exact absurd hj (by simp)
      · rw [Function.update_of_ne hji] at hj
        obtain ⟨d, hd⟩ := h.flagged j f hj
        have hdc : d ≠ c := by
          rintro rfl
          rw [hc] at hd
          exact hji (by simpa using (congrArg (fun v => v.map Prod.fst) hd).symm)
        exact ⟨d, by rwa [Function.update_of_ne hdc]⟩
  | @claim i _ r hfree hpid hflag =>
    refine ⟨fun d j f hd => ?_, fun j f hj => ?_⟩
    · by_cases hdc : d = c
      · subst hdc
        rw [Function.update_self, Option.some.injEq, Prod.mk.injEq, Option.some.injEq] at hd
        obtain ⟨rfl, rfl⟩ := hd
        rw [Function.update_self]
        exact ⟨hpid, hflag⟩
      · rw [Function.update_of_ne hdc] at hd
        have hji : j ≠ i := by
          rintro rfl
          exact (h.owned d j f hd).1 hfree
        rw [Function.update_of_ne hji]
        exact h.owned d j f hd
    · by_cases hji : j = i
      · subst hji
        rw [Function.update_self, hflag] at hj
        exact ⟨c, by rw [Function.update_self, ← Option.some.inj hj]⟩
      · rw [Function.update_of_ne hji] at hj
        obtain ⟨d, hd⟩ := h.flagged j f hj
        have hdc : d ≠ c := by
          rintro rfl
          rw [hc] at hd
          exact absurd hd (by simp)
        exact ⟨d, by rwa [Function.update_of_ne hdc]⟩

/-- A row of moves of one target. -/
theorem moves (h : SlotsFlagged pool view) (hc : view c = some (s, flag))
    (hsingle : ∀ d s, view d = some (s, flag) → d = c) {x : Option (Fin 4) × SessionPool}
    (hmoves : Relation.ReflTransGen (SlotMove flag) (s, pool) x) :
    SlotsFlagged x.2 (Function.update view c (some (x.1, flag))) := by
  induction hmoves with
  | refl =>
    show SlotsFlagged pool (Function.update view c (some (s, flag)))
    rw [← hc, Function.update_eq_self]
    exact h
  | @tail y z _ hmove ih =>
    have hnext := ih.move (Function.update_self ..) ?_ hmove
    · rwa [Function.update_idem] at hnext
    · intro d r hd
      by_cases hdc : d = c
      · exact hdc
      · rw [Function.update_of_ne hdc] at hd
        exact hsingle d r hd

/-- A target without a slot comes or goes. -/
theorem without (h : SlotsFlagged pool view) (hc : ∀ i f, view c ≠ some (some i, f))
    {v : Option (Option (Fin 4) × EventFlagRef)} (hv : ∀ i f, v ≠ some (some i, f)) :
    SlotsFlagged pool (Function.update view c v) := by
  refine ⟨fun d i f hd => ?_, fun i f hi => ?_⟩
  · by_cases hdc : d = c
    · subst hdc
      rw [Function.update_self] at hd
      exact absurd hd (hv i f)
    · rw [Function.update_of_ne hdc] at hd
      exact h.owned d i f hd
  · obtain ⟨d, hd⟩ := h.flagged i f hi
    have hdc : d ≠ c := by
      rintro rfl
      exact hc i f hd
    exact ⟨d, by rwa [Function.update_of_ne hdc]⟩

end SlotsFlagged

/-! ## The server -/

/-- The slot and the event flag of the target a thread has. -/
def GdbThread.view (th : GdbThread) : Option (Option (Fin 4) × EventFlagRef) :=
  th.target.map fun t => (t.session, t.evflag)

/-- The targets of the workers. -/
def Server.views (x : Server C) : TargetView C := fun c => (x.threads c).bind GdbThread.view

theorem views_worker {x z : Server C} {c : C} (th : Option GdbThread)
    (hthreads : z.threads = Function.update x.threads c th) :
    z.views = Function.update x.views c (th.bind GdbThread.view) := by
  funext d
  by_cases hd : d = c
  · subst hd
    simp [Server.views, hthreads]
  · simp [Server.views, hthreads, hd]

/-- Whoever attaches names a process. -/
def NamesProcess : ServerEvent C → Prop
  | .serve _ call => call.Names
  | _ => True

/-- A target has the flag of its worker, and the slots name the flags of their owners. -/
structure FlagsSound (x : Server C) (lost : List SceUID) : Prop where
  held : EvflagsHeld x lost
  own : ∀ c s flag, x.views c = some (s, flag) →
    (x.threads c).bind GdbThread.evflag = some flag.evfid
  slots : SlotsFlagged x.world.pool x.views

namespace FlagsSound

variable {x y : Server C} {lost : List SceUID}

omit [DecidableEq C] in
/-- No other target has the flag of this one. -/
theorem single (h : FlagsSound x lost) {c : C} {s : Option (Fin 4)} {flag : EventFlagRef}
    (hc : x.views c = some (s, flag)) (d : C) (r : Option (Fin 4))
    (hd : x.views d = some (r, flag)) : d = c :=
  Ledger.single h.held (h.own d r flag hd) (h.own c s flag hc)

/-- A worker moves on, with the flag that its target has. -/
theorem own_worker (h : FlagsSound x lost) {z : Server C} {c : C} {th : Option GdbThread}
    (hthreads : z.threads = Function.update x.threads c th)
    (hth : ∀ s flag, th.bind GdbThread.view = some (s, flag) →
      th.bind GdbThread.evflag = some flag.evfid) :
    ∀ d s flag, z.views d = some (s, flag) →
      (z.threads d).bind GdbThread.evflag = some flag.evfid := by
  intro d s flag hd
  rw [views_worker th hthreads] at hd
  rw [hthreads]
  by_cases hdc : d = c
  · subst hdc
    rw [Function.update_self] at hd ⊢
    exact hth s flag hd
  · rw [Function.update_of_ne hdc] at hd ⊢
    exact h.own d s flag hd

/-- A worker that has no slot, before and after. -/
theorem worker (h : FlagsSound x lost) {z : Server C} {lost' : List SceUID} {c : C}
    {th : Option GdbThread} (hheld : EvflagsHeld z lost')
    (hthreads : z.threads = Function.update x.threads c th) (hworld : z.world = x.world)
    (hbefore : ∀ i f, (x.threads c).bind GdbThread.view ≠ some (some i, f))
    (hafter : ∀ i f, th.bind GdbThread.view ≠ some (some i, f))
    (hth : ∀ s flag, th.bind GdbThread.view = some (s, flag) →
      th.bind GdbThread.evflag = some flag.evfid) : FlagsSound z lost' := by
  refine ⟨hheld, h.own_worker hthreads hth, ?_⟩
  rw [views_worker th hthreads, hworld]
  exact h.slots.without hbefore hafter

/-- A worker that has no target, before and after. -/
theorem plain (h : FlagsSound x lost) {z : Server C} {lost' : List SceUID} {c : C}
    {th : Option GdbThread} (hheld : EvflagsHeld z lost')
    (hthreads : z.threads = Function.update x.threads c th) (hworld : z.world = x.world)
    (hbefore : (x.threads c).bind GdbThread.view = none)
    (hafter : th.bind GdbThread.view = none) : FlagsSound z lost' := by
  refine h.worker hheld hthreads hworld ?_ ?_ ?_
  · rw [hbefore]
    exact fun _ _ heq => absurd heq (by simp)
  · rw [hafter]
    exact fun _ _ heq => absurd heq (by simp)
  · rw [hafter]
    exact fun _ _ heq => absurd heq (by simp)

/-- A worker with a target moves on: the target has gone through a row of moves. -/
theorem moves (h : FlagsSound x lost) {z : Server C} {lost' : List SceUID} {c : C}
    {th th' : GdbThread} {t t' : VitaTarget} (hheld : EvflagsHeld z lost')
    (hthread : x.threads c = some th) (ht : th.target = some t) (ht' : th'.target = some t')
    (hthreads : z.threads = Function.update x.threads c (some th'))
    (hevflag : th'.evflag = th.evflag) (hflag : t'.evflag = t.evflag)
    (hmoves : Relation.ReflTransGen (SlotMove t.evflag) (t.session, x.world.pool)
      (t'.session, z.world.pool)) : FlagsSound z lost' := by
  have hc : x.views c = some (t.session, t.evflag) := by
    rw [Server.views, hthread, Option.bind_some, GdbThread.view, ht]
    rfl
  have hview : (some th').bind GdbThread.view = some (t'.session, t.evflag) := by
    rw [Option.bind_some, GdbThread.view, ht', ← hflag]
    rfl
  refine ⟨hheld, h.own_worker hthreads fun s flag hth => ?_, ?_⟩
  · have hown := h.own c t.session t.evflag hc
    rw [hthread, Option.bind_some, ← hevflag] at hown
    rw [hview, Option.some.injEq, Prod.mk.injEq] at hth
    rw [Option.bind_some, hown, hth.2]
  · rw [views_worker (some th') hthreads, hview]
    exact h.slots.moves hc (h.single hc) hmoves

/-- **Every event keeps the flags sound**, where attaching names a process. -/
theorem step (h : FlagsSound x lost) {e : ServerEvent C} (hnames : NamesProcess e)
    (hs : serverStep x e = some y) : FlagsSound y (lost ++ (lostEvflag x e).toList) := by
  have hheld := h.held.step hs
  cases serverStep_effect hs with
  | listened | notAccepted => exact ⟨hheld, h.own, h.slots⟩
  | accepted c a create start close fd hthread =>
    refine h.plain hheld rfl rfl (by rw [hthread]; rfl) ?_
    cases (handleConnection (x.sockets.give fd) ⟨fd⟩ create start close).1 <;> rfl
  | noEvflag c answer close socket hthread => exact h.plain hheld rfl rfl (by rw [hthread]; rfl) rfl
  | evflag c answer close socket hthread => exact h.plain hheld rfl rfl (by rw [hthread]; rfl) rfl
  | noConn c create start built close delete socket evflag err pool hthread =>
    exact h.plain hheld rfl rfl (by rw [hthread]; rfl) rfl
  | noStub c create start close delete socket evflag conn pool hthread =>
    exact h.plain hheld rfl rfl (by rw [hthread]; rfl) rfl
  | conn c create start close delete socket evflag conn pool hthread =>
    -- the new target has no session, and the flag of its worker
    refine h.worker hheld rfl rfl ?_ ?_ ?_
    · rw [hthread]
      exact fun _ _ heq => absurd heq (by simp [GdbThread.view, GdbThread.target])
    · exact fun _ _ heq => absurd heq (by simp [GdbThread.view, GdbThread.target, VitaTarget.new])
    · intro s flag hth
      obtain ⟨-, rfl⟩ := Prod.mk.inj (Option.some.inj hth)
      rfl
  | served c call conn evflag target hthread =>
    obtain ⟨hflag, hmoves⟩ := serveCall_moves target x.world call hnames
    exact h.moves hheld hthread rfl rfl rfl rfl hflag hmoves
  | ended c close conn evflag target hthread =>
    exact h.moves hheld hthread rfl rfl rfl rfl rfl .refl
  | droppedTarget c evflag target hthread =>
    -- the target lets go of its slot, and is gone
    obtain ⟨hflag, hmove, hsession⟩ := detach_moves target x.world
    have hc : x.views c = some (target.session, target.evflag) := by
      rw [Server.views, hthread]
      rfl
    refine ⟨hheld, h.own_worker rfl fun s flag hth => absurd hth (by simp [GdbThread.view,
      GdbThread.target]), ?_⟩
    have hslots := h.slots.move hc (h.single hc) hmove
    rw [views_worker (some (.dropped evflag)) rfl]
    rw [hsession] at hslots
    have hgone := hslots.without (c := c) (v := none)
      (by rw [Function.update_self]; exact fun _ _ heq => absurd heq (by simp))
      (fun _ _ heq => absurd heq (by simp))
    rwa [Function.update_idem] at hgone
  | droppedEvflag c delete evflag hthread =>
    exact h.plain hheld rfl rfl (by rw [hthread]; rfl) rfl
  | calledBack i call =>
    refine ⟨hheld, h.own, h.slots.congr (fun j => ?_) (fun j => ?_)⟩
    · by_cases hj : j = i
      · rw [hj, World.put_pool_self, sessionCall_pid]
      · exact congrArg GdbSessionInner.pid (Function.update_of_ne hj _ _)
    · by_cases hj : j = i
      · rw [hj, World.put_pool_self, sessionCall_evflag]
      · exact congrArg GdbSessionInner.evflag (Function.update_of_ne hj _ _)

omit [DecidableEq C] in
theorem start (k : Kernel) : FlagsSound (Server.start k : Server C) [] := by
  refine ⟨EvflagsHeld.start k, ?_, ?_, ?_⟩
  · exact fun c s flag hc => absurd hc (by simp [Server.views, Server.start])
  · exact fun c i flag hc => absurd hc (by simp [Server.views, Server.start])
  · exact fun i flag hi => absurd hi (by simp [Server.start, SessionPool.uninit, uninit])

end FlagsSound

/-- **The event flag a slot names exists**, over every run in which attaching names a process: it is
    the flag of a worker whose target owns the slot. -/
theorem slot_evflags_exist (k : Kernel) (es : List (ServerEvent C)) {y : Server C}
    (hnames : ∀ e ∈ es, NamesProcess e)
    (hrun : LTS.exec serverStep (Server.start k) es = some y) (i : Fin 4) (flag : EventFlagRef)
    (hflag : (y.world.pool i).evflag = some flag) :
    y.evflags.used flag.evfid = true ∧
      ∃ c th t, y.threads c = some th ∧ th.target = some t ∧ t.session = some i ∧
        t.evflag = flag ∧ th.evflag = some flag.evfid := by
  have hstep : ∀ (x : Server C) e z, (∃ lost, FlagsSound x lost) → NamesProcess e →
      serverStep x e = some z → ∃ lost, FlagsSound z lost := by
    rintro x e z ⟨lost, hx⟩ he hs
    exact ⟨_, hx.step he hs⟩
  obtain ⟨lost, hsound⟩ := LTS.exec_invariant hstep es ⟨[], FlagsSound.start k⟩
    (LTS.Along.of_mem es fun e he _ => hnames e he) hrun
  obtain ⟨c, hc⟩ := hsound.slots.flagged i flag hflag
  have hown := hsound.own c (some i) flag hc
  obtain ⟨th, hthread, hview⟩ := Option.bind_eq_some_iff.mp hc
  obtain ⟨t, htarget, ht⟩ := Option.map_eq_some_iff.mp hview
  obtain ⟨hsession, hevflag⟩ := Prod.mk.inj ht
  have hused : y.evflags.used flag.evfid = true :=
    (Ledger.used_iff hsound.held flag.evfid).mpr (.inl ⟨c, hown⟩)
  refine ⟨hused, c, th, t, hthread, htarget, hsession, hevflag, ?_⟩
  rwa [hthread, Option.bind_some] at hown

/-- A slot is claimed, and names the flag that the worker has made. -/
theorem slot_evflags_exist_oneWorker :
    ∃ y, LTS.exec serverStep (Server.start (Kernel.quiet fun _ _ => none)) oneWorker = some y ∧
      (y.world.pool 0).evflag = some ⟨9⟩ ∧ y.evflags.used 9 = true := by
  have hrun : ∃ y,
      LTS.exec serverStep (Server.start (Kernel.quiet fun _ _ => none)) oneWorker = some y ∧
        (y.world.pool 0).evflag = some ⟨9⟩ := ⟨_, rfl, rfl⟩
  obtain ⟨y, hy, hflag⟩ := hrun
  have hnames : ∀ e ∈ oneWorker, NamesProcess e := by
    simp [oneWorker, NamesProcess, ServeCall.Names, pidUnused]
  exact ⟨y, hy, hflag, (slot_evflags_exist _ oneWorker hnames hy 0 ⟨9⟩ hflag).1⟩

end VitaGdb

/-
  `ExtendedMode::attach` and `ExtendedMode::run` where they fail.

  Both end the session there is, claim a slot for the new process, and then have more to do that
  can fail.  `run` ends the new session where the process does not start in time; `attach` does not
  where the process cannot be halted, and neither does `run` where the process it launched has the
  id 0.  What a failed call may leave is the target as it was (`Kept`), or a target without a
  session and no slot held for it (`Gone`); `attachRuns_clean_iff` says where it does.

  `resume_process`, which ends a session, panics on a full thread list; then neither call returns.
-/
import VitaGdb.Gdb.Target
import VitaGdb.Gdb.Reuse

namespace VitaGdb

open GdbSessionInner

/-! ## `run` -/

/-- `EventFlagRef::wait_timeout`: the time-out's code, a constant of the kernel interface, is an
    `Ok` without bits. -/
def EventFlagRef.waitTimeout (e : EventFlagRef) (timedOut : I32) (k : Kernel) (bits : U32) :
    Except SceError (Option U32) × Kernel :=
  let out := k.evf e.evfid
  match k.sceCall "ksceKernelWaitEventFlag" fun k =>
      { k with evf := Function.update k.evf e.evfid (k.evf e.evfid &&& ~~~bits) } with
  | (.error err, k) => if err.code = timedOut then (.ok none, k) else (.error err, k)
  | (.ok _, k) => (.ok (some out), k)

/-- The bytes of a text. -/
def bytesOf (s : String) : List U8 := s.toUTF8.toList.map UInt8.toBitVec

/-- `executable_path`: a title id of nine bytes stands for its `eboot.bin`; the path is text, fits
    the buffer of 128 bytes with its terminator, and has no other zero in it. -/
def executablePath (filename : Option (List U8)) : Option (List U8) :=
  match filename with
  | none => none
  | some filename =>
    if ByteArray.validateUTF8 ⟨(filename.map UInt8.ofBitVec).toArray⟩ then
      let path := if filename.length = 9
        then bytesOf "ux0:app/" ++ filename ++ bytesOf "/eboot.bin" else filename
      if path.length < 128 ∧ 0#8 ∉ path then some path else none
    else none

namespace VitaTarget

/-- `resume_process` panics where the target's session is ended. -/
def DetachPanics (t : VitaTarget) (w : World) : Prop :=
  ∃ i pid, t.session = some i ∧ ((w.pool i).clearAll w.kernel).1.getPid = some pid ∧
    (((w.pool i).clearAll w.kernel).2.resumeProcess pid).1 = .panic

/-- `ExtendedMode::run`; `none` is `TargetError::NonFatal`. -/
def run (timedOut : I32) (t : VitaTarget) (w : World) (filename : Option (List U8)) :
    Option SceUID × VitaTarget × World :=
  match executablePath filename with
  | none => (none, t, w)
  | some _ =>
    match w.kernel.sceCall "ksceAppMgrLaunchAppByPath" id with
    | (.error _, k) => (none, t, { w with kernel := k })
    | (.ok pid, k) =>
      let (t, w) := t.detach { w with kernel := k }
      match t.attach w pid .run with
      | (false, t, w) => (none, t, w)
      | (true, t, w) =>
        match t.evflag.waitTimeout timedOut w.kernel evProcessStarted with
        | (.ok (some _), k) => (if pid = 0#32 then none else some pid, t, { w with kernel := k })
        | (_, k) =>
          let (t, w) := t.detach { w with kernel := k }
          (none, t, w)

end VitaTarget

/-- The wait's answer says that the process started. -/
def processStarted : Except SceError (Option U32) → Bool
  | .ok (some _) => true
  | _ => false

theorem processStarted_eq_false_iff {res : Except SceError (Option U32)} :
    processStarted res = false ↔ ∀ out, res ≠ .ok (some out) := by
  rcases res with _ | _ | out
  · simp [processStarted]
  · simp [processStarted]
  · simp [processStarted]

/-! ## Failed calls -/

/-- The two calls of the protocol that begin a session. -/
inductive AttachCall where
  | attach (newPid : SceUID)
  | run (filename : Option (List U8))

/-- The target and the world after a call. -/
def attachCall (timedOut : I32) (t : VitaTarget) (w : World) : AttachCall → VitaTarget × World
  | .attach newPid => (t.extendedAttach w newPid).2
  | .run filename => (t.run timedOut w filename).2

/-- The places where the call ends a session. -/
def AttachCall.detaches (timedOut : I32) (t : VitaTarget) (w : World) :
    AttachCall → List (VitaTarget × World)
  | .attach newPid => if newPid = 1#32 ∨ newPid = 0x10005#32 then [] else [(t, w)]
  | .run filename =>
    match executablePath filename, w.kernel.sceCall "ksceAppMgrLaunchAppByPath" id with
    | some _, (.ok pid, k) =>
      (t, { w with kernel := k }) ::
        match (t.detach { w with kernel := k }).1.attach (t.detach { w with kernel := k }).2 pid
          .run with
        | (false, _, _) => []
        | (true, t, w) =>
          match t.evflag.waitTimeout timedOut w.kernel evProcessStarted with
          | (.ok (some _), _) => []
          | (_, k) => [(t, { w with kernel := k })]
    | _, _ => []

/-- The call returns, and with `Err`. -/
def ReturnsErr (timedOut : I32) (t : VitaTarget) (w : World) (call : AttachCall) : Prop :=
  (∀ x ∈ call.detaches timedOut t w, ¬ x.1.DetachPanics x.2) ∧
    match call with
    | .attach newPid => (t.extendedAttach w newPid).1 = false
    | .run filename => (t.run timedOut w filename).1 = none

/-- The target and the sessions of the pool are as before. -/
def Kept (t : VitaTarget) (w : World) (y : VitaTarget × World) : Prop :=
  y.1 = t ∧ y.2.pool = w.pool

/-- The target has no session, and every slot that is held was held before by another. -/
structure Gone (t : VitaTarget) (pool : SessionPool) (y : VitaTarget × World) : Prop where
  session : y.1.session = none
  pid : y.1.getPid y.2.pool = none
  slots : ∀ i, (y.2.pool i).pid ≠ pidUnused → (pool i).pid ≠ pidUnused ∧ t.session ≠ some i

/-- A call that returns `Err` leaves the session there was, or none. -/
def FailsClean (timedOut : I32) (t : VitaTarget) (w : World) (call : AttachCall) : Prop :=
  ReturnsErr timedOut t w call →
    Kept t w (attachCall timedOut t w call) ∨ Gone t w.pool (attachCall timedOut t w call)

/-! ## Ending a session and claiming a slot -/

/-- A slot after its session was dropped. -/
def released (s : GdbSessionInner) : GdbSessionInner :=
  { uninit with stepResult := s.stepResult, exceptions := s.exceptions.clear.2 }

/-- The pool after the target's session was dropped. -/
def VitaTarget.releasedPool (t : VitaTarget) (pool : SessionPool) : SessionPool :=
  match t.session with
  | none => pool
  | some i => Function.update pool i (released (pool i))

namespace VitaTarget

variable {t : VitaTarget} {w : World}

theorem detach_session (t : VitaTarget) (w : World) : (t.detach w).1.session = none := by
  rw [detach]
  cases h : t.session with
  | none => exact h
  | some i => rfl

theorem detach_pool (t : VitaTarget) (w : World) : (t.detach w).2.pool = t.releasedPool w.pool := by
  rw [detach, releasedPool]
  cases t.session with
  | none => rfl
  | some i => rfl

/-- No slot is free once the target's session is dropped. -/
def NoSlot (t : VitaTarget) (w : World) : Prop := (t.releasedPool w.pool).slotOf pidUnused = none

theorem detach_evflag (t : VitaTarget) (w : World) : (t.detach w).1.evflag = t.evflag := by
  rw [detach]
  cases t.session <;> rfl

/-- The wait behind a `detach` is on the target's flag. -/
theorem detach_waitTimeout {timedOut : I32} {out : Option U32}
    (hout : (t.evflag.waitTimeout timedOut (t.detach w).2.kernel evProcessStarted).1 = .ok out) :
    ∃ k₁, (t.detach w).1.evflag.waitTimeout timedOut (t.detach w).2.kernel evProcessStarted =
      (.ok out, k₁) := by
  rw [detach_evflag]
  exact ⟨_, Prod.ext hout rfl⟩

/-- A slot held after the target's session was dropped is another's. -/
theorem releasedPool_held {pool : SessionPool} {i : Fin 4}
    (hi : (t.releasedPool pool i).pid ≠ pidUnused) :
    (pool i).pid ≠ pidUnused ∧ t.session ≠ some i := by
  rw [releasedPool] at hi
  cases hsession : t.session with
  | none =>
    rw [hsession] at hi
    exact ⟨hi, by simp⟩
  | some j =>
    rw [hsession] at hi
    dsimp only at hi
    by_cases hij : i = j
    · rw [hij, Function.update_self] at hi
      exact absurd rfl hi
    · rw [Function.update_of_ne hij] at hi
      exact ⟨hi, fun h => hij (Option.some.inj h).symm⟩

/-- **Ending the session there is** leaves none. -/
theorem detach_gone (t : VitaTarget) (w : World) : Gone t w.pool (t.detach w) where
  session := detach_session t w
  pid := by rw [getPid, detach_session]; rfl
  slots := by
    intro i hi
    rw [detach_pool] at hi
    exact releasedPool_held hi

/-- Ending the session that has just taken a slot gives the slot back. -/
theorem detach_claimed_gone {i : Fin 4} {s : GdbSessionInner} {t' : VitaTarget} {w' : World}
    (hsession : t'.session = some i)
    (hpool : w'.pool = Function.update (t.releasedPool w.pool) i s) :
    Gone t w.pool (t'.detach w') where
  session := detach_session t' w'
  pid := by rw [getPid, detach_session]; rfl
  slots := by
    intro j hj
    obtain ⟨hheld, hother⟩ := (detach_gone t' w').slots j hj
    have hij : j ≠ i := fun h => hother (by rw [hsession, h])
    rw [hpool, Function.update_of_ne hij] at hheld
    exact releasedPool_held hheld

/-- Claiming a slot for the process, after the session there was. -/
theorem attach_detached (t : VitaTarget) (w : World) (pid : SceUID) (kind : AttachKind) :
    (t.NoSlot w ∧ (t.detach w).1.attach (t.detach w).2 pid kind =
      (false, (t.detach w).1, (t.detach w).2)) ∨
    ∃ i, (t.releasedPool w.pool).slotOf pidUnused = some i ∧
      (t.detach w).1.attach (t.detach w).2 pid kind =
        (true, { (t.detach w).1 with session := some i, detached := false, attachKind := kind },
          ⟨Function.update (t.releasedPool w.pool) i
            (claimed (t.releasedPool w.pool i) pid t.evflag), (t.detach w).2.kernel⟩) := by
  have hattach : (t.detach w).1.attach (t.detach w).2 pid kind =
      match (t.releasedPool w.pool).slotOf pidUnused with
      | none => (false, (t.detach w).1, (t.detach w).2)
      | some i =>
        (true, { (t.detach w).1 with session := some i, detached := false, attachKind := kind },
          ⟨Function.update (t.releasedPool w.pool) i
            (claimed (t.releasedPool w.pool i) pid t.evflag), (t.detach w).2.kernel⟩) := by
    rw [attach, if_neg (by rw [detach_session]; simp), GdbSession.new, detach_pool]
    cases (t.releasedPool w.pool).slotOf pidUnused with
    | none => rfl
    | some i => simp only [detach_evflag, claimed]
  rw [hattach, NoSlot]
  cases (t.releasedPool w.pool).slotOf pidUnused with
  | none => exact .inl ⟨rfl, rfl⟩
  | some i => exact .inr ⟨i, rfl, rfl⟩

/-- The claimed slot is the one that was dropped, and the session in it is again the one there
    was. -/
def Reattaches (t : VitaTarget) (w : World) (pid : SceUID) (kind : AttachKind) : Prop :=
  ∃ i, t.session = some i ∧ (t.releasedPool w.pool).slotOf pidUnused = some i ∧
    t.detached = false ∧ t.attachKind = kind ∧
    claimed (released (w.pool i)) pid t.evflag = w.pool i

/-- What claiming a slot leaves is as before where the session is the same again; it is never
    without a session. -/
theorem attached_clean_iff {pid : SceUID} {kind : AttachKind} {i : Fin 4}
    (hslot : (t.releasedPool w.pool).slotOf pidUnused = some i) {y : VitaTarget × World}
    (ht : y.1 = { (t.detach w).1 with session := some i, detached := false, attachKind := kind })
    (hpool : y.2.pool = Function.update (t.releasedPool w.pool) i
      (claimed (t.releasedPool w.pool i) pid t.evflag)) :
    Kept t w y ∨ Gone t w.pool y ↔ t.Reattaches w pid kind := by
  constructor
  · -- the target has a session, so it is that of before, in the slot it was dropped from
    rintro (⟨hsame, hpools⟩ | hgone)
    · rw [ht] at hsame
      have hsession : some i = t.session := congrArg session hsame
      have hrel : t.releasedPool w.pool = Function.update w.pool i (released (w.pool i)) := by
        rw [releasedPool, ← hsession]
      refine ⟨i, hsession.symm, hslot, (congrArg detached hsame).symm,
        (congrArg attachKind hsame).symm, ?_⟩
      rw [hpool] at hpools
      have hi := congrFun hpools i
      rwa [Function.update_self, hrel, Function.update_self] at hi
    · have hsome := hgone.session
      rw [ht] at hsome
      exact absurd hsome (by simp)
  · rintro ⟨i', hsession, hslot', hdetached, hkind, hsame⟩
    obtain rfl := Option.some.inj (hslot.symm.trans hslot')
    have hrel : t.releasedPool w.pool = Function.update w.pool i (released (w.pool i)) := by
      rw [releasedPool, hsession]
    refine .inl ⟨?_, ?_⟩
    · rw [ht, detach, hsession]
      obtain ⟨session, evflag, detached, attachKind, stepAction, continueActions, schedulerLock,
        hle⟩ := t
      dsimp only at hsession hdetached hkind
      subst hsession hdetached hkind
      rfl
    · rw [hpool, hrel, Function.update_self, Function.update_idem, hsame, Function.update_eq_self]

/-! ## `attach` -/

/-- The process is refused, the session there is cannot be ended, no slot is free, the process is
    halted, or the session is the same again. -/
def AttachClean (t : VitaTarget) (w : World) (newPid : SceUID) : Prop :=
  (newPid = 1#32 ∨ newPid = 0x10005#32) ∨ t.DetachPanics w ∨ t.NoSlot w ∨
    (∃ tid, ((t.detach w).2.kernel.haltProcess newPid).1 = .ok tid) ∨
    t.Reattaches w newPid .attach

theorem attach_clean_iff (timedOut : I32) (t : VitaTarget) (w : World) (newPid : SceUID) :
    FailsClean timedOut t w (.attach newPid) ↔ t.AttachClean w newPid := by
  by_cases hrefused : newPid = 1#32 ∨ newPid = 0x10005#32
  · have hsame : (t.extendedAttach w newPid).2 = (t, w) := by
      rw [extendedAttach, if_pos (by simpa using hrefused)]
    refine iff_of_true (fun _ => .inl ?_) (.inl hrefused)
    rw [attachCall, hsame]
    exact ⟨rfl, rfl⟩
  have hdetaches : (AttachCall.attach newPid).detaches timedOut t w = [(t, w)] := if_neg hrefused
  by_cases hpanics : t.DetachPanics w
  · -- the call does not return
    refine iff_of_true (fun h => absurd hpanics ?_) (.inr (.inl hpanics))
    exact h.1 (t, w) (by rw [hdetaches]; exact List.mem_singleton_self _)
  have herr : ReturnsErr timedOut t w (.attach newPid) ↔ (t.extendedAttach w newPid).1 = false := by
    refine and_iff_right fun x hx => ?_
    rw [hdetaches, List.mem_singleton] at hx
    exact hx ▸ hpanics
  rw [FailsClean, herr, AttachClean, or_iff_right hrefused, or_iff_right hpanics, attachCall,
    extendedAttach, if_neg (by simpa using hrefused)]
  dsimp only
  rcases attach_detached t w newPid .attach with ⟨hnone, heq⟩ | ⟨i, hslot, heq⟩ <;> rw [heq]
  · exact iff_of_true (fun _ => .inr (detach_gone t w)) (.inl hnone)
  · have hsome : ¬ t.NoSlot w := by rw [NoSlot, hslot]; simp
    rw [or_iff_right hsome]
    dsimp only
    rcases hhalt : (t.detach w).2.kernel.haltProcess newPid with ⟨err | tid, k⟩
    · have hfails : ¬ ∃ tid, (.error err : Except SceError SceUID) = .ok tid := by simp
      rw [or_iff_right hfails]
      constructor
      · intro h
        exact (attached_clean_iff hslot rfl rfl).mp (h rfl)
      · intro h _
        exact (attached_clean_iff hslot rfl rfl).mpr h
    · exact iff_of_true (fun h => absurd h (by simp)) (.inl ⟨tid, rfl⟩)

/-! ## `run` -/

/-- Where the launch answers with the id 0: the session there is cannot be ended, no slot is free,
    the process does not start, or the session is the same again. -/
def RunClean (timedOut : I32) (t : VitaTarget) (w : World) (filename : Option (List U8)) : Prop :=
  ∀ k, executablePath filename ≠ none →
    w.kernel.sceCall "ksceAppMgrLaunchAppByPath" id = (.ok 0#32, k) →
      t.DetachPanics { w with kernel := k } ∨ t.NoSlot w ∨
        (∀ out, (t.evflag.waitTimeout timedOut (t.detach { w with kernel := k }).2.kernel
          evProcessStarted).1 ≠ .ok (some out)) ∨ t.Reattaches w 0#32 .run

section

variable {timedOut : I32} {filename : Option (List U8)} {path : List U8} {pid : SceUID} {k : Kernel}
variable (hpath : executablePath filename = some path)
variable (hlaunch : w.kernel.sceCall "ksceAppMgrLaunchAppByPath" id = (.ok pid, k))

include hpath hlaunch

theorem run_noSlot {t₁ : VitaTarget} {w₁ : World}
    (hattach : (t.detach { w with kernel := k }).1.attach (t.detach { w with kernel := k }).2 pid
      .run = (false, t₁, w₁)) : (t.run timedOut w filename).2 = (t₁, w₁) := by
  rw [run, hpath]
  dsimp only
  rw [hlaunch]
  dsimp only
  rw [hattach]

theorem run_started {t₁ : VitaTarget} {w₁ : World} {out : U32} {k₁ : Kernel}
    (hattach : (t.detach { w with kernel := k }).1.attach (t.detach { w with kernel := k }).2 pid
      .run = (true, t₁, w₁))
    (hwait : t₁.evflag.waitTimeout timedOut w₁.kernel evProcessStarted = (.ok (some out), k₁)) :
    t.run timedOut w filename =
      (if pid = 0#32 then none else some pid, t₁, { w₁ with kernel := k₁ }) := by
  rw [run, hpath]
  dsimp only
  rw [hlaunch]
  dsimp only
  rw [hattach]
  dsimp only
  rw [hwait]

theorem run_notStarted {t₁ : VitaTarget} {w₁ : World}
    (hattach : (t.detach { w with kernel := k }).1.attach (t.detach { w with kernel := k }).2 pid
      .run = (true, t₁, w₁))
    (hwait : ∀ out, (t₁.evflag.waitTimeout timedOut w₁.kernel evProcessStarted).1 ≠
      .ok (some out)) :
    (t.run timedOut w filename).2 = t₁.detach { w₁ with
      kernel := (t₁.evflag.waitTimeout timedOut w₁.kernel evProcessStarted).2 } := by
  rw [run, hpath]
  dsimp only
  rw [hlaunch]
  dsimp only
  rw [hattach]
  dsimp only
  rcases hres : t₁.evflag.waitTimeout timedOut w₁.kernel evProcessStarted with ⟨_ | _ | out, k₁⟩
  · rfl
  · rfl
  · rw [hres] at hwait
    exact absurd rfl (hwait out)

/-- Behind the launch `run` does to target and pool what `runLaunched` does, with the wait's answer
    for whether the process started. -/
theorem run_eq_runLaunched :
    let launched := t.runLaunched { w with kernel := k } pid (processStarted
      (t.evflag.waitTimeout timedOut (t.detach { w with kernel := k }).2.kernel evProcessStarted).1)
    (t.run timedOut w filename).2.1 = launched.2.1 ∧
      (t.run timedOut w filename).2.2.pool = launched.2.2.pool := by
  rcases attach_detached t { w with kernel := k } pid .run with ⟨-, heq⟩ | ⟨i, -, heq⟩
  · rw [run_noSlot hpath hlaunch heq, runLaunched]
    dsimp only
    rw [heq]
    exact ⟨rfl, rfl⟩
  by_cases hwait : ∀ out, (t.evflag.waitTimeout timedOut (t.detach { w with kernel := k }).2.kernel
      evProcessStarted).1 ≠ .ok (some out)
  · have hstarted := processStarted_eq_false_iff.mpr hwait
    rw [← detach_evflag t { w with kernel := k }] at hwait
    rw [run_notStarted hpath hlaunch heq hwait, hstarted, runLaunched]
    dsimp only
    rw [heq]
    -- the two ends differ in their kernels only
    exact ⟨rfl, by rw [detach_pool]; exact (detach_pool _ _).symm⟩
  · obtain ⟨out, hout⟩ := not_forall_not.mp hwait
    obtain ⟨k₁, hstart⟩ := detach_waitTimeout hout
    rw [run_started hpath hlaunch heq hstart, hout, runLaunched]
    dsimp only
    rw [heq]
    exact ⟨rfl, rfl⟩

/-- Where the launch answers, only the id 0 matters. -/
theorem runClean_launched :
    t.RunClean timedOut w filename ↔ (pid = 0#32 →
      t.DetachPanics { w with kernel := k } ∨ t.NoSlot w ∨
        (∀ out, (t.evflag.waitTimeout timedOut (t.detach { w with kernel := k }).2.kernel
          evProcessStarted).1 ≠ .ok (some out)) ∨ t.Reattaches w 0#32 .run) := by
  rw [RunClean, hpath, hlaunch]
  constructor
  · rintro h rfl
    exact h k (by simp) rfl
  · intro h k' _ hk'
    obtain ⟨hpid, rfl⟩ := Prod.mk.inj hk'
    exact h (Except.ok.inj hpid)

/-- `run` behind a launch that succeeded. -/
theorem run_launched_clean_iff :
    FailsClean timedOut t w (.run filename) ↔ t.RunClean timedOut w filename := by
  rw [runClean_launched hpath hlaunch]
  -- the exits in the order of the source; only that with a started process keeps its session
  by_cases hpanics : t.DetachPanics { w with kernel := k }
  · refine iff_of_true (fun h => absurd hpanics ?_) (fun _ => .inl hpanics)
    refine h.1 (t, { w with kernel := k }) ?_
    rw [AttachCall.detaches, hpath, hlaunch]
    exact List.mem_cons_self
  rcases attach_detached t { w with kernel := k } pid .run with ⟨hnone, heq⟩ | ⟨i, hslot, heq⟩
  · refine iff_of_true (fun _ => .inr ?_) (fun _ => .inr (.inl hnone))
    rw [attachCall, run_noSlot hpath hlaunch heq]
    exact detach_gone t { w with kernel := k }
  have hnone : ¬ t.NoSlot w := by
    rw [NoSlot, show (t.releasedPool w.pool).slotOf pidUnused = some i from hslot]
    simp
  by_cases hwait : ∀ out, (t.evflag.waitTimeout timedOut (t.detach { w with kernel := k }).2.kernel
      evProcessStarted).1 ≠ .ok (some out)
  · refine iff_of_true (fun _ => .inr ?_) (fun _ => .inr (.inr (.inl hwait)))
    rw [← detach_evflag t { w with kernel := k }] at hwait
    rw [attachCall, run_notStarted hpath hlaunch heq hwait]
    exact detach_claimed_gone rfl rfl
  obtain ⟨out, hout⟩ := not_forall_not.mp hwait
  obtain ⟨k₁, hstart⟩ := detach_waitTimeout hout
  rw [or_iff_right hpanics, or_iff_right hnone, or_iff_right hwait, FailsClean, ReturnsErr]
  have hdetaches : (AttachCall.run filename).detaches timedOut t w =
      [(t, { w with kernel := k })] := by
    rw [AttachCall.detaches, hpath, hlaunch]
    dsimp only
    rw [heq]
    dsimp only
    rw [hstart]
  rw [hdetaches, List.forall_mem_singleton, and_iff_right hpanics, attachCall,
    run_started hpath hlaunch heq hstart]
  by_cases hpid : pid = 0#32
  · subst hpid
    rw [if_pos rfl, imp_iff_right rfl, imp_iff_right rfl]
    exact attached_clean_iff hslot rfl rfl
  · refine iff_of_true (fun h => ?_) (fun h => absurd h hpid)
    rw [if_neg hpid] at h
    exact absurd h (by simp)

end

/-- **`run` fails clean** unless the process it launched and attached to has the id 0. -/
theorem run_clean_iff (timedOut : I32) (t : VitaTarget) (w : World) (filename : Option (List U8)) :
    FailsClean timedOut t w (.run filename) ↔ t.RunClean timedOut w filename := by
  cases hpath : executablePath filename with
  | none =>
    refine iff_of_true (fun _ => .inl ?_) (fun k hsome => absurd hpath hsome)
    rw [attachCall, run, hpath]
    exact ⟨rfl, rfl⟩
  | some path =>
    rcases hlaunch : w.kernel.sceCall "ksceAppMgrLaunchAppByPath" id with ⟨err | pid, k⟩
    · refine iff_of_true (fun _ => .inl ?_) (fun k' _ hk' => ?_)
      · rw [attachCall, run, hpath]
        dsimp only
        rw [hlaunch]
        exact ⟨rfl, rfl⟩
      · rw [hlaunch] at hk'
        exact absurd (congrArg Prod.fst hk') (by simp)
    · exact run_launched_clean_iff hpath hlaunch

end VitaTarget

/-! ## Both calls -/

/-- Where a call that fails leaves the session there was, or none. -/
def CallClean (timedOut : I32) (t : VitaTarget) (w : World) : AttachCall → Prop
  | .attach newPid => t.AttachClean w newPid
  | .run filename => t.RunClean timedOut w filename

/-- **A failed attach or run leaves no session behind** exactly where its call is clean. -/
theorem attachRuns_clean_iff (timedOut : I32) (t : VitaTarget) (w : World) (call : AttachCall) :
    FailsClean timedOut t w call ↔ CallClean timedOut t w call := by
  cases call with
  | attach newPid => exact t.attach_clean_iff timedOut w newPid
  | run filename => exact t.run_clean_iff timedOut w filename

/-- No session, and a kernel on which every call fails. -/
def deadWorld : World where
  pool := SessionPool.uninit
  kernel := { Kernel.quiet fun _ _ => none with ret := fun _ => 0x80020005#32 }

/-- **Attaching to a process that cannot be halted** fails, and the session stays. -/
theorem attachRuns_not_clean : ¬ ∀ (timedOut : I32) (t : VitaTarget) (w : World)
    (call : AttachCall), FailsClean timedOut t w call := by
  intro hclaim
  have herr : ReturnsErr 0x80028005#32 (VitaTarget.new ⟨3#32⟩) deadWorld (.attach 7#32) := by
    refine ⟨fun x hx => ?_, by decide +kernel⟩
    rw [List.mem_singleton.mp hx]
    rintro ⟨i, pid, hsession, -⟩
    exact absurd hsession (by simp [VitaTarget.new])
  have hleft : (attachCall 0x80028005#32 (VitaTarget.new ⟨3#32⟩) deadWorld
      (.attach 7#32)).1.session = some 0 := by decide +kernel
  rcases hclaim _ _ _ _ herr with ⟨hkept, -⟩ | hgone
  · rw [hkept] at hleft
    exact absurd hleft (by simp [VitaTarget.new])
  · rw [hgone.session] at hleft
    exact absurd hleft (by simp)

end VitaGdb

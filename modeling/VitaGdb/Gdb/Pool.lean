/-
  The static session pool: `SESSION_POOL`, the lookup by process id, and `GdbSession`.

  A slot is free while its `pid` holds `PID_UNUSED`; claiming it is one compare-and-exchange on that
  field, and `drop` gives it back.  A `GdbSession` is the index of the slot it owns.
  `findSessionForPid` compares the raw field, so it is a lookup by key over all four slots, free
  ones included.
-/
import VitaGdb.Gdb.SessionSpecs

namespace VitaGdb

/-- `SESSION_POOL`. -/
abbrev SessionPool := Fin 4 → GdbSessionInner

namespace SessionPool

/-- The pool at start. -/
def uninit : SessionPool := fun _ => GdbSessionInner.uninit

/-- The first slot whose pid field holds `pid`. -/
def slotOf (pool : SessionPool) (pid : SceUID) : Option (Fin 4) :=
  (List.finRange 4).find? fun i => (pool i).pid = pid

theorem slotOf_some {pool : SessionPool} {pid : SceUID} {i : Fin 4}
    (h : pool.slotOf pid = some i) : (pool i).pid = pid := by
  have hi := List.find?_some (p := fun i => decide ((pool i).pid = pid)) h
  exact of_decide_eq_true hi

theorem slotOf_eq_none {pool : SessionPool} {pid : SceUID} :
    pool.slotOf pid = none ↔ ∀ i, (pool i).pid ≠ pid := by
  rw [slotOf, List.find?_eq_none]
  constructor
  · intro h i hi
    exact h i (List.mem_finRange i) (decide_eq_true hi)
  · intro h i _ hi
    exact h i (of_decide_eq_true hi)

/-- The slots before it hold other pids. -/
theorem slotOf_first {pool : SessionPool} {pid : SceUID} {i j : Fin 4}
    (h : pool.slotOf pid = some i) (hj : j.val < i.val) : (pool j).pid ≠ pid := by
  obtain ⟨-, n, hn, hget, hbefore⟩ := List.find?_eq_some_iff_getElem.mp h
  rw [List.getElem_finRange] at hget
  have hval : n = i.val := congrArg Fin.val hget
  have hother := hbefore j.val (by omega)
  rw [List.getElem_finRange] at hother
  simpa using hother

/-- Where one slot only holds the pid, the lookup finds it. -/
theorem slotOf_unique {pool : SessionPool} {pid : SceUID} {i : Fin 4} (hi : (pool i).pid = pid)
    (huniq : ∀ j, (pool j).pid = pid → j = i) : pool.slotOf pid = some i := by
  cases hf : pool.slotOf pid with
  | none => exact absurd hi (slotOf_eq_none.mp hf i)
  | some j => rw [huniq j (slotOf_some hf)]

end SessionPool

/-- `find_session_for_pid`. -/
def findSessionForPid (pool : SessionPool) (pid : SceUID) : Option (Fin 4) := pool.slotOf pid

namespace GdbSession

/-- `GdbSession::new`: the first slot whose exchange of `PID_UNUSED` for `pid` succeeds, with the
    event flag stored after it. -/
def new (pool : SessionPool) (flag : EventFlagRef) (pid : SceUID) :
    Option (Fin 4) × SessionPool :=
  match pool.slotOf pidUnused with
  | none => (none, pool)
  | some slot =>
    (some slot, Function.update pool slot { pool slot with pid := pid, evflag := some flag })

end GdbSession

/-- The pool and the kernel: what the handlers and the workers share. -/
structure World where
  pool : SessionPool
  kernel : Kernel

namespace World

/-- One slot and the kernel after a call on that slot. -/
def put (w : World) (i : Fin 4) (s : GdbSessionInner) (k : Kernel) : World :=
  { pool := Function.update w.pool i s, kernel := k }

@[simp] theorem put_kernel (w : World) (i : Fin 4) (s : GdbSessionInner) (k : Kernel) :
    (w.put i s k).kernel = k := rfl

@[simp] theorem put_pool_self (w : World) (i : Fin 4) (s : GdbSessionInner) (k : Kernel) :
    (w.put i s k).pool i = s := by
  show Function.update w.pool i s i = s
  rw [Function.update_self]

/-- A call that keeps the slot's pid keeps every lookup. -/
theorem findSessionForPid_put {w : World} {i : Fin 4} {s : GdbSessionInner} {k : Kernel}
    (hpid : s.pid = (w.pool i).pid) (pid : SceUID) :
    findSessionForPid (w.put i s k).pool pid = findSessionForPid w.pool pid := by
  have hsame : ∀ j, ((w.put i s k).pool j).pid = (w.pool j).pid := by
    intro j
    by_cases hj : j = i
    · rw [hj, put_pool_self, hpid]
    · show (Function.update w.pool i s j).pid = _
      rw [Function.update_of_ne hj]
  simp only [findSessionForPid, SessionPool.slotOf, hsame]

end World

end VitaGdb

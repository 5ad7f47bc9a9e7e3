/-
  Watchpoint hits: what the registers watch, and what the handler recognises.

  The control word of a watchpoint selects bytes of the aligned word its address is in
  (`byteSelected`), and the address of the byte that is accessed comes back in DFAR.  `wp_control`
  selects all four; `has_watchpoint` looks for the programmed address itself.  So the handler takes
  a hit for its own only at that one byte of the word, and tells gdb of it only where the event can
  be queued.  It takes nothing else for its own.
-/
import VitaGdb.Gdb.Handlers

namespace VitaGdb

open GdbSessionInner

/-- The bytes a watchpoint register watches: those of the aligned word of its address that bits 5
    to 8 of its control word select. -/
def byteSelected (addr control a : U32) : Prop :=
  a &&& ~~~3#32 = addr &&& ~~~3#32 ∧ control.getLsbD (5 + (a &&& 3#32).toNat) = true

instance (addr control a : U32) : Decidable (byteSelected addr control a) :=
  inferInstanceAs (Decidable (_ ∧ _))

/-- An armed slot watches the address. -/
def GdbSessionInner.Watches (s : GdbSessionInner) (a : U32) : Prop :=
  ∃ i wp, s.hwWatchpoints i = some wp ∧ byteSelected wp.addr (wpControl wp.kind) a

/-- A watch event of the thread. -/
def watchEvent (tid : SceUID) (context : SceExcpmgrExceptionContext) : ExceptionEvent :=
  .watch tid context.DFAR (if dfsrIsWrite context.DFSR then .write else .read)

/-- `handle_watch` takes the accesses an armed slot watches, and tells gdb of them; it takes no
    other. -/
def RecognisesWatch (w : World) (pid tid : SceUID) (context : SceExcpmgrExceptionContext) : Prop :=
  ∀ i, findSessionForPid w.pool pid = some i →
    ((w.pool i).Watches context.DFAR →
      (handleWatch w pid tid context).1 = .ok .handlingCode2 ∧
        ((handleWatch w pid tid context).2.pool i).exceptions.pending =
          (w.pool i).exceptions.pending ++ [watchEvent tid context]) ∧
    (¬ (w.pool i).Watches context.DFAR → (handleWatch w pid tid context).1 = .ok .notHandled)

/-- A slot is armed for this very byte, and there is room for the event. -/
def HitsProgrammed (w : World) (pid : SceUID) (context : SceExcpmgrExceptionContext) : Prop :=
  ∀ i, findSessionForPid w.pool pid = some i → (w.pool i).Watches context.DFAR →
    (∃ j wp, (w.pool i).hwWatchpoints j = some wp ∧ wp.addr = context.DFAR) ∧
      (w.pool i).evflag.isSome ∧ (w.pool i).exceptions.pending.length < 7

/-- The control word selects the whole word. -/
theorem byteSelected_wpControl {addr a : U32} (kind : WatchKind) :
    byteSelected addr (wpControl kind) a ↔ a &&& ~~~3#32 = addr &&& ~~~3#32 := by
  have hlow : (a &&& 3#32).toNat < 4 := by
    rw [BitVec.toNat_and]
    exact Nat.lt_of_le_of_lt Nat.and_le_right (by decide)
  have hall : ∀ n < 4, (wpControl kind).getLsbD (5 + n) = true := by
    cases kind <;> decide
  exact ⟨And.left, fun h => ⟨h, hall _ hlow⟩⟩

theorem hasWatchpoint_iff {s : GdbSessionInner} {a : U32} :
    s.hasWatchpoint a = true ↔ ∃ i wp, s.hwWatchpoints i = some wp ∧ wp.addr = a := by
  rw [GdbSessionInner.hasWatchpoint]
  rcases hfind : SlotTable.findSlot (fun wp => decide (wp.addr = a)) s.hwWatchpoints with
    _ | ⟨i, wp⟩
  · refine iff_of_false (by simp [hfind]) ?_
    rintro ⟨i, wp, hwp, haddr⟩
    exact absurd haddr (of_decide_eq_false (SlotTable.findSlot_none_iff.mp hfind i wp hwp))
  · obtain ⟨hwp, haddr⟩ := SlotTable.findSlot_some hfind
    exact iff_of_true (by rw [hfind]; rfl) ⟨i, wp, hwp, of_decide_eq_true haddr⟩

/-- A programmed byte is watched. -/
theorem watches_of_hasWatchpoint {s : GdbSessionInner} {a : U32} (h : s.hasWatchpoint a = true) :
    s.Watches a := by
  obtain ⟨i, wp, hwp, rfl⟩ := hasWatchpoint_iff.mp h
  exact ⟨i, wp, hwp, (byteSelected_wpControl wp.kind).mpr rfl⟩

/-- The handler, where the slot has the byte and where it has not. -/
theorem handleWatch_eq {w : World} {pid : SceUID} {i : Fin 4}
    (hi : findSessionForPid w.pool pid = some i) (tid : SceUID)
    (context : SceExcpmgrExceptionContext) :
    handleWatch w pid tid context =
      if (w.pool i).hasWatchpoint context.DFAR then
        (.ok .handlingCode2,
          w.put i ((w.pool i).pushExcp (w.kernel.haltForDebug pid tid) (watchEvent tid context)).1
            ((w.pool i).pushExcp (w.kernel.haltForDebug pid tid) (watchEvent tid context)).2)
      else (.ok .notHandled, w) := by
  rw [handleWatch, hi]
  dsimp only
  rw [watchHalts]
  split <;> rfl

/-- Queuing reaches the ring where there is an event flag and room. -/
theorem pushExcp_queues_iff (s : GdbSessionInner) (k : Kernel) (event : ExceptionEvent) :
    (s.pushExcp k event).1.exceptions.pending = s.exceptions.pending ++ [event] ↔
      s.evflag.isSome ∧ s.exceptions.pending.length < 7 := by
  have hne : s.exceptions.pending ≠ s.exceptions.pending ++ [event] := by simp
  cases hflag : s.evflag with
  | none =>
    rw [pushExcp, hflag]
    exact iff_of_false hne (by simp)
  | some evflag =>
    rw [pushExcp_pending hflag]
    by_cases hroom : s.exceptions.pending.length + 1 < 8
    · rw [if_pos hroom]
      exact iff_of_true rfl ⟨rfl, by omega⟩
    · rw [if_neg hroom]
      exact iff_of_false hne fun h => hroom (by omega)

/-- **Every access a watchpoint traps** is recognised exactly where it hits the programmed byte and
    the event can be queued; what no slot watches never is. -/
theorem handleWatch_recognises_iff (w : World) (pid tid : SceUID)
    (context : SceExcpmgrExceptionContext) :
    RecognisesWatch w pid tid context ↔ HitsProgrammed w pid context := by
  constructor
  · intro h i hi hwatches
    obtain ⟨hcode, hqueued⟩ := (h i hi).1 hwatches
    rw [handleWatch_eq hi] at hcode hqueued
    by_cases hhas : (w.pool i).hasWatchpoint context.DFAR = true
    · rw [if_pos hhas, World.put_pool_self, pushExcp_queues_iff] at hqueued
      exact ⟨hasWatchpoint_iff.mp hhas, hqueued⟩
    · rw [if_neg hhas] at hcode
      exact absurd hcode (by simp)
  · intro h i hi
    rw [handleWatch_eq hi]
    constructor
    · intro hwatches
      obtain ⟨hprogrammed, hroom⟩ := h i hi hwatches
      rw [if_pos (hasWatchpoint_iff.mpr hprogrammed), World.put_pool_self, pushExcp_queues_iff]
      exact ⟨rfl, hroom⟩
    · intro hwatches
      rw [if_neg fun hhas => hwatches (watches_of_hasWatchpoint hhas)]

/-- A session of process 7 with a watchpoint on the word at 0x2000. -/
def wordWatched : GdbSessionInner :=
  { GdbSessionInner.uninit with
    pid := 7#32
    evflag := some ⟨3#32⟩
    hwWatchpoints := Function.update SlotTable.empty 0 (some ⟨0x2000#32, .write⟩) }

/-- **A store to the second byte of a watched word** aborts the program. -/
theorem handleWatch_misses :
    ¬ ∀ (w : World) (pid tid : SceUID) (context : SceExcpmgrExceptionContext),
      RecognisesWatch w pid tid context := by
  intro hclaim
  have hcode := ((hclaim ⟨fun _ => wordWatched, Kernel.quiet fun _ _ => none⟩ 7#32 9#32
    ⟨0x1000#32, 0x10#32, 0#32, 0#32, 0#32, 0x802#32, 0x2001#32⟩ 0 (by decide)).1
    ⟨0, ⟨0x2000#32, .write⟩, rfl, by decide⟩).1
  exact absurd hcode (by decide)

end VitaGdb

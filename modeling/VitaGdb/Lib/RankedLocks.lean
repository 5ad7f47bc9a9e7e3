/-
  Spin locks that are taken through guards, and threads that run under any schedule.

  A thread is a list of `Op`s: a lock taken or given back, interrupts suspended and resumed, and
  actions.  A lock is taken where nobody owns it; taking it suspends interrupts on the thread's CPU
  and giving it back puts the mask back that was found, so a thread keeps a stack of masks.

  Spec: in every run of any threads whose operations are `Disciplined` (locks are taken in rising
  rank and given back latest first, a lock's data is touched by its owner only)
    * the owner of a lock has interrupts suspended           — `Sound.masked`;
    * only the owner of a lock touches its data              — `Sound.touches`;
    * while a thread has work left, some thread can go on    — `Sound.progress`;
    * what is left shrinks with every step, so the threads can all be run to their ends, where no
      lock is owned                                          — `exec_length`, `Sound.completes`.

  Crux: a thread that waits for a lock ranks that lock above all it owns, so the owner of the lock
  waited for waits, if it does, for a lock of a higher rank; ranks are bounded (`Sound.unblocked`).

  The second half is a language of function bodies, in which a guard is a scope: it is given back
  on every way out of the scope but a panic, which ends the thread where it stands.  `Code.ok`
  computes from the body that its operations are disciplined (`ok_disciplined`), and a body leaves
  the mask as it found it unless it leaves a suspension behind outside every guard (`runs_masks`).
-/
import Mathlib.Logic.Function.Basic
import Mathlib.Algebra.BigOperators.Group.Finset.Basic
import Mathlib.Data.Fintype.Basic
import VitaGdb.Lib.Runs

namespace RankedLocks

variable {L A : Type}

/-- What a thread does next. -/
inductive Op (L A : Type) where
  | lock (l : L)
  | unlock (l : L)
  /-- Suspend interrupts, and keep the mask found. -/
  | suspend
  /-- Put the mask kept last back. -/
  | resume
  /-- The mask kept last goes out of scope. -/
  | forget
  | act (a : A)
  deriving DecidableEq

/-- What is open in a thread: the guard of a lock, or a suspension of interrupts. -/
inductive Frame (L : Type) where
  | guard (l : L)
  | intr
  deriving DecidableEq

/-- The locks whose guards are open. -/
def locksOf : List (Frame L) → List L
  | [] => []
  | .guard l :: fs => l :: locksOf fs
  | .intr :: fs => locksOf fs

/-- **The discipline**, from what is open: a lock ranks above the ones held, frames close latest
    first, an action has the lock it needs, and nothing stays open. -/
def Disciplined (rank : L → Nat) (needs : A → Option L) : List (Op L A) → List (Frame L) → Prop
  | [], fs => fs = []
  | .lock l :: ops, fs =>
    (∀ k ∈ locksOf fs, rank k < rank l) ∧ Disciplined rank needs ops (.guard l :: fs)
  | .suspend :: ops, fs => Disciplined rank needs ops (.intr :: fs)
  | .act a :: ops, fs => (∀ l, needs a = some l → l ∈ locksOf fs) ∧ Disciplined rank needs ops fs
  | .unlock l :: ops, .guard k :: fs => k = l ∧ Disciplined rank needs ops fs
  | .resume :: ops, .intr :: fs => Disciplined rank needs ops fs
  | .forget :: ops, .intr :: fs => Disciplined rank needs ops fs
  | _, _ => False

/-! ## The interrupt mask of a thread -/

/-- The mask, and the masks kept, latest first. -/
structure Masks where
  mask : Bool
  kept : List Bool
  deriving DecidableEq

namespace Masks

/-- Suspend interrupts. -/
def push (m : Masks) : Masks := ⟨true, m.mask :: m.kept⟩

/-- Put the mask kept last back. -/
def pop (m : Masks) : Masks :=
  match m.kept with
  | [] => m
  | b :: kept => ⟨b, kept⟩

/-- Lose the mask kept last. -/
def drop (m : Masks) : Masks := ⟨m.mask, m.kept.tail⟩

end Masks

/-- What an operation does to the masks of its thread. -/
def Op.masks (m : Masks) : Op L A → Masks
  | .lock _ | .suspend => m.push
  | .unlock _ | .resume => m.pop
  | .forget => m.drop
  | .act _ => m

/-- While a frame is open interrupts are suspended, and each frame keeps a mask. -/
def MaskOk : List (Frame L) → List Bool → Bool → Prop
  | [], [], _ => True
  | _ :: fs, b :: kept, m => m = true ∧ MaskOk fs kept b
  | _, _, _ => False

theorem MaskOk.set {fs : List (Frame L)} {kept : List Bool} {m : Bool} (h : MaskOk fs kept m) :
    MaskOk fs kept true := by
  cases fs with
  | nil => cases kept <;> exact h
  | cons f fs =>
    cases kept with
    | nil => exact h
    | cons b kept => exact ⟨rfl, h.2⟩

/-! ## Threads under a schedule -/

/-- A thread: what is left to do, and its masks. -/
structure Thread (L A : Type) where
  todo : List (Op L A)
  masks : Masks

/-- The owner of each lock, and the threads. -/
structure State (T L A : Type) where
  owner : L → Option T
  threads : T → Thread L A

variable {T : Type} [DecidableEq T]

/-- One thread, with one operation done. -/
def State.did (x : State T L A) (t : T) (op : Op L A) (ops : List (Op L A)) (owner : L → Option T) :
    State T L A where
  owner := owner
  threads := Function.update x.threads t ⟨ops, op.masks (x.threads t).masks⟩

@[simp] theorem State.did_self (x : State T L A) (t : T) (op : Op L A) (ops : List (Op L A))
    (owner : L → Option T) :
    (x.did t op ops owner).threads t = ⟨ops, op.masks (x.threads t).masks⟩ :=
  Function.update_self ..

theorem State.did_of_ne (x : State T L A) {t u : T} (h : u ≠ t) (op : Op L A) (ops : List (Op L A))
    (owner : L → Option T) : (x.did t op ops owner).threads u = x.threads u :=
  Function.update_of_ne h ..

/-- The thread `t` does its next operation; a lock that is owned is waited for. -/
def step [DecidableEq L] (x : State T L A) (t : T) : Option (State T L A) :=
  match (x.threads t).todo with
  | [] => none
  | .lock l :: ops =>
    match x.owner l with
    | none => some (x.did t (.lock l) ops (Function.update x.owner l (some t)))
    | some _ => none
  | .unlock l :: ops => some (x.did t (.unlock l) ops (Function.update x.owner l none))
  | op :: ops => some (x.did t op ops x.owner)

/-- What is open in each thread accounts for the owners and for what is left to do. -/
structure Accounts (rank : L → Nat) (needs : A → Option L) (x : State T L A)
    (frames : T → List (Frame L)) : Prop where
  owned : ∀ l t, x.owner l = some t ↔ l ∈ locksOf (frames t)
  disciplined : ∀ t, Disciplined rank needs (x.threads t).todo (frames t)
  maskOk : ∀ t, MaskOk (frames t) (x.threads t).masks.kept (x.threads t).masks.mask
  nodup : ∀ t, (locksOf (frames t)).Nodup

/-- A state that disciplined threads can be in. -/
def Sound (rank : L → Nat) (needs : A → Option L) (x : State T L A) : Prop :=
  ∃ frames, Accounts rank needs x frames

section

variable {rank : L → Nat} {needs : A → Option L} {x y : State T L A} {frames : T → List (Frame L)}

/-- One operation of one thread, with what is open in it afterwards. -/
theorem Accounts.did (h : Accounts rank needs x frames) {t : T} {op : Op L A} {ops : List (Op L A)}
    {owner : L → Option T} {fs : List (Frame L)}
    (howned : ∀ l u, owner l = some u ↔ l ∈ locksOf (Function.update frames t fs u))
    (hops : Disciplined rank needs ops fs)
    (hmask : MaskOk fs (op.masks (x.threads t).masks).kept (op.masks (x.threads t).masks).mask)
    (hnodup : (locksOf fs).Nodup) :
    Accounts rank needs (x.did t op ops owner) (Function.update frames t fs) where
  owned := howned
  disciplined := by
    intro u
    by_cases hu : u = t
    · subst hu
      simpa using hops
    · rw [x.did_of_ne hu, Function.update_of_ne hu]
      exact h.disciplined u
  maskOk := by
    intro u
    by_cases hu : u = t
    · subst hu
      simpa using hmask
    · rw [x.did_of_ne hu, Function.update_of_ne hu]
      exact h.maskOk u
  nodup := by
    intro u
    by_cases hu : u = t
    · subst hu
      simpa using hnodup
    · rw [Function.update_of_ne hu]
      exact h.nodup u

/-- Frames that hold the same locks leave the owners as they are. -/
theorem Accounts.owned_update (h : Accounts rank needs x frames) {t : T} {fs : List (Frame L)}
    (hsame : locksOf fs = locksOf (frames t)) (l : L) (u : T) :
    x.owner l = some u ↔ l ∈ locksOf (Function.update frames t fs u) := by
  by_cases hu : u = t
  · subst hu
    rw [Function.update_self, hsame, h.owned]
  · rw [Function.update_of_ne hu, h.owned]

variable [DecidableEq L]

/-- Taking a lock that nobody owns. -/
theorem Accounts.lock (h : Accounts rank needs x frames) {t : T} {l : L} {ops : List (Op L A)}
    (htodo : (x.threads t).todo = .lock l :: ops) (hfree : x.owner l = none) :
    Accounts rank needs (x.did t (.lock l) ops (Function.update x.owner l (some t)))
      (Function.update frames t (.guard l :: frames t)) := by
  have hdisc := h.disciplined t
  rw [htodo] at hdisc
  have hnobody : ∀ u, l ∉ locksOf (frames u) := fun u hu =>
    absurd ((h.owned l u).mpr hu) (by rw [hfree]; simp)
  have hmask : MaskOk (.guard l :: frames t) (x.threads t).masks.push.kept
      (x.threads t).masks.push.mask := ⟨rfl, h.maskOk t⟩
  refine h.did ?_ hdisc.2 hmask (List.nodup_cons.mpr ⟨hnobody t, h.nodup t⟩)
  intro k u
  by_cases hk : k = l
  · subst hk
    rw [Function.update_self]
    by_cases hu : u = t
    · subst hu
      simp [locksOf]
    · rw [Function.update_of_ne hu]
      exact ⟨fun heq => absurd (Option.some.inj heq).symm hu, fun hmem => absurd hmem (hnobody u)⟩
  · rw [Function.update_of_ne hk, h.owned]
    by_cases hu : u = t
    · subst hu
      simp [locksOf, hk]
    · rw [Function.update_of_ne hu]

/-- Giving a lock back. -/
theorem Accounts.unlock (h : Accounts rank needs x frames) {t : T} {l : L} {ops : List (Op L A)}
    {fs : List (Frame L)} (htodo : (x.threads t).todo = .unlock l :: ops)
    (hframes : frames t = .guard l :: fs) :
    Accounts rank needs (x.did t (.unlock l) ops (Function.update x.owner l none))
      (Function.update frames t fs) := by
  have hdisc := h.disciplined t
  have hmask := h.maskOk t
  have hnodup := h.nodup t
  have howner := (h.owned l t).mpr (by rw [hframes]; exact List.mem_cons_self)
  rw [htodo, hframes] at hdisc
  rw [hframes] at hmask hnodup
  obtain ⟨hout, hrest⟩ := List.nodup_cons.mp hnodup
  cases hkept : (x.threads t).masks.kept with
  | nil =>
    rw [hkept] at hmask
    exact hmask.elim
  | cons b kept =>
    rw [hkept] at hmask
    refine h.did ?_ hdisc.2 (by simpa [Op.masks, Masks.pop, hkept] using hmask.2) hrest
    intro k u
    by_cases hk : k = l
    · subst hk
      rw [Function.update_self]
      refine ⟨fun heq => absurd heq (by simp), fun hmem => ?_⟩
      -- the owner was this thread, and its other frames do not hold the lock
      by_cases hu : u = t
      · subst hu
        rw [Function.update_self] at hmem
        exact absurd hmem hout
      · rw [Function.update_of_ne hu] at hmem
        exact absurd (Option.some.inj (howner.symm.trans ((h.owned k u).mpr hmem))).symm hu
    · rw [Function.update_of_ne hk, h.owned]
      by_cases hu : u = t
      · subst hu
        simp [hframes, locksOf, hk]
      · rw [Function.update_of_ne hu]

omit [DecidableEq L] in
/-- A mask that is put back, or lost. -/
theorem Accounts.closeIntr (h : Accounts rank needs x frames) {t : T} {op : Op L A}
    {ops : List (Op L A)} {fs : List (Frame L)} (hop : op = .resume ∨ op = .forget)
    (hframes : frames t = .intr :: fs) (hops : Disciplined rank needs ops fs) :
    Accounts rank needs (x.did t op ops x.owner) (Function.update frames t fs) := by
  have hmask := h.maskOk t
  have hnodup := h.nodup t
  rw [hframes] at hmask hnodup
  refine h.did (h.owned_update (by rw [hframes]; rfl)) hops ?_ hnodup
  cases hkept : (x.threads t).masks.kept with
  | nil =>
    rw [hkept] at hmask
    exact hmask.elim
  | cons b kept =>
    rw [hkept] at hmask
    rcases hop with rfl | rfl
    · simpa [Op.masks, Masks.pop, hkept] using hmask.2
    · simp only [Op.masks, Masks.drop, hkept, List.tail_cons, hmask.1]
      exact hmask.2.set

/-- **A step keeps the account.** -/
theorem Sound.kept (h : Sound rank needs x) {t : T} (hs : step x t = some y) :
    Sound rank needs y := by
  obtain ⟨frames, h⟩ := h
  have hdisc := h.disciplined t
  cases htodo : (x.threads t).todo with
  | nil => rw [step, htodo] at hs; exact absurd hs (by simp)
  | cons op ops =>
    rw [htodo] at hdisc
    cases op with
    | lock l =>
      cases hfree : x.owner l with
      | none =>
        simp only [step, htodo, hfree, Option.some.injEq] at hs
        exact hs ▸ ⟨_, h.lock htodo hfree⟩
      | some u =>
        simp only [step, htodo, hfree] at hs
        exact absurd hs (by simp)
    | unlock l =>
      simp only [step, htodo, Option.some.injEq] at hs
      cases hframes : frames t with
      | nil => rw [hframes] at hdisc; exact hdisc.elim
      | cons f fs =>
        rw [hframes] at hdisc
        cases f with
        | guard k =>
          obtain ⟨rfl, -⟩ := hdisc
          exact hs ▸ ⟨_, h.unlock htodo hframes⟩
        | intr => exact hdisc.elim
    | suspend =>
      simp only [step, htodo, Option.some.injEq] at hs
      have hmask : MaskOk (.intr :: frames t) (x.threads t).masks.push.kept
          (x.threads t).masks.push.mask := ⟨rfl, h.maskOk t⟩
      have hsame : locksOf (.intr :: frames t) = locksOf (frames t) := rfl
      exact hs ▸ ⟨_, h.did (h.owned_update hsame) hdisc hmask (h.nodup t)⟩
    | resume =>
      simp only [step, htodo, Option.some.injEq] at hs
      cases hframes : frames t with
      | nil => rw [hframes] at hdisc; exact hdisc.elim
      | cons f fs =>
        rw [hframes] at hdisc
        cases f with
        | guard k => exact hdisc.elim
        | intr => exact hs ▸ ⟨_, h.closeIntr (.inl rfl) hframes hdisc⟩
    | forget =>
      simp only [step, htodo, Option.some.injEq] at hs
      cases hframes : frames t with
      | nil => rw [hframes] at hdisc; exact hdisc.elim
      | cons f fs =>
        rw [hframes] at hdisc
        cases f with
        | guard k => exact hdisc.elim
        | intr => exact hs ▸ ⟨_, h.closeIntr (.inr rfl) hframes hdisc⟩
    | act a =>
      simp only [step, htodo, Option.some.injEq] at hs
      exact hs ▸ ⟨_, h.did (h.owned_update rfl) hdisc.2 (h.maskOk t) (h.nodup t)⟩

/-! ## What disciplined threads can rely on -/

omit [DecidableEq T] [DecidableEq L] in
/-- **The owner of a lock has interrupts suspended.** -/
theorem Sound.masked (h : Sound rank needs x) {l : L} {t : T} (howner : x.owner l = some t) :
    (x.threads t).masks.mask = true := by
  obtain ⟨frames, h⟩ := h
  have hmem := (h.owned l t).mp howner
  have hmask := h.maskOk t
  cases hframes : frames t with
  | nil => rw [hframes] at hmem; exact absurd hmem List.not_mem_nil
  | cons f fs =>
    rw [hframes] at hmask
    cases hkept : (x.threads t).masks.kept with
    | nil => rw [hkept] at hmask; exact hmask.elim
    | cons b kept => rw [hkept] at hmask; exact hmask.1

omit [DecidableEq T] [DecidableEq L] in
/-- **Only the owner of a lock touches its data.** -/
theorem Sound.touches (h : Sound rank needs x) {t : T} {a : A} {ops : List (Op L A)} {l : L}
    (htodo : (x.threads t).todo = .act a :: ops) (hneeds : needs a = some l) :
    x.owner l = some t := by
  obtain ⟨frames, h⟩ := h
  have hdisc := h.disciplined t
  rw [htodo] at hdisc
  exact (h.owned l t).mpr (hdisc.1 l hneeds)

omit [DecidableEq T] [DecidableEq L] in
/-- A thread that has nothing left to do owns nothing. -/
theorem Sound.finished (h : Sound rank needs x) {t : T} (hdone : (x.threads t).todo = []) (l : L) :
    x.owner l ≠ some t := by
  obtain ⟨frames, h⟩ := h
  intro howner
  have hmem := (h.owned l t).mp howner
  have hdisc := h.disciplined t
  rw [hdone] at hdisc
  rw [show frames t = [] from hdisc] at hmem
  exact absurd hmem List.not_mem_nil

/-- A thread that cannot go on waits for a lock. -/
theorem waits {t : T} (hleft : (x.threads t).todo ≠ [])
    (hstuck : step x t = none) :
    ∃ l ops u, (x.threads t).todo = .lock l :: ops ∧ x.owner l = some u := by
  cases htodo : (x.threads t).todo with
  | nil => exact absurd htodo hleft
  | cons op ops =>
    cases op with
    | lock l =>
      cases howner : x.owner l with
      | none =>
        simp only [step, htodo, howner] at hstuck
        exact absurd hstuck (by simp)
      | some u => exact ⟨l, ops, u, rfl, howner⟩
    | unlock l => simp only [step, htodo] at hstuck; exact absurd hstuck (by simp)
    | suspend => simp only [step, htodo] at hstuck; exact absurd hstuck (by simp)
    | resume => simp only [step, htodo] at hstuck; exact absurd hstuck (by simp)
    | forget => simp only [step, htodo] at hstuck; exact absurd hstuck (by simp)
    | act a => simp only [step, htodo] at hstuck; exact absurd hstuck (by simp)

omit [DecidableEq T] [DecidableEq L] in
/-- A lock waited for ranks above the locks its waiter owns. -/
theorem Sound.rises (h : Sound rank needs x) {t : T} {k l : L} {ops : List (Op L A)}
    (htodo : (x.threads t).todo = .lock l :: ops) (howner : x.owner k = some t) :
    rank k < rank l := by
  obtain ⟨frames, h⟩ := h
  have hdisc := h.disciplined t
  rw [htodo] at hdisc
  exact hdisc.1 k ((h.owned k t).mp howner)

/-- **Behind every waiting thread somebody can go on**: the owner of the lock waited for goes on,
    or waits for a lock of a higher rank. -/
theorem Sound.unblocked (h : Sound rank needs x) {bound : Nat} (hbound : ∀ l, rank l < bound) :
    ∀ n (l : L) (t : T), bound ≤ rank l + n → x.owner l = some t → ∃ u, (step x u).isSome := by
  intro n
  induction n with
  | zero =>
    intro l t hn _
    have hl := hbound l
    omega
  | succ n ih =>
    intro l t hn howner
    have hleft : (x.threads t).todo ≠ [] := fun hdone => h.finished hdone l howner
    cases hstep : step x t with
    | some y => exact ⟨t, by rw [hstep]; rfl⟩
    | none =>
      obtain ⟨k, ops, u, htodo, hk⟩ := waits hleft hstep
      have hrank := h.rises htodo howner
      exact ih k u (by omega) hk

/-- **No deadlock**: while a thread has work left, some thread can go on. -/
theorem Sound.progress (h : Sound rank needs x) {bound : Nat} (hbound : ∀ l, rank l < bound) {t : T}
    (hleft : (x.threads t).todo ≠ []) : ∃ u, (step x u).isSome := by
  cases hstep : step x t with
  | some y => exact ⟨t, by rw [hstep]; rfl⟩
  | none =>
    obtain ⟨l, ops, u, -, howner⟩ := waits hleft hstep
    exact h.unblocked hbound bound l u (by omega) howner

/-- Over a run. -/
theorem Sound.run (h : Sound rank needs x) (es : List T) (hrun : LTS.exec step x es = some y) :
    Sound rank needs y :=
  LTS.exec_keeps (fun _ _ _ hs hstep => hs.kept hstep) es h hrun

/-! ## Every run comes to an end -/

/-- How much is left to do. -/
def left [Fintype T] (x : State T L A) : Nat := ∑ t, (x.threads t).todo.length

omit [DecidableEq L] in
theorem left_did [Fintype T] {t : T} {op : Op L A} {ops : List (Op L A)} {owner : L → Option T}
    (htodo : (x.threads t).todo = op :: ops) : left (x.did t op ops owner) + 1 = left x := by
  rw [left, left, ← Finset.add_sum_erase _ _ (Finset.mem_univ t),
    ← Finset.add_sum_erase _ _ (Finset.mem_univ t)]
  have hothers : ∀ u ∈ Finset.univ.erase t,
      ((x.did t op ops owner).threads u).todo.length = (x.threads u).todo.length := by
    intro u hu
    rw [x.did_of_ne (Finset.ne_of_mem_erase hu)]
  rw [Finset.sum_congr rfl hothers, htodo, x.did_self, List.length_cons]
  show ops.length + _ + 1 = ops.length + 1 + _
  omega

/-- Each step does one operation. -/
theorem left_step [Fintype T] {t : T} (hs : step x t = some y) : left y + 1 = left x := by
  cases htodo : (x.threads t).todo with
  | nil => rw [step, htodo] at hs; exact absurd hs (by simp)
  | cons op ops =>
    rw [step, htodo] at hs
    cases op with
    | lock l =>
      cases howner : x.owner l with
      | none =>
        simp only [howner, Option.some.injEq] at hs
        exact hs ▸ left_did htodo
      | some u =>
        simp only [howner] at hs
        exact absurd hs (by simp)
    | unlock l => exact Option.some.inj hs ▸ left_did htodo
    | suspend => exact Option.some.inj hs ▸ left_did htodo
    | resume => exact Option.some.inj hs ▸ left_did htodo
    | forget => exact Option.some.inj hs ▸ left_did htodo
    | act a => exact Option.some.inj hs ▸ left_did htodo

/-- **A run is as long as what it leaves less to do.** -/
theorem exec_length [Fintype T] (es : List T) : ∀ {x : State T L A},
    LTS.exec step x es = some y → es.length + left y = left x := by
  induction es with
  | nil =>
    intro x hrun
    rw [LTS.exec_nil, Option.some.injEq] at hrun
    rw [hrun, List.length_nil, Nat.zero_add]
  | cons t es ih =>
    intro x hrun
    obtain ⟨z, hstep, hrest⟩ := LTS.exec_cons_some hrun
    have hleft := left_step hstep
    have hlen := ih hrest
    rw [List.length_cons]
    omega

/-- **The threads can be run to their ends**, and then no lock is owned. -/
theorem Sound.completes [Fintype T] {bound : Nat} (hbound : ∀ l, rank l < bound) :
    ∀ n {x : State T L A}, Sound rank needs x → left x = n →
      ∃ es y, LTS.exec step x es = some y ∧ ∀ t, (y.threads t).todo = [] := by
  intro n
  induction n with
  | zero =>
    intro x _ hn
    refine ⟨[], x, rfl, fun t => ?_⟩
    have hzero := (Finset.sum_eq_zero_iff.mp hn) t (Finset.mem_univ t)
    exact List.eq_nil_of_length_eq_zero hzero
  | succ n ih =>
    intro x h hn
    have hsome : ∃ t, (x.threads t).todo ≠ [] := by
      by_contra hnone
      push Not at hnone
      have hzero : left x = 0 := Finset.sum_eq_zero fun t _ => by rw [hnone t]; rfl
      omega
    obtain ⟨t, hleft⟩ := hsome
    obtain ⟨u, hu⟩ := h.progress hbound hleft
    obtain ⟨y, hstep⟩ := Option.isSome_iff_exists.mp hu
    obtain ⟨es, z, hrun, hdone⟩ := ih (h.kept hstep) (by have := left_step hstep; omega)
    exact ⟨u :: es, z, by rw [LTS.exec_cons, hstep]; exact hrun, hdone⟩

end

/-! ## Function bodies -/

/-- A function body, as far as locks go: which way a branch goes and how often a loop turns is
    left open. -/
inductive Code (L A : Type) where
  | skip
  | act (a : A)
  /-- `return`. -/
  | ret
  /-- An `unwrap` of nothing. -/
  | panic
  | seq (c d : Code L A)
  | alt (c d : Code L A)
  | loop (c : Code L A)
  /-- A guard of the lock `l`, alive for `c`. -/
  | guard (l : L) (c : Code L A)
  /-- Interrupts suspended before `c`, and resumed where control comes to the end of it. -/
  | intr (c : Code L A)
  /-- A call: a `return` of its body ends the body only. -/
  | call (c : Code L A)

/-- How control leaves a body. -/
inductive Exit where
  | through
  | returned
  | panicked
  deriving DecidableEq

/-- **The operations of a body**, and how control leaves it. -/
inductive Runs : Code L A → List (Op L A) → Exit → Prop where
  | skip : Runs .skip [] .through
  | act (a : A) : Runs (.act a) [.act a] .through
  | ret : Runs .ret [] .returned
  | panic : Runs .panic [] .panicked
  | seq {c d ops ops' e} (hc : Runs c ops .through) (hd : Runs d ops' e) :
    Runs (.seq c d) (ops ++ ops') e
  | seqLeft {c d ops e} (hc : Runs c ops e) (he : e ≠ .through) : Runs (.seq c d) ops e
  | altLeft {c d ops e} (hc : Runs c ops e) : Runs (.alt c d) ops e
  | altRight {c d ops e} (hd : Runs d ops e) : Runs (.alt c d) ops e
  | loopEnd {c} : Runs (.loop c) [] .through
  | loopTurn {c ops ops' e} (hc : Runs c ops .through) (hrest : Runs (.loop c) ops' e) :
    Runs (.loop c) (ops ++ ops') e
  | loopLeft {c ops e} (hc : Runs c ops e) (he : e ≠ .through) : Runs (.loop c) ops e
  | guard {l c ops e} (hc : Runs c ops e) (he : e ≠ .panicked) :
    Runs (.guard l c) (.lock l :: (ops ++ [.unlock l])) e
  | guardPanic {l c ops} (hc : Runs c ops .panicked) : Runs (.guard l c) (.lock l :: ops) .panicked
  | intr {c ops} (hc : Runs c ops .through) :
    Runs (.intr c) (.suspend :: (ops ++ [.resume])) .through
  | intrLeft {c ops} (hc : Runs c ops .returned) :
    Runs (.intr c) (.suspend :: (ops ++ [.forget])) .returned
  | intrPanic {c ops} (hc : Runs c ops .panicked) : Runs (.intr c) (.suspend :: ops) .panicked
  | call {c ops e} (hc : Runs c ops e) (he : e ≠ .panicked) : Runs (.call c) ops .through
  | callPanic {c ops} (hc : Runs c ops .panicked) : Runs (.call c) ops .panicked

/-- One way through a body, where `choices` says which way each branch goes (`true`: the first) and
    whether a loop turns once more; the choices left over come back with it. -/
def Code.walk : Nat → Code L A → List Bool → Option (List (Op L A) × Exit × List Bool)
  | 0, _, _ => none
  | _ + 1, .skip, choices => some ([], .through, choices)
  | _ + 1, .act a, choices => some ([.act a], .through, choices)
  | _ + 1, .ret, choices => some ([], .returned, choices)
  | _ + 1, .panic, choices => some ([], .panicked, choices)
  | n + 1, .seq c d, choices =>
    match c.walk n choices with
    | some (ops, .through, choices) =>
      (d.walk n choices).map fun (ops', e, choices) => (ops ++ ops', e, choices)
    | result => result
  | n + 1, .alt c d, choice :: choices => if choice then c.walk n choices else d.walk n choices
  | _ + 1, .alt _ _, [] => none
  | n + 1, .loop c, true :: choices =>
    match c.walk n choices with
    | some (ops, .through, choices) =>
      (Code.walk n (.loop c) choices).map fun (ops', e, choices) => (ops ++ ops', e, choices)
    | result => result
  | _ + 1, .loop _, false :: choices => some ([], .through, choices)
  | _ + 1, .loop _, [] => none
  | n + 1, .guard l c, choices =>
    (c.walk n choices).map fun (ops, e, choices) =>
      (.lock l :: (if e = .panicked then ops else ops ++ [.unlock l]), e, choices)
  | n + 1, .intr c, choices =>
    (c.walk n choices).map fun (ops, e, choices) =>
      (.suspend :: (match e with
        | .through => ops ++ [.resume]
        | .returned => ops ++ [.forget]
        | .panicked => ops), e, choices)
  | n + 1, .call c, choices =>
    (c.walk n choices).map fun (ops, e, choices) =>
      (ops, if e = .panicked then .panicked else .through, choices)

/-- What is walked is a run of the body. -/
theorem walk_runs : ∀ (n : Nat) (c : Code L A) (choices : List Bool) {ops : List (Op L A)}
    {e : Exit} {rest : List Bool}, c.walk n choices = some (ops, e, rest) → Runs c ops e := by
  intro n
  induction n with
  | zero => intro c choices ops e rest h; exact absurd h (by simp [Code.walk])
  | succ n ih =>
    intro c choices ops e rest h
    cases c with
    | skip => simp only [Code.walk, Option.some.injEq, Prod.mk.injEq] at h; exact h.1 ▸ h.2.1 ▸ .skip
    | act a =>
      simp only [Code.walk, Option.some.injEq, Prod.mk.injEq] at h
      exact h.1 ▸ h.2.1 ▸ .act a
    | ret => simp only [Code.walk, Option.some.injEq, Prod.mk.injEq] at h; exact h.1 ▸ h.2.1 ▸ .ret
    | panic =>
      simp only [Code.walk, Option.some.injEq, Prod.mk.injEq] at h
      exact h.1 ▸ h.2.1 ▸ .panic
    | seq c d =>
      simp only [Code.walk] at h
      split at h
      · next ops₁ choices₁ hc =>
        obtain ⟨⟨ops₂, e₂, rest₂⟩, hd, heq⟩ := Option.map_eq_some_iff.mp h
        simp only [Prod.mk.injEq] at heq
        exact heq.1 ▸ heq.2.1 ▸ .seq (ih c choices hc) (ih d choices₁ hd)
      · next hthrough =>
        refine .seqLeft (ih c choices h) ?_
        rintro rfl
        exact hthrough _ _ h
    | alt c d =>
      cases choices with
      | nil => exact absurd h (by simp [Code.walk])
      | cons choice choices =>
        simp only [Code.walk] at h
        split at h
        · exact .altLeft (ih c choices h)
        · exact .altRight (ih d choices h)
    | loop c =>
      match choices with
      | [] => exact absurd h (by simp [Code.walk])
      | false :: choices =>
        simp only [Code.walk, Option.some.injEq, Prod.mk.injEq] at h
        exact h.1 ▸ h.2.1 ▸ .loopEnd
      | true :: choices =>
        simp only [Code.walk] at h
        split at h
        · next ops₁ choices₁ hc =>
          obtain ⟨⟨ops₂, e₂, rest₂⟩, hd, heq⟩ := Option.map_eq_some_iff.mp h
          simp only [Prod.mk.injEq] at heq
          exact heq.1 ▸ heq.2.1 ▸ .loopTurn (ih c choices hc) (ih (.loop c) choices₁ hd)
        · next hthrough =>
          refine .loopLeft (ih c choices h) ?_
          rintro rfl
          exact hthrough _ _ h
    | guard l c =>
      simp only [Code.walk] at h
      obtain ⟨⟨ops₁, e₁, rest₁⟩, hc, heq⟩ := Option.map_eq_some_iff.mp h
      simp only [Prod.mk.injEq] at heq
      obtain ⟨rfl, rfl, rfl⟩ := heq
      by_cases he : e₁ = .panicked
      · subst he
        exact .guardPanic (ih c choices hc)
      · rw [if_neg he]
        exact .guard (ih c choices hc) he
    | intr c =>
      simp only [Code.walk] at h
      obtain ⟨⟨ops₁, e₁, rest₁⟩, hc, heq⟩ := Option.map_eq_some_iff.mp h
      simp only [Prod.mk.injEq] at heq
      obtain ⟨rfl, rfl, rfl⟩ := heq
      cases e₁ with
      | through => exact .intr (ih c choices hc)
      | returned => exact .intrLeft (ih c choices hc)
      | panicked => exact .intrPanic (ih c choices hc)
    | call c =>
      simp only [Code.walk] at h
      obtain ⟨⟨ops₁, e₁, rest₁⟩, hc, heq⟩ := Option.map_eq_some_iff.mp h
      simp only [Prod.mk.injEq] at heq
      obtain ⟨rfl, rfl, rfl⟩ := heq
      by_cases he : e₁ = .panicked
      · subst he
        exact .callPanic (ih c choices hc)
      · rw [if_neg he]
        exact .call (ih c choices hc) he

namespace Code

variable [DecidableEq L] (rank : L → Nat) (needs : A → Option L)

/-- The body respects the discipline inside the frames `fs`, and panics inside none. -/
def ok : List (Frame L) → Code L A → Bool
  | _, skip => true
  | fs, act a => (needs a).all fun l => l ∈ locksOf fs
  | _, ret => true
  | fs, panic => fs.isEmpty
  | fs, seq c d => ok fs c && ok fs d
  | fs, alt c d => ok fs c && ok fs d
  | fs, loop c => ok fs c
  | fs, guard l c => (locksOf fs).all (fun k => rank k < rank l) && ok (.guard l :: fs) c
  | fs, intr c => ok (.intr :: fs) c
  | fs, call c => ok fs c

/-- Some way through the body returns. -/
def mayReturn : Code L A → Bool
  | skip | act _ | panic | call _ => false
  | ret => true
  | seq c d | alt c d => mayReturn c || mayReturn d
  | loop c | guard _ c | intr c => mayReturn c

/-- Some way through the body leaves a suspension of interrupts behind outside every guard. -/
def mayLeak : Code L A → Bool
  | skip | act _ | ret | panic | guard _ _ => false
  | seq c d | alt c d => mayLeak c || mayLeak d
  | loop c | call c => mayLeak c
  | intr c => mayReturn c

end Code

/-- **A body that is `ok` is disciplined**, followed by anything that is. -/
theorem ok_disciplined [DecidableEq L] {rank : L → Nat} {needs : A → Option L} {c : Code L A}
    {ops : List (Op L A)} {e : Exit} (h : Runs c ops e) :
    ∀ {fs : List (Frame L)} {rest : List (Op L A)}, c.ok rank needs fs = true →
      (if e = .panicked then rest = [] else Disciplined rank needs rest fs) →
      Disciplined rank needs (ops ++ rest) fs := by
  induction h with
  | skip => exact fun _ hrest => hrest
  | act a =>
    intro fs rest hok hrest
    refine ⟨fun l hl => ?_, hrest⟩
    simp only [Code.ok, hl, Option.all_some, decide_eq_true_eq] at hok
    exact hok
  | ret => exact fun _ hrest => hrest
  | panic =>
    intro fs rest hok hrest
    rw [show rest = [] from hrest]
    exact List.isEmpty_iff.mp hok
  | seq _ _ ihc ihd =>
    intro fs rest hok hrest
    rw [Code.ok, Bool.and_eq_true] at hok
    rw [List.append_assoc]
    exact ihc hok.1 (ihd hok.2 hrest)
  | seqLeft _ _ ihc =>
    intro fs rest hok hrest
    rw [Code.ok, Bool.and_eq_true] at hok
    exact ihc hok.1 hrest
  | altLeft _ ihc =>
    intro fs rest hok hrest
    rw [Code.ok, Bool.and_eq_true] at hok
    exact ihc hok.1 hrest
  | altRight _ ihd =>
    intro fs rest hok hrest
    rw [Code.ok, Bool.and_eq_true] at hok
    exact ihd hok.2 hrest
  | loopEnd => exact fun _ hrest => hrest
  | loopTurn _ _ ihc ihrest =>
    intro fs rest hok hrest
    rw [List.append_assoc]
    exact ihc hok (ihrest hok hrest)
  | loopLeft _ _ ihc => exact fun hok hrest => ihc hok hrest
  | @guard l c ops e _ he ihc =>
    intro fs rest hok hrest
    rw [if_neg he] at hrest
    simp only [Code.ok, Bool.and_eq_true, List.all_eq_true, decide_eq_true_eq] at hok
    refine ⟨hok.1, ?_⟩
    show Disciplined rank needs (ops ++ [.unlock l] ++ rest) (.guard l :: fs)
    rw [List.append_assoc]
    apply ihc hok.2
    rw [if_neg he]
    exact ⟨rfl, hrest⟩
  | guardPanic _ ihc =>
    intro fs rest hok hrest
    simp only [Code.ok, Bool.and_eq_true, List.all_eq_true, decide_eq_true_eq] at hok
    exact ⟨hok.1, ihc hok.2 hrest⟩
  | @intr c ops _ ihc =>
    intro fs rest hok hrest
    show Disciplined rank needs (ops ++ [.resume] ++ rest) (.intr :: fs)
    rw [List.append_assoc]
    exact ihc hok hrest
  | @intrLeft c ops _ ihc =>
    intro fs rest hok hrest
    show Disciplined rank needs (ops ++ [.forget] ++ rest) (.intr :: fs)
    rw [List.append_assoc]
    exact ihc hok hrest
  | intrPanic _ ihc => exact fun hok hrest => ihc hok hrest
  | call _ he ihc =>
    intro fs rest hok hrest
    apply ihc hok
    rw [if_neg he]
    exact hrest
  | callPanic _ ihc => exact fun hok hrest => ihc hok hrest

/-! ## The mask a body leaves -/

/-- A mask is lost outside every frame, `n` frames in. -/
def leaks : Nat → List (Op L A) → Bool
  | _, [] => false
  | n, .lock _ :: ops | n, .suspend :: ops => leaks (n + 1) ops
  | n, .unlock _ :: ops | n, .resume :: ops => leaks (n - 1) ops
  | n, .forget :: ops => n = 1 || leaks (n - 1) ops
  | n, .act _ :: ops => leaks n ops

/-- The frames of a body are closed behind it, and inside a frame nothing is lost outside one. -/
theorem leaks_append {c : Code L A} {ops : List (Op L A)} {e : Exit} (h : Runs c ops e)
    (he : e ≠ .panicked) :
    ∀ n (rest : List (Op L A)),
      leaks n (ops ++ rest) = ((n = 0 && leaks 0 ops) || leaks n rest) := by
  induction h with
  | skip | ret | loopEnd => intro n rest; simp [leaks]
  | panic => exact absurd rfl he
  | act a => intro n rest; simp [leaks]
  | seq _ _ ihc ihd =>
    intro n rest
    rw [List.append_assoc, ihc (by simp), ihd he, ihc (by simp) 0]
    cases n <;> simp [Bool.or_assoc]
  | seqLeft _ _ ihc | altLeft _ ihc | altRight _ ihc | loopLeft _ _ ihc => exact ihc he
  | loopTurn _ _ ihc ihrest =>
    intro n rest
    rw [List.append_assoc, ihc (by simp), ihrest he, ihc (by simp) 0]
    cases n <;> simp [Bool.or_assoc]
  | guard _ _ ihc =>
    intro n rest
    simp [leaks, ihc he]
  | guardPanic => exact absurd rfl he
  | intr _ ihc =>
    intro n rest
    simp [leaks, ihc he]
  | intrLeft _ ihc =>
    intro n rest
    simp [leaks, ihc he]
  | intrPanic => exact absurd rfl he
  | call _ he' ihc => exact ihc he'
  | callPanic => exact absurd rfl he

/-- **The masks behind a body**: those found, but for a suspension that was lost. -/
theorem runs_masks {c : Code L A} {ops : List (Op L A)} {e : Exit} (h : Runs c ops e)
    (he : e ≠ .panicked) :
    ∀ m : Masks, ops.foldl Op.masks m = ⟨m.mask || leaks 0 ops, m.kept⟩ := by
  induction h with
  | skip | ret | loopEnd => intro m; simp [leaks]
  | panic => exact absurd rfl he
  | act a => intro m; simp [leaks, Op.masks]
  | seq hc _ ihc ihd =>
    intro m
    rw [List.foldl_append, ihc (by simp), ihd he, leaks_append hc (by simp)]
    simp [Bool.or_assoc]
  | seqLeft _ _ ihc | altLeft _ ihc | altRight _ ihc | loopLeft _ _ ihc => exact ihc he
  | loopTurn hc _ ihc ihrest =>
    intro m
    rw [List.foldl_append, ihc (by simp), ihrest he, leaks_append hc (by simp)]
    simp [Bool.or_assoc]
  | guard hc _ ihc =>
    -- the guard puts back what it found, whatever was lost inside
    intro m
    rw [List.foldl_cons, List.foldl_append, ihc he, leaks, leaks_append hc he]
    simp [Op.masks, Masks.push, Masks.pop, leaks]
  | guardPanic => exact absurd rfl he
  | intr hc ihc =>
    intro m
    rw [List.foldl_cons, List.foldl_append, ihc he, leaks, leaks_append hc he]
    simp [Op.masks, Masks.push, Masks.pop, leaks]
  | intrLeft hc ihc =>
    intro m
    rw [List.foldl_cons, List.foldl_append, ihc he, leaks, leaks_append hc he]
    simp [Op.masks, Masks.push, Masks.drop, leaks]
  | intrPanic => exact absurd rfl he
  | call _ he' ihc => exact ihc he'
  | callPanic => exact absurd rfl he

/-- A body without a `return` does not return. -/
theorem not_returned {c : Code L A} {ops : List (Op L A)} {e : Exit} (h : Runs c ops e)
    (hret : c.mayReturn = false) : e ≠ .returned := by
  induction h with
  | skip | act | panic | loopEnd | guardPanic | intr | intrPanic | call | callPanic => simp
  | ret => exact absurd hret (by simp [Code.mayReturn])
  | seq _ _ _ ihd =>
    rw [Code.mayReturn, Bool.or_eq_false_iff] at hret
    exact ihd hret.2
  | seqLeft _ _ ihc | altLeft _ ihc =>
    rw [Code.mayReturn, Bool.or_eq_false_iff] at hret
    exact ihc hret.1
  | altRight _ ihd =>
    rw [Code.mayReturn, Bool.or_eq_false_iff] at hret
    exact ihd hret.2
  | loopTurn _ _ _ ihrest => exact ihrest hret
  | loopLeft _ _ ihc | guard _ _ ihc => exact ihc hret
  | intrLeft _ ihc => exact absurd rfl (ihc hret)

/-- **A body that may not leak** leaves the mask as it found it. -/
theorem not_leaks {c : Code L A} {ops : List (Op L A)} {e : Exit} (h : Runs c ops e)
    (he : e ≠ .panicked) (hleak : c.mayLeak = false) : leaks 0 ops = false := by
  induction h with
  | skip | act | ret | loopEnd => simp [leaks]
  | panic => exact absurd rfl he
  | seq hc _ ihc ihd =>
    rw [Code.mayLeak, Bool.or_eq_false_iff] at hleak
    rw [leaks_append hc (by simp), ihc (by simp) hleak.1, ihd he hleak.2]
    rfl
  | seqLeft _ _ ihc | altLeft _ ihc =>
    rw [Code.mayLeak, Bool.or_eq_false_iff] at hleak
    exact ihc he hleak.1
  | altRight _ ihd =>
    rw [Code.mayLeak, Bool.or_eq_false_iff] at hleak
    exact ihd he hleak.2
  | loopTurn hc _ ihc ihrest =>
    rw [leaks_append hc (by simp), ihc (by simp) hleak, ihrest he hleak]
    rfl
  | loopLeft _ _ ihc => exact ihc he hleak
  | guard hc _ ihc =>
    rw [leaks, leaks_append hc he]
    rfl
  | guardPanic => exact absurd rfl he
  | intr hc ihc =>
    rw [leaks, leaks_append hc he]
    rfl
  | intrLeft hc => exact absurd rfl (not_returned hc hleak)
  | intrPanic => exact absurd rfl he
  | call _ he' ihc => exact ihc he' hleak
  | callPanic => exact absurd rfl he

end RankedLocks

/-
  `kernel/mpsc.rs`: the ring buffer of pending exception events, run by one thread at a time.

  `head` and `tail` are indices into `CAP` cells of possibly uninitialised storage (`none` in a cell
  of `buf`); one cell stays unused, so the ring holds at most `CAP - 1` elements.  `RingCells` is
  this representation with the code's operations on it.  `Holds r q` relates it to the FIFO queue
  `q` it stores: `q` starts at `tail`, ends at `head`, and its cells are initialised; every
  operation is the queue's operation of the same name under `Holds`.

  `MpscRing` is a representation that stores some queue, so a ring with a hole cannot be built.  Its
  `pending` elements are what the rest of the development speaks of: `push` appends
  (`pending_push`) or is refused by a full ring (`push_full`), `pop` takes the oldest
  (`pop_pending`), `clear` leaves none (`pending_clear`), and the code's test `0 < len()` is
  "something is pending" (`len_pos_iff`).
-/
import VitaGdb.Kernel.Basic

namespace VitaGdb

/-- The fields of an `MpscRing<T, CAP>`. -/
structure RingCells (T : Type) (CAP : Nat) where
  buf : Nat → Option T
  head : Nat
  tail : Nat

namespace RingCells

variable {T : Type} {CAP : Nat}

/-- `MpscRing::new`. -/
def new : RingCells T CAP := { buf := fun _ => none, head := 0, tail := 0 }

/-- `push`: refuse when the cell after `head` is `tail`, else store and advance `head`. -/
def push (r : RingCells T CAP) (s : T) : Bool × RingCells T CAP :=
  let next := (r.head + 1) % CAP
  if next = r.tail then (false, r)
  else (true, { r with buf := Function.update r.buf r.head (some s), head := next })

/-- `pop`: nothing when `tail` is `head`, else read the cell at `tail` and advance it. -/
def pop (r : RingCells T CAP) : Option T × RingCells T CAP :=
  if r.tail = r.head then (none, r)
  else (r.buf r.tail, { r with tail := (r.tail + 1) % CAP })

/-- The loop of `clear`: the cells it drops, from `idx` until it meets `head`. -/
def dropFrom (r : RingCells T CAP) : Nat → Nat → List (Option T)
  | 0, _ => []
  | fuel + 1, idx =>
    if idx = r.head then [] else r.buf idx :: dropFrom r fuel ((idx + 1) % CAP)

/-- `clear`: drop the cells from `tail` to `head`, then set `tail` to `head`.  (`CAP` turns of the
    loop are enough for any two indices below `CAP`.) -/
def clear (r : RingCells T CAP) : List (Option T) × RingCells T CAP :=
  (r.dropFrom CAP r.tail, { r with tail := r.head })

/-- `len`: a plain difference of two `usize` (wrapping in a release build). -/
def len (r : RingCells T CAP) : U32 := BitVec.ofNat 32 r.head - BitVec.ofNat 32 r.tail

/-! ## The queue a ring stores -/

/-- `r` stores the queue `q`, oldest element first. -/
structure Holds (r : RingCells T CAP) (q : List T) : Prop where
  tail_lt : r.tail < CAP
  head_eq : r.head = (r.tail + q.length) % CAP
  length_lt : q.length < CAP
  cells : ∀ i, i < q.length → r.buf ((r.tail + i) % CAP) = q[i]?

theorem Holds.new (h : 0 < CAP) : Holds (new : RingCells T CAP) [] where
  tail_lt := h
  head_eq := (Nat.zero_mod CAP).symm
  length_lt := h
  cells := fun i hi => absurd hi (Nat.not_lt_zero i)

/-- Two offsets below `CAP` from one index reach one cell only when they are equal. -/
theorem mod_offset_inj {t i j : Nat} (hi : i < CAP) (hj : j < CAP)
    (h : (t + i) % CAP = (t + j) % CAP) : i = j := by
  have hmod : Nat.ModEq CAP i j := Nat.ModEq.add_left_cancel' t h
  rwa [Nat.ModEq, Nat.mod_eq_of_lt hi, Nat.mod_eq_of_lt hj] at hmod

variable {r : RingCells T CAP} {q : List T}

theorem Holds.head_lt (h : Holds r q) : r.head < CAP := by
  rw [h.head_eq]
  exact Nat.mod_lt _ (Nat.lt_of_le_of_lt (Nat.zero_le _) h.tail_lt)

/-- `tail` meets `head` exactly on the empty queue. -/
theorem Holds.tail_eq_head_iff (h : Holds r q) : r.tail = r.head ↔ q = [] := by
  have hpos : 0 < CAP := Nat.lt_of_le_of_lt (Nat.zero_le _) h.tail_lt
  rw [h.head_eq]
  constructor
  · intro he
    have h0 : (r.tail + 0) % CAP = (r.tail + q.length) % CAP := by
      rwa [Nat.add_zero, Nat.mod_eq_of_lt h.tail_lt]
    exact List.length_eq_zero_iff.mp (mod_offset_inj hpos h.length_lt h0).symm
  · rintro rfl
    rw [List.length_nil, Nat.add_zero, Nat.mod_eq_of_lt h.tail_lt]

/-- The cell after `head` is `tail` exactly on the full queue. -/
theorem Holds.next_eq_tail_iff (h : Holds r q) :
    (r.head + 1) % CAP = r.tail ↔ q.length + 1 = CAP := by
  have hpos : 0 < CAP := Nat.lt_of_le_of_lt (Nat.zero_le _) h.tail_lt
  rw [h.head_eq, Nat.mod_add_mod, Nat.add_assoc]
  constructor
  · intro he
    by_contra hne
    have h0 : (r.tail + (q.length + 1)) % CAP = (r.tail + 0) % CAP := by
      rw [he, Nat.add_zero, Nat.mod_eq_of_lt h.tail_lt]
    have hlt : q.length + 1 < CAP := by have := h.length_lt; omega
    exact absurd (mod_offset_inj hlt hpos h0) (by omega)
  · intro he
    rw [he, Nat.add_mod_right, Nat.mod_eq_of_lt h.tail_lt]

/-- The cell at `head` is not one of the queue's: it can be written. -/
theorem Holds.write (h : Holds r q) (s : Option T) :
    Holds ({ r with buf := Function.update r.buf r.head s } : RingCells T CAP) q := by
  refine ⟨h.tail_lt, h.head_eq, h.length_lt, fun i hi => ?_⟩
  have hcell : (r.tail + i) % CAP ≠ r.head := fun he => by
    rw [h.head_eq] at he
    have := mod_offset_inj (Nat.lt_trans hi h.length_lt) h.length_lt he
    omega
  show Function.update r.buf r.head s ((r.tail + i) % CAP) = q[i]?
  rw [Function.update_of_ne hcell, h.cells i hi]

/-- Advancing `head` over a written cell appends what is in it. -/
theorem Holds.advance {s : T} (h : Holds r q) (hcell : r.buf r.head = some s)
    (hroom : q.length + 1 < CAP) :
    Holds ({ r with head := (r.head + 1) % CAP } : RingCells T CAP) (q ++ [s]) := by
  refine ⟨h.tail_lt, ?_, ?_, fun i hi => ?_⟩
  · show (r.head + 1) % CAP = (r.tail + (q ++ [s]).length) % CAP
    rw [List.length_append, List.length_singleton, h.head_eq, Nat.mod_add_mod, Nat.add_assoc]
  · rw [List.length_append, List.length_singleton]
    exact hroom
  · rw [List.length_append, List.length_singleton] at hi
    show r.buf ((r.tail + i) % CAP) = (q ++ [s])[i]?
    rcases Nat.lt_or_eq_of_le (Nat.le_of_lt_succ hi) with hlt | rfl
    · rw [h.cells i hlt, List.getElem?_append_left hlt]
    · rw [← h.head_eq, hcell, List.getElem?_append_right (Nat.le_refl _), Nat.sub_self]
      rfl

/-- **Push** onto a queue with room appends. -/
theorem Holds.push (h : Holds r q) (s : T) (hroom : q.length + 1 < CAP) :
    (r.push s).1 = true ∧ Holds (r.push s).2 (q ++ [s]) := by
  have hne : (r.head + 1) % CAP ≠ r.tail := fun he => by
    have := h.next_eq_tail_iff.mp he
    omega
  rw [RingCells.push, if_neg hne]
  exact ⟨rfl, (h.write (some s)).advance (Function.update_self r.head (some s) r.buf) hroom⟩

/-- **Push** onto a full queue is refused and changes nothing. -/
theorem Holds.push_full (h : Holds r q) (s : T) (hfull : q.length + 1 = CAP) :
    r.push s = (false, r) := by
  rw [RingCells.push, if_pos (h.next_eq_tail_iff.mpr hfull)]

/-- Advancing `tail` over a front of the queue takes it. -/
theorem Holds.retire {d : List T} (h : Holds r (d ++ q)) :
    Holds ({ r with tail := (r.tail + d.length) % CAP } : RingCells T CAP) q := by
  have hpos : 0 < CAP := Nat.lt_of_le_of_lt (Nat.zero_le _) h.tail_lt
  have hlen := h.length_lt
  rw [List.length_append] at hlen
  refine ⟨Nat.mod_lt _ hpos, ?_, by omega, fun i hi => ?_⟩
  · show r.head = ((r.tail + d.length) % CAP + q.length) % CAP
    rw [Nat.mod_add_mod, h.head_eq, List.length_append, Nat.add_assoc]
  · have hcell := h.cells (d.length + i) (by rw [List.length_append]; omega)
    show r.buf (((r.tail + d.length) % CAP + i) % CAP) = q[i]?
    rw [Nat.mod_add_mod, Nat.add_assoc, hcell, List.getElem?_append_right (Nat.le_add_right _ _),
      Nat.add_sub_cancel_left]

/-- The cell at `tail` is the oldest element. -/
theorem Holds.oldest {s : T} (h : Holds r (s :: q)) : r.buf r.tail = some s := by
  have h0 := h.cells 0 (by simp)
  rwa [Nat.add_zero, Nat.mod_eq_of_lt h.tail_lt] at h0

/-- **Pop** takes the oldest element. -/
theorem Holds.pop {s : T} (h : Holds r (s :: q)) :
    (r.pop).1 = some s ∧ Holds (r.pop).2 q := by
  have hne : r.tail ≠ r.head := fun he => absurd (h.tail_eq_head_iff.mp he) (by simp)
  rw [RingCells.pop, if_neg hne]
  exact ⟨h.oldest, Holds.retire (d := [s]) h⟩

theorem Holds.pop_empty (h : Holds r ([] : List T)) : r.pop = (none, r) := by
  rw [RingCells.pop, if_pos (h.tail_eq_head_iff.mpr rfl)]

/-- From the `k`-th element on, the loop of `clear` drops the rest of the queue in order. -/
theorem Holds.dropFrom_eq (h : Holds r q) : ∀ (fuel k : Nat), k ≤ q.length → q.length < k + fuel →
    r.dropFrom fuel ((r.tail + k) % CAP) = (q.drop k).map some
  | 0, k, hk, hfuel => absurd hfuel (by omega)
  | fuel + 1, k, hk, hfuel => by
    rcases Nat.lt_or_eq_of_le hk with hlt | heq
    · have hne : (r.tail + k) % CAP ≠ r.head := fun he => by
        rw [h.head_eq] at he
        have := mod_offset_inj (Nat.lt_trans hlt h.length_lt) h.length_lt he
        omega
      rw [dropFrom, if_neg hne, h.cells k hlt, List.getElem?_eq_getElem hlt, Nat.mod_add_mod,
        Nat.add_assoc, h.dropFrom_eq fuel (k + 1) hlt (by omega), List.drop_eq_getElem_cons hlt,
        List.map_cons]
    · rw [dropFrom, heq, if_pos h.head_eq.symm, List.drop_length, List.map_nil]

/-- **Clear** drops every queued element exactly once, oldest first. -/
theorem Holds.clear_drops (h : Holds r q) : (r.clear).1 = q.map some := by
  have hdrop := h.dropFrom_eq CAP 0 (Nat.zero_le _) (by have := h.length_lt; omega)
  rwa [Nat.add_zero, Nat.mod_eq_of_lt h.tail_lt, List.drop_zero] at hdrop

/-- ... and leaves the queue empty. -/
theorem Holds.clear (h : Holds r q) : Holds (r.clear).2 [] where
  tail_lt := h.head_lt
  head_eq := by
    show r.head = (r.head + 0) % CAP
    rw [Nat.add_zero, Nat.mod_eq_of_lt h.head_lt]
  length_lt := Nat.lt_of_le_of_lt (Nat.zero_le _) h.tail_lt
  cells := fun i hi => absurd hi (Nat.not_lt_zero i)

/-- The code's test for a pending element, on any ring whose indices fit a `usize`. -/
theorem Holds.len_pos_iff (h : Holds r q) (hcap : CAP ≤ 2 ^ 32) : (0 < r.len) ↔ q ≠ [] := by
  have hh : r.head < 2 ^ 32 := Nat.lt_of_lt_of_le h.head_lt hcap
  have ht : r.tail < 2 ^ 32 := Nat.lt_of_lt_of_le h.tail_lt hcap
  rw [← not_iff_not, not_not, ← h.tail_eq_head_iff, len, BitVec.lt_def]
  rw [BitVec.toNat_sub, BitVec.toNat_ofNat, BitVec.toNat_ofNat, Nat.mod_eq_of_lt hh,
    Nat.mod_eq_of_lt ht]
  show ¬ 0 < _ ↔ _
  omega

end RingCells

/-! ## The ring -/

/-- `MpscRing<T, CAP>`: cells that store a queue. -/
structure MpscRing (T : Type) (CAP : Nat) extends RingCells T CAP where
  holds : ∃ q, toRingCells.Holds q

namespace MpscRing

variable {T : Type} {CAP : Nat}

/-- `MpscRing::new`. -/
def new [NeZero CAP] : MpscRing T CAP where
  toRingCells := RingCells.new
  holds := ⟨[], RingCells.Holds.new (Nat.pos_of_neZero CAP)⟩

/-- The elements pushed and not yet popped, oldest first: the cells `clear` would drop. -/
def pending (r : MpscRing T CAP) : List T := r.toRingCells.clear.1.filterMap id

theorem pending_eq {r : MpscRing T CAP} {q : List T} (h : r.toRingCells.Holds q) :
    r.pending = q := by
  rw [pending, h.clear_drops, List.filterMap_map]
  exact List.filterMap_some

theorem holds_pending (r : MpscRing T CAP) : r.toRingCells.Holds r.pending := by
  obtain ⟨q, hq⟩ := r.holds
  rwa [pending_eq hq]

/-- One cell is always unused. -/
theorem pending_length_lt (r : MpscRing T CAP) : r.pending.length < CAP := r.holds_pending.length_lt

/-- `push`. -/
def push (r : MpscRing T CAP) (s : T) : Bool × MpscRing T CAP :=
  ((r.toRingCells.push s).1, { (r.toRingCells.push s).2 with
    holds := by
      by_cases hroom : r.pending.length + 1 < CAP
      · exact ⟨_, (r.holds_pending.push s hroom).2⟩
      · have hfull : r.pending.length + 1 = CAP := by
          have := r.pending_length_lt
          omega
        rw [r.holds_pending.push_full s hfull]
        exact r.holds })

/-- `pop`. -/
def pop (r : MpscRing T CAP) : Option T × MpscRing T CAP :=
  (r.toRingCells.pop.1, { r.toRingCells.pop.2 with
    holds := by
      have h := r.holds_pending
      cases hq : r.pending with
      | nil =>
        rw [hq] at h
        rw [h.pop_empty]
        exact r.holds
      | cons e q =>
        rw [hq] at h
        exact ⟨q, h.pop.2⟩ })

/-- `clear`: the dropped cells and the ring. -/
def clear (r : MpscRing T CAP) : List (Option T) × MpscRing T CAP :=
  (r.toRingCells.clear.1, { r.toRingCells.clear.2 with holds := ⟨[], r.holds_pending.clear⟩ })

/-- `len`. -/
def len (r : MpscRing T CAP) : U32 := r.toRingCells.len

@[simp] theorem pending_new [NeZero CAP] : (new : MpscRing T CAP).pending = [] :=
  pending_eq (RingCells.Holds.new (Nat.pos_of_neZero CAP))

/-- **Push** onto a ring with room appends. -/
theorem pending_push (r : MpscRing T CAP) (s : T) (hroom : r.pending.length + 1 < CAP) :
    (r.push s).2.pending = r.pending ++ [s] :=
  pending_eq (r.holds_pending.push s hroom).2

/-- **Push** onto a full ring changes nothing. -/
theorem pending_push_full (r : MpscRing T CAP) (s : T) (hfull : ¬ r.pending.length + 1 < CAP) :
    (r.push s).2.pending = r.pending := by
  have heq : r.pending.length + 1 = CAP := by
    have := r.pending_length_lt
    omega
  refine pending_eq ?_
  show ((r.toRingCells.push s).2).Holds r.pending
  rw [r.holds_pending.push_full s heq]
  exact r.holds_pending

/-- **Pop** takes the oldest element. -/
theorem pop_pending (r : MpscRing T CAP) :
    r.pop.1 = r.pending.head? ∧ r.pop.2.pending = r.pending.tail := by
  have h := r.holds_pending
  cases hq : r.pending with
  | nil =>
    rw [hq] at h
    refine ⟨congrArg Prod.fst h.pop_empty, pending_eq ?_⟩
    show (r.toRingCells.pop.2).Holds []
    rw [h.pop_empty]
    exact h
  | cons e q =>
    rw [hq] at h
    exact ⟨h.pop.1, pending_eq h.pop.2⟩

/-- **Clear** leaves nothing pending, and drops each pending element once, oldest first. -/
theorem pending_clear (r : MpscRing T CAP) :
    r.clear.2.pending = [] ∧ r.clear.1 = r.pending.map some :=
  ⟨pending_eq r.holds_pending.clear, r.holds_pending.clear_drops⟩

/-- The code's test for a pending element, on any ring whose indices fit a `usize`. -/
theorem len_pos_iff (r : MpscRing T CAP) (hcap : CAP ≤ 2 ^ 32) : 0 < r.len ↔ r.pending ≠ [] :=
  r.holds_pending.len_pos_iff hcap

end MpscRing

end VitaGdb

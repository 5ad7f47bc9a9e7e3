/-
  The length of a ring: what `len` answers, against what its callers can count.

  `RingLedger` is a ring with its calls on record: how many elements it has accepted (a `push` that
  answered true) and how many it has given up (a `pop` that returned one, a `clear` that dropped
  some).  `RingCounts` says what the two numbers are from the calls alone, as a queue of `CAP - 1`
  elements counts them; `Tallies` is the relation between the two, kept by every call
  (`Tallies.call`, `tallies_ledger`), and it says where the indices are: `head` is the first number
  modulo `CAP`, `tail` the second.

  `len` subtracts the indices, not the numbers.  The difference is the number of elements as long as
  both have gone round the ring equally often, and otherwise it is off by `CAP` below zero
  (`Tallies.len_toNat`): a build with overflow checks panics there, a release build wraps.  So the
  length is exact on the runs that end so, and on no other (`len_exact_iff`), and no capacity is
  without one of the other kind (`len_inexact`).  `has_excp` compares the length with 0 only, which
  comes out right whenever the subtraction comes out at all (`hasExcp_iff_popExcp`).
-/
import VitaGdb.Gdb.Stops

namespace VitaGdb

/-! ## Calls on a ring -/

/-- A call on a ring. -/
inductive RingCall (T : Type) where
  | push (s : T)
  | pop
  | clear

/-- A ring, and what its answers so far add up to. -/
structure RingLedger (T : Type) (CAP : Nat) where
  ring : RingCells T CAP
  accepted : Nat
  taken : Nat

variable {T : Type} {CAP : Nat}

namespace RingLedger

/-- `MpscRing::new`. -/
def new : RingLedger T CAP := { ring := RingCells.new, accepted := 0, taken := 0 }

/-- One call: `push` counts where it answers true, `pop` where it returns an element, `clear` the
    cells it drops. -/
def call (x : RingLedger T CAP) : RingCall T → RingLedger T CAP
  | .push s =>
    let (answer, ring) := x.ring.push s
    { x with ring := ring, accepted := x.accepted + answer.toNat }
  | .pop =>
    let (cell, ring) := x.ring.pop
    { x with ring := ring, taken := x.taken + cell.isSome.toNat }
  | .clear =>
    let (dropped, ring) := x.ring.clear
    { x with ring := ring, taken := x.taken + dropped.length }

/-- The elements pushed and not yet popped or cleared. -/
def count (x : RingLedger T CAP) : Nat := x.accepted - x.taken

end RingLedger

/-- A new ring after some calls. -/
def ledger (CAP : Nat) (calls : List (RingCall T)) : RingLedger T CAP :=
  calls.foldl RingLedger.call RingLedger.new

/-- The two numbers, as a queue of `CAP - 1` elements has them. -/
structure RingCounts where
  accepted : Nat
  taken : Nat
  deriving DecidableEq

/-- One call: a full queue refuses, an empty one has nothing to take, a clear takes all. -/
def RingCounts.call (CAP : Nat) (c : RingCounts) : RingCall T → RingCounts
  | .push _ => if c.accepted + 1 < c.taken + CAP then { c with accepted := c.accepted + 1 } else c
  | .pop => if c.taken < c.accepted then { c with taken := c.taken + 1 } else c
  | .clear => { c with taken := c.accepted }

/-- The counts after some calls on a new ring. -/
def ringCounts (CAP : Nat) (calls : List (RingCall T)) : RingCounts :=
  calls.foldl (RingCounts.call CAP) ⟨0, 0⟩

/-- `len` in a build with overflow checks. -/
def RingCells.lenChecked (r : RingCells T CAP) : Outcome Unit Nat :=
  if r.tail ≤ r.head then .ok (r.head - r.tail) else .panic

/-! ## The indices and the counts -/

/-- The ledger's numbers are `c`, its ring stores as many elements as they differ by, and `tail` is
    the second of them modulo `CAP`. -/
structure Tallies (x : RingLedger T CAP) (c : RingCounts) : Prop where
  holds : ∃ q, x.ring.Holds q ∧ x.accepted = x.taken + q.length
  tail_eq : x.ring.tail = x.taken % CAP
  accepted_eq : x.accepted = c.accepted
  taken_eq : x.taken = c.taken

theorem Tallies.new (hcap : 0 < CAP) : Tallies (RingLedger.new : RingLedger T CAP) ⟨0, 0⟩ where
  holds := ⟨[], RingCells.Holds.new hcap, rfl⟩
  tail_eq := (Nat.zero_mod CAP).symm
  accepted_eq := rfl
  taken_eq := rfl

variable {x : RingLedger T CAP} {c : RingCounts}

/-- A `push` is accepted exactly where the queue is not full. -/
theorem Tallies.push (h : Tallies x c) (s : T) :
    Tallies (x.call (.push s)) (c.call CAP (.push s)) := by
  obtain ⟨q, hq, hlen⟩ := h.holds
  have haccepted := h.accepted_eq
  have htaken := h.taken_eq
  have hlt := hq.length_lt
  by_cases hroom : q.length + 1 < CAP
  · obtain ⟨hanswer, hpushed⟩ := hq.push s hroom
    have hc : c.accepted + 1 < c.taken + CAP := by omega
    have htail : (x.ring.push s).2.tail = x.ring.tail := by
      rw [RingCells.push]
      split <;> rfl
    rw [RingCounts.call, if_pos hc]
    refine ⟨⟨q ++ [s], hpushed, ?_⟩, htail.trans h.tail_eq, ?_, htaken⟩
    · show x.accepted + (x.ring.push s).1.toNat = x.taken + (q ++ [s]).length
      rw [hanswer, List.length_append, List.length_singleton, Bool.toNat_true]
      omega
    · show x.accepted + (x.ring.push s).1.toNat = c.accepted + 1
      rw [hanswer, haccepted, Bool.toNat_true]
  · have hrefused := hq.push_full s (by omega)
    have hc : ¬ c.accepted + 1 < c.taken + CAP := by omega
    have hsame : x.call (.push s) = x := by
      rw [RingLedger.call, hrefused]
      rfl
    rw [RingCounts.call, if_neg hc, hsame]
    exact h

/-- A `pop` returns an element exactly where there is one. -/
theorem Tallies.pop (h : Tallies x c) : Tallies (x.call .pop) (c.call (T := T) CAP .pop) := by
  obtain ⟨q, hq, hlen⟩ := h.holds
  have haccepted := h.accepted_eq
  have htaken := h.taken_eq
  cases q with
  | nil =>
    have hc : ¬ c.taken < c.accepted := by
      rw [List.length_nil] at hlen
      omega
    have hsame : x.call .pop = x := by
      rw [RingLedger.call, hq.pop_empty]
      rfl
    rw [RingCounts.call, if_neg hc, hsame]
    exact h
  | cons e q =>
    obtain ⟨hcell, hpopped⟩ := hq.pop
    rw [List.length_cons] at hlen
    have hc : c.taken < c.accepted := by omega
    have hne : x.ring.tail ≠ x.ring.head := fun he =>
      absurd (hq.tail_eq_head_iff.mp he) (by simp)
    have htail : x.ring.pop.2.tail = (x.ring.tail + 1) % CAP := by
      rw [RingCells.pop, if_neg hne]
    have hone : (x.call .pop).taken = x.taken + 1 := by
      show x.taken + x.ring.pop.1.isSome.toNat = x.taken + 1
      rw [hcell]
      rfl
    rw [RingCounts.call, if_pos hc]
    refine ⟨⟨q, hpopped, ?_⟩, ?_, haccepted, ?_⟩
    · rw [hone]
      show x.accepted = x.taken + 1 + q.length
      omega
    · rw [hone]
      show x.ring.pop.2.tail = (x.taken + 1) % CAP
      rw [htail, h.tail_eq, Nat.mod_add_mod]
    · rw [hone, htaken]

/-- Where `head` is. -/
theorem Tallies.head_eq (h : Tallies x c) : x.ring.head = x.accepted % CAP := by
  obtain ⟨q, hq, hlen⟩ := h.holds
  rw [hq.head_eq, h.tail_eq, Nat.mod_add_mod, hlen]

/-- A `clear` drops what there is. -/
theorem Tallies.clear (h : Tallies x c) :
    Tallies (x.call .clear) (c.call (T := T) CAP .clear) := by
  obtain ⟨q, hq, hlen⟩ := h.holds
  have hall : (x.call .clear).taken = x.accepted := by
    show x.taken + x.ring.clear.1.length = x.accepted
    rw [hq.clear_drops, List.length_map, hlen]
  refine ⟨⟨[], hq.clear, ?_⟩, ?_, h.accepted_eq, ?_⟩
  · rw [hall]
    rfl
  · rw [hall]
    exact h.head_eq
  · rw [hall]
    exact h.accepted_eq

/-- **Every call keeps the tallies.** -/
theorem Tallies.call (h : Tallies x c) (e : RingCall T) : Tallies (x.call e) (c.call CAP e) := by
  cases e with
  | push s => exact h.push s
  | pop => exact h.pop
  | clear => exact h.clear

/-- ... and so does every sequence of calls. -/
theorem Tallies.calls (calls : List (RingCall T)) :
    ∀ {x : RingLedger T CAP} {c : RingCounts}, Tallies x c →
      Tallies (calls.foldl RingLedger.call x) (calls.foldl (RingCounts.call CAP) c) := by
  induction calls with
  | nil => exact fun h => h
  | cons e calls ih =>
    intro x c h
    exact ih (h.call e)

theorem tallies_ledger (hcap : 0 < CAP) (calls : List (RingCall T)) :
    Tallies (ledger CAP calls) (ringCounts CAP calls) :=
  Tallies.calls calls (Tallies.new hcap)

/-- `head` is as far ahead of `tail` as there are elements, or it has wrapped and is `CAP` behind
    that. -/
theorem RingCells.Holds.head_cases {r : RingCells T CAP} {q : List T} (h : r.Holds q) :
    r.head = r.tail + q.length ∨ r.head < r.tail ∧ r.head + CAP = r.tail + q.length := by
  have htail := h.tail_lt
  have hlen := h.length_lt
  have hhead := h.head_eq
  by_cases hfits : r.tail + q.length < CAP
  · left
    rwa [Nat.mod_eq_of_lt hfits] at hhead
  · right
    have hwrapped : (r.tail + q.length) % CAP = r.tail + q.length - CAP := by
      rw [Nat.mod_eq_sub_mod (Nat.le_of_not_lt hfits)]
      exact Nat.mod_eq_of_lt (by omega)
    omega

/-- Two numbers less than `n` apart have their remainders in order exactly where they have one
    quotient. -/
theorem mod_le_mod_iff {t a n : Nat} (hle : t ≤ a) (hlt : a < t + n) :
    t % n ≤ a % n ↔ a / n = t / n := by
  have ht := Nat.div_add_mod t n
  have ha := Nat.div_add_mod a n
  have hquot : t / n ≤ a / n := Nat.div_le_div_right hle
  constructor
  · intro hmod
    by_contra hne
    have hnext : n * (t / n + 1) ≤ n * (a / n) := Nat.mul_le_mul_left n (by omega)
    rw [Nat.mul_add, Nat.mul_one] at hnext
    omega
  · intro he
    rw [he] at ha
    omega

/-- **`head` is not behind `tail`** exactly where both have gone round the ring equally often. -/
theorem Tallies.tail_le_head_iff (h : Tallies x c) :
    x.ring.tail ≤ x.ring.head ↔ c.accepted / CAP = c.taken / CAP := by
  obtain ⟨q, hq, hlen⟩ := h.holds
  have hlt := hq.length_lt
  rw [h.head_eq, h.tail_eq, mod_le_mod_iff (by omega) (by omega), h.accepted_eq, h.taken_eq]

/-- **What `len` answers**: the number of elements, and where `head` has wrapped past `tail`, `CAP`
    less than it, which is below zero in a `usize`. -/
theorem Tallies.len_toNat (h : Tallies x c) (hword : CAP < 2 ^ 32) :
    x.ring.len.toNat = if x.ring.tail ≤ x.ring.head then x.count else 2 ^ 32 - CAP + x.count := by
  obtain ⟨q, hq, hlen⟩ := h.holds
  have hcount : x.count = q.length := by
    rw [RingLedger.count]
    omega
  have htail := hq.tail_lt
  have hhead := hq.head_lt
  rw [hcount, RingCells.len, BitVec.toNat_sub, BitVec.toNat_ofNat, BitVec.toNat_ofNat,
    Nat.mod_eq_of_lt (Nat.lt_trans htail hword), Nat.mod_eq_of_lt (Nat.lt_trans hhead hword)]
  have hcases := hq.head_cases
  split <;> omega

/-! ## The property and its failure -/

/-- The length of a ring is what its callers count. -/
structure LenExact (x : RingLedger T CAP) : Prop where
  counts : x.ring.len.toNat = x.count
  /-- The subtraction in `len` does not underflow. -/
  noUnderflow : x.ring.lenChecked ≠ .panic
  /-- The length is positive exactly where `pop` returns an element. -/
  pops : 0#32 < x.ring.len ↔ x.ring.pop.1.isSome = true

/-- On any ring `pop` returns an element where the length is positive. -/
theorem RingCells.Holds.len_pos_iff_pop {r : RingCells T CAP} {q : List T} (h : r.Holds q)
    (hword : CAP < 2 ^ 32) : 0#32 < r.len ↔ r.pop.1.isSome = true := by
  refine (h.len_pos_iff (Nat.le_of_lt hword)).trans ?_
  cases q with
  | nil => simp [h.pop_empty]
  | cons e q => simp [h.pop.1]

theorem lenChecked_ne_panic_iff {r : RingCells T CAP} :
    r.lenChecked ≠ .panic ↔ r.tail ≤ r.head := by
  rw [RingCells.lenChecked]
  split
  · next hle => exact ⟨fun _ => hle, fun _ => by simp⟩
  · next hlt => exact ⟨fun hne => absurd rfl hne, fun hle => absurd hle hlt⟩

/-- The length is exact where the subtraction is. -/
theorem Tallies.lenExact_iff (h : Tallies x c) (hword : CAP < 2 ^ 32) :
    LenExact x ↔ c.accepted / CAP = c.taken / CAP := by
  rw [← h.tail_le_head_iff, ← lenChecked_ne_panic_iff]
  constructor
  · exact fun hexact => hexact.noUnderflow
  · intro hne
    obtain ⟨q, hq, -⟩ := h.holds
    refine ⟨?_, hne, hq.len_pos_iff_pop hword⟩
    rw [h.len_toNat hword, if_pos (lenChecked_ne_panic_iff.mp hne)]

/-- `has_excp` is "`pop_excp` would return an event", whatever the ring has gone through. -/
theorem hasExcp_iff_popExcp (s : GdbSessionInner) :
    s.hasExcp = true ↔ s.popExcp.1.isSome = true := by
  rw [hasExcp_iff, GdbSessionInner.popExcp, s.exceptions.pop_pending.1]
  cases s.exceptions.pending with
  | nil => simp
  | cons e q => simp

/-- **`len` is exact** after those sequences of calls in which as many rounds of elements have been
    accepted as have been popped or cleared, a round being `CAP` of them; after any other it
    underflows.  `has_excp` is right either way, where the subtraction wraps. -/
theorem len_exact_iff (T : Type) (CAP : Nat) (hcap : 2 ≤ CAP) (hword : CAP < 2 ^ 32)
    (calls : List (RingCall T)) :
    (LenExact (ledger CAP calls) ↔
      (ringCounts CAP calls).accepted / CAP = (ringCounts CAP calls).taken / CAP) ∧
    ∀ s : GdbSessionInner, s.hasExcp = true ↔ s.popExcp.1.isSome = true :=
  ⟨(tallies_ledger (by omega) calls).lenExact_iff hword, hasExcp_iff_popExcp⟩

/-- Nine elements pushed and popped one by one, and two more: in a ring of eight cells both indices
    have gone round. -/
def pushesAround : List (RingCall Nat) :=
  (List.replicate 9 [.push 1, .pop]).flatten ++ [.push 2, .push 3]

theorem len_exact_iff_pushesAround :
    LenExact (ledger 8 pushesAround) ∧ ringCounts 8 pushesAround = ⟨11, 9⟩ :=
  ⟨(len_exact_iff Nat 8 (by decide) (by decide) pushesAround).1.mpr (by decide), rfl⟩

/-- `n` elements pushed and popped one by one, and one more pushed. -/
def pushedOnce (n : Nat) : List (RingCall Unit) :=
  (List.replicate n [.push (), .pop]).flatten ++ [.push ()]

theorem ringCounts_pushedOnce (hcap : 2 ≤ CAP) (n : Nat) :
    ringCounts CAP (pushedOnce n) = ⟨n + 1, n⟩ := by
  have hpairs : ∀ n m, (List.replicate n [RingCall.push (), .pop]).flatten.foldl
      (RingCounts.call CAP) ⟨m, m⟩ = ⟨m + n, m + n⟩ := by
    intro n
    induction n with
    | zero => exact fun m => rfl
    | succ n ih =>
      intro m
      have hpush : RingCounts.call CAP ⟨m, m⟩ (.push ()) = ⟨m + 1, m⟩ :=
        if_pos (show m + 1 < m + CAP by omega)
      have hpop : RingCounts.call (T := Unit) CAP ⟨m + 1, m⟩ .pop = ⟨m + 1, m + 1⟩ :=
        if_pos (Nat.lt_succ_self m)
      rw [List.replicate_succ, List.flatten_cons, List.foldl_append, List.foldl_cons, hpush,
        List.foldl_cons, hpop, List.foldl_nil, ih (m + 1), Nat.add_right_comm, Nat.add_assoc m n 1]
  rw [ringCounts, pushedOnce, List.foldl_append, hpairs, Nat.zero_add, List.foldl_cons,
    List.foldl_nil]
  exact if_pos (by show n + 1 < n + CAP; omega)

/-- **No capacity has an exact length**: once round the ring, the next element is past the wrap. -/
theorem len_inexact (hcap : 2 ≤ CAP) (hword : CAP < 2 ^ 32) :
    ¬ LenExact (ledger CAP (pushedOnce (CAP - 1))) := by
  rw [(tallies_ledger (by omega) _).lenExact_iff hword, ringCounts_pushedOnce hcap]
  show ¬ (CAP - 1 + 1) / CAP = (CAP - 1) / CAP
  rw [Nat.sub_add_cancel (by omega), Nat.div_self (by omega), Nat.div_eq_of_lt (by omega)]
  decide

/-- **The length of the ring of a session is off** once seven events have been taken from it: the
    eighth makes it 2^32 - 7. -/
theorem len_not_exact :
    ¬ ∀ (T : Type) (CAP : Nat) (calls : List (RingCall T)), 2 ≤ CAP → CAP < 2 ^ 32 →
      LenExact (ledger CAP calls) := by
  intro hclaim
  have hexact := hclaim Unit 8 (pushedOnce 7) (by decide) (by decide)
  have hlen : (ledger 8 (pushedOnce 7)).ring.len = 0xFFFFFFF9#32 := by decide
  have hcount : (ledger 8 (pushedOnce 7)).count = 1 := by decide
  have hcounts := hexact.counts
  rw [hlen, hcount] at hcounts
  exact absurd hcounts (by decide)

end VitaGdb

/-
  `kernel/mpsc.rs`, atomic step by atomic step: any number of producers push while one consumer
  pops and clears.

  A call is cut at its loads and stores (`Pushing`, `Popping`, `Clearing` say how far it is and what
  it has loaded); a step of a run is the next atomic step of one call.  The calls of `Mpsc` are
  these steps with nothing in between (`push_run`, `pop_run`, `clear_run`).

  `ringLabel` is what a step answers to the caller.  The ring is a bounded FIFO queue as long as
  every producer that is about to write its cell still sees the head it loaded, a ring that is not
  full, and no other producer between its write and its store of `head` (`WritesSound`):
  `Represents` is the simulation relation, `ringStep_matched` one step of it.  `push` checks none
  of the three, and two producers that load one head lose an event (`pushes_lose_event`).  A
  single producer meets them always (`Solo`), so with one the ring is a queue
  (`spsc_refines_fifo`).
-/
import VitaGdb.Kernel.Mpsc
import VitaGdb.Lib.BoundedFifo

namespace VitaGdb

/-! ## Calls under way -/

/-- Where a call of `push` is: what it has loaded, or that it has written its cell. -/
inductive Pushing (T : Type) where
  | entered (s : T)
  | loadedHead (s : T) (head : Nat)
  | room (s : T) (head : Nat)
  | written (s : T) (head : Nat)

/-- The element that is pushed. -/
def Pushing.value {T : Type} : Pushing T → T
  | entered s | loadedHead s _ | room s _ | written s _ => s

/-- Where a call of `pop` is. -/
inductive Popping (T : Type) where
  | entered
  | loadedTail (tail : Nat)
  | found (tail : Nat)
  | read (tail : Nat) (cell : Option T)

/-- Where a call of `clear` is: in its loop it has dropped some cells. -/
inductive Clearing (T : Type) where
  | entered
  | loadedTail (tail : Nat)
  | dropping (head idx : Nat) (dropped : List (Option T))

namespace RingCells

variable {T : Type} {CAP : Nat}

/-- The next atomic step of `push`; `inr` is its answer. -/
def pushStep (r : RingCells T CAP) : Pushing T → RingCells T CAP × (Pushing T ⊕ Bool)
  | .entered s => (r, .inl (.loadedHead s r.head))
  | .loadedHead s head =>
    if (head + 1) % CAP = r.tail then (r, .inr false) else (r, .inl (.room s head))
  | .room s head =>
    ({ r with buf := Function.update r.buf head (some s) }, .inl (.written s head))
  | .written _ head => ({ r with head := (head + 1) % CAP }, .inr true)

/-- The next atomic step of `pop`; its answer is `none` or the cell it has read. -/
def popStep (r : RingCells T CAP) : Popping T → RingCells T CAP × (Popping T ⊕ Option (Option T))
  | .entered => (r, .inl (.loadedTail r.tail))
  | .loadedTail tail => if tail = r.head then (r, .inr none) else (r, .inl (.found tail))
  | .found tail => (r, .inl (.read tail (r.buf tail)))
  | .read tail cell => ({ r with tail := (tail + 1) % CAP }, .inr (some cell))

/-- The next atomic step of `clear`; its answer is the cells it has dropped. -/
def clearStep (r : RingCells T CAP) :
    Clearing T → RingCells T CAP × (Clearing T ⊕ List (Option T))
  | .entered => (r, .inl (.loadedTail r.tail))
  | .loadedTail tail => (r, .inl (.dropping r.head tail []))
  | .dropping head idx dropped =>
    if idx = head then ({ r with tail := head }, .inr dropped)
    else (r, .inl (.dropping head ((idx + 1) % CAP) (dropped ++ [r.buf idx])))

end RingCells

/-! ## The ring and its threads -/

/-- What the consumer is doing. -/
inductive Consumer (T : Type) where
  | idle
  | popping (p : Popping T)
  | clearing (c : Clearing T)

/-- The cells the consumer's call has read so far. -/
def Consumer.cells {T : Type} : Consumer T → List (Option T)
  | .popping (.read _ cell) => [cell]
  | .clearing (.dropping _ _ dropped) => dropped
  | _ => []

structure RingState (P T : Type) (CAP : Nat) where
  cells : RingCells T CAP
  producers : P → Option (Pushing T)
  consumer : Consumer T

/-- A ring nobody has used yet. -/
def RingState.new {P T : Type} {CAP : Nat} : RingState P T CAP where
  cells := RingCells.new
  producers := fun _ => none
  consumer := .idle

inductive RingEvent (P T : Type) where
  /-- A producer calls `push`. -/
  | push (p : P) (s : T)
  /-- The next step of a producer's call. -/
  | produce (p : P)
  | pop
  | clear
  /-- The next step of the consumer's call. -/
  | consume

variable {P T : Type} {CAP : Nat}

/-- One atomic step of the ring. -/
def ringStep [DecidableEq P] (x : RingState P T CAP) :
    RingEvent P T → Option (RingState P T CAP)
  | .push p s =>
    match x.producers p with
    | none => some { x with producers := Function.update x.producers p (some (.entered s)) }
    | some _ => none
  | .produce p =>
    match x.producers p with
    | none => none
    | some c =>
      let (r, next) := x.cells.pushStep c
      some { x with cells := r, producers := Function.update x.producers p next.getLeft? }
  | .pop =>
    match x.consumer with
    | .idle => some { x with consumer := .popping .entered }
    | _ => none
  | .clear =>
    match x.consumer with
    | .idle => some { x with consumer := .clearing .entered }
    | _ => none
  | .consume =>
    match x.consumer with
    | .idle => none
    | .popping c =>
      let (r, next) := x.cells.popStep c
      some { x with
        cells := r
        consumer := match next with
          | .inl c => .popping c
          | .inr _ => .idle }
    | .clearing c =>
      let (r, next) := x.cells.clearStep c
      some { x with
        cells := r
        consumer := match next with
          | .inl c => .clearing c
          | .inr _ => .idle }

/-- What a step answers.  A `pop` that finds nothing answers with its load of `head`, as a refused
    `push` does with its load of `tail`; what `clear` will drop is decided by its load of `head`. -/
def ringLabel (x : RingState P T CAP) : RingEvent P T → Option (Fifo.Label T)
  | .produce p =>
    match x.producers p with
    | none => none
    | some c =>
      match (x.cells.pushStep c).2 with
      | .inl _ => none
      | .inr true => some (.pushed c.value)
      | .inr false => some (.refused c.value)
  | .consume =>
    match x.consumer with
    | .idle => none
    | .popping c =>
      match (x.cells.popStep c).2 with
      | .inl _ => none
      | .inr none => some .empty
      | .inr (some cell) => some (.popped cell)
    | .clearing c =>
      match c, (x.cells.clearStep c).2 with
      | .loadedTail _, _ => some .clearing
      | _, .inl _ => none
      | _, .inr dropped => some (.cleared dropped)
  | _ => none

/-! ## A call with nothing in between -/

section Alone

variable [DecidableEq P] {x y : RingState P T CAP}

/-- The events `es` can be run from `x`, lead to `y`, and answer `ls`. -/
def RingRuns (x : RingState P T CAP) (es : List (RingEvent P T)) (y : RingState P T CAP)
    (ls : List (Fifo.Label T)) : Prop :=
  LTS.exec ringStep x es = some y ∧ LTS.trace ringStep ringLabel x es = ls

/-- One step, and the run behind it. -/
theorem RingRuns.cons {z : RingState P T CAP} {e : RingEvent P T} {es : List (RingEvent P T)}
    {l : Option (Fifo.Label T)} {ls : List (Fifo.Label T)} (hstep : ringStep x e = some z)
    (hlabel : ringLabel x e = l) (h : RingRuns z es y ls) :
    RingRuns x (e :: es) y (l.toList ++ ls) := by
  refine ⟨?_, ?_⟩
  · rw [LTS.exec_cons, hstep]
    exact h.1
  · rw [LTS.trace, hstep, hlabel]
    exact congrArg (l.toList ++ ·) h.2

/-- **`push` is its atomic steps.** -/
theorem push_run {p : P} (hidle : x.producers p = none) (s : T) :
    ∃ n, RingRuns x (.push p s :: List.replicate n (.produce p))
      { x with cells := (x.cells.push s).2 }
      [if (x.cells.push s).1 then .pushed s else .refused s] := by
  have hback : ∀ c : Option (Pushing T), Function.update (Function.update x.producers p c) p none =
      x.producers := fun c => by
    rw [Function.update_idem, ← hidle, Function.update_eq_self]
  by_cases hfull : (x.cells.head + 1) % CAP = x.cells.tail
  · refine ⟨2, ?_, ?_⟩ <;>
      simp [LTS.exec, LTS.trace, List.replicate, ringStep, ringLabel, hidle, RingCells.pushStep,
        RingCells.push, Pushing.value, hfull, hback]
  · refine ⟨4, ?_, ?_⟩ <;>
      simp [LTS.exec, LTS.trace, List.replicate, ringStep, ringLabel, hidle, RingCells.pushStep,
        RingCells.push, Pushing.value, hfull, hback]

/-- **`pop` is its atomic steps.** -/
theorem pop_run (hidle : x.consumer = .idle) :
    ∃ n, RingRuns x (.pop :: List.replicate n .consume) { x with cells := x.cells.pop.2 }
      [if x.cells.tail = x.cells.head then .empty else .popped x.cells.pop.1] := by
  by_cases hempty : x.cells.tail = x.cells.head
  · refine ⟨2, ?_, ?_⟩ <;>
      simp [LTS.exec, LTS.trace, List.replicate, ringStep, ringLabel, hidle, RingCells.popStep,
        RingCells.pop, hempty]
  · refine ⟨4, ?_, ?_⟩ <;>
      simp [LTS.exec, LTS.trace, List.replicate, ringStep, ringLabel, hidle, RingCells.popStep,
        RingCells.pop, hempty]

/-- The loop of a `clear` that has `d` cells before it. -/
theorem dropping_run (d : Nat) : ∀ {x : RingState P T CAP} {fuel idx : Nat}
    {dropped : List (Option T)}, d ≤ fuel → idx < CAP →
    x.consumer = .clearing (.dropping x.cells.head idx dropped) →
    (idx + d) % CAP = x.cells.head →
    ∃ n, RingRuns x (List.replicate n .consume)
      { x with cells := { x.cells with tail := x.cells.head }, consumer := .idle }
      [.cleared (dropped ++ x.cells.dropFrom fuel idx)] := by
  induction d with
  | zero =>
    intro x fuel idx dropped _ hidx hdropping hmeets
    have hhead : idx = x.cells.head := by rwa [Nat.add_zero, Nat.mod_eq_of_lt hidx] at hmeets
    have hnone : x.cells.dropFrom fuel idx = [] := by cases fuel <;> simp [RingCells.dropFrom, hhead]
    rw [hnone, List.append_nil]
    refine ⟨1, ?_, ?_⟩ <;>
      simp [LTS.exec, LTS.trace, ringStep, ringLabel, hdropping, RingCells.clearStep, hhead]
  | succ d ih =>
    intro x fuel idx dropped hfuel hidx hdropping hmeets
    obtain ⟨fuel, rfl⟩ : ∃ m, fuel = m + 1 := ⟨fuel - 1, by omega⟩
    by_cases hhead : idx = x.cells.head
    · refine ⟨1, ?_, ?_⟩ <;>
        simp [LTS.exec, LTS.trace, ringStep, ringLabel, hdropping, RingCells.clearStep,
          RingCells.dropFrom, hhead]
    · -- one cell is dropped
      have hstep : ringStep x .consume = some { x with
          consumer :=
            .clearing (.dropping x.cells.head ((idx + 1) % CAP) (dropped ++ [x.cells.buf idx])) } := by
        simp [ringStep, hdropping, RingCells.clearStep, hhead]
      have hlabel : ringLabel x .consume = none := by
        simp [ringLabel, hdropping, RingCells.clearStep, hhead]
      obtain ⟨n, hn⟩ := ih (x := { x with
          consumer :=
            .clearing (.dropping x.cells.head ((idx + 1) % CAP) (dropped ++ [x.cells.buf idx])) })
        (Nat.le_of_succ_le_succ hfuel) (Nat.mod_lt _ (Nat.zero_lt_of_lt hidx)) rfl
        (by rw [Nat.mod_add_mod, Nat.add_assoc, Nat.add_comm 1]; exact hmeets)
      rw [List.append_assoc, List.singleton_append] at hn
      refine ⟨n + 1, ?_⟩
      rw [RingCells.dropFrom, if_neg hhead]
      exact .cons hstep hlabel hn

/-- **`clear` is its atomic steps**, where both indices are in the ring. -/
theorem clear_run (hidle : x.consumer = .idle) (hhead : x.cells.head < CAP)
    (htail : x.cells.tail < CAP) :
    ∃ n, RingRuns x (.clear :: List.replicate n .consume) { x with cells := x.cells.clear.2 }
      [.clearing, .cleared x.cells.clear.1] := by
  have hmeets : ∃ d ≤ CAP, (x.cells.tail + d) % CAP = x.cells.head := by
    refine ⟨(x.cells.head + CAP - x.cells.tail) % CAP, (Nat.mod_lt _ (by omega)).le, ?_⟩
    rw [Nat.add_mod_mod, show x.cells.tail + (x.cells.head + CAP - x.cells.tail) =
      x.cells.head + CAP by omega, Nat.add_mod_right, Nat.mod_eq_of_lt hhead]
  obtain ⟨d, hd, hmeets⟩ := hmeets
  obtain ⟨n, hn⟩ := dropping_run d (P := P)
    (x := { x with consumer := .clearing (.dropping x.cells.head x.cells.tail []) })
    hd htail rfl hmeets
  have hrun : RingRuns ({ x with consumer := .clearing .entered } : RingState P T CAP)
      (.consume :: .consume :: List.replicate n .consume) { x with cells := x.cells.clear.2 }
      [.clearing, .cleared x.cells.clear.1] := by
    refine .cons (z := { x with consumer := .clearing (.loadedTail x.cells.tail) }) (l := none)
      rfl rfl (.cons (l := some .clearing) rfl rfl ?_)
    have hback : { x with cells := x.cells.clear.2 } = { x with
        cells := { x.cells with tail := x.cells.head }, consumer := .idle } := by
      rw [← hidle]
      rfl
    rw [hback]
    exact hn
  exact ⟨n + 2, .cons (l := none) (by simp [ringStep, hidle]) (by simp [ringLabel]) hrun⟩

end Alone

/-! ## The queue behind the steps -/

/-- How far the consumer's call agrees with the queue and with `tail`, which only it moves. -/
def ConsumerOk (CAP tail : Nat) (a : Fifo.State T) : Consumer T → Prop
  | .idle | .popping .entered | .clearing .entered => a.marked = none
  | .popping (.loadedTail t) => t = tail ∧ a.marked = none
  | .popping (.found t) => t = tail ∧ a.queue ≠ [] ∧ a.marked = none
  | .popping (.read t cell) =>
    t = tail ∧ (∃ s q, a.queue = s :: q ∧ cell = some s) ∧ a.marked = none
  | .clearing (.loadedTail t) => t = tail ∧ a.marked = none
  | .clearing (.dropping head idx dropped) =>
    ∃ done todo later, a.queue = done ++ todo ++ later ∧ a.marked = some (done ++ todo) ∧
      dropped = done.map some ∧ idx = (tail + done.length) % CAP ∧
      head = (tail + (done ++ todo).length) % CAP

/-- The cells a consumer that agrees has read were initialised. -/
theorem ConsumerOk.cells_isSome {tail : Nat} {a : Fifo.State T} {c : Consumer T}
    (h : ConsumerOk CAP tail a c) : ∀ cell ∈ c.cells, cell.isSome := by
  cases c with
  | idle => simp [Consumer.cells]
  | popping c =>
    cases c with
    | read t cell =>
      obtain ⟨-, ⟨s, q, -, rfl⟩, -⟩ := h
      simp [Consumer.cells]
    | _ => simp [Consumer.cells]
  | clearing c =>
    cases c with
    | dropping head idx dropped =>
      obtain ⟨done, todo, later, -, -, rfl, -, -⟩ := h
      simp [Consumer.cells]
    | _ => simp [Consumer.cells]

/-- An element appended behind the consumer's back leaves it as far as it is. -/
theorem ConsumerOk.append {tail : Nat} {q : List T} {m : Option (List T)} {c : Consumer T} (s : T)
    (h : ConsumerOk CAP tail ⟨q, m⟩ c) : ConsumerOk CAP tail ⟨q ++ [s], m⟩ c := by
  cases c with
  | idle => exact h
  | popping c =>
    cases c with
    | entered => exact h
    | loadedTail t => exact h
    | found t => exact ⟨h.1, by simp, h.2.2⟩
    | read t cell =>
      obtain ⟨ht, ⟨s', q', rfl, hcell⟩, hm⟩ := h
      exact ⟨ht, ⟨s', q' ++ [s], rfl, hcell⟩, hm⟩
  | clearing c =>
    cases c with
    | entered => exact h
    | loadedTail t => exact h
    | dropping head idx dropped =>
      obtain ⟨done, todo, later, rfl, hm⟩ := h
      exact ⟨done, todo, later ++ [s], by simp, hm⟩

/-- A producer that has written its cell and not yet stored `head`. -/
def Pushing.isWritten : Option (Pushing T) → Bool
  | some (.written _ _) => true
  | _ => false

/-- **The ring stores the queue**, and a producer that has written its cell can publish it. -/
structure Represents (x : RingState P T CAP) (a : Fifo.State T) : Prop where
  holds : x.cells.Holds a.queue
  written : ∀ p s head, x.producers p = some (.written s head) →
    head = x.cells.head ∧ a.queue.length + 1 < CAP ∧ x.cells.buf head = some s
  single : ∀ p p', Pushing.isWritten (x.producers p) = true →
    Pushing.isWritten (x.producers p') = true → p = p'
  consumer : ConsumerOk CAP x.cells.tail a x.consumer

theorem Represents.new (hcap : 0 < CAP) :
    Represents (RingState.new : RingState P T CAP) Fifo.State.start where
  holds := RingCells.Holds.new hcap
  written := fun _ _ _ h => absurd h (by simp [RingState.new])
  single := fun _ _ h => absurd h (by simp [RingState.new, Pushing.isWritten])
  consumer := rfl

/-- Every producer that is about to write its cell still sees the head it loaded, on a ring that is
    not full, and no other producer is between its write and its store. -/
def WritesSound (x : RingState P T CAP) : RingEvent P T → Prop
  | .produce p =>
    match x.producers p with
    | some (.room _ head) => head = x.cells.head ∧ (head + 1) % CAP ≠ x.cells.tail ∧
        ∀ p', Pushing.isWritten (x.producers p') = false
    | _ => True
  | _ => True

namespace Represents

variable {x : RingState P T CAP} {a : Fifo.State T}

/-- The consumer goes on without moving `tail`. -/
theorem consume (h : Represents x a) {c : Consumer T} {m : Option (List T)}
    (hc : ConsumerOk CAP x.cells.tail ⟨a.queue, m⟩ c) :
    Represents ({ x with consumer := c } : RingState P T CAP) ⟨a.queue, m⟩ :=
  ⟨h.holds, h.written, h.single, hc⟩

/-- The consumer takes a front of the queue and is done. -/
theorem retire (h : Represents x a) {d q : List T} (hq : a.queue = d ++ q) {tail : Nat}
    (htail : tail = (x.cells.tail + d.length) % CAP) :
    Represents ({ x with cells := { x.cells with tail := tail }, consumer := .idle } :
      RingState P T CAP) ⟨q, none⟩ := by
  subst htail
  have hholds := h.holds
  rw [hq] at hholds
  refine ⟨hholds.retire, fun p s head hp => ?_, h.single, rfl⟩
  obtain ⟨hhead, hroom, hcell⟩ := h.written p s head hp
  rw [hq, List.length_append] at hroom
  exact ⟨hhead, show q.length + 1 < CAP by omega, hcell⟩

variable [DecidableEq P] {p : P}

/-- A producer that goes on without having written its cell. -/
theorem goOn (h : Represents x a) {c : Option (Pushing T)} (hc : Pushing.isWritten c = false) :
    Represents ({ x with producers := Function.update x.producers p c } : RingState P T CAP) a := by
  have hold : ∀ p', Pushing.isWritten (Function.update x.producers p c p') = true →
      Function.update x.producers p c p' = x.producers p' := by
    intro p' hp'
    by_cases hpp : p' = p
    · rw [hpp, Function.update_self, hc] at hp'
      exact absurd hp' (by simp)
    · exact Function.update_of_ne hpp _ _
  refine ⟨h.holds, fun p' s head (hp' : Function.update x.producers p c p' = _) => ?_,
    fun p₁ p₂ h₁ h₂ => ?_, h.consumer⟩
  · have heq := hold p' (by rw [hp']; rfl)
    exact h.written p' s head (heq ▸ hp')
  · exact h.single p₁ p₂ (hold p₁ h₁ ▸ h₁) (hold p₂ h₂ ▸ h₂)

/-- A producer that writes its cell, in the condition. -/
theorem write (h : Represents x a) {s : T} {head : Nat} (hhead : head = x.cells.head)
    (hroom : (head + 1) % CAP ≠ x.cells.tail)
    (hnone : ∀ p', Pushing.isWritten (x.producers p') = false) :
    Represents ({ x with
      cells := { x.cells with buf := Function.update x.cells.buf head (some s) }
      producers := Function.update x.producers p (some (.written s head)) } :
        RingState P T CAP) a := by
  subst hhead
  have hlen : a.queue.length + 1 < CAP := by
    have hne := mt h.holds.next_eq_tail_iff.mpr hroom
    have := h.holds.length_lt
    omega
  -- the writer is the only one
  have honly : ∀ p', Pushing.isWritten
      (Function.update x.producers p (some (.written s x.cells.head)) p') = true → p' = p := by
    intro p' hp'
    by_contra hpp
    rw [Function.update_of_ne hpp, hnone p'] at hp'
    exact absurd hp' (by simp)
  refine ⟨h.holds.write (some s),
    fun p' s' head' (hp' : Function.update x.producers p _ p' = _) => ?_,
    fun p₁ p₂ h₁ h₂ => ?_, h.consumer⟩
  · obtain rfl := honly p' (by rw [hp']; rfl)
    rw [Function.update_self, Option.some.injEq, Pushing.written.injEq] at hp'
    obtain ⟨rfl, rfl⟩ := hp'
    exact ⟨rfl, hlen, Function.update_self _ _ _⟩
  · rw [honly p₁ h₁, honly p₂ h₂]

/-- A producer that publishes its cell appends its element. -/
theorem publish (h : Represents x a) {s : T} {head : Nat}
    (hp : x.producers p = some (.written s head)) :
    Represents ({ x with
      cells := { x.cells with head := (head + 1) % CAP }
      producers := Function.update x.producers p none } : RingState P T CAP)
      ⟨a.queue ++ [s], a.marked⟩ := by
  obtain ⟨rfl, hroom, hcell⟩ := h.written p s head hp
  have hnone : ∀ p', Pushing.isWritten (Function.update x.producers p none p') = false := by
    intro p'
    by_cases hpp : p' = p
    · rw [hpp, Function.update_self]
      rfl
    · rw [Function.update_of_ne hpp]
      by_contra hw
      exact hpp (h.single p' p (by simpa using hw) (by rw [hp]; rfl))
  refine ⟨h.holds.advance hcell hroom,
    fun p' s' head' (hp' : Function.update x.producers p none p' = _) => ?_,
    fun p₁ p₂ (h₁ : Pushing.isWritten (Function.update x.producers p none p₁) = true) _ => ?_,
    h.consumer.append s⟩
  · exact absurd (hnone p') (by rw [hp']; simp [Pushing.isWritten])
  · exact absurd h₁ (by rw [hnone p₁]; simp)

end Represents

variable [DecidableEq P] {x y : RingState P T CAP} {a : Fifo.State T} {refuses : List T → Prop}

/-- The next step of a producer. -/
theorem produce_matched {p : P} (h : Represents x a) (hsound : WritesSound x (.produce p))
    (hrefuses : ∀ s head, x.producers p = some (.loadedHead s head) →
      (head + 1) % CAP = x.cells.tail → refuses a.queue)
    (hy : ringStep x (.produce p) = some y) :
    LTS.Matched (Fifo.Step (CAP - 1) refuses) (Represents y) a (ringLabel x (.produce p)) := by
  cases hp : x.producers p with
  | none => simp [ringStep, hp] at hy
  | some c =>
    simp only [ringStep, hp, Option.some.injEq] at hy
    subst hy
    cases c with
    | entered s =>
      simp only [ringLabel, hp, RingCells.pushStep, LTS.Matched]
      exact h.goOn rfl
    | loadedHead s head =>
      by_cases hfull : (head + 1) % CAP = x.cells.tail
      · simp only [ringLabel, hp, RingCells.pushStep, hfull, if_true, LTS.Matched]
        exact ⟨a, .refused s a.queue a.marked (hrefuses s head hp hfull), h.goOn rfl⟩
      · simp only [ringLabel, hp, RingCells.pushStep, hfull, if_false, LTS.Matched]
        exact h.goOn rfl
    | room s head =>
      simp only [WritesSound, hp] at hsound
      obtain ⟨hhead, hroom, hnone⟩ := hsound
      simp only [ringLabel, hp, RingCells.pushStep, LTS.Matched]
      exact h.write hhead hroom hnone
    | written s head =>
      have hroom := (h.written p s head hp).2.1
      simp only [ringLabel, hp, RingCells.pushStep, LTS.Matched]
      exact ⟨_, .pushed s a.queue a.marked (by omega), h.publish hp⟩

/-- The next step of a `pop`. -/
theorem pop_matched {c : Popping T} (h : Represents x a) (hc : x.consumer = .popping c)
    (hy : ringStep x .consume = some y) :
    LTS.Matched (Fifo.Step (CAP - 1) refuses) (Represents y) a (ringLabel x .consume) := by
  have hok := h.consumer
  rw [hc] at hok
  obtain ⟨q, m⟩ := a
  simp only [ringStep, hc, Option.some.injEq] at hy
  subst hy
  cases c with
  | entered =>
    simp only [ringLabel, hc, RingCells.popStep, LTS.Matched]
    exact h.consume ⟨rfl, hok⟩
  | loadedTail t =>
    obtain ⟨rfl, rfl⟩ : t = x.cells.tail ∧ m = none := hok
    by_cases hempty : x.cells.tail = x.cells.head
    · obtain rfl : q = [] := h.holds.tail_eq_head_iff.mp hempty
      simp only [ringLabel, hc, RingCells.popStep, hempty, if_true, LTS.Matched]
      exact ⟨_, .empty, h.consume rfl⟩
    · simp only [ringLabel, hc, RingCells.popStep, hempty, if_false, LTS.Matched]
      exact h.consume ⟨rfl, mt h.holds.tail_eq_head_iff.mpr hempty, rfl⟩
  | found t =>
    obtain ⟨rfl, hne, rfl⟩ : t = x.cells.tail ∧ q ≠ [] ∧ m = none := hok
    obtain ⟨s, q, rfl⟩ := List.exists_cons_of_ne_nil hne
    simp only [ringLabel, hc, RingCells.popStep, LTS.Matched]
    exact h.consume ⟨rfl, ⟨s, q, rfl, h.holds.oldest⟩, rfl⟩
  | read t cell =>
    obtain ⟨rfl, ⟨s, q, rfl, rfl⟩, rfl⟩ :
      t = x.cells.tail ∧ (∃ s q', q = s :: q' ∧ cell = some s) ∧ m = none := hok
    simp only [ringLabel, hc, RingCells.popStep, LTS.Matched]
    exact ⟨_, .popped s q, h.retire (d := [s]) rfl rfl⟩

/-- The next step of a `clear`. -/
theorem clear_matched {c : Clearing T} (h : Represents x a) (hc : x.consumer = .clearing c)
    (hy : ringStep x .consume = some y) :
    LTS.Matched (Fifo.Step (CAP - 1) refuses) (Represents y) a (ringLabel x .consume) := by
  have hok := h.consumer
  rw [hc] at hok
  obtain ⟨q, m⟩ := a
  simp only [ringStep, hc, Option.some.injEq] at hy
  subst hy
  cases c with
  | entered =>
    simp only [ringLabel, hc, RingCells.clearStep, LTS.Matched]
    exact h.consume ⟨rfl, hok⟩
  | loadedTail t =>
    obtain ⟨rfl, rfl⟩ : t = x.cells.tail ∧ m = none := hok
    simp only [ringLabel, hc, RingCells.clearStep, LTS.Matched]
    refine ⟨_, .clearing q, h.consume ⟨[], q, [], by simp, rfl, rfl, ?_, h.holds.head_eq⟩⟩
    rw [List.length_nil, Nat.add_zero, Nat.mod_eq_of_lt h.holds.tail_lt]
  | dropping head idx dropped =>
    obtain ⟨done, todo, later, hq, hm, rfl, rfl, rfl⟩ := hok
    obtain rfl : q = done ++ todo ++ later := hq
    obtain rfl : m = some (done ++ todo) := hm
    have hlen := h.holds.length_lt
    rw [List.length_append, List.length_append] at hlen
    cases todo with
    | nil =>
      -- the loop meets the head it loaded
      simp only [ringLabel, hc, RingCells.clearStep, List.append_nil, if_true, LTS.Matched]
      exact ⟨_, .cleared done later, h.retire (d := done) (by simp) rfl⟩
    | cons s todo =>
      have hne : (x.cells.tail + done.length) % CAP ≠
          (x.cells.tail + (done ++ s :: todo).length) % CAP := fun he => by
        rw [List.length_cons] at hlen
        have hlen' : (done ++ s :: todo).length = done.length + (todo.length + 1) := by simp
        have := RingCells.mod_offset_inj (by omega) (by omega) he
        omega
      have hcell : x.cells.buf ((x.cells.tail + done.length) % CAP) = some s := by
        have hget := h.holds.cells done.length (by simp)
        rw [hget]
        simp
      simp only [ringLabel, hc, RingCells.clearStep, hne, if_false, LTS.Matched]
      refine h.consume ⟨done ++ [s], todo, later, by simp, by simp, ?_, ?_, by simp⟩
      · rw [hcell, List.map_append, List.map_singleton]
      · rw [Nat.mod_add_mod, List.length_append, List.length_singleton, Nat.add_assoc]

/-- **One step of the ring is one step of the queue**, or none. -/
theorem ringStep_matched {e : RingEvent P T} (h : Represents x a) (hsound : WritesSound x e)
    (hrefuses : ∀ p s head, e = .produce p → x.producers p = some (.loadedHead s head) →
      (head + 1) % CAP = x.cells.tail → refuses a.queue)
    (hy : ringStep x e = some y) :
    LTS.Matched (Fifo.Step (CAP - 1) refuses) (Represents y) a (ringLabel x e) := by
  cases e with
  | push p s =>
    cases hp : x.producers p with
    | some c => simp [ringStep, hp] at hy
    | none =>
      simp only [ringStep, hp, Option.some.injEq] at hy
      subst hy
      exact h.goOn rfl
  | produce p => exact produce_matched h hsound (fun s head => hrefuses p s head rfl) hy
  | pop =>
    cases hc : x.consumer with
    | idle =>
      have hok := h.consumer
      rw [hc] at hok
      simp only [ringStep, hc, Option.some.injEq] at hy
      subst hy
      exact h.consume hok
    | _ => simp [ringStep, hc] at hy
  | clear =>
    cases hc : x.consumer with
    | idle =>
      have hok := h.consumer
      rw [hc] at hok
      simp only [ringStep, hc, Option.some.injEq] at hy
      subst hy
      exact h.consume hok
    | _ => simp [ringStep, hc] at hy
  | consume =>
    cases hc : x.consumer with
    | idle => simp [ringStep, hc] at hy
    | popping c => exact pop_matched h hc hy
    | clearing c => exact clear_matched h hc hy

end VitaGdb

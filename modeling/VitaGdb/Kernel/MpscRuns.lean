/-
  Runs of the ring: what is lost with several producers, and what holds with one.

  `EachPoppedOnce` is what a queue of events is for: the events whose `push` answered true are those
  that were popped and those still queued, each once.  It holds along every run in which the writes
  are sound (`pushes_popped_once`), and fails where two producers load one head
  (`pushes_lose_event`).

  With one producer every write is sound, because nobody else moves `head` and a consumer only makes
  room: `Solo` is what a single producer has loaded.  So the ring is then a bounded FIFO queue, and
  every answer is the queue's answer at the load that decides it (`spsc_refines_fifo`).
-/
import VitaGdb.Kernel.MpscSteps

namespace VitaGdb

open Fifo (Label State)

/-! ## Several producers -/

section Producers

variable {P T : Type} {CAP : Nat} [DecidableEq P]

/-- What the calls of a run from the new ring answer. -/
def ringShown (CAP : Nat) (events : List (RingEvent P T)) : List (Label T) :=
  LTS.trace ringStep ringLabel (RingState.new : RingState P T CAP) events

/-- The cells that were popped. -/
def poppedCells : Label T → List (Option T)
  | .popped cell => [cell]
  | _ => []

/-- Every event whose `push` answered true was popped or is queued, and is so once. -/
def EachPoppedOnce (shown : List (Label T)) (x : RingState P T CAP) : Prop :=
  ((shown.flatMap Label.put).map some).Perm (shown.flatMap poppedCells ++ x.cells.clear.1)

/-- **A run whose writes are sound is a run of the queue.** -/
theorem exec_represents (hcap : 0 < CAP) {events : List (RingEvent P T)} {x : RingState P T CAP}
    (hsound : LTS.Along ringStep WritesSound (RingState.new : RingState P T CAP) events)
    (hrun : LTS.exec ringStep RingState.new events = some x) :
    ∃ a, LTS.Follows (Fifo.Step (CAP - 1) fun _ => True) State.start (ringShown CAP events) a ∧
      Represents x a := by
  refine LTS.exec_simulation (fun s e s' a hR hc hs => ?_) events (Represents.new hcap) hsound hrun
  exact ringStep_matched hR hc (fun _ _ _ _ _ _ => trivial) hs

/-- Without calls of `clear`, no step is one of `clear`. -/
theorem trace_popped {events : List (RingEvent P T)} :
    ∀ {x : RingState P T CAP}, (∀ c, x.consumer ≠ .clearing c) → .clear ∉ events →
      (LTS.trace ringStep ringLabel x events).flatMap Label.taken =
        (LTS.trace ringStep ringLabel x events).flatMap poppedCells := by
  induction events with
  | nil => exact fun _ _ => rfl
  | cons e events ih =>
    intro x hx hclear
    rw [List.mem_cons, not_or] at hclear
    have hlabel : (ringLabel x e).toList.flatMap Label.taken =
        (ringLabel x e).toList.flatMap poppedCells := by
      rcases hl : ringLabel x e with _ | l
      · rfl
      · cases l with
        | cleared cells =>
          -- only a consumer in `clear` answers so
          cases e with
          | consume =>
            cases hc : x.consumer with
            | clearing c => exact absurd hc (hx c)
            | idle => simp [ringLabel, hc] at hl
            | popping c =>
              simp only [ringLabel, hc] at hl
              split at hl <;> simp at hl
          | produce p =>
            simp only [ringLabel] at hl
            split at hl
            · simp at hl
            · split at hl <;> simp at hl
          | _ => simp [ringLabel] at hl
        | _ => rfl
    have hnext : ∀ {y}, ringStep x e = some y → ∀ c, y.consumer ≠ .clearing c := by
      intro y hy c hc
      cases e with
      | clear => exact hclear.1 rfl
      | push p s =>
        simp only [ringStep] at hy
        split at hy
        · exact hx c (by rw [← Option.some.inj hy] at hc; exact hc)
        · simp at hy
      | produce p =>
        simp only [ringStep] at hy
        split at hy
        · simp at hy
        · exact hx c (by rw [← Option.some.inj hy] at hc; exact hc)
      | pop =>
        simp only [ringStep] at hy
        split at hy
        · rw [← Option.some.inj hy] at hc
          exact absurd hc (by simp)
        · simp at hy
      | consume =>
        simp only [ringStep] at hy
        split at hy
        · simp at hy
        · rw [← Option.some.inj hy] at hc
          dsimp only at hc
          split at hc <;> simp at hc
        · next c' hc' => exact hx c' hc'
    rw [LTS.trace]
    rw [List.flatMap_append, List.flatMap_append, hlabel]
    cases hy : ringStep x e with
    | none => rfl
    | some y => rw [ih (hnext hy) hclear.2]

/-- **No event is lost, overwritten or taken twice** along every run in which every producer that
    writes its cell still sees the head it loaded, on a ring that is not full, and writes alone. -/
theorem pushes_popped_once (hcap : 2 ≤ CAP) (events : List (RingEvent P T))
    (hpops : .clear ∉ events)
    (hsound : LTS.Along ringStep WritesSound (RingState.new : RingState P T CAP) events)
    (x : RingState P T CAP) (hrun : LTS.exec ringStep RingState.new events = some x) :
    EachPoppedOnce (ringShown CAP events) x := by
  obtain ⟨a, hfollows, hx⟩ := exec_represents (by omega) hsound hrun
  have hconserved := Fifo.follows_conserved hfollows
  rw [ringShown, trace_popped (fun c => by simp [RingState.new]) hpops] at hconserved
  rw [EachPoppedOnce, ringShown, hx.holds.clear_drops]
  exact List.Perm.of_eq hconserved

/-- Two producers push one after the other, and one event is popped. -/
def pushesInTurn : List (RingEvent Bool Nat) :=
  [.push false 1, .push true 2, .produce false, .produce false, .produce false, .produce false,
    .produce true, .produce true, .produce true, .produce true,
    .pop, .consume, .consume, .consume, .consume]

theorem pushes_popped_once_inTurn :
    ∃ x, LTS.exec ringStep (RingState.new : RingState Bool Nat 8) pushesInTurn = some x ∧
      EachPoppedOnce (ringShown 8 pushesInTurn) x := by
  refine ⟨_, rfl, pushes_popped_once (by decide) pushesInTurn (by simp [pushesInTurn]) ?_ _ rfl⟩
  have hnone : ∀ f : Bool → Bool, f false = false → f true = false → ∀ p, f p = false := by
    intro f hf ht p
    cases p <;> assumption
  refine .cons rfl trivial (.cons rfl trivial (.cons rfl trivial (.cons rfl trivial
    (.cons rfl ⟨rfl, by decide, hnone _ rfl rfl⟩ (.cons rfl trivial (.cons rfl trivial
    (.cons rfl trivial (.cons rfl ⟨rfl, by decide, hnone _ rfl rfl⟩ ?_))))))))
  exact .cons rfl trivial (.cons rfl trivial (.cons rfl trivial (.cons rfl trivial
    (.cons rfl trivial (.cons rfl trivial trivial)))))

/-- Two producers that both load the head before either stores it, step by step. -/
def pushesAtOnce : List (RingEvent Bool Nat) :=
  [.push false 1, .push true 2, .produce false, .produce true, .produce false, .produce true,
    .produce false, .produce true, .produce false, .produce true]

/-- **Two producers that load one head lose an event**: both calls answer true, and the ring holds
    one of the two events. -/
theorem pushes_lose_event :
    ¬ ∀ (P T : Type) (_ : DecidableEq P) (CAP : Nat) (events : List (RingEvent P T))
      (x : RingState P T CAP), 2 ≤ CAP → .clear ∉ events →
      LTS.exec ringStep RingState.new events = some x →
      EachPoppedOnce (ringShown CAP events) x := by
  intro hclaim
  have honce := hclaim Bool Nat inferInstance 8 pushesAtOnce _ (by decide)
    (by simp [pushesAtOnce]) rfl
  exact absurd honce.length_eq (by decide)

end Producers

/-! ## One producer -/

section OneProducer

variable {T : Type} {CAP : Nat}

/-- What a single producer has loaded is still so. -/
structure Solo (x : RingState Unit T CAP) (a : State T) : Prop where
  loaded : ∀ s head, x.producers () = some (.loadedHead s head) → head = x.cells.head
  room : ∀ s head, x.producers () = some (.room s head) →
    head = x.cells.head ∧ a.queue.length + 1 < CAP

variable {x y : RingState Unit T CAP} {a : State T}

/-- A single producer's writes are sound. -/
theorem Solo.writesSound (hx : Represents x a) (h : Solo x a) (e : RingEvent Unit T) :
    WritesSound x e := by
  cases e with
  | produce p =>
    rw [WritesSound]
    split
    · next s head hp =>
      obtain ⟨rfl, hroom⟩ := h.room s head hp
      refine ⟨rfl, fun he => ?_, fun p' => ?_⟩
      · have := hx.holds.next_eq_tail_iff.mp he
        omega
      · show Pushing.isWritten (x.producers p) = false
        rw [hp]
        rfl
    · trivial
  | _ => trivial

/-- A producer's own step keeps what it has loaded true. -/
theorem Solo.produce (h : Solo x a) {b : State T} (hy : Represents y b)
    (hstep : ringStep x (.produce ()) = some y) : Solo y b := by
  cases hp : x.producers () with
  | none => simp [ringStep, hp] at hstep
  | some c =>
    simp only [ringStep, hp, Option.some.injEq] at hstep
    subst hstep
    cases c with
    | entered s =>
      refine ⟨fun s' head he => ?_, fun s' head he => ?_⟩
      · obtain ⟨-, rfl⟩ : s = s' ∧ x.cells.head = head := by
          simpa [RingCells.pushStep] using he
        rfl
      · exact absurd he (by simp [RingCells.pushStep])
    | loadedHead s head =>
      obtain rfl := h.loaded s head hp
      by_cases hfull : (x.cells.head + 1) % CAP = x.cells.tail
      · constructor <;> intro s' head he <;>
          exact absurd he (by simp [RingCells.pushStep, hfull])
      · refine ⟨fun s' head he => ?_, fun s' head he => ?_⟩
        · exact absurd he (by simp [RingCells.pushStep, hfull])
        · obtain ⟨-, rfl⟩ : s = s' ∧ x.cells.head = head := by
            simpa [RingCells.pushStep, hfull] using he
          have hcells : (x.cells.pushStep (.loadedHead s x.cells.head)).1 = x.cells := by
            simp [RingCells.pushStep, hfull]
          refine ⟨congrArg RingCells.head hcells.symm, ?_⟩
          have hne := mt hy.holds.next_eq_tail_iff.mpr
            (by rw [show _ = x.cells from hcells]; exact hfull)
          have := hy.holds.length_lt
          omega
    | room s head =>
      constructor <;> intro s' head he <;> exact absurd he (by simp [RingCells.pushStep])
    | written s head =>
      constructor <;> intro s' head he <;> exact absurd he (by simp [RingCells.pushStep])

/-- A step that moves nothing of the producer's, and makes room at most. -/
theorem Solo.consume (h : Solo x a) {b : State T} (hlen : b.queue.length ≤ a.queue.length)
    (hproducers : y.producers = x.producers) (hhead : y.cells.head = x.cells.head) : Solo y b := by
  refine ⟨fun s head hp => ?_, fun s head hp => ?_⟩
  · rw [hproducers] at hp
    rw [hhead]
    exact h.loaded s head hp
  · rw [hproducers] at hp
    obtain ⟨heq, hroom⟩ := h.room s head hp
    exact ⟨by rw [hhead]; exact heq, by omega⟩

/-- The consumer does not move `head`. -/
theorem popStep_head (r : RingCells T CAP) (c : Popping T) : (r.popStep c).1.head = r.head := by
  cases c with
  | loadedTail t => simp only [RingCells.popStep]; split <;> rfl
  | _ => rfl

theorem clearStep_head (r : RingCells T CAP) (c : Clearing T) :
    (r.clearStep c).1.head = r.head := by
  cases c with
  | dropping head idx dropped => simp only [RingCells.clearStep]; split <;> rfl
  | _ => rfl

/-- Every step keeps what a single producer has loaded true. -/
theorem Solo.step {e : RingEvent Unit T} (h : Solo x a) {b : State T} (hb : Represents y b)
    (hlen : e ≠ .produce () → b.queue.length ≤ a.queue.length) (hy : ringStep x e = some y) :
    Solo y b := by
  cases e with
  | produce p => exact h.produce hb hy
  | push p s =>
    simp only [ringStep] at hy
    split at hy
    · rw [← Option.some.inj hy]
      constructor <;> intro s' head he <;> exact absurd he (by simp)
    · exact absurd hy (by simp)
  | consume =>
    simp only [ringStep] at hy
    split at hy
    · exact absurd hy (by simp)
    · rw [← Option.some.inj hy]
      exact h.consume (hlen (by simp)) rfl (popStep_head _ _)
    · rw [← Option.some.inj hy]
      exact h.consume (hlen (by simp)) rfl (clearStep_head _ _)
  | _ =>
    simp only [ringStep] at hy
    split at hy
    · rw [← Option.some.inj hy]
      exact h.consume (hlen (by simp)) rfl rfl
    · exact absurd hy (by simp)

/-- Only a producer's step answers that something went in. -/
theorem ringLabel_put {e : RingEvent Unit T} {l : Label T} (h : ringLabel x e = some l)
    (he : e ≠ .produce ()) : l.put = [] := by
  cases e with
  | produce p => exact absurd rfl he
  | consume =>
    simp only [ringLabel] at h
    split at h
    · exact absurd h (by simp)
    · split at h
      · exact absurd h (by simp)
      · rw [← Option.some.inj h]; rfl
      · rw [← Option.some.inj h]; rfl
    · split at h
      · rw [← Option.some.inj h]; rfl
      · exact absurd h (by simp)
      · rw [← Option.some.inj h]; rfl
  | _ => exact absurd h (by simp [ringLabel])

/-- **One step of the ring is one step of the queue**, with a single producer under no condition. -/
theorem solo_matched {e : RingEvent Unit T} (hx : Represents x a) (h : Solo x a)
    (hy : ringStep x e = some y) :
    LTS.Matched (Fifo.BoundedStep (CAP - 1)) (fun b => Represents y b ∧ Solo y b) a
      (ringLabel x e) := by
  have hrefuses : ∀ p s head, e = .produce p → x.producers p = some (.loadedHead s head) →
      (head + 1) % CAP = x.cells.tail → a.queue.length = CAP - 1 := by
    intro p s head _ hp hfull
    obtain rfl := h.loaded s head hp
    have := hx.holds.next_eq_tail_iff.mp hfull
    omega
  have hmatched : LTS.Matched (Fifo.BoundedStep (CAP - 1)) (Represents y) a (ringLabel x e) :=
    ringStep_matched hx (h.writesSound hx e) hrefuses hy
  cases hl : ringLabel x e with
  | none =>
    rw [hl] at hmatched
    exact ⟨hmatched, h.step hmatched (fun _ => Nat.le_refl _) hy⟩
  | some l =>
    rw [hl] at hmatched
    obtain ⟨b, hstep, hb⟩ := hmatched
    refine ⟨b, hstep, hb, h.step hb (fun hnot => hstep.length_le ?_) hy⟩
    exact ringLabel_put hl hnot

/-- What the ring with one producer and one consumer is to a FIFO queue of capacity `CAP - 1`. -/
structure RefinesFifo (events : List (RingEvent Unit T)) (x : RingState Unit T CAP) : Prop where
  /-- The answers are the queue's, and the ring stores the queue. -/
  queue : ∃ a, LTS.Follows (Fifo.BoundedStep (CAP - 1)) State.start (ringShown CAP events) a ∧
    x.cells.Holds a.queue
  head_lt : x.cells.head < CAP
  tail_lt : x.cells.tail < CAP
  /-- The cells a call under way has read were initialised. -/
  initialised : ∀ cell ∈ x.consumer.cells, cell.isSome

/-- **With one producer and one consumer the ring is a bounded FIFO queue**: in every run, for every
    capacity, whatever the order of the steps of `push`, `pop` and `clear`. -/
theorem spsc_refines_fifo (hcap : 1 ≤ CAP) (events : List (RingEvent Unit T))
    (x : RingState Unit T CAP) (hrun : LTS.exec ringStep RingState.new events = some x) :
    RefinesFifo events x := by
  have hnew : Solo (RingState.new : RingState Unit T CAP) State.start :=
    ⟨fun _ _ h => absurd h (by simp [RingState.new]), fun _ _ h => absurd h (by simp [RingState.new])⟩
  obtain ⟨a, hfollows, hx, -⟩ := LTS.exec_simulation
    (fun s e s' a hR _ hs => solo_matched (x := s) hR.1 hR.2 hs) events
    ⟨Represents.new hcap, hnew⟩ (LTS.Along.of_forall (fun _ _ => trivial) events) hrun
  exact ⟨⟨a, hfollows, hx.holds⟩, hx.holds.head_lt, hx.holds.tail_lt, hx.consumer.cells_isSome⟩

/-- A push, a second one the full ring refuses, a clear in the middle of a third, and a pop. -/
def oneByOne : List (RingEvent Unit Nat) :=
  [.push () 1, .produce (), .produce (), .produce (), .produce (),
    .push () 2, .produce (), .produce (), .clear, .consume, .consume,
    .push () 3, .consume, .consume, .produce (), .produce (), .produce (), .produce (),
    .pop, .consume, .consume, .consume, .consume]

theorem spsc_refines_fifo_oneByOne :
    ∃ x : RingState Unit Nat 2, LTS.exec ringStep RingState.new oneByOne = some x ∧
      RefinesFifo oneByOne x :=
  ⟨_, rfl, spsc_refines_fifo (by decide) oneByOne _ rfl⟩

end OneProducer

end VitaGdb

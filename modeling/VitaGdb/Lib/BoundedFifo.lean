/-
  The bounded FIFO queue, as a labelled transition system.

  A state is the queue and, while a clear is under way, the elements it is going to drop (`marked`:
  those that were queued when it began).  A label is what a call of a queue answers, in cells that
  a faulty implementation could leave uninitialised (`none`); `Step` allows initialised cells only.

    * `pushed s`     — an element is appended; there was room;
    * `refused s`    — an element is refused, as a queue may that `refuses`;
    * `popped c`     — the oldest element is taken;
    * `empty`        — nothing is taken; the queue was empty;
    * `clearing`, `cleared cs` — a clear begins, and ends having dropped `cs`.

  `Follows.conserved` is the law of the queue: whatever list of labels it follows, what went in is
  what came out, in order, followed by what is still queued.
-/
import VitaGdb.Lib.Runs

namespace Fifo

variable {T : Type}

structure State (T : Type) where
  queue : List T
  marked : Option (List T)

/-- The empty queue. -/
def State.start : State T := ⟨[], none⟩

inductive Label (T : Type) where
  | pushed (s : T)
  | refused (s : T)
  | popped (cell : Option T)
  | empty
  | clearing
  | cleared (cells : List (Option T))

/-- The steps of a queue of capacity `cap` that may refuse an element where `refuses` holds. -/
inductive Step (cap : Nat) (refuses : List T → Prop) : State T → Label T → State T → Prop where
  | pushed (s : T) (q : List T) (m : Option (List T)) (hroom : q.length < cap) :
    Step cap refuses ⟨q, m⟩ (.pushed s) ⟨q ++ [s], m⟩
  | refused (s : T) (q : List T) (m : Option (List T)) (hrefuses : refuses q) :
    Step cap refuses ⟨q, m⟩ (.refused s) ⟨q, m⟩
  | popped (s : T) (q : List T) : Step cap refuses ⟨s :: q, none⟩ (.popped (some s)) ⟨q, none⟩
  | empty : Step cap refuses ⟨[], none⟩ .empty ⟨[], none⟩
  | clearing (q : List T) : Step cap refuses ⟨q, none⟩ .clearing ⟨q, some q⟩
  | cleared (marked later : List T) :
    Step cap refuses ⟨marked ++ later, some marked⟩ (.cleared (marked.map some)) ⟨later, none⟩

/-- The bounded queue proper refuses where it is full, and nowhere else. -/
abbrev BoundedStep (cap : Nat) : State T → Label T → State T → Prop :=
  Step cap fun q => q.length = cap

namespace Label

/-- What a label puts into the queue. -/
def put : Label T → List T
  | .pushed s => [s]
  | _ => []

/-- The cells a label takes out of it. -/
def taken : Label T → List (Option T)
  | .popped cell => [cell]
  | .cleared cells => cells
  | _ => []

end Label

/-- One step conserves the elements and their order. -/
theorem Step.conserved {cap : Nat} {refuses : List T → Prop} {a b : State T} {l : Label T}
    (h : Step cap refuses a l b) :
    (a.queue ++ l.put).map some = l.taken ++ b.queue.map some := by
  cases h with
  | pushed s q m _ => rfl
  | refused s q m _ => simp [Label.put, Label.taken]
  | popped s q => simp [Label.put, Label.taken]
  | empty => rfl
  | clearing q => simp [Label.put, Label.taken]
  | cleared marked later => simp [Label.put, Label.taken]

/-- A step that puts nothing in makes room at most. -/
theorem Step.length_le {cap : Nat} {refuses : List T → Prop} {a b : State T} {l : Label T}
    (h : Step cap refuses a l b) (hput : l.put = []) : b.queue.length ≤ a.queue.length := by
  have hlen := congrArg List.length h.conserved
  rw [hput, List.append_nil, List.length_append, List.length_map, List.length_map] at hlen
  omega

/-- **What goes in comes out**, once and in order, or is still queued. -/
theorem follows_conserved {cap : Nat} {refuses : List T → Prop} {ls : List (Label T)} :
    ∀ {a b : State T}, LTS.Follows (Step cap refuses) a ls b →
      (a.queue ++ ls.flatMap Label.put).map some = ls.flatMap Label.taken ++ b.queue.map some := by
  induction ls with
  | nil =>
    intro a b h
    obtain rfl : a = b := h
    simp
  | cons l ls ih =>
    intro a b h
    obtain ⟨a', hstep, hrest⟩ := h
    have hone := hstep.conserved
    have hmany := ih hrest
    rw [List.map_append] at hone hmany ⊢
    rw [List.flatMap_cons, List.flatMap_cons, List.map_append, ← List.append_assoc, hone,
      List.append_assoc, hmany, List.append_assoc]

end Fifo

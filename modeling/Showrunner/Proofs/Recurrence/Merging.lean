import Mathlib.Data.List.Basic
import Showrunner.Proofs.Outcome
import Showrunner.Proofs.Time.Instant
import Showrunner.Recurrence.RuleSet

/-!
# Comparing and merging moments

A moment of universal time is compared with any other one by their instants, whatever clock shows the other
one. A heap keeps its elements, whatever order they come in, and fails only where a comparison does; one
element is a heap of its own.
-/

namespace Showrunner

namespace Recurrence

/-! ## Moments of universal time -/

namespace Moment

variable {v w : Wall} {m : Moment}

/-- The instant of a moment of universal time is its wall reading. -/
@[simp] theorem instant_utc (w : Wall) : (utc w).instant = w.val := Stamp.instant_utc w

/-- What is shown by the clock of universal time is a moment of universal time. -/
theorem eq_utc_of_shares (h : (utc w).dial.shares m.dial = true) : m = utc m.wall := by
  obtain ⟨wall, _ | offset | zone⟩ := m
  · cases h
  · obtain rfl : (0 : Int) = offset := of_decide_eq_true h
    rfl
  · cases h

/-- If one clock is another, the other is the one. -/
theorem shares_comm (a b : Dial) : a.shares b = b.shares a := by
  cases a <;> cases b <;> simp [Dial.shares, eq_comm]

/-- A moment of universal time comes before another one if its instant does. -/
theorem before_utc_left (w : Wall) (m : Moment) : (utc w).before m = decide ((w.val : Int) < m.instant) := by
  rw [before, instant_utc]
  split
  · next hshares =>
    rw [eq_utc_of_shares hshares, instant_utc]
    exact decide_eq_decide.mpr Int.ofNat_lt.symm
  · rfl

/-- A moment comes before one of universal time if its instant does. -/
theorem before_utc_right (m : Moment) (w : Wall) : m.before (utc w) = decide (m.instant < w.val) := by
  rw [before, instant_utc]
  split
  · next hshares =>
    rw [shares_comm] at hshares
    rw [eq_utc_of_shares hshares, instant_utc]
    exact decide_eq_decide.mpr Int.ofNat_lt.symm
  · rfl

/-- Moments of universal time compare. -/
@[simp] theorem comparable_utc (v w : Wall) : (utc v).comparable (utc w) = true := rfl

/-- A moment of universal time is none of another instant. -/
theorem same_utc_of_ne (h : (w.val : Int) ≠ m.instant) : (utc w).same m = false := by
  rw [same]
  split
  · next hshares =>
    rw [eq_utc_of_shares hshares, instant_utc] at h
    exact decide_eq_false fun heq => h (congrArg (fun v : Wall => (v.val : Int)) heq)
  · rw [instant_utc, decide_eq_false h, Bool.and_false, Bool.false_and, Bool.false_and]

end Moment

/-! ## Heaps -/

namespace Heap

variable {α ε : Type} {precedes : α → α → Except ε Bool} {E : ε → Prop}

/-- Two elements that change places are still there. -/
theorem perm_swap {heap heap' : Array α} (h : heap.toList.Perm heap'.toList) (i j : Nat) :
    (heap.swapIfInBounds i j).toList.Perm heap'.toList := by
  unfold Array.swapIfInBounds
  split
  · split
    · exact (Array.swap_perm _ _).toList.trans h
    · exact h
  · exact h

/-- An element that sinks leaves all elements there, or a comparison fails. -/
theorem comes_sink (hprecedes : ∀ a b, Comes E (fun _ => True) (precedes a b)) (steps place : Nat)
    (heap : Array α) :
    Comes E (fun sunk => sunk.1.toList.Perm heap.toList) (sink precedes steps place heap) := by
  induction steps generalizing place heap with
  | zero => exact .refl _
  | succ steps ih =>
    have hmoved : ∀ below, Comes E (fun sunk => sunk.1.toList.Perm heap.toList)
        (sink precedes steps below (heap.swapIfInBounds place below)) := fun below =>
      (ih below _).mono (fun _ => id) fun _ hperm => hperm.trans (perm_swap (.refl _) _ _)
    unfold sink
    dsimp only
    split
    · exact .refl _
    · exact hmoved _
    · exact (hprecedes _ _).bind fun first _ => hmoved _

/-- An element that rises leaves all elements there, or a comparison fails. -/
theorem comes_rise (hprecedes : ∀ a b, Comes E (fun _ => True) (precedes a b)) (top steps place : Nat)
    (heap : Array α) :
    Comes E (fun risen => risen.toList.Perm heap.toList) (rise precedes top steps place heap) := by
  induction steps generalizing place heap with
  | zero => exact .refl _
  | succ steps ih =>
    unfold rise
    dsimp only
    split
    · exact .refl _
    · split
      · refine (hprecedes _ _).bind fun first _ => ?_
        split
        · exact (ih _ _).mono (fun _ => id) fun _ hperm => hperm.trans (perm_swap (.refl _) _ _)
        · exact .refl _
      · exact .refl _

/-- An element that is settled leaves all elements there, or a comparison fails. -/
theorem comes_settle (hprecedes : ∀ a b, Comes E (fun _ => True) (precedes a b)) (heap : Array α)
    (place : Nat) : Comes E (fun settled => settled.toList.Perm heap.toList) (settle precedes heap place) :=
  (comes_sink hprecedes _ _ heap).bind fun sunk hsunk =>
    (comes_rise hprecedes _ _ _ sunk.1).mono (fun _ => id) fun _ hrisen => hrisen.trans hsunk

/-- Making a heap of elements leaves all of them there, or a comparison fails. -/
theorem comes_build (hprecedes : ∀ a b, Comes E (fun _ => True) (precedes a b)) (elements : List α) :
    Comes E (fun heap => heap.Perm elements) (build precedes elements) := by
  refine Comes.bind (Q := fun heap => heap.toList.Perm elements) ?_ fun heap hheap => hheap
  refine comes_foldlM (.refl _) fun heap place _ hheap => ?_
  exact (comes_settle hprecedes heap place).mono (fun _ => id) fun _ hsettled => hsettled.trans hheap

/-- Putting an element in the first place leaves it and the others there, or a comparison fails. -/
theorem comes_replace (hprecedes : ∀ a b, Comes E (fun _ => True) (precedes a b)) (a : α) (rest : List α) :
    Comes E (fun heap => heap.Perm (a :: rest)) (replace precedes a rest) :=
  (comes_settle hprecedes _ _).bind fun _ hheap => hheap

/-- Taking the first element away leaves the others there, or a comparison fails. -/
theorem comes_pop (hprecedes : ∀ a b, Comes E (fun _ => True) (precedes a b)) (rest : List α) :
    Comes E (fun heap => heap.Perm rest) (pop precedes rest) := by
  unfold pop
  split
  · next hnone => exact List.getLast?_eq_none_iff.mp hnone ▸ .refl _
  · next last hlast =>
    refine (comes_replace hprecedes last rest.dropLast).mono (fun _ => id) fun heap hheap => hheap.trans ?_
    exact (List.perm_append_singleton last rest.dropLast).symm.trans
      (.of_eq (List.dropLast_append_getLast? last hlast))

/-- One element is a heap. -/
theorem build_single (a : α) : build precedes [a] = .ok [a] := by
  simp only [build, List.length_singleton, Nat.reduceDiv, List.range_zero, List.reverse_nil, List.foldlM_nil]
  rfl

end Heap

/-- Parts whose occurrences do not compare are refused. -/
theorem comes_precedes (p q : Part) : Comes (fun h : Halt => h = .unusable) (fun _ => True) (precedes p q) := by
  unfold precedes
  split
  · exact trivial
  · exact (rfl : _ = _)

end Recurrence

end Showrunner

import Mathlib.Data.Finset.Card
import Mathlib.Data.Finset.Dedup
import Mathlib.Order.Bounds.Basic
import Showrunner.Proofs.Board.Labels

/-!
# The search for a free label

A label that is taken is tried with one number after another until a candidate is free. Nothing in the search
bounds it: it ends because different numbers make different candidates, so that each candidate that is given
up is one taken label less that can still be met. The search therefore gives up no more candidates than there
are taken labels, whichever number it begins with, and ends with the least number that is free.
-/

namespace Showrunner

namespace Board

variable {label candidate found : Text} {taken : List Text} {next : Int} {count : Nat}

/-- A label with an integer behind it. -/
def suffixed (label : Text) (i : Int) : Text := label ++ text "-" ++ Text.ofInt i

/-- A natural number makes the same candidate as an integer. -/
theorem suffixed_natCast (label : Text) (n : Nat) : suffixed label n = numbered label n := rfl

/-- Different integers make different candidates. -/
theorem suffixed_injective (label : Text) : Function.Injective (suffixed label) := fun _ _ h =>
  Text.ofInt_injective (List.append_cancel_left h)

/-- No candidate with a number is the label itself. -/
theorem suffixed_ne (label : Text) (i : Int) : suffixed label i ≠ label := by
  intro h
  have hlength := congrArg List.length h
  simp [suffixed, text, Text.ofString, Text.ofChars] at hlength

/-- The search that has come to a candidate, where `next` is the number of the candidate behind it, looks at
`count` candidates and ends with the last of them: a free candidate is found, a taken one is given up. -/
inductive Search (label : Text) (taken : List Text) : Text → Int → Nat → Text → Prop
  | found {candidate : Text} {next : Int} (hfree : candidate ∉ taken) :
      Search label taken candidate next 1 candidate
  | further {candidate found : Text} {next : Int} {count : Nat} (htaken : candidate ∈ taken)
      (rest : Search label taken (suffixed label next) (next + 1) count found) :
      Search label taken candidate next (count + 1) found

/-- A search ends in one way only. -/
theorem Search.unique {found' : Text} {count' : Nat} (h : Search label taken candidate next count found)
    (h' : Search label taken candidate next count' found') : count' = count ∧ found' = found := by
  induction h generalizing count' with
  | found hfree =>
    cases h' with
    | found => exact ⟨rfl, rfl⟩
    | further htaken => exact absurd htaken hfree
  | further htaken _ ih =>
    cases h' with
    | found hfree => exact absurd htaken hfree
    | further _ rest =>
      obtain ⟨hcount, hfound⟩ := ih rest
      exact ⟨congrArg (· + 1) hcount, hfound⟩

/-- A number makes a free candidate, and is the least such number from `next` on. -/
def LeastFree (label : Text) (taken : List Text) (next j : Int) : Prop :=
  IsLeast {i | next ≤ i ∧ suffixed label i ∉ taken} j

/-- If the next number makes a taken candidate, the least free number is that from the number behind it on. -/
theorem LeastFree.of_taken {j : Int} (htaken : suffixed label next ∈ taken)
    (h : LeastFree label taken (next + 1) j) : LeastFree label taken next j := by
  obtain ⟨⟨hnext, hfree⟩, hleast⟩ := h
  refine ⟨⟨by omega, hfree⟩, fun i hi => ?_⟩
  have hne : next ≠ i := by
    rintro rfl
    exact hi.2 htaken
  exact hleast ⟨by have := hi.1; omega, hi.2⟩

/-- From any number on the search ends with the least free one. Each candidate that it gives up is among the
taken labels that it can still meet, and is not met again. -/
theorem exists_search (label : Text) (taken : List Text) (ahead : Finset Text) (next : Int)
    (hahead : ∀ i, next ≤ i → suffixed label i ∈ taken → suffixed label i ∈ ahead) :
    ∃ count j, Search label taken (suffixed label next) (next + 1) count (suffixed label j) ∧
      count ≤ ahead.card + 1 ∧ LeastFree label taken next j := by
  induction hcard : ahead.card generalizing ahead next with
  | zero =>
    have hfree : suffixed label next ∉ taken := fun htaken => by
      have hmem := hahead next (Int.le_refl next) htaken
      rw [Finset.card_eq_zero.mp hcard] at hmem
      exact Finset.notMem_empty _ hmem
    exact ⟨1, next, .found hfree, by omega, ⟨Int.le_refl next, hfree⟩, fun i hi => hi.1⟩
  | succ room ih =>
    by_cases htaken : suffixed label next ∈ taken
    · have hmem := hahead next (Int.le_refl next) htaken
      have hroom : (ahead.erase (suffixed label next)).card = room := by
        rw [Finset.card_erase_of_mem hmem, hcard, Nat.add_sub_cancel]
      have hbehind : ∀ i, next + 1 ≤ i → suffixed label i ∈ taken →
          suffixed label i ∈ ahead.erase (suffixed label next) := by
        intro i hi hin
        refine Finset.mem_erase.mpr ⟨fun hsame => ?_, hahead i (by omega) hin⟩
        have := suffixed_injective label hsame
        omega
      obtain ⟨count, j, hsearch, hcount, hleast⟩ := ih _ _ hbehind hroom
      exact ⟨count + 1, j, .further htaken hsearch, by omega, hleast.of_taken htaken⟩
    · exact ⟨1, next, .found htaken, by omega, ⟨Int.le_refl next, htaken⟩, fun i hi => hi.1⟩

/-- The number that a taken label gets is the least that is free. -/
theorem exists_leastFree_of_mem {n : Nat} (h : label ∈ taken) :
    ∃ j : Int, LeastFree label taken n j ∧ freeLabel label n taken = suffixed label j := by
  obtain ⟨j, hlow, -, heq, hbelow, -⟩ := firstFree_eq_numbered label taken n taken.length
  have hlabel : freeLabel label n taken = numbered label j := (if_pos h).trans heq
  have hfree : suffixed label j ∉ taken := by
    rw [suffixed_natCast, ← hlabel]
    exact freeLabel_not_mem label n taken
  refine ⟨j, ⟨⟨Int.ofNat_le.mpr hlow, hfree⟩, fun i hi => ?_⟩, hlabel⟩
  by_contra hlt
  obtain ⟨k, rfl⟩ := Int.eq_ofNat_of_zero_le (show 0 ≤ i by have := hi.1; omega)
  exact hi.2 (hbelow k (Int.ofNat_le.mp hi.1) (by omega))

/-- From every number on the search for a free label ends, and in one way only. It looks at no more than one
candidate more than there are taken labels and finds a label that is not taken: the label itself if it is
free, and else the label with the least free number. From a natural number on, such as the position of a
connection, this is the label that the connection gets. -/
theorem search_ends (label : Text) (index : Int) (taken : List Text) :
    ∃ count found, Search label taken label index count found ∧
      (∀ count' found', Search label taken label index count' found' → count' = count ∧ found' = found) ∧
      count ≤ taken.toFinset.card + 1 ∧ found ∉ taken ∧
      (if label ∈ taken then ∃ j, LeastFree label taken index j ∧ found = suffixed label j
        else found = label) ∧
      ∀ n : Nat, index = n → freeLabel label n taken = found := by
  by_cases hlabel : label ∈ taken
  · have hmem : label ∈ taken.toFinset := List.mem_toFinset.mpr hlabel
    have hahead : ∀ i, index ≤ i → suffixed label i ∈ taken → suffixed label i ∈ taken.toFinset.erase label :=
      fun i _ hin => Finset.mem_erase.mpr ⟨suffixed_ne label i, List.mem_toFinset.mpr hin⟩
    obtain ⟨count, j, hsearch, hcount, hleast⟩ := exists_search label taken _ index hahead
    rw [Finset.card_erase_add_one hmem] at hcount
    have hall : Search label taken label index (count + 1) (suffixed label j) := .further hlabel hsearch
    refine ⟨_, _, hall, fun _ _ => hall.unique, by omega, hleast.1.2, ?_, ?_⟩
    · rw [if_pos hlabel]
      exact ⟨j, hleast, rfl⟩
    · rintro n rfl
      obtain ⟨j', hleast', hfree⟩ := exists_leastFree_of_mem (n := n) hlabel
      rw [hfree, IsLeast.unique hleast' hleast]
  · have hall : Search label taken label index 1 label := .found hlabel
    refine ⟨_, _, hall, fun _ _ => hall.unique, by omega, hlabel, ?_, fun n _ => if_neg hlabel⟩
    rw [if_neg hlabel]

example : freeLabel (text "out") 1 [text "out", text "out-1"] = text "out-2" := by decide

end Board

end Showrunner

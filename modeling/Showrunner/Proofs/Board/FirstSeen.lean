import Mathlib.Data.List.Nodup
import Showrunner.Board.Compile

/-!
# Keeping what is seen first

Nodes, connections and branches are all sifted in one way: of the elements with one key the first
is kept, and the order stays. The lemmas below say what is kept in terms of the list alone, so that
what is compiled can be compared with what was drawn.
-/

namespace Showrunner

section

variable {α β : Type} [DecidableEq β]

/-- Sifting drops what has a key that was seen before, and then what repeats a key. -/
theorem firstsBy_eq_eraseDupsBy (key : α → β) (seen : List β) (as : List α) :
    firstsBy key seen as =
      (as.filter (key · ∉ seen)).eraseDupsBy fun a b => key a = key b := by
  induction as generalizing seen with
  | nil => rfl
  | cons a rest ih =>
    by_cases ha : key a ∈ seen
    · rw [firstsBy, if_pos ha, ih, List.filter_cons_of_neg (by simpa using ha)]
    · rw [firstsBy, if_neg ha, ih, List.filter_cons_of_pos (by simpa using ha),
        List.eraseDupsBy_cons, List.filter_filter]
      congr 2
      refine List.filter_congr fun b _ => ?_
      simp [List.mem_cons, not_or]

/-- Keeping the first of equal elements drops the others. -/
theorem firsts_eq_eraseDups [BEq β] [LawfulBEq β] (as : List β) : firsts as = as.eraseDups := by
  rw [firsts, firstsBy_eq_eraseDupsBy, List.filter_eq_self.mpr (by simp), List.eraseDups]
  congr 1
  funext a b
  exact Bool.eq_iff_iff.mpr (by simp)

/-- The keys of what is kept are the keys that are kept. -/
theorem map_firstsBy (key : α → β) (seen : List β) (as : List α) :
    (firstsBy key seen as).map key = firstsBy id seen (as.map key) := by
  induction as generalizing seen with
  | nil => rfl
  | cons a rest ih =>
    simp only [List.map_cons, firstsBy, id_eq]
    split
    · exact ih seen
    · rw [List.map_cons, ih]

/-- What is kept is in the list, and its key was not seen before. -/
theorem mem_firstsBy {key : α → β} {seen : List β} {as : List α} {a : α}
    (h : a ∈ firstsBy key seen as) : a ∈ as ∧ key a ∉ seen := by
  induction as generalizing seen with
  | nil => cases h
  | cons b rest ih =>
    rw [firstsBy] at h
    split at h
    · obtain ⟨hmem, hnew⟩ := ih h
      exact ⟨List.mem_cons_of_mem b hmem, hnew⟩
    · next hb =>
      rcases List.mem_cons.mp h with rfl | hrest
      · exact ⟨List.mem_cons_self, hb⟩
      · obtain ⟨hmem, hnew⟩ := ih hrest
        exact ⟨List.mem_cons_of_mem b hmem, fun hseen => hnew (List.mem_cons_of_mem _ hseen)⟩

/-- What is kept is what the list has first under its key. -/
theorem find?_of_mem_firstsBy {key : α → β} {seen : List β} {as : List α} {a : α}
    (h : a ∈ firstsBy key seen as) : as.find? (key · = key a) = some a := by
  have hnew := (mem_firstsBy h).2
  induction as generalizing seen with
  | nil => cases h
  | cons b rest ih =>
    rw [firstsBy] at h
    split at h
    · next hb =>
      have hne : key b ≠ key a := fun heq => hnew (heq ▸ hb)
      rw [List.find?_cons_of_neg (by simpa using hne)]
      exact ih h hnew
    · rcases List.mem_cons.mp h with rfl | hrest
      · exact List.find?_cons_of_pos (by simp)
      · have hlater := (mem_firstsBy hrest).2
        have hne : key b ≠ key a := fun heq => hlater (heq ▸ List.mem_cons_self)
        rw [List.find?_cons_of_neg (by simpa using hne)]
        exact ih hrest hlater

/-- Under a key that was not seen before, what the list has first is kept. -/
theorem find?_firstsBy {key : α → β} {seen : List β} {k : β} (h : k ∉ seen) (as : List α) :
    (firstsBy key seen as).find? (key · = k) = as.find? (key · = k) := by
  induction as generalizing seen with
  | nil => rfl
  | cons a rest ih =>
    by_cases hkey : key a = k
    · rw [firstsBy, if_neg (hkey ▸ h), List.find?_cons_of_pos (by simpa using hkey),
        List.find?_cons_of_pos (by simpa using hkey)]
    · rw [List.find?_cons_of_neg (by simpa using hkey), firstsBy]
      split
      · exact ih h
      · rw [List.find?_cons_of_neg (by simpa using hkey)]
        exact ih (List.not_mem_cons_of_ne_of_not_mem (Ne.symm hkey) h)

/-- No key is kept twice. -/
theorem nodup_firstsBy (key : α → β) (seen : List β) (as : List α) :
    ((firstsBy key seen as).map key).Nodup := by
  induction as generalizing seen with
  | nil => exact List.nodup_nil
  | cons a rest ih =>
    rw [firstsBy]
    split
    · exact ih seen
    · rw [List.map_cons, List.nodup_cons]
      refine ⟨fun hagain => ?_, ih (key a :: seen)⟩
      obtain ⟨b, hb, hkey⟩ := List.mem_map.mp hagain
      exact (mem_firstsBy hb).2 (hkey ▸ List.mem_cons_self)

/-- The first element is always kept. -/
theorem head?_firsts (as : List β) : (firsts as).head? = as.head? := by
  cases as with
  | nil => rfl
  | cons a rest => rfl

/-- The elements that are kept are those that there are. -/
theorem mem_firsts {as : List β} {a : β} : a ∈ firsts as ↔ a ∈ as := by
  rw [firsts_eq_eraseDups, List.mem_eraseDups]

/-- No element is kept twice. -/
theorem nodup_firsts (as : List β) : (firsts as).Nodup :=
  List.map_id (firsts as) ▸ nodup_firstsBy id [] as

/-- Behind others an element is kept if it is not one of them. -/
theorem firsts_concat (as : List β) (a : β) :
    firsts (as ++ [a]) = if a ∈ as then firsts as else firsts as ++ [a] := by
  simp only [firsts_eq_eraseDups, List.eraseDups_append, List.removeAll, List.filter_singleton]
  by_cases ha : a ∈ as <;> simp [ha, List.eraseDups_cons]

end

end Showrunner

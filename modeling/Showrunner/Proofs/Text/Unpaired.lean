import Mathlib.Data.List.Chain
import Showrunner.Text.Case

/-!
# Texts without split pairs

Two halves of a pair that stand side by side are two code points of a text, but a document spells them as
the one character that they join to. Joining them changes no text in which none stand side by side. A text
of characters has no halves at all, and lowering a text does not bring halves together: halves have no
case, and no character is lowered to nothing.
-/

namespace Showrunner

namespace CodePoint

/-- Nothing joins a character that stands behind it. -/
theorem joinHalves?_scalar (p : CodePoint) (c : Char) : joinHalves? p (.scalar c) = none := by
  cases p <;> rfl

/-- A character joins nothing that stands behind it. -/
theorem scalar_joinHalves? (c : Char) (p : CodePoint) : joinHalves? (.scalar c) p = none := by
  cases p <;> rfl

/-- Nothing joins a first half that stands behind it. -/
theorem joinHalves?_of_high (p : CodePoint) {n : Fin 0x800} (h : n.val < 0x400) :
    joinHalves? p (.surrogate n) = none := by
  cases p with
  | scalar c => rfl
  | surrogate m => exact if_neg fun hjoin => Nat.not_lt.mpr hjoin.2 h

/-- Nothing joins what is no first half to what stands behind it. -/
theorem joinHalves?_of_not_high {p : CodePoint} (h : ¬p.isHighHalf = true) (q : CodePoint) :
    joinHalves? p q = none := by
  cases p with
  | scalar c => exact scalar_joinHalves? c q
  | surrogate m =>
    cases q with
    | scalar c => rfl
    | surrogate n => exact if_neg fun hjoin => h (decide_eq_true hjoin.1)

/-- What joins is a first half, followed by a second half. -/
theorem of_joinHalves? {p q : CodePoint} {c : Char} (h : joinHalves? p q = some c) :
    p.isHighHalf = true ∧ q.isHighHalf = false ∧ ∃ n, q = .surrogate n := by
  have hhigh : p.isHighHalf = true := by
    by_contra hnot
    rw [joinHalves?_of_not_high hnot] at h
    cases h
  cases q with
  | scalar d =>
    rw [joinHalves?_scalar] at h
    cases h
  | surrogate n =>
    refine ⟨hhigh, decide_eq_false fun hn => ?_, n, rfl⟩
    rw [joinHalves?_of_high p hn] at h
    cases h

end CodePoint

namespace Text

variable {t t' : Text}

/-- No first half of a pair stands before a second half in a text. -/
def IsUnpaired (t : Text) : Prop := t.IsChain fun p q => CodePoint.joinHalves? p q = none

/-- Join the halves of pairs that stand side by side. -/
def paired : Text → Text
  | [] => []
  | [p] => [p]
  | p :: q :: rest =>
      match CodePoint.joinHalves? p q with
      | some c => .scalar c :: paired rest
      | none => p :: paired (q :: rest)

/-- There is nothing to join in a text without split pairs. -/
theorem paired_of_isUnpaired (h : t.IsUnpaired) : t.paired = t := by
  fun_induction paired t with
  | case1 | case2 => rfl
  | case3 p q rest c hjoin =>
    rw [(List.isChain_cons_cons.mp h).1] at hjoin
    cases hjoin
  | case4 p q rest hjoin ih => rw [ih (List.isChain_cons_cons.mp h).2]

/-- A part of a text of characters is one. -/
theorem isScalar_of_subset (h : t.isScalar = true) (hsubset : t' ⊆ t) : t'.isScalar = true := by
  rw [isScalar, List.all_eq_true] at h ⊢
  exact fun p hp => h p (hsubset hp)

/-- An ending of a text of characters is one. -/
theorem isScalar_of_suffix (h : t.isScalar = true) (hsuffix : t' <:+ t) : t'.isScalar = true :=
  isScalar_of_subset h hsuffix.subset

/-- Characters are a text of characters. -/
theorem isScalar_ofChars (cs : List Char) : isScalar (ofChars cs) = true := by
  rw [isScalar, ofChars, List.all_map, List.all_eq_true]
  exact fun _ _ => rfl

/-- The code points of a text of characters are characters. -/
theorem exists_char_of_mem (h : t.isScalar = true) {p : CodePoint} (hp : p ∈ t) :
    ∃ c, p = .scalar c := by
  have hscalar := List.all_eq_true.mp h p hp
  cases p with
  | scalar c => exact ⟨c, rfl⟩
  | surrogate n => cases hscalar

/-- No halves stand side by side in a text of characters. -/
theorem isUnpaired_of_isScalar (h : t.isScalar = true) : t.IsUnpaired := by
  refine List.Pairwise.isChain (List.pairwise_of_forall_mem_list fun p hp q _ => ?_)
  obtain ⟨c, rfl⟩ := exists_char_of_mem h hp
  exact CodePoint.scalar_joinHalves? c q

end Text

/-! ## Lower case -/

namespace Case

/-- Every letter is mapped to some letters. -/
theorem map_ne_nil {expansions : List (Nat × List Nat)} (h : ∀ entry ∈ expansions, entry.2 ≠ [])
    (runs : List Run) (n : Nat) : map runs expansions n ≠ [] := by
  unfold map
  split
  · next letters hfound =>
    obtain ⟨entry, hentry, rfl⟩ : ∃ entry ∈ expansions, entry.2 = letters := by
      obtain ⟨before, after, rfl, -⟩ := List.lookup_eq_some_iff.mp hfound
      exact ⟨(n, letters), by simp, rfl⟩
    exact h entry hentry
  · exact List.cons_ne_nil _ _

/-- The lower case of a character is some characters. -/
theorem lowerOne_scalar (c : Char) : ∃ cs, cs ≠ [] ∧ lowerOne (.scalar c) = Text.ofChars cs := by
  rw [lowerOne]
  split
  · exact ⟨[c.toLower], List.cons_ne_nil _ _, rfl⟩
  · refine ⟨(map lowerRuns lowerExpansions c.toNat).map Char.ofNat, ?_, by simp [Text.ofChars]⟩
    exact fun hnil => map_ne_nil (by decide) _ _ (List.map_eq_nil_iff.mp hnil)

/-- A half of a pair stays as it is. -/
theorem lowerAfter_surrogate (read : Text) (n : Fin 0x800) (rest : Text) :
    lowerAfter read (.surrogate n :: rest) =
      .surrogate n :: lowerAfter (.surrogate n :: read) rest := rfl

/-- A character becomes some characters. -/
theorem lowerAfter_scalar (read : Text) (c : Char) (rest : Text) :
    ∃ cs, cs ≠ [] ∧
      lowerAfter read (.scalar c :: rest) = Text.ofChars cs ++ lowerAfter (.scalar c :: read) rest := by
  rw [lowerAfter]
  split
  · split
    · exact ⟨['ς'], List.cons_ne_nil _ _, rfl⟩
    · exact ⟨['σ'], List.cons_ne_nil _ _, rfl⟩
  · obtain ⟨cs, hcs, hlower⟩ := lowerOne_scalar c
    exact ⟨cs, hcs, by rw [hlower]⟩

/-- Lowering does not bring halves of a pair together. -/
theorem isUnpaired_lowerAfter {t : Text} (h : t.IsUnpaired) (read : Text) :
    (lowerAfter read t).IsUnpaired := by
  induction t generalizing read with
  | nil => exact .nil
  | cons p rest ih =>
    have hrest := ih (List.IsChain.tail h) (p :: read)
    cases p with
    | scalar c =>
      obtain ⟨cs, -, hlower⟩ := lowerAfter_scalar read c rest
      rw [hlower]
      refine List.isChain_append.mpr
        ⟨Text.isUnpaired_of_isScalar (Text.isScalar_ofChars cs), hrest, fun q hq next _ => ?_⟩
      obtain ⟨d, rfl⟩ := Text.exists_char_of_mem (Text.isScalar_ofChars cs) (List.mem_of_getLast? hq)
      exact CodePoint.scalar_joinHalves? d next
    | surrogate n =>
      rw [lowerAfter_surrogate]
      -- what stands next is the next half itself, or the first letter of a character
      refine List.isChain_cons.mpr ⟨fun next hnext => ?_, hrest⟩
      cases rest with
      | nil => cases hnext
      | cons q more =>
        cases q with
        | surrogate m =>
          rw [lowerAfter_surrogate] at hnext
          obtain rfl := Option.some.inj hnext
          exact (List.isChain_cons_cons.mp h).1
        | scalar c =>
          obtain ⟨cs, hcs, hlower⟩ := lowerAfter_scalar (.surrogate n :: read) c more
          obtain ⟨d, others, rfl⟩ := List.exists_cons_of_ne_nil hcs
          rw [hlower] at hnext
          obtain rfl := Option.some.inj hnext
          exact CodePoint.joinHalves?_scalar _ d

end Case

/-- The lower case of a text without split pairs has none. -/
theorem Text.isUnpaired_lower {t : Text} (h : t.IsUnpaired) : t.lower.IsUnpaired :=
  Case.isUnpaired_lowerAfter h []

end Showrunner

import Showrunner.Text.Utf8

/-!
# The order of texts

Texts are compared code point by code point, their encodings octet by octet. Both are the same
order: the encoding of a code point opens with an octet that tells how many octets follow, and the
larger of two code points has the larger octet where their encodings first differ.
-/

namespace Showrunner

/-- Code points are told apart by their numbers. -/
theorem CodePoint.value_injective {p q : CodePoint} (h : p.value = q.value) : p = q := by
  cases p with
  | scalar c =>
    cases q with
    | scalar d => rw [Char.toNat_inj.mp h]
    | surrogate n =>
      have hvalid := c.valid
      simp only [value, Char.toNat] at h
      simp only [UInt32.isValidChar, Nat.isValidChar] at hvalid
      omega
  | surrogate m =>
    cases q with
    | scalar d =>
      have hvalid := d.valid
      simp only [value, Char.toNat] at h
      simp only [UInt32.isValidChar, Nat.isValidChar] at hvalid
      omega
    | surrogate n =>
      simp only [value] at h
      rw [Fin.eq_of_val_eq (show m.val = n.val by omega)]

/-- The number of a code point lies in the code space. -/
theorem CodePoint.value_lt (p : CodePoint) : p.value < 0x110000 := by
  cases p with
  | scalar c =>
    have hvalid := c.valid
    simp only [UInt32.isValidChar, Nat.isValidChar] at hvalid
    simp only [value, Char.toNat]
    omega
  | surrogate n =>
    simp only [value]
    omega

namespace Utf8

/-- The octets that spell a number of the code space. -/
def octets (v : Nat) : List UInt8 :=
  if v ≤ 0x7F then [UInt8.ofNat v]
  else if v ≤ 0x7FF then [UInt8.ofNat (v / 64 % 32 + 192), UInt8.ofNat (v % 64 + 128)]
  else if v ≤ 0xFFFF then
    [UInt8.ofNat (v / 4096 % 16 + 224), UInt8.ofNat (v / 64 % 64 + 128), UInt8.ofNat (v % 64 + 128)]
  else
    [UInt8.ofNat (v / 262144 % 8 + 240), UInt8.ofNat (v / 4096 % 64 + 128),
      UInt8.ofNat (v / 64 % 64 + 128), UInt8.ofNat (v % 64 + 128)]

/-- A text is encoded by the octets of its code points. -/
theorem encode_cons (p : CodePoint) (t : Text) : encode (p :: t) = octets p.value ++ encode t := by
  unfold encode
  rw [List.flatMap_cons]
  congr 1
  cases p with
  | scalar c => rfl
  | surrogate n =>
    have hn := n.isLt
    have hfirst : (0xD800 + n.val) / 4096 % 16 + 224 = 0xED := by omega
    have hsecond : (0xD800 + n.val) / 64 % 64 + 128 = 0xA0 + n.val / 0x40 := by omega
    have hthird : (0xD800 + n.val) % 64 + 128 = 0x80 + n.val % 0x40 := by omega
    rw [octets, CodePoint.value, if_neg (by omega), if_neg (by omega), if_pos (by omega), hfirst, hsecond,
      hthird]
    rfl

/-- Octets come before others if the first is smaller, or the first is the same and the others come first. -/
theorem cons_lt_cons_of_le {a b : Nat} {xs ys : List UInt8} (hb : b < 256) (hle : a ≤ b)
    (hrest : a = b → xs < ys) : UInt8.ofNat a :: xs < UInt8.ofNat b :: ys := by
  refine List.cons_lt_cons_iff.mpr ?_
  rcases Nat.lt_or_eq_of_le hle with hlt | heq
  · left
    rwa [UInt8.lt_iff_toNat_lt, UInt8.toNat_ofNat_of_lt' (Nat.lt_trans hlt hb), UInt8.toNat_ofNat_of_lt' hb]
  · exact .inr ⟨congrArg _ heq, hrest heq⟩

/-- Octets come before others if the first is smaller. -/
theorem cons_lt_cons_of_lt {a b : Nat} {xs ys : List UInt8} (hb : b < 256) (hlt : a < b) :
    UInt8.ofNat a :: xs < UInt8.ofNat b :: ys :=
  cons_lt_cons_of_le hb (Nat.le_of_lt hlt) fun heq => absurd heq (Nat.ne_of_lt hlt)

/-- Of two numbers the larger has the larger octet where their octets first differ, whatever follows. -/
theorem octets_append_lt {v w : Nat} (hw : w < 0x110000) (h : v < w) (xs ys : List UInt8) :
    octets v ++ xs < octets w ++ ys := by
  unfold octets
  -- fewer octets are told by a smaller first one; as many are compared until they differ
  split
  · split
    · exact cons_lt_cons_of_lt (by omega) h
    · split
      · exact cons_lt_cons_of_lt (by omega) (by omega)
      · split <;> exact cons_lt_cons_of_lt (by omega) (by omega)
  · rw [if_neg (by omega : ¬w ≤ 0x7F)]
    split
    · split
      · exact cons_lt_cons_of_le (by omega) (by omega) fun _ => cons_lt_cons_of_lt (by omega) (by omega)
      · split <;> exact cons_lt_cons_of_lt (by omega) (by omega)
    · rw [if_neg (by omega : ¬w ≤ 0x7FF)]
      split
      · split
        · exact cons_lt_cons_of_le (by omega) (by omega) fun _ =>
            cons_lt_cons_of_le (by omega) (by omega) fun _ => cons_lt_cons_of_lt (by omega) (by omega)
        · exact cons_lt_cons_of_lt (by omega) (by omega)
      · rw [if_neg (by omega : ¬w ≤ 0xFFFF)]
        exact cons_lt_cons_of_le (by omega) (by omega) fun _ =>
          cons_lt_cons_of_le (by omega) (by omega) fun _ =>
            cons_lt_cons_of_le (by omega) (by omega) fun _ => cons_lt_cons_of_lt (by omega) (by omega)

/-- Octets that open alike are compared by what follows. -/
theorem append_lt_append (xs : List UInt8) {ys zs : List UInt8} (h : ys < zs) : xs ++ ys < xs ++ zs := by
  induction xs with
  | nil => exact h
  | cons x xs ih => exact List.cons_lt_cons_iff.mpr (.inr ⟨rfl, ih⟩)

/-- The encoding of a code point is not empty. -/
theorem nil_lt_encode_cons (p : CodePoint) (t : Text) : ([] : List UInt8) < encode (p :: t) := by
  rw [encode_cons, octets]
  split
  · exact List.nil_lt_cons _ _
  · split
    · exact List.nil_lt_cons _ _
    · split <;> exact List.nil_lt_cons _ _

/-- A text that comes before another has the smaller encoding. -/
theorem encode_lt_of_before {s t : Text} (h : Text.before s t = true) : encode s < encode t := by
  induction s generalizing t with
  | nil =>
    cases t with
    | nil => cases h
    | cons q t => exact nil_lt_encode_cons q t
  | cons p s ih =>
    cases t with
    | nil => cases h
    | cons q t =>
      simp only [Text.before, Bool.or_eq_true, Bool.and_eq_true, decide_eq_true_eq, beq_iff_eq] at h
      rw [encode_cons, encode_cons]
      rcases h with hlt | ⟨rfl, hrest⟩
      · exact octets_append_lt q.value_lt hlt _ _
      · exact append_lt_append _ (ih hrest)

end Utf8

namespace Text

variable {s t : Text}

/-- Of two texts one comes before the other, or they are the same. -/
theorem before_trichotomy (s t : Text) : before s t = true ∨ s = t ∨ before t s = true := by
  induction s generalizing t with
  | nil =>
    cases t with
    | nil => exact .inr (.inl rfl)
    | cons q t => exact .inl rfl
  | cons p s ih =>
    cases t with
    | nil => exact .inr (.inr rfl)
    | cons q t =>
      simp only [before, Bool.or_eq_true, Bool.and_eq_true, decide_eq_true_eq, beq_iff_eq]
      rcases Nat.lt_trichotomy p.value q.value with hlt | heq | hgt
      · exact .inl (.inl hlt)
      · obtain rfl := CodePoint.value_injective heq
        rcases ih t with hbefore | rfl | hbehind
        · exact .inl (.inr ⟨rfl, hbefore⟩)
        · exact .inr (.inl rfl)
        · exact .inr (.inr (.inr ⟨rfl, hbehind⟩))
      · exact .inr (.inr (.inl hgt))

/-- Texts are in the order of their encodings, octet by octet. -/
theorem before_iff_encode_lt : before s t = true ↔ Utf8.encode s < Utf8.encode t := by
  refine ⟨Utf8.encode_lt_of_before, fun h => ?_⟩
  rcases before_trichotomy s t with hbefore | rfl | hbehind
  · exact hbefore
  · exact absurd h (List.lt_irrefl _)
  · exact absurd h (List.lt_asymm (Utf8.encode_lt_of_before hbehind))

end Text

end Showrunner

import Showrunner.Json.Read
import Showrunner.Json.Write
import Showrunner.Proofs.Text.Unpaired

/-!
# Strings in documents

A string is written in printable ASCII: a code point that is no such character is escaped by its number
in sixteen bits, and a character that needs more bits by the numbers of two halves. A reader joins an
escaped half to an escaped half in front of it, so the halves of a pair that stand side by side in a string
are read back as one character, and everything else is read back as it was.
-/

namespace Showrunner

/-- A character is the code point of its number. -/
theorem CodePoint.ofValue?_toNat (c : Char) : ofValue? c.toNat = some (.scalar c) := by
  have hvalid : c.toNat < 0xD800 ∨ (0xDFFF < c.toNat ∧ c.toNat < 0x110000) := c.valid
  rw [ofValue?, dif_neg (by omega), if_pos (by omega), Char.ofNat_toNat]

/-- Half of a pair is the code point of its number. -/
theorem CodePoint.ofValue?_surrogate (n : Fin 0x800) :
    ofValue? (0xD800 + n.val) = some (.surrogate n) := by
  have hn := n.isLt
  rw [ofValue?, dif_pos (by omega)]
  simp

namespace Json

variable {limit : Option Nat} {depth : Nat} {rest : Text}

/-- The four digits of an escape spell its number. -/
theorem hex4?_hex {n : Nat} (h : n < 0x10000) :
    ∃ a b c d, Quoted.hex 4 n = [a, b, c, d] ∧
      hex4? (.scalar a) (.scalar b) (.scalar c) (.scalar d) = some n := by
  have hdigit : ∀ m, Digits.hex? (Quoted.hexDigit (m % 16)) = some (m % 16) := fun m => by
    have hall : ∀ k < 16, Digits.hex? (Quoted.hexDigit k) = some k := by decide
    exact hall _ (Nat.mod_lt m (by decide))
  refine ⟨_, _, _, _, rfl, ?_⟩
  simp only [hex4?, CodePoint.toChar, hdigit, Option.bind_eq_bind, Option.bind_some, Option.pure_def]
  congr 1
  omega

/-- Reading an escape of four digits adds its code point. -/
theorem readChars_escape16 (opened : Nat) (read : Text) (half : Bool) {n : Nat} (h : n < 0x10000)
    {p : CodePoint} (hp : CodePoint.ofValue? n = some p) (hrest : rest ≠ []) :
    readChars opened read half (Text.ofChars (escape16 n) ++ rest) =
      readChars opened (addEscaped read half p) p.isHighHalf rest := by
  obtain ⟨a, b, c, d, hhex, hvalue⟩ := hex4?_hex h
  obtain ⟨q, more, rfl⟩ := List.exists_cons_of_ne_nil hrest
  rw [escape16, hhex]
  change readChars opened read half (.scalar '\\' :: .scalar 'u' :: .scalar a :: .scalar b ::
    .scalar c :: .scalar d :: q :: more) = _
  rw [readChars.eq_def]
  simp only [hvalue, hp, Option.getD_some]

/-- What neither ends a pair nor starts one is added as it is. -/
theorem addEscaped_of_apart {read : Text} {half : Bool} {p : CodePoint}
    (h : ∀ first ∈ read.head?, CodePoint.joinHalves? first p = none) :
    addEscaped read half p = p :: read := by
  cases half with
  | false => rfl
  | true =>
    cases read with
    | nil => rfl
    | cons first before => rw [addEscaped, h first rfl]

/-- A character outside of the basic plane is written as two halves that join to it. -/
theorem joinHalves?_split (c : Char) (h : ¬c.toNat < 0x10000) :
    ∃ first second : Fin 0x800, (c.toNat - 0x10000) / 0x400 = first.val ∧ first.val < 0x400 ∧
      0xDC00 + (c.toNat - 0x10000) % 0x400 = 0xD800 + second.val ∧
      CodePoint.joinHalves? (.surrogate first) (.surrogate second) = some c := by
  have hvalid : c.toNat < 0xD800 ∨ (0xDFFF < c.toNat ∧ c.toNat < 0x110000) := c.valid
  refine ⟨⟨(c.toNat - 0x10000) / 0x400, by omega⟩, ⟨0x400 + (c.toNat - 0x10000) % 0x400, by omega⟩,
    rfl, by simp only; omega, by simp only; omega, ?_⟩
  rw [CodePoint.joinHalves?, if_pos (by simp only; omega)]
  have hsum : 0x10000 + (c.toNat - 0x10000) / 0x400 * 0x400 +
      (0x400 + (c.toNat - 0x10000) % 0x400 - 0x400) = c.toNat := by omega
  rw [hsum, Char.ofNat_toNat]

/-- Reading what a code point is written as adds the code point, unless it ends a pair. -/
theorem readChars_escapePoint (opened : Nat) {read : Text} (half : Bool) {p : CodePoint}
    (h : ∀ first ∈ read.head?, CodePoint.joinHalves? first p = none) (hrest : rest ≠ []) :
    readChars opened read half (Text.ofChars (escapePoint p) ++ rest) =
      readChars opened (p :: read) p.isHighHalf rest := by
  cases p with
  | surrogate n =>
    rw [escapePoint, readChars_escape16 opened read half (by omega)
      (CodePoint.ofValue?_surrogate n) hrest, addEscaped_of_apart h]
  | scalar c =>
    have hsimple : ∀ {e}, escapePoint (.scalar c) = ['\\', e] → e ≠ 'u' →
        simpleEscape? (.scalar e) = some c →
        readChars opened read half (Text.ofChars (escapePoint (.scalar c)) ++ rest) =
          readChars opened (.scalar c :: read) false rest := by
      intro e he hu hspells
      have hne : CodePoint.scalar e ≠ .scalar 'u' := fun heq => hu (CodePoint.scalar.inj heq)
      rw [he]
      change readChars opened read half (.scalar '\\' :: .scalar e :: rest) = _
      rw [readChars, hspells]
      · exact fun _ _ _ _ _ heq => absurd heq hne
      · exact fun heq => absurd heq hne
    by_cases hnamed : c ∈ ['"', '\\', '\n', '\r', '\t', '\x0c', '\x08']
    · simp only [List.mem_cons, List.not_mem_nil, or_false] at hnamed
      rcases hnamed with rfl | rfl | rfl | rfl | rfl | rfl | rfl <;>
        exact hsimple rfl (by decide) rfl
    · simp only [List.mem_cons, List.not_mem_nil, or_false, not_or] at hnamed
      obtain ⟨hquote, hslash, hline, hreturn, htab, hfeed, hback⟩ := hnamed
      simp only [escapePoint, beq_iff_eq, hquote, hslash, hline, hreturn, htab, hfeed, hback, if_false]
      split
      · next hprintable =>
        rw [Bool.and_eq_true, decide_eq_true_eq] at hprintable
        have hne : ∀ {d}, c ≠ d → CodePoint.scalar c ≠ .scalar d := fun hc heq =>
          hc (CodePoint.scalar.inj heq)
        change readChars opened read half (.scalar c :: rest) = _
        rw [readChars]
        · exact if_neg (Nat.not_lt.mpr hprintable.1)
        · exact hne hquote
        · exact fun _ _ _ _ _ heq => absurd heq (hne hslash)
        · exact fun _ heq => absurd heq (hne hslash)
        · exact fun _ _ heq => absurd heq (hne hslash)
        · exact fun heq => absurd heq (hne hslash)
      · split
        · next hbasic =>
          rw [readChars_escape16 opened read half hbasic (CodePoint.ofValue?_toNat c) hrest,
            addEscaped_of_apart h]
        · next hbasic =>
          obtain ⟨first, second, hfirst, hhigh, hsecond, hjoin⟩ := joinHalves?_split c hbasic
          have hfree : ∀ q ∈ read.head?, CodePoint.joinHalves? q (.surrogate first) = none :=
            fun q _ => CodePoint.joinHalves?_of_high q hhigh
          have hsplit : Text.ofChars (escape16 (0xD800 + first.val) ++
              escape16 (0xD800 + second.val)) ++ rest =
              Text.ofChars (escape16 (0xD800 + first.val)) ++
                (Text.ofChars (escape16 (0xD800 + second.val)) ++ rest) := by
            simp [Text.ofChars]
          rw [hfirst, hsecond, hsplit,
            readChars_escape16 opened read half (by omega) (CodePoint.ofValue?_surrogate first)
              (by simp [hrest]),
            addEscaped_of_apart hfree,
            readChars_escape16 opened _ _ (by omega) (CodePoint.ofValue?_surrogate second) hrest]
          have hhalf : CodePoint.isHighHalf (.surrogate first) = true := decide_eq_true hhigh
          have hlow : CodePoint.isHighHalf (.surrogate second) = false :=
            decide_eq_false (by omega)
          rw [hhalf, hlow, addEscaped, hjoin]
          rfl

/-- Reading a written string up to its closing quote gives the string, with the halves of pairs joined
that stand side by side in it. -/
theorem readChars_write (opened : Nat) {read : Text} (half : Bool) (t : Text)
    (hread : ∀ first ∈ read.head?, ∀ p ∈ t.head?, CodePoint.joinHalves? first p = none)
    (rest : Text) :
    readChars opened read half (Text.ofChars (t.flatMap escapePoint) ++ .scalar '"' :: rest) =
      .ok (read.reverse ++ t.paired, rest) := by
  have hsplit : ∀ (p : CodePoint) (t : Text),
      Text.ofChars ((p :: t).flatMap escapePoint) ++ .scalar '"' :: rest =
        Text.ofChars (escapePoint p) ++
          (Text.ofChars (t.flatMap escapePoint) ++ .scalar '"' :: rest) := fun p t => by
    simp [Text.ofChars]
  have hend : ∀ (read : Text) (half : Bool),
      readChars opened read half (.scalar '"' :: rest) = .ok (read.reverse, rest) := fun _ _ => by
    rw [readChars]
  have hclosed : ∀ t : Text,
      Text.ofChars (t.flatMap escapePoint) ++ .scalar '"' :: rest ≠ [] := fun t => by simp
  fun_induction Text.paired t generalizing read half with
  | case1 =>
    rw [List.append_nil]
    exact hend read half
  | case2 p =>
    rw [hsplit, readChars_escapePoint opened half (fun first hfirst => hread first hfirst p rfl)
      (hclosed [])]
    exact (hend (p :: read) p.isHighHalf).trans (by rw [List.reverse_cons])
  | case3 p q more c hjoin ih =>
    -- the first half waits in front of the second, which joins it
    obtain ⟨hhigh, hlow, n, rfl⟩ := CodePoint.of_joinHalves? hjoin
    have hjoined : addEscaped (p :: read) true (.surrogate n) = .scalar c :: read := by
      rw [addEscaped, hjoin]
    rw [hsplit, hsplit, readChars_escapePoint opened half
        (fun first hfirst => hread first hfirst p rfl) (List.append_ne_nil_of_right_ne_nil _ (hclosed more)),
      escapePoint, readChars_escape16 opened _ _ (by omega) (CodePoint.ofValue?_surrogate n)
        (hclosed more), hhigh, hlow, hjoined, ih false, List.reverse_cons, List.append_assoc]
    · rfl
    · intro first hfirst next _
      obtain rfl := Option.some.inj hfirst
      exact CodePoint.scalar_joinHalves? c next
  | case4 p q more hjoin ih =>
    rw [hsplit, readChars_escapePoint opened half (fun first hfirst => hread first hfirst p rfl)
      (hclosed (q :: more)), ih p.isHighHalf, List.reverse_cons, List.append_assoc]
    · rfl
    · intro first hfirst next hnext
      obtain rfl := Option.some.inj hfirst
      obtain rfl := Option.some.inj hnext
      exact hjoin

end Json

end Showrunner

import Mathlib.Data.List.TakeWhile
import Showrunner.Proofs.Recurrence.Order
import Showrunner.Proofs.Text.Numeral

/-!
# Written rules

A rule that is written part after part, in capital letters and digits, is a single rule with the parts that are
written. A number of at most 4300 digits reads as itself.
-/

namespace Showrunner

/-! ## Bare texts -/

/-- Recognise a capital letter, a digit, an equals sign or a semicolon of ASCII. -/
def isBare (c : Char) : Bool := c.isUpper || c.isDigit || c == '=' || c == ';'

section Bare

variable {c : Char} {cs : List Char}

/-- A bare character is one of ASCII. -/
theorem isBare_lt (h : isBare c = true) : c.toNat < 0x80 := by
  have hcode : (decide (c.val ≥ 'A'.val ∧ c.val ≤ 'Z'.val) ||
      (decide (c.val ≥ '0'.val) && decide (c.val ≤ '9'.val)) || c == '=' || c == ';') = true := h
  simp only [Bool.or_eq_true, Bool.and_eq_true, decide_eq_true_eq, beq_iff_eq] at hcode
  rcases hcode with ((⟨-, hletter⟩ | ⟨-, hdigit⟩) | rfl) | rfl
  · exact Nat.lt_of_le_of_lt (UInt32.le_iff_toNat_le.mp hletter) (by decide)
  · exact Nat.lt_of_le_of_lt (UInt32.le_iff_toNat_le.mp hdigit) (by decide)
  · decide
  · decide

/-- A bare character is in upper case, and it is neither blank nor a colon. -/
theorem isBare_spec (h : isBare c = true) :
    c.toUpper = c ∧ Blank.isBlank c = false ∧ c ≠ ':' := by
  have hascii : ∀ n < 0x80, isBare (Char.ofNat n) = true → (Char.ofNat n).toUpper = Char.ofNat n ∧
      Blank.isBlank (Char.ofNat n) = false ∧ Char.ofNat n ≠ ':' := by decide +kernel
  have hc := hascii c.toNat (isBare_lt h)
  rw [Char.ofNat_toNat] at hc
  exact hc h

/-- A text without blanks is a single word. -/
theorem Blank.words_eq_singleton (hne : cs ≠ []) (h : ∀ c ∈ cs, Blank.isBlank c = false) :
    Blank.words cs = [cs] := by
  have hread : ∀ {f : List Char × List (List Char) → Char → List Char × List (List Char)},
      (∀ word done c, Blank.isBlank c = false → f (word, done) c = (c :: word, done)) →
      ∀ (cs word : List Char), (∀ c ∈ cs, Blank.isBlank c = false) →
        cs.foldl f (word, []) = (cs.reverse ++ word, []) := by
    intro f hf cs
    induction cs with
    | nil => exact fun word _ => rfl
    | cons c cs ih =>
      intro word h
      obtain ⟨hc, hcs⟩ := List.forall_mem_cons.mp h
      rw [List.foldl_cons, hf word [] c hc, List.reverse_cons, List.append_assoc]
      exact ih (c :: word) hcs
  unfold Blank.words
  dsimp only
  rw [hread (fun word done c hc => if_neg (by rw [hc]; decide)) cs [] h]
  simpa using hne

/-- A bare text is read as it is written. -/
theorem bare_read (h : ∀ c ∈ cs, isBare c = true) :
    (Text.ofChars cs).trim = Text.ofChars cs ∧ (Text.ofChars cs).upper = Text.ofChars cs := by
  constructor
  · have hblank : ∀ p ∈ Text.ofChars cs, p.isBlank = false := fun p hp => by
      obtain ⟨c, hc, rfl⟩ := List.mem_map.mp hp
      exact (isBare_spec (h c hc)).2.1
    exact Blank.trimBy_eq_self (fun p hp => hblank p (List.mem_of_mem_head? hp)) fun p hp =>
      hblank p (List.mem_of_getLast? hp)
  · have hupper : ∀ p ∈ Text.ofChars cs, Case.upperOne p = [p] := by
      intro p hp
      obtain ⟨c, hc, rfl⟩ := List.mem_map.mp hp
      rw [Case.upperOne, if_pos (isBare_lt (h c hc)), (isBare_spec (h c hc)).1]
    rw [Text.upper, List.flatMap_congr hupper, List.flatMap_singleton']

end Bare

/-! ## Numbers -/

namespace Integer

/-- A digit of ASCII is a bare digit of any script, and neither a sign nor an underscore. -/
theorem isAscii_spec {c : Char} (h : Digits.isAscii c = true) :
    c.isDigit = true ∧ Digits.decimal? c = Digits.ascii? c ∧ c ≠ '_' ∧ c ≠ '-' ∧ c ≠ '+' := by
  have hascii : ∀ n < 0x80, Digits.isAscii (Char.ofNat n) = true → (Char.ofNat n).isDigit = true ∧
      Digits.decimal? (Char.ofNat n) = Digits.ascii? (Char.ofNat n) ∧ Char.ofNat n ≠ '_' ∧ Char.ofNat n ≠ '-' ∧
        Char.ofNat n ≠ '+' := by decide +kernel
  have hlt : c.toNat < 0x80 := by
    unfold Digits.isAscii Digits.ascii? at h
    split at h
    · next hrange => exact Nat.lt_of_le_of_lt hrange.2 (by decide)
    · cases h
  have hc := hascii c.toNat hlt
  rw [Char.ofNat_toNat] at hc
  exact hc h

/-- Digits of ASCII are a run of digits. -/
theorem digitRun_ascii {cs : List Char} (h : ∀ c ∈ cs, Digits.isAscii c = true) :
    digitRun cs = (cs.map fun c => (Digits.ascii? c).getD 0, []) := by
  induction cs with
  | nil => rw [digitRun]; rfl
  | cons c rest ih =>
    obtain ⟨hc, hrest⟩ := List.forall_mem_cons.mp h
    obtain ⟨d, hd⟩ := Option.isSome_iff_exists.mp hc
    rw [digitRun, (isAscii_spec hc).2.1, hd]
    · dsimp only
      rw [ih hrest, List.map_cons, hd]
      rfl
    · rintro next rest' rfl
      exact absurd rfl (isAscii_spec (hrest '_' List.mem_cons_self)).2.2.1

/-- A number of at most 4300 digits is read as it is written. -/
theorem read?_toDigits {n : Nat} (h : (Nat.toDigits 10 n).length ≤ digitLimit) :
    read? (Nat.toDigits 10 n) = some (n : Int) := by
  have hdigits : ∀ c ∈ Nat.toDigits 10 n, Digits.isAscii c = true := fun c hc =>
    Digits.isAscii_of_mem_toDigits hc
  have hblank : ∀ c ∈ Nat.toDigits 10 n, Blank.isBlank c = false := fun c hc => by
    refine (isBare_spec ?_).2.1
    rw [isBare, (isAscii_spec (hdigits c hc)).1, Bool.or_true]
    rfl
  have htrim : Blank.trim (Nat.toDigits 10 n) = Nat.toDigits 10 n :=
    Blank.trimBy_eq_self (fun c hc => hblank c (List.mem_of_mem_head? hc)) fun c hc =>
      hblank c (List.mem_of_getLast? hc)
  obtain ⟨c, rest, hcons, -⟩ := Digits.exists_toDigits_eq_cons n
  have hsigned : signed (Nat.toDigits 10 n) = (false, Nat.toDigits 10 n) := by
    have hc := isAscii_spec (hdigits c (hcons ▸ List.mem_cons_self))
    rw [hcons, signed]
    · rintro rest' heq
      cases heq
      exact hc.2.2.2.1 rfl
    · rintro rest' heq
      cases heq
      exact hc.2.2.2.2 rfl
  have hvalue : Digits.value 10 ((Nat.toDigits 10 n).map fun c => (Digits.ascii? c).getD 0) = n :=
    Digits.natOf_toDigits n
  unfold read? read
  rw [htrim, hsigned]
  dsimp only
  rw [digitRun_ascii hdigits]
  dsimp only
  rw [if_neg (by rw [hcons]; exact Bool.false_ne_true), if_neg (by rw [List.length_map]; omega),
    if_neg Bool.false_ne_true, hvalue]
  rfl

end Integer

/-! ## Rules -/

namespace Recurrence

/-- Write a rule part after part. -/
def written (parts : List (String × List Char)) : List Char :=
  [';'].intercalate (parts.map fun part => part.1.toList ++ '=' :: part.2)

/-- Parts are bare if their names and values consist of capital letters and digits. -/
def BareParts (parts : List (String × List Char)) : Prop :=
  ∀ part ∈ parts, (part.1.toList ++ part.2).all (fun c => c.isUpper || c.isDigit) = true

variable {dates : Dates} {parts : List (String × List Char)}

/-- What a written rule consists of is bare, and no part holds a semicolon or a second equals sign. -/
theorem BareParts.spec (h : BareParts parts) {part : String × List Char} (hpart : part ∈ parts) :
    (∀ c ∈ part.1.toList ++ '=' :: part.2, isBare c = true) ∧ ';' ∉ part.1.toList ++ '=' :: part.2 ∧
      '=' ∉ part.1.toList ∧ '=' ∉ part.2 := by
  have hall : ∀ c ∈ part.1.toList ++ part.2, (c.isUpper || c.isDigit) = true := List.all_eq_true.mp (h part hpart)
  obtain ⟨hname, hvalue⟩ := List.forall_mem_append.mp hall
  refine ⟨fun c hc => ?_, fun hc => ?_, fun hc => absurd (hname _ hc) (by decide),
    fun hc => absurd (hvalue _ hc) (by decide)⟩
  · unfold isBare
    rcases List.mem_append.mp hc with hc | hc
    · rw [hname c hc]
      rfl
    · rcases List.mem_cons.mp hc with rfl | hc
      · rfl
      · rw [hvalue c hc]
        rfl
  · rcases List.mem_append.mp hc with hc | hc
    · exact absurd (hname _ hc) (by decide)
    · rcases List.mem_cons.mp hc with hc | hc
      · exact absurd hc (by decide)
      · exact absurd (hvalue _ hc) (by decide)

/-- What stands in lists that are joined stands between them or in one of them. -/
theorem mem_intercalate {sep c : Char} {ls : List (List Char)} (h : c ∈ [sep].intercalate ls) :
    c = sep ∨ ∃ l ∈ ls, c ∈ l := by
  induction ls with
  | nil => cases h
  | cons l ls ih =>
    cases ls with
    | nil => exact .inr ⟨l, List.mem_cons_self, by simpa [List.intercalate] using h⟩
    | cons l' ls =>
      rw [List.intercalate_cons_cons] at h
      rcases List.mem_append.mp h with h | h
      · rcases List.mem_append.mp h with h | h
        · exact .inr ⟨l, List.mem_cons_self, h⟩
        · exact .inl (List.mem_singleton.mp h)
      · exact (ih h).imp_right fun ⟨l, hl, hc⟩ => ⟨l, List.mem_cons_of_mem _ hl, hc⟩

/-- A written rule is bare. -/
theorem BareParts.isBare_written (h : BareParts parts) : ∀ c ∈ written parts, isBare c = true := by
  intro c hc
  rcases mem_intercalate hc with rfl | ⟨l, hl, hc⟩
  · decide
  · obtain ⟨part, hpart, rfl⟩ := List.mem_map.mp hl
    exact (h.spec hpart).1 c hc

/-- A part of a written rule is cut into its name and its value. -/
theorem BareParts.cutAt_part (h : BareParts parts) {part : String × List Char} (hpart : part ∈ parts) :
    cutAt '=' (part.1.toList ++ '=' :: part.2) = [part.1.toList, part.2] := by
  obtain ⟨-, -, hname, hvalue⟩ := h.spec hpart
  have hjoined : part.1.toList ++ '=' :: part.2 = ['='].intercalate [part.1.toList, part.2] := by
    simp [List.intercalate]
  rw [cutAt, hjoined]
  refine List.splitOn_intercalate _ (fun l hl => ?_) (List.cons_ne_nil _ _)
  rcases List.mem_pair.mp hl with rfl | rfl
  · exact hname
  · exact hvalue

/-- A written rule is read part after part. -/
theorem readParts_written (h : BareParts parts) (hne : parts ≠ []) :
    readParts dates (written parts) = (do
      let draft ← parts.foldlM (fun (d : Draft) part => d.part dates part.1.toList part.2) Draft.empty
      match draft.frequency with
      | some frequency => pure { draft.parts with frequency := frequency }
      | none => unusable) := by
  have hwhole : cutAt ':' (written parts) = [written parts] :=
    List.splitOnP_eq_singleton fun c hc => beq_false_of_ne (isBare_spec (h.isBare_written c hc)).2.2
  have hcut : cutAt ';' (written parts) = parts.map fun part => part.1.toList ++ '=' :: part.2 := by
    refine List.splitOn_intercalate _ (fun l hl => ?_) (by simpa using hne)
    obtain ⟨part, hpart, rfl⟩ := List.mem_map.mp hl
    exact (h.spec hpart).2.1
  have hpairs : ∀ {f : Draft → List Char → Except Halt Draft},
      (∀ d, ∀ part ∈ parts, f d (part.1.toList ++ '=' :: part.2) = d.part dates part.1.toList part.2) →
      ∀ d, (parts.map fun part => part.1.toList ++ '=' :: part.2).foldlM f d =
        parts.foldlM (fun (d : Draft) part => d.part dates part.1.toList part.2) d := by
    intro f hf
    clear hne hwhole hcut
    induction parts with
    | nil => exact fun _ => rfl
    | cons part rest ih =>
      intro d
      rw [List.map_cons, List.foldlM_cons, List.foldlM_cons, hf d part List.mem_cons_self]
      refine bind_congr fun d' => ih (fun p hp => h p (List.mem_cons_of_mem _ hp)) (fun d p hp => ?_) d'
      exact hf d p (List.mem_cons_of_mem _ hp)
  unfold readParts
  rw [hwhole]
  simp only [pure_bind, hcut]
  exact congrArg (· >>= _) (hpairs (fun d part hpart => by rw [h.cutAt_part hpart]) Draft.empty)

/-- A written rule is a single rule with the parts as which it is read. -/
theorem isRule_written {p : Parts} (h : BareParts parts) (hread : readParts dates (written parts) = .ok p) :
    IsRule dates (Text.ofChars (written parts)) p := by
  have hbare := h.isBare_written
  obtain ⟨htrim, hupper⟩ := bare_read hbare
  have hwords : Blank.words (written parts) = [written parts] := by
    refine Blank.words_eq_singleton (fun hnil => ?_) fun c hc => (isBare_spec (hbare c hc)).2.1
    rw [hnil] at hread
    cases hread
  have hline : ∀ zones, Properties.line dates zones ⟨[], [], [], [], none⟩ (written parts) =
      .ok ⟨[written parts], [], [], [], none⟩ := by
    intro zones
    have hnone : splitFirst? ':' (written parts) = none := by
      unfold splitFirst?
      rw [List.takeWhile_eq_self_iff.mpr fun c hc => bne_iff_ne.mpr (isBare_spec (hbare c hc)).2.2]
      dsimp only
      rw [List.drop_length]
    unfold Properties.line
    rw [hnone]
    rfl
  refine ⟨written parts, ?_, hread⟩
  rw [htrim, hupper, Text.toChars_ofChars, hwords, List.foldlM_cons, hline]
  rfl

end Recurrence

end Showrunner

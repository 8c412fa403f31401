import Showrunner.Proofs.Json.Readings

/-!
# Where a document escapes

Where a code point stands in a document can be told from the code points in front of it: outside of the
strings, in a string, or behind a backslash that escapes it. In a document that is read every backslash
stands in a string, and what it escapes names an escape, unless the backslash is itself escaped. A string
of a document is shorter than the document by its two quotes at least.
-/

namespace Showrunner

namespace Json

/-- Where a code point stands in a document. -/
inductive Place
  | outside
  | quoted
  | escaped
deriving DecidableEq, Repr

/-- Where a code point stands that comes behind another. -/
def Place.step : Place → CodePoint → Place
  | .outside, p => if p = .scalar '"' then .quoted else .outside
  | .quoted, p =>
      if p = .scalar '"' then .outside else if p = .scalar '\\' then .escaped else .quoted
  | .escaped, _ => .quoted

/-- Where a code point stands that comes behind a text. -/
def Place.behind (place : Place) (t : Text) : Place := t.foldl step place

/-- Decide whether a code point that is escaped spells something. -/
def namesEscape (p : CodePoint) : Bool := (simpleEscape? p).isSome || p == .scalar 'u'

/-- A backslash of a text, which is not itself escaped, escapes what names no escape. -/
def Strays (place : Place) (t : Text) : Prop :=
  ∃ before p after, t = before ++ .scalar '\\' :: p :: after ∧ namesEscape p = false ∧
    place.behind before ≠ .escaped

variable {place : Place} {p : CodePoint} {t t' : Text}

/-- A plain code point changes no place but one that is escaped. -/
theorem Place.step_of_isPlain (h : isPlain p = true) (hplace : place ≠ .escaped) :
    place.step p = place := by
  obtain ⟨hquote, hescape⟩ : p ≠ .scalar '"' ∧ p ≠ .scalar '\\' := by simpa [isPlain] using h
  cases place with
  | outside => rw [step, if_neg hquote]
  | quoted => rw [step, if_neg hquote, if_neg hescape]
  | escaped => exact absurd rfl hplace

/-- Two texts are passed over one behind the other. -/
theorem Place.behind_append (place : Place) (t t' : Text) :
    place.behind (t ++ t') = (place.behind t).behind t' := List.foldl_append

/-- Plain code points change no place but one that is escaped. -/
theorem Place.behind_of_isPlain (h : ∀ p ∈ t, isPlain p = true) (hplace : place ≠ .escaped) :
    place.behind t = place := by
  induction t with
  | nil => rfl
  | cons p rest ih =>
    obtain ⟨hp, hrest⟩ := List.forall_mem_cons.mp h
    calc place.behind (p :: rest)
        = (place.step p).behind rest := rfl
      _ = place.behind rest := by rw [step_of_isPlain hp hplace]
      _ = place := ih hrest

/-- Nothing strays in an empty text. -/
theorem not_strays_nil : ¬Strays place [] := by
  rintro ⟨before, p, after, ht, -⟩
  simp at ht

/-- What strays behind a code point that is no backslash strays behind its place. -/
theorem Strays.tail (h : Strays place (p :: t)) (hp : p ≠ .scalar '\\') : Strays (place.step p) t := by
  obtain ⟨before, q, after, ht, hq, hplace⟩ := h
  cases before with
  | nil => exact absurd (List.cons.inj ht).1 hp
  | cons first before =>
    obtain ⟨rfl, rfl⟩ := List.cons.inj ht
    exact ⟨before, q, after, rfl, hq, hplace⟩

/-- What strays behind a plain code point strays without it. -/
theorem Strays.passing_cons (h : Strays place (p :: t)) (hp : isPlain p = true)
    (hplace : place ≠ .escaped) : Strays place t := by
  have hescape : p ≠ .scalar '\\' := by
    rintro rfl
    cases hp
  exact Place.step_of_isPlain hp hplace ▸ h.tail hescape

/-- What strays in a text strays behind its plain code points. -/
theorem Strays.passing (h : Strays place t) (hpasses : Passes t t') (hplace : place ≠ .escaped) :
    Strays place t' := by
  obtain ⟨plain, rfl, hplain⟩ := hpasses
  induction plain with
  | nil => exact h
  | cons p plain ih =>
    obtain ⟨hp, hrest⟩ := List.forall_mem_cons.mp hplain
    exact ih hrest (h.passing_cons hp hplace)

/-- What strays in a string that begins with an escape strays behind the escape. -/
theorem Strays.behind_escape (h : Strays .quoted (.scalar '\\' :: p :: t)) (hp : namesEscape p = true) :
    Strays .quoted t := by
  obtain ⟨before, q, after, ht, hq, hplace⟩ := h
  rcases before with _ | ⟨first, _ | ⟨second, before⟩⟩
  · obtain rfl : p = q := (List.cons.inj (List.cons.inj ht).2).1
    exact absurd hp (Bool.eq_false_iff.mp hq)
  · obtain rfl : .scalar '\\' = first := (List.cons.inj ht).1
    exact absurd rfl hplace
  · obtain ⟨rfl, hrest⟩ := List.cons.inj ht
    obtain ⟨rfl, rfl⟩ := List.cons.inj hrest
    exact ⟨before, q, after, rfl, hq, hplace⟩

/-- The digits of an escape are plain. -/
theorem isPlain_of_hex4? {a b c d : CodePoint} {n : Nat} (h : hex4? a b c d = some n) :
    isPlain a = true ∧ isPlain b = true ∧ isPlain c = true ∧ isPlain d = true := by
  have hdigit : ∀ {p : CodePoint} {k : Nat}, Digits.hex? p.toChar = some k → isPlain p = true := by
    intro p k hk
    have hquote : p ≠ .scalar '"' := by
      rintro rfl
      cases hk
    have hescape : p ≠ .scalar '\\' := by
      rintro rfl
      cases hk
    simp [isPlain, hquote, hescape]
  obtain ⟨_, ha, h⟩ := Option.bind_eq_some_iff.mp h
  obtain ⟨_, hb, h⟩ := Option.bind_eq_some_iff.mp h
  obtain ⟨_, hc, h⟩ := Option.bind_eq_some_iff.mp h
  obtain ⟨_, hd, -⟩ := Option.bind_eq_some_iff.mp h
  exact ⟨hdigit ha, hdigit hb, hdigit hc, hdigit hd⟩

/-- What strays in a string that is read strays behind the string. -/
theorem readChars_strays (opened : Nat) (read : Text) (half : Bool) (h : Strays .quoted t) :
    Yields (Strays .outside) (fun _ => True) (readChars opened read half t) := by
  fun_induction readChars opened read half t with
  | case1 | case4 | case5 | case7 | case8 | case9 => trivial
  | case2 read half rest => exact ⟨trivial, h.tail (by decide)⟩
  | case3 read half a b c d n next rest hn p grown ih =>
    obtain ⟨ha, hb, hc, hd⟩ := isPlain_of_hex4? hn
    have hdigits : Passes (a :: b :: c :: d :: next :: rest) (next :: rest) :=
      ((Passes.cons ha _).trans (.cons hb _)).trans ((Passes.cons hc _).trans (.cons hd _))
    exact ih ((h.behind_escape rfl).passing hdigits (by decide))
  | case6 read half p rest _ _ c hc ih =>
    exact ih (h.behind_escape (by rw [namesEscape, hc]; rfl))
  | case10 read half p rest hquote _ _ hescape hlast _ ih =>
    have hplain : isPlain p = true := by
      have hnone : p ≠ .scalar '\\' := fun hp => by
        cases rest with
        | nil => exact hlast hp rfl
        | cons next more => exact hescape next more hp rfl
      simpa [isPlain] using And.intro hquote hnone
    exact ih (h.passing_cons hplain (by decide))

/-- What strays in a text strays behind each value that is read. -/
theorem source_strays : Source (Strays .outside) fun _ => True where
  passing := fun h hpasses => h.passing hpasses (by decide)
  string := fun opened _ h => readChars_strays opened [] false (h.tail (by decide))

/-- In a document that is read, a backslash before a code point that names no escape is itself escaped. -/
theorem escaped_of_read {limits : Limits} {v : Json} {before after : Text}
    (h : Json.read limits (before ++ .scalar '\\' :: p :: after) = .ok v) (hp : namesEscape p = false) :
    Place.outside.behind before = .escaped := by
  by_contra hplace
  have hstrays : Strays .outside (before ++ .scalar '\\' :: p :: after) :=
    ⟨before, p, after, rfl, hp, hplace⟩
  exact not_strays_nil (readAlone_yields source_strays hstrays (readAlone_of_read h)).2

/-! ## How long strings are -/

/-- An escaped code point adds one code point at most. -/
theorem length_addEscaped_le (read : Text) (half : Bool) (p : CodePoint) :
    (addEscaped read half p).length ≤ read.length + 1 := by
  unfold addEscaped
  split
  · split
    · exact Nat.le_succ _
    · exact Nat.le_refl _
  · exact Nat.le_refl _

/-- A string that is read is no longer than what has been read and what it was read from, without the
closing quote. -/
theorem readChars_short (opened : Nat) (read : Text) (half : Bool) {most : Nat}
    (h : read.length + t.length ≤ most) :
    Yields (·.length < most) (·.length < most) (readChars opened read half t) := by
  fun_induction readChars opened read half t with
  | case1 | case4 | case5 | case7 | case8 | case9 => trivial
  | case2 read half rest =>
    rw [List.length_cons] at h
    have hreverse : read.reverse.length < most := by
      rw [List.length_reverse]
      omega
    exact ⟨hreverse, by omega⟩
  | case3 read half a b c d n next rest hn p grown ih =>
    have hgrown : grown.length ≤ read.length + 1 := length_addEscaped_le read half p
    exact ih (by simp only [List.length_cons] at h ⊢; omega)
  | case6 read half p rest _ _ c hc ih => exact ih (by simp only [List.length_cons] at h ⊢; omega)
  | case10 read half p rest _ _ _ _ _ _ ih => exact ih (by simp only [List.length_cons] at h ⊢; omega)

/-- The strings of a text are shorter than the text, by their quotes. -/
theorem source_short (most : Nat) :
    Source (fun t => t.length ≤ most) fun t => t.length + 1 < most where
  passing := fun h hpasses => hpasses.suffix.length_le.trans h
  string := fun opened t h => by
    have hread := readChars_short opened [] false (t := t) (Nat.le_of_eq (Nat.zero_add _))
    rw [List.length_cons] at h
    cases hresult : readChars opened [] false t with
    | error refusal => trivial
    | ok found =>
      rw [hresult] at hread
      have hstring : found.1.length < t.length := hread.1
      have hrest : found.2.length < t.length := hread.2
      exact ⟨by omega, by omega⟩

/-- A formed text is of its kind. -/
theorem Formed.of_str {N : Text → Prop} {limit : Option Nat} {depth : Nat}
    (h : Formed N limit depth (.str t)) : N t := by
  cases h with
  | str h => exact h

/-- No document spells its own text. -/
theorem ne_str_of_read {limits : Limits} {v : Json} (h : Json.read limits t = .ok v) : v ≠ .str t := by
  rintro rfl
  have hshort := (formed_of_readAlone (source_short t.length) (Nat.le_refl _) (readAlone_of_read h)).of_str
  omega

end Json

end Showrunner

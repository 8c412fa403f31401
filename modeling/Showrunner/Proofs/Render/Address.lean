import Mathlib.Data.List.TakeWhile
import Showrunner.Render.Service

/-!
# Addresses of the web

An address of the web begins with the scheme `http` or `https`, in letters of either case, and the mark `://`.
Nothing is unwrapped from such an address with a path behind it, it names a scheme, and its fragment, if it has
one, is not empty. So the render service with such an address has a request for every plan.
-/

namespace Showrunner

/-- Dropping from the end stops at what does not satisfy the test. -/
theorem Text.dropEndWhile_append_cons {q : CodePoint → Bool} {p : CodePoint} (hp : q p = false)
    (t rest : Text) : (t ++ p :: rest).dropEndWhile q = t ++ p :: rest.dropEndWhile q := by
  have hstop : ∀ before : Text, (before ++ p :: t.reverse).dropWhile q =
      before.dropWhile q ++ p :: t.reverse := by
    intro before
    induction before with
    | nil => exact List.dropWhile_cons_of_neg (Bool.eq_false_iff.mp hp)
    | cons a more ih =>
      by_cases ha : q a = true
      · rw [List.cons_append, List.dropWhile_cons_of_pos ha, List.dropWhile_cons_of_pos ha, ih]
      · rw [List.cons_append, List.dropWhile_cons_of_neg ha, List.dropWhile_cons_of_neg ha,
          List.cons_append]
  have hreverse : (t ++ p :: rest).reverse = rest.reverse ++ p :: t.reverse := by simp
  rw [dropEndWhile, hreverse, hstop]
  simp [dropEndWhile]

namespace Address

/-- An address begins with the scheme `http` or `https`, in letters of either case, and the mark `://`. -/
def IsWeb (t : Text) : Prop :=
  ∃ (scheme : List Char) (rest : Text), t = Text.ofChars scheme ++ (text "://" ++ rest) ∧
    scheme.map Char.toLower ∈ ["http".toList, "https".toList]

/-- A code point may stand in the name of a scheme and begin an address. -/
structure IsLetter (p : CodePoint) : Prop where
  blank : p.isBlank = false
  wrapping : p ≠ .scalar '<' ∧ p ≠ .scalar 'U'
  delimiting : p ≠ .scalar '/' ∧ p ≠ .scalar ':' ∧ p ≠ .scalar '#'

variable {scheme rest t : Text}

/-- The letters of the schemes of the web, in either case, are letters of a scheme. -/
theorem isLetter_of_toLower {c : Char} (h : c.toLower ∈ ['h', 't', 'p', 's']) : IsLetter (.scalar c) := by
  have hascii : c.toNat < 0x80 := by
    have hlower : ['h', 't', 'p', 's'].all (·.toNat < 0x80) = true := by decide
    have hsmall := of_decide_eq_true (List.all_eq_true.mp hlower _ h)
    unfold Char.toLower at hsmall
    split at hsmall
    · next hrange => exact Nat.lt_of_le_of_lt (UInt32.le_iff_toNat_le.mp hrange.2) (by decide)
    · exact hsmall
  have htable : ∀ n < 0x80, (Char.ofNat n).toLower ∈ ['h', 't', 'p', 's'] →
      Blank.isBlank (Char.ofNat n) = false ∧ Char.ofNat n ∉ ['<', 'U', '/', ':', '#'] := by
    decide +kernel
  have hc := htable c.toNat hascii
  rw [Char.ofNat_toNat] at hc
  obtain ⟨hblank, hother⟩ := hc h
  have hne : ∀ d ∈ ['<', 'U', '/', ':', '#'], CodePoint.scalar c ≠ .scalar d := fun d hd heq =>
    hother (CodePoint.scalar.inj heq ▸ hd)
  exact
    { blank := hblank
      wrapping := ⟨hne _ (by decide), hne _ (by decide)⟩
      delimiting := ⟨hne _ (by decide), hne _ (by decide), hne _ (by decide)⟩ }

/-- An address of the web names a scheme in front of its first colon, behind which a slash comes. -/
theorem IsWeb.exists_scheme (h : IsWeb t) : ∃ scheme rest, t = scheme ++ .scalar ':' :: rest ∧
    scheme ≠ [] ∧ ∀ p ∈ scheme, IsLetter p := by
  obtain ⟨scheme, rest, rfl, hscheme⟩ := h
  refine ⟨Text.ofChars scheme, text "//" ++ rest, rfl, ?_, fun p hp => ?_⟩
  · rintro hnil
    obtain rfl := List.map_eq_nil_iff.mp hnil
    exact absurd hscheme (by decide)
  · obtain ⟨c, hc, rfl⟩ := List.mem_map.mp hp
    have hletters : ∀ name ∈ ["http".toList, "https".toList], name ⊆ ['h', 't', 'p', 's'] := by decide
    exact isLetter_of_toLower (hletters _ hscheme (List.mem_map_of_mem hc))

/-- Nothing is unwrapped from an address between a letter and a code point that is not blank. -/
theorem unwrap_eq_self {p : CodePoint} (hp : IsLetter p)
    (hlast : ∀ q ∈ (p :: t).getLast?, q.isBlank = false) : unwrap (p :: t) = p :: t := by
  have htrim : Text.trim (p :: t) = p :: t :=
    Blank.trimBy_eq_self (fun q hq => Option.some.inj hq ▸ hp.blank) hlast
  have hmark : Text.dropOpening? (text "URL:") (p :: t) = none :=
    if_neg fun hsame => hp.wrapping.2 hsame.symm
  have hbracket : ¬((p :: t).head? = some (.scalar '<') ∧ (p :: t).getLast? = some (.scalar '>')) :=
    fun h => hp.wrapping.1 (Option.some.inj h.1)
  unfold unwrap
  rw [htrim]
  dsimp only
  rw [if_neg hbracket, hmark]

/-- An address is split at its last hash, if it has one. -/
theorem splitFragment_cases (t : Text) : splitFragment t = (t, []) ∨
    ∃ path fragment, t = path ++ .scalar '#' :: fragment ∧ splitFragment t = (path, fragment) := by
  unfold splitFragment
  dsimp only
  split
  · next hhash =>
    obtain ⟨p, hmem, hp⟩ := List.any_eq_true.mp hhash
    generalize hlast : t.reverse.takeWhile (fun p => !p == CodePoint.scalar '#') = last
    generalize hbehind : t.reverse.dropWhile (fun p => !p == CodePoint.scalar '#') = behind
    have hsplit : last ++ behind = t.reverse :=
      hlast ▸ hbehind ▸ List.takeWhile_append_dropWhile
    cases behind with
    | nil =>
      have hall := List.dropWhile_eq_nil_iff.mp hbehind p (List.mem_reverse.mpr hmem)
      rw [hp] at hall
      cases hall
    | cons q more =>
      have hq : q = .scalar '#' := by
        have hhead := List.head?_dropWhile_not (fun p => !p == CodePoint.scalar '#') t.reverse
        rw [hbehind] at hhead
        simpa using hhead
      have ht : t = more.reverse ++ .scalar '#' :: last.reverse := by
        rw [← List.reverse_reverse t, ← hsplit, hq]
        simp
      have hlength : t.length - last.reverse.length - 1 = more.reverse.length := by
        rw [ht, List.length_append, List.length_cons]
        omega
      refine .inr ⟨more.reverse, last.reverse, ht, Prod.ext ?_ rfl⟩
      rw [hlength, ht]
      exact List.take_left
  · exact .inl rfl

/-- An address that begins with letters and a colon names a scheme. -/
theorem hasScheme_of_isLetter (hne : scheme ≠ []) (hscheme : ∀ p ∈ scheme, IsLetter p) (rest : Text) :
    hasScheme (scheme ++ .scalar ':' :: rest) = true := by
  have hrun : (scheme ++ .scalar ':' :: rest).takeWhile
      (fun p => p != .scalar '/' && p != .scalar ':') = scheme := by
    rw [List.takeWhile_append_of_pos fun p hp => ?_]
    · rw [List.takeWhile_cons_of_neg (by decide), List.append_nil]
    · obtain ⟨hslash, hcolon, -⟩ := (hscheme p hp).delimiting
      simp [hslash, hcolon]
  rw [hasScheme, hrun, List.drop_left]
  simp [hne]

/-- The address of a request is left as it is if it begins with a scheme and its end is neither blank nor a
hash. -/
theorem read_eq_self (hne : scheme ≠ []) (hscheme : ∀ p ∈ scheme, IsLetter p)
    (hlast : ∀ q ∈ (scheme ++ .scalar ':' :: rest).getLast?, q.isBlank = false ∧ q ≠ .scalar '#') :
    read (scheme ++ .scalar ':' :: rest) = .ok (scheme ++ .scalar ':' :: rest) := by
  have hunwrap : unwrap (scheme ++ .scalar ':' :: rest) = scheme ++ .scalar ':' :: rest := by
    cases scheme with
    | nil => exact absurd rfl hne
    | cons p more => exact unwrap_eq_self (hscheme p List.mem_cons_self) fun q hq => (hlast q hq).1
  unfold read
  rw [hunwrap]
  rcases splitFragment_cases (scheme ++ .scalar ':' :: rest) with hwhole | ⟨path, fragment, ht, hsplit⟩
  · rw [hwhole]
    dsimp only
    rw [if_pos (hasScheme_of_isLetter hne hscheme rest)]
    rfl
  · have hfragment : fragment.isEmpty = false := by
      cases fragment with
      | nil =>
        rw [ht, List.getLast?_concat] at hlast
        exact absurd rfl (hlast _ rfl).2
      | cons p more => rfl
    have hpath : ∃ behind, path = scheme ++ .scalar ':' :: behind := by
      have hboth : (scheme ++ [.scalar ':']) ++ rest = path ++ .scalar '#' :: fragment := by
        rw [← ht, List.append_assoc]
        rfl
      rcases List.append_eq_append_iff.mp hboth with ⟨behind, hpath, -⟩ | ⟨front, hfront, hhash⟩
      · exact ⟨behind, hpath.trans (List.append_assoc _ _ _)⟩
      · -- the hash does not stand in the scheme or at its colon
        cases front with
        | nil => exact ⟨[], by rw [List.append_nil] at hfront; exact hfront.symm⟩
        | cons q more =>
          obtain rfl := (List.cons.inj hhash).1
          have hmem : .scalar '#' ∈ scheme ++ [.scalar ':'] :=
            hfront ▸ List.mem_append_right path List.mem_cons_self
          rcases List.mem_append.mp hmem with hmem | hmem
          · exact absurd rfl (hscheme _ hmem).delimiting.2.2
          · exact absurd (List.mem_singleton.mp hmem) (by decide)
    obtain ⟨behind, rfl⟩ := hpath
    rw [hsplit]
    dsimp only
    rw [hfragment, if_neg Bool.false_ne_true, if_pos (hasScheme_of_isLetter hne hscheme behind), ← ht]

end Address

namespace Render.Service

/-- The render service with an address of the web has a request for every plan, to one path under this
address. -/
theorem exists_request {base : Text} (h : Address.IsWeb base) (key : Text) (patience : Json) (p : Plan) :
    ∃ request, (reachedAt base key patience).request p = .ok request ∧
      request.url = Text.dropEndWhile (· == .scalar '/') base ++ text "/generate-video" := by
  obtain ⟨scheme, rest, rfl, hne, hscheme⟩ := h.exists_scheme
  have hbase : (reachedAt (scheme ++ .scalar ':' :: rest) key patience).baseUrl =
      scheme ++ .scalar ':' :: Text.dropEndWhile (· == .scalar '/') rest :=
    Text.dropEndWhile_append_cons (by decide) scheme rest
  have hread : Address.read (scheme ++ .scalar ':' ::
      (Text.dropEndWhile (· == .scalar '/') rest ++ text "/generate-video")) = .ok _ :=
    Address.read_eq_self hne hscheme fun q hq => by
      have hpath : text "/generate-video" = text "/generate-vide" ++ [.scalar 'o'] := by decide
      rw [hpath, ← List.append_assoc, ← List.cons_append, ← List.append_assoc, List.getLast?_concat] at hq
      obtain rfl := Option.some.inj hq
      decide
  have hurl : Text.dropEndWhile (· == .scalar '/') (scheme ++ .scalar ':' :: rest) = _ := hbase
  rw [request, hbase, hurl]
  have hfilled : (scheme ++ .scalar ':' :: Text.dropEndWhile (· == .scalar '/') rest).isEmpty = false := by
    simp
  rw [hfilled, if_neg Bool.false_ne_true, List.append_assoc, List.cons_append, hread]
  exact ⟨_, rfl, rfl⟩

end Render.Service

end Showrunner

import Showrunner.Proofs.Json.Escapes
import Showrunner.Proofs.Webhook.Capture

/-!
# Bodies that are no text

The octets of a captured body that belong to no character are written as escapes before the body is read.
The format knows no such escape, so a body with octets of this kind spells no value and is kept as the text
with the escapes in it, unless the body is refused for its size. There is one exception: a backslash in a
string that stands right before such an octet escapes the backslash of the octet's escape. Where every such
octet is hidden in this way the text can spell a value, and then the value is kept instead of the text.
-/

namespace Showrunner

namespace Utf8

/-- The text of a piece, with an escape for each octet of a broken run. -/
def Piece.escaping : Piece → Text
  | .char c => [.scalar c]
  | .broken bad _ => bad.flatMap escapeOctet

/-- The text of octets is made of the texts of their pieces. -/
theorem decodeEscaping_eq (octets : List UInt8) :
    decodeEscaping octets = (pieces octets).flatMap Piece.escaping := by
  rw [decodeEscaping]
  congr 1

/-- A broken run at the beginning of octets has the first of them. -/
theorem ne_nil_of_first {b : UInt8} {rest bad : List UInt8} {reason : Reason} {taken : Nat}
    (h : first b rest = (.broken bad reason, taken)) : bad ≠ [] := by
  unfold first at h
  dsimp only at h
  by_cases hnone : announced b = 0
  · rw [if_pos hnone] at h
    cases h
    exact List.cons_ne_nil _ _
  rw [if_neg hnone] at h
  by_cases hone : announced b = 1
  · rw [if_pos hone] at h
    cases h
  rw [if_neg hone] at h
  cases rest with
  | nil =>
    cases h
    exact List.cons_ne_nil _ _
  | cons second rest =>
    dsimp only at h
    split at h
    · cases h
      exact List.cons_ne_nil _ _
    · split at h
      · cases h
      · cases h
        exact List.cons_ne_nil _ _

/-- Broken runs have octets. -/
theorem ne_nil_of_mem_piecesAfter {found : List Piece} {octets bad : List UInt8} {reason : Reason}
    (hfound : ∀ bad reason, .broken bad reason ∈ found → bad ≠ [])
    (h : .broken bad reason ∈ piecesAfter found octets) : bad ≠ [] := by
  fun_induction piecesAfter found octets with
  | case1 found => exact hfound bad reason (List.mem_reverse.mp h)
  | case2 found b rest piece taken hfirst ih =>
    refine ih (fun bad reason hmem => ?_) h
    rcases List.mem_cons.mp hmem with rfl | hmem
    · exact ne_nil_of_first hfirst
    · exact hfound bad reason hmem

/-- Broken runs have octets. -/
theorem ne_nil_of_mem_pieces {octets bad : List UInt8} {reason : Reason}
    (h : .broken bad reason ∈ pieces octets) : bad ≠ [] :=
  ne_nil_of_mem_piecesAfter (fun _ _ hmem => absurd hmem List.not_mem_nil) h

/-- Pieces without a broken run are the characters of a text. -/
theorem exists_broken_of_brokenAfter {found : List Piece} {passed : Nat} {broken : Broken}
    (h : brokenAfter passed found = some broken) : ∃ bad reason, .broken bad reason ∈ found := by
  induction found generalizing passed with
  | nil => cases h
  | cons piece rest ih =>
    cases piece with
    | char c =>
      obtain ⟨bad, reason, hmem⟩ := ih h
      exact ⟨bad, reason, List.mem_cons_of_mem _ hmem⟩
    | broken bad reason => exact ⟨bad, reason, List.mem_cons_self⟩

/-- Octets that are no text have a broken run. -/
theorem exists_broken_of_decode {octets : List UInt8} (h : ∀ t, decode octets ≠ .ok t) :
    ∃ bad reason, .broken bad reason ∈ pieces octets := by
  unfold decode at h
  dsimp only at h
  split at h
  · next broken hbroken => exact exists_broken_of_brokenAfter hbroken
  · exact absurd rfl (h _)

end Utf8

namespace Payload

open Json (Place)

variable {body bad : List UInt8} {before : List Utf8.Piece}

/-- A run of octets of a body, behind some pieces, belongs to no character. -/
def Breaks (body : List UInt8) (before : List Utf8.Piece) (bad : List UInt8) : Prop :=
  ∃ reason after, Utf8.pieces body = before ++ .broken bad reason :: after

/-- A run is a single octet behind a backslash that escapes, in a string of the text. -/
def Hidden (before : List Utf8.Piece) (bad : List UInt8) : Prop :=
  (∃ octet, bad = [octet]) ∧
    Place.outside.behind (before.flatMap Utf8.Piece.escaping) = .escaped

/-- The text of a body with a run of octets that belongs to no character. -/
theorem Breaks.bodyText_eq (h : Breaks body before bad) : ∃ after,
    bodyText body = before.flatMap Utf8.Piece.escaping ++ (bad.flatMap Utf8.escapeOctet ++ after) := by
  obtain ⟨reason, after, hpieces⟩ := h
  refine ⟨after.flatMap Utf8.Piece.escaping, ?_⟩
  rw [bodyText, Utf8.decodeEscaping_eq, hpieces, List.flatMap_append, List.flatMap_cons]
  rfl

/-- A run that belongs to no character has a first octet. -/
theorem Breaks.exists_cons (h : Breaks body before bad) : ∃ octet more, bad = octet :: more := by
  obtain ⟨reason, after, hpieces⟩ := h
  have hmem : .broken bad reason ∈ Utf8.pieces body :=
    hpieces ▸ List.mem_append_right before List.mem_cons_self
  exact List.exists_cons_of_ne_nil (Utf8.ne_nil_of_mem_pieces hmem)

/-- A body that is no text has such a run. -/
theorem exists_breaks (h : ∀ t, Utf8.decode body ≠ .ok t) : ∃ before bad, Breaks body before bad := by
  obtain ⟨bad, reason, hmem⟩ := Utf8.exists_broken_of_decode h
  obtain ⟨before, after, hpieces⟩ := List.append_of_mem hmem
  exact ⟨before, bad, reason, after, hpieces⟩

/-- The digits of an escape are plain. -/
theorem isPlain_hex (width n : Nat) : ∀ p ∈ Text.ofChars (Quoted.hex width n), Json.isPlain p = true := by
  have hdigit : ∀ d < 16, Json.isPlain (.scalar (Quoted.hexDigit d)) = true := by decide
  induction width generalizing n with
  | zero => exact fun p hp => absurd hp List.not_mem_nil
  | succ width ih =>
    intro p hp
    rw [Quoted.hex, Text.ofChars, List.map_append] at hp
    rcases List.mem_append.mp hp with hmem | hmem
    · exact ih (n / 16) p hmem
    · obtain rfl := List.mem_singleton.mp hmem
      exact hdigit (n % 16) (Nat.mod_lt n (by decide))

/-- What comes behind the escape of an octet is not escaped, if the backslash of the escape is. -/
theorem behind_escapeOctet (octet : UInt8) : Place.escaped.behind (Utf8.escapeOctet octet) = .quoted := by
  have hescape : Utf8.escapeOctet octet =
      [.scalar '\\', .scalar 'x'] ++ Text.ofChars (Quoted.hex 2 octet.toNat) := rfl
  rw [hescape, Place.behind_append]
  exact Place.behind_of_isPlain (isPlain_hex 2 octet.toNat) (by decide)

/-- Runs that belong to no character are hidden in a body whose text spells a value. -/
theorem hidden_of_read {limits : Json.Limits} {v : Json} (hread : Json.read limits (bodyText body) = .ok v)
    (h : Breaks body before bad) : Hidden before bad := by
  obtain ⟨after, htext⟩ := h.bodyText_eq
  obtain ⟨octet, more, rfl⟩ := h.exists_cons
  rw [htext] at hread
  have hplace : Place.outside.behind (before.flatMap Utf8.Piece.escaping) = .escaped :=
    Json.escaped_of_read hread rfl
  cases more with
  | nil => exact ⟨⟨octet, rfl⟩, hplace⟩
  | cons second rest =>
    -- the backslash of the second escape is not escaped, since digits stand before it
    have hsplit : before.flatMap Utf8.Piece.escaping ++
        ((octet :: second :: rest).flatMap Utf8.escapeOctet ++ after) =
        (before.flatMap Utf8.Piece.escaping ++ Utf8.escapeOctet octet) ++
          (Utf8.escapeOctet second ++ (rest.flatMap Utf8.escapeOctet ++ after)) := by
      simp [List.append_assoc]
    rw [hsplit] at hread
    have hagain := Json.escaped_of_read (p := .scalar 'x') hread rfl
    rw [Place.behind_append, hplace, behind_escapeOctet] at hagain
    cases hagain

/-- A body is read as what it is kept as, and as nothing else. -/
theorem read_eq_ok_iff {payload : Json} : read body = .ok payload ↔ Keeps body payload := by
  refine ⟨fun h => ?_, read_of_keeps⟩
  rcases keeps_or_oversized body with ⟨kept, hkeeps⟩ | ⟨fault, hoversized⟩
  · obtain rfl := Except.ok.inj ((read_of_keeps hkeeps).symm.trans h)
    exact hkeeps
  · cases (read_of_oversized hoversized).symm.trans h

/-- A body is refused for its size and for nothing else. -/
theorem read_eq_error_iff {fault : Fault} : read body = .error fault ↔ Oversized body fault := by
  refine ⟨fun h => ?_, read_of_oversized⟩
  rcases keeps_or_oversized body with ⟨kept, hkeeps⟩ | ⟨fault', hoversized⟩
  · cases (read_of_keeps hkeeps).symm.trans h
  · obtain rfl := Except.error.inj ((read_of_oversized hoversized).symm.trans h)
    exact hoversized

/-- A body with a short text is not large. -/
theorem not_isLarge_of_short (h : (bodyText body).length ≤ Json.Limits.outside.depth) : ¬IsLarge body := by
  rintro (⟨n, hlong, run, hrun, rfl, -⟩ | hdeep)
  · have hdigits : Json.Limits.outside.depth ≤ Integer.digitLimit := by decide
    have hlength := hrun.length_le
    omega
  · have hcount := List.countP_le_length (p := Json.isOpening) (l := bodyText body)
    omega

/-- A body that is no text has runs of octets that belong to no character. It is read as what it is kept as,
the value that its text with the escapes spells or this text, and only a body that is refused for its size is
not read. No such body spells its own text, and where it spells a value each of these runs is hidden. So a
body in which one of them is not hidden is read as its text, unless it is large. -/
theorem read_of_undecodable (h : ∀ t, Utf8.decode body ≠ .ok t) :
    (∃ before bad, Breaks body before bad) ∧
    (∀ payload, read body = .ok payload ↔ Keeps body payload) ∧
    (∀ fault, read body = .error fault ↔ Oversized body fault) ∧
    (∀ v, Json.read .outside (bodyText body) = .ok v →
      v ≠ .str (bodyText body) ∧ ∀ before bad, Breaks body before bad → Hidden before bad) ∧
    ((∃ before bad, Breaks body before bad ∧ ¬Hidden before bad) → ¬IsLarge body →
      read body = .ok (.str (bodyText body))) := by
  refine ⟨exists_breaks h, fun _ => read_eq_ok_iff, fun _ => read_eq_error_iff,
    fun v hread => ⟨Json.ne_str_of_read hread, fun _ _ => hidden_of_read hread⟩,
    fun ⟨before, bad, hbreaks, hbare⟩ hsmall => ?_⟩
  rcases keeps_or_oversized body with ⟨kept, hkeeps⟩ | ⟨fault, hoversized⟩
  · cases hkeeps with
    | value hread => exact absurd (hidden_of_read hread hbreaks) hbare
    | text hread => exact read_of_keeps (.text hread)
  · exact absurd (isLarge_of_oversized hoversized) hsmall

/-- Two octets that begin no character, and a word in ASCII behind them. -/
def marked : List UInt8 := [0xFF, 0xFE, 0x20, 0x72, 0x61, 0x77]

/-- Such a body is kept as its text. -/
theorem marked_kept : read marked = .ok (.str (text "\\xff\\xfe raw")) := by
  have htext : bodyText marked = text "\\xff\\xfe raw" := by decide +kernel
  have hpieces : Utf8.pieces marked = .broken [0xFF] .start :: Utf8.pieces (marked.drop 1) := by decide +kernel
  have hundecodable : ∀ t, Utf8.decode marked ≠ .ok t := fun t h => by
    have hnone : (Utf8.decode marked).toOption = none := by decide +kernel
    rw [h] at hnone
    cases hnone
  obtain ⟨-, -, -, -, hkept⟩ := read_of_undecodable hundecodable
  rw [← htext]
  refine hkept ⟨[], [0xFF], ⟨_, _, hpieces⟩, fun hhidden => ?_⟩ ?_
  · cases hhidden.2
  · exact not_isLarge_of_short (by rw [htext]; decide)

/-- A string with a backslash before an octet that begins no character. -/
def disguised : List UInt8 := [0x22, 0x5C, 0xFF, 0x22]

/-- Such a body is no text, but it is not kept as the text with the escape in it: this text spells a string,
with the escape between the quotes, and the string is kept. -/
theorem disguised_parsed :
    (∀ t, Utf8.decode disguised ≠ .ok t) ∧ bodyText disguised = text "\"\\\\xff\"" ∧
      read disguised = .ok (.str (text "\\xff")) ∧ read disguised ≠ .ok (.str (bodyText disguised)) := by
  have htext : bodyText disguised = text "\"\\\\xff\"" := by decide +kernel
  have hvalue : Json.read .outside (text "\"\\\\xff\"") = .ok (.str (text "\\xff")) := rfl
  have hread : read disguised = .ok (.str (text "\\xff")) := read_of_keeps (.value (htext ▸ hvalue))
  refine ⟨fun t h => ?_, htext, hread, fun h => ?_⟩
  · have hnone : (Utf8.decode disguised).toOption = none := by decide +kernel
    rw [h] at hnone
    cases hnone
  · rw [hread, htext] at h
    exact absurd (Json.str.inj (Except.ok.inj h)) (by decide)

end Payload

end Showrunner

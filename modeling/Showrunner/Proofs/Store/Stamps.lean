import Showrunner.Proofs.Store.Claiming
import Showrunner.Proofs.Time.Columns

/-!
# Stamps in the plan table

The plan table keeps stamps in their column spelling, and a claim compares them there as texts, octet by octet.
Since spellings are in the order of the stamps, it makes no difference whether a claim goes by the texts or by
the times that they spell: the same plans are due, and they are taken in the same order.
-/

namespace Showrunner

namespace Store

namespace PlanRow

open Stamp

variable {a b r : PlanRow} {now : Wall} {before : Option Wall}

/-- A plan is due if, as texts, its start is at most the time of the claim, or the time since which it has been
processing is at most the staleness limit. -/
theorem isDue_iff_texts : r.isDue now before = true ↔
    r.status = .scheduled ∧ Utf8.encode (columnText r.startsAt) ≤ Utf8.encode (columnText now) ∨
      r.status = .processing ∧ ∃ limit ∈ before.map columnText, ∃ claimedAt ∈ r.claimedAt.map columnText,
        Utf8.encode claimedAt ≤ Utf8.encode limit := by
  cases before <;> cases hclaimed : r.claimedAt <;> simp [isDue, hclaimed, encode_columnText_le]

/-- A plan comes first of two if its start is the smaller text, or the same text and its id is not the larger
one. -/
theorem comesFirst_iff_texts : a.comesFirst b = true ↔
    Utf8.encode (columnText a.startsAt) < Utf8.encode (columnText b.startsAt) ∨
      columnText a.startsAt = columnText b.startsAt ∧ Utf8.encode a.id ≤ Utf8.encode b.id := by
  rw [← List.not_lt, ← Text.before_iff_encode_lt, ← Text.before_iff_encode_lt, before_columnText,
    columnText_injective.eq_iff]
  simp [comesFirst, Text.atMost]

end PlanRow

end Store

end Showrunner

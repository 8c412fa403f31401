import Mathlib.Data.List.Nodup
import Showrunner.Proofs.Text.Order
import Showrunner.Store.Plans

/-!
# The steps of a claim

A claim ranks the due plans by their start, and by the octets of their ids where starts are the same. It
updates the first of this ranking one after the other, each only if it has not changed since it was
selected, and selects the updated rows once more. In one transaction nothing comes between these steps, and
ids are distinct, so every update meets the row it is meant for, and the second selection finds the rows of
the first, as updated and in the same order.
-/

namespace Showrunner

namespace Store

/-- A plan precedes another in the ranking: it starts earlier, or at the same time with an id of smaller
octets. -/
def PlanRow.Precedes (a b : PlanRow) : Prop :=
  a.startsAt < b.startsAt ∨ a.startsAt = b.startsAt ∧ Utf8.encode a.id < Utf8.encode b.id

/-! ## The ranking -/

namespace PlanRow

variable {a b c : PlanRow}

/-- No plan precedes one that precedes it. -/
theorem Precedes.asymm (h : a.Precedes b) : ¬b.Precedes a := by
  rintro (hlt' | ⟨heq', hid'⟩)
  · rcases h with hlt | ⟨heq, -⟩
    · exact absurd hlt (Fin.lt_asymm hlt')
    · exact absurd hlt' (heq ▸ Nat.lt_irrefl _)
  · rcases h with hlt | ⟨-, hid⟩
    · exact absurd hlt (heq' ▸ Nat.lt_irrefl _)
    · exact List.lt_asymm hid hid'

/-- What precedes a plan precedes what the plan precedes. -/
theorem Precedes.trans (h : a.Precedes b) (h' : b.Precedes c) : a.Precedes c := by
  rcases h with hlt | ⟨heq, hid⟩
  · rcases h' with hlt' | ⟨heq', -⟩
    · exact .inl (Fin.lt_trans hlt hlt')
    · exact .inl (heq' ▸ hlt)
  · rcases h' with hlt' | ⟨heq', hid'⟩
    · exact .inl (heq ▸ hlt')
    · exact .inr ⟨heq.trans heq', List.lt_trans hid hid'⟩

/-- Of two plans with different ids one precedes the other. -/
theorem precedes_or_precedes (hne : a.id ≠ b.id) : a.Precedes b ∨ b.Precedes a := by
  rcases Nat.lt_trichotomy a.startsAt.val b.startsAt.val with hlt | heq | hgt
  · exact .inl (.inl hlt)
  · have hstart : a.startsAt = b.startsAt := Fin.eq_of_val_eq heq
    rcases Text.before_trichotomy a.id b.id with hbefore | hsame | hbehind
    · exact .inl (.inr ⟨hstart, Text.before_iff_encode_lt.mp hbefore⟩)
    · exact absurd hsame hne
    · exact .inr (.inr ⟨hstart.symm, Text.before_iff_encode_lt.mp hbehind⟩)
  · exact .inr (.inl hgt)

/-- A plan comes first of two unless the other precedes it. -/
theorem comesFirst_iff : a.comesFirst b = true ↔ ¬b.Precedes a := by
  rw [comesFirst, Precedes, ← Text.before_iff_encode_lt]
  simp only [Text.atMost, Bool.or_eq_true, Bool.and_eq_true, decide_eq_true_eq, Bool.not_eq_true',
    Fin.lt_def, Fin.ext_iff]
  cases Text.before b.id a.id <;> simp only [reduceCtorEq, and_true, and_false, or_false] <;> omega

/-- The order of a claim is transitive. -/
theorem comesFirst_trans (a b c : PlanRow) (hab : a.comesFirst b = true) (hbc : b.comesFirst c = true) :
    a.comesFirst c = true := by
  rw [comesFirst_iff] at hab hbc ⊢
  intro hca
  by_cases hid : a.id = b.id
  · -- of two plans with one id the starts decide
    have hstart : a.startsAt ≤ b.startsAt := by
      by_contra hlt
      exact hab (.inl (Fin.not_le.mp hlt))
    rcases hca with hlt | ⟨heq, hsmaller⟩
    · exact hbc (.inl (Fin.lt_of_lt_of_le hlt hstart))
    · rcases Fin.lt_or_eq_of_le hstart with hlt | heq'
      · exact hbc (.inl (heq ▸ hlt))
      · exact hbc (.inr ⟨heq.trans heq', hid ▸ hsmaller⟩)
  · rcases precedes_or_precedes hid with hprecedes | hprecedes
    · exact hbc (hca.trans hprecedes)
    · exact hab hprecedes

/-- Of two plans one comes first. -/
theorem comesFirst_total (a b : PlanRow) : (a.comesFirst b || b.comesFirst a) = true := by
  rw [Bool.or_eq_true, comesFirst_iff, comesFirst_iff, ← not_and_or]
  exact fun h => h.1.asymm h.2

/-- Of two plans of one id that come first of each other neither comes before the other. -/
theorem eq_of_comesFirst {rows : List PlanRow} (hids : (rows.map PlanRow.id).Nodup) (ha : a ∈ rows)
    (hb : b ∈ rows) (hab : a.comesFirst b = true) (hba : b.comesFirst a = true) : a = b := by
  rw [comesFirst_iff] at hab hba
  refine List.inj_on_of_nodup_map hids ha hb ?_
  by_contra hne
  exact (precedes_or_precedes hne).elim hba hab

/-- A plan that is claimed twice is left as by the second claim. -/
@[simp] theorem claim_claim (r : PlanRow) (earlier now : Wall) : (r.claim earlier).claim now = r.claim now := rfl

end PlanRow

/-! ## The updates -/

/-- Every update rewrites rows, and claims those that it changes. -/
theorem swapAll_rewrites (now : Wall) (cs : List Candidate) (rows : List PlanRow) :
    ∃ g : PlanRow → PlanRow, (∀ r, g r = r ∨ g r = r.claim now) ∧ (swapAll now cs rows).1 = rows.map g := by
  induction cs generalizing rows with
  | nil => exact ⟨id, fun r => .inl rfl, (List.map_id rows).symm⟩
  | cons c rest ih =>
    obtain ⟨g, hg, hrows⟩ := ih (swap now c rows).1
    refine ⟨fun r => g (if r.id = c.id && r.status = c.status then r.claim now else r), fun r => ?_, ?_⟩
    · dsimp only
      split
      · rcases hg (r.claim now) with h | h <;> exact .inr h
      · exact hg r
    · rw [swapAll, hrows, swap, List.map_map]
      rfl

/-- Among rows with distinct ids the update of a candidate claims the row of its id. -/
theorem swap_candidate (now : Wall) {rows : List PlanRow} (hids : (rows.map PlanRow.id).Nodup) {r : PlanRow}
    (hr : r ∈ rows) :
    (swap now r.candidate rows).1 = rows.map (fun q => if q.id = r.id then q.claim now else q) ∧
      0 < (swap now r.candidate rows).2 := by
  constructor
  · refine List.map_congr_left fun q hq => ?_
    by_cases hid : q.id = r.id
    · obtain rfl := List.inj_on_of_nodup_map hids hq hr hid
      simp [PlanRow.candidate]
    · simp [PlanRow.candidate, hid]
  · exact List.countP_pos_iff.mpr ⟨r, hr, by simp [PlanRow.candidate]⟩

/-- Among rows with distinct ids the updates claim the row of each candidate, and no other. -/
theorem swapAll_candidates {now : Wall} {rows due : List PlanRow} (hids : (rows.map PlanRow.id).Nodup)
    (hdue : (due.map PlanRow.id).Nodup) (hmem : ∀ r ∈ due, r ∈ rows) :
    swapAll now (due.map PlanRow.candidate) rows =
      (rows.map fun r => if r.id ∈ due.map PlanRow.id then r.claim now else r, due.map PlanRow.candidate) := by
  induction due generalizing rows with
  | nil => simp [swapAll]
  | cons d due ih =>
    obtain ⟨hnew, hdue⟩ := List.nodup_cons.mp hdue
    obtain ⟨hrows, hchanged⟩ := swap_candidate now hids (hmem d List.mem_cons_self)
    -- the rows of the other candidates are as they were
    have hids' : ((rows.map fun q => if q.id = d.id then q.claim now else q).map PlanRow.id).Nodup := by
      rw [List.map_map, show PlanRow.id ∘ _ = PlanRow.id from funext fun q => by
        rw [Function.comp_apply]; split <;> rfl]
      exact hids
    have hmem' : ∀ r ∈ due, r ∈ rows.map fun q => if q.id = d.id then q.claim now else q := fun r hr =>
      List.mem_map.mpr ⟨r, hmem r (List.mem_cons_of_mem d hr), if_neg fun hid : r.id = d.id =>
        hnew (hid ▸ List.mem_map_of_mem hr)⟩
    simp only [List.map_cons, swapAll, hrows, ih hids' hdue hmem', if_pos hchanged, List.map_map]
    refine congrArg (·, _) (List.map_congr_left fun q _ => ?_)
    by_cases hid : q.id = d.id
    · simp [hid, PlanRow.claim]
    · simp [hid]

/-! ## The second selection -/

/-- The rows that are due are rows of the table, and each is due. -/
theorem mem_dueRows {rows : List PlanRow} {limit : Nat} {now : Wall} {before : Option Wall}
    {r : PlanRow} (h : r ∈ dueRows rows limit now before) :
    r ∈ rows ∧ r.isDue now before = true := by
  unfold dueRows at h
  have hsorted := List.mem_mergeSort.mp (List.mem_of_mem_take h)
  exact List.mem_filter.mp hsorted

/-- Distinct ids of the table stay distinct among the rows that are due. -/
theorem nodup_dueRows {rows : List PlanRow} (hrows : (rows.map PlanRow.id).Nodup) (limit : Nat)
    (now : Wall) (before : Option Wall) :
    ((dueRows rows limit now before).map PlanRow.id).Nodup := by
  unfold dueRows
  have hfilter : ((rows.filter (PlanRow.isDue now before)).map PlanRow.id).Nodup :=
    hrows.sublist (List.filter_sublist.map _)
  have hsorted := ((List.mergeSort_perm (rows.filter (PlanRow.isDue now before))
    PlanRow.comesFirst).map PlanRow.id).nodup_iff.mpr hfilter
  exact hsorted.sublist ((List.take_sublist _ _).map _)

/-- The rows that are due are sorted. -/
theorem pairwise_dueRows (rows : List PlanRow) (limit : Nat) (now : Wall) (before : Option Wall) :
    (dueRows rows limit now before).Pairwise fun a b => a.comesFirst b = true :=
  (List.pairwise_mergeSort PlanRow.comesFirst_trans PlanRow.comesFirst_total _).sublist
    (List.take_sublist _ _)

/-- Rows that are sorted already are claimed as they stand. -/
theorem dueRows_of_pairwise {rows : List PlanRow} {now : Wall} {before : Option Wall}
    (h : (rows.filter (PlanRow.isDue now before)).Pairwise fun a b => a.comesFirst b = true) (limit : Nat) :
    dueRows rows limit now before = (rows.filter (PlanRow.isDue now before)).take limit := by
  rw [dueRows, List.mergeSort_of_pairwise h]

/-- Among claimed rows with distinct ids the second selection finds sorted rows of the table as they have
become, in their order. -/
theorem rowsWithin_claimed {now : Wall} {rows due : List PlanRow} (hids : (rows.map PlanRow.id).Nodup)
    (hdue : (due.map PlanRow.id).Nodup) (hmem : ∀ r ∈ due, r ∈ rows)
    (hsorted : due.Pairwise fun a b => a.comesFirst b = true) (hfew : due.length ≤ variableLimit) :
    rowsWithin (due.map PlanRow.id) (rows.map fun r => if r.id ∈ due.map PlanRow.id then r.claim now else r) =
      .ok (due.map (PlanRow.claim now)) := by
  have hperm : (rows.filter fun r => (due.map PlanRow.id).contains r.id).Perm due := by
    refine (List.perm_ext_iff_of_nodup (hids.of_map.filter _) hdue.of_map).mpr fun r => ?_
    rw [List.mem_filter, List.contains_iff_mem]
    refine ⟨fun ⟨hr, hid⟩ => ?_, fun hr => ⟨hmem r hr, List.mem_map_of_mem hr⟩⟩
    obtain ⟨d, hd, hsame⟩ := List.mem_map.mp hid
    exact List.inj_on_of_nodup_map hids (hmem d hd) hr hsame ▸ hd
  have hselected : (rows.map fun r => if r.id ∈ due.map PlanRow.id then r.claim now else r).filter
      (fun r => (due.map PlanRow.id).contains r.id) =
        (rows.filter fun r => (due.map PlanRow.id).contains r.id).map (PlanRow.claim now) := by
    have hkept : (fun r : PlanRow => (due.map PlanRow.id).contains r.id) ∘
        (fun r => if r.id ∈ due.map PlanRow.id then r.claim now else r) =
          fun r => (due.map PlanRow.id).contains r.id := by
      funext r
      rw [Function.comp_apply]
      split <;> rfl
    rw [List.filter_map, hkept]
    refine List.map_congr_left fun r hr => if_pos ?_
    exact List.contains_iff_mem.mp (List.mem_filter.mp hr).2
  rw [rowsWithin, if_neg (by rw [List.length_map]; omega), hselected]
  refine congrArg Except.ok (List.Perm.eq_of_pairwise ?_
    (List.pairwise_mergeSort PlanRow.comesFirst_trans PlanRow.comesFirst_total _)
    (List.pairwise_map.mpr hsorted) ((List.mergeSort_perm _ _).trans (hperm.map _)))
  intro a b ha hb hab hba
  obtain ⟨r, hr, rfl⟩ := List.mem_map.mp (List.mem_mergeSort.mp ha)
  obtain ⟨d, hd, rfl⟩ := List.mem_map.mp hb
  rw [PlanRow.eq_of_comesFirst hids (List.mem_filter.mp hr).1 (hmem d hd) hab hba]

end Store

end Showrunner

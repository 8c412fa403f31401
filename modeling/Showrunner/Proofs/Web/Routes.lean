import Showrunner.Proofs.Text.Characters
import Showrunner.Web.Route
import Showrunner.Web.Target

/-!
# Routes and what they find

An endpoint is reached by one of the routes, and the text that it takes is a segment of the path. What a
target spells is a text of characters if the target is one, whatever octets its escapes stand for, and so is
each segment of its path.
-/

namespace Showrunner

/-- What octets are decoded to is a text of characters. -/
theorem Utf8.isScalar_decodeReplacing (octets : List UInt8) :
    (decodeReplacing octets).isScalar = true := by
  rw [decodeReplacing, Text.isScalar, List.all_map, List.all_eq_true]
  intro piece _
  cases piece <;> rfl

namespace Percent

/-- A code point that stands for itself is decoded behind the octets that wait. -/
theorem isScalar_plain {p : CodePoint} {rest : Text} (h : Text.isScalar (p :: rest) = true)
    (hrest : (decodeAfter [] rest).isScalar = true) (waiting : List UInt8) :
    Text.isScalar (Utf8.decodeReplacing waiting.reverse ++ p :: decodeAfter [] rest) = true := by
  obtain ⟨c, rfl⟩ := Text.exists_char_of_mem h List.mem_cons_self
  simp [Utf8.isScalar_decodeReplacing, hrest]

/-- A text of characters is decoded to one. -/
theorem isScalar_decodeAfter {t : Text} (waiting : List UInt8) (h : t.isScalar = true) :
    (decodeAfter waiting t).isScalar = true := by
  have htail : ∀ {p : CodePoint} {rest : Text}, Text.isScalar (p :: rest) = true → rest.isScalar = true :=
    fun h => Text.isScalar_of_suffix h (List.suffix_cons _ _)
  fun_induction decodeAfter waiting t with
  | case1 waiting => exact Utf8.isScalar_decodeReplacing _
  | case2 waiting high low more octet hoctet _ ih =>
    dsimp only
    rw [if_pos rfl, hoctet]
    exact ih (htail (htail (htail h)))
  | case3 waiting high low more hoctet ih =>
    dsimp only
    rw [if_pos rfl, hoctet]
    exact isScalar_plain h (ih (htail h)) waiting
  | case4 waiting rest hshort ih =>
    dsimp only
    rw [if_pos rfl]
    split
    · next high low more => exact absurd rfl (hshort high low more)
    · exact isScalar_plain h (ih (htail h)) waiting
  | case5 waiting p rest hp ih =>
    dsimp only
    rw [if_neg hp]
    exact isScalar_plain h (ih (htail h)) waiting

end Percent

namespace Web

/-- What stands before a separator is part of the text. -/
theorem splitOnce_fst_subset (separator : CodePoint) (t : Text) : (splitOnce separator t).1 ⊆ t := by
  have hbefore : (splitOnce separator t).1 = t.takeWhile (· != separator) := by
    unfold splitOnce
    dsimp only
    split <;> rfl
  exact hbefore ▸ List.takeWhile_subset _

/-- The parts between separators are parts of the text. -/
theorem subset_of_mem_splitAll {separator : CodePoint} {t part : Text}
    (h : part ∈ splitAll separator t) : part ⊆ t := by
  fun_induction splitAll separator t generalizing part with
  | case1 =>
    obtain rfl := List.mem_singleton.mp h
    exact List.Subset.refl _
  | case2 rest ih =>
    rcases List.mem_cons.mp h with rfl | h
    · exact List.nil_subset _
    · exact List.Subset.trans (ih h) (List.subset_cons_self _ _)
  | case3 p rest =>
    obtain rfl := List.mem_singleton.mp h
    exact List.cons_subset_cons p (List.nil_subset _)
  | case4 p rest hp first parts hparts ih =>
    rw [hparts] at ih
    rcases List.mem_cons.mp h with rfl | h
    · exact List.cons_subset_cons p (ih List.mem_cons_self)
    · exact List.Subset.trans (ih (List.mem_cons_of_mem _ h)) (List.subset_cons_self _ _)

/-- The text that a route finds in a path of characters is a text of characters. -/
theorem Route.isScalar_parameter? {pattern : List Segment} {segments : List Text} {found : Text}
    (h : parameter? pattern segments = some found) (hsegments : ∀ t ∈ segments, t.isScalar = true) :
    found.isScalar = true := by
  fun_induction parameter? pattern segments generalizing found with
  | case1 =>
    cases h
    rfl
  | case2 name pattern segment rest _ ih =>
    exact ih h fun t ht => hsegments t (List.mem_cons_of_mem _ ht)
  | case3 | case4 | case6 => cases h
  | case5 pattern segment rest _ ih =>
    obtain ⟨_, -, rfl⟩ := Option.map_eq_some_iff.mp h
    exact hsegments _ List.mem_cons_self

/-- An endpoint is reached by a route. -/
theorem exists_route {method path : Text} {e : Endpoint} (h : destination method path = .endpoint e) :
    ∃ route ∈ Route.all, text route.method = method ∧ route.endpoint? path = some e := by
  unfold destination at h
  dsimp only at h
  split at h
  · next allowed target hfind =>
    obtain ⟨route, hroute, hfound⟩ := List.mem_filterMap.mp (List.mem_of_find?_eq_some hfind)
    obtain ⟨endpoint, hendpoint, hsame⟩ := Option.map_eq_some_iff.mp hfound
    have hmethod := List.find?_some hfind
    dsimp only at hmethod
    cases hsame
    cases h
    exact ⟨route, hroute, of_decide_eq_true hmethod, hendpoint⟩
  · split at h
    · cases h
    · split at h <;> cases h

/-- The path that a target of characters spells is a text of characters. -/
theorem isScalar_path {t : Text} (h : t.isScalar = true) : (Target.read t).path.isScalar = true := by
  have hpath : (splitOnce (.scalar '?') (splitOnce (.scalar '#') t).1).1 ⊆ t :=
    List.Subset.trans (splitOnce_fst_subset _ _) (splitOnce_fst_subset _ _)
  exact Percent.isScalar_decodeAfter [] (Text.isScalar_of_subset h hpath)

/-- A target of characters leads to an endpoint by a text of characters. -/
theorem exists_isScalar_of_endpoint {method t : Text} {e : Endpoint} (ht : t.isScalar = true)
    (h : destination method (Target.read t).path = .endpoint e) :
    ∃ route ∈ Route.all, ∃ found, route.endpoint found = e ∧ found.isScalar = true := by
  obtain ⟨route, hroute, -, hendpoint⟩ := exists_route h
  obtain ⟨segments, hsegments, hfound⟩ := Option.bind_eq_some_iff.mp hendpoint
  obtain ⟨found, hparameter, hsame⟩ := Option.bind_eq_some_iff.mp hfound
  refine ⟨route, hroute, found, Option.some.inj hsame,
    Route.isScalar_parameter? hparameter fun part hpart => ?_⟩
  unfold Route.segments? at hsegments
  split at hsegments
  · next rest hpath =>
    cases hsegments
    have hrest : rest ⊆ (Target.read t).path := hpath ▸ List.subset_cons_self _ _
    exact Text.isScalar_of_subset (isScalar_path ht)
      (List.Subset.trans (subset_of_mem_splitAll hpart) hrest)
  · cases hsegments

/-- The id of a workflow that a target of characters asks to update is a text of characters. -/
theorem isScalar_of_updateWorkflow {method t id : Text} (ht : t.isScalar = true)
    (h : destination method (Target.read t).path = .endpoint (.updateWorkflow id)) :
    id.isScalar = true := by
  obtain ⟨route, hroute, found, hendpoint, hscalar⟩ := exists_isScalar_of_endpoint ht h
  have htakes : ∀ route ∈ Route.all, ∀ found, route.endpoint found = .updateWorkflow id → found = id := by
    simp [Route.all]
  exact htakes route hroute found hendpoint ▸ hscalar

/-- The id of a workflow whose events a target of characters asks for is a text of characters. -/
theorem isScalar_of_listEvents {method t id : Text} (ht : t.isScalar = true)
    (h : destination method (Target.read t).path = .endpoint (.listEvents id)) : id.isScalar = true := by
  obtain ⟨route, hroute, found, hendpoint, hscalar⟩ := exists_isScalar_of_endpoint ht h
  have htakes : ∀ route ∈ Route.all, ∀ found, route.endpoint found = .listEvents id → found = id := by
    simp [Route.all]
  exact htakes route hroute found hendpoint ▸ hscalar

/-! ## Queries -/

/-- What stands behind a separator is part of the text. -/
theorem splitOnce_snd_subset (separator : CodePoint) (t : Text) :
    (splitOnce separator t).2.getD [] ⊆ t := by
  unfold splitOnce
  dsimp only
  split
  · exact List.nil_subset _
  · next behind hdrop =>
    exact List.Subset.trans (hdrop ▸ List.subset_cons_self _ _) (List.drop_subset _ _)

/-- A name or a value of a query of characters is a text of characters. -/
theorem isScalar_queryText {t : Text} (h : t.isScalar = true) : (Target.queryText t).isScalar = true := by
  refine Percent.isScalar_decodeAfter [] ?_
  rw [Text.isScalar, List.all_map]
  refine List.all_eq_true.mpr fun p hp => ?_
  obtain ⟨c, rfl⟩ := Text.exists_char_of_mem h hp
  dsimp only [Function.comp_apply]
  by_cases hplus : CodePoint.scalar c = .scalar '+'
  · rw [if_pos hplus]
  · rw [if_neg hplus]

/-- A value that a target of characters gives is a text of characters. -/
theorem isScalar_parameter? {t : Text} (ht : t.isScalar = true) {name : String} {found : Text}
    (h : (Target.read t).parameter? name = some found) : found.isScalar = true := by
  have hquery : (Target.read t).query ⊆ t :=
    List.Subset.trans (splitOnce_snd_subset _ _) (splitOnce_fst_subset _ _)
  obtain ⟨before, after, hparameters, -⟩ := List.lookup_eq_some_iff.mp h
  have hmem : (text name, found) ∈ (Target.read t).parameters :=
    List.mem_reverse.mp (hparameters ▸ List.mem_append_right _ List.mem_cons_self)
  obtain ⟨part, hpart, hsame⟩ := List.mem_map.mp hmem
  obtain rfl := (Prod.mk.inj hsame).2
  refine isScalar_queryText (Text.isScalar_of_subset ht ?_)
  exact List.Subset.trans (splitOnce_snd_subset _ part)
    (List.Subset.trans (subset_of_mem_splitAll (List.mem_of_mem_filter hpart)) hquery)

end Web

end Showrunner

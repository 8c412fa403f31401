import Showrunner.Time.Stamp

/-!
# Instants of stamps

A stamp of universal time shows its own instant, and a stamp moved to universal time keeps its
instant. Moving a stamp by a number of microseconds moves its instant by as many. Stamps of
universal time are therefore equal exactly when their instants are.
-/

namespace Showrunner

/-- The wall reading that is found lies at the number asked for. -/
theorem Wall.ofMicros?_some {n : Int} {w : Wall} (h : Wall.ofMicros? n = some w) :
    (w.val : Int) = n := by
  unfold Wall.ofMicros? at h
  split at h
  · cases h
    simp only
    omega
  · cases h

/-- A wall reading is found at its own number. -/
theorem Wall.ofMicros?_val (w : Wall) : Wall.ofMicros? w.val = some w := by
  have hlt : (w.val : Int) < (wallCount : Int) := by
    have := w.isLt
    omega
  unfold Wall.ofMicros?
  rw [dif_pos ⟨by omega, hlt⟩]
  congr 1

/-- There is no wall reading beyond the calendar. -/
theorem Wall.ofMicros?_eq_none {n : Int} (h : 0 ≤ n) : Wall.ofMicros? n = none ↔ (wallCount : Int) ≤ n := by
  unfold Wall.ofMicros?
  split
  · next hwithin => exact ⟨fun hnone => (nomatch hnone), fun hbeyond => absurd hwithin.2 (by omega)⟩
  · next hbeyond => exact ⟨fun _ => (by omega), fun _ => rfl⟩

namespace Stamp

/-- A stamp of universal time shows its instant. -/
@[simp] theorem instant_utc (w : Wall) : (utc w).instant = w.val := by
  simp [utc, instant]

/-- A stamp of universal time is moved to itself. -/
@[simp] theorem toUtc?_utc (w : Wall) : (utc w).toUtc? = some (utc w) := by
  simp only [toUtc?, instant_utc, Wall.ofMicros?_val, Option.map_some]

/-- A stamp that is moved to universal time shows its instant there. -/
theorem toUtc?_some {s t : Stamp} (h : s.toUtc? = some t) :
    t = utc t.wall ∧ (t.wall.val : Int) = s.instant := by
  obtain ⟨w, hw, rfl⟩ := Option.map_eq_some_iff.mp h
  exact ⟨rfl, Wall.ofMicros?_some hw⟩

/-- Moving a stamp to universal time keeps its instant. -/
theorem instant_toUtc? {s t : Stamp} (h : s.toUtc? = some t) : t.instant = s.instant := by
  obtain ⟨hutc, hval⟩ := toUtc?_some h
  rw [hutc, instant_utc, hval]

/-- Moving to universal time succeeds where there is a stamp to move to. -/
theorem toUtc_ok {s t : Stamp} : s.toUtc = .ok t ↔ s.toUtc? = some t := by
  unfold toUtc
  cases s.toUtc? with
  | none => exact ⟨fun h => (nomatch h), fun h => (nomatch h)⟩
  | some u => exact ⟨fun h => by cases h; rfl, fun h => by cases h; rfl⟩

/-- A stamp of universal time is moved to itself. -/
@[simp] theorem toUtc_utc (w : Wall) : (utc w).toUtc = .ok (utc w) :=
  toUtc_ok.mpr (toUtc?_utc w)

/-- A stamp is moved to universal time if its instant lies in the calendar. -/
theorem exists_toUtc {s : Stamp} (hfirst : 0 ≤ s.instant) (hlast : s.instant < wallCount) :
    ∃ w : Wall, (w.val : Int) = s.instant ∧ s.toUtc = .ok (utc w) := by
  refine ⟨⟨s.instant.toNat, by omega⟩, Int.toNat_of_nonneg hfirst, toUtc_ok.mpr ?_⟩
  rw [toUtc?, Wall.ofMicros?, dif_pos ⟨hfirst, hlast⟩]
  rfl

/-- Moving a stamp moves its instant. -/
theorem add_ok {s t : Stamp} {micros : Int} (h : s.add micros = .ok t) :
    t.instant = s.instant + micros := by
  unfold add at h
  split at h
  · next moved hmoved =>
    cases h
    obtain ⟨w, hw, rfl⟩ := Option.map_eq_some_iff.mp hmoved
    have hval := Wall.ofMicros?_some hw
    simp only [instant]
    omega
  · cases h

/-- The stamp of universal time a number of hours after the first midnight. -/
def ofHours (n : Nat) : Stamp :=
  utc ⟨n * 3600000000 % wallCount, Nat.mod_lt _ (by decide)⟩

end Stamp

end Showrunner

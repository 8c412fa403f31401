import Showrunner.Fault

/-!
# Operations that can fail

An operation that can fail is a chain of steps, each of which may end it. It succeeds exactly when
every step does, so a success gives the results of all the steps on the way.
-/

namespace Showrunner

universe u v

variable {ε : Type u} {α β : Type v}

/-- A chain of two steps succeeds through the results of both. -/
theorem bind_eq_ok {m : Except ε α} {f : α → Except ε β} {b : β} :
    m >>= f = .ok b ↔ ∃ a, m = .ok a ∧ f a = .ok b := by
  cases m with
  | ok a =>
    constructor
    · exact fun h => ⟨a, rfl, h⟩
    · rintro ⟨_, ha, h⟩
      cases ha
      exact h
  | error e =>
    constructor
    · exact fun h => nomatch h
    · rintro ⟨_, ha, _⟩
      cases ha

/-- Changing the result of an operation does not change when it succeeds. -/
theorem map_eq_ok {m : Except ε α} {f : α → β} {b : β} :
    m.map f = .ok b ↔ ∃ a, m = .ok a ∧ f a = b := by
  cases m with
  | ok a =>
    constructor
    · intro h
      cases h
      exact ⟨a, rfl, rfl⟩
    · rintro ⟨_, ha, rfl⟩
      cases ha
      rfl
  | error e =>
    constructor
    · exact fun h => nomatch h
    · rintro ⟨_, ha, _⟩
      cases ha

/-- Changing the fault of an operation does not change when it succeeds. -/
theorem mapError_eq_ok {ε' : Type u} {m : Except ε α} {f : ε → ε'} {a : α} :
    m.mapError f = .ok a ↔ m = .ok a := by
  cases m with
  | ok b =>
    constructor
    · intro h
      cases h
      rfl
    · intro h
      cases h
      rfl
  | error e =>
    constructor
    · exact fun h => nomatch h
    · exact fun h => nomatch h

/-- An operation has a result if it succeeds with it. -/
theorem toOption_eq_some {m : Except ε α} {a : α} : m.toOption = some a ↔ m = .ok a := by
  cases m <;> simp [Except.toOption]

/-- An operation has no result if it ends with a fault. -/
theorem toOption_eq_none {m : Except ε α} : m.toOption = none ↔ ∃ e, m = .error e := by
  cases m <;> simp [Except.toOption]

/-- A chain of steps over two lists succeeds through the results over each. -/
theorem mapM_append_eq_ok {f : α → Except ε β} {first last : List α} {results : List β} :
    (first ++ last).mapM f = .ok results ↔
      ∃ firsts lasts, first.mapM f = .ok firsts ∧ last.mapM f = .ok lasts ∧
        results = firsts ++ lasts := by
  rw [List.mapM_append]
  constructor
  · intro h
    obtain ⟨firsts, hfirst, h⟩ := bind_eq_ok.mp h
    obtain ⟨lasts, hlast, h⟩ := bind_eq_ok.mp h
    cases h
    exact ⟨firsts, lasts, hfirst, hlast, rfl⟩
  · rintro ⟨firsts, lasts, hfirst, hlast, rfl⟩
    rw [hfirst, hlast]
    rfl

/-- A chain of steps over a list of which each is known to succeed gives their results. -/
theorem mapM_eq_ok_map {f : α → Except ε β} {g : α → β} {items : List α}
    (h : ∀ a ∈ items, f a = .ok (g a)) : items.mapM f = .ok (items.map g) := by
  induction items with
  | nil => rfl
  | cons a rest ih =>
    obtain ⟨ha, hrest⟩ := List.forall_mem_cons.mp h
    rw [List.mapM_cons, ha, ih hrest]
    rfl

/-- A chain of steps over a list succeeds if each of them does. -/
theorem exists_mapM_eq_ok {f : α → Except ε β} {items : List α} (h : ∀ a ∈ items, ∃ b, f a = .ok b) :
    ∃ results, items.mapM f = .ok results := by
  induction items with
  | nil => exact ⟨[], rfl⟩
  | cons a rest ih =>
    obtain ⟨⟨b, hb⟩, hrest⟩ := List.forall_mem_cons.mp h
    obtain ⟨results, hresults⟩ := ih hrest
    rw [List.mapM_cons, hb, hresults]
    exact ⟨b :: results, rfl⟩

/-- An operation comes to a result of which something holds, or to a fault of which something holds. -/
def Comes (E : ε → Prop) (Q : α → Prop) : Except ε α → Prop
  | .ok a => Q a
  | .error e => E e

section Coming

variable {E : ε → Prop} {Q : α → Prop} {Q' : β → Prop} {m : Except ε α}

/-- What an operation comes to is what is known of its result and of its fault. -/
theorem comes_iff : Comes E Q m ↔ (∀ a, m = .ok a → Q a) ∧ ∀ e, m = .error e → E e := by
  cases m with
  | ok a => exact ⟨fun h => ⟨fun b hb => by cases hb; exact h, nofun⟩, fun h => h.1 a rfl⟩
  | error e => exact ⟨fun h => ⟨nofun, fun b hb => by cases hb; exact h⟩, fun h => h.2 e rfl⟩

/-- Of the result that an operation comes to it is also known that the operation came to it. -/
theorem Comes.self (h : Comes E Q m) : Comes E (fun a => m = .ok a) m := by
  cases m with
  | ok a => rfl
  | error e => exact h

/-- What an operation comes to may be said more weakly. -/
theorem Comes.mono {E' : ε → Prop} {Q' : α → Prop} (h : Comes E Q m) (hE : ∀ e, E e → E' e)
    (hQ : ∀ a, Q a → Q' a) : Comes E' Q' m := by
  cases m with
  | ok a => exact hQ a h
  | error e => exact hE e h

/-- A chain of two steps comes to what the second step comes to, from what the first one came to. -/
theorem Comes.bind {f : α → Except ε β} (h : Comes E Q m) (hf : ∀ a, Q a → Comes E Q' (f a)) :
    Comes E Q' (m >>= f) := by
  cases m with
  | ok a => exact hf a h
  | error e => exact h

/-- Changing the fault of an operation changes what is known of it. -/
theorem Comes.mapError {ε' : Type u} {g : ε → ε'} {E' : ε' → Prop} (h : Comes E Q m)
    (hg : ∀ e, E e → E' (g e)) : Comes E' Q (m.mapError g) := by
  cases m with
  | ok a => exact h
  | error e => exact hg e h

/-- A chain of steps over a list comes to results of each of which the same holds. -/
theorem comes_mapM {f : α → Except ε β} {items : List α} (h : ∀ a ∈ items, Comes E Q' (f a)) :
    Comes E (fun results => ∀ b ∈ results, Q' b) (items.mapM f) := by
  induction items with
  | nil => exact fun b hb => nomatch hb
  | cons a rest ih =>
    obtain ⟨ha, hrest⟩ := List.forall_mem_cons.mp h
    rw [List.mapM_cons]
    exact ha.bind fun b hb => (ih hrest).bind fun bs hbs => List.forall_mem_cons.mpr ⟨hb, hbs⟩

/-- What each step of a chain over a list keeps, the chain keeps. -/
theorem comes_foldlM {f : β → α → Except ε β} {items : List α} {b : β} (hb : Q' b)
    (h : ∀ b, ∀ a ∈ items, Q' b → Comes E Q' (f b a)) : Comes E Q' (items.foldlM f b) := by
  induction items generalizing b with
  | nil => exact hb
  | cons a rest ih =>
    rw [List.foldlM_cons]
    exact (h b a List.mem_cons_self hb).bind fun b' hb' =>
      ih hb' fun c d hd => h c d (List.mem_cons_of_mem _ hd)

end Coming

end Showrunner

/-
# Steps one after another

A step that can fail goes on with what the one before it returned.  So a sequence of two returns
what the second returns for a result of the first, and fails as the first does or as the second does
for such a result; a run of one step over a list returns what the step returns for the elements, and
fails as it does for one of them.
-/

import Mathlib.Data.List.Basic
import Mathlib.Data.List.Forall2

namespace DeskCalculator

variable {ε α β : Type}

/-- What a sequence of two steps returns. -/
theorem bind_eq_ok {x : Except ε α} {f : α → Except ε β} {b : β} :
    x >>= f = .ok b ↔ ∃ a, x = .ok a ∧ f a = .ok b := by
  cases x with
  | error e =>
    constructor
    · intro h
      cases h
    · rintro ⟨_, h, -⟩
      cases h
  | ok a =>
    constructor
    · intro h
      exact ⟨a, rfl, h⟩
    · rintro ⟨_, ha, h⟩
      exact Except.ok.inj ha ▸ h

/-- How a sequence of two steps fails. -/
theorem bind_eq_error {x : Except ε α} {f : α → Except ε β} {e : ε} :
    x >>= f = .error e ↔ x = .error e ∨ ∃ a, x = .ok a ∧ f a = .error e := by
  cases x with
  | error e' =>
    constructor
    · intro h
      exact .inl (congrArg _ (Except.error.inj h))
    · rintro (h | ⟨_, h, -⟩)
      · exact congrArg _ (Except.error.inj h)
      · cases h
  | ok a =>
    constructor
    · intro h
      exact .inr ⟨a, rfl, h⟩
    · rintro (h | ⟨_, ha, h⟩)
      · cases h
      · exact Except.ok.inj ha ▸ h

/-- What fails with its result changed fails without. -/
theorem eq_error_of_map {x : Except ε α} {f : α → β} {e : ε} (h : x.map f = .error e) :
    x = .error e := by
  cases x with
  | error e' => exact congrArg _ (Except.error.inj h)
  | ok a => cases h

/-- What a run over a list returns is what the step returns, element by element. -/
theorem mapM_eq_ok_iff {f : α → Except ε β} : ∀ {as : List α} {bs : List β},
    as.mapM f = .ok bs ↔ List.Forall₂ (fun a b => f a = .ok b) as bs
  | [], bs => by
      rw [List.mapM_nil, List.forall₂_nil_left_iff]
      exact ⟨fun h => (Except.ok.inj h).symm, fun h => congrArg _ h.symm⟩
  | a :: as, bs => by
      rw [List.mapM_cons, bind_eq_ok, List.forall₂_cons_left_iff]
      constructor
      · rintro ⟨b, ha, h⟩
        obtain ⟨rest, hrest, h⟩ := bind_eq_ok.1 h
        exact ⟨b, rest, ha, mapM_eq_ok_iff.1 hrest, (Except.ok.inj h).symm⟩
      · rintro ⟨b, rest, ha, hrest, rfl⟩
        exact ⟨b, ha, bind_eq_ok.2 ⟨rest, mapM_eq_ok_iff.2 hrest, rfl⟩⟩

/-- A run over a list fails as the step does for the first element that it fails for. -/
theorem mapM_eq_error_iff {f : α → Except ε β} {e : ε} : ∀ {as : List α},
    as.mapM f = .error e ↔ ∃ before a after, as = before ++ a :: after ∧
      (∀ x ∈ before, ∃ b, f x = .ok b) ∧ f a = .error e
  | [] => by
      rw [List.mapM_nil]
      constructor
      · intro h
        cases h
      · rintro ⟨before, a, after, h, -⟩
        exact absurd h.symm (List.append_ne_nil_of_right_ne_nil _ (List.cons_ne_nil _ _))
  | x :: as => by
      rw [List.mapM_cons, bind_eq_error]
      constructor
      · rintro (hx | ⟨b, hx, h⟩)
        · exact ⟨[], x, as, rfl, List.forall_mem_nil _, hx⟩
        · rcases bind_eq_error.1 h with h | ⟨rest, -, h⟩
          · obtain ⟨before, a, after, rfl, passed, ha⟩ := mapM_eq_error_iff.1 h
            exact ⟨x :: before, a, after, rfl, List.forall_mem_cons.2 ⟨⟨b, hx⟩, passed⟩, ha⟩
          · cases h
      · rintro ⟨before, a, after, split, passed, ha⟩
        cases before with
        | nil =>
          cases split
          exact .inl ha
        | cons y before =>
          cases split
          obtain ⟨⟨b, hb⟩, passed⟩ := List.forall_mem_cons.1 passed
          exact .inr ⟨b, hb, bind_eq_error.2 (.inl (mapM_eq_error_iff.2
            ⟨before, a, after, rfl, passed, ha⟩))⟩

/-- The results of a run over a list come from its elements. -/
theorem exists_of_mem_mapM {f : α → Except ε β} {as : List α} {bs : List β}
    (h : as.mapM f = .ok bs) : ∀ b ∈ bs, ∃ a ∈ as, f a = .ok b := by
  induction mapM_eq_ok_iff.1 h with
  | nil => exact List.forall_mem_nil _
  | cons ha rest ih =>
    intro b hb
    rcases List.mem_cons.1 hb with rfl | hb
    · exact ⟨_, List.mem_cons_self, ha⟩
    · obtain ⟨a, mem, ha⟩ := ih (mapM_eq_ok_iff.2 rest) b hb
      exact ⟨a, List.mem_cons_of_mem _ mem, ha⟩

/-- Every element of a list has its result among those of a run over the list. -/
theorem exists_mem_of_mapM {f : α → Except ε β} {as : List α} {bs : List β}
    (h : as.mapM f = .ok bs) : ∀ a ∈ as, ∃ b ∈ bs, f a = .ok b := by
  induction mapM_eq_ok_iff.1 h with
  | nil => exact List.forall_mem_nil _
  | cons hx rest ih =>
    intro a ha
    rcases List.mem_cons.1 ha with rfl | ha
    · exact ⟨_, List.mem_cons_self, hx⟩
    · obtain ⟨b, mem, hb⟩ := ih (mapM_eq_ok_iff.2 rest) a ha
      exact ⟨b, List.mem_cons_of_mem _ mem, hb⟩

/-- A run over a list fails as it does for one of its elements. -/
theorem exists_of_mapM_error {f : α → Except ε β} {e : ε} {as : List α}
    (h : as.mapM f = .error e) : ∃ a ∈ as, f a = .error e := by
  obtain ⟨before, a, after, rfl, -, ha⟩ := mapM_eq_error_iff.1 h
  exact ⟨a, List.mem_append_right _ List.mem_cons_self, ha⟩

end DeskCalculator

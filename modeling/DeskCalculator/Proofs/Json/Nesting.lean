/-
# How deep values nest and readings go

A container stands one level above the deepest of what is in it (`Value.nesting`).  A reading opens
the containers of a text one inside the other, as far as there is room for them: a text that opens
more of them at once is refused at the bracket that is one too many (`read_replicate`).  What room
there is decides nothing else.  A reading that ends otherwise ends in the same way with any more
room (`read_of_le`).
-/

import DeskCalculator.Settings.Parser

namespace DeskCalculator
namespace Settings

namespace Value

mutual

/-- How many containers stand inside each other in a value: none in one that is not a container,
and one in an empty container. -/
def nesting : Value → Nat
  | .list items => nestingItems items + 1
  | .dictionary entries => nestingEntries entries + 1
  | .null | .bool _ | .integer _ | .number _ | .text _ | .foreign => 0

/-- The deepest nesting of items. -/
def nestingItems : List Value → Nat
  | [] => 0
  | v :: rest => max v.nesting (nestingItems rest)

/-- The deepest nesting of values in entries. -/
def nestingEntries : List (CodeText × Value) → Nat
  | [] => 0
  | (_, v) :: rest => max v.nesting (nestingEntries rest)

end

/-- Items are nested as deep as the deepest of them. -/
theorem nestingItems_le_iff {items : List Value} {n : Nat} :
    nestingItems items ≤ n ↔ ∀ v ∈ items, v.nesting ≤ n := by
  induction items with
  | nil => simp [nestingItems]
  | cons v rest ih => rw [nestingItems, Nat.max_le, List.forall_mem_cons, ih]

/-- Entries are nested as deep as the deepest of their values. -/
theorem nestingEntries_le_iff {entries : List (CodeText × Value)} {n : Nat} :
    nestingEntries entries ≤ n ↔ ∀ e ∈ entries, e.2.nesting ≤ n := by
  induction entries with
  | nil => simp [nestingEntries]
  | cons e rest ih =>
    obtain ⟨k, v⟩ := e
    rw [nestingEntries, Nat.max_le, List.forall_mem_cons, ih]

/-- A list nests one level deeper than its items. -/
theorem nesting_list_le_iff {items : List Value} {n : Nat} :
    (list items).nesting ≤ n ↔ ∃ m, n = m + 1 ∧ ∀ v ∈ items, v.nesting ≤ m := by
  rw [nesting]
  refine ⟨fun h => ?_, ?_⟩
  · obtain ⟨m, rfl⟩ := Nat.exists_eq_succ_of_ne_zero (n := n) (by omega)
    exact ⟨m, rfl, nestingItems_le_iff.1 (by omega)⟩
  · rintro ⟨m, rfl, h⟩
    exact Nat.succ_le_succ (nestingItems_le_iff.2 h)

/-- A dictionary nests one level deeper than its values. -/
theorem nesting_dictionary_le_iff {entries : Dictionary} {n : Nat} :
    (dictionary entries).nesting ≤ n ↔ ∃ m, n = m + 1 ∧ ∀ e ∈ entries, e.2.nesting ≤ m := by
  rw [nesting]
  refine ⟨fun h => ?_, ?_⟩
  · obtain ⟨m, rfl⟩ := Nat.exists_eq_succ_of_ne_zero (n := n) (by omega)
    exact ⟨m, rfl, nestingEntries_le_iff.1 (by omega)⟩
  · rintro ⟨m, rfl, h⟩
    exact Nat.succ_le_succ (nestingEntries_le_iff.2 h)

end Value

namespace Json

variable {room room' bound : Nat} {cs : List Char}

/-- What begins neither with a quote nor with a bracket is read as a value on its own. -/
theorem value_of_ne (quote : ∀ rest, cs ≠ '"' :: rest) (bracket : ∀ rest, cs ≠ '[' :: rest)
    (brace : ∀ rest, cs ≠ '\x7b' :: rest) : value room (bound + 1) cs = scalar cs := by
  rw [value.eq_def]
  split
  case h_1 eq => cases eq
  case h_2 => exact absurd rfl (quote _)
  case h_3 => exact absurd rfl (bracket _)
  case h_4 => exact absurd rfl (bracket _)
  case h_5 => exact absurd rfl (brace _)
  case h_6 => exact absurd rfl (brace _)
  case h_7 => rfl

/-- A list that is not empty is read item by item. -/
theorem value_list {tail : List Char} (start : skipBlanks cs = tail)
    (ne : ∀ rest, tail ≠ ']' :: rest) (room bound : Nat) :
    value (room + 1) (bound + 1) ('[' :: cs) =
      (items room bound tail).map fun (vs, rest) => (.list vs, rest) := by
  rw [value, start]
  split
  · exact absurd rfl (ne _)
  · cases items room bound tail <;> rfl

/-- A dictionary that is not empty is read entry by entry. -/
theorem value_dictionary {tail : List Char} (start : skipBlanks cs = tail)
    (ne : ∀ rest, tail ≠ '\x7d' :: rest) (room bound : Nat) :
    value (room + 1) (bound + 1) ('\x7b' :: cs) =
      (entries room bound tail).map fun (pairs, rest) =>
        (.dictionary (Dictionary.ofEntries pairs), rest) := by
  rw [value, start]
  split
  · exact absurd rfl (ne _)
  · cases entries room bound tail <;> rfl

/-! ## More room -/

/-- What a reading gives with little room and with much: the same, unless it lacked room. -/
def Agree {α : Type} (few many : Except Unreadable α) : Prop :=
  few = .error .tooNested ∨ many = few

/-- A reading agrees with itself. -/
theorem agree_self {α : Type} (x : Except Unreadable α) : Agree x x := .inr rfl

/-- Readings that agree still do with what is read behind them. -/
theorem Agree.bind {α β : Type} {few many : Except Unreadable α}
    {f g : α → Except Unreadable β} (h : Agree few many) (hf : ∀ a, Agree (f a) (g a)) :
    Agree (few >>= f) (many >>= g) := by
  obtain rfl | rfl := h
  · exact .inl rfl
  · cases many with
    | error e => exact agree_self _
    | ok a => exact hf a

/-- Within a bound on the steps, readings with less and with more room agree. -/
structure AgreeUpTo (bound : Nat) : Prop where
  value : ∀ {room room'} (cs), room ≤ room' →
    Agree (Json.value room bound cs) (Json.value room' bound cs)
  items : ∀ {room room'} (cs), room ≤ room' →
    Agree (Json.items room bound cs) (Json.items room' bound cs)
  entries : ∀ {room room'} (cs), room ≤ room' →
    Agree (Json.entries room bound cs) (Json.entries room' bound cs)

/-- A value is read alike with more room, if all that stands in it is. -/
theorem AgreeUpTo.value_succ (h : AgreeUpTo bound) (cs : List Char) (le : room ≤ room') :
    Agree (Json.value room (bound + 1) cs) (Json.value room' (bound + 1) cs) := by
  rw [Json.value.eq_def room]
  split
  case h_1 eq => cases eq
  case h_2 =>
    rw [Json.value]
    exact agree_self _
  case h_3 => exact .inl rfl
  case h_4 eq =>
    cases eq
    obtain ⟨room', rfl⟩ := Nat.exists_eq_succ_of_ne_zero (n := room') (by omega)
    rw [Json.value]
    generalize skipBlanks _ = tail
    split
    · exact agree_self _
    · exact (h.items _ (Nat.le_of_succ_le_succ le)).bind fun _ => agree_self _
  case h_5 => exact .inl rfl
  case h_6 eq =>
    cases eq
    obtain ⟨room', rfl⟩ := Nat.exists_eq_succ_of_ne_zero (n := room') (by omega)
    rw [Json.value]
    generalize skipBlanks _ = tail
    split
    · exact agree_self _
    · exact (h.entries _ (Nat.le_of_succ_le_succ le)).bind fun _ => agree_self _
  case h_7 room cs _ _ _ _ _ quote bracket bracket' brace brace' =>
    rw [value_of_ne quote (fun rest eq => ?_) fun rest eq => ?_]
    · exact agree_self _
    · cases room with
      | zero => exact bracket rest rfl eq
      | succ room => exact bracket' room rest rfl eq
    · cases room with
      | zero => exact brace rest rfl eq
      | succ room => exact brace' room rest rfl eq

/-- Items are read alike with more room, if all that stands in them is. -/
theorem AgreeUpTo.items_succ (h : AgreeUpTo bound) (cs : List Char) (le : room ≤ room') :
    Agree (Json.items room (bound + 1) cs) (Json.items room' (bound + 1) cs) := by
  rw [Json.items, Json.items]
  refine (h.value cs le).bind fun (v, rest) => ?_
  simp only []
  split
  · exact agree_self _
  · exact (h.items _ le).bind fun _ => agree_self _
  · exact agree_self _

/-- Entries are read alike with more room, if all that stands in them is. -/
theorem AgreeUpTo.entries_succ (h : AgreeUpTo bound) (cs : List Char) (le : room ≤ room') :
    Agree (Json.entries room (bound + 1) cs) (Json.entries room' (bound + 1) cs) := by
  rw [Json.entries.eq_def room]
  split
  case h_1 eq => cases eq
  case h_2 eq =>
    cases eq
    rw [Json.entries]
    refine (agree_self (required _)).bind fun (k, rest) => ?_
    simp only []
    split
    · refine (h.value _ le).bind fun (v, rest) => ?_
      simp only []
      split
      · exact agree_self _
      · exact (h.entries _ le).bind fun _ => agree_self _
      · exact agree_self _
    · exact agree_self _
  case h_3 other =>
    rw [Json.entries.eq_def room']
    split
    case h_1 eq => cases eq
    case h_2 => exact absurd rfl (other _)
    case h_3 => exact agree_self _

/-- Whatever the bound on the steps is, less and more room agree. -/
theorem agreeUpTo (bound : Nat) : AgreeUpTo bound := by
  induction bound with
  | zero =>
    refine ⟨fun _ _ => ?_, fun _ _ => agree_self _, fun _ _ => agree_self _⟩
    rw [value, value]
    exact agree_self _
  | succ bound ih => exact ⟨ih.value_succ, ih.items_succ, ih.entries_succ⟩

/-- **More room changes nothing but what fails for want of room.** -/
theorem read_of_le (cs : List Char) (le : room ≤ room') (h : read room cs ≠ .error .tooNested) :
    read room' cs = read room cs := by
  have agree : Agree (read room cs) (read room' cs) :=
    ((agreeUpTo _).value _ (Nat.succ_le_succ le)).bind fun _ => agree_self _
  exact agree.resolve_left h

/-! ## Too little room -/

/-- One opening bracket more than there is room for is too many, whatever stands behind them. -/
theorem value_replicate (enough : 2 * room < bound) (rest : List Char) :
    value room bound (List.replicate (room + 1) '[' ++ rest) = .error .tooNested := by
  induction room generalizing bound with
  | zero =>
    obtain ⟨bound, rfl⟩ := Nat.exists_eq_succ_of_ne_zero (n := bound) (by omega)
    rfl
  | succ room ih =>
    obtain ⟨bound, rfl⟩ : ∃ n, bound = n + 2 := ⟨bound - 2, by omega⟩
    have inner : List.replicate (room + 1) '[' ++ rest =
        '[' :: (List.replicate room '[' ++ rest) := rfl
    have start : skipBlanks (List.replicate (room + 1) '[' ++ rest) =
        List.replicate (room + 1) '[' ++ rest := rfl
    rw [List.replicate_succ, List.cons_append, value_list start (by simp [inner]), items,
      ih (by omega)]
    rfl

/-- **A text that opens more containers than there is room for is not read,** whatever stands
behind the brackets. -/
theorem read_replicate {n : Nat} (deep : room + 1 < n) (rest : List Char) :
    read room (List.replicate n '[' ++ rest) = .error .tooNested := by
  obtain ⟨n, rfl⟩ : ∃ k, n = room + 2 + k := ⟨n - (room + 2), by omega⟩
  have start : skipBlanks (List.replicate (room + 2 + n) '[' ++ rest) =
      List.replicate (room + 2) '[' ++ (List.replicate n '[' ++ rest) := by
    rw [← List.replicate_append_replicate, List.append_assoc]
    rfl
  rw [read, start, value_replicate (by simp; omega)]
  rfl

end Json
end Settings
end DeskCalculator

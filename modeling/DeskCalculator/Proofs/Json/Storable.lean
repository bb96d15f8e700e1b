/-
# What is read can be written

Reading gives only values that a file can hold (`fits_of_read`): a whole number is read if it has
at most 4300 digits and then has no more of them when it is written, halves of characters are joined
where they can be, and of several values of one key one is kept.  Nor is what is read nested deeper
than there was room for.
-/

import DeskCalculator.Proofs.Json.RoundTrip

namespace DeskCalculator
namespace Settings

/-- A value that a file can hold, and that is read back where there is room for so many
containers. -/
structure Value.Fits (room : Nat) (v : Value) : Prop where
  storable : v.IsStorable
  nesting : v.nesting ≤ room

/-- What fits into some room fits into more. -/
theorem Value.Fits.of_le {room room' : Nat} {v : Value} (h : v.Fits room) (le : room ≤ room') :
    v.Fits room' :=
  ⟨h.storable, Nat.le_trans h.nesting le⟩

/-- **One dictionary over another fits where both fit.** -/
theorem Value.Fits.update {room : Nat} {d more : Dictionary} (hd : (Value.dictionary d).Fits room)
    (hm : (Value.dictionary more).Fits room) : (Value.dictionary (d.update more)).Fits room := by
  obtain ⟨hd, deep⟩ := hd
  obtain ⟨hm, deep'⟩ := hm
  obtain ⟨room, rfl, inside⟩ := Value.nesting_dictionary_le_iff.1 deep
  obtain ⟨_, eq, inside'⟩ := Value.nesting_dictionary_le_iff.1 deep'
  obtain rfl := Nat.succ.inj eq
  refine ⟨?_, Value.nesting_dictionary_le_iff.2 ⟨room, rfl, fun e he => ?_⟩⟩
  · cases hd with
    | dictionary nodup keys values =>
      cases hm with
      | dictionary _ keys' values' =>
        refine .dictionary (Dictionary.nodup_keys_update nodup more) (fun e he => ?_) fun e he => ?_
        · exact (Dictionary.mem_update he).elim (keys e) (keys' e)
        · exact (Dictionary.mem_update he).elim (values e) (values' e)
  · exact (Dictionary.mem_update he).elim (inside e) (inside' e)

namespace Json

/-- Digits show a number below the power of ten that has one digit more. -/
theorem ofDigitChars_lt {digits : List Char} (h : ∀ c ∈ digits, c.isDigit = true) (init : Nat) :
    Nat.ofDigitChars 10 digits init < (init + 1) * Nat.pow 10 digits.length := by
  rw [Nat.pow_eq]
  induction digits generalizing init with
  | nil => simp
  | cons c digits ih =>
    obtain ⟨digit, h⟩ := List.forall_mem_cons.1 h
    have : c.toNat - '0'.toNat ≤ 9 := Nat.sub_le_sub_right (Char.isDigit_iff_toNat.1 digit).2 _
    rw [Nat.ofDigitChars_cons, List.length_cons, Nat.pow_succ']
    calc
      _ < (10 * init + (c.toNat - '0'.toNat) + 1) * 10 ^ digits.length := ih h _
      _ ≤ (init + 1) * 10 * 10 ^ digits.length := Nat.mul_le_mul_right _ (by omega)
      _ = (init + 1) * (10 * 10 ^ digits.length) := Nat.mul_assoc ..

/-- What has few digits when it is read has few of them when it is written. -/
theorem length_toDigits_ofDigitChars_le {digits : List Char} (h : ∀ c ∈ digits, c.isDigit = true)
    {k : Nat} (pos : 0 < k) (short : digits.length ≤ k) :
    (Nat.toDigits 10 (Nat.ofDigitChars 10 digits 0)).length ≤ k := by
  rw [Nat.length_toDigits_le_iff (by decide) pos]
  have := ofDigitChars_lt h 0
  rw [Nat.zero_add, Nat.one_mul, Nat.pow_eq] at this
  exact Nat.lt_of_lt_of_le this (Nat.pow_le_pow_right (by decide) short)

/-- The whole part of a number is made of digits. -/
theorem isDigit_of_whole? {cs digits rest : List Char} (h : whole? cs = some (digits, rest)) :
    ∀ c ∈ digits, c.isDigit = true := by
  rw [whole?.eq_def] at h
  split at h
  · cases h
    simp
  · simp only [] at h
    split at h
    · cases h
    · cases h
      exact fun c => List.mem_takeWhile_imp

/-- A whole number is read if it can be written. -/
theorem exists_of_integer {negative : Bool} {digits : List Char} {v : Value}
    (isDigit : ∀ c ∈ digits, c.isDigit = true) (h : integer negative digits = .ok v) :
    ∃ i, v = .integer i ∧ (Nat.toDigits 10 i.natAbs).length ≤ Text.maxDigits := by
  unfold integer at h
  split at h
  · cases h
  · rename_i short
    cases h
    have abs (n : Nat) : (if negative then -(n : Int) else n).natAbs = n := by
      split <;> omega
    refine ⟨_, rfl, ?_⟩
    rw [abs]
    exact length_toDigits_ofDigitChars_le isDigit (by decide) (by omega)

/-- What is required has been read if it is there. -/
theorem required_eq_ok {α : Type} {o : Option α} {a : α} : required o = .ok a ↔ o = some a := by
  cases o <;> simp [required]

/-- A number without its sign is a whole number that is not too long, or a double. -/
theorem magnitude_cases {negative : Bool} {cs rest : List Char} {v : Value}
    (h : magnitude negative cs = .ok (v, rest)) :
    (∃ i, v = .integer i ∧ (Nat.toDigits 10 i.natAbs).length ≤ Text.maxDigits) ∨
      ∃ x, v = .number x := by
  obtain ⟨⟨digits, behind⟩, whole, h⟩ := bind_eq_ok.1 h
  simp only [] at h
  split at h
  · obtain ⟨v, integer, h⟩ := bind_eq_ok.1 h
    cases h
    exact .inl (exists_of_integer (isDigit_of_whole? (required_eq_ok.1 whole)) integer)
  · cases h
    exact .inr ⟨_, rfl⟩

/-- **What is read as a value on its own is nothing, a truth value or a number.** -/
theorem scalar_cases {cs rest : List Char} {v : Value} (h : scalar cs = .ok (v, rest)) :
    v = .null ∨ (∃ b, v = .bool b) ∨
      (∃ i, v = .integer i ∧ (Nat.toDigits 10 i.natAbs).length ≤ Text.maxDigits) ∨
      ∃ x, v = .number x := by
  unfold scalar at h
  split at h
  case h_7 => exact .inr (.inr (magnitude_cases h))
  case h_8 => exact .inr (.inr (magnitude_cases h))
  all_goals cases h
  case h_1 => exact .inl rfl
  case h_2 => exact .inr (.inl ⟨true, rfl⟩)
  case h_3 => exact .inr (.inl ⟨false, rfl⟩)
  all_goals exact .inr (.inr (.inr ⟨_, rfl⟩))

/-- What is read as a value on its own fits where there is no room at all. -/
theorem fits_of_scalar {cs rest : List Char} {v : Value} (h : scalar cs = .ok (v, rest))
    (room : Nat) : v.Fits room := by
  rcases scalar_cases h with rfl | ⟨b, rfl⟩ | ⟨i, rfl, short⟩ | ⟨x, rfl⟩
  · exact ⟨.null, Nat.zero_le _⟩
  · exact ⟨.bool b, Nat.zero_le _⟩
  · exact ⟨.integer short, Nat.zero_le _⟩
  · exact ⟨.number x, Nat.zero_le _⟩

/-- A text that has been read has its halves joined. -/
theorem isJoined_of_text? {cs rest : List Char} {s : CodeText} (h : text? cs = some (s, rest)) :
    s.IsJoined := by
  obtain ⟨⟨ps, behind⟩, -, h⟩ := Option.bind_eq_some_iff.1 h
  cases h
  exact CodePoint.isJoined_join ps

/-- What reading gives within a bound on the steps fits where it was read. -/
structure GivesFitting (bound : Nat) : Prop where
  value : ∀ {room cs v rest}, Json.value room bound cs = .ok (v, rest) → v.Fits room
  items : ∀ {room cs vs rest}, Json.items room bound cs = .ok (vs, rest) → ∀ v ∈ vs, v.Fits room
  entries : ∀ {room cs es rest}, Json.entries room bound cs = .ok (es, rest) →
    ∀ e ∈ es, e.1.IsJoined ∧ e.2.Fits room

variable {room bound : Nat} {cs rest : List Char}

/-- The empty dictionary takes the room of one container. -/
theorem fits_empty (room : Nat) : (Value.dictionary []).Fits (room + 1) := by
  refine ⟨.dictionary List.nodup_nil (List.forall_mem_nil _) (List.forall_mem_nil _), ?_⟩
  exact Value.nesting_dictionary_le_iff.2 ⟨room, rfl, List.forall_mem_nil _⟩

/-- A list takes the room of one container more than its items. -/
theorem fits_list {vs : List Value} (h : ∀ v ∈ vs, v.Fits room) :
    (Value.list vs).Fits (room + 1) :=
  ⟨.list fun v hv => (h v hv).storable,
    Value.nesting_list_le_iff.2 ⟨room, rfl, fun v hv => (h v hv).nesting⟩⟩

/-- Entries as they are read make a dictionary that fits, whatever keys stand twice. -/
theorem fits_ofEntries {es : List (CodeText × Value)}
    (h : ∀ e ∈ es, e.1.IsJoined ∧ e.2.Fits room) :
    (Value.dictionary (Dictionary.ofEntries es)).Fits (room + 1) := by
  have mem {e} (he : e ∈ Dictionary.ofEntries es) : e ∈ es :=
    (Dictionary.mem_update he).resolve_left List.not_mem_nil
  refine ⟨.dictionary (Dictionary.nodup_keys_ofEntries es) (fun e he => (h e (mem he)).1)
    fun e he => (h e (mem he)).2.storable, ?_⟩
  exact Value.nesting_dictionary_le_iff.2 ⟨room, rfl, fun e he => (h e (mem he)).2.nesting⟩

/-- One step more of the bound, for a value. -/
theorem GivesFitting.value_succ (h : GivesFitting bound) {v : Value}
    (read : Json.value room (bound + 1) cs = .ok (v, rest)) : v.Fits room := by
  rw [value.eq_def] at read
  split at read
  case h_1 eq => cases eq
  case h_2 =>
    obtain ⟨⟨s, behind⟩, text, read⟩ := bind_eq_ok.1 read
    cases read
    exact ⟨.text (isJoined_of_text? (required_eq_ok.1 text)), Nat.zero_le _⟩
  case h_3 => cases read
  case h_4 eq =>
    cases eq
    split at read
    · cases read
      exact fits_list fun v hv => absurd hv List.not_mem_nil
    · obtain ⟨⟨vs, behind⟩, items, read⟩ := bind_eq_ok.1 read
      cases read
      exact fits_list (h.items items)
  case h_5 => cases read
  case h_6 eq =>
    cases eq
    split at read
    · cases read
      exact fits_empty _
    · obtain ⟨⟨es, behind⟩, entries, read⟩ := bind_eq_ok.1 read
      cases read
      exact fits_ofEntries (h.entries entries)
  case h_7 => exact fits_of_scalar read _

/-- One step more of the bound, for the items of a list. -/
theorem GivesFitting.items_succ (h : GivesFitting bound) {vs : List Value}
    (read : Json.items room (bound + 1) cs = .ok (vs, rest)) : ∀ v ∈ vs, v.Fits room := by
  rw [Json.items] at read
  obtain ⟨⟨v, behind⟩, first, read⟩ := bind_eq_ok.1 read
  simp only [] at read
  split at read
  · cases read
    exact List.forall_mem_singleton.2 (h.value first)
  · obtain ⟨⟨more, behind⟩, others, read⟩ := bind_eq_ok.1 read
    cases read
    exact List.forall_mem_cons.2 ⟨h.value first, h.items others⟩
  · cases read

/-- One step more of the bound, for the entries of a dictionary. -/
theorem GivesFitting.entries_succ (h : GivesFitting bound) {es : List (CodeText × Value)}
    (read : Json.entries room (bound + 1) cs = .ok (es, rest)) :
    ∀ e ∈ es, e.1.IsJoined ∧ e.2.Fits room := by
  rw [entries.eq_def] at read
  split at read
  case h_1 eq => cases eq
  case h_2 eq =>
    cases eq
    obtain ⟨⟨k, behind⟩, key, read⟩ := bind_eq_ok.1 read
    have joined := isJoined_of_text? (required_eq_ok.1 key)
    simp only [] at read
    split at read
    · obtain ⟨⟨v, behind⟩, first, read⟩ := bind_eq_ok.1 read
      simp only [] at read
      split at read
      · cases read
        exact List.forall_mem_singleton.2 ⟨joined, h.value first⟩
      · obtain ⟨⟨more, behind⟩, others, read⟩ := bind_eq_ok.1 read
        cases read
        exact List.forall_mem_cons.2 ⟨⟨joined, h.value first⟩, h.entries others⟩
      · cases read
    · cases read
  case h_3 => cases read

/-- Every bound on the reading will do. -/
theorem givesFitting (bound : Nat) : GivesFitting bound := by
  induction bound with
  | zero =>
    refine ⟨fun {room cs v rest} read => ?_, nofun, nofun⟩
    rw [value] at read
    cases read
  | succ bound ih => exact ⟨ih.value_succ, ih.items_succ, ih.entries_succ⟩

/-- **What is read can be written,** and is nested no deeper than there was room for. -/
theorem fits_of_read {v : Value} (h : read room cs = .ok v) : v.Fits (room + 1) := by
  obtain ⟨⟨v, rest⟩, value, h⟩ := bind_eq_ok.1 h
  simp only [] at h
  split at h
  · cases h
    exact (givesFitting _).value value
  · cases h

end Json
end Settings
end DeskCalculator

/-
# Written values read back

A value that a file can hold is built of values on their own, of lists and of dictionaries in which
each key stands once (`Value.IsStorable`).  Its written form is read as the value itself wherever it
stands in front of something that does not go on with it (`Reads`), which is proved along the value:
the items of a list are read one by one, each in front of a comma or of the line break before the
bracket (`items_append`), and so are the entries of a dictionary (`entries_append`).  A whole text
is one value, so what has been written is what is read (`read_write`).

A container takes two steps off the bound of the reading, one for itself and one for its first item,
and every further item takes one.  Each of them is written with a character of its own, which is why
twice the length of a text is enough for what stands in it.  Of the room for containers, a text
takes as much as its value is nested deep.
-/

import DeskCalculator.Proofs.Json.Nesting
import DeskCalculator.Proofs.Json.Numeral
import DeskCalculator.Proofs.Json.Quoted
import DeskCalculator.Proofs.Settings.Dictionary
import Mathlib.Data.List.Forall2

namespace DeskCalculator
namespace Settings

/-- A value that a file can hold: no foreign value and no whole number of more than 4300 digits in
it, no first half of a character in front of a second one, and each key once. -/
inductive Value.IsStorable : Value → Prop
  | null : IsStorable .null
  | bool (b : Bool) : IsStorable (.bool b)
  | integer {i : Int} (short : (Nat.toDigits 10 i.natAbs).length ≤ Text.maxDigits) :
      IsStorable (.integer i)
  | number (x : Binary64) : IsStorable (.number x)
  | text {s : CodeText} (joined : s.IsJoined) : IsStorable (.text s)
  | list {items : List Value} (values : ∀ v ∈ items, IsStorable v) : IsStorable (.list items)
  | dictionary {entries : Dictionary} (nodup : entries.keys.Nodup)
      (keys : ∀ e ∈ entries, e.1.IsJoined) (values : ∀ e ∈ entries, IsStorable e.2) :
      IsStorable (.dictionary entries)

namespace Json

/-- A text that is read as a value, wherever it ends, if there is room for so many containers. -/
structure Reads (n : Nat) (cs : List Char) (v : Value) : Prop where
  head : ∃ c cs', cs = c :: cs' ∧ isBlank c = false ∧ c ≠ ']'
  reads : ∀ {room bound rest}, n ≤ room → 2 * cs.length < bound → EndsNumber rest →
    value room bound (cs ++ rest) = .ok (v, rest)

/-- A text that is read as an entry of a dictionary, if there is room for so many containers. -/
def ReadsEntry (n : Nat) (cs : List Char) (e : CodeText × Value) : Prop :=
  ∃ k t, k.joined = e.1 ∧ cs = quoted k ++ ':' :: ' ' :: t ∧ Reads n t e.2

variable {n room : Nat} {cs rest : List Char} {v : Value} {e : CodeText × Value}

/-- A blank in front is skipped. -/
theorem skipBlanks_cons_of_blank {c : Char} (h : isBlank c = true) (rest : List Char) :
    skipBlanks (c :: rest) = skipBlanks rest := by
  simp [skipBlanks, h]

/-- What is no blank is not skipped. -/
theorem skipBlanks_cons {c : Char} (h : isBlank c = false) (rest : List Char) :
    skipBlanks (c :: rest) = c :: rest := by
  simp [skipBlanks, h]

/-- A line break and its indentation are blank. -/
theorem skipBlanks_newline (level : Nat) (rest : List Char) :
    skipBlanks (Written.newline level ++ rest) = skipBlanks rest := by
  rw [Written.newline, List.cons_append, skipBlanks_cons_of_blank rfl]
  exact List.dropWhile_append_of_pos fun c hc => by
    rw [List.eq_of_mem_replicate hc]
    rfl

/-- A value begins with no blank. -/
theorem Reads.skipBlanks_append (h : Reads n cs v) (rest : List Char) :
    skipBlanks (cs ++ rest) = cs ++ rest := by
  obtain ⟨c, cs, rfl, notBlank, -⟩ := h.head
  exact skipBlanks_cons notBlank _

/-- No value begins with the bracket behind a list. -/
theorem Reads.append_ne_cons (h : Reads n cs v) (rest rest' : List Char) :
    cs ++ rest ≠ ']' :: rest' := by
  obtain ⟨c, cs, rfl, -, ne⟩ := h.head
  exact fun eq => ne (List.cons.inj eq).1

/-- An entry begins with no blank. -/
theorem ReadsEntry.skipBlanks_append (h : ReadsEntry n cs e) (rest : List Char) :
    skipBlanks (cs ++ rest) = cs ++ rest := by
  obtain ⟨k, t, -, rfl, -⟩ := h
  rw [List.append_assoc, quoted_append, skipBlanks_cons rfl]

/-- No entry begins with the brace behind a dictionary. -/
theorem ReadsEntry.append_ne_cons (h : ReadsEntry n cs e) (rest rest' : List Char) :
    cs ++ rest ≠ '\x7d' :: rest' := by
  obtain ⟨k, t, -, rfl, -⟩ := h
  rw [List.append_assoc, quoted_append]
  exact fun eq => absurd (List.cons.inj eq).1 (by decide)

/-- The end of the text ends a number. -/
theorem endsNumber_nil : EndsNumber [] := nofun

/-- A character that no number goes on with ends it. -/
theorem endsNumber_cons {c : Char} (h : c.isDigit = false ∧ c ≠ '.' ∧ c ≠ 'e' ∧ c ≠ 'E')
    (rest : List Char) : EndsNumber (c :: rest) := by
  intro d hd
  obtain rfl := Option.some.inj hd
  exact h

/-- A line break ends a number. -/
theorem endsNumber_newline (level : Nat) (rest : List Char) :
    EndsNumber (Written.newline level ++ rest) :=
  endsNumber_cons (by decide) _

/-- What begins a value on its own begins nothing else. -/
theorem ne_of_beginsScalar {c d : Char} (h : beginsScalar c = true) (hd : beginsScalar d = false) :
    c ≠ d := by
  rintro rfl
  rw [h] at hd
  cases hd

/-- What begins a value on its own is no blank. -/
theorem isBlank_of_beginsScalar {c : Char} (h : beginsScalar c = true) : isBlank c = false := by
  simp only [isBlank, Bool.or_eq_false_iff, beq_eq_false_iff_ne]
  have ne {d : Char} (hd : beginsScalar d = false) := ne_of_beginsScalar h hd
  exact ⟨⟨⟨ne rfl, ne rfl⟩, ne rfl⟩, ne rfl⟩

/-- What begins like a value on its own is read as one. -/
theorem value_of_beginsScalar {c : Char} (h : beginsScalar c = true) (room bound : Nat)
    (cs : List Char) : value room (bound + 1) (c :: cs) = scalar (c :: cs) := by
  have ne {d : Char} (hd : beginsScalar d = false) (rest : List Char) : c :: cs ≠ d :: rest :=
    fun eq => ne_of_beginsScalar h hd (List.cons.inj eq).1
  exact value_of_ne (ne rfl) (ne rfl) (ne rfl)

/-- A value on its own needs no room. -/
theorem reads_of_isScalar (h : IsScalar cs v) (n : Nat) : Reads n cs v := by
  obtain ⟨c, cs, rfl, begins⟩ := h.head
  refine ⟨⟨c, cs, rfl, isBlank_of_beginsScalar begins, ne_of_beginsScalar begins rfl⟩,
    fun {room bound rest} _ enough ends => ?_⟩
  obtain ⟨bound, rfl⟩ := Nat.exists_eq_succ_of_ne_zero (n := bound) (by omega)
  rw [List.cons_append, value_of_beginsScalar begins]
  exact h.reads ends

/-- A text needs no room. -/
theorem reads_quoted (s : CodeText) (n : Nat) : Reads n (quoted s) (.text s.joined) := by
  refine ⟨⟨'"', _, rfl, rfl, by decide⟩, fun {room bound rest} _ enough _ => ?_⟩
  obtain ⟨bound, rfl⟩ := Nat.exists_eq_succ_of_ne_zero (n := bound) (by omega)
  rw [quoted_append, value, text?_escaped]
  rfl

/-- Further items of a list, each behind a comma and a line break. -/
def further (level : Nat) (texts : List (List Char)) : List Char :=
  texts.flatMap fun t => ',' :: (Written.newline level ++ t)

/-- Of further texts, the first stands behind a comma and a line break. -/
theorem further_cons (level : Nat) (t : List Char) (ts : List (List Char)) (rest : List Char) :
    further level (t :: ts) ++ rest =
      ',' :: (Written.newline level ++ (t ++ (further level ts ++ rest))) := by
  simp [further]

/-- **The items of a list are read to the bracket.** -/
theorem items_append {level outer bound : Nat} {t : List Char} {v : Value} {ts : List (List Char)}
    {vs : List Value} (h : Reads n t v) (hs : List.Forall₂ (Reads n) ts vs) (fits : n ≤ room)
    (enough : 2 * (t ++ further level ts).length < bound) :
    items room (bound + 1) (t ++ (further level ts ++ (Written.newline outer ++ ']' :: rest))) =
      .ok (v :: vs, rest) := by
  induction hs generalizing t v bound with
  | nil =>
    rw [further, List.flatMap_nil, List.append_nil] at enough
    rw [items, further, List.flatMap_nil, List.nil_append,
      h.reads fits enough (endsNumber_newline outer _)]
    simp only [bind, Except.bind, skipBlanks_newline, skipBlanks_cons (c := ']') rfl]
    rfl
  | @cons t' v' ts vs h' hs ih =>
    rw [List.length_append, ← List.append_nil (further _ _), further_cons] at enough
    simp only [List.length_cons, List.length_append, List.length_nil] at enough
    obtain ⟨bound, rfl⟩ := Nat.exists_eq_succ_of_ne_zero (n := bound) (by omega)
    rw [further_cons, items, h.reads fits (by omega) (endsNumber_cons (by decide) _)]
    simp only [bind, Except.bind, skipBlanks_newline, skipBlanks_cons (c := ',') rfl,
      h'.skipBlanks_append]
    rw [ih h' (by simp only [List.length_append]; omega)]
    rfl

/-- What is read behind the value of an entry. -/
def entriesBehind (room bound : Nat) (e : CodeText × Value) (rest : List Char) :
    Except Unreadable (List (CodeText × Value) × List Char) :=
  match skipBlanks rest with
  | '\x7d' :: rest => .ok ([e], rest)
  | ',' :: rest => do
    let (more, rest) ← entries room bound (skipBlanks rest)
    return (e :: more, rest)
  | _ => .error .malformed

/-- An entry is read as it stands: key, colon and value. -/
theorem entries_entry {bound : Nat} {t : List Char} {e : CodeText × Value} (h : ReadsEntry n t e)
    (fits : n ≤ room) (enough : 2 * t.length < bound) (ends : EndsNumber rest) :
    entries room (bound + 1) (t ++ rest) = entriesBehind room bound e rest := by
  obtain ⟨k, t, joined, rfl, h⟩ := h
  simp only [List.length_append, List.length_cons] at enough
  have read : value room bound (t ++ rest) = .ok (e.2, rest) := h.reads fits (by omega) ends
  rw [List.append_assoc, quoted_append, entries, List.cons_append, List.cons_append,
    text?_escaped]
  simp only [joined, required, bind, Except.bind, skipBlanks_cons (c := ':') rfl,
    skipBlanks_cons_of_blank (c := ' ') rfl, h.skipBlanks_append, read]
  rfl

/-- **The entries of a dictionary are read to the brace.** -/
theorem entries_append {level outer bound : Nat} {t : List Char} {e : CodeText × Value}
    {ts : List (List Char)} {es : List (CodeText × Value)} (h : ReadsEntry n t e)
    (hs : List.Forall₂ (ReadsEntry n) ts es) (fits : n ≤ room)
    (enough : 2 * (t ++ further level ts).length < bound) :
    entries room (bound + 1)
        (t ++ (further level ts ++ (Written.newline outer ++ '\x7d' :: rest))) =
      .ok (e :: es, rest) := by
  induction hs generalizing t e bound with
  | nil =>
    rw [further, List.flatMap_nil, List.append_nil] at enough
    rw [further, List.flatMap_nil, List.nil_append,
      entries_entry h fits enough (endsNumber_newline _ _), entriesBehind, skipBlanks_newline,
      skipBlanks_cons (c := '\x7d') rfl]
    rfl
  | @cons t' e' ts es h' hs ih =>
    rw [List.length_append, ← List.append_nil (further _ _), further_cons] at enough
    simp only [List.length_cons, List.length_append, List.length_nil] at enough
    obtain ⟨bound, rfl⟩ := Nat.exists_eq_succ_of_ne_zero (n := bound) (by omega)
    rw [further_cons, entries_entry h fits (by omega) (endsNumber_cons (by decide) _),
      entriesBehind, skipBlanks_cons (c := ',') rfl]
    simp only [skipBlanks_newline, h'.skipBlanks_append]
    rw [ih h' (by simp only [List.length_append]; omega)]
    rfl

/-- Texts between brackets as they are written: each on a line of its own, one level further in. -/
def bracketed (opening closing : Char) (level : Nat) : List (List Char) → List Char
  | [] => [opening, closing]
  | t :: ts =>
    opening :: (Written.newline (level + 1) ++ (t ++ (further (level + 1) ts ++
      (Written.newline level ++ [closing]))))

/-- The texts of a container stand between its brackets, each on a line of its own. -/
theorem bracketed_cons_append (opening closing : Char) (level : Nat) (t : List Char)
    (ts : List (List Char)) (rest : List Char) :
    bracketed opening closing level (t :: ts) ++ rest =
      opening :: (Written.newline (level + 1) ++ (t ++ (further (level + 1) ts ++
        (Written.newline level ++ closing :: rest)))) := by
  simp [bracketed]

/-- **A list reads back if its items do.** -/
theorem reads_list (level : Nat) {ts : List (List Char)} {vs : List Value}
    (h : List.Forall₂ (Reads n) ts vs) : Reads (n + 1) (bracketed '[' ']' level ts) (.list vs) := by
  refine ⟨?_, fun {room bound rest} fits enough _ => ?_⟩
  · cases h <;> exact ⟨'[', _, rfl, rfl, by decide⟩
  obtain ⟨room, rfl⟩ := Nat.exists_eq_succ_of_ne_zero (n := room) (by omega)
  cases h with
  | nil =>
    obtain ⟨bound, rfl⟩ := Nat.exists_eq_succ_of_ne_zero (n := bound) (by omega)
    rfl
  | @cons t v ts vs h hs =>
    rw [← List.append_nil (bracketed _ _ _ _), bracketed_cons_append] at enough
    simp only [List.length_cons, List.length_append, List.length_nil] at enough
    obtain ⟨bound, rfl⟩ : ∃ n, bound = n + 2 := ⟨bound - 2, by omega⟩
    have start (rest : List Char) := (skipBlanks_newline (level + 1) _).trans
      (h.skipBlanks_append rest)
    rw [bracketed_cons_append, value_list (start _) (h.append_ne_cons _),
      items_append h hs (by omega) (by simp only [List.length_append]; omega)]
    rfl

/-- **A dictionary reads back if its entries do,** the last of several values of a key counting. -/
theorem reads_dictionary (level : Nat) {ts : List (List Char)} {d : List (CodeText × Value)}
    (h : List.Forall₂ (ReadsEntry n) ts d) :
    Reads (n + 1) (bracketed '\x7b' '\x7d' level ts) (.dictionary (Dictionary.ofEntries d)) := by
  refine ⟨?_, fun {room bound rest} fits enough _ => ?_⟩
  · cases h <;> exact ⟨'\x7b', _, rfl, rfl, by decide⟩
  obtain ⟨room, rfl⟩ := Nat.exists_eq_succ_of_ne_zero (n := room) (by omega)
  cases h with
  | nil =>
    obtain ⟨bound, rfl⟩ := Nat.exists_eq_succ_of_ne_zero (n := bound) (by omega)
    rfl
  | @cons t e ts d h hs =>
    rw [← List.append_nil (bracketed _ _ _ _), bracketed_cons_append] at enough
    simp only [List.length_cons, List.length_append, List.length_nil] at enough
    obtain ⟨bound, rfl⟩ : ∃ n, bound = n + 2 := ⟨bound - 2, by omega⟩
    have start (rest : List Char) := (skipBlanks_newline (level + 1) _).trans
      (h.skipBlanks_append rest)
    rw [bracketed_cons_append, value_dictionary (start _) (h.append_ne_cons _),
      entries_append h hs (by omega) (by simp only [List.length_append]; omega)]
    rfl

end Json

namespace Written

/-- Texts that are written one after the other are one text. -/
theorem ofText_append (a b : List Char) : ofText a ++ ofText b = ofText (a ++ b) := rfl

/-- A part that could be written stands behind what is in front of it. -/
theorem behind_of_ofText {p : Part} {t : List Char} (h : p.written = ofText t)
    (front : List Char) : p.behind front = ofText (front ++ t) := by
  rw [Part.behind, h, if_neg fun stopped => stopped.2 rfl, ofText_append]

/-- Parts that could be written follow each other as they stand. -/
theorem following_eq (level : Nat) {ps : List Part} {ts : List (List Char)}
    (h : ps.map Part.written = ts.map ofText) :
    following level ps = ofText (Json.further level ts) := by
  induction ps generalizing ts with
  | nil =>
    obtain rfl := List.map_eq_nil_iff.1 h.symm
    rfl
  | cons p ps ih =>
    obtain ⟨t, ts, rfl, ht, hts⟩ := List.map_eq_cons_iff.1 h.symm
    rw [following, behind_of_ofText ht.symm, ih hts.symm, ofText_append]
    simp [Json.further]

/-- Parts that could be written are between brackets as they stand, if there are calls for it. -/
theorem enclosed_eq (opening closing : Char) {calls : Nat} (enough : 2 ≤ calls) (level : Nat)
    {ps : List Part} {ts : List (List Char)} (h : ps.map Part.written = ts.map ofText) :
    enclosed opening closing calls level ps =
      ofText (Json.bracketed opening closing level ts) := by
  cases ps with
  | nil =>
    obtain rfl := List.map_eq_nil_iff.1 h.symm
    rfl
  | cons p ps =>
    obtain ⟨t, ts, rfl, ht, hts⟩ := List.map_eq_cons_iff.1 h.symm
    rw [enclosed, needing, if_neg (Nat.not_lt.2 enough), behind_of_ofText ht.symm,
      following_eq _ hts.symm, ofText_append, ofText_append]
    simp [Json.bracketed]

end Written

namespace Json

/-- The items of a list are written if every one is. -/
theorem exists_writeItems {calls level : Nat} {vs : List Value}
    (h : ∀ v ∈ vs, ∃ t, write calls level v = .ofText t ∧ Reads n t v) :
    ∃ ts : List (List Char), (writeItems calls level vs).map Written.Part.written =
      ts.map .ofText ∧ List.Forall₂ (Reads n) ts vs := by
  induction vs with
  | nil => exact ⟨[], rfl, .nil⟩
  | cons v vs ih =>
    obtain ⟨⟨t, ht, reads⟩, h⟩ := List.forall_mem_cons.1 h
    obtain ⟨ts, hts, all⟩ := ih h
    exact ⟨t :: ts, by rw [writeItems, List.map_cons, ht, hts, List.map_cons], .cons reads all⟩

/-- The entries of a dictionary are written if every value is. -/
theorem exists_writeEntries {calls level : Nat} {es : List (CodeText × Value)}
    (keys : ∀ e ∈ es, e.1.IsJoined)
    (h : ∀ e ∈ es, ∃ t, write calls level e.2 = .ofText t ∧ Reads n t e.2) :
    ∃ ts : List (List Char), (writeEntries calls level es).map Written.Part.written =
      ts.map .ofText ∧ List.Forall₂ (ReadsEntry n) ts es := by
  induction es with
  | nil => exact ⟨[], rfl, .nil⟩
  | cons e es ih =>
    obtain ⟨k, v⟩ := e
    obtain ⟨joined, keys⟩ := List.forall_mem_cons.1 keys
    obtain ⟨⟨t, ht, reads⟩, h⟩ := List.forall_mem_cons.1 h
    obtain ⟨ts, hts, all⟩ := ih keys h
    refine ⟨(quoted k ++ ':' :: ' ' :: t) :: ts, ?_,
      .cons ⟨k, t, CodeText.joined_of_isJoined joined, rfl, reads⟩ all⟩
    rw [writeEntries, List.map_cons, ht, hts, List.map_cons, Written.ofText_append,
      List.append_assoc]
    rfl

/-- **The written form of a value that a file can hold is read as the value,** if there are calls
enough for the writing and room enough for the reading. -/
theorem exists_write (h : v.IsStorable) {calls : Nat} (fits : v.nesting ≤ n)
    (enough : n + 2 ≤ calls) (level : Nat) :
    ∃ t, write calls level v = .ofText t ∧ Reads n t v := by
  induction h generalizing n calls level with
  | null => exact ⟨_, rfl, reads_of_isScalar isScalar_null n⟩
  | bool b => exact ⟨_, rfl, reads_of_isScalar (isScalar_bool b) n⟩
  | @integer i short =>
    refine ⟨_, ?_, reads_of_isScalar (isScalar_toString short) n⟩
    rw [write, wholeNumber, if_neg (by omega)]
  | number x =>
    refine ⟨_, ?_, reads_of_isScalar (isScalar_number x) n⟩
    rw [write, Written.needing, if_neg (by omega)]
  | @text s joined =>
    have reads := reads_quoted s n
    rw [CodeText.joined_of_isJoined joined] at reads
    exact ⟨_, rfl, reads⟩
  | @list items _ ih =>
    obtain ⟨n, rfl, inside⟩ := Value.nesting_list_le_iff.1 fits
    have fewer : n + 2 ≤ calls - 1 := by omega
    obtain ⟨ts, written, reads⟩ := exists_writeItems fun v hv =>
      ih v hv (inside v hv) fewer (level + 1)
    exact ⟨_, by rw [write, Written.enclosed_eq _ _ (by omega) level written],
      reads_list level reads⟩
  | @dictionary entries nodup keys _ ih =>
    obtain ⟨n, rfl, inside⟩ := Value.nesting_dictionary_le_iff.1 fits
    have fewer : n + 2 ≤ calls - 1 := by omega
    obtain ⟨ts, written, reads⟩ := exists_writeEntries keys fun e he =>
      ih e he (inside e he) fewer (level + 1)
    have reads := reads_dictionary level reads
    rw [Dictionary.ofEntries_eq_self nodup] at reads
    exact ⟨_, by rw [write, Written.enclosed_eq _ _ (by omega) level written], reads⟩

/-- **What has been written is what is read,** if there is room for it. -/
theorem read_write (h : v.IsStorable) {calls : Nat} (fits : v.nesting ≤ room + 1)
    (enough : room + 3 ≤ calls) (level : Nat) :
    (write calls level v).obstacle = none ∧ read room (write calls level v).text = .ok v := by
  obtain ⟨t, written, reads⟩ := exists_write h fits enough level
  have all := reads.reads (Nat.le_refl _) (Nat.lt_succ_self (2 * t.length)) endsNumber_nil
  have start := reads.skipBlanks_append []
  rw [List.append_nil] at all start
  rw [written]
  refine ⟨rfl, ?_⟩
  simp only [Written.ofText, read, start, all]
  rfl

end Json
end Settings
end DeskCalculator

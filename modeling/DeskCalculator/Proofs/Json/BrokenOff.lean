/-
# Documents that break off

Writing that is stopped leaves the text in front of the value that stopped it.  Every container
around that value is open then, the items in front of it stand there as a whole, and behind them the
text breaks off (`CutRow`).  Such a text shows no value: the reader takes in the whole items one by
one and meets the end where a comma, a key or nothing at all announces what was to follow
(`items_of_cutRow`, `entries_of_cutRow`).

So the written form of any value is of one of two kinds (`leaves_write`): it is read as some value,
or it breaks off and is read as none.  It breaks off if a value that cannot be written stands
anywhere in it, however deep and whatever stands in front (`read_write_of_hasUnwritable`).  The
containers that are open at the end have to be read too, so the reader may run out of room before it
comes to the end (`read_foreignIn`); but it finds no value then either
(`read_write_of_hasUnwritable_cases`).
-/

import DeskCalculator.Proofs.Json.RoundTrip

namespace DeskCalculator
namespace Settings

/-- A value that cannot be written stands in a value, at any depth: a foreign one, or a whole number
of more than 4300 digits. -/
inductive Value.HasUnwritable : Value → Prop
  | foreign : HasUnwritable .foreign
  | integer {i : Int} (long : Text.maxDigits < (Nat.toDigits 10 i.natAbs).length) :
      HasUnwritable (.integer i)
  | item {v : Value} {items : List Value} (mem : v ∈ items) (inside : HasUnwritable v) :
      HasUnwritable (.list items)
  | entry {e : CodeText × Value} {entries : List (CodeText × Value)} (mem : e ∈ entries)
      (inside : HasUnwritable e.2) : HasUnwritable (.dictionary entries)

namespace Written

/-- What is written in three parts is the same in either grouping. -/
theorem append_assoc (a b c : Written) : a ++ b ++ c = a ++ (b ++ c) := by
  obtain ⟨s, obstacle⟩ := a
  cases obstacle with
  | some o => rfl
  | none =>
    obtain ⟨t, obstacle⟩ := b
    cases obstacle with
    | some o => rfl
    | none => exact congrArg (Written.mk · c.obstacle) (List.append_assoc s t c.text)

/-- Two things can be written one behind the other only if each can. -/
theorem obstacle_append_eq_none {a b : Written} (h : (a ++ b).obstacle = none) :
    a.obstacle = none ∧ b.obstacle = none := by
  obtain ⟨s, obstacle⟩ := a
  cases obstacle with
  | none => exact ⟨rfl, h⟩
  | some o => cases h

/-- What can be written behind something can be written. -/
theorem obstacle_of_behind {front : List Char} {p : Part} (h : (p.behind front).obstacle = none) :
    p.written.obstacle = none := by
  unfold Part.behind at h
  split at h
  · exact h
  · exact (obstacle_append_eq_none h).2

/-- Parts can be written one behind the other only if each can. -/
theorem obstacle_of_following {level : Nat} {ps : List Part}
    (h : (following level ps).obstacle = none) : ∀ p ∈ ps, p.written.obstacle = none := by
  induction ps with
  | nil => exact List.forall_mem_nil _
  | cons p ps ih =>
    obtain ⟨first, h⟩ := obstacle_append_eq_none h
    exact List.forall_mem_cons.2 ⟨obstacle_of_behind first, ih h⟩

/-- A container can be written only if all that is in it can. -/
theorem obstacle_of_enclosed {opening closing : Char} {calls level : Nat} {ps : List Part}
    (h : (enclosed opening closing calls level ps).obstacle = none) :
    ∀ p ∈ ps, p.written.obstacle = none := by
  cases ps with
  | nil => exact List.forall_mem_nil _
  | cons p ps =>
    rw [enclosed, needing] at h
    split at h
    · cases h
    obtain ⟨first, h⟩ := obstacle_append_eq_none h
    exact List.forall_mem_cons.2
      ⟨obstacle_of_behind first, obstacle_of_following (obstacle_append_eq_none h).1⟩

/-- What a writing leaves: a whole text, or one that is cut where the writing was stopped. -/
inductive Leaves (Whole Cut : List Char → Prop) : Written → Prop
  | whole {t : List Char} (h : Whole t) : Leaves Whole Cut (.ofText t)
  | cut {t : List Char} {o : Unwritable} (h : Cut t) : Leaves Whole Cut ⟨t, some o⟩

/-- A writing that was stopped leaves a text that is cut. -/
theorem Leaves.cut_text {Whole Cut : List Char → Prop} {w : Written} (h : w.Leaves Whole Cut)
    (stopped : w.obstacle ≠ none) : Cut w.text := by
  cases h with
  | whole h => exact absurd rfl stopped
  | cut h => exact h

/-- What a part leaves. A part that is one piece with what is in front of it leaves nothing of its
own where it is stopped. -/
def Part.Leaves (Whole Cut : List Char → Prop) (p : Part) : Prop :=
  p.written.Leaves Whole Cut ∧ (p.isPiece → p.written.obstacle ≠ none → p.written.text = [])

/-- Whole items, each with the comma and the line break behind it.  At last there is an item that is
cut, or nothing at all behind a whole one. -/
inductive CutRow (level : Nat) (Whole Cut : List Char → Prop) : List Char → Prop
  | cut {t : List Char} (h : Cut t) : CutRow level Whole Cut t
  | last {t : List Char} (h : Whole t) : CutRow level Whole Cut t
  | whole {t cs : List Char} (h : Whole t) (more : CutRow level Whole Cut cs) :
      CutRow level Whole Cut (t ++ ',' :: (newline level ++ cs))

variable {Whole Cut : List Char → Prop}

/-- A part that is stopped leaves nothing, not even what is in front of it, or is cut after that. -/
theorem Part.Leaves.behind {p : Part} (h : p.Leaves Whole Cut) (front : List Char) :
    (∃ t, p.written = ofText t ∧ Whole t) ∨
      ∃ o, p.behind front = ⟨[], some o⟩ ∨ ∃ t, p.behind front = ⟨front ++ t, some o⟩ ∧ Cut t := by
  obtain ⟨isPiece, written⟩ := p
  obtain ⟨leaves, piece⟩ := h
  cases leaves with
  | @whole t h => exact .inl ⟨t, rfl, h⟩
  | @cut t o h =>
    refine .inr ⟨o, ?_⟩
    cases isPiece with
    | true =>
      obtain rfl : t = [] := piece rfl (Option.some_ne_none o)
      exact .inl (if_pos ⟨rfl, Option.some_ne_none o⟩)
    | false => exact .inr ⟨t, if_neg fun one => Bool.false_ne_true one.1, h⟩

/-- Parts that are written one behind the other are all whole, or the row of them is cut, or nothing
of it is there. -/
theorem leaves_following (level : Nat) {p : Part} {ps : List Part} (front : List Char)
    (h : ∀ p' ∈ p :: ps, p'.Leaves Whole Cut) :
    (∃ ts : List (List Char), (p :: ps).map Part.written = ts.map ofText ∧ ∀ t ∈ ts, Whole t) ∨
      ∃ o, p.behind front ++ following level ps = ⟨[], some o⟩ ∨
        ∃ cs, p.behind front ++ following level ps = ⟨front ++ cs, some o⟩ ∧
          CutRow level Whole Cut cs := by
  induction ps generalizing p front with
  | nil =>
    rcases (h p List.mem_cons_self).behind front with
      ⟨t, ht, whole⟩ | ⟨o, nothing | ⟨t, ht, cut⟩⟩
    · exact .inl ⟨[t], by rw [List.map_singleton, ht, List.map_singleton],
        List.forall_mem_singleton.2 whole⟩
    · exact .inr ⟨o, .inl (by rw [nothing]; rfl)⟩
    · exact .inr ⟨o, .inr ⟨t, by rw [ht]; rfl, .cut cut⟩⟩
  | cons p' ps ih =>
    obtain ⟨first, others⟩ := List.forall_mem_cons.1 h
    rcases first.behind front with ⟨t, ht, whole⟩ | ⟨o, nothing | ⟨t, ht, cut⟩⟩
    · rw [behind_of_ofText ht, following]
      rcases ih (',' :: newline level) others with
        ⟨ts, eq, all⟩ | ⟨o, nothing | ⟨cs, eq, row⟩⟩
      · refine .inl ⟨t :: ts, ?_, List.forall_mem_cons.2 ⟨whole, all⟩⟩
        rw [List.map_cons, ht, eq, List.map_cons]
      · refine .inr ⟨o, .inr ⟨t, ?_, .last whole⟩⟩
        rw [nothing]
        exact congrArg (Written.mk · (some o)) (List.append_nil _)
      · refine .inr ⟨o, .inr ⟨_, ?_, .whole whole row⟩⟩
        rw [eq]
        exact congrArg (Written.mk · (some o)) (List.append_assoc front t _)
    · exact .inr ⟨o, .inl (by rw [nothing]; rfl)⟩
    · exact .inr ⟨o, .inr ⟨t, by rw [ht]; rfl, .cut cut⟩⟩

/-- A container is whole if its parts are, and otherwise left open behind a row that is cut, if
there is anything of it. -/
theorem leaves_enclosed {opening closing : Char} {calls level : Nat} {ps : List Part}
    {Whole' Cut' : List Char → Prop} (h : ∀ p ∈ ps, p.Leaves Whole Cut)
    (closed : ∀ ts : List (List Char), (∀ t ∈ ts, Whole t) →
      Whole' (Json.bracketed opening closing level ts)) (nothing : Cut' [])
    (left : ∀ cs, CutRow (level + 1) Whole Cut cs → Cut' (opening :: (newline (level + 1) ++ cs))) :
    (enclosed opening closing calls level ps).Leaves Whole' Cut' := by
  cases ps with
  | nil => exact .whole (closed [] (List.forall_mem_nil _))
  | cons p ps =>
    by_cases few : calls < 2
    · rw [enclosed, needing, if_pos few]
      exact .cut nothing
    rcases leaves_following (level + 1) (opening :: newline (level + 1)) h with
      ⟨ts, eq, all⟩ | ⟨o, eq | ⟨cs, eq, row⟩⟩
    · rw [enclosed_eq _ _ (Nat.le_of_not_lt few) level eq]
      exact .whole (closed ts all)
    · rw [enclosed, needing, if_neg few, ← append_assoc, eq]
      exact .cut nothing
    · rw [enclosed, needing, if_neg few, ← append_assoc, eq]
      exact .cut (left cs row)

end Written

namespace Json

open Written (CutRow)

variable {level n room bound : Nat} {cs : List Char}

/-- A text that is read as some value, if there is room for so many containers. -/
def Readable (n : Nat) (cs : List Char) : Prop := ∃ v, Reads n cs v

/-- A text that is read as some entry of a dictionary, if there is room for so many containers. -/
def ReadableEntry (n : Nat) (cs : List Char) : Prop := ∃ e, ReadsEntry n cs e

/-- A text that ends before it has shown a value, whatever room there is for containers beyond a
number of them. -/
structure BreaksOff (n : Nat) (cs : List Char) : Prop where
  head : ∀ c cs', cs = c :: cs' → isBlank c = false ∧ c ≠ ']'
  malformed : ∀ {room bound}, n ≤ room → 2 * cs.length < bound →
    value room bound cs = .error .malformed

/-- A key in front of a text that ends before it has shown a value. -/
def EntryBreaksOff (n : Nat) (cs : List Char) : Prop :=
  ∃ k t, cs = quoted k ++ ':' :: ' ' :: t ∧ BreaksOff n t

/-- Where nothing is, nothing is shown. -/
theorem breaksOff_nil (n : Nat) : BreaksOff n [] := by
  refine ⟨nofun, fun {room bound} _ enough => ?_⟩
  obtain ⟨bound, rfl⟩ := Nat.exists_eq_succ_of_ne_zero (n := bound) (by omega)
  rfl

/-- A text that begins with no blank has none to skip. -/
theorem skipBlanks_eq_self (h : ∀ c cs', cs = c :: cs' → isBlank c = false) :
    skipBlanks cs = cs := by
  cases cs with
  | nil => rfl
  | cons c cs => exact skipBlanks_cons (h c cs rfl) cs

/-- A text that is cut within a value does not begin with a blank. -/
theorem BreaksOff.skipBlanks (h : BreaksOff n cs) : skipBlanks cs = cs :=
  skipBlanks_eq_self fun c cs' eq => (h.head c cs' eq).1

/-- A text that is cut within an entry begins with the quote of its key. -/
theorem EntryBreaksOff.head (h : EntryBreaksOff n cs) : ∃ cs', cs = '"' :: cs' := by
  obtain ⟨k, t, rfl, -⟩ := h
  exact ⟨_, quoted_append k _⟩

/-- What shows a value begins neither with a blank nor with the bracket behind a list. -/
theorem Readable.head (h : Readable n cs) (rest : List Char) :
    ∀ c cs', cs ++ rest = c :: cs' → isBlank c = false ∧ c ≠ ']' := by
  obtain ⟨v, h⟩ := h
  obtain ⟨d, ds, rfl, notBlank, ne⟩ := h.head
  intro c cs' eq
  obtain rfl : d = c := (List.cons.inj eq).1
  exact ⟨notBlank, ne⟩

/-- What shows an entry begins with the quote of its key. -/
theorem ReadableEntry.head (h : ReadableEntry n cs) : ∃ cs', cs = '"' :: cs' := by
  obtain ⟨e, k, t, -, rfl, -⟩ := h
  exact ⟨_, quoted_append k _⟩

/-- A row of items that is cut begins neither with a blank nor with the bracket behind a list. -/
theorem head_of_cutRow (h : CutRow level (Readable n) (BreaksOff n) cs) :
    ∀ c cs', cs = c :: cs' → isBlank c = false ∧ c ≠ ']' := by
  cases h with
  | cut h => exact h.head
  | last h => simpa using h.head []
  | whole h more => exact h.head _

/-- A row of entries that is cut begins with the quote of a key. -/
theorem head_of_cutRow_entry (h : CutRow level (ReadableEntry n) (EntryBreaksOff n) cs) :
    ∃ cs', cs = '"' :: cs' := by
  cases h with
  | cut h => exact h.head
  | last h => exact h.head
  | whole h more =>
    obtain ⟨cs', rfl⟩ := h.head
    exact ⟨_, rfl⟩

/-- Entries that are cut do not begin with a blank. -/
theorem skipBlanks_of_cutRow_entry (h : CutRow level (ReadableEntry n) (EntryBreaksOff n) cs) :
    skipBlanks cs = cs := by
  obtain ⟨cs, rfl⟩ := head_of_cutRow_entry h
  exact skipBlanks_cons rfl cs

/-- **A row of items that is cut is no row of items.** -/
theorem items_of_cutRow (h : CutRow level (Readable n) (BreaksOff n) cs) (fits : n ≤ room)
    (enough : 2 * cs.length < bound) : items room (bound + 1) cs = .error .malformed := by
  induction h generalizing bound with
  | cut h =>
    rw [items, h.malformed fits enough]
    rfl
  | @last t h =>
    obtain ⟨v, h⟩ := h
    have whole := h.reads fits enough endsNumber_nil
    rw [List.append_nil] at whole
    rw [items, whole]
    rfl
  | whole h more ih =>
    obtain ⟨v, h⟩ := h
    simp only [List.length_append, List.length_cons] at enough
    obtain ⟨bound, rfl⟩ := Nat.exists_eq_succ_of_ne_zero (n := bound) (by omega)
    have start := skipBlanks_eq_self fun c cs' eq => (head_of_cutRow more c cs' eq).1
    rw [items, h.reads fits (by omega) (endsNumber_cons (by decide) _)]
    simp only [bind, Except.bind, skipBlanks_cons (c := ',') rfl, skipBlanks_newline, start]
    rw [ih (by omega)]

/-- An entry that breaks off is no entry. -/
theorem entries_of_entryBreaksOff (h : EntryBreaksOff n cs) (fits : n ≤ room)
    (enough : 2 * cs.length < bound) : entries room (bound + 1) cs = .error .malformed := by
  obtain ⟨k, t, rfl, h⟩ := h
  simp only [List.length_append, List.length_cons] at enough
  rw [quoted_append, entries, text?_escaped]
  simp only [required, bind, Except.bind, skipBlanks_cons (c := ':') rfl,
    skipBlanks_cons_of_blank (c := ' ') rfl, h.skipBlanks]
  rw [h.malformed fits (by omega)]

/-- **A row of entries that is cut is no row of entries.** -/
theorem entries_of_cutRow (h : CutRow level (ReadableEntry n) (EntryBreaksOff n) cs)
    (fits : n ≤ room) (enough : 2 * cs.length < bound) :
    entries room (bound + 1) cs = .error .malformed := by
  induction h generalizing bound with
  | cut h => exact entries_of_entryBreaksOff h fits enough
  | @last t h =>
    obtain ⟨e, h⟩ := h
    have whole := entries_entry h fits enough endsNumber_nil
    rw [List.append_nil] at whole
    rw [whole]
    rfl
  | whole h more ih =>
    obtain ⟨e, h⟩ := h
    simp only [List.length_append, List.length_cons] at enough
    obtain ⟨bound, rfl⟩ := Nat.exists_eq_succ_of_ne_zero (n := bound) (by omega)
    rw [entries_entry h fits (by omega) (endsNumber_cons (by decide) _), entriesBehind,
      skipBlanks_cons (c := ',') rfl]
    simp only [skipBlanks_newline, skipBlanks_of_cutRow_entry more]
    rw [ih (by omega)]
    rfl

/-- A list that is left open breaks off. -/
theorem breaksOff_list (h : CutRow level (Readable n) (BreaksOff n) cs) :
    BreaksOff (n + 1) ('[' :: (Written.newline level ++ cs)) := by
  refine ⟨fun c cs' eq => ?_, fun {room bound} fits enough => ?_⟩
  · obtain rfl : '[' = c := (List.cons.inj eq).1
    exact ⟨rfl, by decide⟩
  · simp only [List.length_cons, List.length_append] at enough
    obtain ⟨room, rfl⟩ := Nat.exists_eq_succ_of_ne_zero (n := room) (by omega)
    obtain ⟨bound, rfl⟩ : ∃ n, bound = n + 2 := ⟨bound - 2, by omega⟩
    have start := skipBlanks_eq_self fun c cs' eq => (head_of_cutRow h c cs' eq).1
    rw [value_list ((skipBlanks_newline level cs).trans start)
        fun rest eq => (head_of_cutRow h _ _ eq).2 rfl,
      items_of_cutRow h (by omega) (by omega)]
    rfl

/-- A dictionary that is left open breaks off. -/
theorem breaksOff_dictionary (h : CutRow level (ReadableEntry n) (EntryBreaksOff n) cs) :
    BreaksOff (n + 1) ('\x7b' :: (Written.newline level ++ cs)) := by
  refine ⟨fun c cs' eq => ?_, fun {room bound} fits enough => ?_⟩
  · obtain rfl : '\x7b' = c := (List.cons.inj eq).1
    exact ⟨rfl, by decide⟩
  · simp only [List.length_cons, List.length_append] at enough
    obtain ⟨room, rfl⟩ := Nat.exists_eq_succ_of_ne_zero (n := room) (by omega)
    obtain ⟨bound, rfl⟩ : ∃ n, bound = n + 2 := ⟨bound - 2, by omega⟩
    have start := (skipBlanks_newline level cs).trans (skipBlanks_of_cutRow_entry h)
    have ne (rest : List Char) : cs ≠ '\x7d' :: rest := by
      obtain ⟨cs', rfl⟩ := head_of_cutRow_entry h
      exact fun eq => absurd (List.cons.inj eq).1 (by decide)
    rw [value_dictionary start ne, entries_of_cutRow h (by omega) (by omega)]
    rfl

/-- A key in front of what a writing left. -/
theorem leaves_entry {w : Written} (h : w.Leaves (Readable n) (BreaksOff n)) (k : CodeText) :
    (Written.ofText (quoted k ++ [':', ' ']) ++ w).Leaves (ReadableEntry n) (EntryBreaksOff n) := by
  cases h with
  | @whole t h =>
    obtain ⟨v, h⟩ := h
    exact .whole ⟨(k.joined, v), k, t, rfl, List.append_assoc .., h⟩
  | @cut t o h => exact .cut ⟨k, t, List.append_assoc .., h⟩

/-- Texts of which each shows something show a list of things. -/
theorem exists_forall₂ {α : Type} {Shows : List Char → α → Prop} {ts : List (List Char)}
    (h : ∀ t ∈ ts, ∃ a, Shows t a) : ∃ as, List.Forall₂ Shows ts as := by
  induction ts with
  | nil => exact ⟨[], .nil⟩
  | cons t ts ih =>
    obtain ⟨⟨a, ha⟩, h⟩ := List.forall_mem_cons.1 h
    obtain ⟨as, has⟩ := ih h
    exact ⟨a :: as, .cons ha has⟩

/-- What can be taken apart no further leaves nothing where it is stopped. -/
theorem text_of_isPlain {v : Value} (plain : isPlain v = true) {calls level : Nat}
    (stopped : (write calls level v).obstacle ≠ none) : (write calls level v).text = [] := by
  cases v with
  | null => exact absurd rfl stopped
  | bool b => exact absurd rfl stopped
  | integer i =>
    rw [write, wholeNumber] at stopped ⊢
    split
    · rfl
    · rename_i short
      rw [if_neg short] at stopped
      exact absurd rfl stopped
  | number x =>
    rw [write, Written.needing] at stopped ⊢
    split
    · rfl
    · rename_i enough
      rw [if_neg enough] at stopped
      exact absurd rfl stopped
  | text s => exact absurd rfl stopped
  | list items => cases plain
  | dictionary entries => cases plain
  | foreign => cases plain

mutual

/-- **Writing a value leaves a text that is read as some value, or one that breaks off.** -/
theorem leaves_write (calls level : Nat) {n : Nat} :
    ∀ v : Value, v.nesting ≤ n → (write calls level v).Leaves (Readable n) (BreaksOff n)
  | .null, _ => .whole ⟨_, reads_of_isScalar isScalar_null n⟩
  | .bool b, _ => .whole ⟨_, reads_of_isScalar (isScalar_bool b) n⟩
  | .integer i, _ => by
    rw [write, wholeNumber]
    split
    · exact .cut (breaksOff_nil n)
    · exact .whole ⟨_, reads_of_isScalar (isScalar_toString (by omega)) n⟩
  | .number x, _ => by
    rw [write, Written.needing]
    split
    · exact .cut (breaksOff_nil n)
    · exact .whole ⟨_, reads_of_isScalar (isScalar_number x) n⟩
  | .text s, _ => .whole ⟨_, reads_quoted s n⟩
  | .list items, h => by
    obtain ⟨n, rfl, inside⟩ := Value.nesting_list_le_iff.1 h
    rw [write]
    refine Written.leaves_enclosed (leaves_writeItems (calls - 1) (level + 1) items inside)
      (fun ts all => ?_) (breaksOff_nil _) fun cs row => breaksOff_list row
    obtain ⟨vs, reads⟩ := exists_forall₂ all
    exact ⟨_, reads_list level reads⟩
  | .dictionary entries, h => by
    obtain ⟨n, rfl, inside⟩ := Value.nesting_dictionary_le_iff.1 h
    rw [write]
    refine Written.leaves_enclosed (leaves_writeEntries (calls - 1) (level + 1) entries inside)
      (fun ts all => ?_) (breaksOff_nil _) fun cs row => breaksOff_dictionary row
    obtain ⟨es, reads⟩ := exists_forall₂ all
    exact ⟨_, reads_dictionary level reads⟩
  | .foreign, _ => by
    rw [write, Written.needing]
    split <;> exact .cut (breaksOff_nil n)

/-- The same for the items of a list. -/
theorem leaves_writeItems (calls level : Nat) {n : Nat} :
    ∀ items : List Value, (∀ v ∈ items, v.nesting ≤ n) →
      ∀ p ∈ writeItems calls level items, p.Leaves (Readable n) (BreaksOff n)
  | [], _, p, mem => absurd mem List.not_mem_nil
  | v :: rest, h, p, mem => by
    obtain ⟨first, others⟩ := List.forall_mem_cons.1 h
    rw [writeItems] at mem
    rcases List.mem_cons.1 mem with rfl | mem
    · exact ⟨leaves_write calls level v first, fun plain => text_of_isPlain plain⟩
    · exact leaves_writeItems calls level rest others p mem

/-- The same for the entries of a dictionary. -/
theorem leaves_writeEntries (calls level : Nat) {n : Nat} :
    ∀ entries : List (CodeText × Value), (∀ e ∈ entries, e.2.nesting ≤ n) →
      ∀ p ∈ writeEntries calls level entries, p.Leaves (ReadableEntry n) (EntryBreaksOff n)
  | [], _, p, mem => absurd mem List.not_mem_nil
  | (k, v) :: rest, h, p, mem => by
    obtain ⟨first, others⟩ := List.forall_mem_cons.1 h
    rw [writeEntries] at mem
    rcases List.mem_cons.1 mem with rfl | mem
    · exact ⟨leaves_entry (leaves_write calls level v first) k, fun piece => nomatch piece⟩
    · exact leaves_writeEntries calls level rest others p mem

end

/-- Every item of a list is a part of what is written for them. -/
theorem exists_mem_writeItems {v : Value} {items : List Value} (mem : v ∈ items)
    (calls level : Nat) :
    ∃ p ∈ writeItems calls level items, p.written = write calls level v := by
  induction items with
  | nil => cases mem
  | cons v' rest ih =>
    rw [writeItems]
    rcases List.mem_cons.1 mem with rfl | mem
    · exact ⟨_, List.mem_cons_self, rfl⟩
    · obtain ⟨p, mem, eq⟩ := ih mem
      exact ⟨p, List.mem_cons_of_mem _ mem, eq⟩

/-- Every entry is a part of what is written for them, with its key in front. -/
theorem exists_mem_writeEntries {e : CodeText × Value} {entries : List (CodeText × Value)}
    (mem : e ∈ entries) (calls level : Nat) :
    ∃ p ∈ writeEntries calls level entries,
      p.written = .ofText (quoted e.1 ++ [':', ' ']) ++ write calls level e.2 := by
  induction entries with
  | nil => cases mem
  | cons e' rest ih =>
    rw [writeEntries]
    rcases List.mem_cons.1 mem with rfl | mem
    · exact ⟨_, List.mem_cons_self, rfl⟩
    · obtain ⟨p, mem, eq⟩ := ih mem
      exact ⟨p, List.mem_cons_of_mem _ mem, eq⟩

/-- **A value that cannot be written stops the writing, wherever it stands.** -/
theorem obstacle_write_ne_none {v : Value} (h : v.HasUnwritable) (calls level : Nat) :
    (write calls level v).obstacle ≠ none := by
  induction h generalizing calls level with
  | foreign =>
    rw [write, Written.needing]
    split <;> exact Option.some_ne_none _
  | integer long =>
    rw [write, wholeNumber, if_pos long]
    exact Option.some_ne_none _
  | item mem _ ih =>
    rw [write]
    intro all
    obtain ⟨p, mem, eq⟩ := exists_mem_writeItems mem (calls - 1) (level + 1)
    exact ih _ _ (eq ▸ Written.obstacle_of_enclosed all p mem)
  | entry mem _ ih =>
    rw [write]
    intro all
    obtain ⟨p, mem, eq⟩ := exists_mem_writeEntries mem (calls - 1) (level + 1)
    have alone := Written.obstacle_of_enclosed all p mem
    rw [eq] at alone
    exact ih _ _ (Written.obstacle_append_eq_none alone).2

/-- **What is left of a value that cannot be written is no document,** and it is refused as
malformed where there is room for the containers of the value. -/
theorem read_write_of_hasUnwritable {v : Value} (h : v.HasUnwritable) (calls level : Nat)
    (fits : v.nesting ≤ room + 1) :
    read room (write calls level v).text = .error .malformed := by
  have cut := (leaves_write calls level v fits).cut_text (obstacle_write_ne_none h calls level)
  rw [read, cut.skipBlanks, cut.malformed (Nat.le_refl _) (Nat.lt_succ_self _)]
  rfl

/-- **However little room there is, what is left shows no value:** it is malformed, or it opens more
containers than there is room for. -/
theorem read_write_of_hasUnwritable_cases {v : Value} (h : v.HasUnwritable)
    (room calls level : Nat) :
    read room (write calls level v).text = .error .malformed ∨
      read room (write calls level v).text = .error .tooNested := by
  by_cases deep : read room (write calls level v).text = .error .tooNested
  · exact .inr deep
  left
  have fits : v.nesting ≤ max room v.nesting + 1 := by omega
  rw [← read_of_le _ (Nat.le_max_left room v.nesting) deep]
  exact read_write_of_hasUnwritable h calls level fits

/-! ## Too many open containers -/

/-- A foreign value inside so many lists of one item. -/
def foreignIn : Nat → Value
  | 0 => .foreign
  | n + 1 => .list [foreignIn n]

/-- A text in front of something written stands in front of its text. -/
theorem text_ofText_append (text : List Char) (w : Written) :
    (.ofText text ++ w : Written).text = text ++ w.text := rfl

/-- What is written first stays in front. -/
theorem exists_text_append (a b : Written) : ∃ rest, (a ++ b).text = a.text ++ rest := by
  obtain ⟨text, obstacle⟩ := a
  cases obstacle with
  | none => exact ⟨b.text, rfl⟩
  | some o => exact ⟨[], (List.append_nil text).symm⟩

/-- A container begins with its bracket and what is written of its first part, if that is no piece
with the bracket. -/
theorem exists_text_enclosed {opening closing : Char} {calls : Nat} (enough : 2 ≤ calls)
    (level : Nat) (w : Written) (parts : List Written.Part) :
    ∃ rest, (Written.enclosed opening closing calls level (⟨false, w⟩ :: parts)).text =
      opening :: (Written.newline (level + 1) ++ (w.text ++ rest)) := by
  rw [Written.enclosed, Written.needing, if_neg (Nat.not_lt.2 enough), Written.Part.behind,
    if_neg fun one => Bool.false_ne_true one.1, Written.append_assoc]
  obtain ⟨rest, eq⟩ := exists_text_append w (Written.following (level + 1) parts ++
    .ofText (Written.newline level ++ [closing]))
  refine ⟨rest, ?_⟩
  rw [← eq]
  rfl

/-- The outermost of the lists is written as far as its bracket, and then the next one. -/
theorem exists_text_foreignIn (n : Nat) {calls : Nat} (enough : 2 ≤ calls) (level : Nat) :
    ∃ rest, (write calls level (foreignIn (n + 1))).text =
      '[' :: (Written.newline (level + 1) ++
        ((write (calls - 1) (level + 1) (foreignIn n)).text ++ rest)) := by
  have apart : isPlain (foreignIn n) = false := by cases n <;> rfl
  rw [foreignIn, write, writeItems, writeItems, apart]
  exact exists_text_enclosed enough level _ _

/-- Containers around a foreign value begin with a bracket. -/
theorem exists_head_foreignIn {n calls : Nat} (pos : 0 < n) (enough : 2 ≤ calls) (level : Nat) :
    ∃ cs, (write calls level (foreignIn n)).text = '[' :: cs := by
  obtain ⟨n, rfl⟩ := Nat.exists_eq_succ_of_ne_zero (Nat.ne_of_gt pos)
  obtain ⟨_, eq⟩ := exists_text_foreignIn n enough level
  exact ⟨_, eq⟩

/-- **Of lists inside each other, the reader refuses the first one that there is no room for.** -/
theorem value_foreignIn {n calls level : Nat} (deep : room < n) (enough : room + 2 ≤ calls)
    (steps : 2 * (write calls level (foreignIn n)).text.length < bound) (rest : List Char) :
    value room bound ((write calls level (foreignIn n)).text ++ rest) = .error .tooNested := by
  induction room generalizing n calls level bound rest with
  | zero =>
    obtain ⟨n, rfl⟩ := Nat.exists_eq_succ_of_ne_zero (n := n) (by omega)
    obtain ⟨bound, rfl⟩ := Nat.exists_eq_succ_of_ne_zero (n := bound) (by omega)
    obtain ⟨behind, eq⟩ := exists_text_foreignIn n enough level
    rw [eq]
    rfl
  | succ room ih =>
    obtain ⟨n, rfl⟩ : ∃ k, n = k + 2 := ⟨n - 2, by omega⟩
    have fewer : room + 2 ≤ calls - 1 := by omega
    obtain ⟨behind, eq⟩ := exists_text_foreignIn (n + 1) (Nat.le_of_add_left_le enough) level
    obtain ⟨cs, head⟩ :=
      exists_head_foreignIn n.succ_pos (Nat.le_of_add_left_le fewer) (level + 1)
    rw [eq, List.length_cons, List.length_append, List.length_append] at steps
    obtain ⟨bound, rfl⟩ : ∃ k, bound = k + 2 := ⟨bound - 2, by omega⟩
    have steps' : 2 * (write (calls - 1) (level + 1) (foreignIn (n + 1))).text.length < bound := by
      omega
    have inner := ih (Nat.lt_of_succ_lt_succ deep) fewer steps' (behind ++ rest)
    rw [head, List.cons_append] at inner
    have start := (skipBlanks_newline (level + 1) _).trans
      (skipBlanks_cons (c := '[') rfl (cs ++ (behind ++ rest)))
    rw [eq, head, List.cons_append, List.append_assoc, List.cons_append, List.cons_append,
      List.append_assoc, value_list start (by simp), items, inner]
    rfl

/-- **A document whose lists are nested too deeply is refused for it,** though it breaks off. -/
theorem read_foreignIn {n calls : Nat} (deep : room < n) (enough : room + 3 ≤ calls)
    (level : Nat) (k : CodeText) :
    read room (write calls level (.dictionary [(k, foreignIn n)])).text = .error .tooNested := by
  have fewer : room + 2 ≤ calls - 1 := by omega
  obtain ⟨rest, eq⟩ := exists_text_enclosed (Nat.le_of_add_left_le (Nat.le_of_succ_le enough)) level
    (.ofText (quoted k ++ [':', ' ']) ++ write (calls - 1) (level + 1) (foreignIn n)) []
  have text : (write calls level (.dictionary [(k, foreignIn n)])).text = '\x7b' ::
      (Written.newline (level + 1) ++ (quoted k ++ ':' :: ' ' ::
        ((write (calls - 1) (level + 1) (foreignIn n)).text ++ rest))) := by
    rw [write, writeEntries, writeEntries, eq, text_ofText_append]
    simp
  obtain ⟨bound, length, steps⟩ : ∃ bound,
      2 * (write calls level (.dictionary [(k, foreignIn n)])).text.length = bound + 1 ∧
        2 * (write (calls - 1) (level + 1) (foreignIn n)).text.length < bound := by
    refine ⟨2 * (write calls level (.dictionary [(k, foreignIn n)])).text.length - 1, ?_⟩
    rw [text]
    simp only [List.length_cons, List.length_append]
    omega
  have inner := value_foreignIn deep fewer steps rest
  obtain ⟨cs, head⟩ := exists_head_foreignIn (Nat.zero_lt_of_lt deep)
    (Nat.le_of_add_left_le fewer) (level + 1)
  rw [head, List.cons_append] at inner
  rw [read, length, text, head]
  rw [skipBlanks_cons rfl, value_dictionary ((skipBlanks_newline _ _).trans
    (by rw [quoted_append, skipBlanks_cons rfl])) (by simp), entries, text?_escaped]
  simp only [required, bind, Except.bind, skipBlanks_cons (c := ':') rfl,
    skipBlanks_cons_of_blank (c := ' ') rfl, List.cons_append,
    skipBlanks_cons (c := '[') rfl, inner]
  rfl

end Json
end Settings
end DeskCalculator

/-
# Dictionaries

A dictionary whose keys differ is given by its keys in order and the value of each
(`eq_of_keys_eq`).  So what a second dictionary makes of a first one is said by two facts: the last
value that the second has for a key counts (`find?_update`), and the keys of the first stay in their
places, with new ones behind them (`keys_update`).
-/

import DeskCalculator.Settings.Value
import Mathlib.Data.List.Nodup

namespace DeskCalculator
namespace Settings
namespace Dictionary

variable {d more : Dictionary} {key : CodeText}

/-- The empty dictionary has no keys. -/
@[simp] theorem keys_nil : keys [] = [] := rfl

/-- The keys of a dictionary begin with that of its first entry. -/
@[simp] theorem keys_cons (k : CodeText) (v : Value) (d : Dictionary) :
    keys ((k, v) :: d) = k :: keys d := rfl

/-- The keys of two dictionaries stand one behind the other. -/
@[simp] theorem keys_append (d e : Dictionary) : keys (d ++ e) = keys d ++ keys e := List.map_append

/-- Nothing is found in the empty dictionary. -/
@[simp] theorem find?_nil (key : CodeText) : find? [] key = none := rfl

/-- The first entry is found under its key, and hides the others there. -/
theorem find?_cons (k : CodeText) (v : Value) (d : Dictionary) (key : CodeText) :
    find? ((k, v) :: d) key = if key = k then some v else find? d key := by
  unfold find?
  rw [List.lookup_cons]
  split <;> rename_i h
  · rw [if_pos (eq_of_beq h)]
  · rw [if_neg (ne_of_beq_false h)]

/-- What is in front is found first. -/
theorem find?_append (d e : Dictionary) (key : CodeText) :
    find? (d ++ e) key = (find? d key).or (find? e key) := List.lookup_append

/-- Nothing is found under what is no key. -/
theorem find?_eq_none_iff : d.find? key = none ↔ key ∉ d.keys := by
  induction d with
  | nil => simp
  | cons e d ih =>
    rw [find?_cons, keys_cons, List.mem_cons, not_or, ← ih]
    split <;> simp_all

/-- Something is found under every key. -/
theorem mem_keys_iff : key ∈ d.keys ↔ ∃ v, d.find? key = some v := by
  rw [← Option.isSome_iff_exists, Option.isSome_iff_ne_none, Ne, find?_eq_none_iff, not_not]

/-- **A dictionary is its keys in order with their values.** -/
theorem eq_of_keys_eq {d e : Dictionary} (nodup : d.keys.Nodup) (keys : d.keys = e.keys)
    (find? : ∀ key ∈ d.keys, d.find? key = e.find? key) : d = e := by
  induction d generalizing e with
  | nil => exact (List.map_eq_nil_iff.1 keys.symm).symm
  | cons entry d ih =>
    obtain ⟨k, v⟩ := entry
    cases e with
    | nil => cases keys
    | cons entry' e =>
      obtain ⟨k', v'⟩ := entry'
      obtain ⟨rfl, keys⟩ := List.cons.inj keys
      have value := find? k List.mem_cons_self
      rw [find?_cons, find?_cons, if_pos rfl, if_pos rfl] at value
      obtain rfl := Option.some.inj value
      congr 1
      refine ih (List.nodup_cons.1 nodup).2 (by simpa using keys) fun key mem => ?_
      have ne : key ≠ k := fun h => (List.nodup_cons.1 nodup).1 (h ▸ mem)
      have value := find? key (List.mem_cons_of_mem _ mem)
      rwa [find?_cons, find?_cons, if_neg ne, if_neg ne] at value

/-- Updating puts in the entries one by one, the first one first. -/
theorem update_cons (d : Dictionary) (k : CodeText) (v : Value) (more : Dictionary) :
    d.update ((k, v) :: more) = (d.insert k v).update more := rfl

/-- What has been put under a key is found there, and the others as before. -/
theorem find?_insert (d : Dictionary) (k : CodeText) (v : Value) (key : CodeText) :
    (d.insert k v).find? key = if key = k then some v else d.find? key := by
  split
  · subst key
    exact find?_insert_self d k v
  · rename_i ne
    exact find?_insert_of_ne d v ne

/-- **The last value for a key counts,** and the first dictionary's if there is none. -/
theorem find?_update (d more : Dictionary) (key : CodeText) :
    (d.update more).find? key = (find? more.reverse key).or (d.find? key) := by
  induction more generalizing d with
  | nil => rfl
  | cons entry more ih =>
    obtain ⟨k, v⟩ := entry
    rw [update_cons, ih, List.reverse_cons, find?_append, Option.or_assoc, find?_insert, find?_cons]
    split <;> rfl

/-- Where the keys differ, the last value of a key is its only one. -/
theorem find?_reverse (nodup : d.keys.Nodup) (key : CodeText) :
    find? d.reverse key = d.find? key := by
  induction d with
  | nil => rfl
  | cons entry d ih =>
    obtain ⟨k, v⟩ := entry
    obtain ⟨notMem, nodup⟩ := List.nodup_cons.1 nodup
    rw [List.reverse_cons, find?_append, ih nodup, find?_cons, find?_cons]
    split
    · subst key
      rw [find?_eq_none_iff.2 notMem]
      rfl
    · simp

/-- The keys of the first dictionary stay in front. -/
theorem keys_prefix_update (d more : Dictionary) : d.keys <+: (d.update more).keys := by
  induction more generalizing d with
  | nil => exact List.prefix_rfl
  | cons entry more ih =>
    obtain ⟨k, v⟩ := entry
    refine List.IsPrefix.trans ?_ (ih (d.insert k v))
    rw [keys_insert]
    split
    · exact List.prefix_rfl
    · exact List.prefix_append _ _

/-- Putting in a value repeats no key. -/
theorem nodup_keys_insert (nodup : d.keys.Nodup) (k : CodeText) (v : Value) :
    (d.insert k v).keys.Nodup := by
  rw [keys_insert]
  split
  · exact nodup
  · rename_i notMem
    exact List.nodup_append.2 ⟨nodup, List.nodup_singleton k, by
      rintro a ha b hb rfl
      exact notMem (List.mem_singleton.1 hb ▸ ha)⟩

/-- Updating repeats no key. -/
theorem nodup_keys_update (nodup : d.keys.Nodup) (more : Dictionary) :
    (d.update more).keys.Nodup := by
  induction more generalizing d with
  | nil => exact nodup
  | cons entry more ih => exact ih (nodup_keys_insert nodup entry.1 entry.2)

/-- A dictionary made from entries repeats no key. -/
theorem nodup_keys_ofEntries (entries : Dictionary) : (ofEntries entries).keys.Nodup :=
  nodup_keys_update (d := []) List.nodup_nil entries

/-- Inserting adds one entry at most. -/
theorem mem_insert {k : CodeText} {v : Value} {e : CodeText × Value}
    (h : e ∈ d.insert k v) : e ∈ d ∨ e = (k, v) := by
  fun_induction insert k v d with
  | case1 => exact .inr (List.mem_singleton.1 h)
  | case2 v' rest =>
    rcases List.mem_cons.1 h with rfl | h
    · exact .inr rfl
    · exact .inl (List.mem_cons_of_mem _ h)
  | case3 k' v' rest ne ih =>
    rcases List.mem_cons.1 h with rfl | h
    · exact .inl List.mem_cons_self
    · exact (ih h).imp_left (List.mem_cons_of_mem _)

/-- Every entry of one dictionary over another is one of theirs. -/
theorem mem_update {e : CodeText × Value} (h : e ∈ d.update more) :
    e ∈ d ∨ e ∈ more := by
  induction more generalizing d with
  | nil => exact .inl h
  | cons entry more ih =>
    rcases ih h with h | h
    · exact (mem_insert h).imp_right fun (eq : e = entry) => eq ▸ List.mem_cons_self
    · exact .inr (List.mem_cons_of_mem _ h)

/-- **New keys come behind those of the first dictionary,** in their order. -/
theorem keys_update (d : Dictionary) (nodup : more.keys.Nodup) :
    (d.update more).keys = d.keys ++ more.keys.filter (· ∉ d.keys) := by
  induction more generalizing d with
  | nil => simp [update]
  | cons entry more ih =>
    obtain ⟨k, v⟩ := entry
    obtain ⟨notMem, nodup⟩ := List.nodup_cons.1 nodup
    rw [update_cons, ih _ nodup, keys_insert, keys_cons]
    split
    · rename_i mem
      rw [List.filter_cons_of_neg (by simpa using mem)]
    · rename_i new
      rw [List.filter_cons_of_pos (by simpa using new), List.append_assoc, List.singleton_append]
      congr 2
      refine List.filter_congr fun key mem => ?_
      have ne : key ≠ k := fun h => notMem (h ▸ mem)
      simp [ne]

/-- Under a key, mapping the values maps the one found there. -/
theorem find?_map (d : Dictionary) (f : CodeText → Value → Value) (key : CodeText) :
    find? (d.map fun e => (e.1, f e.1 e.2)) key = (d.find? key).map (f key) := by
  induction d with
  | nil => rfl
  | cons entry d ih =>
    obtain ⟨k, v⟩ := entry
    rw [List.map_cons, find?_cons, find?_cons, ih]
    split <;> simp_all

/-- Behind a filter of the keys, only the ones that pass are found. -/
theorem find?_filter (d : Dictionary) (p : CodeText → Bool) (key : CodeText) :
    find? (d.filter fun e => p e.1) key = if p key then d.find? key else none := by
  induction d with
  | nil => simp
  | cons entry d ih =>
    obtain ⟨k, v⟩ := entry
    by_cases h : key = k
    · subst key
      cases hp : p k <;> simp [hp, find?_cons, ih]
    · cases hp : p k <;> simp [hp, find?_cons, ih, h]

/-- Mapping the values leaves the keys. -/
theorem keys_map (d : Dictionary) (f : CodeText → Value → Value) :
    keys (d.map fun e => (e.1, f e.1 e.2)) = d.keys := by
  unfold keys
  rw [List.map_map]
  rfl

/-- Filtering the keys filters them in order. -/
theorem keys_filter (d : Dictionary) (p : CodeText → Bool) :
    keys (d.filter fun e => p e.1) = d.keys.filter p := by
  unfold keys
  rw [List.filter_map]
  rfl

/-- **One dictionary over another:** the keys of the first with the second's values where it has
them, and then what else the second has. -/
theorem update_eq (hd : d.keys.Nodup) (hm : more.keys.Nodup) :
    d.update more =
      d.map (fun e => (e.1, (more.find? e.1).getD e.2)) ++ more.filter (fun e => e.1 ∉ d.keys) := by
  refine eq_of_keys_eq (nodup_keys_update hd more) ?_ fun key _ => ?_
  · rw [keys_update d hm, keys_append, keys_map d fun k v => (more.find? k).getD v,
      keys_filter more fun k => k ∉ d.keys]
  · rw [find?_update, find?_reverse hm, find?_append, find?_map d fun k v => (more.find? k).getD v,
      find?_filter more fun k => k ∉ d.keys]
    cases h : d.find? key with
    | none =>
      have new : key ∉ d.keys := find?_eq_none_iff.1 h
      simp [new]
    | some v =>
      have old : key ∈ d.keys := mem_keys_iff.2 ⟨v, h⟩
      cases more.find? key <;> simp [old]

/-- Entries whose keys differ are a dictionary as they stand. -/
theorem ofEntries_eq_self (nodup : d.keys.Nodup) : ofEntries d = d := by
  rw [ofEntries, update_eq (d := []) List.nodup_nil nodup]
  simp

/-- A dictionary over one that has the same keys in front is itself. -/
theorem update_eq_self (nodup : more.keys.Nodup) (front : d.keys <+: more.keys) :
    d.update more = more := by
  have hd := front.sublist.nodup nodup
  refine eq_of_keys_eq (nodup_keys_update hd more) ?_ fun key _ => ?_
  · rw [keys_update d nodup]
    obtain ⟨behind, eq⟩ := front
    rw [← eq, List.nodup_append] at nodup
    rw [← eq, List.filter_append, List.filter_eq_nil_iff.2 (by simp), List.nil_append,
      List.filter_eq_self.2]
    intro key mem
    simpa using fun old => nodup.2.2 key old key mem rfl
  · rw [find?_update, find?_reverse nodup]
    cases h : more.find? key with
    | some v => rfl
    | none =>
      have absent := mt (front.subset (a := key)) (find?_eq_none_iff.1 h)
      rw [find?_eq_none_iff.2 absent]
      rfl

end Dictionary
end Settings
end DeskCalculator

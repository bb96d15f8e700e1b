/-
# Saving the settings

Saving a dictionary that a file can hold gives it back, and loading gives the defaults with its
values and then what else is in it (`setting_all_save`), if it is nested no deeper than there is
room for.  Whatever has been loaded can be held by a file and was no deeper, so saving it changes no
later answer.

A saving that fails is of one of two kinds (`failed_save`).  A file that cannot be opened stays as
it is.  A file that can be opened is emptied first, so a foreign value leaves in it what was written
before that value, and nothing of what was there.  That is no document, wherever the writing was
stopped, so none of it ever takes effect: all settings are the defaults from then on
(`setting_save_of_hasUnwritable`).  Only where the containers around that value are more than there
is room for, the loading does not get so far, and fails (`setting_all_save_foreignIn`).
-/

import DeskCalculator.Proofs.Json.BrokenOff
import DeskCalculator.Proofs.Json.Stopped
import DeskCalculator.Proofs.Json.Storable
import DeskCalculator.Proofs.Settings.Loading

namespace DeskCalculator
namespace Settings

variable {s : Store} {d : Dictionary} {v : Value}

/-- A dictionary that can be stored repeats no key. -/
theorem Value.IsStorable.nodup_keys (h : (Value.dictionary d).IsStorable) : d.keys.Nodup := by
  cases h with
  | dictionary nodup => exact nodup

namespace Store

/-- Whether the settings file can be opened for writing. -/
def IsWritable (s : Store) : Prop := s.reachable = true ∧ s.config.isWritable = true

/-- Nothing happens to a file that cannot be opened. -/
theorem save_of_not_isWritable (h : ¬s.IsWritable) (v : Value) :
    s.save v = (.ok (.dictionary []), s) := by
  rw [IsWritable, ← Bool.and_eq_true] at h
  rw [save, if_neg h]

/-- A file that can be opened is written anew, with the result that the writing comes to. -/
theorem save_of_isWritable (h : s.IsWritable) (v : Value) :
    (s.save v).2 = { s with config := .ofText (.ofList (Json.write s.calls 0 v).text) } ∧
      ((Json.write s.calls 0 v).obstacle = none → (s.save v).1 = .ok v) ∧
      ((Json.write s.calls 0 v).obstacle = some .foreign → (s.save v).1 = .ok (.dictionary [])) ∧
      ((Json.write s.calls 0 v).obstacle = some .numberTooLong →
        (s.save v).1 = .error .numberTooLong) ∧
      ((Json.write s.calls 0 v).obstacle = some .tooNested →
        (s.save v).1 = .error .tooNested) := by
  rw [IsWritable, ← Bool.and_eq_true] at h
  rw [save, if_pos h]
  refine ⟨rfl, fun none => ?_, fun foreign => ?_, fun long => ?_, fun deep => ?_⟩
  · simp only [none]
  · simp only [foreign]
  · simp only [long]
  · simp only [deep]

/-- What is loaded from a file that has just been written is found in what was written. -/
theorem settings_save (h : s.IsWritable) (v : Value) :
    (s.save v).2.settings =
      (File.dictionaryIn s.room (.ofList (Json.write s.calls 0 v).text)).map fun d? =>
        defaults.update (d?.getD []) := by
  rw [(save_of_isWritable h v).1, settings, settingsFile, h.1, if_pos rfl, File.load,
    File.dictionary?_of_text? (File.text?_ofText _)]
  cases File.dictionaryIn s.room (.ofList (Json.write s.calls 0 v).text) <;> rfl

/-- What can be held by a file, and is not nested too deeply, is saved, and then it is what the
settings file holds. -/
theorem save_of_fits (h : s.IsWritable) (fits : (Value.dictionary d).Fits (s.room + 1)) :
    (s.save (.dictionary d)).1 = .ok (.dictionary d) ∧
      (s.save (.dictionary d)).2.settings = .ok (defaults.update d) := by
  have calls : s.room + 3 ≤ s.calls := Nat.add_le_add_left (by decide) s.room
  obtain ⟨written, reads⟩ := Json.read_write fits.storable fits.nesting calls 0
  refine ⟨(save_of_isWritable h _).2.1 written, ?_⟩
  rw [settings_save h, File.dictionaryIn, String.toList_ofList, reads]
  rfl

/-- The setting `all` is the dictionary of the settings. -/
theorem setting_all (s : Store) : s.setting (some "all") = s.settings.map .dictionary := rfl

/-- Whenever all settings are given, they are given as a dictionary. -/
theorem exists_of_setting_all (h : s.setting (some "all") = .ok v) :
    ∃ d, s.settings = .ok d ∧ v = .dictionary d := by
  rw [setting_all] at h
  cases hd : s.settings with
  | error failure =>
    rw [hd] at h
    cases h
  | ok d =>
    rw [hd] at h
    cases h
    exact ⟨d, rfl, rfl⟩

end Store

/-- The defaults can be held by a file, and take the room of one container. -/
theorem fits_defaults (room : Nat) : (Value.dictionary defaults).Fits (room + 1) := by
  have joined := CodeText.isJoined_ofString
  refine ⟨.dictionary nodup_keys_defaults ?_ ?_, ?_⟩
  · simp only [defaults, List.forall_mem_cons]
    exact ⟨joined _, joined _, joined _, joined _, nofun⟩
  · simp only [defaults, List.forall_mem_cons]
    exact ⟨.bool false, .bool false, .bool false, .integer (by decide), nofun⟩
  · exact Nat.succ_le_succ (Nat.zero_le room)

namespace Store

/-- **What has been loaded can be saved,** and has the default keys in front. -/
theorem fits_of_settings (h : s.settings = .ok d) :
    (Value.dictionary d).Fits (s.room + 1) ∧ defaults.keys <+: d.keys := by
  obtain ⟨d?, found, h⟩ := bind_eq_ok.1 h
  cases h
  refine ⟨(fits_defaults s.room).update ?_, Dictionary.keys_prefix_update ..⟩
  cases d? with
  | none => exact Json.fits_empty s.room
  | some d =>
    obtain ⟨_, -, read⟩ := File.dictionary?_eq_some_iff.1 found
    exact Json.fits_of_read read

/-- A whole number that is too long to be written makes saving fail. -/
theorem save_integer_of_long (h : s.IsWritable) (key : CodeText) {i : Int}
    (long : Text.maxDigits < (Nat.toDigits 10 i.natAbs).length) :
    (s.save (.dictionary [(key, .integer i)])).1 = .error .numberTooLong := by
  have obstacle : (Json.write s.calls 0 (.dictionary [(key, .integer i)])).obstacle =
      some .numberTooLong := by
    have calls : ¬s.calls < 2 := Nat.not_lt.2 (Nat.le_add_left 2 (s.room + 3))
    rw [Json.write, Json.writeEntries, Json.write, Json.wholeNumber, if_pos long,
      Written.enclosed, Written.needing, if_neg calls]
    rfl
  exact (save_of_isWritable h _).2.2.2.1 obstacle

/-- A power of ten has one digit more than its exponent. -/
theorem lt_length_toDigits_pow {k : Nat} (pos : 0 < k) :
    k < (Nat.toDigits 10 (Int.natAbs (Nat.pow 10 k))).length := by
  rw [← Nat.not_le, Nat.length_toDigits_le_iff (by decide) pos, Int.natAbs_natCast]
  exact Nat.lt_irrefl _

/-- **A saving that fails left the file alone or emptied it:** either the file could not be opened,
or there is a foreign value among the settings and what was written before it is all that the file
holds. -/
theorem failed_save (ne : d ≠ []) (failed : (s.save (.dictionary d)).1 = .ok (.dictionary [])) :
    (¬s.IsWritable ∧ (s.save (.dictionary d)).2 = s) ∨
      (s.IsWritable ∧ (Value.dictionary d).HasForeign ∧
        (s.save (.dictionary d)).2 =
          { s with config := .ofText (.ofList (Json.write s.calls 0 (.dictionary d)).text) }) := by
  by_cases h : s.IsWritable
  · right
    obtain ⟨store, ok, -, long, deep⟩ := save_of_isWritable h (.dictionary d)
    have foreign : (Json.write s.calls 0 (.dictionary d)).obstacle = some .foreign := by
      cases obstacle : (Json.write s.calls 0 (.dictionary d)).obstacle with
      | none =>
        rw [ok obstacle] at failed
        cases failed
        exact absurd rfl ne
      | some o =>
        cases o with
        | foreign => rfl
        | numberTooLong =>
          rw [long obstacle] at failed
          cases failed
        | tooNested =>
          rw [deep obstacle] at failed
          cases failed
    exact ⟨h, Json.hasForeign_of_write foreign, store⟩
  · left
    rw [save_of_not_isWritable h]
    exact ⟨h, rfl⟩

/-- With a foreign value behind another one, that one is all that the file holds. -/
theorem failed_save_behind_one :
    [(("a" : CodeText), Value.integer 1), ("b", .foreign)] ≠ [] ∧
      ((Store.mk .missing .missing true usualRoom).save
        (.dictionary [("a", .integer 1), ("b", .foreign)])).1 = .ok (.dictionary []) ∧
      (Value.dictionary [("a", .integer 1), ("b", .foreign)]).HasForeign ∧
      ((Store.mk .missing .missing true usualRoom).save
        (.dictionary [("a", .integer 1), ("b", .foreign)])).2 =
          Store.mk (.ofText "\x7b\n    \"a\": 1,\n    \"b\": ") .missing true usualRoom := by
  have ne : [(("a" : CodeText), Value.integer 1), ("b", .foreign)] ≠ [] := List.cons_ne_nil _ _
  have failed : ((Store.mk .missing .missing true usualRoom).save
      (.dictionary [("a", .integer 1), ("b", .foreign)])).1 = .ok (.dictionary []) := rfl
  have writable : (Store.mk .missing .missing true usualRoom).IsWritable := ⟨rfl, rfl⟩
  obtain ⟨-, inside, store⟩ := (failed_save ne failed).resolve_left fun h => h.1 writable
  exact ⟨ne, failed, inside, store.trans rfl⟩

/-- Where what was written shows nothing, every answer is the one of the defaults. -/
theorem setting_save_of_malformed (h : s.IsWritable)
    (malformed : Json.read s.room (Json.write s.calls 0 v).text = .error .malformed)
    (key : Option String) : (s.save v).2.setting key = .ok (pick (.integer 0) key defaults) := by
  rw [setting, settings_save h, File.dictionaryIn, String.toList_ofList, malformed]
  rfl

/-- Where what was written is nested too deeply, there is no answer. -/
theorem setting_save_of_tooNested (h : s.IsWritable)
    (deep : Json.read s.room (Json.write s.calls 0 v).text = .error .tooNested)
    (key : Option String) : (s.save v).2.setting key = .error .tooNested := by
  rw [setting, settings_save h, File.dictionaryIn, String.toList_ofList, deep]
  rfl

/-- **A foreign value inside more lists than there is room for makes the loading fail** that comes
after the saving. -/
theorem setting_all_save_foreignIn {n : Nat} (h : s.IsWritable) (deep : s.room < n)
    (key : CodeText) :
    (s.save (.dictionary [(key, Json.foreignIn n)])).2.setting (some "all") =
      .error .tooNested := by
  have calls : s.room + 3 ≤ s.calls := Nat.add_le_add_left (by decide) s.room
  exact setting_save_of_tooNested h (Json.read_foreignIn deep calls 0 key) (some "all")

/-- **A foreign value costs the settings that were there:** nothing counts as saved, and a limit of
four entries is the default again. -/
theorem setting_save_foreign :
    (Store.mk (.ofText "\x7b\"history_limit\": 4\x7d") .missing true usualRoom).setting
        (some "history_limit") = .ok (.integer 4) ∧
      ((Store.mk (.ofText "\x7b\"history_limit\": 4\x7d") .missing true usualRoom).save
        (.dictionary [("a", .integer 1), ("b", .foreign)])).1 = .ok (.dictionary []) ∧
      ((Store.mk (.ofText "\x7b\"history_limit\": 4\x7d") .missing true usualRoom).save
        (.dictionary [("a", .integer 1), ("b", .foreign)])).2.setting (some "history_limit") =
          .ok (.integer 10) := by
  have writable : (Store.mk (.ofText "\x7b\"history_limit\": 4\x7d") .missing true
      usualRoom).IsWritable := ⟨rfl, rfl⟩
  have read : Json.read usualRoom "\x7b\"history_limit\": 4\x7d".toList =
      .ok (.dictionary [("history_limit", .integer 4)]) := by
    simp only [String.reduceToList]
    rfl
  have found : (File.ofText "\x7b\"history_limit\": 4\x7d").dictionary? usualRoom =
      .ok (some [("history_limit", .integer 4)]) :=
    (File.dictionary?_of_text? (File.text?_ofText _)).trans (File.dictionaryIn_eq_some_iff.2 read)
  have inside : (Value.dictionary [("a", .integer 1), ("b", .foreign)]).HasUnwritable :=
    .entry (List.mem_cons_of_mem _ List.mem_cons_self) .foreign
  refine ⟨?_, rfl, ?_⟩
  · rw [setting, settings, settingsFile, if_pos rfl, File.load, found]
    rfl
  · exact setting_save_of_malformed writable
      (Json.read_write_of_hasUnwritable inside _ 0 (by decide)) (some "history_limit")

end Store
end Settings
end DeskCalculator

/-
# Loading the settings

A file gives the entries of the JSON object in it (`File.pairs?`), each as often as it is written.
Loading puts them over the defaults: every default key is there, the last value of a key counts,
and a file that holds no object gives the defaults alone.  That is so for every file but one that
cannot be loaded (`File.IsDamaged`): a folder in the file's place, a file that may not be read,
bytes that are not UTF-8, a number that is too long to be read, and containers nested deeper than
there is room for are five failures, and there are no others.  The last two show in the text: it has
more digits in a row than are read, or more opening brackets than there is room for
(`File.IsDamaged.refused`), and long numbers and deep nesting do fail.
-/

import DeskCalculator.Proofs.Json.Refusal
import DeskCalculator.Settings.Store

namespace DeskCalculator
namespace Settings

namespace Json

variable {room : Nat} {cs : List Char}

/-- The entries of an object behind its opening brace, and what is behind them. -/
def object (room bound : Nat) (cs : List Char) :
    Except Unreadable (List (CodeText × Value) × List Char) :=
  match skipBlanks cs with
  | '\x7d' :: rest => .ok ([], rest)
  | rest => entries room bound rest

/-- The entries of the object that a text shows, in the order in which they are written. -/
def pairs? (room : Nat) (cs : List Char) : Option (List (CodeText × Value)) :=
  match skipBlanks cs with
  | '\x7b' :: rest =>
    match object room (2 * cs.length) rest with
    | .ok (pairs, rest) => if (skipBlanks rest).isEmpty then some pairs else none
    | .error _ => none
  | _ => none

/-- What is read behind a brace is the object there. -/
theorem value_brace (room bound : Nat) (cs : List Char) :
    value (room + 1) (bound + 1) ('\x7b' :: cs) =
      (object room bound cs).map fun (pairs, rest) =>
        (.dictionary (Dictionary.ofEntries pairs), rest) := by
  by_cases empty : ∃ rest, skipBlanks cs = '\x7d' :: rest
  · obtain ⟨rest, eq⟩ := empty
    rw [value, object, eq]
    rfl
  · have ne := not_exists.1 empty
    have entries : object room bound cs = entries room bound (skipBlanks cs) := by
      unfold object
      split
      · rename_i eq
        exact absurd eq (ne _)
      · rfl
    rw [value_dictionary rfl ne, entries]

/-- Only what begins with a brace is read as a dictionary. -/
theorem exists_eq_brace_of_value {bound : Nat} {rest : List Char} {d : Dictionary}
    (h : value room (bound + 1) cs = .ok (.dictionary d, rest)) : ∃ cs', cs = '\x7b' :: cs' := by
  rw [value.eq_def] at h
  split at h
  case h_1 eq => cases eq
  case h_2 =>
    obtain ⟨⟨s, behind⟩, -, h⟩ := bind_eq_ok.1 h
    cases h
  case h_3 => cases h
  case h_4 =>
    split at h
    · cases h
    · obtain ⟨⟨vs, behind⟩, -, h⟩ := bind_eq_ok.1 h
      cases h
  case h_5 => cases h
  case h_6 => exact ⟨_, rfl⟩
  case h_7 =>
    rcases scalar_cases h with h | ⟨_, h⟩ | ⟨_, h, -⟩ | ⟨_, h⟩ <;> cases h

/-- **A text shows a dictionary if it shows an object,** and the dictionary is made of the object's
entries. -/
theorem read_eq_dictionary_iff {d : Dictionary} :
    read room cs = .ok (.dictionary d) ↔
      ∃ pairs, pairs? room cs = some pairs ∧ Dictionary.ofEntries pairs = d := by
  constructor
  · intro h
    obtain ⟨⟨v, rest⟩, value, h⟩ := bind_eq_ok.1 h
    simp only [] at h
    split at h
    · rename_i whole
      cases h
      obtain ⟨cs', eq⟩ := exists_eq_brace_of_value value
      rw [eq, value_brace] at value
      cases object : object room (2 * cs.length) cs' with
      | error e =>
        rw [object] at value
        cases value
      | ok r =>
        rw [object] at value
        cases value
        exact ⟨r.1, by simp [pairs?, eq, object, whole], rfl⟩
    · cases h
  · rintro ⟨pairs, h, rfl⟩
    unfold pairs? at h
    split at h
    · rename_i cs' eq
      split at h
      · rename_i object
        split at h
        · rename_i whole
          cases h
          simp only [read, eq, value_brace, object, Except.map, bind, Except.bind, whole]
          rfl
        · cases h
      · cases h
    · cases h

end Json

namespace File

/-- The entries of the object in a file, in the order in which they are written. -/
def pairs? (room : Nat) (f : File) : Option (List (CodeText × Value)) :=
  f.text?.bind fun s => Json.pairs? room s.toList

/-- How a file can be so that it cannot be loaded at all. -/
inductive IsDamaged (room : Nat) : File → Failure → Prop
  | folder : IsDamaged room .folder .isFolder
  | denied : IsDamaged room .denied .noPermission
  | notUtf8 {f : File} {content : ByteArray} (bytes : f.content? = .ok (some content))
      (invalid : ¬content.IsValidUTF8) : IsDamaged room f .notUtf8
  | numberTooLong {f : File} {s : String} (text : f.text? = some s)
      (long : Json.read room s.toList = .error .numberTooLong) : IsDamaged room f .numberTooLong
  | tooNested {f : File} {s : String} (text : f.text? = some s)
      (deep : Json.read room s.toList = .error .tooNested) : IsDamaged room f .tooNested

/-- A file made of a text has that text. -/
@[simp] theorem text?_ofText (s : String) : (ofText s).text? = some s := dif_pos s.isValidUTF8

variable {room : Nat} {f : File} {s : String}

/-- A text is found in a file that can be read. -/
theorem text?_eq_some_iff :
    f.text? = some s ↔
      ∃ content, f.content? = .ok (some content) ∧ String.fromUTF8? content = some s := by
  unfold text?
  split
  · rename_i content eq
    simp [eq]
  · rename_i other
    exact iff_of_false nofun fun ⟨content, eq, _⟩ => other content eq

/-- What is found in a file with a text is found in the text. -/
theorem dictionary?_of_text? (text : f.text? = some s) :
    f.dictionary? room = dictionaryIn room s := by
  obtain ⟨content, bytes, valid⟩ := text?_eq_some_iff.1 text
  simp only [dictionary?, bytes, bind, Except.bind, valid]

/-- A file has a text in which its dictionary is looked for; or it is missing, or it fails. -/
theorem dictionary?_cases (room : Nat) (f : File) :
    (∃ s, f.text? = some s) ∨ f.dictionary? room = .ok none ∧ f.text? = none ∨
      ∃ failure, f.dictionary? room = .error failure ∧ f.IsDamaged room failure := by
  have ofBytes {content : ByteArray} (bytes : f.content? = .ok (some content)) :
      (∃ s, f.text? = some s) ∨
        ∃ failure, f.dictionary? room = .error failure ∧ f.IsDamaged room failure := by
    cases valid : String.fromUTF8? content with
    | some s => exact .inl ⟨s, text?_eq_some_iff.2 ⟨content, bytes, valid⟩⟩
    | none =>
      refine .inr ⟨.notUtf8, ?_, .notUtf8 bytes fun isValid => ?_⟩
      · simp only [dictionary?, bytes, bind, Except.bind, valid]
      · rw [String.fromUTF8?, dif_pos isValid] at valid
        cases valid
  cases f with
  | missing => exact .inr (.inl ⟨rfl, rfl⟩)
  | folder => exact .inr (.inr ⟨_, rfl, .folder⟩)
  | denied => exact .inr (.inr ⟨_, rfl, .denied⟩)
  | bytes content => exact (ofBytes rfl).imp_right .inr
  | readOnly content => exact (ofBytes rfl).imp_right .inr

/-- A dictionary is found in a text that shows it. -/
theorem dictionaryIn_eq_some_iff {d : Dictionary} :
    dictionaryIn room s = .ok (some d) ↔ Json.read room s.toList = .ok (.dictionary d) := by
  unfold dictionaryIn
  split
  · rename_i eq
    simp [eq]
  · rename_i eq
    simp [eq]
  · rename_i eq
    simp [eq]
  · rename_i other eq
    rw [eq]
    exact iff_of_false nofun fun same => other d (Except.ok.inj same)
  · rename_i eq
    simp [eq]

/-- A text fails for a number that is too long, or for what is nested too deeply in it. -/
theorem dictionaryIn_eq_error_iff {failure : Failure} :
    dictionaryIn room s = .error failure ↔
      (Json.read room s.toList = .error .numberTooLong ∧ failure = .numberTooLong) ∨
        (Json.read room s.toList = .error .tooNested ∧ failure = .tooNested) := by
  unfold dictionaryIn
  split
  all_goals
    rename_i eq
    simp [eq, eq_comm]

/-- **A dictionary is found in a file whose text shows it.** -/
theorem dictionary?_eq_some_iff {d : Dictionary} :
    f.dictionary? room = .ok (some d) ↔
      ∃ s, f.text? = some s ∧ Json.read room s.toList = .ok (.dictionary d) := by
  constructor
  · intro h
    rcases dictionary?_cases room f with ⟨s, text⟩ | ⟨nothing, -⟩ | ⟨failure, failed, -⟩
    · rw [dictionary?_of_text? text] at h
      exact ⟨s, text, dictionaryIn_eq_some_iff.1 h⟩
    · rw [nothing] at h
      cases h
    · rw [failed] at h
      cases h
  · rintro ⟨s, text, read⟩
    rw [dictionary?_of_text? text]
    exact dictionaryIn_eq_some_iff.2 read

/-- **Only a damaged file fails,** and it fails with its damage. -/
theorem dictionary?_eq_error_iff {failure : Failure} :
    f.dictionary? room = .error failure ↔ f.IsDamaged room failure := by
  constructor
  · intro h
    rcases dictionary?_cases room f with ⟨s, text⟩ | ⟨nothing, -⟩ | ⟨failure', failed, damaged⟩
    · rw [dictionary?_of_text? text] at h
      rcases dictionaryIn_eq_error_iff.1 h with ⟨long, rfl⟩ | ⟨deep, rfl⟩
      · exact .numberTooLong text long
      · exact .tooNested text deep
    · rw [nothing] at h
      cases h
    · rw [failed] at h
      cases h
      exact damaged
  · rintro (_ | _ | ⟨bytes, invalid⟩ | ⟨text, long⟩ | ⟨text, deep⟩)
    · rfl
    · rfl
    · simp only [dictionary?, bytes, bind, Except.bind, String.fromUTF8?, dif_neg invalid]
    · rw [dictionary?_of_text? text]
      exact dictionaryIn_eq_error_iff.2 (.inl ⟨long, rfl⟩)
    · rw [dictionary?_of_text? text]
      exact dictionaryIn_eq_error_iff.2 (.inr ⟨deep, rfl⟩)

/-- What is found in a file that is not damaged is made of the entries of its object. -/
theorem dictionary?_eq_ok {d? : Option Dictionary} (h : f.dictionary? room = .ok d?) :
    d? = (f.pairs? room).map Dictionary.ofEntries := by
  cases d? with
  | some d =>
    obtain ⟨s, text, read⟩ := dictionary?_eq_some_iff.1 h
    obtain ⟨pairs, shown, rfl⟩ := Json.read_eq_dictionary_iff.1 read
    rw [pairs?, text, Option.bind_some, shown, Option.map_some]
  | none =>
    cases hp : f.pairs? room with
    | none => rfl
    | some pairs =>
      -- An object in the file would have been found.
      obtain ⟨s, text, shown⟩ := Option.bind_eq_some_iff.1 hp
      have read := Json.read_eq_dictionary_iff.2 ⟨pairs, shown, rfl⟩
      rw [dictionary?_eq_some_iff.2 ⟨s, text, read⟩] at h
      cases h

end File

/-- Under a key, the last entry of a file counts, and the default where there is none. -/
theorem find?_update_ofEntries (defaults : Dictionary) (pairs : List (CodeText × Value))
    (key : CodeText) :
    (defaults.update (Dictionary.ofEntries pairs)).find? key =
      (Dictionary.find? pairs.reverse key).or (defaults.find? key) := by
  rw [Dictionary.find?_update, Dictionary.find?_reverse (Dictionary.nodup_keys_ofEntries pairs),
    Dictionary.ofEntries, Dictionary.find?_update, Dictionary.find?_nil, Option.or_none]

/-- The defaults repeat no key. -/
theorem nodup_keys_defaults : defaults.keys.Nodup := by decide

/-- The default descriptions repeat no key. -/
theorem nodup_keys_defaultDescriptions : defaultDescriptions.keys.Nodup := by decide

/-- What may be answered when all of a file is asked for. -/
inductive AnswersAll (room : Nat) (defaults : Dictionary) (f : File) : Except Failure Value → Prop
  /-- The failure is that of a damaged file. -/
  | failed {failure : Failure} (damaged : f.IsDamaged room failure) :
      AnswersAll room defaults f (.error failure)
  /-- Each key stands once, those of the defaults in front; without an object there is nothing else,
  and with one the last value that it has for a key counts. -/
  | loaded {d : Dictionary} (sound : ∀ failure, ¬f.IsDamaged room failure) (nodup : d.keys.Nodup)
      (front : defaults.keys <+: d.keys) (alone : f.pairs? room = none → d = defaults)
      (values : ∀ pairs, f.pairs? room = some pairs →
        ∀ key, d.find? key = (Dictionary.find? pairs.reverse key).or (defaults.find? key)) :
      AnswersAll room defaults f (.ok (.dictionary d))

/-- Loading a file over its defaults gives such an answer. -/
theorem answersAll_load {defaults : Dictionary} (nodup : defaults.keys.Nodup) (room : Nat)
    (f : File) : AnswersAll room defaults f ((f.load room defaults).map .dictionary) := by
  cases h : f.dictionary? room with
  | error failure =>
    have load : f.load room defaults = .error failure := by
      rw [File.load, h]
      rfl
    rw [load]
    exact .failed (File.dictionary?_eq_error_iff.1 h)
  | ok d? =>
    have load : f.load room defaults = .ok (defaults.update (d?.getD [])) := by
      rw [File.load, h]
      rfl
    rw [load]
    refine .loaded (fun failure damaged => ?_) (Dictionary.nodup_keys_update nodup _)
      (Dictionary.keys_prefix_update ..) (fun none => ?_) fun pairs some key => ?_
    · rw [File.dictionary?_eq_error_iff.2 damaged] at h
      cases h
    · rw [File.dictionary?_eq_ok h, none]
      rfl
    · rw [File.dictionary?_eq_ok h, some]
      exact find?_update_ofEntries defaults pairs key

/-- What is wrong with a damaged file that has a text is wrong with the text. -/
theorem File.IsDamaged.refused {f : File} {room : Nat} {t : String} (text : f.text? = some t) :
    (f.IsDamaged room .numberTooLong → Json.HasLongRun t.toList) ∧
      (f.IsDamaged room .tooNested → room + 1 < Json.openings t.toList) := by
  constructor
  · rintro (_ | _ | _ | ⟨text', long⟩ | _)
    obtain rfl := Option.some.inj (text.symm.trans text')
    cases Json.refused_of_read long with
    | numberTooLong run => exact run
  · rintro (_ | _ | _ | _ | ⟨text', deep⟩)
    obtain rfl := Option.some.inj (text.symm.trans text')
    cases Json.refused_of_read deep with
    | tooNested many => exact many

/-- A file that opens more containers than there is room for cannot be loaded. -/
theorem isDamaged_of_replicate {f : File} {room n : Nat} {rest : List Char} (deep : room + 1 < n)
    (text : f.text? = some (.ofList (List.replicate n '[' ++ rest))) :
    f.IsDamaged room .tooNested := by
  refine .tooNested text ?_
  rw [String.toList_ofList]
  exact Json.read_replicate deep rest

/-- A file with a whole number of too many digits cannot be loaded. -/
theorem isDamaged_of_long {f : File} {i : Int}
    (long : Text.maxDigits < (Nat.toDigits 10 i.natAbs).length)
    (text : f.text? = some (toString i)) (room : Nat) : f.IsDamaged room .numberTooLong := by
  refine .numberTooLong text ?_
  rw [Json.toList_toString, ← List.append_nil (Nat.toDigits 10 i.natAbs)]
  exact Json.read_of_long _ (Decimal.isWhole_toDigits _) long Json.endsNumber_nil room

end Settings
end DeskCalculator

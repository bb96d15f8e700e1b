/-
# What the settings dialog writes

A dialog is edited and its OK pressed, again and again until an OK is accepted.  An OK is refused
for a field that cannot be read, or because the file cannot be written; it then leaves the files
alone, but not the dialog: what the widgets in front of that field hold has been taken over into the
dialog's settings and stays there (`taken`).  So a later OK that is accepted writes the settings
that the dialog was opened with, each with what its widget gives, and for a field that is blank by
then with what an earlier OK had taken over from it (`accepted_writes_latest`).

What makes this one equation is that a press puts a dictionary over the dialog's settings and never
adds a key to them: the keys of the widgets are among those of the settings from the beginning.
-/

import DeskCalculator.Proofs.Settings.Saving
import DeskCalculator.Proofs.Text.WholeNumber
import DeskCalculator.Window.Dialog

namespace DeskCalculator
namespace Window

open Settings (Value Dictionary Store)

/-! ## Widgets -/

/-- The widgets of a dialog, by key. -/
abbrev Widgets := List (CodeText × Widget)

/-- A text without the blanks at its ends. -/
def trimmed (text : String) : String := .ofList (Text.trimBlank text.toList)

namespace Widget

/-- The value that a widget gives to its setting: a check box its state, a field its whole number.
A blank field gives none. -/
def value? : Widget → Option Value
  | .checkbox _ checked => some (.bool checked)
  | .field _ _ text =>
    if trimmed text = "" then none else (Text.wholeNumber? (trimmed text)).map .integer

/-- A field that is not blank and holds no whole number, or for the history limit one that is out of
range. -/
def IsRefused (key : CodeText) : Widget → Prop
  | .checkbox _ _ => False
  | .field _ _ text => trimmed text ≠ "" ∧
    (Text.wholeNumber? (trimmed text) = none ∨ key = "history_limit" ∧
      ∃ i ∈ Text.wholeNumber? (trimmed text), ¬(1 ≤ i ∧ i ≤ History.maxEntries))

instance (key : CodeText) (w : Widget) : Decidable (w.IsRefused key) :=
  match w with
  | .checkbox _ _ => inferInstanceAs (Decidable False)
  | .field _ _ text => inferInstanceAs (Decidable (trimmed text ≠ "" ∧
      (Text.wholeNumber? (trimmed text) = none ∨ key = "history_limit" ∧
        ∃ i ∈ Text.wholeNumber? (trimmed text), ¬(1 ≤ i ∧ i ≤ History.maxEntries))))

end Widget

/-! ## Lists by key -/

section

variable {α β : Type} {f : α → Option β} {l : List (CodeText × α)}

/-- What is made of entries one by one has some of their keys, in their order. -/
theorem keys_filterMap_sublist (f : CodeText × α → Option β) (l : List (CodeText × α)) :
    ((l.filterMap fun e => (f e).map (e.1, ·)).map (·.1)).Sublist (l.map (·.1)) := by
  induction l with
  | nil => exact List.Sublist.slnil
  | cons e l ih =>
    rw [List.filterMap_cons, List.map_cons]
    cases f e with
    | none => exact ih.cons _
    | some b => exact ih.cons_cons _

/-- A key that does not occur has no value. -/
theorem lookup_eq_none_of_notMem {key : CodeText} (h : key ∉ l.map (·.1)) :
    l.lookup key = none := by
  refine List.lookup_eq_none_iff.2 fun e he => bne_iff_ne.2 ?_
  rintro rfl
  exact h (List.mem_map_of_mem he)

/-- Where the keys differ, what is made of the entry of a key is found under the key. -/
theorem lookup_filterMap (nodup : (l.map (·.1)).Nodup) (key : CodeText) :
    (l.filterMap fun e => (f e.2).map (e.1, ·)).lookup key = (l.lookup key).bind f := by
  induction l with
  | nil => rfl
  | cons e l ih =>
    obtain ⟨k, a⟩ := e
    obtain ⟨notMem, nodup⟩ := List.nodup_cons.1 nodup
    rw [List.filterMap_cons, List.lookup_cons]
    by_cases h : key = k
    · subst key
      have absent := lookup_eq_none_of_notMem notMem
      rw [beq_self_eq_true, Option.bind_some]
      cases fa : f a with
      | none => simp [ih nodup, absent]
      | some b => simp
    · rw [beq_false_of_ne h]
      cases fa : f a with
      | none => simp [ih nodup]
      | some b => simp [List.lookup_cons, beq_false_of_ne h, ih nodup]

end

namespace Widget
variable {key : CodeText} {w : Widget} {text : String}

/-- What is read from a field of a dialog that is not refused is the whole number in it. -/
theorem fieldValue_eq_ok {label placeholder : String} (filled : trimmed text ≠ "")
    (h : ¬(Widget.field label placeholder text).IsRefused key) :
    ∃ i, Text.wholeNumber (trimmed text) = .ok i ∧
      Dialog.fieldValue key (trimmed text) = .ok i := by
  unfold Dialog.fieldValue
  obtain ⟨whole, range⟩ := not_or.1 fun refused => h ⟨filled, refused⟩
  cases read : Text.wholeNumber (trimmed text) with
  | error cause => exact absurd (by rw [Text.wholeNumber?, read]; rfl) whole
  | ok i =>
    refine ⟨i, rfl, if_neg ?_⟩
    rintro ⟨limit, outside⟩
    exact range ⟨limit, i, Text.wholeNumber?_eq_some_iff.2 read, outside⟩

/-- Nothing is read from a refused field. -/
theorem fieldValue_eq_error {label placeholder : String}
    (h : (Widget.field label placeholder text).IsRefused key) :
    ∃ reason, Dialog.fieldValue key (trimmed text) = .error reason := by
  unfold Dialog.fieldValue
  obtain ⟨-, h⟩ := h
  cases read : Text.wholeNumber (trimmed text) with
  | error cause => exact ⟨_, rfl⟩
  | ok i =>
    rw [Text.wholeNumber?, read] at h
    obtain h | ⟨limit, j, hj, outside⟩ := h
    · cases h
    · cases hj
      exact ⟨_, if_pos ⟨limit, outside⟩⟩

/-- What a widget gives can be written to a file, and takes no room there. -/
theorem fits_of_value? {w : Widget} {v : Value} (h : w.value? = some v) (room : Nat) :
    v.Fits room := by
  cases w with
  | checkbox label checked =>
    cases h
    exact ⟨.bool checked, Nat.zero_le _⟩
  | field label placeholder text =>
    rw [value?] at h
    split at h
    · cases h
    · obtain ⟨i, hi, rfl⟩ := Option.map_eq_some_iff.1 h
      have short := Text.length_toDigits_of_wholeNumber (Text.wholeNumber?_eq_some_iff.1 hi)
      exact ⟨.integer short, Nat.zero_le _⟩

end Widget

/-! ## Taking over -/

namespace Dialog

/-- What an OK takes over from widgets: what those give that stand in front of the first refused
one. -/
def taken (ws : Widgets) : Dictionary :=
  (ws.takeWhile fun e => ¬e.2.IsRefused e.1).filterMap fun e => e.2.value?.map (e.1, ·)

variable {key : CodeText} {w : Widget} {ws : Widgets} {settings : Dictionary}

/-- Nothing is taken from a refused widget on. -/
theorem taken_cons_of_refused (h : w.IsRefused key) : taken ((key, w) :: ws) = [] := by
  simp [taken, h]

/-- A widget that is not refused gives its value, if it has one, in front of the others. -/
theorem taken_cons (h : ¬w.IsRefused key) :
    taken ((key, w) :: ws) = (w.value?.map (key, ·)).toList ++ taken ws := by
  rw [taken, List.takeWhile_cons_of_pos (by simpa using h), List.filterMap_cons, taken]
  cases w.value? <;> rfl

/-- A blank field is passed over. -/
theorem collect_blank {label placeholder text : String} (blank : trimmed text = "") :
    collect settings ((key, .field label placeholder text) :: ws) = collect settings ws := by
  unfold trimmed at blank
  rw [collect]
  simp only [blank, if_true]

/-- What can be read is taken over. -/
theorem collect_ok {label placeholder text : String} {i : Int} (filled : trimmed text ≠ "")
    (read : fieldValue key (trimmed text) = .ok i) :
    collect settings ((key, .field label placeholder text) :: ws) =
      collect (settings.insert key (.integer i)) ws := by
  unfold trimmed at filled read
  rw [collect]
  simp only [filled, if_false, read]

/-- What cannot be read ends it. -/
theorem collect_error {label placeholder text reason : String} (filled : trimmed text ≠ "")
    (unread : fieldValue key (trimmed text) = .error reason) :
    collect settings ((key, .field label placeholder text) :: ws) =
      (settings, some (key, reason)) := by
  unfold trimmed at filled unread
  rw [collect]
  simp only [filled, if_false, unread]

/-- **Collecting puts over the settings what is taken over,** and it ends behind the last widget if
none is refused. -/
theorem collect_eq (settings : Dictionary) (ws : Widgets) :
    (collect settings ws).1 = settings.update (taken ws) ∧
      ((collect settings ws).2 = none ↔ ∀ e ∈ ws, ¬e.2.IsRefused e.1) := by
  induction ws generalizing settings with
  | nil => exact ⟨rfl, by simp [collect]⟩
  | cons e ws ih =>
    obtain ⟨key, w⟩ := e
    cases w with
    | checkbox label checked =>
      have accepted : ¬(Widget.checkbox label checked).IsRefused key := id
      rw [collect, taken_cons accepted, List.forall_mem_cons]
      exact ⟨(ih _).1, by rw [(ih _).2]; exact (and_iff_right accepted).symm⟩
    | field label placeholder text =>
      by_cases blank : trimmed text = ""
      · have accepted : ¬(Widget.field label placeholder text).IsRefused key := fun h => h.1 blank
        have none : (Widget.field label placeholder text).value? = none := if_pos blank
        rw [collect_blank blank, taken_cons accepted, none, List.forall_mem_cons]
        exact ⟨(ih _).1, by rw [(ih _).2]; exact (and_iff_right accepted).symm⟩
      · by_cases refused : (Widget.field label placeholder text).IsRefused key
        · obtain ⟨reason, unread⟩ := Widget.fieldValue_eq_error refused
          rw [collect_error blank unread, taken_cons_of_refused refused, List.forall_mem_cons]
          exact ⟨rfl, by simp [refused]⟩
        · obtain ⟨i, whole, read⟩ := Widget.fieldValue_eq_ok blank refused
          have value : (Widget.field label placeholder text).value? = some (.integer i) := by
            rw [Widget.value?, if_neg blank, Text.wholeNumber?, whole]
            rfl
          rw [collect_ok blank read, taken_cons refused, value, List.forall_mem_cons]
          exact ⟨(ih _).1, by rw [(ih _).2]; exact (and_iff_right refused).symm⟩

end Dialog

/-! ## Sessions -/

namespace Dialog

/-- The value that was taken over for a key last, of presses the latest of which stands first. -/
def latest (past : List Widgets) (key : CodeText) : Option Value :=
  past.findSome? fun ws => (taken ws).find? key

/-- What an opened dialog can become while it is open: by edits, and by OK presses that are refused,
whatever the files are like at each of them.  `past` has the widgets at these presses, the latest
first. -/
inductive Becomes (opened : Dialog) : List Widgets → Dialog → Prop where
  | opened : Becomes opened [] opened
  | edited {past : List Widgets} {d : Dialog} (h : Becomes opened past d) (key : CodeText)
      (e : Edit) : Becomes opened past (d.edit key e)
  | refused {past : List Widgets} {d : Dialog} (h : Becomes opened past d) (s : Store)
      (stays : (d.press s .ok).closing = none) :
      Becomes opened (d.widgets :: past) (d.press s .ok).dialog

/-- What an OK writes: each setting with what its widget gives; where that is nothing, with what was
taken over for it last, or else as it was loaded; and a setting without a widget as it was
loaded. -/
def written (loaded : Dictionary) (past : List Widgets) (ws : Widgets) : Dictionary :=
  loaded.map fun e => (e.1, match ws.lookup e.1 with
    | some w => w.value?.getD ((latest past e.1).getD e.2)
    | none => e.2)

/-- Settings with what was taken over for each of them last. -/
def overlaid (loaded : Dictionary) (past : List Widgets) : Dictionary :=
  loaded.map fun e => (e.1, (latest past e.1).getD e.2)

variable {loaded : Dictionary} {past : List Widgets} {ws : Widgets}

/-- Values taken from earlier presses leave the keys as they are. -/
theorem keys_overlaid (loaded : Dictionary) (past : List Widgets) :
    (overlaid loaded past).keys = loaded.keys :=
  Dictionary.keys_map loaded fun key value => (latest past key).getD value

/-- What is taken over has keys of widgets. -/
theorem keys_taken_sublist (ws : Widgets) : (taken ws).keys.Sublist (ws.map (·.1)) :=
  (keys_filterMap_sublist (fun e : CodeText × Widget => e.2.value?) _).trans
    ((List.takeWhile_sublist _).map _)

/-- **To take over once more is to put a dictionary over the settings.** -/
theorem update_taken (nodup : loaded.keys.Nodup) (keys : (ws.map (·.1)).Sublist loaded.keys) :
    (overlaid loaded past).update (taken ws) = overlaid loaded (ws :: past) := by
  have front := (keys_taken_sublist ws).trans keys
  rw [Dictionary.update_eq (by rwa [keys_overlaid]) (front.nodup nodup), keys_overlaid,
    List.filter_eq_nil_iff.2, List.append_nil, overlaid, overlaid, List.map_map]
  · refine List.map_congr_left fun e _ => ?_
    simp only [Function.comp_apply, latest, List.findSome?_cons]
    cases (taken ws).find? e.1 <;> rfl
  · intro e he
    simpa using front.subset (List.mem_map_of_mem he)

/-- What is taken over can be written to a file, if the keys can. -/
theorem fits_taken (nodup : (ws.map (·.1)).Nodup) (joined : ∀ key ∈ ws.map (·.1), key.IsJoined)
    (room : Nat) : (Value.dictionary (taken ws)).Fits (room + 1) := by
  have front := keys_taken_sublist ws
  have values : ∀ e ∈ taken ws, e.2.Fits room := by
    intro e he
    obtain ⟨⟨key, w⟩, -, given⟩ := List.mem_filterMap.1 he
    obtain ⟨v, hv, rfl⟩ := Option.map_eq_some_iff.1 given
    exact Widget.fits_of_value? hv room
  refine ⟨.dictionary (front.nodup nodup) (fun e he => ?_) fun e he => (values e he).storable, ?_⟩
  · exact joined _ (front.subset (List.mem_map_of_mem he))
  · exact Value.nesting_dictionary_le_iff.2 ⟨room, rfl, fun e he => (values e he).nesting⟩

/-- If no widget is refused, everything that the widgets give is taken over. -/
theorem overlaid_eq_written (nodup : (ws.map (·.1)).Nodup)
    (same : ∀ ws' ∈ past, ws'.map (·.1) = ws.map (·.1)) (accepted : ∀ e ∈ ws, ¬e.2.IsRefused e.1) :
    overlaid loaded (ws :: past) = written loaded past ws := by
  have all : taken ws = ws.filterMap fun e => e.2.value?.map (e.1, ·) := by
    rw [taken, List.takeWhile_eq_self_iff.2]
    simpa using accepted
  refine List.map_congr_left fun e _ => ?_
  have found : (taken ws).find? e.1 = (ws.lookup e.1).bind Widget.value? := by
    rw [all]
    exact lookup_filterMap nodup e.1
  simp only [latest, List.findSome?_cons, found]
  cases h : ws.lookup e.1 with
  | some w => cases hw : w.value? <;> simp [hw]
  | none =>
    -- A key without a widget has none at any press.
    have none : latest past e.1 = none := by
      refine List.findSome?_eq_none_iff.2 fun ws' hws' => ?_
      refine Dictionary.find?_eq_none_iff.2 fun mem => ?_
      have mem := (keys_taken_sublist ws').subset mem
      rw [same ws' hws'] at mem
      obtain ⟨e', he', eq⟩ := List.mem_map.1 mem
      have := List.lookup_eq_none_iff.1 h e' he'
      simp [eq] at this
    simp only [latest] at none
    simp [none]

/-! ## Presses -/

/-- The widgets of a dialog that has been opened have keys of its settings. -/
theorem keys_widgets_sublist (settings descriptions : Dictionary) :
    ((ofSettings settings descriptions).widgets.map (·.1)).Sublist settings.keys :=
  keys_filterMap_sublist (fun e : CodeText × Value =>
    Widget.ofValue? ((descriptions.find? e.1).getD (.text e.1)) e.2) settings

/-- An OK leaves the widgets alone, and the settings as far as they were collected. -/
theorem press_ok_dialog (d : Dialog) (s : Store) :
    (d.press s .ok).dialog = { d with settings := (collect d.settings d.widgets).1 } := by
  unfold press
  simp only []
  split
  · rename_i h
    rw [h]
  · rename_i h
    rw [h]
    split
    · rfl
    · split <;> rfl

/-- What holds of a dialog that has been opened on settings that a file can hold, with room for so
many containers in them. -/
structure Opened (room : Nat) (d : Dialog) : Prop where
  fits : (Value.dictionary d.settings).Fits (room + 1)
  front : Settings.defaults.keys <+: d.settings.keys
  keys : (d.widgets.map (·.1)).Sublist d.settings.keys

/-- A dialog that has been loaded is one that has been opened. -/
theorem opened_of_load {s : Store} {d : Dialog} (h : load s = .ok d) : Opened s.room d := by
  obtain ⟨settings, hs, h⟩ := bind_eq_ok.1 h
  obtain ⟨descriptions, -, h⟩ := bind_eq_ok.1 h
  cases h
  obtain ⟨fits, front⟩ := Store.fits_of_settings hs
  exact ⟨fits, front, keys_widgets_sublist settings descriptions⟩

variable {room : Nat}

/-- An opened dialog has one widget for a key at most. -/
theorem Opened.nodup {opened : Dialog} (h : Opened room opened) :
    (opened.widgets.map (·.1)).Nodup :=
  h.keys.nodup h.fits.storable.nodup_keys

/-- The keys of an opened dialog have their halves joined. -/
theorem Opened.joined {opened : Dialog} (h : Opened room opened) :
    ∀ key ∈ opened.widgets.map (·.1), key.IsJoined := by
  intro key mem
  obtain ⟨e, he, rfl⟩ := List.mem_map.1 (h.keys.subset mem)
  cases h.fits.storable with
  | dictionary _ joined _ => exact joined e he

/-- What an open dialog keeps: the keys of its widgets, and in its settings what was taken over. -/
structure Kept (room : Nat) (opened : Dialog) (past : List Widgets) (d : Dialog) : Prop where
  widgets : d.widgets.map (·.1) = opened.widgets.map (·.1)
  presses : ∀ ws ∈ past, ws.map (·.1) = opened.widgets.map (·.1)
  settings : d.settings = overlaid opened.settings past
  fits : (Value.dictionary d.settings).Fits (room + 1)

variable {opened d : Dialog} {past : List Widgets}

/-- To collect is to take over once more. -/
theorem Kept.collect (h : Kept room opened past d) (ho : Opened room opened) :
    (collect d.settings d.widgets).1 = overlaid opened.settings (d.widgets :: past) ∧
      (Value.dictionary (Dialog.collect d.settings d.widgets).1).Fits (room + 1) := by
  have keys : (d.widgets.map (·.1)).Sublist opened.settings.keys := h.widgets ▸ ho.keys
  rw [(collect_eq d.settings d.widgets).1]
  refine ⟨?_, h.fits.update (fits_taken ?_ ?_ room)⟩
  · rw [h.settings]
    exact update_taken ho.fits.storable.nodup_keys keys
  · exact h.widgets ▸ ho.nodup
  · exact h.widgets ▸ ho.joined

/-- **Every dialog that an opened one can become keeps what an open dialog keeps.** -/
theorem Becomes.kept (h : opened.Becomes past d) (ho : Opened room opened) :
    Kept room opened past d := by
  induction h with
  | opened =>
    refine ⟨rfl, List.forall_mem_nil _, ?_, ho.fits⟩
    simp [overlaid, latest]
  | edited _ key e ih =>
    refine ⟨?_, ih.presses, ih.settings, ih.fits⟩
    rw [← ih.widgets, Dialog.edit, List.map_map]
    rfl
  | refused _ s _ ih =>
    obtain ⟨settings, fits⟩ := ih.collect ho
    rw [press_ok_dialog]
    exact ⟨ih.widgets, List.forall_mem_cons.2 ⟨ih.widgets, ih.presses⟩, settings, fits⟩

/-- A press with a refused widget leaves the files alone. -/
theorem press_of_refused (s : Store) (h : ∃ e ∈ d.widgets, e.2.IsRefused e.1) :
    (d.press s .ok).closing = none ∧ (d.press s .ok).store = s ∧
      (d.press s .ok).failure = none := by
  have some : (Dialog.collect d.settings d.widgets).2 ≠ none := by
    rw [Ne, (collect_eq d.settings d.widgets).2]
    simpa using h
  unfold press
  simp only []
  split
  · exact ⟨rfl, rfl, rfl⟩
  · rename_i none
    rw [none] at some
    exact absurd rfl some

/-- A press without a refused widget saves what has been collected. -/
theorem press_of_accepted {s : Store} (h : ∀ e ∈ d.widgets, ¬e.2.IsRefused e.1)
    {settings : Dictionary} (collected : (Dialog.collect d.settings d.widgets).1 = settings)
    (ne : settings ≠ []) (fits : (Value.dictionary settings).Fits (s.room + 1)) :
    (s.IsWritable ∧ d.press s .ok =
        ⟨{ d with settings }, (s.save (.dictionary settings)).2, some .accepted, [], [], none⟩) ∨
      (¬s.IsWritable ∧ d.press s .ok = ⟨{ d with settings }, s, none, [.notSaved], [], none⟩) := by
  have none := (collect_eq d.settings d.widgets).2.2 h
  have all : Dialog.collect d.settings d.widgets = (settings, Option.none) :=
    Prod.ext collected none
  unfold press
  simp only [all]
  by_cases writable : s.IsWritable
  · left
    obtain ⟨saved, -⟩ := Store.save_of_fits writable fits
    have result : s.save (.dictionary settings) =
        (.ok (.dictionary settings), (s.save (.dictionary settings)).2) := Prod.ext saved rfl
    have isSaved : isSaved (.dictionary settings) = true := by
      cases settings with
      | nil => exact absurd rfl ne
      | cons e rest => rfl
    refine ⟨writable, ?_⟩
    rw [result]
    simp only [isSaved, if_true]
  · right
    refine ⟨writable, ?_⟩
    rw [Store.save_of_not_isWritable writable]
    rfl

/-- **What an accepted OK writes, and when an OK is refused.**  However often an opened dialog has
been edited and its OK refused, an OK is refused exactly if a field that is not blank holds no whole
number, or one out of range for the history limit, or if the file cannot be written; the files stay
as they are then.  An OK that is accepted writes the settings as they were loaded, with what the
widgets give in their places.  For a blank field that is what an OK before took over from it last,
and what was loaded only if none did.  (There is as much room for containers in a file as there was
when the dialog was opened.) -/
theorem accepted_writes_latest {s₀ : Store} (loaded : load s₀ = .ok opened)
    (h : opened.Becomes past d) (s : Store) (room : s₀.room ≤ s.room) :
    let p := d.press s .ok
    let settings := written opened.settings past d.widgets
    p.failure = none ∧
    (p.closing = none ↔ (∃ e ∈ d.widgets, e.2.IsRefused e.1) ∨
      (s.save (.dictionary settings)).1 = .ok (.dictionary [])) ∧
    (p.closing = none → p.store = s) ∧
    (p.closing ≠ none → p.closing = some .accepted ∧
      p.store = (s.save (.dictionary settings)).2 ∧ p.store.settings = .ok settings) := by
  intro p settings
  have ho := opened_of_load loaded
  have kept := h.kept ho
  by_cases refused : ∃ e ∈ d.widgets, e.2.IsRefused e.1
  · obtain ⟨closing, store, failure⟩ := press_of_refused s refused
    exact ⟨failure, iff_of_true closing (.inl refused), fun _ => store,
      fun accepted => absurd closing accepted⟩
  · have accepted : ∀ e ∈ d.widgets, ¬e.2.IsRefused e.1 := by simpa using refused
    obtain ⟨collected, fits⟩ := kept.collect ho
    have eq : overlaid opened.settings (d.widgets :: past) = settings :=
      overlaid_eq_written (kept.widgets ▸ ho.nodup)
        (fun ws hws => (kept.presses ws hws).trans kept.widgets.symm) accepted
    rw [collected, eq] at fits
    have fits := fits.of_le (Nat.succ_le_succ room)
    rw [eq] at collected
    have keys : settings.keys = opened.settings.keys := by rw [← eq, keys_overlaid]
    have front : Settings.defaults.keys <+: settings.keys := keys ▸ ho.front
    have ne : settings ≠ [] := by
      intro nil
      rw [nil] at front
      exact absurd (List.prefix_nil.1 front) (by decide)
    rcases press_of_accepted (s := s) accepted collected ne fits with
      ⟨writable, press⟩ | ⟨writable, press⟩
    · obtain ⟨saved, reloaded⟩ := Store.save_of_fits writable fits
      rw [Dictionary.update_eq_self fits.storable.nodup_keys front] at reloaded
      simp only [p, press, saved]
      simp [refused, ne, reloaded]
    · simp only [p, press, Store.save_of_not_isWritable writable]
      simp

/-- **A blank field does not always keep the value that was loaded.**  An OK is refused for a second
field; then both fields are emptied, and the next OK writes what the first had held. -/
theorem run_blank_behind_refused : ∃ opened : Dialog,
    load ⟨.ofText "\x7b\"n\": 5\x7d", .missing, true, Store.usualRoom⟩ = .ok opened ∧
      (opened.settings.find? "history_limit").map Value.shown = some "10" ∧
      let outcome := opened.run ⟨.ofText "\x7b\"n\": 5\x7d", .missing, true, Store.usualRoom⟩
        [⟨[("history_limit", .write "3"), ("n", .write "x")], .ok⟩,
          ⟨[("history_limit", .write ""), ("n", .write "")], .ok⟩]
      outcome.closings = [none, some .accepted] ∧
        (outcome.store.setting (some "history_limit")).map Value.shown = .ok "3" := by
  have evaluated : (load ⟨.ofText "\x7b\"n\": 5\x7d", .missing, true, Store.usualRoom⟩).map
      (fun opened =>
      let outcome := opened.run ⟨.ofText "\x7b\"n\": 5\x7d", .missing, true, Store.usualRoom⟩
        [⟨[("history_limit", .write "3"), ("n", .write "x")], .ok⟩,
          ⟨[("history_limit", .write ""), ("n", .write "")], .ok⟩]
      ((opened.settings.find? "history_limit").map Value.shown, outcome.closings,
        (outcome.store.setting (some "history_limit")).map Value.shown)) =
      .ok (some "10", [none, some .accepted], .ok "3") := by
    decide +kernel
  cases loaded : load ⟨.ofText "\x7b\"n\": 5\x7d", .missing, true, Store.usualRoom⟩ with
  | error failure =>
    rw [loaded] at evaluated
    cases evaluated
  | ok opened =>
    rw [loaded] at evaluated
    have evaluated := Except.ok.inj evaluated
    exact ⟨opened, rfl, congrArg (·.1) evaluated, congrArg (·.2.1) evaluated,
      congrArg (·.2.2) evaluated⟩

/-- An OK that finds the file out of reach has taken over a limit of three, and the next one writes
it although the field is blank by then. -/
theorem accepted_writes_latest_of_unreachable : ∃ opened d : Dialog, ∃ past : List Widgets,
    load ⟨.missing, .missing, true, Store.usualRoom⟩ = .ok opened ∧ opened.Becomes past d ∧
      (d.press ⟨.missing, .missing, true, Store.usualRoom⟩ .ok).store.settings =
        .ok (written opened.settings past d.widgets) ∧
      ((written opened.settings past d.widgets).find? "history_limit").map Value.shown =
        some "3" := by
  have loaded : load ⟨.missing, .missing, true, Store.usualRoom⟩ =
      .ok (.ofSettings Settings.defaults Settings.defaultDescriptions) := rfl
  let opened := ofSettings Settings.defaults Settings.defaultDescriptions
  have three : opened.Becomes [] (opened.edit "history_limit" (.write "3")) := .edited .opened _ _
  have refused := three.refused ⟨.missing, .missing, false, Store.usualRoom⟩ (by decide +kernel)
  have blank := refused.edited "history_limit" (.write "")
  refine ⟨opened, _, _, loaded, blank, ?_, by decide +kernel⟩
  exact ((accepted_writes_latest loaded blank _ (Nat.le_refl _)).2.2.2 (by decide +kernel)).2.2

end Dialog

end Window
end DeskCalculator

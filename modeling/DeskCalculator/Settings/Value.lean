/-
# Setting values

What a settings file can hold, with dictionaries that keep the order in which their keys were first
put in. A `foreign` value stands for anything else that a program might put among its settings; it
cannot be written to a file.
-/

import DeskCalculator.Decimal.Notation
import DeskCalculator.Text.CodePoint

namespace DeskCalculator
namespace Settings

/-- The value of a setting. -/
inductive Value where
  | null
  | bool (b : Bool)
  | integer (i : Int)
  | number (x : Binary64)
  | text (s : CodeText)
  | list (items : List Value)
  | dictionary (entries : List (CodeText × Value))
  | foreign

/-- Values by key, each key once, in the order of their first insertion. -/
abbrev Dictionary := List (CodeText × Value)

namespace Dictionary

/-- The value of a key. -/
def find? (d : Dictionary) (key : CodeText) : Option Value := d.lookup key

/-- Gives a key a value: in its place if the key is there, at the end otherwise. -/
def insert (key : CodeText) (value : Value) : Dictionary → Dictionary
  | [] => [(key, value)]
  | (k, v) :: rest => if k = key then (k, value) :: rest else (k, v) :: insert key value rest

/-- Inserts all entries of a second dictionary. -/
def update (d more : Dictionary) : Dictionary := more.foldl (fun d (k, v) => d.insert k v) d

/-- The dictionary that a list of entries gives, the last value of a key being the one that
counts. -/
def ofEntries (entries : List (CodeText × Value)) : Dictionary := update [] entries

/-- The keys in order. -/
def keys (d : Dictionary) : List CodeText := d.map (·.1)

/-- What has been put under a key is found there. -/
theorem find?_insert_self (d : Dictionary) (key : CodeText) (value : Value) :
    (d.insert key value).find? key = some value := by
  unfold find?
  fun_induction insert key value d with
  | case1 => simp
  | case2 => simp
  | case3 k v rest h ih => rw [List.lookup_cons, beq_false_of_ne (Ne.symm h)]; exact ih

/-- Putting a value under a key leaves the other keys as they are. -/
theorem find?_insert_of_ne (d : Dictionary) {key other : CodeText} (value : Value)
    (ne : other ≠ key) : (d.insert key value).find? other = d.find? other := by
  unfold find?
  fun_induction insert key value d with
  | case1 => rw [List.lookup_cons, beq_false_of_ne ne]
  | case2 v rest => rw [List.lookup_cons, List.lookup_cons, beq_false_of_ne ne]
  | case3 k v rest h ih => rw [List.lookup_cons, List.lookup_cons, ih]

/-- Inserting keeps the keys in their places and puts a new one at the end. -/
theorem keys_insert (d : Dictionary) (key : CodeText) (value : Value) :
    (d.insert key value).keys = if key ∈ d.keys then d.keys else d.keys ++ [key] := by
  unfold keys
  fun_induction insert key value d with
  | case1 => simp
  | case2 => simp
  | case3 k v rest h ih =>
    have hk : ¬key = k := Ne.symm h
    simp only [List.map_cons, ih, List.mem_cons, hk, false_or]
    split <;> rfl

end Dictionary

namespace Value

/-- Whether a value counts as true where a switch is asked for: all but nothing, no, zero and what
is empty. -/
def isTruthy : Value → Bool
  | .null => false
  | .bool b => b
  | .integer i => i != 0
  | .number x => !x.isZero
  | .text s => !s.points.isEmpty
  | .list items => !items.isEmpty
  | .dictionary entries => !entries.isEmpty
  | .foreign => true

/-- Whether a value is exactly true, or the number one. -/
def isTrue : Value → Bool
  | .bool b => b
  | .integer i => i == 1
  | .number x => x == .one
  | _ => false

mutual

/-- A value on one line, as the log shows it. -/
def shown : Value → String
  | .null => "None"
  | .bool b => if b then "True" else "False"
  | .integer i => toString i
  | .number x => x.literal
  | .text s => s.quoted
  | .list items => "[" ++ ", ".intercalate (shownItems items) ++ "]"
  | .dictionary entries => "\x7b" ++ ", ".intercalate (shownEntries entries) ++ "\x7d"
  | .foreign => "<object>"

/-- The items of a list, each as the log shows it. -/
def shownItems : List Value → List String
  | [] => []
  | v :: rest => v.shown :: shownItems rest

/-- The entries of a dictionary, each as the log shows it. -/
def shownEntries : List (CodeText × Value) → List String
  | [] => []
  | (k, v) :: rest => (k.quoted ++ ": " ++ v.shown) :: shownEntries rest

end

/-- A value as a label: a text as it is. -/
def label : Value → String
  | .text s => s.shown
  | v => v.shown

end Value
end Settings
end DeskCalculator

/-
# Texts within texts

`occursIn part whole`: the characters of `part` stand one behind the other somewhere in `whole`. The
empty text stands everywhere.
-/

namespace DeskCalculator
namespace Text

/-- Whether a text stands somewhere in another. -/
def occursIn (part : List Char) : List Char → Bool
  | [] => part.isEmpty
  | c :: rest => part.isPrefixOf (c :: rest) || occursIn part rest

end Text
end DeskCalculator

/-! Search for one text inside another. -/

namespace Typecodes.Text

/-- Whether the first list occurs in the second as one unbroken stretch. -/
def occursIn (part : List Char) : List Char → Bool
  | [] => part.isEmpty
  | first :: rest => part.isPrefixOf (first :: rest) || occursIn part rest

end Typecodes.Text

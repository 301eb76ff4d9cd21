/-!
# Lists in a text

Every list that is written out has a comma and a space between its members.
-/

namespace Monkey.Text

/-- Texts one after the other, with a comma and a space between them. -/
def commaJoin (texts : List String) : String := String.intercalate ", " texts

end Monkey.Text

/-!
# Upper case into ASCII

The upper-case form of a text as far as it is ASCII. Besides the small letters of ASCII there are
ten characters with such a form, among them the ligatures, which become two or three letters. All
other characters are kept: their upper-case forms are outside ASCII too.
-/

namespace ObjectDepot.Text

/-- The upper-case form of a character. -/
def uppercaseChar (c : Char) : List Char :=
  match c.toNat with
  | 0x00df => ['S', 'S']
  | 0x0131 => ['I']
  | 0x017f => ['S']
  | 0xfb00 => ['F', 'F']
  | 0xfb01 => ['F', 'I']
  | 0xfb02 => ['F', 'L']
  | 0xfb03 => ['F', 'F', 'I']
  | 0xfb04 => ['F', 'F', 'L']
  | 0xfb05 | 0xfb06 => ['S', 'T']
  | _ => [c.toUpper]

/-- The upper-case form of a text. -/
def uppercase (text : String) : String :=
  String.ofList (text.toList.flatMap uppercaseChar)

end ObjectDepot.Text

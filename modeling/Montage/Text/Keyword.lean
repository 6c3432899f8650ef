import Montage.Text.Blank

/-!
# Keywords

A keyword is written in capitals.  `keyword?` finds it as it is at the front of a line;
`looseKeyword?` finds it in any letter case, where the dotted and dotless forms of i count as
an I, the long s as an S, and the sign for kelvins as a K.
-/

namespace Montage.Text

/-- What follows a keyword at the front. -/
def keyword? : List Char → List Char → Option (List Char)
  | [], cs => some cs
  | _ :: _, [] => none
  | k :: ks, c :: cs => if k = c then keyword? ks cs else none

/-- Whether a character is a given capital letter in some case. -/
def isLetter (capital c : Char) : Bool :=
  c.toUpper = capital
    || (capital = 'I' && (c = '\u0130' || c = '\u0131'))
    || (capital = 'S' && c = '\u017f')
    || (capital = 'K' && c = '\u212a')

/-- What follows a keyword in any letter case at the front. -/
def looseKeyword? : List Char → List Char → Option (List Char)
  | [], cs => some cs
  | _ :: _, [] => none
  | k :: ks, c :: cs => if isLetter k c then looseKeyword? ks cs else none

end Montage.Text

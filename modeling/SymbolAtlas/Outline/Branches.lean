import SymbolAtlas.Text.Basic
import SymbolAtlas.Text.Word

/-!
# Branch points

The complexity of a callable is one more than the number of branch points in its text:

* each of the words `if`, `for`, `while`, `case` and `catch`, standing alone;
* each `&&` and each `||`, read from left to right without overlap;
* each question mark that neither follows a question mark nor comes before a dot or another
  question mark.

Strings and comments are not excepted.
-/

namespace SymbolAtlas

/-- The words that open a branch. -/
def branchWords : List Text :=
  ["if".toList, "for".toList, "while".toList, "case".toList, "catch".toList]

/-- Whether a question mark with `before` on its left and `after` on its right is a branch. -/
def isChoice (before : Option Char) (after : Text) : Bool :=
  before != some '?' &&
    match after with
    | '.' :: _ => false
    | '?' :: _ => false
    | _ => true

/-- `count` plus the number of branch points of a text that follows the character `before`. -/
def branchesFrom (count : Nat) (before : Option Char) : Text → Nat
  | [] => count
  | '&' :: '&' :: t => branchesFrom (count + 1) (some '&') t
  | '|' :: '|' :: t => branchesFrom (count + 1) (some '|') t
  | c :: t =>
    if c == '?' then branchesFrom (if isChoice before t then count + 1 else count) (some c) t
    else if isWord c && !before.any isWord && branchWords.contains ((c :: t).takeWhile isWord) then
      branchesFrom (count + 1) (some c) t
    else branchesFrom count (some c) t

/-- The number of branch points of a text. -/
def branches (t : Text) : Nat := branchesFrom 0 none t

end SymbolAtlas

/-! # Blank characters

* `isBlank`: the 25 characters with the Unicode property White_Space.
* `trimStart`, `trim`: a text without the blanks at its start, or at both ends.
-/

namespace Dispatch.Text
set_option autoImplicit false

def isBlank (c : Char) : Bool :=
  let n := c.toNat
  (0x9 ≤ n && n ≤ 0xD) || n == 0x20 || n == 0x85 || n == 0xA0 || n == 0x1680 ||
    (0x2000 ≤ n && n ≤ 0x200A) || n == 0x2028 || n == 0x2029 || n == 0x202F || n == 0x205F ||
    n == 0x3000

def trimStart (cs : List Char) : List Char := cs.dropWhile isBlank

def trimEnd (cs : List Char) : List Char := (cs.reverse.dropWhile isBlank).reverse

def trim (cs : List Char) : List Char := trimEnd (trimStart cs)

def underscored (s : String) : String :=
  String.ofList (s.toList.map fun c => if isBlank c then '_' else c)

/-! ## Letters without case -/

def sameWord (a b : String) : Bool :=
  a.toList.map Char.toLower == b.toList.map Char.toLower

theorem trimStart_of_head {c : Char} {cs : List Char} (h : isBlank c = false) :
    trimStart (c :: cs) = c :: cs := by
  simp [trimStart, h]

@[simp] theorem trim_nil : trim [] = [] := rfl

end Dispatch.Text

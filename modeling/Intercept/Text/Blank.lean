/-!
# Blank characters

The characters of the Unicode property `White_Space`, 25 code points in all, and trimming
by them.  Numeric option values and integer parameters written as strings are trimmed this
way before they are read, so a no-break space or an ideographic space around a number is
ignored while any other character is not.

Main statement: `isBlank_of_isWhitespace` (every character that core counts as whitespace
is blank here too).
-/

namespace Intercept.Text

/-- Whether a character has the Unicode property `White_Space`. -/
def isBlank (c : Char) : Bool :=
  let n := c.toNat
  (0x09 ≤ n && n ≤ 0x0D) || n == 0x20 || n == 0x85 || n == 0xA0 || n == 0x1680 ||
    (0x2000 ≤ n && n ≤ 0x200A) || n == 0x2028 || n == 0x2029 || n == 0x202F ||
    n == 0x205F || n == 0x3000

def trimBlank (cs : List Char) : List Char :=
  ((cs.dropWhile isBlank).reverse.dropWhile isBlank).reverse

theorem isBlank_of_isWhitespace (c : Char) (h : c.isWhitespace = true) : isBlank c = true := by
  simp only [Char.isWhitespace, Bool.or_eq_true, decide_eq_true_eq] at h
  rcases h with ((h | h) | h) | h <;>
    simp [isBlank, h]

def blankCodePoints : List Nat :=
  [0x09, 0x0A, 0x0B, 0x0C, 0x0D, 0x20, 0x85, 0xA0, 0x1680, 0x2000, 0x2001, 0x2002, 0x2003,
    0x2004, 0x2005, 0x2006, 0x2007, 0x2008, 0x2009, 0x200A, 0x2028, 0x2029, 0x202F, 0x205F,
    0x3000]

example : blankCodePoints.length = 25 ∧
    blankCodePoints.all (fun n => isBlank (Char.ofNat n)) = true := by decide

example : isBlank (Char.ofNat 0x200B) = false ∧ isBlank (Char.ofNat 0xFEFF) = false := by decide

end Intercept.Text

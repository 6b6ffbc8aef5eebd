import Intercept.Text.Printable
/-!
# Quoted text in messages

Messages quote user text between double quotes, and single characters between single quotes:
the quote in use and the backslash are escaped with a backslash, tab, line feed, carriage
return and NUL by their letter escapes (`\t`, `\n`, `\r`, `\0`), and characters that print as
nothing visible by `\u{...}` with lowercase hexadecimal digits and no padding.  Every other
character, the other quote included, stands for itself.

The characters written as `\u{...}` are those that print as nothing visible or that attach
to the character before them, as `Text.Printable` defines them.
-/

namespace Intercept.Text

/-- Whether a character is written as a `\u{...}` escape inside quotes: it extends the
grapheme before it or does not print. -/
def isHidden (c : Char) : Bool := isGraphemeExtend c || !isPrintable c

/-- The written form of one character between quotes `q`: the quote itself and the
backslash take a backslash, the other quote stands for itself. -/
def quoteCharBetween (q c : Char) : List Char :=
  if c = q ∨ c = '\\' then ['\\', c]
  else
    match c with
    | '\t' => ['\\', 't']
    | '\n' => ['\\', 'n']
    | '\r' => ['\\', 'r']
    | _ =>
      if c.toNat = 0 then ['\\', '0']
      else if isHidden c then ['\\', 'u', '\x7b'] ++ Nat.toDigits 16 c.toNat ++ ['\x7d']
      else [c]

/-- The written form of one character inside double quotes. -/
def quoteChar (c : Char) : List Char := quoteCharBetween '"' c

/-- A text between double quotes, escaped. -/
def quoted (s : String) : String :=
  String.ofList ('"' :: s.toList.flatMap quoteChar ++ ['"'])

/-- A single character between single quotes, escaped. -/
def quotedChar (c : Char) : String :=
  String.ofList ('\'' :: quoteCharBetween '\'' c ++ ['\''])

/-- A character that prints and is neither the double quote nor the backslash stands for
itself inside double quotes; the control characters with letter escapes do not print. -/
theorem quoteChar_plain (c : Char) (hq : c ≠ '"') (hb : c ≠ '\\') (hz : c.toNat ≠ 0)
    (hv : isHidden c = false) : quoteChar c = [c] := by
  have ht : c ≠ '\t' := fun h => by subst h; revert hv; decide +kernel
  have hn : c ≠ '\n' := fun h => by subst h; revert hv; decide +kernel
  have hr : c ≠ '\r' := fun h => by subst h; revert hv; decide +kernel
  unfold quoteChar quoteCharBetween
  split
  · simp_all
  · split <;> simp_all

end Intercept.Text

import VersionedObjects.Text.Ranges

/-!
# Blank characters

The characters with the Unicode property `White_Space`. Command lines are trimmed and split at
these; declarations skip ASCII blanks only.
-/

namespace VersionedObjects.Text

/-- The property `White_Space`. -/
def blankRanges : Ranges :=
  [(0x0009, 0x000d), (0x0020, 0x0020), (0x0085, 0x0085), (0x00a0, 0x00a0), (0x1680, 0x1680),
   (0x2000, 0x200a), (0x2028, 0x2029), (0x202f, 0x202f), (0x205f, 0x205f), (0x3000, 0x3000)]

/-- The character is blank. -/
def isBlank (c : Char) : Bool :=
  blankRanges.contains c

/-- The text without the blanks at its start. -/
def trimStart (cs : List Char) : List Char :=
  cs.dropWhile isBlank

/-- The text without the blanks at its end. -/
def trimEnd (cs : List Char) : List Char :=
  (cs.reverse.dropWhile isBlank).reverse

/-- The text without the blanks at either end. -/
def trim (cs : List Char) : List Char :=
  trimEnd (trimStart cs)

/-- The maximal runs of characters that are not blank, in order. -/
def words (cs : List Char) : List (List Char) :=
  match _h : trimStart cs with
  | [] => []
  | c :: rest =>
    (c :: rest.takeWhile (!isBlank ·)) :: words (rest.dropWhile (!isBlank ·))
termination_by cs.length
decreasing_by
  have h₁ : (trimStart cs).length ≤ cs.length := (List.dropWhile_suffix _).length_le
  have h₂ := (List.dropWhile_suffix (l := rest) (!isBlank ·)).length_le
  rw [_h] at h₁
  simp only [List.length_cons] at h₁
  omega

end VersionedObjects.Text

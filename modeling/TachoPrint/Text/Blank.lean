/-!
# Blanks and words

Words are separated by the characters that Unicode calls white space.

## Main definitions

* `isBlank` — the white space characters.
* `words` — the words of a text, in order.
-/

namespace TachoPrint

/-- The code points with the Unicode property `White_Space`, as closed ranges. -/
def blankRanges : List (Nat × Nat) :=
  [(0x9, 0xd), (0x20, 0x20), (0x85, 0x85), (0xa0, 0xa0), (0x1680, 0x1680), (0x2000, 0x200a),
    (0x2028, 0x2029), (0x202f, 0x202f), (0x205f, 0x205f), (0x3000, 0x3000)]

/-- True of the white space characters. -/
def isBlank (c : Char) : Bool :=
  blankRanges.any fun (first, last) => first ≤ c.toNat && c.toNat ≤ last

/-- A word in front of others, unless it is empty. -/
def consWord (w : List Char) (ws : List (List Char)) : List (List Char) :=
  if w = [] then ws else w :: ws

/-- One more character in front: a blank ends the word that starts after it, any
other character joins it. -/
def wordStep (c : Char) (s : List Char × List (List Char)) : List Char × List (List Char) :=
  if isBlank c then ([], consWord s.1 s.2) else (c :: s.1, s.2)

/-- The words of a text: its longest runs without a blank, in order. -/
def words (cs : List Char) : List (List Char) :=
  let (w, ws) := cs.foldr wordStep ([], [])
  consWord w ws

end TachoPrint

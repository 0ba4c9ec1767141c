/-!
# Texts in pieces

* `pieces`: the pieces of a text between marks; there is one more of them than of marks.
* `splitFirst?`: the two parts of a text around its first mark.
-/

namespace Lookout.Text

/-- Puts a character in front of the first piece. -/
def consPiece (c : Char) : List (List Char) → List (List Char)
  | [] => [[c]]
  | p :: ps => (c :: p) :: ps

/-- The pieces of a text between marks. -/
def pieces (mark : Char) : List Char → List (List Char)
  | [] => [[]]
  | c :: rest => if c = mark then [] :: pieces mark rest else consPiece c (pieces mark rest)

/-- The text in front of the first mark and the text after it, if there is a mark. -/
def splitFirst? (mark : Char) (s : List Char) : Option (List Char × List Char) :=
  match s.dropWhile (· != mark) with
  | _ :: rest => some (s.takeWhile (· != mark), rest)
  | [] => none

theorem pieces_ne_nil (mark : Char) : ∀ s : List Char, pieces mark s ≠ []
  | [] => by simp [pieces]
  | c :: rest => by
    unfold pieces
    split
    · simp
    · cases pieces mark rest <;> simp [consPiece]

end Lookout.Text

import StoredProc.Text.Basic

/-!
The Jaro similarity of two texts: how many characters they share at
about the same place, and how many of those are out of order. It is a
number between zero and one, of double precision: where two similarities
are all but equal, which of them is larger depends on how each is
rounded.
-/

namespace StoredProc.Text.Jaro

/-- How far apart two places may be for a shared character to count. -/
def reach (a b : Text) : Nat := max a.length b.length / 2 - 1

/-- Take the first free place of `c` within reach of place `i`. The list
holds the characters of the other text with whether each is still free;
`j` is the place of its head. -/
def pair? (reach i : Nat) (c : Char) : Nat → List (Char × Bool) → Option (List (Char × Bool))
  | _, [] => none
  | j, (d, free) :: rest =>
      if free && d = c && i ≤ j + reach && j ≤ i + reach then some ((d, false) :: rest)
      else (pair? reach i c (j + 1) rest).map ((d, free) :: ·)

/-- The characters of the first text that find a place in the second, and
what is then left of the second. -/
def pairs (reach : Nat) :
    Nat → Text → List (Char × Bool) → Text × List (Char × Bool)
  | _, [], places => ([], places)
  | i, c :: rest, places =>
      match pair? reach i c 0 places with
      | some places =>
          let (paired, places) := pairs reach (i + 1) rest places
          (c :: paired, places)
      | none => pairs reach (i + 1) rest places

/-- The mean of three shares: of the characters of either text that are
shared, and of the shared characters that are in order. The texts have
`a` and `b` characters, of which they share `m`. -/
def mean (a b m swaps : Nat) : Float :=
  (m.toFloat / a.toFloat + m.toFloat / b.toFloat + (m - swaps).toFloat / m.toFloat) / 3.0

def score (a b : Text) : Float :=
  let (fromA, places) := pairs (reach a b) 0 a (b.map (·, true))
  let fromB := (places.filter (!·.2)).map (·.1)
  let unequal := ((fromA.zip fromB).filter fun (c, d) => c ≠ d).length
  if a = [] ∧ b = [] then 1.0
  else if fromA = [] then 0.0
  else mean a.length b.length fromA.length (unequal / 2)

end StoredProc.Text.Jaro

import EvoSched.Scalar

set_option autoImplicit false

namespace EvoSched.Scalar

variable {α : Type} [Scalar α]

/-- Adds each further block of eight terms to the eight sums; also returns the terms left over. -/
def addBlocks (sums terms : List α) : List α × List α :=
  if 8 ≤ terms.length then
    addBlocks (List.zipWith (· + ·) sums (terms.take 8)) (terms.drop 8)
  else (sums, terms)
termination_by terms.length
decreasing_by simp; omega

def blockSum (terms : List α) : α :=
  match addBlocks (terms.take 8) (terms.drop 8) with
  | ([s0, s1, s2, s3, s4, s5, s6, s7], rest) =>
    rest.foldl (· + ·) (((s0 + s1) + (s2 + s3)) + ((s4 + s5) + (s6 + s7)))
  | _ => sum terms

def pairwiseSum (terms : List α) : α :=
  if 128 < terms.length then
    let half := terms.length / 2 / 8 * 8
    pairwiseSum (terms.take half) + pairwiseSum (terms.drop half)
  else blockSum terms
termination_by terms.length
decreasing_by
  · simp; omega
  · simp; omega

/-- The mean of no terms is zero. -/
def mean (terms : List α) : α :=
  if terms.isEmpty then zero
  else (zero + pairwiseSum terms) / ofInt terms.length

end EvoSched.Scalar

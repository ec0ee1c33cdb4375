set_option autoImplicit false

namespace EvoSched.Ranking

variable {β : Type}

/-- The value at an index is before the place. -/
def isBefore (before : β → Bool) (xs : List β) (index : Nat) : Bool := (xs[index]?).any before

/-- The place between `low` and `high`, found by halving what is between. -/
def bisect (before : β → Bool) (xs : List β) (low high : Nat) : Nat :=
  if low < high then
    let middle := low + (high - low) / 2
    if isBefore before xs middle then bisect before xs (middle + 1) high
    else bisect before xs low middle
  else low
termination_by high - low

/-- Leaps of growing width, as long as there is `further` to go: the width of the last that was
not too far, and of the first that was, which is `limit` at most. -/
def leap (further : Nat → Bool) (limit last next : Nat) : Nat × Nat :=
  if next < limit then
    if further next then leap further limit next (2 * next + 1) else (last, next)
  else (last, limit)
termination_by limit - next

/-- The place, found by leaps from `hint` and bisection between the last two. -/
def gallop (before : β → Bool) (xs : List β) (hint : Nat) : Nat :=
  if isBefore before xs hint then
    let (last, next) := leap (fun width => isBefore before xs (hint + width)) (xs.length - hint) 0 1
    bisect before xs (hint + last + 1) (hint + next)
  else
    let (last, next) := leap (fun width => !isBefore before xs (hint - width)) (hint + 1) 0 1
    bisect before xs (hint + 1 - next) (hint - last)

/-- Puts a value behind all that it does not precede, as bisection finds them. -/
def insert (lt : β → β → Bool) (value : β) (xs : List β) : List β :=
  let place := bisect (fun x => !lt value x) xs 0 xs.length
  xs.take place ++ value :: xs.drop place

theorem perm_insert (lt : β → β → Bool) (value : β) (xs : List β) :
    (insert lt value xs).Perm (value :: xs) := by
  have := @List.perm_middle _ value (xs.take (bisect (fun x => !lt value x) xs 0 xs.length))
    (xs.drop (bisect (fun x => !lt value x) xs 0 xs.length))
  rwa [List.take_append_drop] at this

end EvoSched.Ranking

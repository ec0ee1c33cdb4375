import EvoSched.Ranking.Place

/-!
Merges of two adjacent runs. Values are compared one by one until one run wins often enough in a
row; then whole stretches are found by galloping, as long as that pays. How often is enough is the
patience, which later merges start from.
-/

set_option autoImplicit false

namespace EvoSched.Ranking

variable {β : Type}

/-- From the front the left run is the short one; from the back the right run is, and both stand
backwards. -/
inductive Direction where
  | front
  | back
  deriving DecidableEq, Repr

/-- Two runs being merged. -/
structure Merge (β : Type) where
  /-- What has been merged, backwards. -/
  merged : List β
  short : List β
  long : List β
  patience : Nat

namespace Merge

def takeShort (m : Merge β) (count : Nat) : Merge β :=
  { m with merged := (m.short.take count).reverse ++ m.merged, short := m.short.drop count }

def takeLong (m : Merge β) (count : Nat) : Merge β :=
  { m with merged := (m.long.take count).reverse ++ m.merged, long := m.long.drop count }

/-- A run is used up, or all but the last value of the short one, which comes last of all. -/
def isOver (m : Merge β) : Bool := m.long.isEmpty || m.short.length ≤ 1

/-- The values in the order reached so far. -/
def values (m : Merge β) : List β := m.merged.reverse ++ (m.long ++ m.short)

end Merge

/-- Of the first values of both runs, the long run's comes first. -/
def longWins (lt : β → β → Bool) : Direction → β → β → Bool
  | .front, x, y => lt y x
  | .back, x, y => lt x y

/-- How many values of the short run come ahead of `y`. -/
def shortLead (lt : β → β → Bool) (y : β) (xs : List β) : Direction → Nat
  | .front => gallop (fun x => !lt y x) xs 0
  | .back => xs.length - gallop (fun x => lt x y) xs.reverse (xs.length - 1)

/-- How many values of the long run come ahead of `x`. -/
def longLead (lt : β → β → Bool) (x : β) (ys : List β) : Direction → Nat
  | .front => gallop (fun y => lt y x) ys 0
  | .back => ys.length - gallop (fun y => !lt x y) ys.reverse (ys.length - 1)

inductive Pace where
  /-- Value by value, after so many wins of the short and of the long run in a row. -/
  | single (short long : Nat)
  | gallop
  /-- Galloping in the other run, after a stretch of some length. -/
  | gallopOn (stretch : Nat)

namespace Merge

/-- Takes a stretch of the short run and a value of the long one. -/
def leapShort (lt : β → β → Bool) (direction : Direction) (m : Merge β) : Nat × Merge β :=
  match m.long with
  | [] => (0, m)
  | y :: _ =>
    let stretch := shortLead lt y m.short direction
    let m := m.takeShort stretch
    (stretch, if m.isOver then m else m.takeLong 1)

/-- Takes a stretch of the long run and a value of the short one. -/
def leapLong (lt : β → β → Bool) (direction : Direction) (m : Merge β) : Nat × Merge β :=
  match m.short with
  | [] => (0, m)
  | x :: _ =>
    let stretch := longLead lt x m.long direction
    let m := m.takeLong stretch
    (stretch, if m.isOver then m else m.takeShort 1)

/-- Galloping begins in the left run. -/
def leapLeft (lt : β → β → Bool) (direction : Direction) (m : Merge β) : Nat × Merge β :=
  match direction with
  | .front => m.leapShort lt direction
  | .back => m.leapLong lt direction

def leapRight (lt : β → β → Bool) (direction : Direction) (m : Merge β) : Nat × Merge β :=
  match direction with
  | .front => m.leapLong lt direction
  | .back => m.leapShort lt direction

/-- A stretch of this length makes galloping worth while. -/
def longStretch : Nat := 7

def stepSingle (lt : β → β → Bool) (direction : Direction) (shortWins longWon : Nat)
    (m : Merge β) : Pace × Merge β :=
  match m.short, m.long with
  | x :: _, y :: _ =>
    if longWins lt direction x y then
      (if m.patience ≤ longWon + 1 then .gallop else .single 0 (longWon + 1), m.takeLong 1)
    else
      (if m.patience ≤ shortWins + 1 then .gallop else .single (shortWins + 1) 0, m.takeShort 1)
  | _, _ => (.gallop, m)

/-- The end of a round of galloping: patience shrinks while it pays and grows where it stops. -/
def endRound (before after : Nat) (m : Merge β) : Pace × Merge β :=
  if longStretch ≤ before || longStretch ≤ after then
    (.gallop, { m with patience := max 1 (m.patience - 1) })
  else (.single 0 0, { m with patience := m.patience + 1 })

def step (lt : β → β → Bool) (direction : Direction) (pace : Pace) (m : Merge β) :
    Pace × Merge β :=
  match pace with
  | .single short long => m.stepSingle lt direction short long
  | .gallop =>
    let (stretch, m) := m.leapLeft lt direction
    (.gallopOn stretch, m)
  | .gallopOn before =>
    let (after, m) := m.leapRight lt direction
    if m.isOver then (.gallop, m) else m.endRound before after

/-- Goes on until the merge is over. Every step takes a value, so that there are no more steps
than values. -/
def run (lt : β → β → Bool) (direction : Direction) : Nat → Pace → Merge β → Merge β
  | 0, _, m => m
  | steps + 1, pace, m =>
    if m.isOver then m
    else
      let (pace, m) := m.step lt direction pace
      run lt direction steps pace m

/-- Merges two runs of which the long one has the first value. -/
def complete (lt : β → β → Bool) (direction : Direction) (short long : List β) (patience : Nat) :
    List β × Nat :=
  let m := run lt direction (short.length + long.length) (.single 0 0)
    (takeLong ⟨[], short, long, patience⟩ 1)
  (m.values, m.patience)

end Merge

/-- Merges two adjacent runs with some patience, and tells the patience left. What the left run
has ahead of the right one, and the right run behind the left one, stays where it is. -/
def mergeRuns (lt : β → β → Bool) (left right : List β) (patience : Nat) : List β × Nat :=
  match right with
  | [] => (left, patience)
  | first :: _ =>
    let ahead := gallop (fun x => !lt first x) left 0
    match (left.drop ahead).getLast? with
    | none => (left ++ right, patience)
    | some last =>
      let count := gallop (fun y => lt y last) right (right.length - 1)
      if count = 0 then (left ++ right, patience)
      else if (left.drop ahead).length ≤ (right.take count).length then
        let (middle, patience) :=
          Merge.complete lt .front (left.drop ahead) (right.take count) patience
        (left.take ahead ++ middle ++ right.drop count, patience)
      else
        let (middle, patience) :=
          Merge.complete lt .back (right.take count).reverse (left.drop ahead).reverse patience
        (left.take ahead ++ middle.reverse ++ right.drop count, patience)

namespace Merge

theorem perm_takeShort (m : Merge β) (count : Nat) : (m.takeShort count).values.Perm m.values := by
  have parts : m.short = m.short.take count ++ m.short.drop count :=
    (List.take_append_drop _ _).symm
  simp only [values, takeShort, List.reverse_append, List.reverse_reverse, List.append_assoc]
  refine List.Perm.append_left _ ?_
  conv => rhs; rw [parts]
  rw [← List.append_assoc, ← List.append_assoc]
  exact List.perm_append_comm.append_right _

theorem values_takeLong (m : Merge β) (count : Nat) : (m.takeLong count).values = m.values := by
  simp only [values, takeLong, List.reverse_append, List.reverse_reverse, List.append_assoc]
  rw [← List.append_assoc (m.long.take count), List.take_append_drop]

theorem perm_leapShort (lt : β → β → Bool) (direction : Direction) (m : Merge β) :
    (m.leapShort lt direction).2.values.Perm m.values := by
  unfold leapShort
  split
  · exact .refl _
  · simp only
    split
    · exact perm_takeShort ..
    · rw [values_takeLong]
      exact perm_takeShort ..

theorem perm_leapLong (lt : β → β → Bool) (direction : Direction) (m : Merge β) :
    (m.leapLong lt direction).2.values.Perm m.values := by
  unfold leapLong
  split
  · exact .refl _
  · simp only
    split
    · rw [values_takeLong]
    · exact (perm_takeShort ..).trans (by rw [values_takeLong])

theorem perm_leapLeft (lt : β → β → Bool) (direction : Direction) (m : Merge β) :
    (m.leapLeft lt direction).2.values.Perm m.values := by
  cases direction
  · exact perm_leapShort ..
  · exact perm_leapLong ..

theorem perm_leapRight (lt : β → β → Bool) (direction : Direction) (m : Merge β) :
    (m.leapRight lt direction).2.values.Perm m.values := by
  cases direction
  · exact perm_leapLong ..
  · exact perm_leapShort ..

theorem perm_stepSingle (lt : β → β → Bool) (direction : Direction) (short long : Nat)
    (m : Merge β) : (m.stepSingle lt direction short long).2.values.Perm m.values := by
  unfold stepSingle
  split
  · split
    · simp only
      rw [values_takeLong]
    · exact perm_takeShort ..
  · exact .refl _

theorem values_endRound (before after : Nat) (m : Merge β) :
    (m.endRound before after).2.values = m.values := by
  unfold endRound
  split <;> rfl

theorem perm_step (lt : β → β → Bool) (direction : Direction) (pace : Pace) (m : Merge β) :
    (m.step lt direction pace).2.values.Perm m.values := by
  cases pace with
  | single short long => exact perm_stepSingle ..
  | gallop => exact perm_leapLeft ..
  | gallopOn before =>
    simp only [step]
    split
    · exact perm_leapRight ..
    · rw [values_endRound]
      exact perm_leapRight ..

theorem perm_run (lt : β → β → Bool) (direction : Direction) (steps : Nat) (pace : Pace)
    (m : Merge β) : (run lt direction steps pace m).values.Perm m.values := by
  induction steps generalizing pace m with
  | zero => exact .refl _
  | succ steps ih =>
    rw [run]
    split
    · exact .refl _
    · exact (ih _ _).trans (perm_step ..)

theorem perm_complete (lt : β → β → Bool) (direction : Direction) (short long : List β)
    (patience : Nat) : (complete lt direction short long patience).1.Perm (long ++ short) := by
  refine (perm_run ..).trans ?_
  rw [values_takeLong]
  exact .refl _

end Merge

theorem perm_mergeRuns (lt : β → β → Bool) (left right : List β) (patience : Nat) :
    (mergeRuns lt left right patience).1.Perm (left ++ right) := by
  have join (front back : List β) (ahead count : Nat) (middle : List β)
      (h : middle.Perm (front.drop ahead ++ back.take count)) :
      (front.take ahead ++ middle ++ back.drop count).Perm (front ++ back) := by
    refine ((h.append_left _).append_right _).trans ?_
    rw [← List.append_assoc, List.take_append_drop, List.append_assoc, List.take_append_drop]
  cases right with
  | nil => simp [mergeRuns]
  | cons first rest =>
    simp only [mergeRuns]
    split
    · exact .refl _
    · split
      · exact .refl _
      · split
        · exact join _ _ _ _ _ ((Merge.perm_complete ..).trans List.perm_append_comm)
        · refine join _ _ _ _ _ ((List.reverse_perm _).trans ((Merge.perm_complete ..).trans ?_))
          exact (List.reverse_perm _).append (List.reverse_perm _)

end EvoSched.Ranking

import EvoSched.Ranking.Merge

/-!
Rankings: an order of values that may not all compare. The list is cut into runs that never step
down, short ones are filled up by insertion, and adjacent runs are merged, those first whose border
lies deepest in the halving of the whole list. Whatever the comparison says, a ranking has the
values it was made from.
-/

set_option autoImplicit false

namespace EvoSched.Ranking

variable {β : Type}

/-- Splits off the values that step down from one to the next (`down`), or that never do. -/
def run (lt : β → β → Bool) (down : Bool) : β → List β → List β × List β
  | _, [] => ([], [])
  | x, y :: rest =>
    if lt y x == down then
      let (more, others) := run lt down y rest
      (y :: more, others)
    else ([], y :: rest)

/-- The run in front, going up, and the values after it. -/
def firstRun (lt : β → β → Bool) : List β → List β × List β
  | [] => ([], [])
  | [x] => ([x], [])
  | x :: y :: rest =>
    let down := lt y x
    let (more, others) := run lt down x (y :: rest)
    (if down then (x :: more).reverse else x :: more, others)

/-- The length below which a run is filled up: `count` halved until it is below 64, and one more if
a half was lost on the way. -/
def fullLength (lost : Bool) (count : Nat) : Nat :=
  if count < 64 then count + lost.toNat else fullLength (lost || count % 2 == 1) (count / 2)
termination_by count

/-- The run in front, filled up to `full` values by inserting those after it. -/
def nextRun (lt : β → β → Bool) (full : Nat) (xs : List β) : List β × List β :=
  let (front, others) := firstRun lt xs
  let missing := full - front.length
  ((others.take missing).foldl (fun ranked value => insert lt value ranked) front,
    others.drop missing)

/-- A run from index `start` of the list on. -/
structure Waiting (β : Type) where
  start : Nat
  values : List β
  /-- How deep the border to the next run lies. -/
  depth : Nat

/-- The first binary digit in which the fractions `a / size` and `b / size`, from 0 to 2, differ;
the runs whose middles they are have their border there. -/
def borderDepth (size : Nat) : Nat → Nat → Nat → Nat
  | 0, _, _ => 0
  | digits + 1, a, b =>
    if size ≤ a then borderDepth size digits (2 * (a - size)) (2 * (b - size)) + 1
    else if size ≤ b then 1
    else borderDepth size digits (2 * a) (2 * b) + 1

/-- Merges the last runs as long as the border between them is deeper than `depth`. The last run
stands first. -/
def mergeDeeper (lt : β → β → Bool) (depth : Nat) (runs : List (Waiting β)) (patience : Nat) :
    List (Waiting β) × Nat :=
  match runs with
  | top :: below :: rest =>
    if depth < below.depth then
      let (values, patience) := mergeRuns lt below.values top.values patience
      mergeDeeper lt depth (⟨below.start, values, below.depth⟩ :: rest) patience
    else (runs, patience)
  | _ => (runs, patience)
termination_by runs.length

/-- Puts a run of `size` values in all behind those that wait, after merging what lies deeper than
its border. -/
def pushRun (lt : β → β → Bool) (size start : Nat) (values : List β) (runs : List (Waiting β))
    (patience : Nat) : List (Waiting β) × Nat :=
  match runs with
  | [] => ([⟨start, values, 0⟩], patience)
  | last :: _ =>
    let middle := 2 * last.start + last.values.length
    let depth := borderDepth size size middle (middle + last.values.length + values.length)
    match mergeDeeper lt depth runs patience with
    | ([], patience) => ([⟨start, values, 0⟩], patience)
    | (top :: rest, patience) => (⟨start, values, 0⟩ :: { top with depth } :: rest, patience)

/-- Merges all runs. The last but one goes with the shorter of its neighbours. -/
def mergeAll (lt : β → β → Bool) (runs : List (Waiting β)) (patience : Nat) : List β :=
  match runs with
  | [] => []
  | [only] => only.values
  | [top, below] => (mergeRuns lt below.values top.values patience).1
  | top :: below :: third :: rest =>
    if third.values.length < top.values.length then
      let (values, patience) := mergeRuns lt third.values below.values patience
      mergeAll lt (top :: ⟨third.start, values, third.depth⟩ :: rest) patience
    else
      let (values, patience) := mergeRuns lt below.values top.values patience
      mergeAll lt (⟨below.start, values, below.depth⟩ :: third :: rest) patience
termination_by runs.length

/-- Cuts the rest of the list, from index `start` on, into runs, and merges all of them. Every step
takes a value at least. -/
def rankFrom (lt : β → β → Bool) (size : Nat) :
    Nat → Nat → List β → List (Waiting β) → Nat → List β
  | 0, _, xs, runs, patience => mergeAll lt runs patience ++ xs
  | steps + 1, start, xs, runs, patience =>
    if xs.isEmpty then mergeAll lt runs patience
    else
      let (values, rest) := nextRun lt (fullLength false size) xs
      let (runs, patience) := pushRun lt size start values runs patience
      rankFrom lt size steps (start + values.length) rest runs patience

def ascending (lt : β → β → Bool) (xs : List β) : List β :=
  rankFrom lt xs.length xs.length 0 xs [] Merge.longStretch

/-- The greatest first; of values that do not compare the earlier one first. -/
def descending (lt : β → β → Bool) (xs : List β) : List β := (ascending lt xs.reverse).reverse

theorem append_run (lt : β → β → Bool) (down : Bool) (x : β) (xs : List β) :
    (run lt down x xs).1 ++ (run lt down x xs).2 = xs := by
  induction xs generalizing x with
  | nil => rfl
  | cons y rest ih =>
    rw [run]
    split
    · simpa using ih y
    · rfl

theorem perm_firstRun (lt : β → β → Bool) (xs : List β) :
    ((firstRun lt xs).1 ++ (firstRun lt xs).2).Perm xs := by
  match xs with
  | [] => exact .refl _
  | [_] => exact .refl _
  | x :: y :: rest =>
    have whole := append_run lt (lt y x) x (y :: rest)
    simp only [firstRun]
    split
    · refine ((List.reverse_perm _).append_right _).trans ?_
      simp [whole]
    · simp [whole]

theorem perm_foldl_insert (lt : β → β → Bool) (values ranked : List β) :
    (values.foldl (fun ranked value => insert lt value ranked) ranked).Perm (ranked ++ values) := by
  induction values generalizing ranked with
  | nil => simp
  | cons value rest ih =>
    refine (ih _).trans (((perm_insert lt value ranked).append_right rest).trans ?_)
    exact List.perm_middle.symm

theorem perm_nextRun (lt : β → β → Bool) (full : Nat) (xs : List β) :
    ((nextRun lt full xs).1 ++ (nextRun lt full xs).2).Perm xs := by
  simp only [nextRun]
  refine ((perm_foldl_insert ..).append_right _).trans ?_
  rw [List.append_assoc, List.take_append_drop]
  exact perm_firstRun ..

def waitingValues : List (Waiting β) → List β
  | [] => []
  | top :: rest => waitingValues rest ++ top.values

theorem perm_mergeDeeper (lt : β → β → Bool) (depth : Nat) (runs : List (Waiting β))
    (patience : Nat) :
    (waitingValues (mergeDeeper lt depth runs patience).1).Perm (waitingValues runs) := by
  fun_induction mergeDeeper lt depth runs patience with
  | case1 patience top below rest deep values left merged ih =>
    refine ih.trans ?_
    simp only [waitingValues, List.append_assoc]
    have := perm_mergeRuns lt below.values top.values patience
    rw [merged] at this
    exact this.append_left _
  | case2 => exact .refl _
  | case3 => exact .refl _

theorem perm_pushRun (lt : β → β → Bool) (size start : Nat) (values : List β)
    (runs : List (Waiting β)) (patience : Nat) :
    (waitingValues (pushRun lt size start values runs patience).1).Perm
      (waitingValues runs ++ values) := by
  cases runs with
  | nil => exact .refl _
  | cons last rest =>
    have deeper := perm_mergeDeeper lt
      (borderDepth size size (2 * last.start + last.values.length)
        (2 * last.start + last.values.length + last.values.length + values.length))
      (last :: rest) patience
    simp only [pushRun]
    split <;> rename_i merged <;> rw [merged] at deeper
    · simpa [waitingValues] using deeper.append_right values
    · simpa [waitingValues] using deeper.append_right values

theorem perm_mergeAll (lt : β → β → Bool) (runs : List (Waiting β)) (patience : Nat) :
    (mergeAll lt runs patience).Perm (waitingValues runs) := by
  fun_induction mergeAll lt runs patience with
  | case1 => exact .refl _
  | case2 => simp [waitingValues]
  | case3 patience top below =>
    simpa [waitingValues] using perm_mergeRuns lt below.values top.values patience
  | case4 patience top below third rest shorter values left merged ih =>
    refine ih.trans ?_
    have := perm_mergeRuns lt third.values below.values patience
    rw [merged] at this
    simp only [waitingValues, List.append_assoc]
    refine List.Perm.append_left _ ?_
    rw [← List.append_assoc]
    exact this.append_right _
  | case5 patience top below third rest longer values left merged ih =>
    refine ih.trans ?_
    have := perm_mergeRuns lt below.values top.values patience
    rw [merged] at this
    simp only [waitingValues, List.append_assoc]
    exact (this.append_left _).append_left _

theorem perm_rankFrom (lt : β → β → Bool) (size steps start : Nat) (xs : List β)
    (runs : List (Waiting β)) (patience : Nat) :
    (rankFrom lt size steps start xs runs patience).Perm (waitingValues runs ++ xs) := by
  induction steps generalizing start xs runs patience with
  | zero => exact (perm_mergeAll ..).append_right _
  | succ steps ih =>
    rw [rankFrom]
    split
    · rename_i none
      rw [List.isEmpty_iff.1 none, List.append_nil]
      exact perm_mergeAll ..
    · refine (ih ..).trans (((perm_pushRun ..).append_right _).trans ?_)
      rw [List.append_assoc]
      exact (perm_nextRun ..).append_left _

theorem perm_ascending (lt : β → β → Bool) (xs : List β) : (ascending lt xs).Perm xs := by
  simpa [ascending, waitingValues] using
    perm_rankFrom lt xs.length xs.length 0 xs [] Merge.longStretch

theorem perm_descending (lt : β → β → Bool) (xs : List β) : (descending lt xs).Perm xs :=
  (List.reverse_perm _).trans ((perm_ascending lt _).trans (List.reverse_perm _))

end EvoSched.Ranking

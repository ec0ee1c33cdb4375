import EvoSched.Proofs.Computation
import EvoSched.Proofs.Scalar.Zero
import EvoSched.Settings

set_option autoImplicit false

namespace EvoSched

namespace Document

/-- A whole number above zero. A truth value is none. -/
def IsPositive : Document → Prop
  | whole n => 0 < n
  | _ => False

/-- A number from zero to one. -/
def IsRate : Document → Prop
  | whole n => 0 ≤ n ∧ n ≤ 1
  | real x => Scalar.zero ≤ x ∧ x ≤ Scalar.one
  | _ => False

/-- A number above zero. -/
def IsSpan : Document → Prop
  | whole n => 0 < n
  | real x => Scalar.zero < x
  | _ => False

def IsNaN : Document → Prop
  | real x => Binary64.read x = .nan
  | _ => False

theorem isWritable_of_lookup {entries : List (String × Document)} {name : String} {d : Document}
    (writable : entriesAreWritable entries = true) (found : entries.lookup name = some d) :
    d.isWritable = true := by
  induction entries with
  | nil => cases found
  | cons entry rest ih =>
      rw [entriesAreWritable, Bool.and_eq_true] at writable
      rw [List.lookup_cons] at found
      split at found
      · cases found
        exact writable.1
      · exact ih writable.2 found

end Document

/-- A check is passed exactly if what it is about is `accepted`. Otherwise it ends with a rejection,
or it cannot even show what it rejects, where not everything is `writable`. -/
structure Checks {β : Type} (result : Except Fault β) (accepted writable : Prop) : Prop where
  passes : (∃ x, result = .ok x) ↔ accepted
  rejects (fault : Fault) : result = .error fault →
    (∃ why, fault = .invalid why) ∨ fault = .wholeTooLong ∧ ¬ writable

namespace Checks

variable {β γ : Type} {accepted accepted' writable : Prop}

theorem accept {x : β} (fine : accepted) :
    Checks (.ok x : Except Fault β) accepted writable where
  passes := ⟨fun _ => fine, fun _ => ⟨x, rfl⟩⟩
  rejects := nofun

theorem reject {shown : List Document} {why : Invalid} (refused : ¬ accepted)
    (shows : writable → Document.areWritable shown = true) :
    Checks (.error (.rejecting shown why) : Except Fault β) accepted writable where
  passes := ⟨nofun, fun fine => absurd fine refused⟩
  rejects fault failed := by
    cases failed
    unfold Fault.rejecting
    split
    · exact .inl ⟨why, rfl⟩
    · rename_i hidden
      exact .inr ⟨rfl, fun all => hidden (shows all)⟩

theorem bind {result : Except Fault β} {next : β → Except Fault γ}
    (first : Checks result accepted writable)
    (rest : ∀ x, result = .ok x → Checks (next x) accepted' writable) :
    Checks (result >>= next) (accepted ∧ accepted') writable where
  passes := by
    simp only [result_bind_eq_ok]
    constructor
    · rintro ⟨y, x, success, last⟩
      exact ⟨first.passes.1 ⟨x, success⟩, (rest x success).passes.1 ⟨y, last⟩⟩
    · rintro ⟨fine, later⟩
      obtain ⟨x, success⟩ := first.passes.2 fine
      obtain ⟨y, last⟩ := (rest x success).passes.2 later
      exact ⟨y, x, success, last⟩
  rejects fault failed := by
    rcases result_bind_eq_error.1 failed with failed | ⟨x, success, failed⟩
    · exact first.rejects fault failed
    · exact (rest x success).rejects fault failed

theorem of_iff {result : Except Fault β} (checks : Checks result accepted writable)
    (same : accepted ↔ accepted') : Checks result accepted' writable where
  passes := checks.passes.trans same
  rejects := checks.rejects

/-- Most checks are of this form. -/
theorem ite {fine : Prop} [Decidable fine] {x : β} {shown : List Document} {why : Invalid}
    (same : fine ↔ accepted) (shows : writable → Document.areWritable shown = true) :
    Checks (if fine then .ok x else .error (.rejecting shown why) : Except Fault β) accepted
      writable := by
  split
  · rename_i passed
    exact .accept (same.1 passed)
  · rename_i failed
    exact .reject (fun fine => failed (same.2 fine)) shows

end Checks

namespace Settings

/-- What entries have to give, where they give anything, to be accepted as settings. The defaults
stand in for the rest. -/
structure Admits (entries : List (String × Document)) : Prop where
  known : ∀ entry ∈ entries, entry.1 ∈ names
  populationSize : (given entries "population_size").IsPositive
  targetSize : (givenTarget entries).IsPositive
  maxGenerations : (given entries "max_generations").IsPositive
  workers : (given entries "workers").IsPositive
  reportEvery : (given entries "report_every").IsPositive
  mutationRate : (given entries "mutation_rate").IsRate
  crossoverRate : (given entries "crossover_rate").IsRate
  timeWeight : (given entries "time_weight").IsRate
  elitism : ∃ n size, given entries "elitism_count" = .whole n ∧
    given entries "population_size" = .whole size ∧ 0 ≤ n ∧ n < size
  /-- A NaN is not refused. -/
  maxSeconds : given entries "max_seconds" = .null ∨ (given entries "max_seconds").IsSpan ∨
    (given entries "max_seconds").IsNaN
  strategy : given entries "strategy" = .text "replace" ∨ given entries "strategy" = .text "grow"

section

variable {d : Document} {writable : Prop}

theorem areWritable_singleton (shows : writable → d.isWritable = true) (all : writable) :
    Document.areWritable [d] = true := by
  rw [Document.areWritable, shows all]
  rfl

theorem checks_positive (name : String) (shows : writable → d.isWritable = true) :
    Checks (positive name d) d.IsPositive writable := by
  have shows := areWritable_singleton shows
  cases d with
  | whole n => exact .ite Iff.rfl shows
  | _ => exact .reject id shows

theorem whole_of_positive {name : String} {n : Nat} (passed : positive name d = .ok n) :
    d = .whole n := by
  unfold positive at passed
  split at passed
  · split at passed
    · cases passed
      rw [Int.toNat_of_nonneg (by omega)]
    · cases passed
  · cases passed

theorem checks_rate (name : String) (shows : writable → d.isWritable = true) :
    Checks (rate name d) d.IsRate writable := by
  have shows := areWritable_singleton shows
  cases d with
  | whole n =>
      have within : (Number.whole n).isRate = true ↔ (Document.whole n).IsRate := by
        rw [Number.isRate, Document.IsRate, Bool.and_eq_true, decide_eq_true_iff,
          decide_eq_true_iff]
      unfold rate
      exact .ite within shows
  | real x =>
      have within : (Number.real x).isRate = true ↔ (Document.real x).IsRate := by
        rw [Number.isRate, Document.IsRate, Bool.and_eq_true, decide_eq_true_iff,
          decide_eq_true_iff]
      unfold rate
      exact .ite within shows
  | _ => exact .reject id shows

theorem checks_seconds (shows : writable → d.isWritable = true) :
    Checks (seconds d) (d = .null ∨ d.IsSpan ∨ d.IsNaN) writable := by
  have shows := areWritable_singleton shows
  cases d with
  | null => exact .accept (.inl rfl)
  | whole n => exact .ite (by simp [Number.isSpan, Document.IsSpan, Document.IsNaN]) shows
  | real x =>
      have span : (Number.real x).isSpan = true ↔ Scalar.zero < x ∨ Binary64.read x = .nan := by
        rw [← Binary64.not_le_zero_iff]
        simp [Number.isSpan]
      exact .ite (by simp [span, Document.IsSpan, Document.IsNaN]) shows
  | _ => exact .reject (by simp [Document.IsSpan, Document.IsNaN]) shows

theorem checks_strategyOf (shows : writable → d.isWritable = true) :
    Checks (strategyOf d) (d = .text "replace" ∨ d = .text "grow") writable := by
  have shows := areWritable_singleton shows
  cases d with
  | text s =>
      unfold strategyOf StrategyName.ofDocument?
      by_cases replace : s = "replace"
      · simp only [if_pos replace]
        exact .accept (.inl (congrArg _ replace))
      · by_cases grow : s = "grow"
        · simp only [if_neg replace, if_pos grow]
          exact .accept (.inr (congrArg _ grow))
        · simp only [if_neg replace, if_neg grow]
          exact .reject (by simp [replace, grow]) shows
  | _ => exact .reject (by simp) shows

theorem checks_elite {size : Nat} (shows : writable → d.isWritable = true)
    (showsSize : writable → (Document.whole size).isWritable = true) :
    Checks (elite size d) (∃ n : Int, d = .whole n ∧ 0 ≤ n ∧ n < size) writable := by
  cases d with
  | whole n =>
      have showsBoth (all : writable) : Document.areWritable [.whole n, .whole size] = true := by
        simp [Document.areWritable, shows all, showsSize all]
      unfold elite
      simp only
      split
      · rename_i negative
        exact .reject (by simp; omega) (areWritable_singleton shows)
      · rename_i natural
        exact .ite (by simp; omega) showsBoth
  | _ => exact .reject (by simp) (areWritable_singleton shows)

end

section

variable (entries : List (String × Document))

theorem isWritable_given (name : String)
    (writable : (Document.map entries).isWritable = true) :
    (given entries name).isWritable = true := by
  have defaultsWritable : Document.entriesAreWritable defaults = true := by decide
  unfold given
  cases found : entries.lookup name with
  | some d => exact Document.isWritable_of_lookup writable found
  | none =>
      rw [Option.orElse_none]
      cases fallback : defaults.lookup name with
      | some d => exact Document.isWritable_of_lookup defaultsWritable fallback
      | none => rfl

theorem isWritable_givenTarget (writable : (Document.map entries).isWritable = true) :
    (givenTarget entries).isWritable = true := by
  unfold givenTarget
  split
  · exact isWritable_given entries _ writable
  · exact isWritable_given entries _ writable

theorem checks_elitism {name : String} {size : Nat}
    (passed : positive name (given entries "population_size") = .ok size) :
    Checks (elite size (given entries "elitism_count"))
      (∃ n size, given entries "elitism_count" = .whole n ∧
        given entries "population_size" = .whole size ∧ 0 ≤ n ∧ n < size)
      ((Document.map entries).isWritable = true) := by
  have sized := whole_of_positive passed
  have showsSize := isWritable_given entries "population_size"
  rw [sized] at showsSize ⊢
  refine (checks_elite (isWritable_given entries "elitism_count") showsSize).of_iff ?_
  simp

/-- The checks one after another. -/
theorem checks_ofEntries (known : ∀ entry ∈ entries, entry.1 ∈ names) :
    Checks (ofEntries entries) (Admits entries) ((Document.map entries).isWritable = true) := by
  have shows := isWritable_given entries
  have showsTarget := isWritable_givenTarget entries
  unfold ofEntries
  refine Checks.of_iff
    (.bind (checks_positive "population_size" (shows _)) fun size passed =>
    .bind (checks_positive "target_size" showsTarget) fun _ _ =>
    .bind (checks_positive "max_generations" (shows _)) fun _ _ =>
    .bind (checks_positive "workers" (shows _)) fun _ _ =>
    .bind (checks_positive "report_every" (shows _)) fun _ _ =>
    .bind (checks_rate "mutation_rate" (shows _)) fun _ _ =>
    .bind (checks_rate "crossover_rate" (shows _)) fun _ _ =>
    .bind (checks_rate "time_weight" (shows _)) fun _ _ =>
    .bind (checks_elitism entries passed) fun _ _ =>
    .bind (checks_seconds (shows _)) fun _ _ =>
    .bind (checks_strategyOf (shows _)) fun _ _ => .accept trivial) ?_
  constructor
  · rintro ⟨size, target, generations, workers, report, mutation, crossover, weight, elitism,
      seconds, strategy, -⟩
    exact ⟨known, size, target, generations, workers, report, mutation, crossover, weight, elitism,
      seconds, strategy⟩
  · rintro ⟨-, size, target, generations, workers, report, mutation, crossover, weight, elitism,
      seconds, strategy⟩
    exact ⟨size, target, generations, workers, report, mutation, crossover, weight, elitism,
      seconds, strategy, trivial⟩

theorem toEntries_map : (Document.map entries).toEntries = .ok entries := by
  cases entries with
  | nil => rfl
  | cons entry rest => rfl

theorem no_unknown_iff :
    ((entries.map (·.1)).filter fun name => !names.contains name).isEmpty = true ↔
      ∀ entry ∈ entries, entry.1 ∈ names := by
  simp [List.isEmpty_iff, List.filter_eq_nil_iff]

/-- Settings of a document are settings of its entries, which all have to be known. -/
theorem ofDocument_eq_ok_iff {d : Document} {settings : Settings} :
    ofDocument d = .ok settings ↔
      ∃ entries, d.toEntries = .ok entries ∧ (∀ entry ∈ entries, entry.1 ∈ names) ∧
        ofEntries entries = .ok settings := by
  unfold ofDocument
  rw [result_bind_eq_ok]
  apply exists_congr
  intro entries
  apply and_congr_right
  intro _
  rw [← no_unknown_iff]
  dsimp only
  split
  · rename_i known
    simp only [known, true_and]
  · rename_i unknown
    simp only [unknown, reduceCtorEq, false_and]

/-- All checks of entries: first that they are known, then the checks of what they give. -/
theorem checks_ofDocument :
    Checks (ofDocument (.map entries)) (Admits entries)
      ((Document.map entries).isWritable = true) := by
  have step : ofDocument (.map entries) =
      if ((entries.map (·.1)).filter fun name => !names.contains name).isEmpty = true then
        ofEntries entries
      else .error (.invalid (.unknownSettings
        (sortedTexts ((entries.map (·.1)).filter fun name => !names.contains name)))) := by
    unfold ofDocument
    rw [toEntries_map]
    rfl
  rw [step]
  split
  · rename_i all
    exact checks_ofEntries entries ((no_unknown_iff entries).1 all)
  · rename_i some_unknown
    constructor
    · exact ⟨nofun, fun admits => absurd ((no_unknown_iff entries).2 admits.known) some_unknown⟩
    · intro fault failed
      cases failed
      exact .inl ⟨_, rfl⟩

/-- Entries are accepted as settings exactly if what they give is admitted, which a NaN is as a
number of seconds. All others are rejected with what is wrong with them, unless they hold a whole
number that cannot be written: then the rejection may fail to show it. -/
theorem accepted_iff_admitted :
    ((∃ settings, ofDocument (.map entries) = .ok settings) ↔ Admits entries) ∧
      ∀ fault, ofDocument (.map entries) = .error fault →
        (∃ why, fault = .invalid why) ∨
          fault = .wholeTooLong ∧ (Document.map entries).isWritable = false := by
  have checks := checks_ofDocument entries
  refine ⟨checks.passes, fun fault failed => (checks.rejects fault failed).imp_right ?_⟩
  rintro ⟨same, hidden⟩
  exact ⟨same, Bool.eq_false_iff.2 hidden⟩

end

theorem admits_seconds {d : Document} (some_span : d.IsSpan ∨ d.IsNaN) :
    Admits [("max_seconds", d)] := by
  have rates : (Document.real 0.1).IsRate ∧ (Document.real 0.9).IsRate ∧
      (Document.real 0.5).IsRate := by
    change (_ ∧ _) ∧ (_ ∧ _) ∧ _ ∧ _
    decide +kernel
  exact
    { known := List.forall_mem_singleton.2 (by decide : "max_seconds" ∈ names)
      populationSize := (by decide : (0 : Int) < 30)
      targetSize := (by decide : (0 : Int) < 30)
      maxGenerations := (by decide : (0 : Int) < 100)
      workers := (by decide : (0 : Int) < 1)
      reportEvery := (by decide : (0 : Int) < 10)
      mutationRate := rates.1
      crossoverRate := rates.2.1
      timeWeight := rates.2.2
      elitism := ⟨2, 30, rfl, rfl, by decide, by decide⟩
      maxSeconds := .inr some_span
      strategy := .inl rfl }

/-- A size that is out of range and cannot be shown. -/
theorem ofDocument_of_hidden_size {n : Int} (below : n ≤ 0)
    (hidden : Decimal.isWritable n = false) :
    ofDocument (.map [("population_size", .whole n)]) = .error .wholeTooLong := by
  have first : positive "population_size" (.whole n) = .error .wholeTooLong := by
    unfold positive Fault.rejecting
    simp [below, Document.areWritable, Document.isWritable, hidden]
  have checked : ofEntries [("population_size", .whole n)] = .error .wholeTooLong :=
    result_bind_eq_error.2 (.inl first)
  exact checked

/-- A NaN is accepted as a number of seconds, although it is not above zero; and a whole number of
too many digits is not reported as out of range. -/
theorem nan_seconds_accepted :
    (∃ settings, ofDocument (.map [("max_seconds", .real (0 / 0))]) = .ok settings) ∧
      ¬ (Document.real (0 / 0)).IsSpan ∧
      ofDocument (.map [("population_size", .whole (-(10 ^ Decimal.maxDigits : Nat)))]) =
        .error .wholeTooLong := by
  refine ⟨?_, ?_, ?_⟩
  · refine (checks_ofDocument _).passes.2 (admits_seconds (.inr ?_))
    change Binary64.read (0 / 0) = .nan
    decide +kernel
  · change ¬ Scalar.zero < (0 / 0 : Float)
    decide +kernel
  · have long : Decimal.isWritable (-(10 ^ Decimal.maxDigits : Nat)) = false := by
      rw [Decimal.isWritable, decide_eq_false_iff_not, Int.natAbs_neg, Int.natAbs_natCast,
        Nat.length_toDigits_le_iff (by decide) (by decide)]
      exact Nat.lt_irrefl _
    exact ofDocument_of_hidden_size (Int.neg_nonpos_of_nonneg (Int.natCast_nonneg _)) long

end Settings

end EvoSched

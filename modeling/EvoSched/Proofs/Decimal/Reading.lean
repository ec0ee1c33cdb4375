import Mathlib.Algebra.Order.Ring.Nat
import Mathlib.Data.List.TakeWhile
import EvoSched.Document.Reading

set_option autoImplicit false

namespace EvoSched

namespace Decimal

/-- Characters that reading takes as they are. -/
def IsPlain (c : Char) : Prop := c.toNat < 128 ∧ Text.isBlank c = false ∧ c ≠ '_'

theorem toNat_of_isDigit {c : Char} (digit : c.isDigit = true) : 48 ≤ c.toNat ∧ c.toNat ≤ 57 := by
  simpa [Char.isDigit, UInt32.le_iff_toNat_le] using digit

theorem isPlain_of_isDigit {c : Char} (digit : c.isDigit = true) : IsPlain c := by
  obtain ⟨low, high⟩ := toNat_of_isDigit digit
  refine ⟨by omega, ?_, ?_⟩
  · simp only [Text.isBlank]
    grind
  · rintro rfl
    cases digit

theorem plainDigit_of_ascii {c : Char} (ascii : c.toNat < 128) : plainDigit c = c := by
  unfold plainDigit Text.digitValue?
  rw [if_pos ascii]
  split
  · rename_i d value
    split at value
    · rename_i digit
      obtain ⟨low, high⟩ := toNat_of_isDigit digit
      cases value
      have code : (Nat.digitChar (c.toNat - 48)).toNat = 48 + (c.toNat - 48) :=
        Nat.toNat_digitChar_of_lt_ten (by omega)
      refine Char.toNat_inj.1 (code.trans ?_)
      omega
    · cases value
  · rfl

theorem map_plainDigit {cs : List Char} (plain : ∀ c ∈ cs, IsPlain c) : cs.map plainDigit = cs :=
  (List.map_congr_left fun c member => plainDigit_of_ascii (plain c member).1).trans
    (List.map_id cs)

theorem dropWhile_isBlank {cs : List Char} (plain : ∀ c ∈ cs, IsPlain c) :
    cs.dropWhile Text.isBlank = cs := by
  rw [List.dropWhile_eq_self_iff]
  intro inside
  rw [(plain _ (List.getElem_mem inside)).2.1]
  nofun

theorem strip_of_plain {cs : List Char} (plain : ∀ c ∈ cs, IsPlain c) : Text.strip cs = cs := by
  have backwards : ∀ c ∈ cs.reverse, IsPlain c := fun c member =>
    plain c (List.mem_reverse.1 member)
  rw [Text.strip, dropWhile_isBlank plain, dropWhile_isBlank backwards, List.reverse_reverse]

theorem joinDigits_of_plain {isDigit : Char → Bool} {afterDigit : Bool} {cs : List Char}
    (plain : ∀ c ∈ cs, IsPlain c) : joinDigits isDigit afterDigit cs = some cs := by
  induction cs generalizing afterDigit with
  | nil => rfl
  | cons c rest ih =>
      obtain ⟨⟨-, -, other⟩, others⟩ := List.forall_mem_cons.1 plain
      rw [joinDigits]
      · rw [ih others]
        rfl
      · rintro _ _ rfl
        exact absurd rfl other
      · rintro rfl
        exact absurd rfl other

theorem toList_toString (n : Nat) : (toString n).toList = Nat.toDigits 10 n := by
  rw [Nat.toString_eq_repr, Nat.toList_repr]

theorem isDigit_of_mem {n : Nat} {c : Char} (member : c ∈ Nat.toDigits 10 n) : c.isDigit = true :=
  Nat.isDigit_of_mem_toDigits (by decide) (by decide) member

/-- A digit in front is no sign. -/
theorem splitSign_of_digit {c : Char} (digit : c.isDigit = true) (rest : List Char) :
    splitSign (c :: rest) = (false, c :: rest) := by
  unfold splitSign
  split
  · rename_i same
    cases same
    cases digit
  · rename_i same
    cases same
    cases digit
  · rfl

theorem splitSign_digits (n : Nat) (rest : List Char) :
    splitSign (Nat.toDigits 10 n ++ rest) = (false, Nat.toDigits 10 n ++ rest) := by
  obtain ⟨c, others, digits⟩ := List.exists_cons_of_ne_nil (Nat.toDigits_ne_nil (n := n) (b := 10))
  rw [digits]
  exact splitSign_of_digit (isDigit_of_mem (n := n) (by rw [digits]; exact List.mem_cons_self)) _

theorem digitsValue_toDigits (n : Nat) : digitsValue (Nat.toDigits 10 n) = n :=
  Nat.ofDigitChars_ten_toDigits

theorem isWritable_natCast {n : Nat} : isWritable (n : Int) = true ↔ n < 10 ^ maxDigits := by
  unfold isWritable
  rw [decide_eq_true_iff, Int.natAbs_natCast,
    Nat.length_toDigits_le_iff (by decide) (by decide)]

theorem isPlain_of_mem {n : Nat} {c : Char} (member : c ∈ Nat.toDigits 10 n) : IsPlain c :=
  isPlain_of_isDigit (isDigit_of_mem member)

theorem toList_toString_int (n : Int) :
    (toString n).toList = (if n < 0 then ['-'] else []) ++ Nat.toDigits 10 n.natAbs := by
  cases n with
  | ofNat n =>
      rw [if_neg (by simp)]
      exact toList_toString n
  | negSucc n =>
      rw [if_pos (Int.negSucc_lt_zero n)]
      change ("-" ++ toString (n + 1)).toList = _
      rw [String.toList_append, toList_toString]
      rfl

/-- A whole number that is not too long reads back as itself. -/
theorem readWhole_toString {n : Int} (short : isWritable n = true) :
    readWhole (toString n) = .value n := by
  have plain : ∀ c ∈ (if n < 0 then ['-'] else []) ++ Nat.toDigits 10 n.natAbs, IsPlain c := by
    rw [List.forall_mem_append]
    refine ⟨?_, fun c member => isPlain_of_mem member⟩
    split
    · simp [IsPlain, Text.isBlank]
    · nofun
  have split_ : splitSign ((if n < 0 then ['-'] else []) ++ Nat.toDigits 10 n.natAbs) =
      (decide (n < 0), Nat.toDigits 10 n.natAbs) := by
    have unsigned := splitSign_digits n.natAbs []
    rw [List.append_nil] at unsigned
    split
    · rename_i negative
      rw [decide_eq_true negative]
      rfl
    · rename_i nonneg
      rw [decide_eq_false nonneg]
      exact unsigned
  have run : ((Nat.toDigits 10 n.natAbs).takeWhile fun c => c.isDigit || c == '_') =
      Nat.toDigits 10 n.natAbs := by
    rw [List.takeWhile_eq_self_iff]
    intro c member
    rw [isDigit_of_mem member, Bool.true_or]
  have joined : joinDigits Char.isDigit false (Nat.toDigits 10 n.natAbs) =
      some (Nat.toDigits 10 n.natAbs) := joinDigits_of_plain fun c member => isPlain_of_mem member
  have length : ¬ maxDigits < (Nat.toDigits 10 n.natAbs).length :=
    not_lt.2 (of_decide_eq_true short)
  have shows : (Nat.toDigits 10 n.natAbs).isEmpty = false :=
    List.isEmpty_eq_false_iff.2 Nat.toDigits_ne_nil
  simp only [readWhole, toList_toString_int, map_plainDigit plain, strip_of_plain plain, split_,
    run, joined, if_neg length, digitsValue_toDigits, shows, bne_self_eq_false, Bool.or_self,
    Bool.false_eq_true, if_false, decide_eq_true_eq]
  congr 1
  split
  · omega
  · omega

theorem isDigit_of_mem_digits {places units : Nat} {c : Char} (member : c ∈ digits places units) :
    c.isDigit = true := by
  induction places generalizing units with
  | zero => cases member
  | succ places ih =>
      rw [digits, List.mem_append, List.mem_singleton] at member
      rcases member with front | rfl
      · exact ih front
      · rw [Nat.isDigit_digitChar]
        exact decide_eq_true (Nat.mod_lt units (by decide))

/-- Digits behind others count less. -/
theorem digitsValue_append_digits (cs : List Char) (places units : Nat) :
    digitsValue (cs ++ digits places units) =
      digitsValue cs * 10 ^ places + units % 10 ^ places := by
  induction places generalizing units with
  | zero => simp [digits, Nat.mod_one]
  | succ places ih =>
      have last : (Nat.digitChar (units % 10)).toNat - 48 = units % 10 := by
        rw [Nat.toNat_digitChar_of_lt_ten (Nat.mod_lt units (by decide))]
        omega
      have step : digitsValue (cs ++ digits places (units / 10) ++ [Nat.digitChar (units % 10)]) =
          10 * digitsValue (cs ++ digits places (units / 10)) + units % 10 := by
        unfold digitsValue
        rw [List.foldl_append, List.foldl_cons, List.foldl_nil, last]
      rw [digits, ← List.append_assoc, step, ih, Nat.pow_succ', Nat.mod_mul, Nat.mul_add,
        Nat.mul_left_comm]
      omega

/-- The digits of a number with a point, from the point on. -/
def pointDigits (places units : Nat) : List Char :=
  if places = 0 then [] else '.' :: digits places units

theorem toList_pointed (places units : Nat) :
    (pointed places units).toList =
      Nat.toDigits 10 (units / 10 ^ places) ++ pointDigits places units := by
  unfold pointed pointDigits
  rw [String.toList_append, toList_toString]
  refine congrArg (Nat.toDigits 10 (units / 10 ^ places) ++ ·) ?_
  split
  · rfl
  · rw [String.toList_append]
    exact congrArg ('.' :: ·) String.toList_ofList

theorem isPlain_of_mem_pointed {places units : Nat} {c : Char}
    (member : c ∈ (pointed places units).toList) : IsPlain c := by
  rw [toList_pointed, List.mem_append] at member
  rcases member with front | back
  · exact isPlain_of_mem front
  · unfold pointDigits at back
    split at back
    · cases back
    · rcases List.mem_cons.1 back with rfl | inside
      · exact ⟨by decide, by decide, by decide⟩
      · exact isPlain_of_isDigit (isDigit_of_mem_digits inside)

/-- A number with a point is read as its units. -/
theorem readScientific_pointed (places units : Nat) :
    readScientific (pointed places units).toList = some (units, -(places : Int)) := by
  have digit (c : Char) (member : c ∈ Nat.toDigits 10 (units / 10 ^ places)) :
      c.isDigit = true := isDigit_of_mem member
  have shows : (Nat.toDigits 10 (units / 10 ^ places)).isEmpty = false :=
    List.isEmpty_eq_false_iff.2 Nat.toDigits_ne_nil
  have value : digitsValue (Nat.toDigits 10 (units / 10 ^ places) ++ digits places units) =
      units := by
    rw [digitsValue_append_digits, digitsValue_toDigits, Nat.div_add_mod']
  have taken : (digits places units).takeWhile Char.isDigit = digits places units :=
    List.takeWhile_eq_self_iff.2 fun c member => isDigit_of_mem_digits member
  have dropped : (digits places units).dropWhile Char.isDigit = [] :=
    List.dropWhile_eq_nil_iff.2 fun c member => isDigit_of_mem_digits member
  rw [toList_pointed]
  unfold readScientific pointDigits
  rw [List.takeWhile_append_of_pos digit, List.dropWhile_append_of_pos digit]
  split
  · rename_i none
    subst none
    simp only [List.takeWhile_nil, List.dropWhile_nil, List.append_nil, shows, Bool.false_and,
      Bool.false_eq_true, if_false, List.length_nil]
    rw [digits, List.append_nil] at value
    rw [value]
  · have front : ('.' :: digits places units).takeWhile Char.isDigit = [] := rfl
    have back : ('.' :: digits places units).dropWhile Char.isDigit = '.' :: digits places units :=
      rfl
    simp only [front, back, taken, dropped, List.append_nil, shows, Bool.false_and,
      Bool.false_eq_true, if_false, value, length_digits]

/-- A name does not begin with a digit. -/
theorem readNamed_of_digit (negative : Bool) {c : Char} (digit : c.isDigit = true)
    (rest : List Char) : readNamed negative (c :: rest) = none := by
  obtain ⟨low, high⟩ := toNat_of_isDigit digit
  have kept : c.toLower = c := by
    unfold Char.toLower
    split
    · rename_i upper
      have letter : 65 ≤ c.toNat := upper.1
      omega
    · rfl
  have other (name : String) {first : Char} {letters : List Char}
      (spelled : name.toList = first :: letters) (letter : first.isDigit = false) :
      (String.ofList ((c :: rest).map Char.toLower) == name) = false := by
    rw [beq_eq_false_iff_ne]
    intro same
    have heads := congrArg String.toList same
    rw [String.toList_ofList, spelled, List.map_cons, kept] at heads
    rw [(List.cons.inj heads).1, letter] at digit
    cases digit
  unfold readNamed
  simp only [other "inf" rfl rfl, other "infinity" rfl rfl, other "nan" rfl rfl, Bool.or_self,
    Bool.false_eq_true, if_false]

/-- A number with a point stands for the double nearest to it, with a sign in front and without. -/
theorem readReal_pointed (negative : Bool) (places units : Nat) :
    readReal (sign negative ++ pointed places units) =
      some (scientific negative units (-(places : Int))) := by
  have plain : ∀ c ∈ (sign negative ++ pointed places units).toList, IsPlain c := by
    rw [String.toList_append, List.forall_mem_append]
    refine ⟨?_, fun c member => isPlain_of_mem_pointed member⟩
    cases negative with
    | false => nofun
    | true => simp [sign, IsPlain, Text.isBlank]
  have split_ : splitSign (sign negative ++ pointed places units).toList =
      (negative, (pointed places units).toList) := by
    rw [String.toList_append]
    cases negative with
    | false =>
        rw [toList_pointed]
        exact splitSign_digits _ _
    | true => rfl
  have unnamed : readNamed negative (pointed places units).toList = none := by
    obtain ⟨c, others, shape⟩ := List.exists_cons_of_ne_nil
      (Nat.toDigits_ne_nil (n := units / 10 ^ places) (b := 10))
    rw [toList_pointed, shape]
    exact readNamed_of_digit negative (isDigit_of_mem (shape ▸ List.mem_cons_self)) _
  unfold readReal
  rw [map_plainDigit plain, strip_of_plain plain, joinDigits_of_plain plain]
  simp only [Option.bind_eq_bind, Option.bind_some, split_, unnamed, readScientific_pointed,
    Option.map_some]

theorem readReal_nan : readReal "nan" = some (Float.ofBits 0x7FF8000000000000) := by
  decide +kernel

theorem readReal_infinity (negative : Bool) :
    readReal (sign negative ++ "inf") = some (Binary64.infinity negative) := by
  cases negative with
  | false => decide +kernel
  | true => decide +kernel

/-- The double that is read where another was written with a fixed count of places. -/
def reread (places : Nat) (x : Float) : Float :=
  match Binary64.read x with
  | .nan => Float.ofBits 0x7FF8000000000000
  | .infinite negative => Binary64.infinity negative
  | .finite negative steps =>
    scientific negative
      (Binary64.roundHalfEven (steps * Nat.pow 10 places) (Nat.pow 2 Binary64.stepBits))
      (-(places : Int))

theorem readReal_fixed (places : Nat) (x : Float) :
    readReal (fixed places x) = some (reread places x) := by
  unfold fixed reread
  cases Binary64.read x with
  | nan => exact readReal_nan
  | infinite negative => exact readReal_infinity negative
  | finite negative steps => exact readReal_pointed _ _ _

end Decimal

namespace Document

theorem toWhole_toString {n : Int} (short : Decimal.isWritable n = true) :
    (text (toString n)).toWhole = .ok n := by
  unfold toWhole
  simp only [Decimal.readWhole_toString short]

theorem toReal_fixed (places : Nat) (x : Float) :
    (text (Decimal.fixed places x)).toReal = .ok (Decimal.reread places x) := by
  unfold toReal
  simp only [Decimal.readReal_fixed]

end Document

end EvoSched

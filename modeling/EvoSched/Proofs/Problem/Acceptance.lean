import Mathlib.Tactic.MkIffOfInductiveProp
import EvoSched.Proofs.Computation
import EvoSched.Problem

set_option autoImplicit false

namespace EvoSched

variable {α : Type} [Scalar α]

@[mk_iff]
structure Job.Acceptable (job : Job α) : Prop where
  length : acceptable job.length = true
  memory : acceptable job.memory = true
  input : acceptable job.input = true
  output : acceptable job.output = true
  pes_small : job.pes.natAbs < Binary64.overflowBound
  pes_nonneg : 0 ≤ job.pes

@[mk_iff]
structure Node.Acceptable (node : Node α) : Prop where
  capacity : acceptable node.capacity = true
  perSecond : acceptable node.perSecond = true
  perMemory : acceptable node.perMemory = true
  perTransfer : acceptable node.perTransfer = true
  some_capacity : ¬ node.capacity ≤ Scalar.zero

structure Problem.Acceptable (problem : Problem α) : Prop where
  some_job : problem.jobs ≠ []
  some_node : problem.nodes ≠ []
  jobs : ∀ job ∈ problem.jobs, job.Acceptable
  nodes : ∀ node ∈ problem.nodes, node.Acceptable

theorem checkField_eq_ok_iff {item label field : String} {x : α} :
    checkField item label field x = .ok () ↔ acceptable x = true := by
  unfold checkField
  split <;> simp_all

theorem Job.check_eq_ok_iff (job : Job α) (index : Nat) :
    job.check index = .ok () ↔ job.Acceptable := by
  simp only [Job.check, result_then_eq_ok, checkField_eq_ok_iff]
  constructor
  · rintro ⟨length, memory, input, output, pes⟩
    split at pes
    · cases pes
    · split at pes
      · cases pes
      · exact ⟨length, memory, input, output, by omega, by omega⟩
  · intro fine
    have small := fine.pes_small
    have nonneg := fine.pes_nonneg
    refine ⟨fine.length, fine.memory, fine.input, fine.output, ?_⟩
    rw [if_neg (by omega), if_neg (by omega)]

theorem Node.check_eq_ok_iff (node : Node α) (index : Nat) :
    node.check index = .ok () ↔ node.Acceptable := by
  simp only [Node.check, result_then_eq_ok, checkField_eq_ok_iff]
  constructor
  · rintro ⟨capacity, perSecond, perMemory, perTransfer, room⟩
    split at room
    · cases room
    · rename_i positive
      exact ⟨capacity, perSecond, perMemory, perTransfer, positive⟩
  · intro fine
    refine ⟨fine.capacity, fine.perSecond, fine.perMemory, fine.perTransfer, ?_⟩
    rw [if_neg fine.some_capacity]

theorem checkEach_eq_ok_iff {β : Type} {check : β → Nat → Except Fault Unit} {Fine : β → Prop}
    (single : ∀ item index, check item index = .ok () ↔ Fine item) {index : Nat} {items : List β} :
    checkEach check index items = .ok () ↔ ∀ item ∈ items, Fine item := by
  induction items generalizing index with
  | nil => simp [checkEach]
  | cons item rest ih => simp only [checkEach, result_then_eq_ok, single, ih, List.forall_mem_cons]

theorem Problem.check_eq_ok_iff {problem : Problem α} :
    problem.check = .ok () ↔ problem.Acceptable := by
  unfold Problem.check
  constructor
  · intro passed
    split at passed
    · cases passed
    · split at passed
      · cases passed
      · rename_i jobs nodes
        obtain ⟨eachJob, eachNode⟩ := result_then_eq_ok.1 passed
        exact ⟨by simpa using jobs, by simpa using nodes,
          (checkEach_eq_ok_iff Job.check_eq_ok_iff).1 eachJob,
          (checkEach_eq_ok_iff Node.check_eq_ok_iff).1 eachNode⟩
  · intro fine
    have jobs := fine.some_job
    have nodes := fine.some_node
    rw [if_neg (by simpa using jobs), if_neg (by simpa using nodes), result_then_eq_ok]
    exact ⟨(checkEach_eq_ok_iff Job.check_eq_ok_iff).2 fine.jobs,
      (checkEach_eq_ok_iff Node.check_eq_ok_iff).2 fine.nodes⟩

/-- Whether a problem is accepted can be computed. -/
instance (problem : Problem α) : Decidable (problem.check = .ok ()) :=
  match problem.check with
  | .ok () => .isTrue rfl
  | .error _ => .isFalse nofun

end EvoSched

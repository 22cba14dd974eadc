import Mathlib.Order.MinMax
import NodeDescriptor.Batch
import NodeDescriptor.Proofs.Acceptance

/-!
# The verdict on a batch

The verdict on a batch is found by looking for failures and then counting accepted files. It is the
worst verdict on a single file, so it can be put together from the verdicts on parts of the batch,
in any order.
-/

set_option autoImplicit false

namespace NodeDescriptor

/-! ## The order of verdicts -/

namespace Verdict

variable {verdict : Verdict} {verdicts others : List Verdict}

def rank : Verdict → Nat
  | .accepted => 0
  | .rejected => 1
  | .failed => 2

private theorem rank_injective : Function.Injective rank := by
  intro one other
  cases one <;> cases other <;> simp [rank]

instance : LinearOrder Verdict := LinearOrder.lift' rank rank_injective

private theorem accepted_le (verdict : Verdict) : accepted ≤ verdict := Nat.zero_le verdict.rank

private theorem le_failed (verdict : Verdict) : verdict ≤ failed := by
  cases verdict <;> decide

private theorem le_accepted_iff : verdict ≤ accepted ↔ verdict = accepted := by
  cases verdict <;> decide

private theorem le_rejected_iff : verdict ≤ rejected ↔ verdict ≠ failed := by
  cases verdict <;> decide

private theorem exitCode_max (one other : Verdict) :
    (max one other).exitCode = max one.exitCode other.exitCode := by
  cases one <;> cases other <;> decide

/-- The worst of some verdicts; where there are none, nothing is amiss. -/
def worst (verdicts : List Verdict) : Verdict := verdicts.foldr max accepted

private theorem worst_le_iff {bound : Verdict} :
    worst verdicts ≤ bound ↔ ∀ verdict ∈ verdicts, verdict ≤ bound := by
  induction verdicts with
  | nil => simp [worst, accepted_le]
  | cons first rest ih =>
      rw [List.forall_mem_cons, ← ih]
      exact max_le_iff

private theorem worst_append :
    worst (verdicts ++ others) = max (worst verdicts) (worst others) := by
  refine eq_of_forall_ge_iff fun bound => ?_
  rw [max_le_iff, worst_le_iff, worst_le_iff, worst_le_iff, List.forall_mem_append]

private theorem worst_perm (permuted : verdicts.Perm others) : worst verdicts = worst others := by
  refine eq_of_forall_ge_iff fun bound => ?_
  simp only [worst_le_iff, permuted.mem_iff]

end Verdict

/-! ## Files -/

private theorem Outcome.isAccepted_of_strict {outcome : Outcome}
    (passed : outcome.isAccepted true = true) : outcome.isAccepted false = true := by
  have noErrors := (Report.isEmpty_iff.mp passed).1
  simp [isAccepted, noErrors]

namespace FileOutcome

variable {file : FileOutcome} {strict : Bool}

/-- The verdict on one file. -/
def verdict (file : FileOutcome) (strict : Bool) : Verdict :=
  match file.result with
  | .error _ => .failed
  | .ok outcome => if outcome.isAccepted strict then .accepted else .rejected

private theorem verdict_eq_accepted_iff :
    file.verdict strict = .accepted ↔ file.isAccepted strict = true := by
  unfold verdict isAccepted
  cases file.result with
  | error problem => simp
  | ok outcome => simp

private theorem verdict_ne_failed_iff : file.verdict strict ≠ .failed ↔ file.hasFailed = false := by
  unfold verdict hasFailed
  cases file.result with
  | error problem => simp
  | ok outcome =>
      dsimp only
      split <;> simp

private theorem hasFailed_of_isAccepted (accepted : file.isAccepted strict = true) :
    file.hasFailed = false := by
  have notFailed : file.verdict strict ≠ .failed := by
    rw [verdict_eq_accepted_iff.mpr accepted]
    decide
  exact verdict_ne_failed_iff.mp notFailed

private theorem verdict_le_strict (file : FileOutcome) :
    file.verdict false ≤ file.verdict true := by
  unfold verdict
  cases file.result with
  | error problem => exact le_refl _
  | ok outcome =>
      dsimp only
      by_cases passed : outcome.isAccepted true = true
      · rw [if_pos passed, if_pos (Outcome.isAccepted_of_strict passed)]
      · rw [if_neg passed]
        split <;> decide

end FileOutcome

/-! ## Batches -/

namespace Batch

variable {batch : Batch} {strict : Bool}

/-- The files of two batches, one batch after the other. -/
def append (left right : Batch) : Batch := ⟨left.files ++ right.files⟩

private theorem acceptedCount_eq_length_iff :
    batch.acceptedCount strict = batch.files.length ↔
      ∀ file ∈ batch.files, file.isAccepted strict = true :=
  List.length_filter_eq_length_iff

private theorem isEmpty_failures_iff :
    batch.failures.isEmpty = true ↔ ∀ file ∈ batch.files, file.hasFailed = false := by
  rw [failures, List.isEmpty_iff, List.filter_eq_nil_iff]
  simp only [Bool.not_eq_true]

private theorem verdict_ne_failed_iff :
    batch.verdict strict ≠ .failed ↔ ∀ file ∈ batch.files, file.hasFailed = false := by
  rw [← isEmpty_failures_iff, verdict]
  cases batch.failures.isEmpty with
  | false => simp
  | true => cases batch.allAccepted strict <;> simp

private theorem allAccepted_iff :
    batch.allAccepted strict = true ↔ ∀ file ∈ batch.files, file.isAccepted strict = true := by
  rw [allAccepted, beq_iff_eq, acceptedCount_eq_length_iff]

private theorem verdict_eq_accepted_iff :
    batch.verdict strict = .accepted ↔ ∀ file ∈ batch.files, file.isAccepted strict = true := by
  rw [← allAccepted_iff, verdict]
  cases passed : batch.allAccepted strict with
  -- The search for failures comes first, but finds none among accepted files.
  | true =>
      have none : batch.failures.isEmpty = true := isEmpty_failures_iff.mpr fun file listed =>
        FileOutcome.hasFailed_of_isAccepted (allAccepted_iff.mp passed file listed)
      simp [none]
  | false => cases batch.failures.isEmpty <;> simp

private theorem verdict_le_iff {bound : Verdict} :
    batch.verdict strict ≤ bound ↔ ∀ file ∈ batch.files, file.verdict strict ≤ bound := by
  cases bound with
  | accepted =>
      simp only [Verdict.le_accepted_iff, verdict_eq_accepted_iff,
        FileOutcome.verdict_eq_accepted_iff]
  | rejected =>
      simp only [Verdict.le_rejected_iff, verdict_ne_failed_iff, FileOutcome.verdict_ne_failed_iff]
  | failed => simp only [Verdict.le_failed, implies_true]

private theorem verdict_eq_worst (batch : Batch) (strict : Bool) :
    batch.verdict strict =
      Verdict.worst (batch.files.map fun file => file.verdict strict) := by
  refine eq_of_forall_ge_iff fun bound => ?_
  rw [verdict_le_iff, Verdict.worst_le_iff, List.forall_mem_map]

private theorem verdict_append (left right : Batch) (strict : Bool) :
    (left.append right).verdict strict = max (left.verdict strict) (right.verdict strict) := by
  simp only [verdict_eq_worst, append, List.map_append, Verdict.worst_append]

private theorem verdict_perm {left right : Batch} (permuted : left.files.Perm right.files)
    (strict : Bool) : left.verdict strict = right.verdict strict := by
  rw [verdict_eq_worst, verdict_eq_worst]
  exact Verdict.worst_perm (permuted.map _)

private theorem verdict_mono (batch : Batch) : batch.verdict false ≤ batch.verdict true := by
  refine verdict_le_iff.mpr fun file listed => ?_
  exact le_trans file.verdict_le_strict (verdict_le_iff.mp (le_refl _) file listed)

/-- The verdict on a batch is the worst of the verdicts on its files. So two batches together are
as bad as the worse of them, also by the exit code; the order of the files does not matter; strict
rules never make the verdict better; and a batch is accepted exactly if all files are counted as
accepted. -/
theorem verdict_is_worst (strict : Bool) :
    (Verdict.accepted < .rejected ∧ Verdict.rejected < .failed) ∧
      (∀ batch : Batch, batch.verdict strict =
        Verdict.worst (batch.files.map fun file => file.verdict strict)) ∧
      (∀ left right : Batch,
        (left.append right).verdict strict = max (left.verdict strict) (right.verdict strict) ∧
          ((left.append right).verdict strict).exitCode =
            max (left.verdict strict).exitCode (right.verdict strict).exitCode) ∧
      (∀ left right : Batch, left.files.Perm right.files →
        left.verdict strict = right.verdict strict) ∧
      (∀ batch : Batch, batch.verdict false ≤ batch.verdict true) ∧
      ∀ batch : Batch, batch.verdict strict = .accepted ↔
        batch.acceptedCount strict = batch.files.length := by
  refine ⟨by decide, fun batch => batch.verdict_eq_worst strict, fun left right => ?_,
    fun _ _ permuted => verdict_perm permuted strict, verdict_mono, fun batch => ?_⟩
  · have joined := verdict_append left right strict
    exact ⟨joined, by rw [joined, Verdict.exitCode_max]⟩
  · rw [verdict_eq_accepted_iff, acceptedCount_eq_length_iff]

def warnedFile : FileOutcome :=
  ⟨"warned.ogn", .ok ⟨.empty, ⟨[⟨"N.scheduling", .redundantScheduling "twice"⟩]⟩⟩⟩

def quietFile : FileOutcome := ⟨"quiet.ogn", .ok ⟨.empty, .empty⟩⟩

def brokenFile : FileOutcome := ⟨"broken.ogn", .error .notJson⟩

theorem mixedBatch_verdict :
    [warnedFile, quietFile].Perm [quietFile, warnedFile] ∧
      verdict ⟨[warnedFile, quietFile]⟩ true = verdict ⟨[quietFile, warnedFile]⟩ true ∧
      verdict ⟨[quietFile, warnedFile]⟩ true = .rejected ∧
      verdict ⟨[quietFile, warnedFile]⟩ false = .accepted ∧
      verdict (append ⟨[quietFile, warnedFile]⟩ ⟨[brokenFile]⟩) true = .failed := by
  obtain ⟨-, worst, joined, ordered, -, -⟩ := verdict_is_worst true
  have swapped : [warnedFile, quietFile].Perm [quietFile, warnedFile] := List.Perm.swap _ _ _
  refine ⟨swapped, ordered ⟨_⟩ ⟨_⟩ swapped, (worst _).trans (by decide), by decide, ?_⟩
  exact (joined _ _).1.trans (by decide)

end Batch

end NodeDescriptor

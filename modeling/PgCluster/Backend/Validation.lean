import PgCluster.Backend.ClusterTest
import PgCluster.Backend.Transfers
import Mathlib.Data.Fintype.BigOperators
import Mathlib.Data.Finset.Sigma
import Mathlib.Order.Interval.Finset.Nat

/-! What validate_test reports about a run with lost and with surplus transfers: the verdict
has the balance total alone, which counts the commits that are left.
-/

namespace PgCluster.Backend

open Foundation

-----------------------------------------------------------------------------------------
-- validate_test
-----------------------------------------------------------------------------------------

/-- The rows that generate_series(1, accounts) leads to. -/
abbrev Conf.Account (conf : Conf) := Fin conf.accounts.toNat

/-- The line that is logged, or the TypeError of formatting a NULL. -/
inductive Verdict where
  | testSuccessful
  | lostTransactions (number : Int)
  | typeError
deriving DecidableEq, Repr

/-- `sum(balance)`, which is NULL over no rows. -/
def sumBalance {Account : Type*} [Fintype Account] (table : Account → Int) : Option Int :=
  if Fintype.card Account = 0 then none else some (∑ account, table account)

/-- The total in cents against the configured one; the failure logs what the second query
computes from the rows, as `%d` truncates it.
-/
def validateTest (conf : Conf) (table : conf.Account → Int) : Verdict :=
  match sumBalance table with
  | none => .typeError
  | some total =>
      if total = (conf.accounts * 100 + conf.operations) * unit then
        .testSuccessful
      else
        .lostTransactions
          ((total - (Fintype.card conf.Account * 100 + conf.operations) * unit).tdiv unit)

/-- The number that is logged is the excess of the commits, by the total of their balances. -/
theorem validateTest_balance (conf : Conf) (transfers : List (Transfer conf.Account))
    : validateTest conf (balance transfers)
      = if conf.accounts ≤ 0 then
          .typeError
        else if (transfers.length : Int) = conf.operations then
          .testSuccessful
        else
          .lostTransactions (transfers.length - conf.operations) := by
  have total := sum_balance transfers
  simp only [Fintype.card_fin] at total
  by_cases empty : conf.accounts ≤ 0
  · have none_ : conf.accounts.toNat = 0 := by omega
    simp [validateTest, sumBalance, empty, none_]
  · have some_ : conf.accounts.toNat ≠ 0 := by omega
    have rows : ((conf.accounts.toNat : Nat) : Int) = conf.accounts := by omega
    simp only [validateTest, sumBalance, Fintype.card_fin, some_, if_false, total, empty, rows,
      initialBalance, unit]
    by_cases exact_ : (transfers.length : Int) = conf.operations
    · rw [if_pos (by omega), if_pos exact_]
    · rw [if_neg (by omega), if_neg exact_]
      congr 1
      have excess : 10000 * conf.accounts + 100 * (transfers.length : Int)
          - (conf.accounts * 100 + conf.operations) * 100
          = (transfers.length - conf.operations) * 100 := by
        ring
      rw [excess, Int.mul_tdiv_cancel _ (by decide)]

-----------------------------------------------------------------------------------------
-- Lost and surplus transfers of a run
-----------------------------------------------------------------------------------------

section Run

variable {Thread Account : Type*} [DecidableEq Thread] [Fintype Account] {conf : Conf}

/-- An increment by its thread and its number. -/
abbrev Operation (Thread : Type*) := (_ : Thread) × Nat

def Applied.increment (entry : Applied Thread Account) : Operation Thread :=
  ⟨entry.thread, entry.operation⟩

/-- The operations with a commit that is left. -/
def TestState.applied (state : TestState Thread Account) : Finset (Operation Thread) :=
  (state.shared.committed.map Applied.increment).toFinset

/-- The commits that are left belong to increments of their threads. -/
structure WithinCounted (thread : Thread) (worker : Worker) (shared : Shared Thread Account)
    : Prop where
  entries
    : ∀ entry ∈ shared.committed,
        entry.thread = thread → 0 < entry.operation ∧ entry.operation ≤ worker.counted
  attempting : worker.position.Attempting → 0 < worker.counted

omit [DecidableEq Thread] in
/-- A thread's step keeps this, by its effect. -/
theorem WithinCounted.step {thread : Thread} {worker : Worker} {shared : Shared Thread Account}
    (within : WithinCounted thread worker shared) (conf : Conf) (reply : Reply Account)
    : WithinCounted thread (worker.step conf thread reply shared).1
        (worker.step conf thread reply shared).2 := by
  have commits : ∀ transfer acknowledged, worker.position = .executing
      → ∀ entry ∈ (shared.commit thread worker.counted transfer acknowledged).committed,
        entry.thread = thread → 0 < entry.operation ∧ entry.operation ≤ worker.counted := by
    intro transfer acknowledged stands entry member mine
    rcases List.mem_append.mp member with before | new
    · exact within.entries entry before mine
    · rw [List.mem_singleton.mp new]
      exact ⟨within.attempting (by simp [stands, Position.Attempting]), le_rfl⟩
  cases worker.step_effect conf thread reply shared with
  | counts seen stands starts counted _ committed =>
      refine ⟨?_, fun _ => by omega⟩
      rw [committed]
      intro entry member mine
      have before := within.entries entry member mine
      omega
  | finishes transfer stands done counted after =>
      refine ⟨?_, fun attempting => by simp [done, Position.Attempting] at attempting⟩
      rw [after, counted]
      exact commits transfer true stands
  | loses transfer stands goesOn counted after =>
      have some_ := within.attempting (by simp [stands, Position.Attempting])
      refine ⟨?_, fun _ => by omega⟩
      rw [after, counted]
      exact commits transfer false stands
  | moves stands counted _ committed starts goesOn =>
      refine ⟨?_, fun attempting => ?_⟩
      · rw [committed, counted]
        exact within.entries
      · rw [counted]
        exact within.attempting (starts attempting)

omit [DecidableEq Thread] in
/-- Another thread's step adds no entry of this one. -/
theorem WithinCounted.step_other {thread other : Thread} (apart : other ≠ thread)
    {worker : Worker} {shared : Shared Thread Account}
    (within : WithinCounted thread worker shared) (conf : Conf) (mover : Worker)
    (reply : Reply Account)
    : WithinCounted thread worker (mover.step conf other reply shared).2 := by
  refine ⟨?_, within.attempting⟩
  intro entry member mine
  have commits : ∀ transfer acknowledged,
      (mover.step conf other reply shared).2
        = shared.commit other mover.counted transfer acknowledged
      → entry ∈ shared.committed := by
    intro transfer acknowledged after
    rw [after] at member
    rcases List.mem_append.mp member with before | new
    · exact before
    · rw [List.mem_singleton.mp new] at mine
      exact absurd mine apart
  cases mover.step_effect conf other reply shared with
  | counts _ _ _ _ _ committed => exact within.entries entry (committed ▸ member) mine
  | finishes _ _ _ _ after => exact within.entries entry (commits _ _ after) mine
  | loses _ _ _ _ after => exact within.entries entry (commits _ _ after) mine
  | moves _ _ _ committed _ _ => exact within.entries entry (committed ▸ member) mine

/-- In every run, failovers included, the commits that are left belong to increments. -/
theorem withinCounted_of_run (conf : Conf) (labels : List (Label Thread Account))
    (thread : Thread)
    : WithinCounted thread (((clusterTest Thread Account conf).run labels).own thread)
        ((clusterTest Thread Account conf).run labels).shared := by
  refine Machine.after_forall
    (fun state : TestState Thread Account =>
      ∀ thread, WithinCounted thread (state.own thread) state.shared)
    ?_ ?_ labels thread
  · intro state label within
    cases label with
    | work mover reply =>
        refine Threads.advance_forall
          (fun thread (own : Worker) (shared : Shared Thread Account) =>
            WithinCounted thread own shared)
          within ((within mover).step conf reply) ?_
        exact fun other apart before => before.step_other apart.symm conf _ reply
    | requestStop => exact fun other => ⟨(within other).entries, (within other).attempting⟩
    | failover kept =>
        refine fun other => ⟨?_, (within other).attempting⟩
        exact fun entry member => (within other).entries entry (List.mem_of_mem_take member)
  · intro thread
    exact ⟨by simp [clusterTest, Shared.initial],
      by simp [clusterTest, Worker.initial, Position.Attempting]⟩

variable [Fintype Thread]

/-- All increments of all threads. -/
def TestState.countedOperations (state : TestState Thread Account)
    : Finset (Operation Thread) :=
  Finset.univ.sigma (fun thread => Finset.Icc 1 (state.own thread).counted)

/-- L: the counted operations without a commit that is left. -/
def TestState.lost (state : TestState Thread Account) : Nat :=
  (state.countedOperations \ state.applied).card

/-- D: the commits that are left beyond the first of each operation. -/
def TestState.surplus (state : TestState Thread Account) : Nat :=
  state.shared.committed.length - state.applied.card

/-- The commits that are left are the increments less the lost and plus the surplus. -/
theorem committed_add_lost (conf : Conf) (labels : List (Label Thread Account))
    : ((clusterTest Thread Account conf).run labels).shared.committed.length
        + ((clusterTest Thread Account conf).run labels).lost
      = ((clusterTest Thread Account conf).run labels).counted
        + ((clusterTest Thread Account conf).run labels).surplus := by
  have within := withinCounted_of_run conf labels
  generalize (clusterTest Thread Account conf).run labels = state at within ⊢
  have included : state.applied ⊆ state.countedOperations := by
    intro operation member
    obtain ⟨entry, left, same⟩ := List.mem_map.mp (List.mem_toFinset.mp member)
    have range := (within entry.thread).entries entry left rfl
    simp only [TestState.countedOperations, Finset.mem_sigma, Finset.mem_univ, true_and,
      Finset.mem_Icc, ← same, Applied.increment]
    omega
  have all : state.countedOperations.card = state.counted := by
    simp [TestState.countedOperations, TestState.counted]
  have parts := Finset.card_sdiff_add_card_eq_card included
  have fewer : state.applied.card ≤ state.shared.committed.length := by
    have bound := (state.shared.committed.map Applied.increment).toFinset_card_le
    rwa [List.length_map] at bound
  unfold TestState.lost TestState.surplus
  omega

end Run

/-- The verdict is a success exactly if nothing is lost and nothing is surplus, and else
logs a positive number for losses and a negative one for surplus commits alone.
-/
def Verdict.Right (verdict : Verdict) (lost surplus : Nat) : Prop :=
  (verdict = .testSuccessful ↔ lost = 0 ∧ surplus = 0)
  ∧ (¬ (lost = 0 ∧ surplus = 0)
    → ∃ number,
        verdict = .lostTransactions number
        ∧ (0 < lost → 0 < number)
        ∧ (lost = 0 → number < 0))

/-- The table that a run leaves. -/
def finalTable {Thread : Type*} {conf : Conf} (state : TestState Thread conf.Account)
    : conf.Account → Int :=
  balance (state.shared.committed.map (fun entry => entry.transfer))

/-- The verdict is right exactly if there is an account and either nothing is lost or surplus
and as many operations were counted as requested, or losses are outweighed by more increments
and surplus commits than losses and requests, or surplus commits come with fewer of both than
were requested.
-/
theorem validateTest_right_iff {Thread : Type*} [DecidableEq Thread] [Fintype Thread]
    (conf : Conf) (labels : List (Label Thread conf.Account))
    : let last := (clusterTest Thread conf.Account conf).run labels
      (validateTest conf (finalTable last)).Right last.lost last.surplus
      ↔ 0 < conf.accounts
        ∧ (last.lost = 0 ∧ last.surplus = 0 ∧ (last.counted : Int) = conf.operations
          ∨ 0 < last.lost ∧ conf.operations + last.lost < last.counted + last.surplus
          ∨ last.lost = 0 ∧ 0 < last.surplus
            ∧ (last.counted : Int) + last.surplus < conf.operations) := by
  intro last
  have sum : last.shared.committed.length + last.lost = last.counted + last.surplus :=
    committed_add_lost conf labels
  rw [finalTable, validateTest_balance, List.length_map]
  unfold Verdict.Right
  by_cases empty : conf.accounts ≤ 0
  · simp only [empty, if_true, reduceCtorEq, false_iff, false_and, exists_false, imp_false,
      not_not]
    constructor
    · rintro ⟨none_, all⟩
      exact absurd all none_
    · rintro ⟨some_, _⟩
      omega
  · by_cases exact_ : (last.shared.committed.length : Int) = conf.operations
    · simp only [empty, exact_, if_true, if_false, reduceCtorEq, false_and, exists_false,
        true_iff]
      constructor
      · rintro ⟨⟨none_, noMore⟩, _⟩
        exact ⟨by omega, .inl ⟨none_, noMore, by omega⟩⟩
      · rintro ⟨_, ⟨none_, noMore, _⟩ | ⟨_, more⟩ | ⟨none_, some_, fewer⟩⟩
        · exact ⟨⟨none_, noMore⟩, fun other => other ⟨none_, noMore⟩⟩
        · omega
        · omega
    · simp only [empty, exact_, if_false, reduceCtorEq, false_iff, Verdict.lostTransactions.injEq,
        exists_eq_left']
      constructor
      · rintro ⟨other, signs⟩
        obtain ⟨positive, negative⟩ := signs other
        refine ⟨by omega, ?_⟩
        by_cases none_ : last.lost = 0
        · have below := negative none_
          exact .inr (.inr ⟨none_, by omega, by omega⟩)
        · have above := positive (by omega)
          exact .inr (.inl ⟨by omega, by omega⟩)
      · rintro ⟨_, ⟨none_, noMore, same⟩ | ⟨some_, more⟩ | ⟨none_, some_, fewer⟩⟩
        · omega
        · exact ⟨by omega, fun _ => ⟨fun _ => by omega, fun none_ => by omega⟩⟩
        · exact ⟨by omega, fun _ => ⟨fun _ => by omega, fun _ => by omega⟩⟩

/-- A failover drops the only commit, and the loss is logged as a negative number. -/
theorem validateTest_lossNegative
    : let conf := exampleConf 1 ["node1"]
      let last := (clusterTest (Fin 1) conf.Account conf).run
        (List.replicate 10 (.work 0 (exampleReply .succeeds))
          ++ .failover 0 :: List.replicate 2 (.work 0 (exampleReply .succeeds)))
      (last.own 0).position = .returned
      ∧ last.lost = 1
      ∧ last.surplus = 0
      ∧ validateTest conf (finalTable last) = .lostTransactions (-1) := by
  decide

end PgCluster.Backend

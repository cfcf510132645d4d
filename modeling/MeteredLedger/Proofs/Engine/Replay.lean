import Mathlib.Data.List.Nodup
import MeteredLedger.Engine.Basic
import MeteredLedger.Proofs.Engine.Settlement

/-!
# Transactions are not replayed

A run of transactions is looked at as a list of trials, each a transaction with the context that it
is settled against.  A trial that is not kept leaves this context as it is, so it may as well not
have been there.  A trial that is kept takes the sequence number of its origin one up, and that of
nobody else, so the numbers of what is kept count up without a gap.
-/

namespace MeteredLedger

open Ledger

/-- A transaction and the context that it is settled against. -/
structure Trial where
  base : Context
  tx : Transaction

namespace Trial

def settlement (t : Trial) : Settlement := t.tx.settle t.base

/-- The context that the next transaction is settled against. -/
def next (t : Trial) : Context := { t.base with ledger := t.settlement.ledger }

/-- What the transaction did is kept. -/
def Kept (t : Trial) : Prop := t.settlement.disposition = .committed

instance (t : Trial) : Decidable t.Kept :=
  inferInstanceAs (Decidable (t.settlement.disposition = .committed))

/-- The origin has not used up its sequence numbers. -/
def HasRoom (t : Trial) : Prop :=
  ∀ x, t.base.ledger.account? t.tx.origin = some x → x.sequence < Int64.maxValue

instance (t : Trial) : Decidable t.HasRoom :=
  decidable_of_iff ((t.base.ledger.account? t.tx.origin).all (·.sequence < Int64.maxValue))
    (by simp [HasRoom, Option.all_eq_true])

/-- The trials of a list of transactions, one after the other. -/
def all (base : Context) : List Transaction → List Trial
  | [] => []
  | tx :: txs => ⟨base, tx⟩ :: all (next ⟨base, tx⟩) txs

/-- The context after a list of transactions. -/
def last (base : Context) : List Transaction → Context
  | [] => base
  | tx :: txs => last (next ⟨base, tx⟩) txs

/-- The transactions of a list that are kept. -/
def keptOf (base : Context) (txs : List Transaction) : List Transaction :=
  ((all base txs).filter fun t ↦ t.Kept).map tx

/-- The second list is the first without some of the trials that are not kept. -/
inductive Pruned : List Trial → List Trial → Prop
  | nil : Pruned [] []
  | keep (t : Trial) {ts us : List Trial} (h : Pruned ts us) : Pruned (t :: ts) (t :: us)
  | drop {t : Trial} {ts us : List Trial} (ht : ¬ t.Kept) (h : Pruned ts us) : Pruned (t :: ts) us

variable {t : Trial} {base : Context} {a : Address} {x : Account Value}

/-! ## One trial -/

/-- A trial is kept exactly if its transaction is committed. -/
theorem kept_iff_committed (ht : t.HasRoom) :
    t.Kept ↔ t.tx.Committed t.base t.settlement := by
  rcases Transaction.settle_discarded_or_committed ht with ⟨hd, hdisp⟩ | ⟨hc, hdisp⟩
  · exact iff_of_false hdisp hd.not_committed
  · exact iff_of_true hdisp hc

/-- A trial that is not kept leaves no trace. -/
theorem next_of_not_kept (ht : ¬ t.Kept) : t.next = t.base := by
  rcases t.tx.settle_cases t.base with ⟨-, hs⟩ | ⟨hdisp, -⟩
  · rw [next, settlement, hs]
  · exact absurd hdisp ht

/-- What is kept carries the number after the stored one, and stores it. -/
theorem sequence_of_kept (ht : t.Kept) (hroom : t.HasRoom)
    (hx : t.base.ledger.account? t.tx.origin = some x) :
    t.tx.sequence.toInt = x.sequence.toInt + 1 ∧
      ∃ y, t.next.ledger.account? t.tx.origin = some y ∧ y.sequence = t.tx.sequence := by
  rcases t.tx.settle_cases t.base with ⟨hdisp, -⟩ | ⟨-, z, y, hz, heq, hy, hs⟩
  · exact absurd ht hdisp
  · obtain rfl : x = z := Option.some.inj (hx.symm.trans hz)
    refine ⟨(Transaction.sequence_eq_iff (hroom x hx)).mp heq, ?_⟩
    rw [next, settlement, hs, Transaction.account?_stored_origin hy]
    exact ⟨_, rfl, rfl⟩

/-- A trial that is kept has an account. -/
theorem exists_account?_of_kept (ht : t.Kept) :
    ∃ x, t.base.ledger.account? t.tx.origin = some x := by
  rcases t.tx.settle_cases t.base with ⟨hdisp, -⟩ | ⟨-, x, -, hx, -⟩
  · exact absurd ht hdisp
  · exact ⟨x, hx⟩

/-- A trial does not change the sequence numbers of other accounts. -/
theorem sequence_of_ne (ha : a ≠ t.tx.origin) (hx : t.base.ledger.account? a = some x) :
    ∃ y, t.next.ledger.account? a = some y ∧ y.sequence = x.sequence := by
  obtain ⟨b, -, hy⟩ := Transaction.account?_settle_of_ne ha hx
  exact ⟨_, hy, rfl⟩

/-! ## A list of trials -/

theorem map_tx_all (base : Context) (txs : List Transaction) : (all base txs).map tx = txs := by
  induction txs generalizing base with
  | nil => rfl
  | cons tx txs ih => rw [all, List.map_cons, ih]

/-- A transaction that is kept is the first to be kept. -/
theorem keptOf_cons_of_kept {tx : Transaction} (ht : Kept ⟨base, tx⟩) (txs : List Transaction) :
    keptOf base (tx :: txs) = tx :: keptOf (next ⟨base, tx⟩) txs := by
  simp [keptOf, all, ht]

/-- A transaction that is not kept can be left out. -/
theorem keptOf_cons_of_not_kept {tx : Transaction} (ht : ¬ Kept ⟨base, tx⟩)
    (txs : List Transaction) : keptOf base (tx :: txs) = keptOf base txs := by
  have hnext : next ⟨base, tx⟩ = base := next_of_not_kept ht
  simp [keptOf, all, ht, hnext]

/-- The numbers of what is kept from one account count up from the stored one, and the last of them
is then the stored one. -/
theorem sequences_keptOf {txs : List Transaction} (hroom : ∀ t ∈ all base txs, t.HasRoom)
    (hx : base.ledger.account? a = some x) :
    ∃ n : Nat,
      ((keptOf base txs).filter (·.origin = a)).map (·.sequence.toInt) =
        (List.range n).map (fun i : Nat ↦ x.sequence.toInt + 1 + i) ∧
      ∃ y, (last base txs).ledger.account? a = some y ∧
        y.sequence.toInt = x.sequence.toInt + n := by
  induction txs generalizing base x with
  | nil => exact ⟨0, rfl, x, hx, by simp⟩
  | cons tx txs ih =>
      rw [all, List.forall_mem_cons] at hroom
      by_cases ht : Kept ⟨base, tx⟩
      · rw [keptOf_cons_of_kept ht]
        by_cases ha : tx.origin = a
        · subst ha
          obtain ⟨hseq, y, hy, hyseq⟩ := sequence_of_kept ht hroom.1 hx
          obtain ⟨n, hn, z, hz, hzseq⟩ := ih hroom.2 hy
          have hystep : y.sequence.toInt = x.sequence.toInt + 1 := by rw [hyseq]; exact hseq
          refine ⟨n + 1, ?_, z, hz, ?_⟩
          · have hshift (i : Nat) : y.sequence.toInt + 1 + i =
                x.sequence.toInt + 1 + ((i + 1 : Nat) : Int) := by omega
            rw [List.filter_cons_of_pos (by simp), List.map_cons, hn, List.range_succ_eq_map,
              List.map_cons, List.map_map]
            refine congrArg₂ _ (by simpa using hseq) (List.map_congr_left fun i _ ↦ hshift i)
          · rw [hzseq, hystep]
            omega
        · obtain ⟨y, hy, hyseq⟩ := sequence_of_ne (t := ⟨base, tx⟩) (Ne.symm ha) hx
          rw [List.filter_cons_of_neg (by simpa using ha), ← hyseq]
          exact ih hroom.2 hy
      · have hnext : next ⟨base, tx⟩ = base := next_of_not_kept ht
        rw [hnext] at hroom
        rw [keptOf_cons_of_not_kept ht, last, hnext]
        exact ih hroom.2 hx

/-- After a transaction is kept, what is kept from the same account has larger numbers. -/
theorem sequence_lt_of_mem_keptOf {tx tx' : Transaction} {txs : List Transaction}
    (ht : Kept ⟨base, tx⟩) (hroom : ∀ t ∈ all base (tx :: txs), t.HasRoom)
    (hmem : tx' ∈ keptOf (next ⟨base, tx⟩) txs) (horigin : tx'.origin = tx.origin) :
    tx.sequence.toInt < tx'.sequence.toInt := by
  rw [all, List.forall_mem_cons] at hroom
  obtain ⟨x, hx⟩ := exists_account?_of_kept ht
  obtain ⟨-, y, hy, hyseq⟩ := sequence_of_kept ht hroom.1 hx
  obtain ⟨n, hn, -⟩ := sequences_keptOf hroom.2 hy
  have hseq : tx'.sequence.toInt ∈
      ((keptOf (next ⟨base, tx⟩) txs).filter (·.origin = tx.origin)).map (·.sequence.toInt) :=
    List.mem_map_of_mem (List.mem_filter.mpr ⟨hmem, by simpa using horigin⟩)
  rw [hn, hyseq] at hseq
  obtain ⟨i, -, hi⟩ := List.mem_map.mp hseq
  rw [← hi]
  change tx.sequence.toInt < tx.sequence.toInt + 1 + i
  omega

/-- No transaction is kept twice. -/
theorem nodup_keptOf {txs : List Transaction} (hroom : ∀ t ∈ all base txs, t.HasRoom) :
    ((keptOf base txs).map fun tx ↦ (tx.origin, tx.sequence)).Nodup := by
  induction txs generalizing base with
  | nil => exact List.nodup_nil
  | cons tx txs ih =>
      have hrest := (List.forall_mem_cons.mp hroom).2
      by_cases ht : Kept ⟨base, tx⟩
      · rw [keptOf_cons_of_kept ht, List.map_cons, List.nodup_cons]
        refine ⟨fun hmem ↦ ?_, ih hrest⟩
        obtain ⟨tx', htx', heq⟩ := List.mem_map.mp hmem
        obtain ⟨horigin, hseq⟩ := Prod.mk.inj heq
        have hlt := sequence_lt_of_mem_keptOf ht hroom htx' horigin
        rw [hseq] at hlt
        exact absurd hlt (Int.lt_irrefl _)
      · have hnext : next ⟨base, tx⟩ = base := next_of_not_kept ht
        rw [hnext] at hrest
        rw [keptOf_cons_of_not_kept ht]
        exact ih hrest

/-- To leave out all that is not kept is to prune. -/
theorem pruned_filter (ts : List Trial) : Pruned ts (ts.filter fun t ↦ t.Kept) := by
  induction ts with
  | nil => exact .nil
  | cons t ts ih =>
      by_cases ht : t.Kept
      · rw [List.filter_cons_of_pos (by simpa using ht)]
        exact .keep t ih
      · rw [List.filter_cons_of_neg (by simpa using ht)]
        exact .drop ht ih

/-- Without some of the trials that are not kept, the others are the very same trials. -/
theorem Pruned.all_eq {txs : List Transaction} {us : List Trial} (h : Pruned (all base txs) us) :
    all base (us.map tx) = us ∧ last base (us.map tx) = last base txs := by
  induction txs generalizing base us with
  | nil =>
      cases h
      exact ⟨rfl, rfl⟩
  | cons tx txs ih =>
      rw [all] at h
      cases h with
      | keep t h =>
          obtain ⟨hall, hlast⟩ := ih h
          rw [List.map_cons, all, hall]
          exact ⟨rfl, hlast⟩
      | drop ht h =>
          have hnext : next ⟨base, tx⟩ = base := next_of_not_kept ht
          rw [hnext] at h
          rw [last, hnext]
          exact ih h

end Trial

namespace Engine

/-- What an engine makes of transactions is said by their trials. -/
theorem executeAll_trials (e : Engine) (txs : List Transaction) :
    (e.executeAll txs).1.base = Trial.last e.base txs ∧
      (e.executeAll txs).2 = (Trial.all e.base txs).map Trial.settlement := by
  induction txs generalizing e with
  | nil => exact ⟨rfl, rfl⟩
  | cons tx txs ih =>
      obtain ⟨hbase, hsettled⟩ := ih (e.execute tx).1
      exact ⟨hbase, congrArg (tx.settle e.base :: ·) hsettled⟩

/-- **No replay, and failures are invisible.** In a run of transactions from accounts that have not
used up their sequence numbers, those kept from an account carry, in order, the numbers that follow
the stored one, and the account ends with the last of them.  So no number of an account is used
twice.  Any of the transactions that are not kept may be left out: the ledger at the end, and the
settlement of each transaction that is left, are the same. -/
theorem executeAll_no_replay (e : Engine) (txs : List Transaction)
    (hroom : ∀ t ∈ Trial.all e.base txs, t.HasRoom) :
    ((Trial.all e.base txs).map Trial.tx = txs ∧
      (e.executeAll txs).2 = (Trial.all e.base txs).map Trial.settlement ∧
      ∀ t ∈ Trial.all e.base txs, t.Kept ↔ t.tx.Committed t.base t.settlement) ∧
    (∀ a x, e.ledger.account? a = some x → ∃ n : Nat,
      ((Trial.keptOf e.base txs).filter (·.origin = a)).map (·.sequence.toInt) =
        (List.range n).map (fun i : Nat ↦ x.sequence.toInt + 1 + i) ∧
      ∃ y, (e.executeAll txs).1.ledger.account? a = some y ∧
        y.sequence.toInt = x.sequence.toInt + n) ∧
    ((Trial.keptOf e.base txs).map fun tx ↦ (tx.origin, tx.sequence)).Nodup ∧
    (∀ us, Trial.Pruned (Trial.all e.base txs) us →
      (e.executeAll (us.map Trial.tx)).1.ledger = (e.executeAll txs).1.ledger ∧
      (e.executeAll (us.map Trial.tx)).2 = us.map Trial.settlement) ∧
    (e.executeAll (Trial.keptOf e.base txs)).1.ledger = (e.executeAll txs).1.ledger := by
  obtain ⟨hbase, hsettled⟩ := e.executeAll_trials txs
  have hpruned : ∀ us, Trial.Pruned (Trial.all e.base txs) us →
      (e.executeAll (us.map Trial.tx)).1.ledger = (e.executeAll txs).1.ledger ∧
      (e.executeAll (us.map Trial.tx)).2 = us.map Trial.settlement := by
    intro us hus
    obtain ⟨hbase', hsettled'⟩ := e.executeAll_trials (us.map Trial.tx)
    obtain ⟨hall, hlast⟩ := hus.all_eq
    constructor
    · rw [ledger, ledger, hbase', hlast, hbase]
    · rw [hsettled', hall]
  refine ⟨⟨Trial.map_tx_all e.base txs, hsettled, fun t ht ↦ Trial.kept_iff_committed (hroom t ht)⟩,
    fun a x hx ↦ ?_, Trial.nodup_keptOf hroom, hpruned, (hpruned _ (Trial.pruned_filter _)).1⟩
  rw [ledger, hbase]
  exact Trial.sequences_keptOf hroom hx

/-- Two payments that are kept, between one that comes twice, one without funds, one that is rolled
back and one from an account that is not there. -/
theorem executeAll_no_replay_mixed :
    let e := Engine.start (.genesis [100, 0]) { }
    let pay : Transaction := ⟨⟨0⟩, 1, 0, .transfer ⟨1⟩ 30⟩
    let undo : Transaction := ⟨⟨0⟩, 2, 0, .invoke (.invoke .rollback [.constant (.long 9)])⟩
    let again : Transaction := ⟨⟨0⟩, 2, 0, .transfer ⟨1⟩ 10⟩
    let txs := [pay, pay, ⟨⟨1⟩, 1, 0, .transfer ⟨0⟩ 500⟩, undo, again, ⟨⟨7⟩, 1, 0, .transfer ⟨0⟩ 1⟩]
    (∀ t ∈ Trial.all e.base txs, t.HasRoom) ∧
      (Trial.keptOf e.base txs).map (fun tx ↦ (tx.origin, tx.sequence)) = [(⟨0⟩, 1), (⟨0⟩, 2)] ∧
      ((Trial.keptOf e.base txs).map fun tx ↦ (tx.origin, tx.sequence)).Nodup ∧
      (e.executeAll (Trial.keptOf e.base txs)).1.ledger = (e.executeAll txs).1.ledger := by
  intro e pay undo again txs
  have hroom : ∀ t ∈ Trial.all e.base txs, t.HasRoom := by decide
  obtain ⟨-, -, hnodup, -, hledger⟩ := executeAll_no_replay e txs hroom
  exact ⟨hroom, by decide, hnodup, hledger⟩

end Engine

end MeteredLedger

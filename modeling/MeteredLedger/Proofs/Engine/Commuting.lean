import MeteredLedger.Engine.Basic
import MeteredLedger.Proofs.Engine.Settlement
import MeteredLedger.Proofs.Ledger.Payments
import MeteredLedger.Proofs.Op.Seclusion
import MeteredLedger.Proofs.Op.Threshold

/-!
# Transactions that commute

Two transactions of different accounts can be swapped if neither takes notice of the other.  This is
so if both keep to their own accounts: then each adjusts its own account in a way that depends on
that account and the time alone, and adjustments of different accounts commute.  Direct transfers
meet in the accounts they share, but payments commute, so it is enough that each is possible when it
comes first.
-/

namespace MeteredLedger

open Ledger

/-- The two ended in the same way: they were dealt with alike, and their contexts are equal but for
the ledgers they hold. -/
structure Settlement.SameEnd (s t : Settlement) : Prop where
  disposition_eq : t.disposition = s.disposition
  context_eq : t.context = { s.context with ledger := t.ledger }

/-- The second of two transactions settles over the ledger of the first. -/
theorem Engine.execute_execute (e : Engine) (tx tx' : Transaction) :
    (e.execute tx).1.execute tx' =
      (e.moveTo (tx'.settle (e.base.upon (tx.settle e.base).ledger)).ledger,
        tx'.settle (e.base.upon (tx.settle e.base).ledger)) := rfl

namespace Transaction

variable {base : Context} {tx : Transaction} {t : Ledger Value} {x : Account Value}

/-- What a commit writes into the account of the origin. -/
def stamp (tx : Transaction) (bindings : Map) (x : Account Value) : Account Value :=
  { x with sequence := tx.sequence, environment := bindings }

/-- To store a transaction is a change to the account of its origin. -/
theorem stored_eq_adjust {c : Context} (hx : c.ledger.account? tx.origin = some x) :
    tx.stored c x = c.ledger.adjust tx.origin (tx.stamp c.environment.bindings) :=
  setAccount_eq_adjust hx (tx.stamp c.environment.bindings)

/-! ## Secluded transactions -/

/-- A transaction arrives alike over ledgers that agree in its account. -/
theorem arrival_upon (ht : Agree tx.origin base.ledger t) :
    tx.arrival (base.upon t) = (tx.arrival base).upon t := by
  have hstored : Context.storedEnvironment t tx.origin =
      Context.storedEnvironment base.ledger tx.origin := by
    rw [Context.storedEnvironment, ht.account_eq]
    rfl
  simp only [arrival, Context.actAs, Context.upon]
  exact congrArg (fun environment ↦ { tx.arrival base with ledger := t, environment }) hstored

/-- A secluded transaction runs alike over ledgers that agree in its account. -/
theorem beside_ending {op : Op} (haction : tx.action = .invoke op) (hop : op.IsSecluded)
    (ht : Agree tx.origin base.ledger t) :
    Beside tx.origin base.ledger t (tx.ending base) (tx.ending (base.upon t)) := by
  have hopening : tx.opening (base.upon t) = (tx.opening base).upon t := by
    rw [opening, arrival_upon ht]
    rfl
  rw [ending, ending, haction, hopening]
  refine Beside.eval ht hop ⟨rfl, id, ?_, ?_⟩
  · rw [adjust_id]
    rfl
  · rw [adjust_id]

/-- A secluded transaction does the same to its account and ends in the same way over every ledger
with the same account and time. -/
theorem settle_upon {op : Op} (haction : tx.action = .invoke op) (hop : op.IsSecluded)
    (ht : Agree tx.origin base.ledger t) :
    ∃ f, (tx.settle base).ledger = base.ledger.adjust tx.origin f ∧
      tx.settle (base.upon t) = ⟨t.adjust tx.origin f,
        (tx.settle base).context.upon (t.adjust tx.origin f), (tx.settle base).disposition⟩ := by
  have hbeside := beside_ending haction hop ht
  cases hx : base.ledger.account? tx.origin with
  | none =>
      have hx' : (base.upon t).ledger.account? tx.origin = none := ht.account_eq.trans hx
      refine ⟨id, ?_, ?_⟩
      · rw [settle_of_absent hx, adjust_id]
      · rw [settle_of_absent hx, settle_of_absent hx', adjust_id, arrival_upon ht]
        rfl
  | some x =>
      have hx' : (base.upon t).ledger.account? tx.origin = some x := ht.account_eq.trans hx
      by_cases heq : tx.sequence = x.sequence + 1
      · obtain ⟨-, f, hledger, hending⟩ := hbeside
        have houtcome : (tx.ending (base.upon t)).outcome = (tx.ending base).outcome := by
          rw [hending]
          rfl
        rcases (tx.ending base).outcome.keeps_or_givesUp with ⟨v, ho⟩ | ⟨o, ho⟩
        · obtain ⟨y, hy, hs⟩ := settle_of_keeps hx heq ho
          obtain ⟨y', hy', hs'⟩ := settle_of_keeps hx' heq (houtcome ▸ ho)
          refine ⟨tx.stamp (tx.ending base).environment.bindings ∘ f, ?_, ?_⟩
          · rw [hs, stored_eq_adjust hy, hledger, adjust_adjust]
          · rw [hs, hs', stored_eq_adjust hy', hending, ← adjust_adjust]
            rfl
        · refine ⟨id, ?_, ?_⟩
          · rw [settle_of_givesUp hx heq ho, adjust_id]
          · rw [settle_of_givesUp hx heq ho, settle_of_givesUp hx' heq (houtcome ▸ ho), hending,
              adjust_id]
            rfl
      · refine ⟨id, ?_, ?_⟩
        · rw [settle_of_ne hx heq, adjust_id]
        · rw [settle_of_ne hx heq, settle_of_ne hx' heq, adjust_id, arrival_upon ht]
          rfl

/-- Another account does not notice a secluded transaction. -/
theorem agree_settle_of_ne {op : Op} (haction : tx.action = .invoke op) (hop : op.IsSecluded)
    {a : Address} (ha : a ≠ tx.origin) (base : Context) :
    Agree a base.ledger (tx.settle base).ledger := by
  obtain ⟨f, hf, -⟩ := settle_upon haction hop ⟨rfl, rfl⟩
  rw [hf]
  exact agree_adjust_of_ne ha base.ledger f

/-- A secluded transaction ends alike over ledgers that agree in its account. -/
theorem sameEnd_settle_upon {op : Op} (haction : tx.action = .invoke op) (hop : op.IsSecluded)
    (ht : Agree tx.origin base.ledger t) : (tx.settle base).SameEnd (tx.settle (base.upon t)) := by
  obtain ⟨f, -, hs⟩ := settle_upon haction hop ht
  rw [hs]
  exact ⟨rfl, rfl⟩

end Transaction

namespace Engine

/-- **Secluded transactions commute.** Let two transactions of different accounts evaluate
operations that pay nobody, ask for no balance and do not look at the whole ledger.  Executing them
in either order leads to the same engine, and each of them ends in the same way in both orders: it
is committed, discarded or rejected in both, with the same outcome, definitions and juice. -/
theorem execute_comm_of_secluded (e : Engine) (tx tx' : Transaction) (op op' : Op)
    (haction : tx.action = .invoke op) (haction' : tx'.action = .invoke op')
    (hne : tx.origin ≠ tx'.origin) (hop : op.IsSecluded) (hop' : op'.IsSecluded) :
    ((e.execute tx).1.execute tx').1 = ((e.execute tx').1.execute tx).1 ∧
    (e.execute tx).2.SameEnd ((e.execute tx').1.execute tx).2 ∧
    (e.execute tx').2.SameEnd ((e.execute tx).1.execute tx').2 := by
  have hagree := Transaction.agree_settle_of_ne haction' hop' hne e.base
  have hagree' := Transaction.agree_settle_of_ne haction hop hne.symm e.base
  obtain ⟨f, hf, hlast⟩ := Transaction.settle_upon haction hop hagree
  obtain ⟨g, hg, hlast'⟩ := Transaction.settle_upon haction' hop' hagree'
  rw [execute_execute, execute_execute]
  refine ⟨congrArg e.moveTo ?_, Transaction.sameEnd_settle_upon haction hop hagree,
    Transaction.sameEnd_settle_upon haction' hop' hagree'⟩
  rw [hlast, hlast', hf, hg]
  exact adjust_comm _ fun h ↦ absurd h hne

/-- The first account defines a name and holds its value for the second; the second one holds the
time for the first, and then rolls back with all that it holds. -/
theorem execute_comm_of_secluded_rollback :
    let e := start (.genesis [100, 20]) { }
    let op := Op.sequence [.define ⟨"x"⟩ (.constant (.long 1)),
      .invoke .setHolding [.constant (.address ⟨1⟩), .lookup ⟨"x"⟩]]
    let op' := Op.sequence [.invoke .setHolding [.constant (.address ⟨0⟩), .lookup ⟨"*timestamp*"⟩],
      .invoke .rollback [.lookup ⟨"*holdings*"⟩]]
    let tx : Transaction := ⟨⟨0⟩, 1, 0, .invoke op⟩
    let tx' : Transaction := ⟨⟨1⟩, 1, 0, .invoke op'⟩
    op.IsSecluded ∧ op'.IsSecluded ∧ tx.origin ≠ tx'.origin ∧
    (e.execute tx).2.disposition = .committed ∧ (e.execute tx').2.disposition = .discarded ∧
    ((e.execute tx).1.execute tx').1 = ((e.execute tx').1.execute tx).1 ∧
    (e.execute tx).2.SameEnd ((e.execute tx').1.execute tx).2 ∧
    (e.execute tx').2.SameEnd ((e.execute tx).1.execute tx').2 := by
  intro e op op' tx tx'
  have hop : op.IsSecluded := by decide
  have hop' : op'.IsSecluded := by decide
  have hne : tx.origin ≠ tx'.origin := by decide
  exact ⟨hop, hop', hne, by decide, by decide,
    execute_comm_of_secluded e tx tx' op op' rfl rfl hne hop hop'⟩

end Engine

/-! ## Direct transfers -/

/-- The account after its transaction with the number `n`. -/
def Account.numbered (n : Int64) (x : Account Value) : Account Value := { x with sequence := n }

theorem Account.credit_comp_numbered (m n : Int64) :
    credit m ∘ numbered n = numbered n ∘ credit m := rfl

namespace Transaction

variable {base : Context} {tx : Transaction} {target : Address} {amount : Int64}

/-- The transaction is the next one of an account that can pay the amount and the juice for it. -/
structure Sendable (base : Context) (tx : Transaction) (target : Address) (amount : Int64) :
    Prop where
  next : ∃ x, base.ledger.account? tx.origin = some x ∧ tx.sequence = x.sequence + 1
  juice : Cost.transfer ≤ (Juice.full base.limits.juice).remaining
  payable : Payable base.ledger tx.origin target amount

/-- The ledger after a direct transfer that is committed. -/
def sent (tx : Transaction) (s : Ledger Value) (target : Address) (amount : Int64) :
    Ledger Value :=
  (s.pay tx.origin target amount).adjust tx.origin (.numbered tx.sequence)

/-- A direct transfer is a charge and then a payment. -/
theorem ending_of_transfer (haction : tx.action = .transfer target amount) :
    tx.ending base =
      ((tx.opening base).charge Cost.transfer).andThen (·.transfer target amount) := by
  rw [ending, haction]
  rfl

/-- A payment that is possible and paid for is made, and nothing else. -/
theorem ending_of_payable (haction : tx.action = .transfer target amount)
    (hjuice : Cost.transfer ≤ (Juice.full base.limits.juice).remaining)
    (hpay : Payable base.ledger tx.origin target amount) :
    (tx.ending base).ledger = base.ledger.pay tx.origin target amount ∧
    (tx.ending base).environment = Context.storedEnvironment base.ledger tx.origin ∧
    (tx.ending base).outcome = .value (.long amount) := by
  rw [ending_of_transfer haction, Context.charge_of_le (c := tx.opening base) hjuice,
    Context.andThen_of_normal rfl]
  have htransfer := transfer_of_payable hpay
  simp only [Context.transfer, opening, arrival, Context.actAs, Context.fork, htransfer, and_self]

/-- An ending whose ledger is kept has been paid for and has made the payment. -/
theorem payable_of_keeps (haction : tx.action = .transfer target amount) {v : Value}
    (h : (tx.ending base).outcome.Keeps v) :
    Cost.transfer ≤ (Juice.full base.limits.juice).remaining ∧
    Payable base.ledger tx.origin target amount := by
  rw [ending_of_transfer haction] at h
  by_cases hjuice : Cost.transfer ≤ (Juice.full base.limits.juice).remaining
  · refine ⟨hjuice, ?_⟩
    rw [Context.charge_of_le (c := tx.opening base) hjuice, Context.andThen_of_normal rfl] at h
    cases htransfer : base.ledger.transfer tx.origin target amount with
    | ok t => exact payable_of_transfer htransfer
    | error e =>
        simp only [Context.transfer, opening, arrival, Context.actAs, Context.fork,
          htransfer] at h
        cases h
  · have hexhausted := Context.exhausted_charge (c := tx.opening base) rfl (Nat.lt_of_not_le hjuice)
    rw [Context.andThen_of_exceptional hexhausted.isExceptional] at h
    obtain ⟨-, message, ho⟩ := hexhausted
    rw [ho] at h
    cases h

/-- A transfer that is committed could be sent. -/
theorem sendable_of_committed (haction : tx.action = .transfer target amount)
    (h : (tx.settle base).disposition = .committed) : tx.Sendable base target amount := by
  revert h
  refine settle_elim base tx ?_ ?_ ?_ ?_
  · intro _ h
    cases h
  · intro _ _ _ h
    cases h
  · intro _ _ _ _ _ h
    cases h
  · intro x _ v hx heq _ ho _
    obtain ⟨hjuice, hpay⟩ := payable_of_keeps haction ho
    exact ⟨⟨x, hx, heq⟩, hjuice, hpay⟩

/-- A transfer that can be sent is committed, as a payment with a new sequence number. -/
theorem settle_of_sendable (haction : tx.action = .transfer target amount)
    (h : tx.Sendable base target amount) :
    (tx.settle base).disposition = .committed ∧
    (tx.settle base).ledger = tx.sent base.ledger target amount := by
  obtain ⟨⟨x, hx, heq⟩, hjuice, hpay⟩ := h
  obtain ⟨hledger, henvironment, houtcome⟩ := ending_of_payable haction hjuice hpay
  have hkeeps : (tx.ending base).outcome.Keeps (.long amount) := houtcome ▸ .value _
  obtain ⟨y, hy, hs⟩ := settle_of_keeps hx heq hkeeps
  rw [hs]
  refine ⟨rfl, ?_⟩
  -- The definitions that are stored are the ones that the account has.
  have hbindings : (tx.ending base).environment.bindings = y.environment := by
    rw [hledger, account?_pay, hx, Option.map_some, Option.some.injEq] at hy
    rw [henvironment, Context.storedEnvironment, hx, ← hy]
    rfl
  simp only [stored, hbindings]
  rw [hledger] at hy ⊢
  exact setAccount_eq_adjust hy (.numbered tx.sequence)

/-! ### One after the other -/

/-- Transfers of different accounts commute once they are sent. -/
theorem sent_comm {tx' : Transaction} (hne : tx.origin ≠ tx'.origin) (s : Ledger Value)
    (target target' : Address) (amount amount' : Int64) :
    tx'.sent (tx.sent s target amount) target' amount' =
      tx.sent (tx'.sent s target' amount') target amount := by
  simp only [sent]
  rw [adjust_pay fun n ↦ Account.credit_comp_numbered n _,
    adjust_pay fun n ↦ Account.credit_comp_numbered n _, pay_comm,
    adjust_comm _ fun h ↦ absurd h hne]

/-- A transfer that is sent changes balances as the payment does. -/
theorem balance?_sent (tx : Transaction) (s : Ledger Value) (target : Address) (amount : Int64)
    (a : Address) :
    (tx.sent s target amount).balance? a = (s.pay tx.origin target amount).balance? a :=
  balance?_adjust (f := .numbered tx.sequence) (fun _ ↦ rfl) _ tx.origin a

/-- A transaction can still be sent after one from another account, if that one can still be sent
after it. -/
theorem Sendable.after {tx' : Transaction} {target' : Address} {amount' : Int64}
    (hne : tx.origin ≠ tx'.origin) (h : tx.Sendable base target amount)
    (h' : tx'.Sendable base target' amount')
    (hafter : tx'.Sendable (base.upon (tx.sent base.ledger target amount)) target' amount') :
    tx.Sendable (base.upon (tx'.sent base.ledger target' amount')) target amount := by
  refine ⟨?_, h.juice, ?_⟩
  · obtain ⟨x, hx, heq⟩ := h.next
    refine ⟨x.credit (share tx'.origin target' amount' tx.origin), ?_, heq⟩
    simp only [Context.upon, sent]
    rw [account?_adjust_of_ne hne, account?_pay, hx, Option.map_some]
  · have hpay : Payable (base.ledger.pay tx.origin target amount) tx'.origin target' amount' :=
      hafter.payable.congr fun a ↦ (tx.balance?_sent base.ledger target amount a).symm
    exact (h.payable.after hne h'.payable hpay).congr
      fun a ↦ tx'.balance?_sent base.ledger target' amount' a

end Transaction

namespace Engine

/-- **Transfers commute.** Let two direct transfers have different origins and any targets.  If one
and then the other is committed, and the other is also committed when it comes first, then both are
committed in the other order too, and that leads to the same engine. -/
theorem execute_comm_of_transfers (e : Engine) (tx tx' : Transaction) (target target' : Address)
    (amount amount' : Int64) (haction : tx.action = .transfer target amount)
    (haction' : tx'.action = .transfer target' amount') (hne : tx.origin ≠ tx'.origin)
    (hfirst : (e.execute tx).2.disposition = .committed)
    (hsecond : ((e.execute tx).1.execute tx').2.disposition = .committed)
    (halone : (e.execute tx').2.disposition = .committed) :
    ((e.execute tx').1.execute tx).2.disposition = .committed ∧
    ((e.execute tx').1.execute tx).1 = ((e.execute tx).1.execute tx').1 := by
  have hsend : tx.Sendable e.base target amount := tx.sendable_of_committed haction hfirst
  have hsend' : tx'.Sendable e.base target' amount' := tx'.sendable_of_committed haction' halone
  obtain ⟨-, hledger⟩ := tx.settle_of_sendable haction hsend
  obtain ⟨-, hledger'⟩ := tx'.settle_of_sendable haction' hsend'
  rw [execute_execute, hledger] at hsecond
  rw [execute_execute, execute_execute, hledger, hledger']
  have hafter := tx'.sendable_of_committed haction' hsecond
  obtain ⟨hdone, hlast⟩ := tx.settle_of_sendable haction (hsend.after hne hsend' hafter)
  obtain ⟨-, hlast'⟩ := tx'.settle_of_sendable haction' hafter
  refine ⟨hdone, congrArg e.moveTo ?_⟩
  rw [hlast, hlast']
  exact (Transaction.sent_comm hne e.base.ledger target target' amount amount').symm

/-- Two accounts pay a third one, whose balance is then the largest there is. -/
theorem execute_comm_of_transfers_to_limit :
    let e := start (.genesis [100, 40, Int64.maxValue - 50]) { }
    let tx : Transaction := ⟨⟨0⟩, 1, 0, .transfer ⟨2⟩ 20⟩
    let tx' : Transaction := ⟨⟨1⟩, 1, 0, .transfer ⟨2⟩ 30⟩
    tx.origin ≠ tx'.origin ∧ (e.execute tx).2.disposition = .committed ∧
    ((e.execute tx).1.execute tx').2.disposition = .committed ∧
    (e.execute tx').2.disposition = .committed ∧
    ((e.execute tx').1.execute tx).2.disposition = .committed ∧
    ((e.execute tx').1.execute tx).1 = ((e.execute tx).1.execute tx').1 ∧
    ((e.execute tx').1.execute tx).1.ledger.balances = [80, 10, Int64.maxValue] := by
  intro e tx tx'
  have hne : tx.origin ≠ tx'.origin := by decide
  have hfirst : (e.execute tx).2.disposition = .committed := by decide
  have hsecond : ((e.execute tx).1.execute tx').2.disposition = .committed := by decide
  have halone : (e.execute tx').2.disposition = .committed := by decide
  obtain ⟨hdone, hengine⟩ := execute_comm_of_transfers e tx tx' ⟨2⟩ ⟨2⟩ 20 30 rfl rfl hne hfirst
    hsecond halone
  exact ⟨hne, hfirst, hsecond, halone, hdone, hengine, by decide⟩

end Engine

end MeteredLedger

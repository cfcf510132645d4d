import Mathlib.Logic.Basic
import MeteredLedger.Engine.Settlement
import MeteredLedger.Proofs.Op.Effects

/-!
# Settlements are atomic

A transaction is refused before it runs, or it runs and its ledger is given up, or it runs and its
ledger is kept.  The four lemmas `settle_of_absent`, `settle_of_ne`, `settle_of_givesUp` and
`settle_of_keeps` compute the settlement in each case; nothing after them opens `settle` again.
The last of them rests on `Ledger.Spends`: no action loses an account, so a ledger that is to be
kept can always be.
-/

namespace MeteredLedger

open Ledger

/-! ## How an action can end -/

/-- An outcome after which the ledger is kept, and the value that is then reported. -/
inductive Outcome.Keeps : Outcome → Value → Prop
  | value (v : Value) : Keeps (.value v) v
  | ret (v : Value) : Keeps (.signal (.control .ret v)) v
  | halt (v : Value) : Keeps (.signal (.control .halt v)) v

/-- An outcome after which the ledger is given up, and the outcome that is then reported. -/
inductive Outcome.GivesUp : Outcome → Outcome → Prop
  | error (code message : Value) :
      GivesUp (.signal (.error code message)) (.signal (.error code message))
  | rollback (v : Value) : GivesUp (.signal (.control .rollback v)) (.value v)

/-- Every outcome is kept or given up. -/
theorem Outcome.keeps_or_givesUp (o : Outcome) : (∃ v, Keeps o v) ∨ ∃ o', GivesUp o o' := by
  rcases o with v | ⟨code, message⟩ | ⟨kind, v⟩
  · exact .inl ⟨v, .value v⟩
  · exact .inr ⟨_, .error code message⟩
  · cases kind with
    | ret => exact .inl ⟨v, .ret v⟩
    | rollback => exact .inr ⟨_, .rollback v⟩
    | halt => exact .inl ⟨v, .halt v⟩

/-- No outcome is both kept and given up. -/
theorem Outcome.GivesUp.not_keeps {o o' : Outcome} (h : GivesUp o o') (v : Value) :
    ¬ Keeps o v := by
  rintro ⟨⟩ <;> cases h

/-- What is reported after giving up is a value or an error. -/
theorem Outcome.GivesUp.reports {o o' : Outcome} (h : GivesUp o o') :
    (∃ v, o' = .value v) ∨ ∃ code message, o' = .signal (.error code message) := by
  cases h with
  | error code message => exact .inr ⟨code, message, rfl⟩
  | rollback v => exact .inl ⟨v, rfl⟩

/-! ## The way through a settlement -/

namespace Transaction

/-- The context in which a transaction comes in. -/
def arrival (base : Context) (tx : Transaction) : Context := base.fork.actAs tx.origin

/-- The context in which the action of a transaction begins. -/
def opening (base : Context) (tx : Transaction) : Context :=
  { tx.arrival base with sequence := tx.sequence, offer := tx.offer }

/-- The context in which the action of a transaction ends. -/
def ending (base : Context) (tx : Transaction) : Context := tx.action.run (tx.opening base)

/-- The ledger of a context with the sequence number of the transaction and the definitions of the
context in the account `x` of the origin. -/
def stored (tx : Transaction) (c : Context) (x : Account Value) : Ledger Value :=
  c.ledger.setAccount tx.origin
    { x with sequence := tx.sequence, environment := c.environment.bindings }

variable {base : Context} {tx : Transaction} {x : Account Value}

/-- The account of a stored transaction has its sequence number and its definitions. -/
theorem account?_stored_origin {c : Context} (hx : c.ledger.account? tx.origin = some x) :
    (tx.stored c x).account? tx.origin =
      some { x with sequence := tx.sequence, environment := c.environment.bindings } :=
  account?_setAccount_self hx _

/-- An action does to the ledger what the origin can do on its own. -/
theorem spends_ending (base : Context) (tx : Transaction) :
    Spends tx.origin base.ledger (tx.ending base).ledger :=
  tx.action.spends_run (tx.opening base)

/-- A transaction of an unknown account is rejected. -/
theorem settle_of_absent (hx : base.ledger.account? tx.origin = none) :
    tx.settle base = ⟨base.ledger,
      (tx.arrival base).fail .nobody ("no account " ++ tx.origin.edn), .rejected⟩ := by
  simp only [settle, hx, arrival]

/-- A transaction that is not the next one of its account is rejected. -/
theorem settle_of_ne (hx : base.ledger.account? tx.origin = some x)
    (hne : tx.sequence ≠ x.sequence + 1) :
    tx.settle base = ⟨base.ledger, (tx.arrival base).fail .sequence
      ("expected " ++ Text.ofInt (x.sequence + 1).toInt ++ ", got " ++
        Text.ofInt tx.sequence.toInt), .rejected⟩ := by
  simp only [settle, hx, if_neg hne, arrival]

/-- The next transaction of its account runs. -/
theorem settle_of_eq (hx : base.ledger.account? tx.origin = some x)
    (heq : tx.sequence = x.sequence + 1) :
    tx.settle base = close base.ledger tx (tx.ending base) := by
  simp only [settle, hx, if_pos heq, ending, opening, arrival]

/-- A transaction that gives up is discarded with all that it has done. -/
theorem settle_of_givesUp (hx : base.ledger.account? tx.origin = some x)
    (heq : tx.sequence = x.sequence + 1) {o : Outcome} (ho : (tx.ending base).outcome.GivesUp o) :
    tx.settle base =
      ⟨base.ledger, { tx.ending base with ledger := base.ledger, outcome := o }, .discarded⟩ := by
  rw [settle_of_eq hx heq]
  generalize tx.ending base = c at ho ⊢
  rcases c with ⟨ledger, environment, juice, limits, depth, outcome⟩
  cases ho <;> rfl

/-- A transaction is committed to the account of its origin. -/
theorem commit_of_some {c : Context} (hx : c.ledger.account? tx.origin = some x)
    (base : Ledger Value) :
    commit base tx c = ⟨tx.stored c x, { c with ledger := tx.stored c x }, .committed⟩ := by
  simp only [commit, modifyAccount_of_some hx, stored]

theorem close_of_keeps {c : Context} {v : Value} (ho : c.outcome.Keeps v) (base : Ledger Value) :
    close base tx c = commit base tx (c.produce v) := by
  rcases c with ⟨ledger, environment, juice, limits, depth, outcome⟩
  cases ho <;> rfl

/-- A transaction that is kept is committed, for it cannot have lost its account. -/
theorem settle_of_keeps (hx : base.ledger.account? tx.origin = some x)
    (heq : tx.sequence = x.sequence + 1) {v : Value} (ho : (tx.ending base).outcome.Keeps v) :
    ∃ y, (tx.ending base).ledger.account? tx.origin = some y ∧
      tx.settle base = ⟨tx.stored (tx.ending base) y,
        { tx.ending base with ledger := tx.stored (tx.ending base) y, outcome := .value v },
        .committed⟩ := by
  obtain ⟨y, hy⟩ := exists_account?_of_length_eq (tx.spends_ending base).length_eq hx
  refine ⟨y, hy, ?_⟩
  rw [settle_of_eq hx heq, close_of_keeps ho]
  exact commit_of_some (c := (tx.ending base).produce v) hy base.ledger

/-- The four ways of a settlement. -/
@[elab_as_elim] theorem settle_elim {motive : Settlement → Prop} (base : Context)
    (tx : Transaction)
    (absent : base.ledger.account? tx.origin = none →
      motive ⟨base.ledger, (tx.arrival base).fail .nobody ("no account " ++ tx.origin.edn),
        .rejected⟩)
    (unordered : ∀ x, base.ledger.account? tx.origin = some x → tx.sequence ≠ x.sequence + 1 →
      motive ⟨base.ledger, (tx.arrival base).fail .sequence
        ("expected " ++ Text.ofInt (x.sequence + 1).toInt ++ ", got " ++
          Text.ofInt tx.sequence.toInt), .rejected⟩)
    (givesUp : ∀ x o, base.ledger.account? tx.origin = some x → tx.sequence = x.sequence + 1 →
      (tx.ending base).outcome.GivesUp o →
      motive ⟨base.ledger, { tx.ending base with ledger := base.ledger, outcome := o },
        .discarded⟩)
    (keeps : ∀ x y v, base.ledger.account? tx.origin = some x → tx.sequence = x.sequence + 1 →
      (tx.ending base).ledger.account? tx.origin = some y → (tx.ending base).outcome.Keeps v →
      motive ⟨tx.stored (tx.ending base) y,
        { tx.ending base with ledger := tx.stored (tx.ending base) y, outcome := .value v },
        .committed⟩) :
    motive (tx.settle base) := by
  cases hx : base.ledger.account? tx.origin with
  | none => exact settle_of_absent hx ▸ absent hx
  | some x =>
      by_cases heq : tx.sequence = x.sequence + 1
      · rcases (tx.ending base).outcome.keeps_or_givesUp with ⟨v, ho⟩ | ⟨o, ho⟩
        · obtain ⟨y, hy, hs⟩ := settle_of_keeps hx heq ho
          exact hs ▸ keeps x y v hx heq hy ho
        · exact settle_of_givesUp hx heq ho ▸ givesUp x o hx heq ho
      · exact settle_of_ne hx heq ▸ unordered x hx heq

/-- The ledger of a settlement is that of the base, or the one in which the action ended with the
sequence number and the definitions of the origin stored. -/
theorem settle_cases (base : Context) (tx : Transaction) :
    ((tx.settle base).disposition ≠ .committed ∧ (tx.settle base).ledger = base.ledger) ∨
    ((tx.settle base).disposition = .committed ∧
      ∃ x y, base.ledger.account? tx.origin = some x ∧ tx.sequence = x.sequence + 1 ∧
        (tx.ending base).ledger.account? tx.origin = some y ∧
        (tx.settle base).ledger = tx.stored (tx.ending base) y) := by
  refine settle_elim base tx ?_ ?_ ?_ ?_
  · exact fun _ ↦ .inl ⟨by simp, rfl⟩
  · exact fun x _ _ ↦ .inl ⟨by simp, rfl⟩
  · exact fun x o _ _ _ ↦ .inl ⟨by simp, rfl⟩
  · exact fun x y v hx heq hy _ ↦ .inr ⟨rfl, x, y, hx, heq, hy, rfl⟩

/-- An account other than the origin can only have been paid. -/
theorem account?_settle_of_ne {a : Address} (ha : a ≠ tx.origin)
    (hx : base.ledger.account? a = some x) :
    ∃ b, x.balance ≤ b ∧ (tx.settle base).ledger.account? a = some { x with balance := b } := by
  rcases tx.settle_cases base with ⟨-, hs⟩ | ⟨-, _, z, -, -, -, hs⟩
  · rw [hs]
    exact ⟨x.balance, Int64.le_refl _, hx⟩
  · rw [hs]
    obtain ⟨b, hb, hy⟩ := (tx.spends_ending base).other ha hx
    exact ⟨b, hb, (account?_setAccount_of_ne ha _ _).trans hy⟩

/-! ## The two cases -/

/-- The transaction comes from an account that is there and carries its next sequence number. -/
def Due (s : Ledger Value) (tx : Transaction) : Prop :=
  ∃ x, s.account? tx.origin = some x ∧ tx.sequence.toInt = x.sequence.toInt + 1

/-- Why a transaction left the ledger as it was, and the context it then ended in.  A transaction
that was refused ends in the context in which it came in: nothing was evaluated. -/
inductive Cause (base : Context) (tx : Transaction) (c : Context) : Prop
  | nobody (hx : base.ledger.account? tx.origin = none)
      (hc : c = (tx.arrival base).fail .nobody ("no account " ++ tx.origin.edn))
      (hjuice : c.juice.used = 0)
  | sequence {x : Account Value} (hx : base.ledger.account? tx.origin = some x)
      (hne : tx.sequence.toInt ≠ x.sequence.toInt + 1)
      (hc : c = (tx.arrival base).fail .sequence ("expected " ++
        Text.ofInt (x.sequence.toInt + 1) ++ ", got " ++ Text.ofInt tx.sequence.toInt))
      (hjuice : c.juice.used = 0)
  | ended (hdue : tx.Due base.ledger) {o : Outcome} (ho : (tx.ending base).outcome.GivesUp o)
      (hc : c = { tx.ending base with ledger := base.ledger, outcome := o })

/-- Nothing of a transaction was kept. -/
structure Discarded (base : Context) (tx : Transaction) (s : Settlement) : Prop where
  ledger_eq : s.ledger = base.ledger
  cause : tx.Cause base s.context

/-- What a transaction did was kept.  The ledger is the one in which the action ended, but for the
sequence number and the definitions of the origin. -/
structure Committed (base : Context) (tx : Transaction) (s : Settlement) : Prop where
  due : tx.Due base.ledger
  ledger_eq : ∃ x, (tx.ending base).ledger.account? tx.origin = some x ∧
    s.ledger = (tx.ending base).ledger.setAccount tx.origin
      { x with sequence := tx.sequence, environment := (tx.ending base).environment.bindings }
  context_eq : ∃ v, (tx.ending base).outcome.Keeps v ∧
    s.context = { tx.ending base with ledger := s.ledger, outcome := .value v }

/-- A stored sequence number below the largest word has a next one. -/
theorem toInt_add_one {n : Int64} (h : n < Int64.maxValue) : (n + 1).toInt = n.toInt + 1 := by
  have hlt : n.toInt < 2 ^ 63 - 1 := Int64.lt_iff_toInt_lt.mp h
  have hle := n.le_toInt
  rw [Int64.toInt_add, Int64.toInt_one]
  exact Int.bmod_eq_of_le (by omega) (by omega)

/-- Below the largest word, the next sequence number is the next number. -/
theorem sequence_eq_iff (h : x.sequence < Int64.maxValue) :
    tx.sequence = x.sequence + 1 ↔ tx.sequence.toInt = x.sequence.toInt + 1 := by
  rw [← toInt_add_one h, Int64.toInt_inj]

/-- What was committed is a new ledger: the sequence number of the origin has grown. -/
theorem Committed.ledger_ne {s : Settlement} (h : tx.Committed base s) :
    s.ledger ≠ base.ledger := by
  obtain ⟨⟨x, hx, hseq⟩, ⟨y, hy, hs⟩, -⟩ := h
  intro he
  have hz : s.ledger.account? tx.origin = some _ := hs ▸ account?_setAccount_self hy _
  rw [he, hx, Option.some.injEq] at hz
  have hsame : x.sequence = tx.sequence := by rw [hz]
  rw [hsame] at hseq
  omega

/-- A transaction is discarded, or it is committed. -/
theorem settle_discarded_or_committed
    (hroom : ∀ x, base.ledger.account? tx.origin = some x → x.sequence < Int64.maxValue) :
    tx.Discarded base (tx.settle base) ∧ (tx.settle base).disposition ≠ .committed ∨
    tx.Committed base (tx.settle base) ∧ (tx.settle base).disposition = .committed := by
  refine settle_elim base tx ?_ ?_ ?_ ?_
  · intro hx
    exact .inl ⟨⟨rfl, .nobody hx rfl (Nat.sub_self _)⟩, by simp⟩
  · intro x hx hne
    rw [ne_eq, sequence_eq_iff (hroom x hx)] at hne
    rw [toInt_add_one (hroom x hx)]
    exact .inl ⟨⟨rfl, .sequence hx hne rfl (Nat.sub_self _)⟩, by simp⟩
  · intro x o hx heq ho
    rw [sequence_eq_iff (hroom x hx)] at heq
    exact .inl ⟨⟨rfl, .ended ⟨x, hx, heq⟩ ho rfl⟩, by simp⟩
  · intro x y v hx heq hy ho
    rw [sequence_eq_iff (hroom x hx)] at heq
    exact .inr ⟨⟨⟨x, hx, heq⟩, ⟨y, hy, rfl⟩, v, ho, rfl⟩, rfl⟩

theorem Discarded.not_committed {s : Settlement} (h : tx.Discarded base s) :
    ¬ tx.Committed base s :=
  fun hc ↦ hc.ledger_ne h.ledger_eq

/-- The context of a discarded transaction shows the ledger as it was. -/
theorem Discarded.context_ledger {s : Settlement} (h : tx.Discarded base s) :
    s.context.ledger = s.ledger := by
  rw [h.ledger_eq]
  cases h.cause with
  | nobody hx hc hjuice => rw [hc]; rfl
  | sequence hx hne hc hjuice => rw [hc]; rfl
  | ended hdue ho hc => rw [hc]

/-- A discarded transaction reports a value or an error, and no control signal. -/
theorem Cause.reports {c : Context} (h : tx.Cause base c) :
    (∃ v, c.outcome = .value v) ∨ ∃ code message, c.outcome = .signal (.error code message) := by
  cases h with
  | nobody hx hc hjuice => exact .inr ⟨_, _, by rw [hc]; rfl⟩
  | sequence hx hne hc hjuice => exact .inr ⟨_, _, by rw [hc]; rfl⟩
  | ended hdue ho hc => rw [hc]; exact ho.reports

/-- A transaction that was refused, or whose action gave up, was not committed. -/
theorem Committed.not_cause {s : Settlement} (h : tx.Committed base s) :
    ¬ (base.ledger.account? tx.origin = none ∨
      (∃ x, base.ledger.account? tx.origin = some x ∧
        tx.sequence.toInt ≠ x.sequence.toInt + 1) ∨
      tx.Due base.ledger ∧ ∃ o, (tx.ending base).outcome.GivesUp o) := by
  obtain ⟨⟨x, hx, hseq⟩, -, v, ho, -⟩ := h
  rintro (habsent | ⟨y, hy, hne⟩ | ⟨-, o, ho'⟩)
  · rw [hx] at habsent
    cases habsent
  · obtain rfl : x = y := Option.some.inj (hx.symm.trans hy)
    exact hne hseq
  · exact ho'.not_keeps v ho

/-- **Atomicity.** A settlement ends in a context that holds the settled ledger, with a value or an
error as its outcome.  Either nothing was kept, and the ledger is the one of the base; or the
ledger in which the action ended was kept whole.  The ledger stays exactly if the origin is not
there, the sequence number is not the next one, or the action ended in an error or a rollback.
Storing the sequence number and the definitions of a transaction that is due never fails. -/
theorem settle_atomic (base : Context) (tx : Transaction)
    (hroom : ∀ x, base.ledger.account? tx.origin = some x → x.sequence < Int64.maxValue) :
    (tx.settle base).context.ledger = (tx.settle base).ledger ∧
    ((∃ v, (tx.settle base).context.outcome = .value v) ∨
      ∃ code message, (tx.settle base).context.outcome = .signal (.error code message)) ∧
    Xor (tx.Discarded base (tx.settle base)) (tx.Committed base (tx.settle base)) ∧
    ((tx.settle base).ledger = base.ledger ↔
      base.ledger.account? tx.origin = none ∨
      (∃ x, base.ledger.account? tx.origin = some x ∧
        tx.sequence.toInt ≠ x.sequence.toInt + 1) ∨
      tx.Due base.ledger ∧ ∃ o, (tx.ending base).outcome.GivesUp o) ∧
    ((tx.settle base).disposition = .committed ↔ tx.Committed base (tx.settle base)) ∧
    (tx.Due base.ledger → ∀ f, ∃ next,
      (tx.ending base).ledger.modifyAccount tx.origin f = .ok next) := by
  have hstore : tx.Due base.ledger → ∀ f, ∃ next,
      (tx.ending base).ledger.modifyAccount tx.origin f = .ok next := by
    rintro ⟨x, hx, -⟩ f
    obtain ⟨y, hy⟩ := exists_account?_of_length_eq (tx.spends_ending base).length_eq hx
    exact ⟨_, modifyAccount_of_some hy f⟩
  rcases settle_discarded_or_committed hroom with ⟨hd, hdisp⟩ | ⟨hc, hdisp⟩
  · refine ⟨hd.context_ledger, hd.cause.reports, .inl ⟨hd, hd.not_committed⟩, ?_, ?_, hstore⟩
    · refine iff_of_true hd.ledger_eq ?_
      cases hd.cause with
      | nobody hx => exact .inl hx
      | sequence hx hne => exact .inr (.inl ⟨_, hx, hne⟩)
      | ended hdue ho => exact .inr (.inr ⟨hdue, _, ho⟩)
    · exact iff_of_false hdisp hd.not_committed
  · obtain ⟨v, -, hv⟩ := hc.context_eq
    refine ⟨by rw [hv], .inl ⟨v, by rw [hv]⟩, .inr ⟨hc, fun hd ↦ hd.not_committed hc⟩, ?_,
      iff_of_true hdisp hc, hstore⟩
    exact iff_of_false hc.ledger_ne hc.not_cause

/-- A payment of thirty that is committed, and a payment without funds that is discarded. -/
theorem settle_atomic_payments :
    let base := Context.start (.genesis [100, 0]) ⟨0⟩ { }
    let pay : Transaction := ⟨⟨0⟩, 1, 0, .transfer ⟨1⟩ 30⟩
    let overdraw : Transaction := ⟨⟨1⟩, 1, 0, .transfer ⟨0⟩ 30⟩
    (∀ x, base.ledger.account? pay.origin = some x → x.sequence < Int64.maxValue) ∧
    pay.Committed base (pay.settle base) ∧ overdraw.Discarded base (overdraw.settle base) := by
  intro base pay overdraw
  have hroom : ∀ a x, base.ledger.account? a = some x → x.sequence < Int64.maxValue := by
    intro a x hx
    have hmem : x ∈ [Account.ofBalance 100, Account.ofBalance 0] := List.mem_of_getElem? hx
    simp only [List.mem_cons, List.not_mem_nil, or_false] at hmem
    rcases hmem with rfl | rfl <;> decide
  obtain ⟨-, -, -, -, hpay, -⟩ := settle_atomic base pay (hroom pay.origin)
  obtain ⟨-, -, hxor, -, hover, -⟩ := settle_atomic base overdraw (hroom overdraw.origin)
  have hnot : ¬ overdraw.Committed base (overdraw.settle base) :=
    fun hc ↦ absurd (hover.mpr hc) (by decide)
  exact ⟨hroom pay.origin, hpay.mp (by decide), hxor.or.resolve_right hnot⟩

end Transaction

end MeteredLedger

import MeteredLedger.Proofs.Ledger.Adjust
import MeteredLedger.Proofs.Op.Effects
import MeteredLedger.Proofs.Op.Simulation

/-!
# Operations that keep to their own account

An operation that pays nobody, asks for no balance and does not look at the whole ledger reads the
time and the account that executes it, and it writes that account alone.  Both facts are in one
relation: `Beside a s t` holds of two runs of the account `a`, one over `s` and one over `t`, as
long as they have done the same to their own account and nothing to any other.  Over ledgers that
agree in the time and the account, every step keeps it.
-/

namespace MeteredLedger

open Ledger

/-- The operation pays nobody, asks for no balance and does not look at the whole ledger.  It may
look up what its own account has and holds. -/
structure Op.IsSecluded (op : Op) : Prop where
  transfer : op.Avoids .transfer
  balance : op.Avoids .balance
  state : op.Ignores .state

instance (op : Op) : Decidable op.IsSecluded :=
  decidable_of_iff (op.Avoids .transfer ∧ op.Avoids .balance ∧ op.Ignores .state)
    ⟨fun h ↦ ⟨h.1, h.2.1, h.2.2⟩, fun h ↦ ⟨h.transfer, h.balance, h.state⟩⟩

/-! ## Ledgers that look the same to an account -/

/-- The ledgers agree in the time and in the account `a`. -/
structure Ledger.Agree (a : Address) (s t : Ledger Value) : Prop where
  timestamp_eq : t.timestamp = s.timestamp
  account_eq : t.account? a = s.account? a

/-- The same change to the account keeps ledgers in agreement. -/
theorem Ledger.Agree.adjust {a : Address} {s t : Ledger Value} (h : Agree a s t)
    (f : Account Value → Account Value) : Agree a (s.adjust a f) (t.adjust a f) where
  timestamp_eq := h.timestamp_eq
  account_eq := by rw [account?_adjust_self, account?_adjust_self, h.account_eq]

/-- What is done to another account does not show. -/
theorem Ledger.agree_adjust_of_ne {a b : Address} (h : a ≠ b) (s : Ledger Value)
    (f : Account Value → Account Value) : Agree a s (s.adjust b f) where
  timestamp_eq := rfl
  account_eq := account?_adjust_of_ne h s f

/-- The context upon another ledger. -/
def Context.upon (c : Context) (s : Ledger Value) : Context := { c with ledger := s }

/-- Two runs of the account `a`, over `s` and over `t`, that have changed their own account in the
same way and no other, and do not differ in anything else. -/
def Beside (a : Address) (s t : Ledger Value) (c d : Context) : Prop :=
  c.address = a ∧ ∃ f, c.ledger = s.adjust a f ∧ d = c.upon (t.adjust a f)

/-! ## What the steps read and write -/

namespace Effect

/-- An effect that is not a payment. -/
def IsSecluded (e : Effect) : Prop :=
  match e with
  | transfer _ _ => False
  | _ => True

end Effect

namespace Context

variable (c : Context) (t : Ledger Value)

/-- A charge does not look at the ledger. -/
theorem charge_upon (n : Nat) : (c.upon t).charge n = (c.charge n).upon t := by
  have hjuice : (c.upon t).juice = c.juice := rfl
  have hexceptional : (c.upon t).isExceptional = c.isExceptional := rfl
  simp only [charge, hjuice, hexceptional, apply_ite (upon · t)]
  rfl

/-- To undefine a symbol does not look at the ledger. -/
theorem undefine_upon (s : Symbol) : (c.upon t).undefine s = (c.undefine s).upon t := by
  have henvironment : (c.upon t).environment = c.environment := rfl
  simp only [undefine, henvironment, apply_ite (upon · t)]
  rfl

/-- The way down does not look at the ledger. -/
theorem descend_upon : (c.upon t).descend = c.descend.upon t := by
  have hlimits : (c.upon t).limits = c.limits := rfl
  have hdepth : (c.upon t).depth = c.depth := rfl
  simp only [descend, hlimits, hdepth, apply_ite (upon · t)]
  rfl

variable {c t}

/-- A lookup shows no more of the ledger than agreeing ledgers have in common, unless it is one of
the whole ledger. -/
theorem outcome_lookup_upon (ht : Agree c.address c.ledger t) {s : Symbol}
    (hs : Special.ofSymbol? s ≠ some .state) :
    ((c.upon t).lookup s).outcome = (c.lookup s).outcome := by
  unfold lookup
  cases hspecial : Special.ofSymbol? s with
  | some special =>
      refine congrArg Outcome.value ?_
      cases special with
      | state => exact absurd hspecial hs
      | timestamp => exact congrArg Value.long ht.timestamp_eq
      | balance => simp only [Special.valueIn, upon, balance?, ht.account_eq]
      | holdings => simp only [Special.valueIn, upon, ht.account_eq]
      | _ => rfl
  | none =>
      have henvironment : (c.upon t).environment = c.environment := rfl
      rw [henvironment]
      cases c.environment.lookup? s <;> rfl

end Context

namespace Builtin

variable {f : Builtin}

/-- Of all functions only `transfer` pays somebody. -/
theorem isSecluded_effect (hf : f ≠ .transfer) (args : List Value) (c : Context) :
    (f.effect args c).IsSecluded := by
  cases f with
  | transfer => exact absurd rfl hf
  | setHolding => simp only [effect]; cases holdingArgs args <;> trivial
  | _ => trivial

/-- Of all functions only `balance` looks at the ledger to find its effect. -/
theorem effect_upon (hf : f ≠ .balance) (args : List Value) (c : Context) (t : Ledger Value) :
    f.effect args (c.upon t) = f.effect args c := by
  cases f with
  | balance => exact absurd rfl hf
  | _ => rfl

end Builtin

/-! ## Runs side by side -/

namespace Beside

variable {a : Address} {s t : Ledger Value} {c d : Context}

/-- The account sees the same in both runs. -/
theorem agree (hst : Agree a s t) (h : Beside a s t c d) : Agree c.address c.ledger d.ledger := by
  obtain ⟨rfl, f, hc, rfl⟩ := h
  rw [hc]
  exact hst.adjust f

/-- A holding is set in both runs or in neither, since both have the account or neither has it. -/
theorem setHolding (hst : Agree a s t) (h : Beside a s t c d) (owner : Address) (v : Value) :
    Beside a s t (c.setHolding owner v) (d.setHolding owner v) := by
  have hagree := h.agree hst
  obtain ⟨rfl, f, hc, rfl⟩ := h
  have haddress : (c.upon (t.adjust c.address f)).address = c.address := rfl
  simp only [Context.setHolding, Ledger.setHolding, modifyAccount_eq_ite, haddress,
    hagree.account_eq]
  cases (c.ledger.account? c.address).isSome with
  | false => exact ⟨rfl, f, hc, rfl⟩
  | true =>
      -- The two changes to the account make up one.
      refine ⟨rfl, (·.setHolding owner v) ∘ f, ?_, ?_⟩
      · rw [← adjust_adjust, ← hc]
        rfl
      · rw [← adjust_adjust]
        rfl

/-- Every effect but a payment is the same in both runs. -/
theorem run (hst : Agree a s t) {e : Effect} (he : e.IsSecluded) (h : Beside a s t c d) :
    Beside a s t (e.run c) (e.run d) := by
  cases e with
  | transfer target amount => exact he.elim
  | setHolding owner v => exact h.setHolding hst owner v
  | charge n =>
      obtain ⟨rfl, f, hc, rfl⟩ := h
      exact ⟨(Effect.spares_run (.charge n) c).address_eq, f,
        (Effect.ledger_run id c).trans hc, c.charge_upon _ n⟩
  | undefine u =>
      obtain ⟨rfl, f, hc, rfl⟩ := h
      exact ⟨(Effect.spares_run (.undefine u) c).address_eq, f,
        (Effect.ledger_run id c).trans hc, c.undefine_upon _ u⟩
  | _ =>
      obtain ⟨rfl, f, hc, rfl⟩ := h
      exact ⟨rfl, f, hc, rfl⟩

/-- Both runs go one level deeper, or neither does. -/
theorem descend (h : Beside a s t c d) : Beside a s t c.descend d.descend := by
  obtain ⟨rfl, f, hc, rfl⟩ := h
  refine ⟨?_, f, ?_, c.descend_upon _⟩
  · unfold Context.descend
    split <;> rfl
  · unfold Context.descend
    split <;> exact hc

/-- Functions other than `transfer` and `balance` do the same in both runs. -/
theorem apply (hst : Agree a s t) {f : Builtin} (htransfer : f ≠ .transfer)
    (hbalance : f ≠ .balance) (args : List Value) (h : Beside a s t c d) :
    Beside a s t (f.apply args c) (f.apply args d) := by
  have heffect : f.effect args d = f.effect args c := by
    obtain ⟨-, g, -, rfl⟩ := h
    exact f.effect_upon hbalance args c _
  rw [← f.run_effect args c, ← f.run_effect args d, heffect]
  exact h.run hst (f.isSecluded_effect htransfer args c)

/-- The nodes of a secluded operation do the same in both runs. -/
theorem respects (hst : Agree a s t) {op : Op} (hop : op.IsSecluded) :
    ∀ n ∈ op.nodes, n.Respects (Beside a s t) := by
  intro n hn
  cases n with
  | lookup u =>
      intro c d h
      have hagree := h.agree hst
      obtain ⟨rfl, f, -, rfl⟩ := h
      exact (Context.outcome_lookup_upon hagree (hop.state.ofSymbol?_ne hn)).symm
  | invoke f ops =>
      have htransfer : f ≠ .transfer := by
        rintro rfl
        exact hop.transfer ops hn
      have hbalance : f ≠ .balance := by
        rintro rfl
        exact hop.balance ops hn
      exact fun args c d h ↦ h.apply hst htransfer hbalance args
  | _ => trivial

/-- Neither run is ever lost, since both have the same juice and depth. -/
theorem simulation (hst : Agree a s t) : Simulation (Beside a s t) fun _ _ ↦ False where
  outcome_eq := by rintro c d ⟨-, f, -, rfl⟩; rfl
  depth_eq := by rintro c d ⟨-, f, -, rfl⟩; rfl
  conclude o h := h.run hst (e := .conclude o) trivial
  level n h := h.run hst (e := .level n) trivial
  define u v h := h.run hst (e := .define u v) trivial
  undefine u h := h.run hst (e := .undefine u) trivial
  charge n _ h := .inl (h.run hst (e := .charge n) trivial)
  descend h := .inl h.descend
  exceptional := False.elim
  lost_level _ h := h
  lost_run _ h := h

/-- A secluded operation does the same over ledgers that agree. -/
theorem eval (hst : Agree a s t) {op : Op} (hop : op.IsSecluded) (h : Beside a s t c d) :
    Beside a s t (op.eval c) (op.eval d) :=
  ((simulation hst).eval op (respects hst hop) c d h).resolve_right id

end Beside

end MeteredLedger

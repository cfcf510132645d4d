import MeteredLedger.Proofs.Engine.Requests
import MeteredLedger.Proofs.Engine.Settlement
import MeteredLedger.Proofs.Ledger.Holdings

/-!
# Holdings stay sound

Whatever makes a ledger from another one builds the accounts of the new ledger from those of the
old: the operations of ledgers do, an evaluation does effect by effect, and a commit does when it
stores the sequence number and the definitions of an account.  So every account that is ever reached
has been built, and the holdings of such an account are sound.
-/

namespace MeteredLedger

open Ledger

/-! ## Evaluations and runs -/

/-- Effects keep accounts built. -/
theorem Effect.allBuilt_run (e : Effect) (c : Context) (h : c.ledger.AllBuilt) :
    (e.run c).ledger.AllBuilt := by
  rcases (e.spares_run c).ledger with he | ⟨target, amount, -, he⟩ | ⟨owner, v, -, he⟩
  · exact he ▸ h
  · exact h.transfer he
  · exact h.setHolding he

theorem allBuilt_of_mem_course {log : List Effect} {c d : Context} (hd : d ∈ course log c)
    (h : c.ledger.AllBuilt) : d.ledger.AllBuilt :=
  rel_of_mem_course (R := fun c d ↦ c.ledger.AllBuilt → d.ledger.AllBuilt) (fun _ h ↦ h)
    (fun h h' hc ↦ h' (h hc)) Effect.allBuilt_run hd h

theorem Op.allBuilt_eval (op : Op) {c : Context} (h : c.ledger.AllBuilt) :
    (op.eval c).ledger.AllBuilt :=
  allBuilt_of_mem_course (op.eval_mem_course c) h

theorem Builtin.allBuilt_apply (f : Builtin) (args : List Value) {c : Context}
    (h : c.ledger.AllBuilt) : (f.apply args c).ledger.AllBuilt :=
  f.run_effect args c ▸ (f.effect args c).allBuilt_run c h

theorem Transaction.allBuilt_settle (base : Context) (tx : Transaction) (h : base.ledger.AllBuilt) :
    (tx.settle base).ledger.AllBuilt := by
  rcases tx.settle_cases base with ⟨-, hs⟩ | ⟨-, x, y, -, -, hy, hs⟩
  · rw [hs]
    exact h
  · rw [hs]
    have hending : (tx.ending base).ledger.AllBuilt :=
      allBuilt_of_mem_course (tx.action.run_mem_course (tx.opening base)) h
    exact hending.setAccount tx.origin
      (((hending.account hy).setSequence tx.sequence).setEnvironment _)

/-- Across every request, accounts stay built. -/
theorem lasting_allBuilt : Lasting fun s t ↦ s.AllBuilt → t.AllBuilt where
  refl _ h := h
  trans h h' hs := h' (h hs)
  settle base tx := tx.allBuilt_settle base
  timestamp _ _ h := h

/-- The ledgers that can be reached, from accounts that have been built, by the operations of
ledgers, by applying functions and evaluating operations, and by runs of an engine. -/
inductive Ledger.Reached : Ledger Value → Prop
  | new (timestamp : Int64) (accounts : List (Account Value)) :
      (∀ x ∈ accounts, x.Built) → Reached ⟨timestamp, accounts⟩
  | replaceAccount {s t : Ledger Value} {a : Address} {x : Account Value} :
      Reached s → x.Built → s.replaceAccount a x = .ok t → Reached t
  | setBalance {s t : Ledger Value} {a : Address} {balance : Int64} :
      Reached s → s.setBalance a balance = .ok t → Reached t
  | setHolding {s t : Ledger Value} {a owner : Address} {v : Value} :
      Reached s → s.setHolding a owner v = .ok t → Reached t
  | transfer {s t : Ledger Value} {source target : Address} {amount : Int64} :
      Reached s → s.transfer source target amount = .ok t → Reached t
  | setTimestamp {s : Ledger Value} (timestamp : Int64) : Reached s → Reached { s with timestamp }
  | apply {c : Context} (f : Builtin) (args : List Value) :
      Reached c.ledger → Reached (f.apply args c).ledger
  | eval {c : Context} (op : Op) : Reached c.ledger → Reached (op.eval c).ledger
  | serve {e : Engine} (rs : List Request) : Reached e.ledger → Reached (e.serveAll rs).1.ledger

/-- In a ledger that is ever reached, every account has been built. -/
theorem Ledger.Reached.allBuilt {s : Ledger Value} (h : s.Reached) : s.AllBuilt := by
  induction h with
  | new timestamp accounts h => exact h
  | replaceAccount _ hx ht ih => exact ih.modifyAccount (fun _ _ ↦ hx) ht
  | setBalance _ ht ih => exact ih.modifyAccount (fun _ hx ↦ hx.setBalance _) ht
  | setHolding _ ht ih => exact ih.setHolding ht
  | transfer _ ht ih => exact ih.transfer ht
  | setTimestamp timestamp _ ih => exact ih
  | apply f args _ ih => exact f.allBuilt_apply args ih
  | eval op _ ih => exact op.allBuilt_eval ih
  | serve rs _ ih => exact lasting_allBuilt.serveAll _ rs ih

/-! ## Setting a holding in a context -/

namespace Context

/-- The executing account sets a holding of its own, and comes to its value. -/
theorem holdingSet_setHolding {c : Context} {x : Account Value}
    (hx : c.ledger.account? c.address = some x) (hm : x.holdings.Ascending) (owner : Address)
    (v : Value) :
    (c.setHolding owner v).outcome = .value v ∧
      HoldingSet c.address owner v c.ledger (c.setHolding owner v).ledger := by
  obtain ⟨t, ht, hset⟩ := exists_setHolding hx hm owner v
  simp only [setHolding, ht]
  exact ⟨trivial, hset⟩

/-- A holding is set only by an account that is there. -/
theorem exists_account_of_setHolding {c : Context} {owner : Address} {v w : Value}
    (h : (c.setHolding owner v).outcome = .value w) :
    ∃ x, c.ledger.account? c.address = some x := by
  unfold setHolding at h
  split at h
  · cases h
  · next t ht =>
      obtain ⟨x, hx, -⟩ := setHolding_eq_ok ht
      exact ⟨x, hx⟩

end Context

/-- The function succeeds on an address and a value only. -/
theorem Builtin.exists_args_of_setHolding {c : Context} {args : List Value} {w : Value}
    (h : (setHolding.apply args c).outcome = .value w) :
    ∃ owner v, args = [.address owner, v] := by
  simp only [apply] at h
  split at h
  · next owner v hargs =>
      unfold holdingArgs at hargs
      split at hargs
      · next a v' =>
          cases a with
          | address a => exact ⟨a, v', rfl⟩
          | _ => cases hargs
      · cases hargs
  · cases h

/-- **Holdings are sound.** The key of an address is eight bytes that write its number.  Every
account that can be built, and so every account of every ledger that can be reached, keeps its
holdings under such keys, each the key of one address, and holds no nil.  Setting what an account
holds for an owner succeeds if the account is there; afterwards it holds just that, or nothing if it
is nil, and what it holds for others and every other account stay.  The same is true of a context
that sets a holding of its own account, and of the built-in function whenever it succeeds.  Holdings
in order are all that this needs of an account, and those of every account that can be built are. -/
theorem holdings_sound :
    (∀ a : Address, a.toBlob.size = 8 ∧ Bytes.number a.toBlob.bytes = a.toNat) ∧
    (∀ x : Account Value, x.Built → SoundHoldings x.holdings) ∧
    (∀ s : Ledger Value, s.Reached → ∀ x ∈ s.accounts, SoundHoldings x.holdings) ∧
    (∀ (s : Ledger Value) (a : Address) (x : Account Value), s.account? a = some x →
      x.holdings.Ascending → ∀ owner v,
        ∃ t, s.setHolding a owner v = .ok t ∧ HoldingSet a owner v s t) ∧
    (∀ (c : Context) (x : Account Value), c.ledger.account? c.address = some x →
      x.holdings.Ascending → ∀ owner v,
        (c.setHolding owner v).outcome = .value v ∧
        HoldingSet c.address owner v c.ledger (c.setHolding owner v).ledger) ∧
    (∀ (c : Context), (∀ x ∈ c.ledger.accounts, x.holdings.Ascending) → ∀ args w,
      (Builtin.setHolding.apply args c).outcome = .value w → ∃ owner, args = [.address owner, w] ∧
        HoldingSet c.address owner w c.ledger (Builtin.setHolding.apply args c).ledger) := by
  refine ⟨fun a ↦ ⟨a.size_toBlob, a.number_toBlob⟩, fun x hx ↦ hx.soundHoldings,
    fun s hs x hx ↦ (hs.allBuilt x hx).soundHoldings,
    fun s a x hx hm owner v ↦ exists_setHolding hx hm owner v,
    fun c x hx hm owner v ↦ Context.holdingSet_setHolding hx hm owner v, ?_⟩
  intro c hm args w hw
  obtain ⟨owner, v, rfl⟩ := Builtin.exists_args_of_setHolding hw
  have hown : (c.setHolding owner v).outcome = .value w := hw
  obtain ⟨x, hx⟩ := Context.exists_account_of_setHolding hown
  have hset := Context.holdingSet_setHolding hx (hm x (List.mem_of_getElem? hx)) owner v
  obtain rfl : v = w := Outcome.value.inj (hset.1.symm.trans hown)
  exact ⟨owner, rfl, hset.2⟩

/-- A transaction that sets holdings for two owners, whose keys begin and end alike, and takes one
of them away again; and a holding that is set in the ledger it leaves. -/
theorem holdings_sound_two_owners :
    let hold (owner : UInt64) (v : Value) : Op :=
      .invoke .setHolding [.constant (.address ⟨owner⟩), .constant v]
    let tx : Transaction := ⟨⟨0⟩, 1, 0,
      .invoke (.sequence [hold 1 (.long 5), hold 257 (.long 7), hold 1 .nil])⟩
    let s := ((Engine.start (.genesis [100, 0]) { }).serveAll [.execute tx]).1.ledger
    s.Reached ∧ (∀ x ∈ s.accounts, SoundHoldings x.holdings) ∧
      s.holding? ⟨0⟩ ⟨1⟩ = none ∧ s.holding? ⟨0⟩ ⟨257⟩ = some (.long 7) ∧
      ∃ t, s.setHolding ⟨0⟩ ⟨1⟩ (.bool false) = .ok t ∧
        t.holding? ⟨0⟩ ⟨1⟩ = some (.bool false) ∧ t.holding? ⟨0⟩ ⟨257⟩ = some (.long 7) := by
  intro hold tx s
  have hreached : s.Reached := by
    refine .serve [.execute tx] (.new 0 _ fun x hx ↦ ?_)
    obtain ⟨balance, -, rfl⟩ := List.mem_map.mp hx
    exact .ofBalance balance
  obtain ⟨-, -, hsound, hset, -⟩ := holdings_sound
  have hother : s.holding? ⟨0⟩ ⟨257⟩ = some (.long 7) := by decide
  obtain ⟨x, hx⟩ : ∃ x, s.account? ⟨0⟩ = some x := Option.isSome_iff_exists.mp (by decide)
  have hm : x.holdings.Ascending := (hsound s hreached x (List.mem_of_getElem? hx)).ascending
  obtain ⟨t, ht, hholding⟩ := hset s ⟨0⟩ x hx hm ⟨1⟩ (.bool false)
  refine ⟨hreached, hsound s hreached, by decide, hother, t, ht, hholding.holding, ?_⟩
  exact (hholding.other_owner ⟨257⟩ (by decide)).trans hother

end MeteredLedger

import MeteredLedger.Proofs.Engine.Blocks
import MeteredLedger.Proofs.Engine.Requests
import MeteredLedger.Proofs.Op.Bindings
import MeteredLedger.Proofs.Op.Frame

/-!
# Definitions change only where they are made

An action does not write what accounts store; a commit does, for the account of the transaction, and
what it stores is made of what was stored there before.  `Rebound` says this of two ledgers and of
the transactions that were kept on the way, and passes from one transaction to a whole run.  Hence a
binding that differs after a run is one that a transaction of the same account has defined or
undefined, and keys that are no symbols never come up.
-/

namespace MeteredLedger

open Ledger

/-! ## Stored definitions -/

namespace Ledger

/-- What the accounts have defined, in the order of the accounts. -/
def environments (s : Ledger Value) : List Map := s.accounts.map (·.environment)

/-- All that the accounts have defined is defined under symbols. -/
def KeyedBySymbols (s : Ledger Value) : Prop :=
  ∀ x ∈ s.accounts, ∀ k ∈ x.environment.keys, k.kind = .symbol

variable {s : Ledger Value}

theorem environments_eq_map_records (s : Ledger Value) :
    s.environments = s.records.map Prod.snd := by
  rw [records, List.map_map]
  rfl

/-- The stored definitions of an account stand at its address. -/
theorem getElem?_environments (s : Ledger Value) (a : Address) :
    s.environments[a.toNat]? = (s.account? a).map (·.environment) :=
  List.getElem?_map

theorem keyedBySymbols_iff : s.KeyedBySymbols ↔
    ∀ m ∈ s.environments, ∀ k ∈ m.keys, k.kind = .symbol := by
  rw [environments, List.forall_mem_map]
  rfl

end Ledger

/-! ## Actions -/

namespace Action

/-- The action evaluates a definition of the symbol. -/
def Defines (a : Action) (s : Symbol) : Prop :=
  match a with
  | invoke op => op.Defines s
  | transfer .. => False

/-- The action evaluates an operation that takes the definition of the symbol away. -/
def Undefines (a : Action) (s : Symbol) : Prop :=
  match a with
  | invoke op => op.Undefines s
  | transfer .. => False

/-- An action makes its bindings of those that it began with, and a direct transfer makes none. -/
theorem rebinds_run (a : Action) (c : Context) :
    Rebinds a.Defines a.Undefines c.environment.bindings (a.run c).environment.bindings := by
  cases a with
  | invoke op => exact op.rebinds_eval c
  | transfer target amount =>
      have hrun : ((transfer target amount).run c).environment = c.environment := by
        have hcharge : (c.charge Cost.transfer).environment = c.environment :=
          (Effect.spares_run (.charge Cost.transfer) c).environment_eq id
        refine Context.andThen_elim (P := (·.environment = c.environment)) (fun _ ↦ hcharge)
          fun _ ↦ ?_
        rw [← hcharge]
        exact (Effect.spares_run (.transfer target amount) _).environment_eq id
      rw [hrun]
      exact .refl _ _ _

end Action

/-! ## Ledgers and the transactions between them -/

/-- The ledgers have the same accounts, and what an account has stored is made of what it had stored
before, by definitions in those of the transactions that come from it. -/
structure Rebound (txs : List Transaction) (s t : Ledger Value) : Prop where
  length_eq : t.environments.length = s.environments.length
  rebinds : ∀ i m n, s.environments[i]? = some m → t.environments[i]? = some n →
    Rebinds (fun x ↦ ∃ tx ∈ txs, tx.origin.toNat = i ∧ tx.action.Defines x)
      (fun x ↦ ∃ tx ∈ txs, tx.origin.toNat = i ∧ tx.action.Undefines x) m n

namespace Rebound

variable {txs us : List Transaction} {s t u : Ledger Value}

theorem of_eq (h : t.environments = s.environments) (txs : List Transaction) :
    Rebound txs s t where
  length_eq := congrArg List.length h
  rebinds i m n hm hn := by
    rw [h, hm] at hn
    cases hn
    exact .refl _ _ m

theorem trans (h : Rebound txs s t) (h' : Rebound us t u) : Rebound (txs ++ us) s u where
  length_eq := h'.length_eq.trans h.length_eq
  rebinds i m n hm hn := by
    obtain ⟨l, hl⟩ : ∃ l, t.environments[i]? = some l := by
      obtain ⟨hi, -⟩ := List.getElem?_eq_some_iff.mp hm
      exact ⟨_, List.getElem?_eq_getElem (h.length_eq ▸ hi)⟩
    refine ((h.rebinds i m l hm hl).mono ?_ ?_).trans ((h'.rebinds i l n hl hn).mono ?_ ?_)
    all_goals
      rintro x ⟨tx, htx, hx⟩
      exact ⟨tx, by simp [htx], hx⟩

/-- An account is still there, with definitions that are made of those it had. -/
theorem account (h : Rebound txs s t) {a : Address} {x : Account Value}
    (hx : s.account? a = some x) :
    ∃ y, t.account? a = some y ∧
      Rebinds (fun z ↦ ∃ tx ∈ txs, tx.origin = a ∧ tx.action.Defines z)
        (fun z ↦ ∃ tx ∈ txs, tx.origin = a ∧ tx.action.Undefines z)
        x.environment y.environment := by
  have hlength : t.accounts.length = s.accounts.length := by
    simpa [environments] using h.length_eq
  obtain ⟨y, hy⟩ := exists_account?_of_length_eq hlength hx
  refine ⟨y, hy, (h.rebinds a.toNat _ _ ?_ ?_).mono ?_ ?_⟩
  · rw [getElem?_environments, hx]
    rfl
  · rw [getElem?_environments, hy]
    rfl
  all_goals
    rintro z ⟨tx, htx, ha, hz⟩
    exact ⟨tx, htx, Address.toNat_inj.mp ha, hz⟩

theorem keyedBySymbols (h : Rebound txs s t) (hs : s.KeyedBySymbols) : t.KeyedBySymbols := by
  rw [keyedBySymbols_iff] at hs ⊢
  intro n hn
  obtain ⟨i, hi, rfl⟩ := List.getElem_of_mem hn
  have hi' : i < s.environments.length := h.length_eq ▸ hi
  have hbinds := h.rebinds i _ _ (List.getElem?_eq_getElem hi') (List.getElem?_eq_getElem hi)
  exact hbinds.kind_of_mem_keys (hs _ (List.getElem_mem hi'))

end Rebound

/-! ## Transactions -/

namespace Trial

variable {t : Trial} {base : Context}

/-- Before a transaction is committed nothing stored has changed. -/
theorem environments_of_mem_stages {d : Context} (hd : d ∈ t.stages) :
    d.ledger.environments = t.base.ledger.environments := by
  have hrecords : d.ledger.records = t.base.ledger.records :=
    congrArg Frame.records (frame_of_mem_course hd)
  rw [environments_eq_map_records, environments_eq_map_records, hrecords]

/-- What a kept transaction stores is made of what its account has stored before. -/
theorem rebound_of_kept (ht : t.Kept) : Rebound [t.tx] t.base.ledger t.settlement.ledger := by
  rcases t.tx.settle_cases t.base with ⟨hdisp, -⟩ | ⟨-, x, y, hx, -, hy, hs⟩
  · exact absurd ht hdisp
  have hending : (t.tx.ending t.base).ledger.environments = t.base.ledger.environments :=
    environments_of_mem_stages (List.mem_of_getLast? t.getLast?_stages)
  have hstored : t.settlement.ledger.environments =
      t.base.ledger.environments.set t.tx.origin.toNat
        (t.tx.ending t.base).environment.bindings := by
    rw [settlement, hs, ← hending]
    exact List.map_set
  have hrun : Rebinds t.tx.action.Defines t.tx.action.Undefines x.environment
      (t.tx.ending t.base).environment.bindings := by
    have hopening : (t.tx.opening t.base).environment.bindings = x.environment := by
      change (Context.storedEnvironment t.base.ledger t.tx.origin).bindings = _
      rw [Context.storedEnvironment, hx]
    rw [← hopening]
    exact t.tx.action.rebinds_run _
  refine ⟨?_, fun i m n hm hn ↦ ?_⟩
  · rw [hstored, List.length_set]
  · rw [hstored] at hn
    by_cases hi : t.tx.origin.toNat = i
    · subst hi
      rw [getElem?_environments, hx] at hm
      cases hm
      rw [List.getElem?_set_self (by
        rw [environments, List.length_map]
        exact (List.getElem?_eq_some_iff.mp hx).1)] at hn
      cases hn
      exact hrun.mono (fun z hz ↦ ⟨t.tx, by simp, rfl, hz⟩) (fun z hz ↦ ⟨t.tx, by simp, rfl, hz⟩)
    · rw [List.getElem?_set_ne hi, hm] at hn
      cases hn
      exact .refl _ _ m

/-- Over a run of transactions, what is stored is made by those that are kept. -/
theorem rebound_last (base : Context) (txs : List Transaction) :
    Rebound (keptOf base txs) base.ledger (last base txs).ledger := by
  induction txs generalizing base with
  | nil => exact .of_eq rfl _
  | cons tx txs ih =>
      by_cases ht : Kept ⟨base, tx⟩
      · rw [keptOf_cons_of_kept ht]
        exact (rebound_of_kept ht).trans (ih (next ⟨base, tx⟩))
      · have hnext : next ⟨base, tx⟩ = base := next_of_not_kept ht
        rw [keptOf_cons_of_not_kept ht, last, hnext]
        exact ih base

end Trial

/-! ## Runs -/

/-- The transactions of a request, in order. -/
def Request.transactions (r : Request) : List Transaction :=
  match r with
  | execute tx | submit _ tx => [tx]
  | block _ txs => txs
  | query .. | queryAll .. => []

namespace Engine

/-- What a request settles, and against what context. -/
def trialsOf (e : Engine) (r : Request) : List Trial :=
  match r with
  | .execute tx | .submit _ tx => Trial.all e.base [tx]
  | .block timestamp txs => Trial.all (e.moveTo { e.ledger with timestamp }).base txs
  | .query .. | .queryAll .. => []

/-- All that is settled in a run, in order. -/
def trials (e : Engine) (rs : List Request) : List Trial :=
  match rs with
  | [] => []
  | r :: rs => e.trialsOf r ++ (e.serve r).1.trials rs

/-- The transactions that a run commits. -/
def committed (e : Engine) (rs : List Request) : List Transaction :=
  ((e.trials rs).filter fun t ↦ t.Kept).map Trial.tx

/-- Over a request, what is stored is made by the transactions that it keeps. -/
theorem rebound_serve (e : Engine) (r : Request) :
    Rebound (((e.trialsOf r).filter fun t ↦ t.Kept).map Trial.tx) e.ledger
      (e.serve r).1.ledger := by
  cases r with
  | execute tx => exact Trial.rebound_last e.base [tx]
  | submit id tx => exact Trial.rebound_last e.base [tx]
  | block timestamp txs =>
      have hblock := Trial.rebound_last (e.moveTo { e.ledger with timestamp }).base txs
      rw [← (executeAll_trials _ txs).1] at hblock
      exact ⟨hblock.length_eq, hblock.rebinds⟩
  | query a op => exact .of_eq rfl _
  | queryAll queries => exact .of_eq rfl _

/-- Over a run of requests, what is stored is made by the transactions that are kept. -/
theorem rebound_serveAll (e : Engine) (rs : List Request) :
    Rebound (e.committed rs) e.ledger (e.serveAll rs).1.ledger := by
  induction rs generalizing e with
  | nil => exact .of_eq rfl _
  | cons r rs ih =>
      rw [committed, trials, List.filter_append, List.map_append]
      exact (e.rebound_serve r).trans (ih (e.serve r).1)

/-- The trials of a run are those of its transactions, none left out. -/
theorem map_tx_trials (e : Engine) (rs : List Request) :
    (e.trials rs).map Trial.tx = rs.flatMap Request.transactions := by
  induction rs generalizing e with
  | nil => rfl
  | cons r rs ih =>
      rw [trials, List.map_append, ih, List.flatMap_cons]
      congr 1
      cases r with
      | block timestamp txs => exact Trial.map_tx_all _ txs
      | _ => rfl

end Engine

/-- What lasts holds from the first ledger of a run to that of each trial. -/
theorem Lasting.of_mem_trials {R : Ledger Value → Ledger Value → Prop} (hR : Lasting R)
    {e : Engine} {rs : List Request} {t : Trial} (ht : t ∈ e.trials rs) :
    R e.ledger t.base.ledger := by
  have hall {base : Context} {txs : List Transaction} (ht : t ∈ Trial.all base txs) :
      R base.ledger t.base.ledger := by
    induction txs generalizing base with
    | nil => cases ht
    | cons tx txs ih =>
        rcases List.mem_cons.mp ht with rfl | ht
        · exact hR.refl _
        · exact hR.trans (hR.settle base tx) (ih ht)
  induction rs generalizing e with
  | nil => cases ht
  | cons r rs ih =>
      rcases List.mem_append.mp ht with ht | ht
      · cases r with
        | execute tx => exact hall ht
        | submit id tx => exact hall ht
        | block timestamp txs => exact hR.trans (hR.timestamp e.ledger timestamp) (hall ht)
        | query a op => cases ht
        | queryAll queries => cases ht
      · exact hR.trans (hR.serve e r) (ih ht)

/-- Across every request, keys stay symbols. -/
theorem lasting_keyedBySymbols : Lasting fun s t ↦ s.KeyedBySymbols → t.KeyedBySymbols where
  refl _ h := h
  trans h h' hs := h' (h hs)
  settle base tx hs := by
    by_cases ht : Trial.Kept ⟨base, tx⟩
    · exact (Trial.rebound_of_kept ht).keyedBySymbols hs
    · have hnext : (tx.settle base).ledger = base.ledger :=
        congrArg Context.ledger (Trial.next_of_not_kept ht)
      exact hnext ▸ hs
  timestamp _ _ h := h

/-- **Definitions change only where they are made.** However an evaluation ends, a key of its
environment was there before or is a symbol that one of its nodes defines; a symbol that no node
defines or undefines is bound as before, or not bound as before; and what stands under a key that is
no symbol stays.  So if all accounts have stored their definitions under symbols, they have in every
ledger that a run of an engine comes to, with its transactions in between and what these go through.
And what an account has stored after a run differs from what it had stored before only at symbols
that its own committed transactions define or undefine. -/
theorem definitions_framed :
    (∀ (op : Op) (c : Context),
      (∀ k ∈ (op.eval c).environment.bindings.keys,
        k ∈ c.environment.bindings.keys ∨ ∃ s, k = .symbol s ∧ op.Defines s) ∧
      (∀ s, ¬ op.Defines s → ¬ op.Undefines s →
        (op.eval c).environment.lookup? s = c.environment.lookup? s) ∧
      ∀ k, k.kind ≠ .symbol →
        (op.eval c).environment.bindings.find? k = c.environment.bindings.find? k) ∧
    (∀ (e : Engine) (rs : List Request), e.ledger.KeyedBySymbols →
      (e.serveAll rs).1.ledger.KeyedBySymbols ∧
      ∀ t ∈ e.trials rs, t.base.ledger.KeyedBySymbols ∧ t.settlement.ledger.KeyedBySymbols ∧
        ∀ d ∈ t.stages, d.ledger.KeyedBySymbols) ∧
    (∀ (e : Engine) (rs : List Request),
      (e.trials rs).map Trial.tx = rs.flatMap Request.transactions ∧
      ∀ a x, e.ledger.account? a = some x → ∃ y, (e.serveAll rs).1.ledger.account? a = some y ∧
        (∀ k ∈ y.environment.keys, k ∈ x.environment.keys ∨
          ∃ s, k = .symbol s ∧ ∃ tx ∈ e.committed rs, tx.origin = a ∧ tx.action.Defines s) ∧
        ∀ k, y.environment.find? k ≠ x.environment.find? k →
          ∃ s, k = .symbol s ∧ ∃ tx ∈ e.committed rs, tx.origin = a ∧
            (tx.action.Defines s ∨ tx.action.Undefines s)) := by
  refine ⟨fun op c ↦ ?_, fun e rs hkeyed ↦ ⟨?_, fun t ht ↦ ?_⟩, fun e rs ↦ ⟨?_, ?_⟩⟩
  · have heval := op.rebinds_eval c
    refine ⟨heval.keys, fun s hd hu ↦ heval.lookup?_eq hd hu, fun k hk ↦ heval.find?_eq k ?_⟩
    rintro s rfl
    exact absurd rfl hk
  · exact lasting_keyedBySymbols.serveAll e rs hkeyed
  · have hbase := lasting_keyedBySymbols.of_mem_trials ht hkeyed
    refine ⟨hbase, lasting_keyedBySymbols.settle t.base t.tx hbase, fun d hd ↦ ?_⟩
    rw [keyedBySymbols_iff, Trial.environments_of_mem_stages hd, ← keyedBySymbols_iff]
    exact hbase
  · exact e.map_tx_trials rs
  · intro a x hx
    obtain ⟨y, hy, hrebinds⟩ := (e.rebound_serveAll rs).account hx
    refine ⟨y, hy, hrebinds.keys, fun k hne ↦ ?_⟩
    by_contra hnone
    refine hne (hrebinds.find?_eq k fun s hs ↦ ⟨?_, ?_⟩)
    · rintro ⟨tx, htx, ha, hdefines⟩
      exact hnone ⟨s, hs, tx, htx, ha, .inl hdefines⟩
    · rintro ⟨tx, htx, ha, hundefines⟩
      exact hnone ⟨s, hs, tx, htx, ha, .inr hundefines⟩

/-- A definition inside an argument inside a definition, which is committed, and then a definition
and the loss of one, which are rolled back.  The old definition is still there, as it has to be. -/
theorem definitions_framed_rollback :
    let nested : Op := .define ⟨"x"⟩
      (.invoke .add [.define ⟨"y"⟩ (.constant (.long 1)), .constant (.long 2)])
    let undone : Op :=
      .sequence [.define ⟨"z"⟩ (.constant .nil), .undefine ⟨"a"⟩, .invoke .rollback []]
    let e := Engine.start ⟨0, [⟨100, 0, ⟨[(.symbol ⟨"a"⟩, .long 7)]⟩, .empty⟩]⟩ { }
    let rs : List Request :=
      [.execute ⟨⟨0⟩, 1, 0, .invoke nested⟩, .block 5 [⟨⟨0⟩, 2, 0, .invoke undone⟩]]
    (e.ledger.KeyedBySymbols ∧ (e.serveAll rs).1.ledger.KeyedBySymbols) ∧
      (e.committed rs).map (·.sequence) = [1] ∧
      (e.serveAll rs).1.lookup? ⟨0⟩ "y" = some (.long 1) ∧
      (e.serveAll rs).1.lookup? ⟨0⟩ "a" = e.lookup? ⟨0⟩ "a" := by
  intro nested undone e rs
  have hkeyed : e.ledger.KeyedBySymbols := by
    simp [KeyedBySymbols, e, Engine.start, Engine.ledger, Context.start, SortedMap.keys, Value.kind]
  have hcommitted : (e.committed rs).map (·.sequence) = [1] := by decide
  obtain ⟨-, hserve, hframe⟩ := definitions_framed
  obtain ⟨htrials, haccounts⟩ := hframe e rs
  refine ⟨⟨hkeyed, (hserve e rs hkeyed).1⟩, hcommitted, by decide, ?_⟩
  obtain ⟨y, hy, -, hchange⟩ := haccounts ⟨0⟩ _ rfl
  rw [Engine.lookup?, hy]
  by_contra hne
  obtain ⟨s, hs, tx, htx, -, htargets⟩ := hchange _ hne
  cases hs
  -- Only the first transaction has been committed, and it is not about this symbol.
  have hsequence : tx.sequence ∈ [1] := hcommitted ▸ List.mem_map_of_mem htx
  obtain ⟨t, ht, rfl⟩ := List.mem_map.mp htx
  have hmem : t.tx ∈ rs.flatMap Request.transactions :=
    htrials ▸ List.mem_map_of_mem (List.mem_of_mem_filter ht)
  rcases List.mem_cons.mp hmem with hfirst | hsecond
  · rw [hfirst] at htargets
    revert htargets
    simp [Action.Defines, Action.Undefines, Op.Defines, Op.Undefines, nested, Op.nodes, Op.nodesOf]
  · rw [List.mem_singleton.mp hsecond] at hsequence
    revert hsequence
    decide

end MeteredLedger

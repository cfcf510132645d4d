import MeteredLedger.Proofs.Engine.Determinacy
import MeteredLedger.Proofs.Op.Terms

/-!
# Queries are dry runs

With the same juice, a query and a transaction of the same account evaluate an operation on terms
that differ in the offer and the sequence number only.  An operation that looks neither up ends the
same way in both.  The transaction is then settled and the query is not, but a host is told the same
of an evaluation before and after it is settled.
-/

namespace MeteredLedger

/-! ## Settling does not show -/

/-- The value that is reported when a ledger is kept is the one a response would show anyway. -/
theorem ResponseBody.ofOutcome_of_keeps {o : Outcome} {v : Value} (h : o.Keeps v) :
    ofOutcome o = .value v := by
  cases h <;> rfl

/-- An outcome that is given up is reported as the one that it is given up with. -/
theorem ResponseBody.ofOutcome_of_givesUp {o o' : Outcome} (h : o.GivesUp o') :
    ofOutcome o = ofOutcome o' := by
  cases h <;> rfl

/-- A host is told the same of a transaction that is due before and after it is settled. -/
theorem Transaction.ofContext_settle {base : Context} {tx : Transaction} {x : Account Value}
    (hx : base.ledger.account? tx.origin = some x) (heq : tx.sequence = x.sequence + 1)
    (id : UInt64) :
    Response.ofContext id (tx.settle base).context = Response.ofContext id (tx.ending base) := by
  rcases (tx.ending base).outcome.keeps_or_givesUp with ⟨v, ho⟩ | ⟨o, ho⟩
  · obtain ⟨y, -, hs⟩ := settle_of_keeps hx heq ho
    rw [hs, Response.ofContext, Response.ofContext, ResponseBody.ofOutcome_of_keeps ho]
    rfl
  · rw [settle_of_givesUp hx heq ho, Response.ofContext, Response.ofContext,
      ResponseBody.ofOutcome_of_givesUp ho]

/-! ## The same evaluation -/

/-- The terms of two runs with the same juice and limits. -/
structure SameMeans (t t' : Terms) : Prop where
  juice : t'.juice = t.juice
  limits : t'.limits = t.limits

section Means

variable {c d : Context}

/-- Contexts with the same means are charged alike. -/
theorem charge_sameMeans (n : Nat) (h : Alike SameMeans c d) :
    Alike SameMeans (c.charge n) (d.charge n) := by
  obtain ⟨t, ht, rfl⟩ := h
  have hjuice : (c.onTerms t).juice = c.juice := ht.juice
  have hexceptional : (c.onTerms t).isExceptional = c.isExceptional := rfl
  refine ⟨{ t with juice := c.juice.charge n }, ?_, ?_⟩
  · rw [c.terms_charge n]
    exact ⟨rfl, ht.limits⟩
  · unfold Context.charge
    rw [hjuice, hexceptional]
    split <;> rfl

/-- Nothing is lost: with the same juice both runs go on to the end. -/
theorem simulation_sameMeans : Simulation (Alike SameMeans) fun _ _ ↦ False :=
  Alike.simulation (fun n _ h ↦ .inl (charge_sameMeans n h))
    (fun h ↦ .inl (h.descend fun ht ↦ congrArg Limits.maxDepth ht.limits))
    False.elim (fun _ h ↦ h) (fun _ h ↦ h)

/-- An operation that ignores the sequence number and the offer is evaluated alike. -/
theorem eval_sameMeans {op : Op} (hsequence : op.Ignores .sequence) (hoffer : op.Ignores .offer)
    (h : Alike SameMeans c d) : Alike SameMeans (op.eval c) (op.eval d) := by
  have hnodes : ∀ n ∈ op.nodes, n.Respects (Alike SameMeans) :=
    Alike.respects (fun _ ↦ SameMeans.juice) (fun hlooked ↦ absurd hoffer hlooked)
      (fun hlooked ↦ absurd hsequence hlooked)
  exact (simulation_sameMeans.eval op hnodes c d h).resolve_right id

/-- A response shows neither the sequence number nor the offer. -/
theorem Response.ofContext_eq_of_sameMeans (h : Alike SameMeans c d) (id : UInt64) :
    ofContext id c = ofContext id d := by
  obtain ⟨t, ht, rfl⟩ := h
  have hjuice : (c.onTerms t).juice = c.juice := ht.juice
  rw [ofContext, ofContext, hjuice]
  rfl

end Means

namespace Engine

/-- **A query is a dry run.** Let an engine give queries the juice of transactions, and let an
operation look up neither the sequence number nor the offer.  The response to a query of the
operation as an account that is there is the response to a transaction that invokes it with the next
sequence number of the account and any offer, however the operation ends. -/
theorem query_eq_submit (s : Ledger Value) (config : Config)
    (hconfig : config.queryJuiceLimit = config.juiceLimit) (rs : List Request) (a : Address)
    (x : Account Value) (hx : ((start s config).serveAll rs).1.ledger.account? a = some x)
    (offer : Int64) (id : UInt64) (op : Op) (hsequence : op.Ignores .sequence)
    (hoffer : op.Ignores .offer) :
    Response.ofContext id (((start s config).serveAll rs).1.query a op) =
      (((start s config).serveAll rs).1.submit id
        ⟨a, x.sequence + 1, offer, .invoke op⟩).2 := by
  have he := isOver_serveAll s config rs
  generalize ((start s config).serveAll rs).1 = e at he hx ⊢
  let tx : Transaction := ⟨a, x.sequence + 1, offer, .invoke op⟩
  have hlimits : config.queryLimits = config.limits := by
    rw [Config.queryLimits, Config.limits, hconfig]
  have hopening : Alike SameMeans (.start e.ledger a config.limits) (tx.opening e.base) := by
    refine ⟨(tx.opening e.base).terms, ?_, ?_⟩
    all_goals rw [Transaction.opening, Transaction.arrival, he.base.actAs_fork]
    · exact ⟨rfl, rfl⟩
    · rfl
  calc Response.ofContext id (e.query a op)
      = .ofContext id (op.eval (.start e.ledger a config.limits)) := by
        rw [he.query_eq, hlimits]
    _ = .ofContext id (tx.ending e.base) :=
        Response.ofContext_eq_of_sameMeans (eval_sameMeans hsequence hoffer hopening) id
    _ = .ofContext id (tx.settle e.base).context := (tx.ofContext_settle hx rfl id).symm

/-- A payment of an amount that the account has defined before, which is then rolled back. -/
theorem query_eq_submit_rollback :
    let rs : List Request := [.execute ⟨⟨0⟩, 1, 0, .invoke (.define ⟨"x"⟩ (.constant (.long 30)))⟩]
    let e := ((start (.genesis [100, 0]) { }).serveAll rs).1
    let x : Account Value := ⟨100, 1, .ofList [(.symbol ⟨"x"⟩, .long 30)], .empty⟩
    let op := Op.sequence [.invoke .transfer [.constant (.address ⟨1⟩), .lookup ⟨"x"⟩],
      .invoke .rollback [.invoke .balance []]]
    e.ledger.account? ⟨0⟩ = some x ∧ op.Ignores .sequence ∧ op.Ignores .offer ∧
    Response.ofContext 7 (e.query ⟨0⟩ op) = (e.submit 7 ⟨⟨0⟩, 2, 50, .invoke op⟩).2 ∧
    (e.submit 7 ⟨⟨0⟩, 2, 50, .invoke op⟩).2.body = .value (.long 70) := by
  intro rs e x op
  have hx : e.ledger.account? ⟨0⟩ = some x := by decide
  have hsequence : op.Ignores .sequence := by decide
  have hoffer : op.Ignores .offer := by decide
  refine ⟨hx, hsequence, hoffer, ?_, by decide⟩
  exact query_eq_submit (.genesis [100, 0]) { } rfl rs ⟨0⟩ x hx 50 7 op hsequence hoffer

end Engine

end MeteredLedger

import MeteredLedger.Proofs.Op.Threshold

/-!
# Juice is accounted for

A context is made with a full counter and then goes through whatever a host does with it.  One
operation only makes the counter full again, and that is a fork.  Every other one leaves the counter
alone or charges it, an evaluation charge by charge: this is `Draws`, and all else about the counter
follows from it.  In particular limit and remainder are words that the difference of the two and
every charge that is covered stay within, so that a host may compute with them as words.
-/

namespace MeteredLedger

/-! ## Counters of a budget -/

namespace Juice

/-- Two charges are one of both amounts together. -/
theorem charge_charge (j : Juice) (m n : Nat) : (j.charge m).charge n = j.charge (m + n) := by
  rw [charge, charge, charge, Nat.sub_sub]

/-- The counter belongs to the budget, where a negative one counts as zero. -/
structure Meters (j : Juice) (budget : Int64) : Prop where
  limit_eq : j.limit = budget.toInt.toNat
  remaining_le : j.remaining ≤ j.limit

theorem meters_full (budget : Int64) : (full budget).Meters budget :=
  ⟨rfl, Nat.le_refl _⟩

namespace Meters

variable {j : Juice} {budget : Int64}

theorem charge (h : j.Meters budget) (n : Nat) : (j.charge n).Meters budget :=
  ⟨h.limit_eq, Nat.le_trans (Nat.sub_le _ n) h.remaining_le⟩

/-- The limit is a word. -/
theorem limit_lt (h : j.Meters budget) : j.limit < 9223372036854775808 := by
  have hbudget : budget.toInt < 9223372036854775808 := budget.toInt_lt
  rw [h.limit_eq]
  omega

/-- As a word the limit is what it is as a number. -/
theorem toInt_limit (h : j.Meters budget) : (Int64.ofNat j.limit).toInt = j.limit :=
  Int64.toInt_ofNat_of_lt h.limit_lt

/-- As a word the remainder is what it is as a number. -/
theorem toInt_remaining (h : j.Meters budget) : (Int64.ofNat j.remaining).toInt = j.remaining :=
  Int64.toInt_ofNat_of_lt (Nat.lt_of_le_of_lt h.remaining_le h.limit_lt)

end Meters

end Juice

/-! ## What a host does with a context -/

/-- The operations of a context that make a new one. -/
inductive Operation where
  | fork
  | actAs (a : Address)
  | setAddress (a : Address)
  | setOrigin (a : Address)
  | setCaller (a : Option Address)
  | setOffer (n : Int64)
  | setSequence (n : Int64)
  | setLedger (s : Ledger Value)
  | setEnvironment (e : Environment)
  | setDepth (n : Nat)
  | descend
  | produce (v : Value)
  /-- Come to an error, whose code may not be nil. -/
  | error (code message : Value)
  | fail (code : ErrorCode) (message : String)
  | raise (s : Signal)
  | conclude (o : Outcome)
  /-- Charge an amount, which may not be negative. -/
  | charge (amount : Int64)
  | define (s : Symbol) (v : Value)
  | undefine (s : Symbol)
  | lookup (s : Symbol)
  | lookupSpecial (s : Symbol)
  | transfer (target : Address) (amount : Int64)
  | setHolding (owner : Address) (v : Value)
  /-- Come to the error that tells of a failed data operation. -/
  | report (e : UpdateError)
  | eval (op : Op)
  | apply (f : Builtin) (args : List Value)

namespace Operation

/-- The context that an operation makes.  A misuse makes none, and neither does the lookup of a
special variable that there is not. -/
def run (o : Operation) (c : Context) : Option Context :=
  match o with
  | fork => some c.fork
  | actAs a => some (c.actAs a)
  | setAddress a => some { c with address := a }
  | setOrigin a => some { c with origin := a }
  | setCaller a => some { c with caller := a }
  | setOffer n => some { c with offer := n }
  | setSequence n => some { c with sequence := n }
  | setLedger s => some { c with ledger := s }
  | setEnvironment e => some { c with environment := e }
  | setDepth n => some { c with depth := n }
  | descend => some c.descend
  | produce v => some (c.produce v)
  | error code message => (Signal.ofCode code message).toOption.map c.raise
  | fail code message => some (c.fail code message)
  | raise s => some (c.raise s)
  | conclude o => some { c with outcome := o }
  | charge amount => (c.chargeChecked amount).toOption
  | define s v => some (c.define s v)
  | undefine s => some (c.undefine s)
  | lookup s => some (c.lookup s)
  | lookupSpecial s => c.lookupSpecial? s
  | transfer target amount => some (c.transfer target amount)
  | setHolding owner v => some (c.setHolding owner v)
  | report e => some (c.raise (.ofUpdateError e))
  | eval op => some (op.eval c)
  | apply f args => some (f.apply args c)

/-- The context that operations make one after the other. -/
def runAll (os : List Operation) (c : Context) : Option Context :=
  match os with
  | [] => some c
  | o :: os => (o.run c).bind (runAll os)

end Operation

/-! ## Operations draw on the juice -/

namespace Context

/-- The second context has the limits of the first, and its juice less a charge. -/
structure Draws (c d : Context) : Prop where
  limits_eq : d.limits = c.limits
  juice_eq : ∃ n, d.juice = c.juice.charge n

namespace Draws

variable {c d e : Context}

theorem of_eq (hlimits : d.limits = c.limits) (hjuice : d.juice = c.juice) : Draws c d :=
  ⟨hlimits, 0, hjuice⟩

theorem trans (h : Draws c d) (h' : Draws d e) : Draws c e := by
  obtain ⟨m, hm⟩ := h.juice_eq
  obtain ⟨n, hn⟩ := h'.juice_eq
  exact ⟨h'.limits_eq.trans h.limits_eq, m + n, by rw [hn, hm, Juice.charge_charge]⟩

theorem limit_eq (h : Draws c d) : d.juice.limit = c.juice.limit := by
  obtain ⟨n, hn⟩ := h.juice_eq
  rw [hn, Juice.limit_charge]

theorem remaining_le (h : Draws c d) : d.juice.remaining ≤ c.juice.remaining := by
  obtain ⟨n, hn⟩ := h.juice_eq
  rw [hn, Juice.remaining_charge]
  exact Nat.sub_le _ n

/-- A counter from which is drawn belongs to the same budget. -/
theorem meters (h : Draws c d) (hc : c.juice.Meters c.limits.juice) :
    d.juice.Meters d.limits.juice := by
  obtain ⟨n, hn⟩ := h.juice_eq
  rw [hn, h.limits_eq]
  exact hc.charge n

/-- Every effect of an evaluation draws. -/
theorem effect (e : Effect) (c : Context) : Draws c (e.run c) :=
  ⟨(e.spares_run c).limits_eq, e.juice_run c⟩

/-- An evaluation draws what the charges of its log come to. -/
theorem eval (op : Op) (c : Context) : Draws c (op.eval c) :=
  rel_of_mem_course (fun _ ↦ of_eq rfl rfl) trans effect (op.eval_mem_course c)

theorem apply (f : Builtin) (args : List Value) (c : Context) : Draws c (f.apply args c) :=
  f.run_effect args c ▸ effect (f.effect args c) c

end Draws

end Context

namespace Operation

open Context

/-- Every operation but a fork draws. -/
theorem draws_run {o : Operation} {c d : Context} (ho : o ≠ fork) (h : o.run c = some d) :
    Draws c d := by
  cases o with
  | fork => exact absurd rfl ho
  | descend =>
      obtain rfl := Option.some.inj h
      unfold Context.descend
      split <;> exact .of_eq rfl rfl
  | error code message =>
      obtain ⟨s, -, rfl⟩ := Option.map_eq_some_iff.mp h
      exact .of_eq rfl rfl
  | charge amount =>
      change (c.chargeChecked amount).toOption = some d at h
      rw [Context.chargeChecked] at h
      split at h
      · cases h
      · obtain rfl := Option.some.inj h
        exact .effect (.charge _) c
  | undefine s =>
      obtain rfl := Option.some.inj h
      exact .effect (.undefine s) c
  | lookup s =>
      obtain rfl := Option.some.inj h
      rw [← c.run_conclude_lookup s]
      exact .effect _ c
  | lookupSpecial s =>
      obtain ⟨special, -, rfl⟩ := Option.map_eq_some_iff.mp h
      exact .of_eq rfl rfl
  | transfer target amount =>
      obtain rfl := Option.some.inj h
      exact .effect (.transfer target amount) c
  | setHolding owner v =>
      obtain rfl := Option.some.inj h
      exact .effect (.setHolding owner v) c
  | eval op =>
      obtain rfl := Option.some.inj h
      exact .eval op c
  | apply f args =>
      obtain rfl := Option.some.inj h
      exact .apply f args c
  | _ =>
      obtain rfl := Option.some.inj h
      exact .of_eq rfl rfl

/-- What an operation does to the counter, be it a fork or not. -/
theorem meters_run {o : Operation} {c d : Context} (h : o.run c = some d)
    (hc : c.juice.Meters c.limits.juice) :
    d.limits = c.limits ∧ d.juice.Meters d.limits.juice := by
  by_cases ho : o = fork
  · subst ho
    obtain rfl := Option.some.inj h
    exact ⟨rfl, Juice.meters_full c.limits.juice⟩
  · have hdraws := draws_run ho h
    exact ⟨hdraws.limits_eq, hdraws.meters hc⟩

/-- Whatever a host does in a row, the limits stay and the counter belongs to them. -/
theorem meters_runAll {os : List Operation} {c d : Context} (h : runAll os c = some d)
    (hc : c.juice.Meters c.limits.juice) :
    d.limits = c.limits ∧ d.juice.Meters d.limits.juice := by
  induction os generalizing c with
  | nil =>
      obtain rfl := Option.some.inj h
      exact ⟨rfl, hc⟩
  | cons o os ih =>
      obtain ⟨next, hnext, hrest⟩ := Option.bind_eq_some_iff.mp h
      obtain ⟨hlimits, hmeters⟩ := meters_run hnext hc
      obtain ⟨hlimits', hmeters'⟩ := ih hrest hmeters
      exact ⟨hlimits'.trans hlimits, hmeters'⟩

end Operation

/-! ## The account of a context -/

/-- The counter of the context is that of its limits, and arithmetic on it is exact in words. -/
structure Context.Accounted (c : Context) : Prop where
  limit_eq : (c.juice.limit : Int) = max 0 c.limits.juice.toInt
  remaining_le : c.juice.remaining ≤ c.juice.limit
  used_eq : (c.juice.used : Int) = c.juice.limit - c.juice.remaining
  used_le : c.juice.used ≤ c.juice.limit
  limit_word : (Int64.ofNat c.juice.limit).toInt = c.juice.limit
  remaining_word : (Int64.ofNat c.juice.remaining).toInt = c.juice.remaining
  used_word : (Int64.ofNat c.juice.limit - Int64.ofNat c.juice.remaining).toInt = c.juice.used
  charge_word : ∀ amount : Int64, 0 ≤ amount → c.juice.covers amount.toInt = true →
    (Int64.ofNat c.juice.remaining - amount).toInt =
      (c.juice.charge amount.toInt.toNat).remaining

/-- A counter that belongs to its budget can be computed with as words. -/
theorem Juice.Meters.accounted {c : Context} (h : c.juice.Meters c.limits.juice) :
    c.Accounted := by
  have hle := h.remaining_le
  have hlimit := h.toInt_limit
  have hremaining := h.toInt_remaining
  refine ⟨?_, hle, ?_, Nat.sub_le _ _, hlimit, hremaining, ?_, ?_⟩
  · rw [h.limit_eq]
    omega
  · rw [Juice.used]
    omega
  · have hzero : 0 ≤ Int64.ofNat c.juice.remaining :=
      Int64.le_iff_toInt_le.mpr (by rw [hremaining, Int64.toInt_zero]; omega)
    have hword : Int64.ofNat c.juice.remaining ≤ Int64.ofNat c.juice.limit :=
      Int64.le_iff_toInt_le.mpr (by rw [hremaining, hlimit]; omega)
    rw [Int64.toInt_sub_of_le _ _ hzero hword, hlimit, hremaining, Juice.used]
    omega
  · intro amount hamount hcovers
    have hle : amount.toInt ≤ c.juice.remaining := by simpa [Juice.covers] using hcovers
    have hword : amount ≤ Int64.ofNat c.juice.remaining :=
      Int64.le_iff_toInt_le.mpr (by rwa [hremaining])
    rw [Int64.toInt_sub_of_le _ _ hamount hword, hremaining, Juice.remaining_charge]
    have hzero : 0 ≤ amount.toInt := Int64.le_iff_toInt_le.mp hamount
    omega

/-- **Juice is accounted for.** Whatever a host does with a new context, its limits stay, the limit
of its counter is the juice of these limits, or zero if that is negative, and no more than the limit
remains; so what has been used is between zero and the limit, and neither it nor a charge overflows.
Every operation but a fork, and so every evaluation, leaves the limit of the counter and does not
add to what remains; a fork makes the counter full. -/
theorem Operation.juice_accounted :
    (∀ s a limits os c, runAll os (.start s a limits) = some c →
      c.limits = limits ∧ c.Accounted) ∧
    (∀ o c d, o ≠ fork → run o c = some d →
      d.juice.limit = c.juice.limit ∧ d.juice.remaining ≤ c.juice.remaining) ∧
    (∀ op c, (Op.eval op c).juice.limit = c.juice.limit ∧
      (Op.eval op c).juice.remaining ≤ c.juice.remaining) ∧
    (∀ c, run fork c = some c.fork ∧ c.fork.juice = .full c.limits.juice) := by
  refine ⟨?_, ?_, ?_, fun c ↦ ⟨rfl, rfl⟩⟩
  · intro s a limits os c h
    have hstart : (Context.start s a limits).juice.Meters limits.juice :=
      Juice.meters_full limits.juice
    obtain ⟨hlimits, hmeters⟩ := meters_runAll h hstart
    exact ⟨hlimits, hmeters.accounted⟩
  · intro o c d ho h
    have hdraws := draws_run ho h
    exact ⟨hdraws.limit_eq, hdraws.remaining_le⟩
  · intro op c
    have hdraws := Context.Draws.eval op c
    exact ⟨hdraws.limit_eq, hdraws.remaining_le⟩

/-- A context with the largest budget that is charged all but one and then evaluates; and one with a
negative budget, which is forked and fails at its first charge. -/
theorem Operation.juice_accounted_extremes :
    let ledger := Ledger.genesis [100]
    let rich := runAll [.charge (Int64.maxValue - 1), .eval (.constant .nil)]
      (.start ledger ⟨0⟩ { juice := Int64.maxValue })
    let poor := runAll [.fork, .charge 1] (.start ledger ⟨0⟩ { juice := -7 })
    (∃ c, rich = some c ∧ c.Accounted ∧ c.juice.remaining = 0 ∧ c.isExceptional = true) ∧
      ∃ c, poor = some c ∧ c.Accounted ∧ c.juice.limit = 0 ∧ c.isExceptional = true := by
  intro ledger rich poor
  obtain ⟨haccount, -⟩ := juice_accounted
  have hrich : ∃ c, rich = some c ∧ c.juice.remaining = 0 ∧ c.isExceptional = true :=
    ⟨_, rfl, by decide, by decide⟩
  have hpoor : ∃ c, poor = some c ∧ c.juice.limit = 0 ∧ c.isExceptional = true :=
    ⟨_, rfl, by decide, by decide⟩
  obtain ⟨c, hc, hremaining, hexceptional⟩ := hrich
  obtain ⟨d, hd, hlimit, hexceptional'⟩ := hpoor
  exact ⟨⟨c, hc, (haccount _ _ _ _ c hc).2, hremaining, hexceptional⟩,
    d, hd, (haccount _ _ _ _ d hd).2, hlimit, hexceptional'⟩

end MeteredLedger

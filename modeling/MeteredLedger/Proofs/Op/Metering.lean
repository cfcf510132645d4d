import MeteredLedger.Proofs.Op.Outcomes
import MeteredLedger.Proofs.Op.Threshold

/-!
# What an evaluation can cost

The price of a node is its own cost and, for a call, the cost of applying the function to as many
arguments as the call has.  The total of an operation is the sum of the prices of all its nodes.  An
evaluation never takes more than the total: it may stop early, it may leave branches out, and it is
never charged for anything else.  `Metered` says what is known of the juice from one context to
another at a given price, and it is put together as evaluations are: prices add up.
-/

namespace MeteredLedger

namespace Op

/-- What a node takes, its parts aside. -/
def price (op : Op) : Nat :=
  match op with
  | invoke f args => op.cost + f.applyCost args.length
  | _ => op.cost

/-- The sum of the prices of some nodes. -/
def sumOfPrices : List Op → Nat
  | [] => 0
  | op :: ops => op.price + sumOfPrices ops

/-- The prices of two lists of nodes add up. -/
theorem sumOfPrices_append (ops ops' : List Op) :
    sumOfPrices (ops ++ ops') = sumOfPrices ops + sumOfPrices ops' := by
  induction ops with
  | nil => exact (Nat.zero_add _).symm
  | cons op ops ih => rw [List.cons_append, sumOfPrices, sumOfPrices, ih, Nat.add_assoc]

/-- The sum of the prices of all nodes. -/
def total (op : Op) : Nat := sumOfPrices op.nodes

/-- The sum of the totals of some operations. -/
def totalOf (ops : List Op) : Nat := sumOfPrices (nodesOf ops)

@[simp] theorem totalOf_nil : totalOf [] = 0 := rfl

@[simp] theorem totalOf_cons (op : Op) (ops : List Op) :
    totalOf (op :: ops) = op.total + totalOf ops := by
  rw [totalOf, nodesOf, sumOfPrices_append, total, totalOf]

@[simp] theorem total_define (s : Symbol) (body : Op) :
    (define s body).total = (define s body).cost + body.total := rfl

@[simp] theorem total_sequence (ops : List Op) :
    (sequence ops).total = (sequence ops).cost + totalOf ops := rfl

@[simp] theorem total_branch (ops : List Op) :
    (branch ops).total = (branch ops).cost + totalOf ops := rfl

@[simp] theorem total_invoke (f : Builtin) (args : List Op) :
    (invoke f args).total =
      (invoke f args).cost + (totalOf args + f.applyCost args.length) := by
  rw [total, nodes, sumOfPrices, price, totalOf]
  omega

/-- No node of the operation is a conditional. -/
def IsStraight (op : Op) : Prop := ∀ ops, branch ops ∉ op.nodes

def isBranch (op : Op) : Bool :=
  match op with
  | branch _ => true
  | _ => false

theorem isBranch_iff {op : Op} : op.isBranch = true ↔ ∃ ops, op = branch ops := by
  cases op <;> simp [isBranch]

instance (op : Op) : Decidable op.IsStraight :=
  decidable_of_iff (op.nodes.any isBranch = false)
    (by simp only [List.any_eq_false, isBranch_iff, IsStraight]; grind)

end Op

/-! ## Prices from one context to another -/

/-- The way from `c` to `d` has the price `n`: no more has gone.  On a straight way that ends
normally just as much has gone.  And if `c` has the juice and the way is tame, `d` does not lack
any. -/
structure Metered (straight tame : Prop) (n : Nat) (c d : Context) : Prop where
  atMost : c.juice.remaining ≤ d.juice.remaining + n
  exactly : straight → d.isExceptional = false → c.juice.remaining = d.juice.remaining + n
  covered : tame → n ≤ c.juice.remaining → ¬ d.outcome.HasCode .juice

namespace Metered

variable {straight tame : Prop} {m n : Nat} {c d e : Context}

/-- What charges nothing is free. -/
theorem free (hjuice : d.juice = c.juice) (hd : tame → ¬ d.outcome.HasCode .juice) :
    Metered straight tame 0 c d where
  atMost := by rw [hjuice]; exact Nat.le_refl _
  exactly _ _ := by rw [hjuice]; rfl
  covered htame _ := hd htame

/-- A step that takes no juice and ends normally is metered as free. -/
theorem free_of_normal (hjuice : d.juice = c.juice) (hd : d.isExceptional = false) :
    Metered straight tame 0 c d :=
  free hjuice fun _ ↦ Outcome.not_hasCode_of_normal hd .juice

/-- A higher price is right as well, if it need not be the exact one. -/
theorem mono (h : Metered straight tame m c d) (hmn : m ≤ n) (hstraight : ¬ straight) :
    Metered straight tame n c d where
  atMost := Nat.le_trans h.atMost (Nat.add_le_add_left hmn _)
  exactly hs := absurd hs hstraight
  covered htame hn := h.covered htame (Nat.le_trans hmn hn)

theorem level (h : Metered straight tame n c d) (depth : Nat) :
    Metered straight tame n c { d with depth } :=
  ⟨h.atMost, h.exactly, h.covered⟩

/-- Only the juice matters at the beginning. -/
theorem start (h : Metered straight tame n d e) (hjuice : d.juice = c.juice) :
    Metered straight tame n c e := by
  obtain ⟨hmost, hexact, hcovered⟩ := h
  rw [hjuice] at hmost hexact hcovered
  exact ⟨hmost, hexact, hcovered⟩

/-- A way that ends early stays below the price of the whole. -/
theorem stop (h : Metered straight tame m c d) (hd : d.isExceptional = true) (n : Nat) :
    Metered straight tame (m + n) c d where
  atMost := Nat.le_trans h.atMost (by omega)
  exactly _ hnormal := by
    rw [hd] at hnormal
    cases hnormal
  covered htame hmn := h.covered htame (by omega)

/-- Prices add up. -/
theorem trans (h : Metered straight tame m c d) (hd : d.isExceptional = false)
    (h' : Metered straight tame n d e) : Metered straight tame (m + n) c e := by
  have hmost := h.atMost
  have hmost' := h'.atMost
  refine ⟨by omega, ?_, ?_⟩
  · intro hstraight hnormal
    rw [h.exactly hstraight hd, h'.exactly hstraight hnormal]
    omega
  · intro htame hmn
    exact h'.covered htame (by omega)

/-- What two steps take adds up. -/
theorem andThen (h : Metered straight tame m c d) {f : Context → Context}
    (hf : d.isExceptional = false → Metered straight tame n d (f d)) :
    Metered straight tame (m + n) c (d.andThen f) :=
  Context.andThen_elim (fun hd ↦ h.stop hd n) fun hd ↦ h.trans hd (hf hd)

/-- What a step takes adds up with what is done with its result. -/
theorem onResult (h : Metered straight tame m c d) {f : Context → Value → Context}
    (hf : ∀ v, d.isExceptional = false → Metered straight tame n d (f d v)) :
    Metered straight tame (m + n) c (d.onResult f) :=
  Context.onResult_elim (fun hd ↦ h.stop hd n) fun v hd ↦ h.trans hd (hf v hd)

theorem charge (hc : c.isExceptional = false) (n : Nat) :
    Metered straight tame n c (c.charge n) := by
  by_cases hn : n ≤ c.juice.remaining
  · rw [Context.charge_of_le hn]
    have hremaining : c.juice.remaining = (c.juice.charge n).remaining + n := by
      rw [Juice.remaining_charge]
      omega
    refine ⟨Nat.le_of_eq hremaining, fun _ _ ↦ hremaining, fun _ _ ↦ ?_⟩
    exact Outcome.not_hasCode_of_normal hc .juice
  · have hout := Context.exhausted_charge hc (Nat.not_le.mp hn)
    refine ⟨?_, ?_, fun _ hle ↦ absurd hle hn⟩
    · omega
    · intro _ hnormal
      rw [hout.isExceptional] at hnormal
      cases hnormal

/-- A step that is paid for takes its price on top. -/
theorem charged (hc : c.isExceptional = false) (m : Nat) {f : Context → Context}
    (hf : ∀ d, d.isExceptional = false → Metered straight tame n d (f d)) :
    Metered straight tame (m + n) c (c.charged m f) := by
  rw [Context.charged, Context.andThen_of_normal hc]
  exact (charge hc m).andThen (hf _)

theorem descend (hc : c.isExceptional = false) : Metered straight tame 0 c c.descend := by
  unfold Context.descend
  split
  · exact free rfl fun _ ↦ Outcome.not_hasCode_coded (by decide) _
  · exact free_of_normal rfl hc

/-- A step one level deeper takes what it takes there. -/
theorem nested (hc : c.isExceptional = false) {f : Context → Context}
    (hf : ∀ d, d.isExceptional = false → Metered straight tame n d (f d)) :
    Metered straight tame n c (c.nested f) := by
  have hdescend : Metered straight tame 0 c c.descend := descend hc
  have h := hdescend.andThen (f := fun inner ↦ { f inner with depth := c.depth })
    fun hd ↦ (hf _ hd).level c.depth
  rwa [Nat.zero_add] at h

theorem lookup (c : Context) (s : Symbol) : Metered straight tame 0 c (c.lookup s) := by
  unfold Context.lookup
  split
  · exact free_of_normal rfl rfl
  · split
    · exact free_of_normal rfl rfl
    · exact free rfl fun _ ↦ Outcome.not_hasCode_coded (by decide) _

/-- Applying a function takes no juice beyond its price. -/
theorem apply {f : Builtin} (hf : tame → f ≠ .fail) (args : List Value) (c : Context) :
    Metered straight tame 0 c (f.apply args c) := by
  refine free ?_ fun htame ↦ ?_
  · rw [← f.run_effect args c]
    exact congrArg Terms.juice (Effect.terms_run (f.isFree_effect args c) c)
  · exact (Builtin.isRegular_outcome_apply (hf htame) args c).not_hasCode (by decide)

end Metered

/-! ## The price of an evaluation -/

namespace Op

/-- A node of a straight operation is no conditional, and one of a tame operation no failure. -/
def Suits (straight tame : Prop) (op : Op) : Prop :=
  match op with
  | branch _ => ¬ straight
  | invoke f _ => tame → f ≠ .fail
  | _ => True

variable {straight tame : Prop}

/-- If no argument raises a signal, there is a value for each. -/
theorem length_evalArgs (ops : List Op) (c : Context)
    (h : (evalArgs ops c).1.isExceptional = false) :
    (evalArgs ops c).2.length = ops.length := by
  induction ops generalizing c with
  | nil => rfl
  | cons op ops ih =>
      unfold evalArgs at h ⊢
      cases hnext : (c.nested op.eval).outcome with
      | signal s =>
          simp only [hnext] at h
          rw [Context.isExceptional_of_signal hnext] at h
          cases h
      | value v =>
          simp only [hnext] at h ⊢
          rw [List.length_cons, List.length_cons, ih _ h]

mutual

/-- The price of an evaluation is the total of the operation. -/
theorem metered_eval (op : Op) (hop : ∀ n ∈ op.nodes, n.Suits straight tame) (c : Context)
    (hc : c.isExceptional = false) : Metered straight tame op.total c (op.eval c) := by
  have hself : op.Suits straight tame := hop op op.mem_nodes_self
  unfold nodes at hop
  have hparts := (List.forall_mem_cons.mp hop).2
  unfold eval
  match op with
  | constant v =>
    exact .charged (n := 0) hc _ fun c _ ↦ .free_of_normal rfl rfl
  | lookup s =>
    exact .charged (n := 0) hc _ fun c _ ↦ .lookup c s
  | define s body =>
    rw [total_define]
    refine .charged hc _ fun c hc ↦ ?_
    refine (Metered.nested hc (metered_eval body hparts)).onResult (n := 0) fun v _ ↦ ?_
    exact .free_of_normal rfl rfl
  | undefine s =>
    refine .charged (n := 0) hc _ fun c _ ↦ .free_of_normal ?_ rfl
    exact congrArg Terms.juice (Effect.terms_run (e := .undefine s) trivial c)
  | sequence ops =>
    rw [total_sequence]
    refine .charged hc _ fun c _ ↦ ?_
    exact (metered_evalSequence ops hparts (c.produce .nil) rfl).start rfl
  | branch ops =>
    rw [total_branch]
    exact .charged hc _ fun c hc ↦ metered_evalBranches ops hself hparts c hc
  | invoke f args =>
    rw [total_invoke]
    refine .charged hc _ fun c hc ↦ (metered_evalArgs args hparts c hc).andThen fun hargs ↦ ?_
    rw [length_evalArgs args c hargs]
    exact .charged (n := 0) hargs _ fun c _ ↦ .apply hself _ c
termination_by structural op

/-- A list of operations takes at most what all of them take together. -/
theorem metered_evalSequence (ops : List Op)
    (hops : ∀ n ∈ nodesOf ops, n.Suits straight tame) (c : Context)
    (hc : c.isExceptional = false) :
    Metered straight tame (totalOf ops) c (evalSequence ops c) := by
  match ops with
  | [] => exact .free_of_normal rfl hc
  | op :: ops =>
    obtain ⟨hop, hops⟩ := List.forall_mem_append.mp hops
    rw [totalOf_cons]
    refine (Metered.nested hc (metered_eval op hop)).andThen fun hnext ↦ ?_
    exact metered_evalSequence ops hops _ hnext
termination_by structural ops

/-- Of the branches some are left out, so that the price is an upper bound only. -/
theorem metered_evalBranches (ops : List Op) (hstraight : ¬ straight)
    (hops : ∀ n ∈ nodesOf ops, n.Suits straight tame) (c : Context)
    (hc : c.isExceptional = false) :
    Metered straight tame (totalOf ops) c (evalBranches ops c) := by
  match ops with
  | [] => exact .free_of_normal rfl rfl
  | [default] =>
    obtain ⟨hdefault, -⟩ := List.forall_mem_append.mp hops
    exact (Metered.nested hc (metered_eval default hdefault)).mono (by simp) hstraight
  | test :: expr :: rest =>
    obtain ⟨htest, hops⟩ := List.forall_mem_append.mp hops
    obtain ⟨hexpr, hrest⟩ := List.forall_mem_append.mp hops
    rw [totalOf_cons, totalOf_cons]
    refine (Metered.nested hc (metered_eval test htest)).onResult fun v hnext ↦ ?_
    split
    · exact (Metered.nested hnext (metered_eval expr hexpr)).mono (by omega) hstraight
    · exact (metered_evalBranches rest hstraight hrest _ hnext).mono (by omega) hstraight
termination_by structural ops

/-- A list of arguments takes at most what all of them take together. -/
theorem metered_evalArgs (ops : List Op)
    (hops : ∀ n ∈ nodesOf ops, n.Suits straight tame) (c : Context)
    (hc : c.isExceptional = false) :
    Metered straight tame (totalOf ops) c (evalArgs ops c).1 := by
  match ops with
  | [] => exact .free_of_normal rfl hc
  | op :: ops =>
    obtain ⟨hop, hops⟩ := List.forall_mem_append.mp hops
    rw [totalOf_cons, fst_evalArgs_cons]
    refine (Metered.nested hc (metered_eval op hop)).onResult fun _ hnext ↦ ?_
    exact metered_evalArgs ops hops _ hnext
termination_by structural ops

end

/-- **The price of an evaluation is known beforehand.** An evaluation takes at most the total of the
operation.  So an operation that does not call `fail` does not end for lack of juice if it is given
the total, and one without conditionals takes exactly the total if it ends normally.  What has been
used of a counter is what it lacks to its limit, so the same is said of what remains and of what has
been used. -/
theorem eval_within_total (op : Op) (c : Context) (hc : c.isExceptional = false) :
    c.juice.remaining ≤ (op.eval c).juice.remaining + op.total ∧
    (op.eval c).juice.used ≤ c.juice.used + op.total ∧
    (op.total ≤ c.juice.remaining → op.Avoids .fail → ¬ (op.eval c).outcome.HasCode .juice) ∧
    (op.IsStraight → (op.eval c).isExceptional = false →
      c.juice.remaining = (op.eval c).juice.remaining + op.total ∧
      (c.juice.remaining ≤ c.juice.limit →
        (op.eval c).juice.used = c.juice.used + op.total)) := by
  have hsuits : ∀ n ∈ op.nodes, n.Suits op.IsStraight (op.Avoids .fail) := by
    intro n hn
    cases n with
    | branch ops => exact fun hstraight ↦ hstraight ops hn
    | invoke f args =>
        rintro htame rfl
        exact htame args hn
    | _ => trivial
  have hmetered := metered_eval op hsuits c hc
  have hlimit : (op.eval c).juice.limit = c.juice.limit := op.limit_eval c
  have hmost := hmetered.atMost
  refine ⟨hmost, ?_, fun hjuice hfail ↦ hmetered.covered hfail hjuice, ?_⟩
  · rw [Juice.used, Juice.used, hlimit]
    omega
  · intro hstraight hnormal
    have hexact := hmetered.exactly hstraight hnormal
    refine ⟨hexact, fun hle ↦ ?_⟩
    rw [Juice.used, Juice.used, hlimit]
    omega

/-- A definition and a payment cost 310 together: with as much they end normally and with nothing
left, and with one less they run out.  A conditional takes less than its total. -/
theorem eval_within_total_payment :
    let c := Context.start (.genesis [100, 0]) ⟨0⟩ { juice := 310 }
    let op := sequence [define ⟨"x"⟩ (invoke .vector [constant (.long 1), constant (.long 2)]),
      invoke .transfer [constant (.address ⟨1⟩), constant (.long 5)]]
    let cond := branch [constant (.bool true), constant .nil, lookup ⟨"y"⟩]
    op.total = 310 ∧ op.Avoids .fail ∧ op.IsStraight ∧
    (op.eval c).outcome = .value (.long 5) ∧ (op.eval c).juice.remaining = 0 ∧
    ¬ (op.eval c).outcome.HasCode .juice ∧
    (op.eval (c.charge 1)).outcome.HasCode .juice ∧
    (cond.eval c).juice.used = 30 ∧ cond.total = 45 ∧
    (cond.eval c).juice.used ≤ c.juice.used + cond.total := by
  intro c op cond
  have htotal : op.total = 310 := by decide
  have hfail : op.Avoids .fail := by decide
  have hstraight : op.IsStraight := by decide
  have hvalue : (op.eval c).outcome = .value (.long 5) := by decide
  have hnormal : (op.eval c).isExceptional = false := Context.isExceptional_of_value hvalue
  obtain ⟨-, -, hcovered, hexact⟩ := eval_within_total op c rfl
  have hleft : c.juice.remaining = (op.eval c).juice.remaining + op.total :=
    (hexact hstraight hnormal).1
  have hfull : c.juice.remaining = 310 := by decide
  have hshort : (op.eval (c.charge 1)).outcome =
      .signal (.coded .juice "out of juice: needed 100, had 99") := by decide
  refine ⟨htotal, hfail, hstraight, hvalue, by omega, hcovered (by omega) hfail, ⟨_, hshort⟩,
    by decide, by decide, (eval_within_total cond c rfl).2.1⟩

end Op

end MeteredLedger

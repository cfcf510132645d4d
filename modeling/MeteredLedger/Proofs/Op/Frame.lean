import MeteredLedger.Proofs.Op.Effects
import MeteredLedger.Proofs.Op.Simulation

/-!
# What an evaluation leaves alone

An evaluation makes definitions, moves funds, sets holdings and takes juice.  Everything else in its
context is its frame: who executes it and on what terms, the time, and of every account the sequence
number and the stored definitions.  No effect touches the frame, so no evaluation does, wherever it
stops.  The depth is different, since effects do change it; here it matters that every step one
level deeper comes back, and that one which is not taken has not gone anywhere.
-/

namespace MeteredLedger

/-! ## The frame of a ledger -/

namespace Ledger

/-- Of every account, the sequence number and the stored definitions. -/
def records (s : Ledger Value) : List (Int64 × Map) :=
  s.accounts.map fun x ↦ (x.sequence, x.environment)

variable {s t : Ledger Value}

theorem length_records (s : Ledger Value) : s.records.length = s.accounts.length :=
  List.length_map _

/-- An account with the same sequence number and definitions may take the place of another. -/
theorem records_setAccount {a : Address} {x y : Account Value} (hx : s.account? a = some x)
    (hsequence : y.sequence = x.sequence) (henvironment : y.environment = x.environment) :
    (s.setAccount a y).records = s.records := by
  have hself : (s.setAccount a x).records = s.records := by rw [setAccount_eq_self hx]
  rw [← hself]
  simp only [records, setAccount, List.map_set, hsequence, henvironment]

/-- A holding is no part of the records. -/
theorem records_of_setHolding {a owner : Address} {v : Value}
    (h : s.setHolding a owner v = .ok t) : t.records = s.records := by
  obtain ⟨x, hx, rfl⟩ := setHolding_eq_ok h
  exact records_setAccount hx rfl rfl

/-- Balances are no part of the records. -/
theorem records_of_transfer {source target : Address} {amount : Int64}
    (h : s.transfer source target amount = .ok t) : t.records = s.records := by
  rcases transfer_eq_ok h with ⟨-, rfl⟩ | ⟨hne, x, y, hx, hy, -, -, -, rfl⟩
  · rfl
  · have hy' : (s.setAccount source { x with balance := x.balance - amount }).account? target =
        some y := by rw [account?_setAccount_of_ne hne.symm, hy]
    have hcredited :=
      records_setAccount hy' (y := { y with balance := y.balance + amount }) rfl rfl
    have hdebited := records_setAccount hx (y := { x with balance := x.balance - amount }) rfl rfl
    exact hcredited.trans hdebited

end Ledger

/-! ## The frame of a context -/

/-- What no evaluation touches, the depth aside. -/
structure Frame where
  address : Address
  origin : Address
  caller : Option Address
  offer : Int64
  sequence : Int64
  limits : Limits
  juiceLimit : Nat
  timestamp : Int64
  records : List (Int64 × Map)

def Context.frame (c : Context) : Frame where
  address := c.address
  origin := c.origin
  caller := c.caller
  offer := c.offer
  sequence := c.sequence
  limits := c.limits
  juiceLimit := c.juice.limit
  timestamp := c.ledger.timestamp
  records := c.ledger.records

/-- No effect touches the frame. -/
theorem Effect.frame_run (e : Effect) (c : Context) : (e.run c).frame = c.frame := by
  have hspares := e.spares_run c
  have hledger : (e.run c).ledger.timestamp = c.ledger.timestamp ∧
      (e.run c).ledger.records = c.ledger.records := by
    rcases hspares.ledger with h | ⟨target, amount, -, h⟩ | ⟨owner, v, -, h⟩
    · rw [h]
      exact ⟨rfl, rfl⟩
    · exact ⟨(Ledger.spends_of_transfer h).timestamp_eq, Ledger.records_of_transfer h⟩
    · exact ⟨(Ledger.spends_of_setHolding h).timestamp_eq, Ledger.records_of_setHolding h⟩
  simp only [Context.frame, hspares.address_eq, hspares.origin_eq, hspares.caller_eq,
    hspares.offer_eq, hspares.sequence_eq, hspares.limits_eq, hspares.juice_limit_eq, hledger]

theorem frame_of_mem_course {log : List Effect} {c d : Context} (hd : d ∈ course log c) :
    d.frame = c.frame :=
  rel_of_mem_course (R := fun c d ↦ d.frame = c.frame) (fun _ ↦ rfl) (fun h h' ↦ h'.trans h)
    Effect.frame_run hd

/-- A step that is made of effects keeps the frame. -/
theorem Effectual.frame_eq {f : Context → Context} (hf : Effectual f) (c : Context) :
    (f c).frame = c.frame := by
  obtain ⟨log, hlog⟩ := hf c
  rw [← hlog]
  exact frame_of_mem_course (replay_mem_course log c)

theorem Effectual.limits_eq {f : Context → Context} (hf : Effectual f) (c : Context) :
    (f c).limits = c.limits :=
  congrArg Frame.limits (hf.frame_eq c)

/-! ## The depth -/

/-- No function changes the level. -/
theorem Builtin.effect_ne_level (f : Builtin) (args : List Value) (c : Context) (n : Nat) :
    f.effect args c ≠ .level n := by
  rcases f.effect_cases args c with ⟨o, he⟩ | ⟨target, amount, he⟩ | ⟨owner, v, he⟩
  all_goals
    rw [he]
    nofun

theorem Builtin.depth_apply (f : Builtin) (args : List Value) (c : Context) :
    (f.apply args c).depth = c.depth := by
  rw [← f.run_effect args c]
  exact (Effect.spares_run _ c).depth_eq (f.effect_ne_level args c)

namespace Context

variable {c : Context} {n : Nat}

theorem depth_andThen {f : Context → Context} (hc : c.depth = n)
    (hf : c.isExceptional = false → (f c).depth = n) : (c.andThen f).depth = n :=
  andThen_elim (P := (·.depth = n)) (fun _ ↦ hc) hf

theorem depth_onResult {f : Context → Value → Context} (hc : c.depth = n)
    (hf : ∀ v, c.isExceptional = false → (f c v).depth = n) : (c.onResult f).depth = n :=
  onResult_elim (P := (·.depth = n)) (fun _ ↦ hc) hf

theorem depth_charge (c : Context) (amount : Nat) : (c.charge amount).depth = c.depth :=
  (Effect.spares_run (.charge amount) c).depth_eq nofun

theorem depth_undefine (c : Context) (s : Symbol) : (c.undefine s).depth = c.depth :=
  (Effect.spares_run (.undefine s) c).depth_eq nofun

theorem depth_lookup (c : Context) (s : Symbol) : (c.lookup s).depth = c.depth := by
  rw [← c.run_conclude_lookup s]
  rfl

/-- A step that is paid for ends at the depth of its caller, if the step itself does. -/
theorem depth_charged {f : Context → Context} (c : Context) (amount : Nat)
    (hf : ∀ d, d.depth = c.depth → d.isExceptional = false → (f d).depth = c.depth) :
    (c.charged amount f).depth = c.depth := by
  refine depth_andThen rfl fun _ ↦ ?_
  exact depth_andThen (c.depth_charge amount) (hf _ (c.depth_charge amount))

/-- A step one level deeper comes back, whatever it does there, and one that is refused has not
left. -/
theorem depth_nested (hc : c.isExceptional = false) (f : Context → Context) :
    (c.nested f).depth = c.depth := by
  unfold nested
  by_cases hdeep : c.limits.maxDepth ≤ c.depth
  · rw [descend, if_pos hdeep]
    rfl
  · have hinner : c.descend.isExceptional = false := by
      rw [descend, if_neg hdeep]
      exact hc
    rw [andThen_of_normal hinner]

end Context

namespace Op

open Context

/-- Each of a list of operations comes back before the next one is evaluated. -/
theorem depth_evalSequence (ops : List Op) (c : Context) (hc : c.isExceptional = false) :
    (evalSequence ops c).depth = c.depth := by
  induction ops generalizing c with
  | nil => rfl
  | cons op ops ih =>
      have hop := depth_nested hc op.eval
      exact depth_andThen hop fun hnext ↦ (ih _ hnext).trans hop

/-- Whichever branch is taken, it comes back. -/
theorem depth_evalBranches (ops : List Op) (c : Context) (hc : c.isExceptional = false) :
    (evalBranches ops c).depth = c.depth := by
  cases ops with
  | nil => rfl
  | cons test ops =>
      have htest := depth_nested hc test.eval
      cases ops with
      | nil => exact htest
      | cons expr rest =>
          refine depth_onResult htest fun v hnext ↦ ?_
          split
          · exact (depth_nested hnext expr.eval).trans htest
          · exact (depth_evalBranches rest _ hnext).trans htest
termination_by structural ops

/-- Each argument comes back before the next one is evaluated. -/
theorem depth_evalArgs (ops : List Op) (c : Context) (hc : c.isExceptional = false) :
    (evalArgs ops c).1.depth = c.depth := by
  induction ops generalizing c with
  | nil => rfl
  | cons op ops ih =>
      have hop := depth_nested hc op.eval
      rw [fst_evalArgs_cons]
      exact depth_onResult hop fun _ hnext ↦ (ih _ hnext).trans hop

/-- An evaluation ends at the depth at which it began. -/
theorem depth_eval (op : Op) (c : Context) : (op.eval c).depth = c.depth := by
  unfold eval
  refine c.depth_charged op.cost fun d hd hnormal ↦ ?_
  rw [← hd]
  cases op with
  | constant v => rfl
  | lookup s => exact d.depth_lookup s
  | define s body =>
      have hbody := depth_nested hnormal body.eval
      exact depth_onResult hbody fun _ _ ↦ hbody
  | undefine s => exact d.depth_undefine s
  | sequence ops => exact depth_evalSequence ops (d.produce .nil) rfl
  | branch ops => exact depth_evalBranches ops d hnormal
  | invoke f args =>
      have hargs := depth_evalArgs args d hnormal
      refine depth_andThen hargs fun _ ↦ ?_
      rw [← hargs]
      refine depth_charged _ _ fun e he _ ↦ ?_
      rw [f.depth_apply, he]

/-- An exceptional context is handed on as it is. -/
theorem eval_of_exceptional (op : Op) {c : Context} (hc : c.isExceptional = true) :
    op.eval c = c := by
  unfold eval
  exact andThen_of_exceptional hc _

/-- An evaluation keeps the frame. -/
theorem frame_eval (op : Op) (c : Context) : (op.eval c).frame = c.frame :=
  (Effectual.eval op).frame_eq c

/-- **Evaluations keep their frame.** However an evaluation ends, it ends at the depth at which it
began, and nothing has changed in who executes it, on what terms and within what limits.  The time
of the ledger, the number of its accounts, and every sequence number and all stored definitions are
the same.  And an exceptional context is not touched at all. -/
theorem eval_framed (op : Op) (c : Context) :
    ((op.eval c).depth = c.depth ∧ (op.eval c).address = c.address ∧
      (op.eval c).origin = c.origin ∧ (op.eval c).caller = c.caller ∧
      (op.eval c).offer = c.offer ∧ (op.eval c).sequence = c.sequence ∧
      (op.eval c).limits = c.limits ∧ (op.eval c).juice.limit = c.juice.limit) ∧
    ((op.eval c).ledger.timestamp = c.ledger.timestamp ∧
      (op.eval c).ledger.accounts.length = c.ledger.accounts.length ∧
      ∀ i : Nat,
        (op.eval c).ledger.accounts[i]?.map (·.sequence) =
          c.ledger.accounts[i]?.map (·.sequence) ∧
        (op.eval c).ledger.accounts[i]?.map (·.environment) =
          c.ledger.accounts[i]?.map (·.environment)) ∧
    (c.isExceptional = true → op.eval c = c) := by
  have hframe := op.frame_eval c
  have hrecords : (op.eval c).ledger.records = c.ledger.records := congrArg Frame.records hframe
  refine ⟨⟨op.depth_eval c, congrArg Frame.address hframe, congrArg Frame.origin hframe,
    congrArg Frame.caller hframe, congrArg Frame.offer hframe, congrArg Frame.sequence hframe,
    congrArg Frame.limits hframe, congrArg Frame.juiceLimit hframe⟩,
    ⟨congrArg Frame.timestamp hframe, ?_, ?_⟩, op.eval_of_exceptional⟩
  · rw [← Ledger.length_records, hrecords, Ledger.length_records]
  · intro i
    have hrecord : (op.eval c).ledger.accounts[i]?.map (fun x ↦ (x.sequence, x.environment)) =
        c.ledger.accounts[i]?.map (fun x ↦ (x.sequence, x.environment)) := by
      rw [← List.getElem?_map, ← List.getElem?_map]
      exact congrArg (·[i]?) hrecords
    constructor
    · have hsequence := congrArg (Option.map Prod.fst) hrecord
      rwa [Option.map_map, Option.map_map] at hsequence
    · have henvironment := congrArg (Option.map Prod.snd) hrecord
      rwa [Option.map_map, Option.map_map] at henvironment

/-- An operation that has set a holding and then goes too deep, three levels down, ends where it
began and with the offer it began with.  Evaluated once more, it does nothing. -/
theorem eval_framed_too_deep :
    let c := { Context.start (.genesis [100, 0]) ⟨0⟩ { maxDepth := 3 } with depth := 1, offer := 7 }
    let op := sequence [invoke .setHolding [constant (.address ⟨1⟩), constant (.long 5)],
      sequence [sequence [constant .nil]]]
    (op.eval c).outcome = .signal (.coded .depth "max depth 3 exceeded") ∧
    (op.eval c).ledger.holding? ⟨0⟩ ⟨1⟩ = some (.long 5) ∧
    (op.eval c).depth = 1 ∧ (op.eval c).offer = 7 ∧
    (op.eval c).ledger.accounts.length = 2 ∧ op.eval (op.eval c) = op.eval c := by
  intro c op
  have houtcome : (op.eval c).outcome = .signal (.coded .depth "max depth 3 exceeded") := by decide
  obtain ⟨⟨hdepth, -, -, -, hoffer, -⟩, ⟨-, hlength, -⟩, -⟩ := eval_framed op c
  refine ⟨houtcome, by decide, hdepth, hoffer, hlength, (eval_framed op (op.eval c)).2.2 ?_⟩
  exact isExceptional_of_signal houtcome

end Op

end MeteredLedger

import MeteredLedger.Machine.Special
import MeteredLedger.Op.Builtins
import MeteredLedger.Op.Cost

/-!
# Evaluation

Every operation is charged before it runs, and its parts run one level deeper.  A context that is
exceptional is handed on as it is, so the first signal ends the evaluation.
-/

namespace MeteredLedger

namespace Context

/-- Goes on unless the context is exceptional. -/
def andThen (c : Context) (step : Context → Context) : Context :=
  if c.isExceptional then c else step c

/-- Goes on with the result unless the context is exceptional. -/
def onResult (c : Context) (step : Context → Value → Context) : Context :=
  match c.outcome with
  | .value v => step c v
  | .signal _ => c

/-- Runs a step after it has been paid for. -/
def charged (c : Context) (amount : Nat) (step : Context → Context) : Context :=
  c.andThen fun c ↦ (c.charge amount).andThen step

/-- Runs a step one level deeper and comes back to the depth of the caller. -/
def nested (c : Context) (step : Context → Context) : Context :=
  c.descend.andThen fun inner ↦ { step inner with depth := c.depth }

end Context

namespace Op

mutual

/-- Evaluates an operation in a context. -/
def eval (op : Op) (c : Context) : Context :=
  c.charged op.cost fun c ↦
    match op with
    | constant v => c.produce v
    | lookup s => c.lookup s
    | define s body => (c.nested (eval body)).onResult fun c v ↦ (c.define s v).produce v
    | undefine s => (c.undefine s).produce .nil
    | sequence ops => evalSequence ops (c.produce .nil)
    | branch ops => evalBranches ops c
    | invoke f args =>
      let evaluated := evalArgs args c
      evaluated.1.andThen fun c ↦
        c.charged (f.applyCost evaluated.2.length) (f.apply evaluated.2)
termination_by structural op

/-- Evaluates one operation after the other, up to the first signal. -/
def evalSequence (ops : List Op) (c : Context) : Context :=
  match ops with
  | [] => c
  | op :: ops => (c.nested (eval op)).andThen (evalSequence ops)
termination_by structural ops

/-- Evaluates tests in turn until one is true, and then its expression; an operation left over
is the default. -/
def evalBranches (ops : List Op) (c : Context) : Context :=
  match ops with
  | [] => c.produce .nil
  | [default] => c.nested (eval default)
  | test :: expr :: rest =>
    (c.nested (eval test)).onResult fun c v ↦
      if v.truthy then c.nested (eval expr) else evalBranches rest c
termination_by structural ops

/-- Evaluates arguments from left to right, up to the first signal, and collects the results. -/
def evalArgs (ops : List Op) (c : Context) : Context × List Value :=
  match ops with
  | [] => (c, [])
  | op :: ops =>
    let next := c.nested (eval op)
    match next.outcome with
    | .signal _ => (next, [])
    | .value v =>
      let rest := evalArgs ops next
      (rest.1, v :: rest.2)
termination_by structural ops

end

end Op

end MeteredLedger

import MeteredLedger.Engine.Basic
import MeteredLedger.Sharing.Revision

/-!
# Lineages of contexts

Contexts are shared too, and so are the ledger and the environment in them: a host can ask
whether two contexts hold the very same ledger.  A tracked context carries a mark for each of
these, and every operation says which marks it keeps; a part that is built anew gets a mark that
no other part has.  The environment that an account has stored is marked as well, since a context
that runs as the account takes over that very environment, and committing a transaction stores
the context's own.
-/

namespace MeteredLedger

/-- What tells one build of a context, ledger or environment from all others. -/
abbrev Mark := Nat

/-- Computations that use up marks. -/
abbrev Marking := StateM Mark

def Marking.fresh : Marking Mark := modifyGet fun n ↦ (n, n + 1)

/-- A ledger with its mark and those of the environments that its accounts have stored. -/
structure TrackedLedger where
  ledger : Ledger Value
  mark : Mark
  stored : List Mark

/-- A context with its mark and those of its parts. -/
structure Tracked where
  context : Context
  mark : Mark
  ledgerMark : Mark
  /-- The marks of the environments that the ledger's accounts have stored. -/
  stored : List Mark
  environmentMark : Mark

namespace TrackedLedger

/-- A ledger that was not there before. -/
def new (s : Ledger Value) : Marking TrackedLedger := do
  let mark ← Marking.fresh
  let stored ← s.accounts.mapM fun _ ↦ Marking.fresh
  return ⟨s, mark, stored⟩

end TrackedLedger

namespace Tracked

/-- The mark of the environment that an account has stored.  That of an unknown account is empty,
and empty environments need no mark. -/
def storedMark (stored : List Mark) (a : Address) : Mark := stored[a.toNat]?.getD 0

def ledgerOf (t : Tracked) : TrackedLedger := ⟨t.context.ledger, t.ledgerMark, t.stored⟩

/-- Both hold the very same environment. -/
def sameEnvironment (t u : Tracked) : Bool :=
  SharedEmpty.bothEmpty t.context.environment u.context.environment
    || t.environmentMark == u.environmentMark

/-- Both hold the very same ledger. -/
def sameLedger (t u : Tracked) : Bool := t.ledgerMark == u.ledgerMark

/-- Both are the very same context. -/
def sameContext (t u : Tracked) : Bool := t.mark == u.mark

/-- A context over a new ledger. -/
def start (s : Ledger Value) (a : Address) (limits : Limits) : Marking Tracked := do
  let l ← TrackedLedger.new s
  return ⟨.start s a limits, ← Marking.fresh, l.mark, l.stored, storedMark l.stored a⟩

/-- An operation that makes a new context, and new parts where it touches them. -/
def step (t : Tracked) (f : Context → Context) : Marking Tracked := do
  let c := f t.context.settled
  let mark ← Marking.fresh
  let ledgerMark ← if c.touched.ledger then Marking.fresh else pure t.ledgerMark
  let environmentMark ← if c.touched.environment then Marking.fresh else pure t.environmentMark
  return { t with context := c, mark, ledgerMark, environmentMark }

/-- An operation that may fail. -/
def step? {ε : Type} (t : Tracked) (f : Context → Except ε Context) : Marking (Except ε Tracked) :=
  match f t.context.settled with
  | .error e => return .error e
  | .ok c => return .ok (← t.step fun _ ↦ c)

/-- Changes to an account, with the environment that it has stored. -/
def actAs (t : Tracked) (a : Address) : Marking Tracked := do
  let u ← t.step (·.actAs a)
  return { u with environmentMark := storedMark t.stored a }

/-- Moves to a ledger; a context that is on it already is kept. -/
def moveTo (t : Tracked) (l : TrackedLedger) : Marking Tracked := do
  if l.mark = t.ledgerMark then return t
  let u ← t.step ({ · with ledger := l.ledger })
  return { u with ledgerMark := l.mark, stored := l.stored }

/-- Takes an environment over; a context that has it already is kept. -/
def adopt (t : Tracked) (e : Environment) (mark : Mark) : Marking Tracked := do
  if SharedEmpty.bothEmpty e t.context.environment || mark == t.environmentMark then return t
  let u ← t.step ({ · with environment := e })
  return { u with environmentMark := mark }

/-- Goes to a depth; a context that is there already is kept. -/
def atDepth (t : Tracked) (depth : Nat) : Marking Tracked :=
  if depth = t.context.depth then return t else t.step ({ · with depth })

/-- Takes a binding away; a context without it is kept. -/
def undefine (t : Tracked) (s : Symbol) : Marking Tracked :=
  if t.context.environment.isDefined s then t.step (·.undefine s) else return t

/-- Evaluates an operation; an exceptional context is kept. -/
def eval (t : Tracked) (op : Op) : Marking Tracked :=
  if t.context.isExceptional then return t else t.step op.eval

/-- Settles a transaction with this context as its base.  The mark is that of the ledger it settles
to. -/
def settle (t : Tracked) (tx : Transaction) : Marking (Tracked × Mark) := do
  let settlement := tx.settle t.context
  let c := settlement.context
  let mark ← Marking.fresh
  let environmentMark ←
    if c.touched.environment then Marking.fresh else pure (storedMark t.stored tx.origin)
  match settlement.disposition with
  | .committed =>
    let ledgerMark ← Marking.fresh
    let stored := t.stored.set tx.origin.toNat environmentMark
    return (⟨c, mark, ledgerMark, stored, environmentMark⟩, ledgerMark)
  | _ => return (⟨c, mark, t.ledgerMark, t.stored, environmentMark⟩, t.ledgerMark)

end Tracked

namespace Settlement

/-- The ledger is the very one that the transaction was settled against. -/
def keepsLedger (s : Settlement) : Bool := s.disposition != .committed

/-- The context is on the very ledger that the transaction settled to. -/
def contextOnLedger (s : Settlement) : Bool := s.context.ledger == s.ledger

end Settlement

namespace Engine

/-- Executing a transaction leaves the very ledger that was committed before. -/
def transactionKeepsLedger (e : Engine) (tx : Transaction) : Bool := (e.execute tx).2.keepsLedger

/-- Executing a block leaves the very ledger that was committed before. -/
def blockKeepsLedger (e : Engine) (timestamp : Int64) (txs : List Transaction) : Bool :=
  (e.ledger.reviseTimestamp timestamp).same &&
    (e.executeBlock timestamp txs).2.all (·.keepsLedger)

end Engine

end MeteredLedger

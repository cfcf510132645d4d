import MeteredLedger.Proofs.Op.Simulation

/-!
# The terms of an execution

The juice, the limits, the offer and the sequence number of a context are its terms.  The evaluator
reads them in few places: it charges juice, it compares the depth with its limit, and three special
variables give them to the program.  So contexts that differ in their terms only go on alike, as far
as these places agree.
-/

namespace MeteredLedger

structure Terms where
  juice : Juice
  limits : Limits
  offer : Int64
  sequence : Int64

namespace Context

def terms (c : Context) : Terms := ⟨c.juice, c.limits, c.offer, c.sequence⟩

/-- The context on other terms. -/
def onTerms (c : Context) (t : Terms) : Context :=
  { c with juice := t.juice, limits := t.limits, offer := t.offer, sequence := t.sequence }

/-- A charge changes the juice and no other of the terms. -/
theorem terms_charge (c : Context) (n : Nat) :
    (c.charge n).terms = { c.terms with juice := c.juice.charge n } := by
  unfold charge
  split <;> rfl

end Context

/-- The contexts differ in their terms only, which are related by `T`. -/
def Alike (T : Terms → Terms → Prop) (c d : Context) : Prop :=
  ∃ t, T c.terms t ∧ d = c.onTerms t

/-! ## What does not depend on the terms -/

namespace Effect

variable {e : Effect}

/-- Only charges change the terms. -/
theorem terms_run (he : e.IsFree) (c : Context) : (e.run c).terms = c.terms := by
  have hspares := e.spares_run c
  simp only [Context.terms, hspares.juice_eq he, hspares.limits_eq, hspares.offer_eq,
    hspares.sequence_eq]

/-- An effect that is no charge does not look at the terms. -/
theorem run_onTerms (he : e.IsFree) (c : Context) (t : Terms) :
    e.run (c.onTerms t) = (e.run c).onTerms t := by
  cases e with
  | charge n => exact he.elim
  | undefine s =>
      simp only [run, Context.undefine, apply_ite (Context.onTerms · t)]
      rfl
  | transfer target amount =>
      simp only [run, Context.transfer, Context.onTerms]
      cases c.ledger.transfer c.address target amount <;> rfl
  | setHolding owner v =>
      simp only [run, Context.setHolding, Context.onTerms]
      cases c.ledger.setHolding c.address owner v <;> rfl
  | _ => rfl

end Effect

namespace Builtin

theorem isFree_effect (f : Builtin) (args : List Value) (c : Context) :
    (f.effect args c).IsFree := by
  rcases f.effect_cases args c with ⟨o, he⟩ | ⟨target, amount, he⟩ | ⟨owner, v, he⟩
  all_goals
    rw [he]
    trivial

/-- No function looks at the terms to find its effect. -/
theorem effect_onTerms (f : Builtin) (args : List Value) (c : Context) (t : Terms) :
    f.effect args (c.onTerms t) = f.effect args c := by
  cases f with
  | balance =>
      have harg : balanceArg (c.onTerms t) args = balanceArg c args := rfl
      simp only [effect, apply, harg]
      cases balanceArg c args <;> rfl
  | _ => rfl

end Builtin

/-- Only the special variables for juice, offer and sequence number show the terms. -/
theorem Special.valueIn_onTerms (s : Special) {c : Context} {t : Terms}
    (hjuice : s = .juice → t.juice = c.juice) (hoffer : s = .offer → t.offer = c.offer)
    (hsequence : s = .sequence → t.sequence = c.sequence) :
    s.valueIn (c.onTerms t) = s.valueIn c := by
  cases s with
  | juice => simp only [valueIn, Context.onTerms, hjuice rfl]
  | offer => simp only [valueIn, Context.onTerms, hoffer rfl]
  | sequence => simp only [valueIn, Context.onTerms, hsequence rfl]
  | _ => rfl

/-- A lookup comes to the same if the special variable does that it stands for. -/
theorem Context.outcome_lookup_onTerms {c : Context} {t : Terms} {s : Symbol}
    (h : ∀ special, Special.ofSymbol? s = some special →
      special.valueIn (c.onTerms t) = special.valueIn c) :
    ((c.onTerms t).lookup s).outcome = (c.lookup s).outcome := by
  unfold lookup
  cases hs : Special.ofSymbol? s with
  | some special => exact congrArg Outcome.value (h special hs)
  | none =>
      have henv : (c.onTerms t).environment = c.environment := rfl
      rw [henv]
      cases c.environment.lookup? s <;> rfl

/-! ## Contexts that differ in their terms -/

namespace Alike

variable {T : Terms → Terms → Prop} {c d : Context}

theorem run {e : Effect} (he : e.IsFree) (h : Alike T c d) : Alike T (e.run c) (e.run d) := by
  obtain ⟨t, ht, rfl⟩ := h
  exact ⟨t, e.terms_run he c ▸ ht, e.run_onTerms he c t⟩

theorem apply (f : Builtin) (args : List Value) (h : Alike T c d) :
    Alike T (f.apply args c) (f.apply args d) := by
  have heffect : f.effect args d = f.effect args c := by
    obtain ⟨t, -, rfl⟩ := h
    exact f.effect_onTerms args c t
  rw [← f.run_effect args c, ← f.run_effect args d, heffect]
  exact h.run (f.isFree_effect args c)

/-- Contexts with the same limit of the depth go down alike, or are both refused. -/
theorem descend (hT : ∀ {t t'}, T t t' → t'.limits.maxDepth = t.limits.maxDepth)
    (h : Alike T c d) : Alike T c.descend d.descend := by
  obtain ⟨t, ht, rfl⟩ := h
  have hmax : (c.onTerms t).limits.maxDepth = c.limits.maxDepth := hT ht
  have hdepth : (c.onTerms t).depth = c.depth := rfl
  unfold Context.descend
  rw [hmax, hdepth]
  split
  · exact ⟨t, ht, rfl⟩
  · exact ⟨t, ht, rfl⟩

/-- An operation goes on alike if the terms agree that it looks up. -/
theorem respects {op : Op}
    (hjuice : ¬ op.Ignores .juice → ∀ {t t'}, T t t' → t'.juice = t.juice)
    (hoffer : ¬ op.Ignores .offer → ∀ {t t'}, T t t' → t'.offer = t.offer)
    (hsequence : ¬ op.Ignores .sequence → ∀ {t t'}, T t t' → t'.sequence = t.sequence) :
    ∀ n ∈ op.nodes, n.Respects (Alike T) := by
  intro n hn
  cases n with
  | lookup s =>
      rintro c d ⟨t, ht, rfl⟩
      refine (Context.outcome_lookup_onTerms fun special hs ↦ ?_).symm
      have hlooked : ¬ op.Ignores special := fun h ↦ h.ofSymbol?_ne hn hs
      apply special.valueIn_onTerms
      · rintro rfl
        exact hjuice hlooked ht
      · rintro rfl
        exact hoffer hlooked ht
      · rintro rfl
        exact hsequence hlooked ht
  | invoke f args => exact fun args c d hcd ↦ hcd.apply f args
  | _ => trivial

/-- It remains to look at charges and at the limit of the depth. -/
theorem simulation {Lost : Context → Context → Prop}
    (hcharge : ∀ {c d} n, c.isExceptional = false → Alike T c d →
      Simulation.Ends (Alike T) Lost (c.charge n) (d.charge n))
    (hdescend : ∀ {c d}, Alike T c d → Simulation.Ends (Alike T) Lost c.descend d.descend)
    (hexceptional : ∀ {c d}, Lost c d → c.isExceptional = true)
    (hlevel : ∀ {c d} (n : Nat), Lost c d → Lost { c with depth := n } d)
    (hrun : ∀ {c d} (e : Effect), Lost c d → Lost c (e.run d)) :
    Simulation (Alike T) Lost where
  outcome_eq := by rintro c d ⟨t, -, rfl⟩; rfl
  depth_eq := by rintro c d ⟨t, -, rfl⟩; rfl
  conclude o h := h.run (e := .conclude o) trivial
  level n h := h.run (e := .level n) trivial
  define s v h := h.run (e := .define s v) trivial
  undefine s h := h.run (e := .undefine s) trivial
  charge := hcharge
  descend := hdescend
  exceptional := hexceptional
  lost_level := hlevel
  lost_run := hrun

end Alike

end MeteredLedger

import MeteredLedger.Proofs.Op.Frame

/-!
# The calls of an evaluation

The evaluator calls itself for every part that it comes to.  An instrument puts the contexts of
these calls on record, in order and with that of the first call at the front, and otherwise takes
the steps of the evaluator as they are.  No step but the way down brings a context nearer to the
limit of the depth, and the way down is refused at the limit, so all calls on record lie within it.
-/

namespace MeteredLedger

/-- A context, and the contexts in which operations were evaluated on the way to it. -/
structure Traced where
  context : Context
  calls : List Context

/-- The steps of the evaluator as they are, with a record of its calls. -/
def tracing : Instrument (Writer (List Context)) where
  __ := Instrument.plain
  call := do tell [← get]

/-- Evaluates an operation in a context and records all calls. -/
def Op.evalTraced (op : Op) (c : Context) : Traced :=
  let traced := ((op.evalWith tracing).run c).run
  ⟨traced.1.2, traced.2⟩

/-! ## Contexts within the limit -/

/-- The limits are these, and the context is not deeper than they allow. -/
structure Context.Within (limits : Limits) (c : Context) : Prop where
  limits_eq : c.limits = limits
  depth_le : c.depth ≤ limits.maxDepth

namespace Context.Within

variable {limits : Limits} {c : Context}

/-- The limits stay, and so does the depth unless the effect is a change of level. -/
theorem run (h : c.Within limits) {e : Effect} (he : ∀ n, e ≠ .level n) :
    (e.run c).Within limits where
  limits_eq := (e.spares_run c).limits_eq.trans h.limits_eq
  depth_le := by
    rw [(e.spares_run c).depth_eq he]
    exact h.depth_le

theorem lookup (h : c.Within limits) (s : Symbol) : (c.lookup s).Within limits := by
  rw [← c.run_conclude_lookup s]
  exact h.run nofun

theorem apply (h : c.Within limits) (f : Builtin) (args : List Value) :
    (f.apply args c).Within limits := by
  rw [← f.run_effect args c]
  exact h.run (f.effect_ne_level args c)

/-- The way down is refused at the limit. -/
theorem descend (h : c.Within limits) : c.descend.Within limits := by
  obtain ⟨rfl, hdepth⟩ := h
  by_cases hdeep : c.limits.maxDepth ≤ c.depth
  · rw [Context.descend, if_pos hdeep]
    exact ⟨rfl, hdepth⟩
  · rw [Context.descend, if_neg hdeep]
    exact ⟨rfl, Nat.not_le.mp hdeep⟩

end Context.Within

/-! ## Calls within the limit -/

/-- From a context within the limit, all calls and the end lie within it. -/
def bounding (limits : Limits) : Reading (Writer (List Context)) :=
  .recording
    (fun c calls d ↦ c.Within limits → d.Within limits ∧ ∀ x ∈ calls, x.Within limits)
    (fun _ h ↦ ⟨h, nofun⟩)
    (fun h h' hc ↦
      have ⟨hd, hcalls⟩ := h hc
      have ⟨he, hcalls'⟩ := h' hd
      ⟨he, List.forall_mem_append.mpr ⟨hcalls, hcalls'⟩⟩)

/-- The step comes to this, whatever the calls on its record. -/
def unbounding : Reading (Writer (List Context)) :=
  .recording (fun _ _ _ ↦ True) (fun _ ↦ trivial) (fun _ _ ↦ trivial)

section Bounding

variable {limits : Limits} {f : Context → Context} {c : Context}

/-- A step of the evaluator as it is makes no call. -/
theorem comes_modify (h : c.Within limits → (f c).Within limits) :
    (bounding limits).Comes (modify f) c () (f c) :=
  ⟨[], rfl, fun hc ↦ ⟨h hc, nofun⟩⟩

/-- A step one level deeper comes back to the depth of its caller, which is within the limit if it
was before. -/
theorem comes_nested_tracing {step : StateT Context (Writer (List Context)) Unit}
    (hstep : ∀ c, (bounding limits).Comes step c () (f c)) (c : Context) :
    (bounding limits).Comes (tracing.nested step) c () (c.nested f) := by
  by_cases hc : c.Within limits
  · refine Reading.comes_nested (comes_modify fun hc ↦ hc.descend) (fun d ↦ ?_) hstep
    exact comes_modify fun hd ↦ ⟨hd.limits_eq, hc.depth_le⟩
  · -- Of a step that begins elsewhere nothing is said but what it comes to.
    have hstep' (c : Context) : unbounding.Comes step c () (f c) := by
      obtain ⟨calls, hrun, -⟩ := hstep c
      exact ⟨calls, hrun, trivial⟩
    obtain ⟨calls, hrun, -⟩ : unbounding.Comes (tracing.nested step) c () (c.nested f) :=
      Reading.comes_nested ⟨[], rfl, trivial⟩ (fun d ↦ ⟨[], rfl, trivial⟩) hstep'
    exact ⟨calls, hrun, fun h ↦ absurd h hc⟩

/-- The one call on record is that of the node itself. -/
theorem sound_tracing (limits : Limits) : tracing.Sound (bounding limits) where
  call c := ⟨[c], rfl, fun hc ↦ ⟨hc, List.forall_mem_singleton.mpr hc⟩⟩
  result hc := ⟨[], Reading.run_plain_result hc, fun h ↦ ⟨h, nofun⟩⟩
  produce v _ := comes_modify fun hc ↦ hc.run (e := .conclude (.value v)) nofun
  nested := comes_nested_tracing

/-- No step that a node takes by itself is a change of level. -/
theorem soundIn_tracing (op : Op) : op.SoundIn tracing (bounding limits) where
  cost _ := comes_modify fun hc ↦ hc.run (e := .charge op.cost) nofun
  lookup s _ _ := comes_modify fun hc ↦ hc.lookup s
  define s _ v _ _ := comes_modify fun hc ↦ hc.run (e := .define s v) nofun
  undefine s _ _ := comes_modify fun hc ↦ hc.run (e := .undefine s) nofun
  applyCost f _ argc _ _ := comes_modify fun hc ↦ hc.run (e := .charge (f.applyCost argc)) nofun
  apply f _ args _ _ := comes_modify fun hc ↦ hc.apply f args

end Bounding

namespace Op

variable (op : Op) (c : Context)

/-- The record of an evaluation and its end, which is that of the evaluator. -/
theorem exists_run_evalTraced (limits : Limits) :
    ∃ calls, op.evalTraced c = ⟨op.eval c, calls⟩ ∧
      (c.Within limits → ∀ d ∈ calls, d.Within limits) := by
  obtain ⟨calls, hrun, hwithin⟩ :=
    Reading.comes_evalWith (sound_tracing limits) op (fun n _ ↦ soundIn_tracing n) c
  refine ⟨calls, ?_, fun hc ↦ (hwithin hc).2⟩
  rw [evalTraced, hrun]

/-- Without the record it is the evaluator. -/
theorem context_evalTraced : (op.evalTraced c).context = op.eval c := by
  obtain ⟨calls, htraced, -⟩ := op.exists_run_evalTraced c c.limits
  rw [htraced]

/-- An evaluation is its own first call. -/
theorem mem_calls_evalTraced : c ∈ (op.evalTraced c).calls := by
  unfold evalTraced evalWith
  exact List.mem_cons_self

/-- An evaluation that begins within the limit makes all its calls there. -/
theorem within_calls_evalTraced (hdepth : c.depth ≤ c.limits.maxDepth) :
    ∀ d ∈ (op.evalTraced c).calls, d.Within c.limits := by
  obtain ⟨calls, htraced, hwithin⟩ := op.exists_run_evalTraced c c.limits
  rw [htraced]
  exact hwithin ⟨rfl, hdepth⟩

end Op

end MeteredLedger

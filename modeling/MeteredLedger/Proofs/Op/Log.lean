import MeteredLedger.Proofs.Machine.Effect
import MeteredLedger.Proofs.Op.Instrument

/-!
# Evaluations as logs of effects

`Op.log` lists the effects of an evaluation in order, as an instrument puts them on record.  Making
them one after the other is the evaluation, so what every effect keeps, every evaluation keeps.  And
every effect is that of one node of the operation: `Emits` says which effects a node can have by
itself, so what these effects keep is kept by the evaluation of every operation that is made of such
nodes, from its first context to its last.
-/

namespace MeteredLedger

/-! ## The effects of the steps -/

/-- The one effect of applying a function. -/
def Builtin.effect (f : Builtin) (args : List Value) (c : Context) : Effect :=
  match f with
  | transfer =>
    match transferArgs args with
    | .ok (target, amount) => .transfer target amount
    | .error s => .conclude (.signal s)
  | setHolding =>
    match holdingArgs args with
    | .ok (owner, v) => .setHolding owner v
    | .error s => .conclude (.signal s)
  | f => .conclude (f.apply args c).outcome

/-- Applying a function is having its effect. -/
theorem Builtin.run_effect (f : Builtin) (args : List Value) (c : Context) :
    (f.effect args c).run c = f.apply args c := by
  cases f with
  | transfer => simp only [effect, apply]; cases transferArgs args <;> rfl
  | setHolding => simp only [effect, apply]; cases holdingArgs args <;> rfl
  | balance => simp only [effect, apply]; cases balanceArg c args <;> rfl
  | _ => rfl

/-- A function comes to an outcome, or it moves funds or sets a holding. -/
theorem Builtin.effect_cases (f : Builtin) (args : List Value) (c : Context) :
    (∃ o, f.effect args c = .conclude o) ∨
    (∃ target amount, f.effect args c = .transfer target amount) ∨
    ∃ owner v, f.effect args c = .setHolding owner v := by
  cases f with
  | transfer =>
      simp only [effect]
      cases transferArgs args with
      | ok p => exact .inr (.inl ⟨_, _, rfl⟩)
      | error s => exact .inl ⟨_, rfl⟩
  | setHolding =>
      simp only [effect]
      cases holdingArgs args with
      | ok p => exact .inr (.inr ⟨_, _, rfl⟩)
      | error s => exact .inl ⟨_, rfl⟩
  | _ => exact .inl ⟨_, rfl⟩

/-- A lookup only comes to an outcome. -/
theorem Context.run_conclude_lookup (c : Context) (s : Symbol) :
    (Effect.conclude (c.lookup s).outcome).run c = c.lookup s := by
  unfold Context.lookup
  split
  · rfl
  · split <;> rfl

/-- The effect of going one level deeper.  A level that is too deep is not entered. -/
def Context.descent (c : Context) : Effect :=
  if c.limits.maxDepth ≤ c.depth then .conclude c.descend.outcome else .level (c.depth + 1)

/-- Going one level deeper is an effect, whether the level is entered or not. -/
theorem Context.run_descent (c : Context) : c.descent.run c = c.descend := by
  by_cases hdeep : c.limits.maxDepth ≤ c.depth
  · simp only [descent, if_pos hdeep, Effect.run, descend]
    rfl
  · simp only [descent, if_neg hdeep, Effect.run, descend]

/-! ## The log of an evaluation -/

/-- Has an effect and puts it on record. -/
def emit (e : Context → Effect) : StateT Context (Writer (List Effect)) Unit := do
  let c ← get
  tell [e c]
  set ((e c).run c)

/-- The steps of the evaluator as effects. -/
def logging : Instrument (Writer (List Effect)) where
  call := pure ()
  charge amount := emit fun _ ↦ .charge amount
  descend := emit Context.descent
  ascend depth := emit fun _ ↦ .level depth
  result := Instrument.plain.result
  produce v := emit fun _ ↦ .conclude (.value v)
  lookup s := emit fun c ↦ .conclude (c.lookup s).outcome
  define s v := emit fun _ ↦ .define s v
  undefine s := emit fun _ ↦ .undefine s
  apply f args := emit (f.effect args)

/-- The effects of an evaluation, in order. -/
def Op.log (op : Op) (c : Context) : List Effect := ((op.evalWith logging).run c).run.2

/-! ## Where effects come from -/

/-- An effect that a node has by itself, its parts aside. -/
inductive Op.Emits : Op → Effect → Prop
  | cost (op : Op) : Emits op (.charge op.cost)
  | level (op : Op) (depth : Nat) : Emits op (.level depth)
  /-- A node that would lie too deep is not entered. -/
  | tooDeep (op : Op) {c : Context} (h : c.limits.maxDepth ≤ c.depth) :
      Emits op (.conclude c.descend.outcome)
  | produce (op : Op) (v : Value) : Emits op (.conclude (.value v))
  | lookup (s : Symbol) (c : Context) : Emits (.lookup s) (.conclude (c.lookup s).outcome)
  | define (s : Symbol) (body : Op) (v : Value) : Emits (.define s body) (.define s v)
  | undefine (s : Symbol) : Emits (.undefine s) (.undefine s)
  | applyCost (f : Builtin) (ops : List Op) (argc : Nat) :
      Emits (.invoke f ops) (.charge (f.applyCost argc))
  | apply (f : Builtin) (ops : List Op) (args : List Value) (c : Context) :
      Emits (.invoke f ops) (f.effect args c)

/-- The log leads from the first context to the last, and its effects are all of a kind. -/
def explaining (E : Effect → Prop) : Reading (Writer (List Effect)) :=
  .recording (fun c log d ↦ replay log c = d ∧ ∀ e ∈ log, E e) (fun _ ↦ ⟨rfl, nofun⟩)
    (fun h h' ↦
      ⟨by rw [replay_append, h.1, h'.1], List.forall_mem_append.mpr ⟨h.2, h'.2⟩⟩)

section Explaining

variable {E : Effect → Prop}

/-- An effect that is put on record explains itself. -/
theorem comes_emit {e : Context → Effect} {c d : Context} (hrun : (e c).run c = d)
    (he : E (e c)) : (explaining E).Comes (emit e) c () d :=
  ⟨[e c], hrun ▸ rfl, hrun, List.forall_mem_singleton.mpr he⟩

/-- Every node can come to a value and go up and down, so any node will do whose effects are of the
kind. -/
theorem sound_logging (op : Op) (h : ∀ e, op.Emits e → E e) : logging.Sound (explaining E) where
  call c := (explaining E).comes_pure () c
  result hc := ⟨[], Reading.run_plain_result hc, rfl, nofun⟩
  produce v c := comes_emit rfl (h _ (.produce op v))
  nested hstep c := by
    refine Reading.comes_nested (comes_emit c.run_descent ?_) (fun d ↦ ?_) hstep
    · unfold Context.descent
      split
      · next hdeep => exact h _ (.tooDeep op hdeep)
      · exact h _ (.level op _)
    · exact comes_emit rfl (h _ (.level op c.depth))

/-- The steps that a node takes by itself are effects that it emits. -/
theorem soundIn_logging (op : Op) (h : ∀ e, op.Emits e → E e) :
    op.SoundIn logging (explaining E) where
  cost c := comes_emit rfl (h _ (.cost op))
  lookup s c := by
    rintro rfl
    exact comes_emit (c.run_conclude_lookup s) (h _ (.lookup s c))
  define s body v c := by
    rintro rfl
    exact comes_emit rfl (h _ (.define s body v))
  undefine s c := by
    rintro rfl
    exact comes_emit rfl (h _ (.undefine s))
  applyCost f ops argc c := by
    rintro rfl
    exact comes_emit rfl (h _ (.applyCost f ops argc))
  apply f ops args c := by
    rintro rfl
    exact comes_emit (f.run_effect args c) (h _ (.apply f ops args c))

/-- If effects of all kinds will do, nothing is asked of the nodes. -/
theorem sound_logging_any : logging.Sound (explaining fun _ ↦ True) :=
  sound_logging (.constant .nil) fun _ _ ↦ trivial

theorem soundIn_logging_any (op : Op) : op.SoundIn logging (explaining fun _ ↦ True) :=
  soundIn_logging op fun _ _ ↦ trivial

end Explaining

namespace Op

/-- The log of an evaluation explains it by effects of the nodes of the operation. -/
theorem explained_log (op : Op) (c : Context) :
    replay (op.log c) c = op.eval c ∧ ∀ e ∈ op.log c, ∃ n ∈ op.nodes, n.Emits e := by
  have hnode (n : Op) (hn : n ∈ op.nodes) (e : Effect) (he : n.Emits e) :
      ∃ n ∈ op.nodes, n.Emits e := ⟨n, hn, he⟩
  obtain ⟨log, hlog, hexplains⟩ := Reading.comes_evalWith
    (sound_logging op (hnode op op.mem_nodes_self)) op
    (fun n hn ↦ soundIn_logging n (hnode n hn)) c
  obtain rfl : op.log c = log := congrArg Prod.snd hlog
  exact hexplains

/-- Making the effects of an evaluation one after the other is the evaluation. -/
theorem replay_log (op : Op) (c : Context) : replay (op.log c) c = op.eval c :=
  (op.explained_log c).1

/-- An evaluation ends on its course. -/
theorem eval_mem_course (op : Op) (c : Context) : op.eval c ∈ course (op.log c) c :=
  op.replay_log c ▸ replay_mem_course (op.log c) c

/-- What the effects of all nodes keep holds all along the evaluation. -/
theorem of_mem_course_log {P : Context → Prop} {op : Op}
    (hemits : ∀ n ∈ op.nodes, ∀ e, n.Emits e → ∀ c, P c → P (e.run c)) {c d : Context} (hc : P c)
    (hd : d ∈ course (op.log c) c) : P d := by
  refine of_mem_course (fun e he ↦ ?_) hc hd
  obtain ⟨n, hn, he⟩ := (op.explained_log c).2 e he
  exact hemits n hn e he

end Op

end MeteredLedger

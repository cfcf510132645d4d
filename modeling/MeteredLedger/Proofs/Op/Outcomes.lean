import MeteredLedger.Proofs.Op.Guarded
import MeteredLedger.Proofs.Op.Log

/-!
# What an evaluation can come to

Some codes of the machine are reserved: for an internal failure, for a transaction that is not the
next one of its account, and for the control signals.  An outcome is ordinary if it is a value, a
control signal, or an error of the machine under any other code.  No effect of an evaluation comes
to anything else, but for the calls of `fail`, whose error has the code that the program asks for as
long as it is not nil.  The other functions fail under few codes, which are the regular ones: a
symbol that is not declared, juice that runs out and a depth that is too great are reported by the
evaluator alone.
-/

namespace MeteredLedger

namespace ErrorCode

/-- The codes under which no function raises an error by itself. -/
def reserved : List ErrorCode := [unexpected, sequence, ret, rollback, halt]

/-- The codes under which a function that is not `fail` can fail. -/
def regular : List ErrorCode := [bounds, assert, funds, nobody, argument, cast, arity]

/-- Every code can be read back from its name. -/
theorem ofName?_name (code : ErrorCode) : ofName? code.name = some code := by
  cases code <;> decide

/-- Codes are told apart as values. -/
theorem toValue_inj {code code' : ErrorCode} (h : code.toValue = code'.toValue) : code = code' := by
  have hname : code.name = code'.name := congrArg Keyword.name (Value.keyword.inj h)
  rw [← Option.some_inj, ← ofName?_name code, hname, ofName?_name]

end ErrorCode

/-! ## Ordinary outcomes -/

/-- A control signal, or an error of the machine under a code that is not reserved. -/
inductive Signal.IsOrdinary : Signal → Prop
  | coded {code : ErrorCode} (h : code ∉ ErrorCode.reserved) (message : String) :
      IsOrdinary (.coded code message)
  | control (kind : Control) (payload : Value) : IsOrdinary (.control kind payload)

namespace Outcome

/-- A value, or an ordinary signal. -/
def IsOrdinary : Outcome → Prop
  | value _ => True
  | signal s => s.IsOrdinary

/-- The outcome is no error with nil as its code. -/
def IsCoded (o : Outcome) : Prop := ∀ message, o ≠ .signal (.error .nil message)

variable {o : Outcome}

/-- An ordinary error is one of the machine, so its code is not nil. -/
theorem IsOrdinary.isCoded (h : o.IsOrdinary) : o.IsCoded := by
  rintro message rfl
  cases h

/-- An ordinary outcome is no error under a reserved code, whatever its message. -/
theorem IsOrdinary.ne_error (h : o.IsOrdinary) {code : ErrorCode}
    (hcode : code ∈ ErrorCode.reserved) (message : Value) :
    o ≠ .signal (.error code.toValue message) := by
  rintro rfl
  generalize hs : Signal.error code.toValue message = s at h
  cases h with
  | coded hordinary text =>
      obtain ⟨hvalue, -⟩ := Signal.error.inj hs
      exact hordinary (ErrorCode.toValue_inj hvalue ▸ hcode)
  | control => cases hs

theorem isOrdinary_of_normal (h : o.isExceptional = false) : o.IsOrdinary := by
  cases o with
  | value v => trivial
  | signal s => cases h

/-- The outcome is an error under the code. -/
def HasCode (o : Outcome) (code : ErrorCode) : Prop :=
  ∃ message, o = .signal (.error code.toValue message)

theorem HasCode.isExceptional {code : ErrorCode} (h : o.HasCode code) :
    o.isExceptional = true := by
  obtain ⟨message, rfl⟩ := h
  rfl

theorem not_hasCode_of_normal (h : o.isExceptional = false) (code : ErrorCode) :
    ¬ o.HasCode code := by
  rintro ⟨message, rfl⟩
  cases h

/-- An error of the machine has its own code only. -/
theorem not_hasCode_coded {code code' : ErrorCode} (h : code ≠ code') (text : String) :
    ¬ (signal (.coded code text)).HasCode code' := by
  rintro ⟨message, hmessage⟩
  obtain ⟨hvalue, -⟩ := Signal.error.inj (signal.inj hmessage)
  exact h (ErrorCode.toValue_inj hvalue)

end Outcome

/-! ## Functions that fail in regular ways -/

/-- A control signal, or an error of the machine under a regular code. -/
inductive Signal.IsRegular : Signal → Prop
  | coded {code : ErrorCode} (h : code ∈ ErrorCode.regular) (message : String) :
      IsRegular (.coded code message)
  | control (kind : Control) (payload : Value) : IsRegular (.control kind payload)

namespace Outcome

/-- A value, or a regular signal. -/
def IsRegular : Outcome → Prop
  | value _ => True
  | signal s => s.IsRegular

variable {o : Outcome}

/-- No regular code is a reserved one. -/
theorem IsRegular.isOrdinary (h : o.IsRegular) : o.IsOrdinary := by
  cases o with
  | value v => trivial
  | signal s =>
      cases h with
      | @coded code hcode message =>
          have hdisjoint : ∀ code ∈ ErrorCode.regular, code ∉ ErrorCode.reserved := by decide
          exact .coded (hdisjoint code hcode) message
      | control kind payload => exact .control kind payload

/-- A regular outcome is no error under a code that is not regular. -/
theorem IsRegular.not_hasCode (h : o.IsRegular) {code : ErrorCode}
    (hcode : code ∉ ErrorCode.regular) : ¬ o.HasCode code := by
  cases o with
  | value v => exact not_hasCode_of_normal rfl code
  | signal s =>
      cases h with
      | coded hregular message =>
          refine not_hasCode_coded ?_ message
          rintro rfl
          exact hcode hregular
      | control kind payload =>
          rintro ⟨message, hmessage⟩
          cases hmessage

end Outcome

/-- If the computation raises a signal, it is a regular one. -/
def Regularly {α : Type} (x : Except Signal α) : Prop := ∀ s, x = .error s → s.IsRegular

namespace Regularly

variable {α β : Type}

theorem ok (a : α) : Regularly (.ok a) := fun _ h ↦ nomatch h

theorem error {s : Signal} (hs : s.IsRegular) : Regularly (.error s : Except Signal α) := by
  rintro _ ⟨⟩
  exact hs

theorem bind {x : Except Signal α} {f : α → Except Signal β} (hx : Regularly x)
    (hf : ∀ a, Regularly (f a)) : Regularly (x >>= f) := by
  cases x with
  | ok a => exact hf a
  | error s => exact error (hx s rfl)

theorem map {x : Except Signal α} (hx : Regularly x) (f : α → β) : Regularly (x.map f) := by
  cases x with
  | ok a => exact ok (f a)
  | error s => exact error (hx s rfl)

theorem foldlM {f : β → α → Except Signal β} (hf : ∀ b a, Regularly (f b a)) (b : β)
    (as : List α) : Regularly (as.foldlM f b) := by
  induction as generalizing b with
  | nil => exact ok b
  | cons a as ih =>
      rw [List.foldlM_cons]
      exact (hf b a).bind ih

/-- A computation that fails in regular ways comes to a regular outcome. -/
theorem isRegular_ofExcept {x : Except Signal Value} (hx : Regularly x) :
    (Outcome.ofExcept x).IsRegular := by
  cases x with
  | ok v => trivial
  | error s => exact hx s rfl

end Regularly

/-- An update of the ledger or of a sequence is refused under a regular code. -/
theorem Signal.isRegular_ofUpdateError (e : UpdateError) : (ofUpdateError e).IsRegular := by
  unfold ofUpdateError
  split <;> exact .coded (by decide) _

namespace Builtin

variable (f : Builtin)

theorem isRegular_arityError (got : Nat) : (f.arityError got).IsRegular := .coded (by decide) _

theorem isRegular_castError (expected : String) (got : Value) :
    (f.castError expected got).IsRegular :=
  .coded (by decide) _

theorem regularly_longArg (v : Value) : Regularly (f.longArg v) := by
  unfold longArg
  split
  · exact .ok _
  · exact .error (f.isRegular_castError _ v)

theorem regularly_addressArg (v : Value) : Regularly (f.addressArg v) := by
  unfold addressArg
  split
  · exact .ok _
  · exact .error (f.isRegular_castError _ v)

/-- An item that does not suit the collection is a cast error. -/
theorem regularly_conjOne (coll x : Value) : Regularly (conjOne coll x) := by
  fun_cases conjOne coll x
  case case4 | case6 => exact .error (conj.isRegular_castError _ _)
  all_goals exact .ok _

theorem regularly_blobKey (k : Value) : Regularly (blobKey k) := by
  fun_cases blobKey k
  case case3 => exact .error (assoc.isRegular_castError _ _)
  all_goals exact .ok _

/-- What does not suit is a cast error, and a position that is not there is one of bounds. -/
theorem regularly_assocOne (coll k v : Value) : Regularly (assocOne coll k v) := by
  fun_cases assocOne coll k v
  case case1 | case2 => exact .ok _
  case case3 m => exact (regularly_blobKey k).map _
  case case4 => exact .error (assoc.isRegular_castError _ _)
  case case5 s _ =>
    refine (assoc.regularly_longArg k).bind fun index ↦ ?_
    split
    · exact .ok _
    · exact .error (Signal.isRegular_ofUpdateError _)

theorem regularly_assocPairs (coll : Value) (args : List Value) :
    Regularly (assocPairs coll args) := by
  fun_induction assocPairs coll args with
  | case1 coll k v rest ih => exact (regularly_assocOne coll k v).bind ih
  | case2 => exact .ok _

theorem regularly_addLongs (n : Int64) (args : List Value) : Regularly (addLongs n args) := by
  fun_induction addLongs n args with
  | case1 n => exact .ok n
  | case2 n v vs ih => exact (add.regularly_longArg v).bind ih

theorem regularly_subLongs (n : Int64) (args : List Value) : Regularly (subLongs n args) := by
  fun_induction subLongs n args with
  | case1 n => exact .ok n
  | case2 n v vs ih => exact (sub.regularly_longArg v).bind ih

/-- A control signal is raised, unless there are too many arguments. -/
theorem isRegular_leave (kind : Control) (args : List Value) :
    (f.leave kind args).IsRegular := by
  unfold leave
  split
  · exact .control kind .nil
  · exact .control kind _
  · exact f.isRegular_arityError _

theorem regularly_transferArgs (args : List Value) : Regularly (transferArgs args) := by
  unfold transferArgs
  split
  · refine (transfer.regularly_addressArg _).bind fun target ↦ ?_
    exact (transfer.regularly_longArg _).bind fun amount ↦ .ok (target, amount)
  · exact .error (transfer.isRegular_arityError _)

theorem regularly_balanceArg (c : Context) (args : List Value) :
    Regularly (balanceArg c args) := by
  unfold balanceArg
  split
  · exact .ok c.address
  · exact balance.regularly_addressArg _
  · exact .error (balance.isRegular_arityError _)

theorem regularly_holdingArgs (args : List Value) : Regularly (holdingArgs args) := by
  unfold holdingArgs
  split
  · exact (setHolding.regularly_addressArg _).bind fun owner ↦ .ok (owner, _)
  · exact .error (setHolding.isRegular_arityError _)

theorem regularly_conjAll (args : List Value) : Regularly (conjAll args) := by
  unfold conjAll
  split
  · exact .error (conj.isRegular_arityError 0)
  · exact .foldlM regularly_conjOne _ _

theorem regularly_assocAll (args : List Value) : Regularly (assocAll args) := by
  unfold assocAll
  split
  · split
    · exact regularly_assocPairs _ _
    · exact .error (assoc.isRegular_arityError _)
  · exact .error (assoc.isRegular_arityError _)

theorem regularly_countOf (args : List Value) : Regularly (countOf args) := by
  unfold countOf
  split
  · split
    · exact .ok _
    · exact .error (count.isRegular_castError _ _)
  · exact .error (count.isRegular_arityError _)

theorem regularly_difference (args : List Value) : Regularly (difference args) := by
  unfold difference
  split
  · exact .error (sub.isRegular_arityError 0)
  · exact (sub.regularly_longArg _).bind fun n ↦ .ok _
  · refine (sub.regularly_longArg _).bind fun n ↦ ?_
    exact (regularly_subLongs n _).bind fun m ↦ .ok _

theorem regularly_equal (args : List Value) : Regularly (equal args) := by
  unfold equal
  split
  · exact .error (eq.isRegular_arityError 0)
  · exact .ok _

theorem regularly_assertAll (args : List Value) : Regularly (assertAll args) := by
  unfold assertAll
  split
  · exact .ok _
  · exact .error (.coded (by decide) _)

/-- The code of a failure is what the program asks for, but not nil. -/
theorem isCoded_failure (args : List Value) : (Outcome.signal (failure args)).IsCoded := by
  unfold failure
  split
  case h_4 hcode =>
    rintro message ⟨⟩
    exact hcode rfl
  all_goals
    rintro message ⟨⟩

end Builtin

/-! ## The outcomes of effects -/

namespace Context

variable (c : Context)

/-- A charge leaves the outcome alone, or it is an error of juice. -/
theorem outcome_charge (n : Nat) :
    (c.charge n).outcome = c.outcome ∨ (c.charge n).outcome.IsOrdinary := by
  unfold charge
  dsimp only
  split
  · exact .inl rfl
  · exact .inr (Signal.IsOrdinary.coded (by decide) _)

/-- A level that is refused is an error of depth. -/
theorem isOrdinary_outcome_descend (h : c.limits.maxDepth ≤ c.depth) :
    c.descend.outcome.IsOrdinary := by
  rw [descend, if_pos h]
  exact Signal.IsOrdinary.coded (by decide) _

/-- A symbol that is not declared is an ordinary error. -/
theorem isOrdinary_outcome_lookup (s : Symbol) : (c.lookup s).outcome.IsOrdinary := by
  unfold lookup
  split
  · trivial
  · split
    · trivial
    · exact Signal.IsOrdinary.coded (by decide) _

/-- To undefine a symbol does not change the outcome. -/
theorem outcome_undefine (s : Symbol) : (c.undefine s).outcome = c.outcome := by
  unfold undefine
  split <;> rfl

/-- A transfer comes to its amount, or it is refused under a regular code. -/
theorem isRegular_outcome_transfer (target : Address) (amount : Int64) :
    (c.transfer target amount).outcome.IsRegular := by
  unfold transfer
  split
  · exact Signal.isRegular_ofUpdateError _
  · trivial

/-- A holding comes to its value, or it is refused under a regular code. -/
theorem isRegular_outcome_setHolding (owner : Address) (v : Value) :
    (c.setHolding owner v).outcome.IsRegular := by
  unfold setHolding
  split
  · exact Signal.isRegular_ofUpdateError _
  · trivial

end Context

/-- Every function but `fail` comes to a regular outcome, whatever it is applied to. -/
theorem Builtin.isRegular_outcome_apply {f : Builtin} (hf : f ≠ fail) (args : List Value)
    (c : Context) : (f.apply args c).outcome.IsRegular := by
  cases f with
  | vector => trivial
  | list => trivial
  | conj => exact (regularly_conjAll args).isRegular_ofExcept
  | assoc => exact (regularly_assocAll args).isRegular_ofExcept
  | count => exact (regularly_countOf args).isRegular_ofExcept
  | add => exact ((regularly_addLongs 0 args).map _).isRegular_ofExcept
  | sub => exact (regularly_difference args).isRegular_ofExcept
  | eq => exact (regularly_equal args).isRegular_ofExcept
  | assert => exact (regularly_assertAll args).isRegular_ofExcept
  | fail => exact absurd rfl hf
  | ret => exact ret.isRegular_leave .ret args
  | rollback => exact rollback.isRegular_leave .rollback args
  | halt => exact halt.isRegular_leave .halt args
  | transfer =>
      rw [apply]
      cases h : transferArgs args with
      | ok x => exact c.isRegular_outcome_transfer x.1 x.2
      | error s => exact regularly_transferArgs args s h
  | balance =>
      rw [apply]
      cases h : balanceArg c args with
      | ok a => trivial
      | error s => exact regularly_balanceArg c args s h
  | setHolding =>
      rw [apply]
      cases h : holdingArgs args with
      | ok x => exact c.isRegular_outcome_setHolding x.1 x.2
      | error s => exact regularly_holdingArgs args s h

/-- No application of a function comes to an error with nil as its code. -/
theorem Builtin.isCoded_outcome_apply (f : Builtin) (args : List Value) (c : Context) :
    (f.apply args c).outcome.IsCoded := by
  by_cases hf : f = fail
  · subst hf
    exact isCoded_failure args
  · exact (isRegular_outcome_apply hf args c).isOrdinary.isCoded

namespace Op

/-- What a node comes to by itself: an ordinary outcome, unless it is a call of `fail`. -/
theorem Emits.outcome_of_conclude {op : Op} {o : Outcome} (h : op.Emits (.conclude o)) :
    o.IsOrdinary ∨ (∃ ops, op = invoke .fail ops) ∧ o.IsCoded := by
  generalize he : Effect.conclude o = e at h
  cases h with
  | cost => cases he
  | level => cases he
  | tooDeep op hdeep =>
      cases he
      exact .inl (Context.isOrdinary_outcome_descend _ hdeep)
  | produce op v =>
      cases he
      exact .inl trivial
  | lookup s c =>
      cases he
      exact .inl (c.isOrdinary_outcome_lookup s)
  | define => cases he
  | undefine => cases he
  | applyCost => cases he
  | apply f ops args c =>
      have ho : o = (f.apply args c).outcome := by
        rw [← f.run_effect args c, ← he]
        rfl
      subst ho
      by_cases hf : f = .fail
      · subst hf
        exact .inr ⟨⟨ops, rfl⟩, Builtin.isCoded_outcome_apply _ args c⟩
      · exact .inl (Builtin.isRegular_outcome_apply hf args c).isOrdinary

/-- An effect of a node leaves the outcome alone or comes to an ordinary one, unless the node is a
call of `fail`. -/
theorem Emits.outcome_run {op : Op} {e : Effect} (h : op.Emits e) (c : Context) :
    (e.run c).outcome = c.outcome ∨ (e.run c).outcome.IsOrdinary ∨
      (∃ ops, op = invoke .fail ops) ∧ (e.run c).outcome.IsCoded := by
  cases e with
  | conclude o => exact .inr h.outcome_of_conclude
  | charge n => exact (c.outcome_charge n).imp_right .inl
  | level depth => exact .inl rfl
  | define s v => exact .inl rfl
  | undefine s => exact .inl (c.outcome_undefine s)
  | transfer target amount =>
      exact .inr (.inl (c.isRegular_outcome_transfer target amount).isOrdinary)
  | setHolding owner v => exact .inr (.inl (c.isRegular_outcome_setHolding owner v).isOrdinary)

/-! ## The outcomes of evaluations -/

variable {op : Op} {c d : Context}

/-- No context along an evaluation has an error with nil as its code, if the first has none. -/
theorem isCoded_of_mem_course (hc : c.outcome.IsCoded) (hd : d ∈ course (op.log c) c) :
    d.outcome.IsCoded := by
  refine of_mem_course_log (P := (·.outcome.IsCoded)) (fun n _ e he c hc ↦ ?_) hc hd
  rcases he.outcome_run c with h | h | ⟨-, h⟩
  · rwa [h]
  · exact h.isCoded
  · exact h

/-- An operation that does not call `fail` has ordinary outcomes only. -/
theorem isOrdinary_of_mem_course (hop : op.Avoids .fail) (hc : c.outcome.IsOrdinary)
    (hd : d ∈ course (op.log c) c) : d.outcome.IsOrdinary := by
  refine of_mem_course_log (P := (·.outcome.IsOrdinary)) (fun n hn e he c hc ↦ ?_) hc hd
  rcases he.outcome_run c with h | h | ⟨⟨ops, rfl⟩, -⟩
  · rwa [h]
  · exact h
  · exact absurd hn (hop ops)

/-- **Evaluations are safe.** Neither an evaluation nor the application of a function reaches a
guard, in whatever context: no result of an exceptional context is read, nothing negative is
charged, no error is built with nil as its code, and no argument is asked for that is not there.  No
context along an evaluation has an error with nil as its code, unless the first one has, and no
function comes to one.  And an evaluation that begins normally and does not call `fail` never ends
with an error under a reserved code. -/
theorem eval_safe (op : Op) (c : Context) :
    op.evalGuarded c = .ok (op.eval c) ∧
    (∀ f args, Builtin.applyGuarded f args c = .ok (f.apply args c) ∧
      (f.apply args c).outcome.IsCoded) ∧
    (c.outcome.IsCoded →
      (∀ d ∈ course (op.log c) c, d.outcome.IsCoded) ∧ (op.eval c).outcome.IsCoded) ∧
    (c.isExceptional = false → op.Avoids .fail →
      ∀ code ∈ [.unexpected, .sequence, .ret, .rollback, .halt], ∀ message,
        (op.eval c).outcome ≠ .signal (.error (ErrorCode.toValue code) message)) := by
  refine ⟨op.evalGuarded_eq c, ?_, ?_, ?_⟩
  · intro f args
    exact ⟨f.applyGuarded_eq args c, f.isCoded_outcome_apply args c⟩
  · intro hc
    exact ⟨fun d hd ↦ isCoded_of_mem_course hc hd, isCoded_of_mem_course hc (op.eval_mem_course c)⟩
  · intro hc hop code hcode message
    have hstart : c.outcome.IsOrdinary := Outcome.isOrdinary_of_normal hc
    have hend := isOrdinary_of_mem_course hop hstart (op.eval_mem_course c)
    exact hend.ne_error hcode message

/-- A call of `conj` without arguments asks for none and ends with an error of arity, and a failure
with nil as its code ends under another code; to ask for the first argument regardless, or to build
an error with nil as its code, is a fault. -/
theorem eval_safe_bad_calls :
    let c := Context.start (.genesis [100]) ⟨0⟩ { }
    let op := sequence [define ⟨"x"⟩ (invoke .conj []), invoke .halt []]
    argument [] 0 = .error (.noArgument 0 0) ∧
    Builtin.errorGuarded .nil .nil = .error (.defect .nilErrorCode) ∧
    op.evalGuarded c = .ok (op.eval c) ∧
    (op.eval c).outcome = .signal (Builtin.arityError .conj 0) ∧
    (∀ message, (op.eval c).outcome ≠ .signal (.error ErrorCode.unexpected.toValue message)) ∧
    (Builtin.apply .fail [.nil, .nil] c).outcome.IsCoded := by
  intro c op
  obtain ⟨hguarded, happly, -, hreserved⟩ := eval_safe op c
  refine ⟨rfl, rfl, hguarded, by decide, ?_, (happly .fail [.nil, .nil]).2⟩
  exact hreserved rfl (by decide) .unexpected (by decide)

end Op

end MeteredLedger

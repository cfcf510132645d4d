import MeteredLedger.Proofs.Op.Log
import MeteredLedger.Proofs.Sorted.Map
import MeteredLedger.Proofs.Value.Order

/-!
# What an evaluation does to definitions

The nodes of an operation say which symbols it can bind and which it can unbind.  `Rebinds` relates
bindings to those that are made of them in this way: new keys are symbols that are bound, and at all
other keys nothing happens.  It passes through every effect that a node can have, hence through
every evaluation, also through one that stops half-way.
-/

namespace MeteredLedger

/-! ## The symbols that an operation is about -/

namespace Op

/-- Some node of the operation is a definition of the symbol. -/
def Defines (op : Op) (s : Symbol) : Prop := ∃ body, define s body ∈ op.nodes

/-- Some node of the operation takes the definition of the symbol away. -/
def Undefines (op : Op) (s : Symbol) : Prop := undefine s ∈ op.nodes

end Op

/-! ## Bindings that are made of others -/

/-- The second bindings are made of the first: a key that is not among the old ones is a symbol that
is defined, and what is found at a key stays, unless it is a symbol that is defined or undefined. -/
structure Rebinds (Defined Undefined : Symbol → Prop) (m n : Map) : Prop where
  keys : ∀ k ∈ n.keys, k ∈ m.keys ∨ ∃ s, k = .symbol s ∧ Defined s
  find?_eq : ∀ k, (∀ s, k = .symbol s → ¬ Defined s ∧ ¬ Undefined s) → n.find? k = m.find? k

namespace Rebinds

variable {Defined Undefined Defined' Undefined' : Symbol → Prop} {m n l : Map} {s : Symbol}

theorem refl (Defined Undefined : Symbol → Prop) (m : Map) : Rebinds Defined Undefined m m where
  keys _ hk := .inl hk
  find?_eq _ _ := rfl

theorem mono (h : Rebinds Defined Undefined m n) (hdefined : ∀ s, Defined s → Defined' s)
    (hundefined : ∀ s, Undefined s → Undefined' s) : Rebinds Defined' Undefined' m n where
  keys k hk := by
    rcases h.keys k hk with hk | ⟨s, rfl, hs⟩
    · exact .inl hk
    · exact .inr ⟨s, rfl, hdefined s hs⟩
  find?_eq k hk := by
    refine h.find?_eq k fun s hs ↦ ?_
    obtain ⟨hnot, hnot'⟩ := hk s hs
    exact ⟨fun hd ↦ hnot (hdefined s hd), fun hu ↦ hnot' (hundefined s hu)⟩

theorem trans (h : Rebinds Defined Undefined m n) (h' : Rebinds Defined Undefined n l) :
    Rebinds Defined Undefined m l where
  keys k hk := by
    rcases h'.keys k hk with hk | hs
    · exact h.keys k hk
    · exact .inr hs
  find?_eq k hk := (h'.find?_eq k hk).trans (h.find?_eq k hk)

/-- A symbol that is defined may be bound. -/
theorem insert (hs : Defined s) (m : Map) (v : Value) :
    Rebinds Defined Undefined m (m.insert (.symbol s) v) where
  keys k hk := by
    rcases SortedMap.mem_keys_insert hk with rfl | hk
    · exact .inr ⟨s, rfl, hs⟩
    · exact .inl hk
  find?_eq k hk := by
    refine SortedMap.find?_insert_of_ne ?_ m v
    intro heq
    exact (hk s heq).1 hs

/-- A symbol that is undefined may be unbound. -/
theorem erase (hs : Undefined s) (m : Map) :
    Rebinds Defined Undefined m (m.erase (.symbol s)) where
  keys _ hk := .inl (SortedMap.mem_keys_of_mem_keys_erase hk)
  find?_eq k hk := by
    refine SortedMap.find?_erase_of_ne ?_ m
    intro heq
    exact (hk s heq).2 hs

/-- A symbol whose definitions are left alone is bound as before, or not bound as before. -/
theorem lookup?_eq {e e' : Environment} (h : Rebinds Defined Undefined e.bindings e'.bindings)
    (hdefined : ¬ Defined s) (hundefined : ¬ Undefined s) : e'.lookup? s = e.lookup? s := by
  refine h.find?_eq (.symbol s) ?_
  rintro t ⟨⟩
  exact ⟨hdefined, hundefined⟩

/-- Where all keys are symbols, they stay so. -/
theorem kind_of_mem_keys (h : Rebinds Defined Undefined m n)
    (hm : ∀ k ∈ m.keys, k.kind = .symbol) : ∀ k ∈ n.keys, k.kind = .symbol := by
  intro k hk
  rcases h.keys k hk with hk | ⟨s, rfl, -⟩
  · exact hm k hk
  · rfl

end Rebinds

/-! ## Effects and evaluations -/

namespace Op

variable {n op : Op} {e : Effect}

/-- The only ways in which a node changes the bindings. -/
theorem Emits.environment_run (h : n.Emits e) (c : Context) :
    (e.run c).environment = c.environment ∨
    (∃ s body v, n = .define s body ∧ (e.run c).environment = c.environment.define s v) ∨
    ∃ s, n = .undefine s ∧ (e.run c).environment = c.environment.undefine s := by
  cases h with
  | define s body v => exact .inr (.inl ⟨s, body, v, rfl, rfl⟩)
  | undefine s =>
      simp only [Effect.run, Context.undefine]
      split
      · exact .inr (.inr ⟨s, rfl, rfl⟩)
      · exact .inl rfl
  | apply f ops args d =>
      rcases f.effect_cases args d with ⟨o, he⟩ | ⟨target, amount, he⟩ | ⟨owner, v, he⟩
      all_goals
        rw [he]
        exact .inl ((Effect.spares_run _ c).environment_eq id)
  | _ => exact .inl ((Effect.spares_run _ c).environment_eq id)

/-- An effect of a node makes the new bindings of the old ones. -/
theorem Emits.rebinds_run (hn : n ∈ op.nodes) (h : n.Emits e) (c : Context) :
    Rebinds op.Defines op.Undefines c.environment.bindings (e.run c).environment.bindings := by
  rcases h.environment_run c with he | ⟨s, body, v, rfl, he⟩ | ⟨s, rfl, he⟩
  · rw [he]
    exact .refl _ _ _
  · rw [he]
    exact .insert ⟨body, hn⟩ _ v
  · rw [he]
    exact .erase hn _

/-- All along an evaluation, the bindings are made of the first ones. -/
theorem rebinds_of_mem_course {c d : Context} (hd : d ∈ course (op.log c) c) :
    Rebinds op.Defines op.Undefines c.environment.bindings d.environment.bindings :=
  of_mem_course_log (P := fun d ↦
      Rebinds op.Defines op.Undefines c.environment.bindings d.environment.bindings)
    (fun _ hn _ he d hd ↦ hd.trans (he.rebinds_run hn d)) (.refl _ _ _) hd

/-- An evaluation makes its bindings of those that it began with. -/
theorem rebinds_eval (op : Op) (c : Context) :
    Rebinds op.Defines op.Undefines c.environment.bindings
      (op.eval c).environment.bindings :=
  rebinds_of_mem_course (op.eval_mem_course c)

end Op

end MeteredLedger

/-!
# Lexicographic comparisons, one element at a time

A type that is nested in its own containers is compared by a recursion that compares the containers
lexicographically.  The laws of such a comparison cannot be had from instances, which ask for the
laws at all elements at once.  So the laws are stated at one element: `OrdersAt cmp a` says that
`cmp` is a total preorder as far as `a` is concerned.  It passes through projections, through one
comparison after another and through lists, and asks for no more than itself at the parts.
-/

namespace MeteredLedger

universe u v

variable {α : Type u} {β : Type v}

/-- The comparison is oriented, transitive and blind to equals, with `a` as the first of two or
three elements. -/
structure OrdersAt (cmp : α → α → Ordering) (a : α) : Prop where
  swap (b : α) : cmp b a = (cmp a b).swap
  trans {b c : α} : cmp a b = .lt → cmp b c = .lt → cmp a c = .lt
  congr_left {b c : α} : cmp a b = .eq → cmp a c = cmp b c
  congr_right {b c : α} : cmp b c = .eq → cmp a b = cmp a c

namespace OrdersAt

variable {cmp cmp' : α → α → Ordering} {a : α}

/-- A lawful comparison orders at every element. -/
theorem of_transCmp (cmp : α → α → Ordering) [Std.TransCmp cmp] (a : α) : OrdersAt cmp a where
  swap _ := Std.OrientedCmp.eq_swap
  trans := Std.TransCmp.lt_trans
  congr_left := Std.TransCmp.congr_left
  congr_right := Std.TransCmp.congr_right

/-- Comparing by a projection. -/
theorem on {cmp : β → β → Ordering} (f : α → β) (h : OrdersAt cmp (f a)) :
    OrdersAt (fun a b ↦ cmp (f a) (f b)) a where
  swap b := h.swap (f b)
  trans := h.trans
  congr_left := h.congr_left
  congr_right := h.congr_right

/-- Comparing in one way, and in another where the first one finds no difference. -/
theorem lex (h : OrdersAt cmp a) (h' : OrdersAt cmp' a) : OrdersAt (compareLex cmp cmp') a where
  swap b := by rw [compareLex, compareLex, h.swap, h'.swap, Ordering.swap_then]
  trans {b c} hab hbc := by
    simp only [compareLex, Ordering.then_eq_lt] at hab hbc ⊢
    rcases hab with hab | ⟨hab, hab'⟩
    · rcases hbc with hbc | ⟨hbc, -⟩
      · exact .inl (h.trans hab hbc)
      · exact .inl (h.congr_right hbc ▸ hab)
    · rw [h.congr_left hab]
      rcases hbc with hbc | ⟨hbc, hbc'⟩
      · exact .inl hbc
      · exact .inr ⟨hbc, h'.trans hab' hbc'⟩
  congr_left {b c} hab := by
    obtain ⟨hab, hab'⟩ := Ordering.then_eq_eq.mp hab
    rw [compareLex, compareLex, h.congr_left hab, h'.congr_left hab']
  congr_right {b c} hbc := by
    obtain ⟨hbc, hbc'⟩ := Ordering.then_eq_eq.mp hbc
    rw [compareLex, compareLex, h.congr_right hbc, h'.congr_right hbc']

/-- The head of a list is compared first, then its tail. -/
theorem list {as : List α} (h : ∀ a ∈ as, OrdersAt cmp a) : OrdersAt (List.compareLex cmp) as := by
  induction as with
  | nil =>
      refine ⟨fun bs ↦ ?_, fun {bs cs} hab hbc ↦ ?_, fun {bs cs} hab ↦ ?_, fun {bs cs} hbc ↦ ?_⟩
      · cases bs <;> rfl
      · cases cs with
        | nil => cases bs <;> cases hbc
        | cons c cs => rfl
      · cases bs with
        | nil => rfl
        | cons b bs => cases hab
      · cases bs <;> cases cs <;> first | rfl | cases hbc
  | cons a as ih =>
      obtain ⟨ha, has⟩ := List.forall_mem_cons.mp h
      -- Lists that are not empty are compared like pairs.
      have hpair : OrdersAt (compareLex (fun p q ↦ cmp p.1 q.1)
          (fun p q ↦ List.compareLex cmp p.2 q.2)) (a, as) :=
        (ha.on Prod.fst).lex ((ih has).on Prod.snd)
      have hcons (b c : α) (bs cs : List α) : List.compareLex cmp (b :: bs) (c :: cs) =
          compareLex (fun p q ↦ cmp p.1 q.1) (fun p q ↦ List.compareLex cmp p.2 q.2)
            (b, bs) (c, cs) := List.compareLex_cons_cons
      refine ⟨fun bs ↦ ?_, fun {bs cs} hab hbc ↦ ?_, fun {bs cs} hab ↦ ?_, fun {bs cs} hbc ↦ ?_⟩
      · cases bs with
        | nil => rfl
        | cons b bs => rw [hcons, hcons, hpair.swap]
      · cases bs with
        | nil => cases hab
        | cons b bs =>
            cases cs with
            | nil => cases hbc
            | cons c cs =>
                rw [hcons] at hab hbc ⊢
                exact hpair.trans hab hbc
      · cases bs with
        | nil => cases hab
        | cons b bs =>
            cases cs with
            | nil => rfl
            | cons c cs =>
                rw [hcons] at hab ⊢
                rw [hcons, hpair.congr_left hab]
      · cases bs with
        | nil =>
            cases cs with
            | nil => rfl
            | cons c cs => cases hbc
        | cons b bs =>
            cases cs with
            | nil => cases hbc
            | cons c cs =>
                rw [hcons] at hbc ⊢
                rw [hcons, hpair.congr_right hbc]

/-- A comparison that orders at every element is a total preorder. -/
theorem transCmp (h : ∀ a, OrdersAt cmp a) : Std.TransCmp cmp where
  eq_swap {a b} := (h b).swap a
  isLE_trans {a b c} hab hbc := by
    rcases Ordering.isLE_iff_eq_lt_or_eq_eq.mp hab with hab | hab
    · rcases Ordering.isLE_iff_eq_lt_or_eq_eq.mp hbc with hbc | hbc
      · rw [(h a).trans hab hbc]
        rfl
      · rw [← (h a).congr_right hbc, hab]
        rfl
    · rw [(h a).congr_left hab]
      exact hbc

end OrdersAt

/-! ## Comparisons of lists -/

/-- A recursion over two lists that compares their heads first is the lexicographic comparison. -/
theorem eq_compareLex_list {f : List α → List α → Ordering} {cmp : α → α → Ordering}
    (hnil : f [] [] = .eq) (hlt : ∀ b bs, f [] (b :: bs) = .lt)
    (hgt : ∀ a as, f (a :: as) [] = .gt)
    (hcons : ∀ a as b bs, f (a :: as) (b :: bs) = (cmp a b).then (f as bs)) :
    f = List.compareLex cmp := by
  funext as bs
  induction as generalizing bs with
  | nil =>
      cases bs with
      | nil => exact hnil
      | cons b bs => exact hlt b bs
  | cons a as ih =>
      cases bs with
      | nil => exact hgt a as
      | cons b bs => rw [hcons, ih, List.compareLex_cons_cons]

/-- If a comparison tells all elements apart, its strict order makes that of lists. -/
theorem compareLex_list_eq_lt_iff {cmp : α → α → Ordering} {r : α → α → Prop}
    (heq : ∀ a b, cmp a b = .eq ↔ a = b) {as : List α}
    (h : ∀ a ∈ as, ∀ b, cmp a b = .lt ↔ r a b) (bs : List α) :
    List.compareLex cmp as bs = .lt ↔ List.Lex r as bs := by
  induction as generalizing bs with
  | nil => cases bs <;> simp [List.compareLex]
  | cons a as ih =>
      obtain ⟨ha, has⟩ := List.forall_mem_cons.mp h
      cases bs with
      | nil => simp [List.compareLex]
      | cons b bs =>
          rw [List.compareLex_cons_cons, Ordering.then_eq_lt, ha, heq, ih has,
            List.cons_lex_cons_iff]

end MeteredLedger

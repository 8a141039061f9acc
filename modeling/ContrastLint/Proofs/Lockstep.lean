import ContrastLint.Proofs.Faults

/-!
# Readers in lockstep

Two readers of two texts are in lockstep if both succeed, with related results, or
both fail, with related faults.  This is kept by composition.

The passes that look for comments and for the ends of strings and blocks remember
bytes, and they never compute with them.  So two of them that read the same
character from states that face each other are in lockstep, whatever relation there
is between the bytes of the two texts.
-/

namespace ContrastLint

section Lockstep

variable {ε δ α β γ κ : Type}

inductive Lockstep (E : ε → δ → Prop) (R : α → β → Prop) : Except ε α → Except δ β → Prop
  | ok {a : α} {b : β} (h : R a b) : Lockstep E R (.ok a) (.ok b)
  | error {e : ε} {d : δ} (h : E e d) : Lockstep E R (.error e) (.error d)

namespace Lockstep

variable {E : ε → δ → Prop} {R : α → β → Prop} {S : γ → κ → Prop} {x : Except ε α}
  {y : Except δ β}

theorem bind
    {f : α → Except ε γ} {g : β → Except δ κ} (h : Lockstep E R x y)
    (hfg : ∀ a b, x = .ok a → y = .ok b → R a b → Lockstep E S (f a) (g b)) :
    Lockstep E S (x >>= f) (y >>= g) := by
  cases h with
  | ok hab => exact hfg _ _ rfl rfl hab
  | error he => exact .error he

theorem map
    {f : α → γ} {g : β → κ} (h : Lockstep E R x y) (hfg : ∀ a b, R a b → S (f a) (g b)) :
    Lockstep E S (f <$> x) (g <$> y) := by
  cases h with
  | ok hab => exact .ok (hfg _ _ hab)
  | error he => exact .error he

theorem map_right
    {R' : α → κ → Prop} {g : β → κ} (h : Lockstep E R x y)
    (hg : ∀ a b, x = .ok a → R a b → R' a (g b)) : Lockstep E R' x (g <$> y) := by
  cases h with
  | ok hab => exact .ok (hg _ _ rfl hab)
  | error he => exact .error he

theorem mono
    {E' : ε → δ → Prop} {R' : α → β → Prop} (h : Lockstep E R x y)
    (hE : ∀ e d, x = .error e → y = .error d → E e d → E' e d)
    (hR : ∀ a b, x = .ok a → y = .ok b → R a b → R' a b) : Lockstep E' R' x y := by
  cases h with
  | ok hab => exact .ok (hR _ _ rfl rfl hab)
  | error he => exact .error (hE _ _ rfl rfl he)

theorem cases (h : Lockstep E R x y) :
    (∃ a b, x = .ok a ∧ y = .ok b ∧ R a b) ∨ ∃ e d, x = .error e ∧ y = .error d ∧ E e d := by
  cases h with
  | ok hab => exact .inl ⟨_, _, rfl, rfl, hab⟩
  | error he => exact .inr ⟨_, _, rfl, rfl, he⟩

end Lockstep

end Lockstep

/-- Two faults are one defect at related bytes. -/
structure Fault.Faces (R : Nat → Nat → Prop) (f g : Fault) : Prop where
  defect : f.defect = g.defect
  offset : R f.offset g.offset

variable {R : Nat → Nat → Prop} {offset offset' : Nat}

/-! ## Comments -/

namespace Comment.Pass

/-- The same state in two texts. -/
inductive Faces (R : Nat → Nat → Prop) : Pass → Pass → Prop
  | sheet : Faces R .sheet .sheet
  | slash {opener opener' : Nat} (h : R opener opener') : Faces R (.slash opener) (.slash opener')
  | string (q : Quote) : Faces R (.string q) (.string q)
  | escape (q : Quote) : Faces R (.escape q) (.escape q)
  | comment {opener opener' : Nat} (h : R opener opener') :
      Faces R (.comment opener) (.comment opener')
  | star {opener opener' : Nat} (h : R opener opener') : Faces R (.star opener) (.star opener')

variable {p p' : Pass}

theorem faces_enter (hR : R offset offset') (c : Char) :
    (enter offset c).Faces R (enter offset' c) := by
  unfold enter
  cases Quote.ofChar? c with
  | some q => exact .string q
  | none =>
      simp only
      split
      · exact .slash hR
      · exact .sheet

namespace Faces

theorem next (h : p.Faces R p') (hR : R offset offset') (c : Char) :
    (p.next offset c).Faces R (p'.next offset' c) := by
  cases h with
  | sheet => exact faces_enter hR c
  | slash hopener =>
      simp only [Pass.next]
      split
      · exact .comment hopener
      · exact faces_enter hR c
  | string q =>
      simp only [Pass.next]
      split
      · exact .escape q
      · split
        · exact .sheet
        · exact .string q
  | escape q => exact .string q
  | comment hopener =>
      simp only [Pass.next]
      split
      · exact .star hopener
      · exact .comment hopener
  | star hopener =>
      simp only [Pass.next]
      split
      · exact .sheet
      · split
        · exact .star hopener
        · exact .comment hopener

theorem covers_eq
    {follower follower' : Option Char} (h : p.Faces R p')
    (hfollower : follower = some '*' ↔ follower' = some '*') (c : Char) :
    p.covers c follower = p'.covers c follower' := by
  cases h with
  | sheet | slash =>
      rw [Bool.eq_iff_iff]
      simp [covers, hfollower]
  | _ => rfl

theorem outcome_nil (h : p.Faces R p') :
    Lockstep (Fault.Faces R) Eq (p.outcome offset []) (p'.outcome offset' []) := by
  cases h with
  | comment hopener | star hopener => exact .error ⟨rfl, hopener⟩
  | _ => exact .ok rfl

end Faces

end Comment.Pass

/-! ## Strings and blocks -/

namespace Pass

/-- Two passes stand alike.  What they remember of closed strings and blocks may be
unrelated. -/
structure Faces (R : Nat → Nat → Prop) (p q : Pass) : Prop where
  quoting : q.quoting = p.quoting
  depth : q.depth = p.depth
  quoteAt : p.quoting ≠ .outside → R p.quoteAt q.quoteAt
  braceAt : p.depth ≠ 0 → R p.braceAt q.braceAt

variable {p q : Pass}

theorem faces_start (R : Nat → Nat → Prop) : start.Faces R start :=
  ⟨rfl, rfl, fun hopen => absurd rfl hopen, fun hopen => absurd rfl hopen⟩

namespace Faces

theorem step (h : p.Faces R q) (hR : R offset offset') (c : Char) :
    Lockstep (Fault.Faces R) (Faces R) (p.step offset c) (q.step offset' c) := by
  rcases p with ⟨s, quoteAt, depth, braceAt⟩
  rcases q with ⟨s', quoteAt', depth', braceAt'⟩
  obtain rfl : s' = s := h.quoting
  obtain rfl : depth' = depth := h.depth
  have hquoteAt : s' ≠ .outside → R quoteAt quoteAt' := h.quoteAt
  have hbraceAt : depth' ≠ 0 → R braceAt braceAt' := h.braceAt
  unfold Pass.step
  by_cases hs : s' = .outside
  · subst hs
    simp only [next_outside_ne_broken, if_false, ne_eq, not_true]
    split
    · exact .ok ⟨rfl, rfl, fun _ => hR, hbraceAt⟩
    · split
      · refine .ok ⟨rfl, rfl, hquoteAt, fun _ => ?_⟩
        simp only
        split
        · exact hR
        · next hdepth => exact hbraceAt hdepth
      · split
        · split
          · exact .error ⟨rfl, hR⟩
          · next hdepth => exact .ok ⟨rfl, rfl, hquoteAt, fun _ => hbraceAt hdepth⟩
        · exact .ok h
  · simp only [hs, ne_eq, not_false_eq_true, if_true]
    split
    · exact .error ⟨rfl, hquoteAt hs⟩
    · exact .ok ⟨rfl, rfl, fun _ => hquoteAt hs, hbraceAt⟩

theorem finish (h : p.Faces R q) : Lockstep (Fault.Faces R) Eq p.finish q.finish := by
  unfold Pass.finish
  rw [h.quoting, h.depth]
  split
  · next hquoting => exact .error ⟨rfl, h.quoteAt hquoting⟩
  · split
    · next hdepth => exact .error ⟨rfl, h.braceAt hdepth⟩
    · exact .ok rfl

end Faces

end Pass

end ContrastLint

import ContrastLint.Proofs.LintAgreement

/-!
# What a result says of its rule

The parts of a result are tied to one another and to the last declarations of
the two slots.  A colour is known if the last declaration of its slot resolves
to it, whatever the other slot holds, and a ratio is computed if both colours
are known.  Otherwise the result gives one reason: an unsupported value goes
before a slot that nothing fills, and the foreground before the background.
-/

namespace ContrastLint

/-! ## Slots -/

section Slots

variable {Place : Type} {slot : Option (Declaration Place)} {r : Rule Place}

/-- The value of a declaration is no colour. -/
def Declaration.Unsupported (d : Declaration Place) : Prop :=
  ∀ color, Rgb.resolve d.value ≠ .ok color

theorem Declaration.not_unsupported_iff {d : Declaration Place} :
    ¬d.Unsupported ↔ ∃ color, Rgb.resolve d.value = .ok color := by
  simp [Unsupported]

theorem Rgb.value_of_resolve_eq_error
    {value : String} {e : UnsupportedColor} (h : resolve value = .error e) : e.value = value := by
  unfold resolve at h
  split at h <;> cases h
  rfl

theorem Rgb.resolve_eq_ok_iff {value : String} {color : Rgb} :
    resolve value = .ok color ↔ ofText? value.toList = some color := by
  rw [resolve]
  cases ofText? value.toList <;> simp

theorem resolveSlot_eq_ok_none_iff : resolveSlot slot = .ok none ↔ slot = none := by
  cases slot with
  | none => simp [resolveSlot]
  | some d => cases hd : Rgb.resolve d.value <;> simp [resolveSlot, hd]

theorem resolveSlot_eq_error_iff {reason : SkipReason} :
    resolveSlot slot = .error reason ↔
      ∃ d, slot = some d ∧ d.Unsupported ∧ reason = .unresolvable d.property d.value := by
  cases slot with
  | none => simp [resolveSlot]
  | some d =>
      cases hd : Rgb.resolve d.value with
      | ok color => simp [resolveSlot, Declaration.Unsupported, hd]
      | error e =>
          simp [resolveSlot, Declaration.Unsupported, hd, Rgb.value_of_resolve_eq_error hd, eq_comm]

/-- A slot holds no unsupported value if it is empty or has a colour. -/
theorem exists_resolveSlot_eq_ok_iff :
    (∃ color?, resolveSlot slot = .ok color?) ↔ ∀ d, slot = some d → ¬d.Unsupported := by
  cases hslot : resolveSlot slot with
  | ok color? =>
      simp only [Except.ok.injEq, exists_eq', true_iff]
      intro d hd hvalue
      have herror := resolveSlot_eq_error_iff.mpr ⟨d, hd, hvalue, rfl⟩
      rw [hslot] at herror
      contradiction
  | error reason =>
      obtain ⟨d, hd, hvalue, -⟩ := resolveSlot_eq_error_iff.mp hslot
      simp only [reduceCtorEq, exists_false, false_iff]
      exact fun hnone => hnone d hd hvalue

theorem slotColor?_resolveSlot_eq_some_iff {color : Rgb} :
    slotColor? (resolveSlot slot) = some color ↔
      ∃ d, slot = some d ∧ Rgb.resolve d.value = .ok color := by
  simp only [slotColor?_resolveSlot, Option.bind_eq_some_iff, Rgb.resolve_eq_ok_iff]

theorem Rule.lastForeground?_eq_none_iff :
    r.lastForeground? = none ↔ ∀ d ∈ r.declarations, d.setsForeground = false := by
  simp [lastForeground?]

theorem Rule.lastBackground?_eq_none_iff :
    r.lastBackground? = none ↔ ∀ d ∈ r.declarations, d.setsBackground = false := by
  simp [lastBackground?]

end Slots

/-! ## Reasons -/

/-- Which of two slots decides why a rule is skipped. -/
theorem Contrast.ofSlots_eq_notComputable_iff
    {foreground background : Except SkipReason (Option Rgb)} {reason : SkipReason} :
    ofSlots foreground background = .notComputable reason ↔
      foreground = .error reason ∨
      (∃ color?, foreground = .ok color?) ∧ background = .error reason ∨
      foreground = .ok none ∧ (∃ color?, background = .ok color?) ∧ reason = .missingForeground ∨
      (∃ color, foreground = .ok (some color)) ∧ background = .ok none ∧
        reason = .missingBackground := by
  rcases foreground with e | _ | f <;> rcases background with e' | _ | b <;>
    simp [ofSlots, eq_comm]

/-- Why a rule is skipped. -/
inductive Rule.Skips {Place : Type} (r : Rule Place) : SkipReason → Prop
  | foreground {d : Declaration Place}
      (hd : r.lastForeground? = some d) (hvalue : d.Unsupported) :
      Skips r (.unresolvable d.property d.value)
  | background {d : Declaration Place}
      (hd : r.lastBackground? = some d) (hvalue : d.Unsupported)
      (hother : ∀ f, r.lastForeground? = some f → ¬f.Unsupported) :
      Skips r (.unresolvable d.property d.value)
  | missingForeground
      (hnone : ∀ d ∈ r.declarations, d.setsForeground = false)
      (hother : ∀ b, r.lastBackground? = some b → ¬b.Unsupported) :
      Skips r .missingForeground
  | missingBackground
      (hnone : ∀ d ∈ r.declarations, d.setsBackground = false)
      (hother : ∃ f, r.lastForeground? = some f ∧ ¬f.Unsupported) :
      Skips r .missingBackground

theorem Rule.ofSlots_eq_notComputable_iff_skips
    {Place : Type} {r : Rule Place} {reason : SkipReason} :
    Contrast.ofSlots (resolveSlot r.lastForeground?) (resolveSlot r.lastBackground?) =
        .notComputable reason ↔
      r.Skips reason := by
  rw [Contrast.ofSlots_eq_notComputable_iff, exists_resolveSlot_eq_ok_iff,
    exists_resolveSlot_eq_ok_iff, resolveSlot_eq_ok_none_iff, resolveSlot_eq_ok_none_iff,
    lastForeground?_eq_none_iff, lastBackground?_eq_none_iff, resolveSlot_eq_error_iff,
    resolveSlot_eq_error_iff]
  constructor
  · rintro (⟨d, hd, hvalue, rfl⟩ | ⟨hother, d, hd, hvalue, rfl⟩ | ⟨hnone, hother, rfl⟩ |
      ⟨⟨color, hcolor⟩, hnone, rfl⟩)
    · exact .foreground hd hvalue
    · exact .background hd hvalue hother
    · exact .missingForeground hnone hother
    · obtain ⟨f, hf, hresolve⟩ := resolveSlot_eq_ok_some_iff.mp hcolor
      exact .missingBackground hnone ⟨f, hf, Declaration.not_unsupported_iff.mpr ⟨color, hresolve⟩⟩
  · intro h
    cases h with
    | foreground hd hvalue => exact .inl ⟨_, hd, hvalue, rfl⟩
    | background hd hvalue hother => exact .inr (.inl ⟨hother, _, hd, hvalue, rfl⟩)
    | missingForeground hnone hother => exact .inr (.inr (.inl ⟨hnone, hother, rfl⟩))
    | missingBackground hnone hother =>
        obtain ⟨f, hf, hvalue⟩ := hother
        obtain ⟨color, hresolve⟩ := Declaration.not_unsupported_iff.mp hvalue
        have hcolor := resolveSlot_eq_ok_some_iff.mpr ⟨f, hf, hresolve⟩
        exact .inr (.inr (.inr ⟨⟨color, hcolor⟩, hnone, rfl⟩))

/-! ## Results -/

/-- What a result says of a rule that is measured against a threshold. -/
structure ContrastResult.Describes
    (result : ContrastResult) (r : Rule Position) (threshold : Float) : Prop where
  selector : result.selector = r.selector
  line : result.line = r.place.line
  foreground : ∀ color, result.foreground = some color ↔
    ∃ d, r.lastForeground? = some d ∧ Rgb.resolve d.value = .ok color
  background : ∀ color, result.background = some color ↔
    ∃ d, r.lastBackground? = some d ∧ Rgb.resolve d.value = .ok color
  computed : ∀ ratio, result.contrast = .computed ratio ↔
    ∃ f b, result.foreground = some f ∧ result.background = some b ∧ ratio = contrastRatio f b
  skipped : ∀ reason, result.contrast = .notComputable reason ↔ r.Skips reason
  passes : result.passes = true ↔
    ∃ ratio, result.contrast = .computed ratio ∧ meets ratio threshold = true
  fails : result.fails = true ↔
    ∃ f b, result.foreground = some f ∧ result.background = some b ∧
      meets (contrastRatio f b) threshold = false

theorem Contrast.passes_eq_true_iff {contrast : Contrast} {threshold : Float} :
    contrast.passes threshold = true ↔
      ∃ ratio, contrast = .computed ratio ∧ meets ratio threshold = true := by
  cases contrast <;> simp [passes]

theorem Rule.foreground_evaluate_eq_some_iff {r : Rule Position} {threshold : Float} {color : Rgb} :
    (r.evaluate threshold).value.foreground = some color ↔
      ∃ d, r.lastForeground? = some d ∧ Rgb.resolve d.value = .ok color := by
  rw [← slotColor?_resolveSlot_eq_some_iff]
  simp [evaluate, slots_eq]

theorem Rule.background_evaluate_eq_some_iff {r : Rule Position} {threshold : Float} {color : Rgb} :
    (r.evaluate threshold).value.background = some color ↔
      ∃ d, r.lastBackground? = some d ∧ Rgb.resolve d.value = .ok color := by
  rw [← slotColor?_resolveSlot_eq_some_iff]
  simp [evaluate, slots_eq]

/-- What holds of the two colours of a result holds of those that the last
declarations resolve to. -/
theorem Rule.exists_colors_iff
    (r : Rule Position) (threshold : Float) (holds : Rgb → Rgb → Prop) :
    (∃ foreground background, (r.evaluate threshold).value.foreground = some foreground ∧
        (r.evaluate threshold).value.background = some background ∧ holds foreground background) ↔
      ∃ f b foreground background, r.lastForeground? = some f ∧ r.lastBackground? = some b ∧
        Rgb.resolve f.value = .ok foreground ∧ Rgb.resolve b.value = .ok background ∧
        holds foreground background := by
  simp only [foreground_evaluate_eq_some_iff, background_evaluate_eq_some_iff]
  constructor
  · rintro ⟨foreground, background, ⟨f, hf, hcolor⟩, ⟨b, hb, hcolor'⟩, hholds⟩
    exact ⟨f, b, foreground, background, hf, hb, hcolor, hcolor', hholds⟩
  · rintro ⟨f, b, foreground, background, hf, hb, hcolor, hcolor', hholds⟩
    exact ⟨foreground, background, ⟨f, hf, hcolor⟩, ⟨b, hb, hcolor'⟩, hholds⟩

/-- The result of a rule, whatever it declares and whatever the threshold, describes
the rule. -/
theorem Rule.describes_evaluate (r : Rule Position) (threshold : Float) :
    (r.evaluate threshold).value.Describes r threshold := by
  constructor
  case selector => rfl
  case line => rfl
  case foreground => exact fun _ => foreground_evaluate_eq_some_iff
  case background => exact fun _ => background_evaluate_eq_some_iff
  case computed =>
    intro ratio
    have hcolors := r.exists_colors_iff threshold fun f b => ratio = contrastRatio f b
    exact contrast_eq_computed_iff.trans hcolors.symm
  case skipped =>
    intro reason
    rw [← ofSlots_eq_notComputable_iff_skips]
    simp [evaluate, slots_eq]
  case passes => exact Contrast.passes_eq_true_iff
  case fails =>
    have hcolors := r.exists_colors_iff threshold fun f b =>
      meets (contrastRatio f b) threshold = false
    exact fails_iff_fallsShort.trans hcolors.symm

end ContrastLint

import ContrastLint.Color.Palette
import ContrastLint.Proofs.LintAgreement

/-!
# Colour declarations and what depends on them

Pruning keeps the rules that declare a colour and, in each of them, the colour
declarations.  Slots and palettes are read from these alone.  A slot moreover
depends only on the declarations that fill it and on their order: those of other
properties and of the other slot may stand anywhere, and no declaration counts
for more because it is important.
-/

namespace ContrastLint

variable {Place : Type}

namespace Assignment

/-- The property is one of those that declare colours, in any case. -/
def DeclaresColor (a : Assignment) : Prop :=
  ∃ name ∈ ["color", "background", "background-color"], a.isNamed name = true

instance (a : Assignment) : Decidable a.DeclaresColor :=
  inferInstanceAs (Decidable (∃ name ∈ _, _))

theorem setsColor_iff_declaresColor {a : Assignment} :
    a.setsColor = true ↔ a.DeclaresColor := by
  simp [setsColor, setsForeground, setsBackground, DeclaresColor]

end Assignment

theorem filter_setsColor (declarations : List (Declaration Place)) :
    declarations.filter (·.setsColor) = declarations.filter (·.DeclaresColor) := by
  apply List.filter_congr
  intro d _
  rw [Bool.eq_iff_iff, decide_eq_true_iff]
  exact Assignment.setsColor_iff_declaresColor

namespace Rule

def DeclaresColor (r : Rule Place) : Prop :=
  ∃ d ∈ r.declarations, d.DeclaresColor

instance (r : Rule Place) : Decidable r.DeclaresColor :=
  inferInstanceAs (Decidable (∃ d ∈ r.declarations, _))

/-- The rule without the declarations of other properties. -/
def colored (r : Rule Place) : Rule Place :=
  { r with declarations := r.declarations.filter (·.DeclaresColor) }

theorem declaresColor_iff_ne_nil {r : Rule Place} :
    r.DeclaresColor ↔ r.colored.declarations ≠ [] := by
  simp [DeclaresColor, colored, List.filter_eq_nil_iff]

theorem declaresColor_colored_iff {r : Rule Place} : r.colored.DeclaresColor ↔ r.DeclaresColor := by
  simp [DeclaresColor, colored]

theorem pruned?_eq (r : Rule Place) :
    r.pruned? = if r.DeclaresColor then some r.colored else none := by
  unfold pruned?
  rw [filter_setsColor]
  split
  · next hnil => rw [if_neg fun h => declaresColor_iff_ne_nil.mp h hnil]
  · next hne => rw [if_pos (declaresColor_iff_ne_nil.mpr hne), colored]

theorem slots_isEmpty_iff {r : Rule Place} : r.slots.isEmpty = true ↔ ¬r.DeclaresColor := by
  have hnone : r.pruned? = none ↔ ¬r.DeclaresColor := by
    rw [pruned?_eq]
    simp
  rw [← hnone, pruned?_eq_none_iff, slots_eq]
  simp [Slots.isEmpty]

/-! ## What slots depend on -/

/-- Two rules have the same declarations of the foreground in the same order, and the
same declarations of the background in the same order. -/
structure SameColors (r s : Rule Place) : Prop where
  foreground : r.declarations.filter (·.setsForeground) = s.declarations.filter (·.setsForeground)
  background : r.declarations.filter (·.setsBackground) = s.declarations.filter (·.setsBackground)

theorem find?_reverse (declarations : List (Declaration Place)) (p : Declaration Place → Bool) :
    declarations.reverse.find? p = (declarations.filter p).getLast? := by
  rw [← List.head?_filter, List.filter_reverse, List.head?_reverse]

theorem SameColors.slots_eq {r s : Rule Place} (h : r.SameColors s) : r.slots = s.slots := by
  rw [Rule.slots_eq, Rule.slots_eq, lastForeground?, lastBackground?, lastForeground?,
    lastBackground?, find?_reverse, find?_reverse, find?_reverse, find?_reverse, h.foreground,
    h.background]

/-- Pruning removes nothing that a search for some colour declarations finds. -/
theorem filter_colored
    (r : Rule Place) {p : Declaration Place → Bool} (hp : ∀ d, p d = true → d.setsColor = true) :
    r.colored.declarations.filter p = r.declarations.filter p := by
  rw [colored, ← filter_setsColor, List.filter_filter]
  apply List.filter_congr
  intro d _
  cases hd : p d with
  | false => rfl
  | true => simp [hp d hd]

theorem sameColors_colored (r : Rule Place) : r.colored.SameColors r := by
  constructor
  case foreground => exact r.filter_colored fun d hd => by simp [Assignment.setsColor, hd]
  case background => exact r.filter_colored fun d hd => by simp [Assignment.setsColor, hd]

/-- Whatever else is declared between the colours does not count. -/
theorem sameColors_of_insert
    {r s : Rule Place} {front others back : List (Declaration Place)}
    (hr : r.declarations = front ++ back) (hs : s.declarations = front ++ others ++ back)
    (hothers : ∀ d ∈ others, ¬d.DeclaresColor) : s.SameColors r := by
  have hnone (p : Declaration Place → Bool) (hp : ∀ d, p d = true → d.setsColor = true) :
      s.declarations.filter p = r.declarations.filter p := by
    have hnil : others.filter p = [] := by
      rw [List.filter_eq_nil_iff]
      intro d hd hmatch
      exact hothers d hd (Assignment.setsColor_iff_declaresColor.mp (hp d hmatch))
    rw [hr, hs, List.filter_append, List.filter_append, List.filter_append, hnil, List.append_nil]
  constructor
  case foreground => exact hnone _ fun d hd => by simp [Assignment.setsColor, hd]
  case background => exact hnone _ fun d hd => by simp [Assignment.setsColor, hd]

end Rule

/-- The declaration, important or not as told. -/
def Declaration.marked (important : Declaration Place → Bool) (d : Declaration Place) :
    Declaration Place :=
  { d with important := important d }

namespace Rule

def marked (important : Declaration Place → Bool) (r : Rule Place) : Rule Place :=
  { r with declarations := r.declarations.map (·.marked important) }

/-- The slots of a rule are decided by the colour declarations alone, in each slot by
their order, and by no mark of importance. -/
structure SteadySlots (r : Rule Place) : Prop where
  colored : r.colored.slots = r.slots
  inserted : ∀ front others back, r.declarations = front ++ back →
    (∀ d ∈ others, ¬d.DeclaresColor) →
    ({ r with declarations := front ++ others ++ back } : Rule Place).slots = r.slots
  reordered : ∀ s, r.SameColors s → s.slots = r.slots
  marked : ∀ important, (r.marked important).slots =
    ⟨r.slots.foreground.map (·.marked important), r.slots.background.map (·.marked important)⟩

theorem steadySlots (r : Rule Place) : r.SteadySlots := by
  constructor
  case colored => exact r.sameColors_colored.slots_eq
  case inserted =>
    intro front others back hr hothers
    exact (sameColors_of_insert hr rfl hothers).slots_eq
  case reordered => exact fun s hsame => hsame.slots_eq.symm
  case marked => exact fun important => slots_of_map rfl fun _ => rfl

end Rule

/-! ## What pruning keeps -/

namespace Document

/-- A document is reduced to the rules that declare a colour and to their colour
declarations.  Doing so again changes nothing, and the palette stays the same. -/
structure Reduces (doc pruned : Document Place) : Prop where
  rules : ∀ node ∈ pruned.nodes, ∃ r, node = .rule r ∧ r.declarations ≠ [] ∧
    ∀ d ∈ r.declarations, d.DeclaresColor
  nodes : pruned.nodes = (doc.rules.filter (·.DeclaresColor)).map fun r => .rule r.colored
  again : pruned.pruned = pruned
  palette : pruned.palette? = doc.palette?

theorem nodes_pruned (doc : Document Place) :
    doc.pruned.nodes = (doc.rules.filter (·.DeclaresColor)).map fun r => .rule r.colored := by
  have hrule (r : Rule Place) : r.pruned?.map Node.rule =
      (Option.guard (·.DeclaresColor) r).map fun r => .rule r.colored := by
    rw [Rule.pruned?_eq]
    by_cases hcolor : r.DeclaresColor <;> simp [Option.guard, hcolor]
  rw [← List.filterMap_eq_filter, List.map_filterMap]
  exact List.filterMap_congr fun r _ => hrule r

theorem pruned_pruned (doc : Document Place) : doc.pruned.pruned = doc.pruned :=
  pruned_of_colored fun _ hnode => colored_of_mem_pruned hnode

theorem foldl_addRule_pruned (doc : Document Place) (p : Palette) :
    doc.pruned.rules.foldl Palette.addRule p = doc.rules.foldl Palette.addRule p := by
  rw [rules_pruned, List.foldl_filterMap]
  congr 1
  funext p r
  rw [Rule.pruned?_eq]
  by_cases hcolor : r.DeclaresColor
  · simp only [if_pos hcolor, Palette.addRule, r.sameColors_colored.slots_eq]
    rfl
  · simp only [if_neg hcolor, Palette.addRule, Rule.slots_isEmpty_iff.mpr hcolor, if_true]

theorem palette?_pruned (doc : Document Place) : doc.pruned.palette? = doc.palette? := by
  rw [palette?, foldl_addRule_pruned, palette?]

/-- Pruning keeps exactly the colour declarations of the rules that have some, in
their order, and what it removes decides no slot. -/
theorem reduces_pruned_and_steadySlots (doc : Document Place) :
    doc.Reduces doc.pruned ∧ ∀ r : Rule Place, r.SteadySlots := by
  refine ⟨?_, Rule.steadySlots⟩
  constructor
  case rules =>
    intro node hnode
    cases colored_of_mem_pruned hnode with
    | rule nonempty colors =>
        exact ⟨_, rfl, nonempty, fun d hd =>
          Assignment.setsColor_iff_declaresColor.mp (colors d hd)⟩
  case nodes => exact doc.nodes_pruned
  case again => exact doc.pruned_pruned
  case palette => exact doc.palette?_pruned

end Document

end ContrastLint

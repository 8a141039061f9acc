import ContrastLint.Color.Palette
import Mathlib.Tactic

/-!
# The last declaration decides

The slots of a rule are the result of a fold over its declarations.  Here they
are found by a search from the end of the rule.  In this form it is plain that
pruning a rule does not change its slots, since the search skips everything
that pruning removes.  Neither slots nor pruning depend on places.
-/

namespace ContrastLint

variable {Place : Type}

namespace Assignment

theorem setsBackground_of_setsForeground
    {a : Assignment} (h : a.setsForeground = true) : a.setsBackground = false := by
  have hname : a.property.toList.map Char.toLower = "color".toList.map Char.toLower := by
    simpa [setsForeground, isNamed, Text.equalsIgnoringCase] using h
  simp [setsBackground, isNamed, Text.equalsIgnoringCase, hname]

end Assignment

namespace Rule

/-- The last declaration of a rule that fills the foreground. -/
def lastForeground? (r : Rule Place) : Option (Declaration Place) :=
  r.declarations.reverse.find? (·.setsForeground)

def lastBackground? (r : Rule Place) : Option (Declaration Place) :=
  r.declarations.reverse.find? (·.setsBackground)

end Rule

theorem Slots.foldl_declare (declarations : List (Declaration Place)) :
    declarations.foldl Slots.declare .empty =
      ⟨declarations.reverse.find? (·.setsForeground),
        declarations.reverse.find? (·.setsBackground)⟩ := by
  induction declarations using List.reverseRecOn with
  | nil => rfl
  | append_singleton declarations d ih =>
      rw [List.foldl_append, ih]
      by_cases hforeground : d.setsForeground = true
      · have hbackground := Assignment.setsBackground_of_setsForeground hforeground
        simp [Slots.declare, hforeground, hbackground]
      · by_cases hbackground : d.setsBackground = true
        · simp [Slots.declare, hforeground, hbackground]
        · simp [Slots.declare, hforeground, hbackground]

theorem Rule.slots_eq (r : Rule Place) :
    r.slots = ⟨r.lastForeground?, r.lastBackground?⟩ :=
  Slots.foldl_declare r.declarations

/-- A search that accepts colour declarations alone is not changed by pruning. -/
theorem find?_reverse_filter_setsColor
    (declarations : List (Declaration Place)) (p : Declaration Place → Bool)
    (hp : ∀ d, p d = true → d.setsColor = true) :
    (declarations.filter (·.setsColor)).reverse.find? p = declarations.reverse.find? p := by
  rw [← List.filter_reverse, List.find?_filter]
  congr 1
  funext d
  cases hd : p d with
  | false => simp
  | true => simp [hp d hd]

theorem Rule.eq_of_pruned?
    {r pruned : Rule Place} (h : r.pruned? = some pruned) :
    pruned = { r with declarations := r.declarations.filter (·.setsColor) } := by
  unfold pruned? at h
  split at h
  · contradiction
  · exact (Option.some.inj h).symm

theorem Rule.slots_of_pruned?
    {r pruned : Rule Place} (h : r.pruned? = some pruned) :
    pruned.slots = r.slots ∧ pruned.selector = r.selector ∧ pruned.place = r.place := by
  obtain rfl := eq_of_pruned? h
  refine ⟨?_, rfl, rfl⟩
  rw [slots_eq, slots_eq, lastForeground?, lastBackground?, lastForeground?, lastBackground?]
  rw [find?_reverse_filter_setsColor _ (·.setsForeground) (by simp_all [Assignment.setsColor])]
  rw [find?_reverse_filter_setsColor _ (·.setsBackground) (by simp_all [Assignment.setsColor])]

theorem Rule.pruned?_eq_none_iff {r : Rule Place} :
    r.pruned? = none ↔ r.lastForeground? = none ∧ r.lastBackground? = none := by
  have hfilter : r.pruned? = none ↔ r.declarations.filter (·.setsColor) = [] := by
    unfold pruned?
    split
    · next h => simp [h]
    · next h => simpa using h
  rw [hfilter, lastForeground?, lastBackground?]
  simp only [List.filter_eq_nil_iff, List.find?_eq_none, List.mem_reverse,
    Assignment.setsColor, Bool.or_eq_true, not_or]
  constructor
  · intro h
    exact ⟨fun d hd => (h d hd).1, fun d hd => (h d hd).2⟩
  · rintro ⟨hforeground, hbackground⟩ d hd
    exact ⟨hforeground d hd, hbackground d hd⟩

theorem Document.mem_rules_iff {doc : Document Place} {r : Rule Place} :
    r ∈ doc.rules ↔ .rule r ∈ doc.nodes := by
  rw [rules, List.mem_filterMap]
  constructor
  · rintro ⟨node, hnode, hrule⟩
    cases node with
    | rule r' =>
        cases hrule
        exact hnode
    | declaration d => contradiction
    | atRule a => contradiction
  · exact fun h => ⟨_, h, rfl⟩

/-- Every declaration of the node is a colour declaration of its rule, and there
is one. -/
inductive Node.Colored : Node Place → Prop
  | rule {r : Rule Place} (nonempty : r.declarations ≠ [])
      (colors : ∀ d ∈ r.declarations, d.setsColor = true) : Colored (.rule r)

namespace Document

theorem colored_of_mem_pruned
    {doc : Document Place} {node : Node Place} (h : node ∈ doc.pruned.nodes) : node.Colored := by
  obtain ⟨r, -, hpruned⟩ := List.mem_filterMap.mp h
  obtain ⟨kept, hkept, rfl⟩ := Option.map_eq_some_iff.mp hpruned
  constructor
  case nonempty =>
    unfold Rule.pruned? at hkept
    split at hkept
    · contradiction
    · next hne =>
        cases hkept
        exact hne
  case colors =>
    intro d hd
    rw [Rule.eq_of_pruned? hkept] at hd
    exact (List.mem_filter.mp hd).2

/-- Pruning changes nothing where there is nothing to prune. -/
theorem pruned_of_colored
    {doc : Document Place} (h : ∀ node ∈ doc.nodes, node.Colored) : doc.pruned = doc := by
  have hnode : ∀ node ∈ doc.nodes,
      (node.rule?.bind fun r => r.pruned?.map .rule) = some node := by
    intro node hmem
    cases h node hmem with
    | @rule r nonempty colors =>
        have hfilter : r.declarations.filter (·.setsColor) = r.declarations :=
          List.filter_eq_self.mpr colors
        have hkept : r.pruned? = some r := by
          unfold Rule.pruned?
          rw [hfilter]
          split
          · contradiction
          · rfl
        simp [Node.rule?, hkept]
  rw [pruned, rules, List.filterMap_filterMap]
  rw [List.filterMap_congr hnode, List.filterMap_some]

end Document

/-! ## Places -/

section Places

variable {α β : Type}

def Slots.map (f : α → β) (s : Slots α) : Slots β :=
  ⟨s.foreground.map (Declaration.map f), s.background.map (Declaration.map f)⟩

/-- Declarations that are changed in other respects than their properties decide the
same slots. -/
theorem Rule.slots_of_map
    {r : Rule α} {s : Rule β} {f : Declaration α → Declaration β}
    (hdeclarations : s.declarations = r.declarations.map f)
    (hproperty : ∀ d, (f d).property = d.property) :
    s.slots = ⟨r.slots.foreground.map f, r.slots.background.map f⟩ := by
  have hnamed (d : Declaration α) (name : String) : (f d).isNamed name = d.isNamed name := by
    rw [Assignment.isNamed, Assignment.isNamed, hproperty]
  have hforeground : (fun d => (f d).setsForeground) = fun d => d.setsForeground :=
    funext fun d => hnamed d "color"
  have hbackground : (fun d => (f d).setsBackground) = fun d => d.setsBackground := by
    funext d
    rw [Assignment.setsBackground, Assignment.setsBackground, hnamed, hnamed]
  rw [slots_eq, slots_eq, lastForeground?, lastBackground?, hdeclarations, ← List.map_reverse,
    List.find?_map, List.find?_map]
  simp only [Function.comp_def, hforeground, hbackground, lastForeground?, lastBackground?]

theorem Rule.slots_map (f : α → β) (r : Rule α) : (r.map f).slots = r.slots.map f :=
  slots_of_map rfl fun _ => rfl

theorem Rule.pruned?_map (f : α → β) (r : Rule α) :
    (r.map f).pruned? = r.pruned?.map (Rule.map f) := by
  have hfilter : (r.map f).declarations.filter (·.setsColor) =
      (r.declarations.filter (·.setsColor)).map (Declaration.map f) := List.filter_map
  unfold pruned?
  rw [hfilter]
  cases r.declarations.filter (·.setsColor) <;> rfl

theorem Document.rules_map (f : α → β) (doc : Document α) :
    (doc.map f).rules = doc.rules.map (Rule.map f) := by
  have hnode : ∀ node : Node α, (node.map f).rule? = node.rule?.map (Rule.map f) := by
    intro node
    cases node <;> rfl
  simp [rules, map, List.filterMap_map, List.map_filterMap, hnode]

theorem Document.declarations_map (f : α → β) (doc : Document α) :
    (doc.map f).declarations = doc.declarations.map (Declaration.map f) := by
  have hnode : ∀ node : Node α,
      (node.map f).declarations = node.declarations.map (Declaration.map f) := by
    intro node
    cases node <;> rfl
  simp [declarations, map, List.flatMap_map, List.map_flatMap, hnode]

theorem Document.pruned_map (f : α → β) (doc : Document α) :
    (doc.map f).pruned = doc.pruned.map f := by
  have hrule : ∀ r : Rule α, (r.map f).pruned?.map Node.rule =
      (r.pruned?.map Node.rule).map (Node.map f) := by
    intro r
    rw [Rule.pruned?_map]
    cases r.pruned? <;> rfl
  rw [pruned, rules_map]
  simp [pruned, map, List.filterMap_map, List.map_filterMap, hrule]

end Places

end ContrastLint

import ContrastLint.Proofs.ColorDeclarations
import ContrastLint.Proofs.Entries

/-!
# Palettes by selector

A palette is built rule by rule, and rules with the same selector may have others
between them.  What it holds for a selector is nevertheless what a single rule
would have that has the declarations of them all, one after the other.  So the
palette of two documents in a row is the palette of the first with the slots
replaced that the second fills, and a selector's colours depend on its own rules
alone.
-/

namespace ContrastLint

variable {Place : Type}

/-! ## Slots of rules in a row -/

/-- The raw values of the slots, if one of them is filled. -/
def Slots.pair? (s : Slots Place) : Option ColorPair :=
  if s.isEmpty then none else some (.ofSlots s)

theorem Rule.slots_of_append
    {r s t : Rule Place} (h : t.declarations = r.declarations ++ s.declarations) :
    t.slots = ⟨s.slots.foreground.or r.slots.foreground,
      s.slots.background.or r.slots.background⟩ := by
  simp only [slots_eq, lastForeground?, lastBackground?, h, List.reverse_append, List.find?_append]

theorem Rule.pair?_of_append
    {r s t : Rule Place} (h : t.declarations = r.declarations ++ s.declarations) :
    t.slots.pair? = Option.merge ColorPair.overlay r.slots.pair? s.slots.pair? := by
  rw [slots_of_append h]
  rcases r.slots with ⟨_ | f, _ | b⟩ <;> rcases s.slots with ⟨_ | f', _ | b'⟩ <;> rfl

/-- The declarations of all rules with one selector, as a single rule. -/
def Rule.gather (rules : List (Rule Place)) (selector : String) (place : Place) : Rule Place :=
  { selector
    declarations := (rules.filter (·.selector = selector)).flatMap (·.declarations)
    place }

namespace Rule

variable {rules others : List (Rule Place)} {selector : String} {place : Place}

theorem declarations_gather_append :
    (gather (rules ++ others) selector place).declarations =
      (gather rules selector place).declarations ++
        (gather others selector place).declarations := by
  simp [gather]

theorem declaresColor_gather_iff :
    (gather rules selector place).DeclaresColor ↔
      ∃ r ∈ rules, r.selector = selector ∧ r.DeclaresColor := by
  simp only [DeclaresColor, gather, List.mem_flatMap, List.mem_filter, decide_eq_true_iff]
  constructor
  · rintro ⟨d, ⟨r, ⟨hr, hselector⟩, hd⟩, hcolor⟩
    exact ⟨r, hr, hselector, d, hd, hcolor⟩
  · rintro ⟨r, hr, hselector, d, hd, hcolor⟩
    exact ⟨d, ⟨r, ⟨hr, hselector⟩, hd⟩, hcolor⟩

theorem pair?_gather_singleton (r : Rule Place) (selector : String) (place : Place) :
    (gather [r] selector place).slots.pair? =
      if selector = r.selector then r.slots.pair? else none := by
  by_cases hselector : r.selector = selector
  · have hsame : (gather [r] selector place).declarations = r.declarations := by
      simp [gather, hselector]
    rw [if_pos hselector.symm, Rule.slots, hsame, Rule.slots]
  · have hnone : (gather [r] selector place).declarations = [] := by
      simp [gather, hselector]
    rw [if_neg (Ne.symm hselector), Rule.slots, hnone]
    rfl

theorem pair?_of_declaresColor {r : Rule Place} (h : r.DeclaresColor) :
    r.slots.pair? = some (.ofSlots r.slots) := by
  rw [Slots.pair?, if_neg fun hempty => slots_isEmpty_iff.mp hempty h]

theorem pair?_isSome_iff {r : Rule Place} : r.slots.pair?.isSome = true ↔ r.DeclaresColor := by
  by_cases hcolor : r.DeclaresColor
  · simp [pair?_of_declaresColor hcolor, hcolor]
  · simp [Slots.pair?, slots_isEmpty_iff.mpr hcolor, hcolor]

end Rule

/-! ## Entries -/

namespace Palette

variable {p q : Palette} {entries : List (String × ColorPair)} {selector other : String}
  {pair : ColorPair}

def selectors (p : Palette) : List String :=
  p.entries.map Prod.fst

def Ascending (p : Palette) : Prop :=
  Entries.Ascending p.entries

theorem mem_insertEntry
    {entry : String × ColorPair} (h : entry ∈ insertEntry selector pair entries) :
    entry.1 = selector ∨ ∃ old ∈ entries, old.1 = entry.1 := by
  fun_induction insertEntry selector pair entries with
  | case1 => simp_all
  | case2 => grind
  | case3 => grind
  | case4 => grind

theorem ascending_insertEntry (h : Entries.Ascending entries) :
    Entries.Ascending (insertEntry selector pair entries) := by
  fun_induction insertEntry selector pair entries with
  | case1 => exact List.pairwise_singleton _ _
  | case2 first old rest hbefore => exact h.cons hbefore
  | case3 old rest hbefore =>
      obtain ⟨hfirst, hrest⟩ := List.pairwise_cons.mp h
      exact List.pairwise_cons.mpr ⟨hfirst, hrest⟩
  | case4 first old rest hbefore hsame ih =>
      obtain ⟨hfirst, hrest⟩ := List.pairwise_cons.mp h
      have hafter : first < selector := Std.lt_of_le_of_ne hbefore (Ne.symm hsame)
      refine List.pairwise_cons.mpr ⟨?_, ih hrest⟩
      intro entry hentry
      rcases mem_insertEntry hentry with hentry | ⟨old, hold, hentry⟩
      · exact hentry ▸ hafter
      · exact hentry ▸ hfirst old hold

/-- Insertion lays the pair over that of its selector, and leaves the others. -/
theorem lookup_insertEntry (h : Entries.Ascending entries) (name : String) :
    (insertEntry selector pair entries).lookup name =
      Option.merge ColorPair.overlay (entries.lookup name)
        (if name = selector then some pair else none) := by
  fun_induction insertEntry selector pair entries with
  | case1 =>
      by_cases hname : name = selector
      · simp [hname]
      · simp [Entries.lookup_cons_of_ne, hname]
  | case2 first old rest hbefore =>
      by_cases hname : name = selector
      · subst hname
        have hascending : Entries.Ascending ((name, pair) :: (first, old) :: rest) :=
          h.cons hbefore
        simp [hascending.lookup_eq_none]
      · simp [Entries.lookup_cons_of_ne, hname]
  | case3 old rest hbefore =>
      by_cases hname : name = selector
      · simp [hname]
      · simp [Entries.lookup_cons_of_ne, hname]
  | case4 first old rest hbefore hsame ih =>
      by_cases hname : name = first
      · simp [hname, Ne.symm hsame]
      · rw [Entries.lookup_cons_of_ne hname, Entries.lookup_cons_of_ne hname]
        exact ih (List.pairwise_cons.mp h).2

theorem get?_isSome_iff : (p.get? selector).isSome = true ↔ selector ∈ p.selectors :=
  Entries.lookup_isSome_iff

/-- The palette with the slots replaced that a later one fills. -/
def overlay (p later : Palette) : Palette :=
  later.entries.foldl (fun p entry => p.insert entry.1 entry.2) p

theorem get?_insert (h : p.Ascending) (name : String) :
    (p.insert selector pair).get? name =
      Option.merge ColorPair.overlay (p.get? name) (if name = selector then some pair else none) :=
  lookup_insertEntry h name

theorem ascending_insert (h : p.Ascending) (selector : String) (pair : ColorPair) :
    (p.insert selector pair).Ascending :=
  ascending_insertEntry h

theorem ascending_overlay (h : p.Ascending) (later : Palette) : (p.overlay later).Ascending :=
  List.foldlRecOn later.entries _ h fun _ hp entry _ => ascending_insert hp entry.1 entry.2

theorem get?_foldl_insert (hp : p.Ascending) (h : Entries.Ascending entries) (name : String) :
    (entries.foldl (fun p entry => p.insert entry.1 entry.2) p).get? name =
      Option.merge ColorPair.overlay (p.get? name) (entries.lookup name) := by
  induction entries generalizing p with
  | nil => simp
  | cons entry entries ih =>
      rw [List.foldl_cons, ih (ascending_insert hp entry.1 entry.2) (List.pairwise_cons.mp h).2,
        get?_insert hp]
      by_cases hname : name = entry.1
      · subst hname
        rw [if_pos rfl, List.lookup_cons_self, Entries.Ascending.lookup_eq_none h,
          Option.merge_none_right]
      · rw [if_neg hname, Option.merge_none_right, Entries.lookup_cons_of_ne hname]

theorem get?_overlay (hp : p.Ascending) (hq : q.Ascending) (name : String) :
    (p.overlay q).get? name = Option.merge ColorPair.overlay (p.get? name) (q.get? name) :=
  get?_foldl_insert hp hq name

theorem eq_of_get? (hp : p.Ascending) (hq : q.Ascending) (h : ∀ name, p.get? name = q.get? name) :
    p = q :=
  congrArg mk (Entries.Ascending.ext hp hq h)

/-! ## Rule by rule -/

def ofRules (rules : List (Rule Place)) : Palette :=
  rules.foldl addRule .empty

theorem ascending_addRule (h : p.Ascending) (r : Rule Place) : (p.addRule r).Ascending := by
  unfold addRule
  split
  · exact h
  · exact ascending_insertEntry h

theorem get?_addRule (h : p.Ascending) (r : Rule Place) (name : String) :
    (p.addRule r).get? name = Option.merge ColorPair.overlay (p.get? name)
      (if name = r.selector then r.slots.pair? else none) := by
  rw [addRule, Slots.pair?]
  by_cases hempty : r.slots.isEmpty = true
  · simp [hempty]
  · simp only [if_neg hempty]
    exact get?_insert h name

theorem ofRules_append_singleton (rules : List (Rule Place)) (r : Rule Place) :
    ofRules (rules ++ [r]) = (ofRules rules).addRule r :=
  List.foldl_append

theorem ascending_ofRules (rules : List (Rule Place)) : (ofRules rules).Ascending := by
  induction rules using List.reverseRecOn with
  | nil => exact List.Pairwise.nil
  | append_singleton rules r ih =>
      rw [ofRules_append_singleton]
      exact ascending_addRule ih r

/-- A palette holds for a selector what a single rule would have with the
declarations of all its rules. -/
theorem get?_ofRules (rules : List (Rule Place)) (selector : String) (place : Place) :
    (ofRules rules).get? selector = (Rule.gather rules selector place).slots.pair? := by
  induction rules using List.reverseRecOn with
  | nil => rfl
  | append_singleton rules r ih =>
      rw [ofRules_append_singleton, get?_addRule (ascending_ofRules rules), ih,
        ← Rule.pair?_gather_singleton r selector place,
        ← Rule.pair?_of_append Rule.declarations_gather_append]

section Rules

variable [Inhabited Place] {rules others : List (Rule Place)}

theorem get?_ofRules_append (rules others : List (Rule Place)) (name : String) :
    (ofRules (rules ++ others)).get? name =
      Option.merge ColorPair.overlay ((ofRules rules).get? name) ((ofRules others).get? name) := by
  rw [get?_ofRules _ _ default, get?_ofRules _ _ default, get?_ofRules _ _ default]
  exact Rule.pair?_of_append Rule.declarations_gather_append

theorem ofRules_append (rules others : List (Rule Place)) :
    ofRules (rules ++ others) = (ofRules rules).overlay (ofRules others) := by
  have hrules := ascending_ofRules rules
  have hothers := ascending_ofRules others
  apply eq_of_get? (ascending_ofRules _) (ascending_overlay hrules _)
  intro name
  rw [get?_ofRules_append, get?_overlay hrules hothers]

theorem mem_selectors_ofRules_iff :
    selector ∈ (ofRules rules).selectors ↔
      ∃ r ∈ rules, r.selector = selector ∧ r.DeclaresColor := by
  rw [← get?_isSome_iff, get?_ofRules _ _ default, Rule.pair?_isSome_iff,
    Rule.declaresColor_gather_iff]

theorem entries_ofRules_eq_nil_iff :
    (ofRules rules).entries = [] ↔ ∀ r ∈ rules, ¬r.DeclaresColor := by
  have hnil : (ofRules rules).entries = [] ↔ ∀ selector, selector ∉ (ofRules rules).selectors := by
    rw [selectors, ← List.eq_nil_iff_forall_not_mem, List.map_eq_nil_iff]
  rw [hnil]
  constructor
  · exact fun h r hr hcolor => h r.selector (mem_selectors_ofRules_iff.mpr ⟨r, hr, rfl, hcolor⟩)
  · intro h selector hmem
    obtain ⟨r, hr, -, hcolor⟩ := mem_selectors_ofRules_iff.mp hmem
    exact h r hr hcolor

end Rules

/-! ## Palettes with entries -/

def nonempty? (p : Palette) : Option Palette :=
  if p.entries.isEmpty then none else some p

theorem nonempty?_eq_none_iff : p.nonempty? = none ↔ p.entries = [] := by
  simp [nonempty?]

theorem nonempty?_of_ne_nil (h : p.entries ≠ []) : p.nonempty? = some p := by
  rw [nonempty?, if_neg (mt List.isEmpty_iff.mp h)]

theorem eq_of_nonempty?_eq_some (h : p.nonempty? = some q) : q = p := by
  rw [nonempty?, Option.ite_none_left_eq_some] at h
  exact (Option.some.inj h.2).symm

theorem insertEntry_ne_nil : insertEntry selector pair entries ≠ [] := by
  fun_cases insertEntry selector pair entries <;> simp

theorem overlay_ne_nil (h : p.entries ≠ []) (later : Palette) : (p.overlay later).entries ≠ [] :=
  List.foldlRecOn (motive := fun p : Palette => p.entries ≠ []) later.entries _ h
    fun _ _ _ _ => insertEntry_ne_nil

theorem nonempty?_overlay (hp : p.Ascending) (hq : q.Ascending) :
    (p.overlay q).nonempty? = Option.merge overlay p.nonempty? q.nonempty? := by
  by_cases hpnil : p.entries = []
  · have hsame : p.overlay q = q := by
      apply eq_of_get? (ascending_overlay hp q) hq
      intro name
      rw [get?_overlay hp hq, Palette.get?, hpnil]
      exact Option.merge_none_left
    rw [hsame, nonempty?_eq_none_iff.mpr hpnil, Option.merge_none_left]
  · rw [nonempty?_of_ne_nil (overlay_ne_nil hpnil q), nonempty?_of_ne_nil hpnil]
    by_cases hqnil : q.entries = []
    · rw [nonempty?_eq_none_iff.mpr hqnil, Option.merge_none_right, overlay, hqnil, List.foldl_nil]
    · rw [nonempty?_of_ne_nil hqnil, Option.merge_some_some]

end Palette

/-! ## Palettes of documents -/

/-- A palette has an entry for each selector of which some rule declares a colour:
the values of the slots that all rules of the selector have together. -/
structure Palette.Describes (palette : Palette) (doc : Document Place) : Prop where
  ascending : palette.Ascending
  selectors : ∀ selector, selector ∈ palette.selectors ↔
    ∃ r ∈ doc.rules, r.selector = selector ∧ r.DeclaresColor
  pairs : ∀ selector ∈ palette.selectors, ∀ place,
    palette.get? selector = some (.ofSlots (Rule.gather doc.rules selector place).slots)

namespace Document

variable {doc : Document Place}

/-- What the palette of a document holds for a selector. -/
def pair? (doc : Document Place) (selector : String) : Option ColorPair :=
  doc.palette?.bind (·.get? selector)

theorem palette?_eq (doc : Document Place) :
    doc.palette? = (Palette.ofRules doc.rules).nonempty? :=
  rfl

theorem palette?_eq_none_iff [Inhabited Place] :
    doc.palette? = none ↔ ∀ r ∈ doc.rules, ¬r.DeclaresColor := by
  rw [palette?_eq, Palette.nonempty?_eq_none_iff, Palette.entries_ofRules_eq_nil_iff]

theorem pair?_eq (doc : Document Place) (selector : String) :
    doc.pair? selector = (Palette.ofRules doc.rules).get? selector := by
  rw [pair?, palette?_eq]
  by_cases hnil : (Palette.ofRules doc.rules).entries = []
  · rw [Palette.nonempty?_eq_none_iff.mpr hnil, Palette.get?, hnil]
    rfl
  · rw [Palette.nonempty?_of_ne_nil hnil, Option.bind_some]

theorem rules_append (doc other : Document Place) :
    (doc.append other).rules = doc.rules ++ other.rules :=
  List.filterMap_append

theorem palette?_append [Inhabited Place] (doc other : Document Place) :
    (doc.append other).palette? = Option.merge Palette.overlay doc.palette? other.palette? := by
  simp only [palette?_eq, rules_append, Palette.ofRules_append]
  exact Palette.nonempty?_overlay (Palette.ascending_ofRules _) (Palette.ascending_ofRules _)

theorem pair?_append [Inhabited Place] (doc other : Document Place) (selector : String) :
    (doc.append other).pair? selector =
      Option.merge ColorPair.overlay (doc.pair? selector) (other.pair? selector) := by
  simp only [pair?_eq, rules_append, Palette.get?_ofRules_append]

/-- Rules of other selectors have no part in what a palette holds for a selector. -/
theorem pair?_congr
    [Inhabited Place] {doc other : Document Place} {selector : String}
    (h : doc.rules.filter (·.selector = selector) = other.rules.filter (·.selector = selector)) :
    doc.pair? selector = other.pair? selector := by
  rw [pair?_eq, pair?_eq, Palette.get?_ofRules _ _ default, Palette.get?_ofRules _ _ default,
    Rule.gather, Rule.gather, h]

theorem describes_palette?
    [Inhabited Place] {palette : Palette} (h : doc.palette? = some palette) :
    palette.Describes doc := by
  rw [palette?_eq] at h
  obtain rfl := Palette.eq_of_nonempty?_eq_some h
  constructor
  case ascending => exact Palette.ascending_ofRules _
  case selectors => exact fun selector => Palette.mem_selectors_ofRules_iff
  case pairs =>
    intro selector hselector place
    rw [Palette.get?_ofRules _ _ place]
    exact Rule.pair?_of_declaresColor
      (Rule.declaresColor_gather_iff.mpr (Palette.mem_selectors_ofRules_iff.mp hselector))

/-- A document has a palette unless no rule of it declares a colour.  It is that of
the rules gathered by selector; the palette of documents in a row is that of the
first overlaid with that of the second; and what it holds for a selector depends
on the rules of this selector alone. -/
theorem palette?_gathers (doc : Document Position) :
    (doc.palette? = none ↔ ∀ r ∈ doc.rules, ¬r.DeclaresColor) ∧
    (∀ palette, doc.palette? = some palette → palette.Describes doc) ∧
    (∀ other : Document Position,
      (doc.append other).palette? = Option.merge Palette.overlay doc.palette? other.palette? ∧
      ∀ selector, (doc.append other).pair? selector =
        Option.merge ColorPair.overlay (doc.pair? selector) (other.pair? selector)) ∧
    ∀ (other : Document Position) (selector : String),
      doc.rules.filter (·.selector = selector) = other.rules.filter (·.selector = selector) →
      doc.pair? selector = other.pair? selector := by
  refine ⟨palette?_eq_none_iff, fun _ => describes_palette?, ?_, fun _ _ => pair?_congr⟩
  exact fun other => ⟨doc.palette?_append other, doc.pair?_append other⟩

/-- The case of a selector whose two rules fill different slots, with a rule of another
selector between them that is changed. -/
theorem palette?_gathers_repeated :
    ∃ doc other palette,
      parse "p\x7bcolor:red\x7dq\x7bBackground:#000\x7dp\x7btop:0;background:#fff\x7d" = .ok doc ∧
      parse "p\x7bcolor:red\x7dq\x7bcolor:slategray\x7dp\x7btop:0;background:#fff\x7d" = .ok other ∧
      doc.palette? = some palette ∧ palette.Describes doc ∧
      palette.entries = [("p", ⟨some "red", some "#fff"⟩), ("q", ⟨none, some "#000"⟩)] ∧
      doc.rules.filter (·.selector = "p") = other.rules.filter (·.selector = "p") ∧
      doc.pair? "p" = other.pair? "p" ∧
      (doc.append other).pair? "q" = some ⟨some "slategray", some "#000"⟩ := by
  have hdoc :
      parse "p\x7bcolor:red\x7dq\x7bBackground:#000\x7dp\x7btop:0;background:#fff\x7d" =
        .ok ⟨[.rule ⟨"p", [⟨⟨"color", "red", false⟩, ⟨2, 1, 3⟩⟩], ⟨0, 1, 1⟩⟩,
          .rule ⟨"q", [⟨⟨"Background", "#000", false⟩, ⟨14, 1, 15⟩⟩], ⟨12, 1, 13⟩⟩,
          .rule ⟨"p", [⟨⟨"top", "0", false⟩, ⟨32, 1, 33⟩⟩,
            ⟨⟨"background", "#fff", false⟩, ⟨38, 1, 39⟩⟩], ⟨30, 1, 31⟩⟩]⟩ := by
    decide +kernel
  have hother :
      parse "p\x7bcolor:red\x7dq\x7bcolor:slategray\x7dp\x7btop:0;background:#fff\x7d" =
        .ok ⟨[.rule ⟨"p", [⟨⟨"color", "red", false⟩, ⟨2, 1, 3⟩⟩], ⟨0, 1, 1⟩⟩,
          .rule ⟨"q", [⟨⟨"color", "slategray", false⟩, ⟨14, 1, 15⟩⟩], ⟨12, 1, 13⟩⟩,
          .rule ⟨"p", [⟨⟨"top", "0", false⟩, ⟨32, 1, 33⟩⟩,
            ⟨⟨"background", "#fff", false⟩, ⟨38, 1, 39⟩⟩], ⟨30, 1, 31⟩⟩]⟩ := by
    decide +kernel
  refine ⟨_, _, ⟨[("p", ⟨some "red", some "#fff"⟩), ("q", ⟨none, some "#000"⟩)]⟩, hdoc, hother,
    by decide +kernel, ?describes, rfl, by decide +kernel, ?depends, ?append⟩
  case describes => exact (palette?_gathers _).2.1 _ (by decide +kernel)
  case depends => exact (palette?_gathers _).2.2.2 _ _ (by decide +kernel)
  case append =>
    rw [((palette?_gathers _).2.2.1 _).2 "q"]
    decide +kernel

end Document

end ContrastLint

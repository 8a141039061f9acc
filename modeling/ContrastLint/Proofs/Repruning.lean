import ContrastLint.Proofs.Places
import ContrastLint.Proofs.Unclosed

/-!
# Pruning what pruning has written

A pruned stylesheet is written, read and pruned once more.  All its rules and
declarations come back, so the text can only change inside a declaration.
One that leaves a parenthesis open takes the semicolon after it for a part of
its value, and is written with another.  So the text grows by one semicolon
for every such declaration, and it stays as it is if there are none.
-/

namespace ContrastLint

namespace Assignment

def ClosesParens (a : Assignment) : Prop :=
  openParens a.render.toList = 0

instance (a : Assignment) : Decidable a.ClosesParens :=
  inferInstanceAs (Decidable (_ = _))

/-- The first assignment is what the second one becomes when it is written with a
semicolon and read again. -/
structure Rereads (again a : Assignment) : Prop where
  property : again.property = a.property
  render : again.render.toList = a.render.toList ++ if a.ClosesParens then [] else [';']

theorem rereads_of_writable {a : Assignment} (h : a.Writable) : a.Rereads a := by
  have hclosed : a.ClosesParens := openParens_of_reading h.reading
  exact ⟨rfl, by simp [hclosed]⟩

theorem importantStem?_append_semicolon (text : List Char) :
    importantStem? (text ++ [';']) = none := by
  simp [importantStem?]

/-- After a semicolon, nothing marks a value as important. -/
theorem Legible.read?_append_semicolon
    {a : Assignment} (h : a.Legible) (hne : a.value.toList ≠ []) :
    read? (a.render.toList ++ [';', '\n']) =
      some ⟨a.property, .ofList (a.value.toList ++ writtenMark a.important ++ [';']), false⟩ := by
  have hsemicolon : Text.Trimmed [';'] := ⟨by simp [Text.isWhite], by simp [Text.isWhite]⟩
  have hvalue : Text.Trimmed (a.value.toList ++ writtenMark a.important ++ [';']) :=
    h.value.append hsemicolon hne (by simp) _
  have hagain : Legible
      ⟨a.property, .ofList (a.value.toList ++ writtenMark a.important ++ [';']), false⟩ := by
    refine ⟨h.property, h.nonempty, h.noColon, by simpa using hvalue, fun _ => ?_⟩
    rw [String.toList_ofList]
    exact importantStem?_append_semicolon _
  apply hagain.read?_of_laidOut
  refine ⟨[], [], [' '], [], ['\n'], Text.white_nil, Text.white_nil, Text.white_space,
    Text.white_lineFeed, rfl, ?_⟩
  simp [toList_render]

theorem exists_rereads_of_open
    (a : Assignment) (depth : Nat) (hlegible : a.Legible) (hmem : '(' ∈ a.value.toList)
    (hreading : Reading .start a.render.toList ⟨.outside, depth + 1⟩) :
    ∃ b, read? (a.render.toList ++ [';', '\n']) = some b ∧ b.Rereads a := by
  have hopen : ¬a.ClosesParens := by
    rw [ClosesParens, openParens_of_reading hreading]
    exact Nat.succ_ne_zero depth
  have hread := hlegible.read?_append_semicolon (List.ne_nil_of_mem hmem)
  refine ⟨_, hread, ?_⟩
  constructor
  case property => simp only
  case render =>
    rw [if_neg hopen, toList_render, toList_render, String.toList_ofList]
    simp only [writtenMark, Bool.false_eq_true, if_false, List.append_nil, List.append_assoc,
      List.cons_append]

theorem Rereads.setsColor {a b : Assignment} (h : a.Rereads b) : a.setsColor = b.setsColor := by
  simp only [Assignment.setsColor, setsForeground, setsBackground, isNamed, h.property]

end Assignment

/-! ## Documents -/

section Rereading

variable {α β : Type}

/-- The number of declarations that leave parentheses open. -/
def unclosed (declarations : List (Declaration α)) : Nat :=
  declarations.countP fun d => ¬d.toAssignment.ClosesParens

theorem unclosed_eq_zero_iff {declarations : List (Declaration α)} :
    unclosed declarations = 0 ↔ ∀ d ∈ declarations, d.toAssignment.ClosesParens := by
  simp [unclosed, List.countP_eq_zero]

inductive Node.Rereads : Node α → Node β → Prop
  | rule {r : Rule α} {s : Rule β} (selector : r.selector = s.selector)
      (declarations : List.Forall₂ (fun d e => d.toAssignment.Rereads e.toAssignment)
        r.declarations s.declarations) : Rereads (.rule r) (.rule s)

variable {again : List (Declaration α)} {declarations : List (Declaration β)}

theorem Rule.length_lines_of_rereads
    (h : List.Forall₂ (fun d e => d.toAssignment.Rereads e.toAssignment) again declarations) :
    (lines again).length = (lines declarations).length + unclosed declarations := by
  induction h with
  | nil => rfl
  | @cons d e again declarations hrereads _ ih =>
      have hlength := congrArg List.length hrereads.render
      by_cases hclosed : e.toAssignment.ClosesParens
      · simp_all [lines, unclosed]
        omega
      · simp_all [lines, unclosed]
        omega

theorem Rule.lines_of_rereads
    (h : List.Forall₂ (fun d e => d.toAssignment.Rereads e.toAssignment) again declarations)
    (hclosed : ∀ d ∈ declarations, d.toAssignment.ClosesParens) :
    lines again = lines declarations := by
  induction h with
  | nil => rfl
  | cons hrereads _ ih =>
      rcases List.forall_mem_cons.mp hclosed with ⟨hfirst, hothers⟩
      have hlines := ih hothers
      have hrender := hrereads.render
      rw [if_pos hfirst, List.append_nil] at hrender
      unfold lines at hlines ⊢
      rw [List.flatMap_cons, List.flatMap_cons, hrender, hlines]

namespace Node.Rereads

variable {node : Node α} {other : Node β}

theorem length_render (h : node.Rereads other) :
    node.render.toList.length = other.render.toList.length + unclosed other.declarations := by
  cases h with
  | @rule r s selector declarations =>
      have hlines := Rule.length_lines_of_rereads declarations
      rw [Node.render, Node.render, Rule.toList_render, Rule.toList_render, selector]
      simp [Node.declarations, hlines]
      omega

theorem render_eq
    (h : node.Rereads other)
    (hclosed : ∀ d ∈ other.declarations, d.toAssignment.ClosesParens) :
    node.render = other.render := by
  cases h with
  | rule selector declarations =>
      have hlines := Rule.lines_of_rereads declarations hclosed
      rw [← String.toList_inj, Node.render, Node.render, Rule.toList_render, Rule.toList_render,
        selector, hlines]

theorem colored (h : node.Rereads other) (hcolored : other.Colored) : node.Colored := by
  cases h with
  | @rule r s selector declarations =>
      cases hcolored with
      | rule nonempty colors =>
          constructor
          case nonempty =>
            intro hnil
            rw [hnil] at declarations
            exact nonempty (List.forall₂_nil_left_iff.mp declarations)
          case colors =>
            intro d hd
            obtain ⟨e, he, hrereads⟩ := exists_mem_of_forall₂ declarations.flip d hd
            exact hrereads.setsColor.trans (colors e he)

end Node.Rereads

namespace Document

variable {doc : Document α} {other : Document β}

theorem length_render_of_rereads (h : List.Forall₂ Node.Rereads doc.nodes other.nodes) :
    doc.render.toList.length = other.render.toList.length + unclosed other.declarations := by
  rcases doc with ⟨nodes⟩
  rcases other with ⟨others⟩
  simp only [render, declarations] at h ⊢
  induction h with
  | nil => rfl
  | @cons node other nodes others hrereads hmore ih =>
      have hnode := hrereads.length_render
      cases hmore with
      | nil => simpa using hnode
      | cons =>
          simp_all [unclosed]
          omega

theorem render_of_rereads
    (h : List.Forall₂ Node.Rereads doc.nodes other.nodes)
    (hclosed : ∀ d ∈ other.declarations, d.toAssignment.ClosesParens) :
    doc.render = other.render := by
  have hrenders : doc.nodes.map Node.render = other.nodes.map Node.render := by
    rw [declarations] at hclosed
    generalize doc.nodes = nodes, other.nodes = others at h hclosed
    induction h with
    | nil => rfl
    | @cons node other nodes others hrereads _ ih =>
        rw [List.map_cons, List.map_cons]
        have hnode := hrereads.render_eq fun d hd => hclosed d (by simp [hd])
        have hmore := ih fun d hd => hclosed d (by simp_all)
        rw [hnode, hmore]
  rw [render, render, hrenders]

end Document

end Rereading

namespace Document

/-- A pruned document is read again from what it is written as, with nothing to prune. -/
theorem exists_rereads_of_read {text : List Char} {doc : Document Nat} (h : read text = .ok doc) :
    ∃ again, read doc.pruned.render.toList = .ok again ∧
      List.Forall₂ Node.Rereads again.nodes doc.pruned.nodes := by
  apply exists_read_render_of_found
  intro node hnode offset lead hlead
  cases colored_of_mem_pruned hnode with
  | rule =>
      have hfound := found_of_mem_pruned (R := Assignment.Rereads)
        (fun a hwritable => Assignment.rereads_of_writable hwritable)
        Assignment.exists_rereads_of_open h hnode offset hlead
      apply hfound.imp
      rintro _ ⟨s, rfl, hselector, hdeclarations⟩
      exact .rule hselector hdeclarations

theorem pruned_of_rereads
    {α β : Type} {again : Document α} {doc : Document β}
    (h : List.Forall₂ Node.Rereads again.nodes doc.pruned.nodes) : again.pruned = again := by
  apply pruned_of_colored
  intro node hnode
  obtain ⟨other, hother, hrereads⟩ := exists_mem_of_forall₂ h.flip node hnode
  exact hrereads.colored (colored_of_mem_pruned hother)

theorem unclosed_declarations_map {α β : Type} (doc : Document α) (f : α → β) :
    unclosed (doc.map f).declarations = unclosed doc.declarations := by
  rw [declarations_map, unclosed, unclosed, List.countP_map]
  rfl

end Document

/-- A pruned stylesheet, written anew, is accepted again.  Pruned and written once
more, it is as long as before and has a semicolon more for every declaration that
leaves a parenthesis open. -/
theorem exists_parse_render_pruned_again
    {css : String} {doc : Document Position} (h : parse css = .ok doc) :
    ∃ again, parse doc.pruned.render = .ok again ∧
      again.pruned.render.toList.length =
        doc.pruned.render.toList.length + unclosed doc.pruned.declarations ∧
      (again.pruned.render = doc.pruned.render ↔
        ∀ d ∈ doc.pruned.declarations, d.toAssignment.ClosesParens) := by
  rcases parse_eq_ok_iff.mp h with ⟨first, hfirst, rfl⟩
  obtain ⟨second, hsecond, hrereads⟩ := Document.exists_rereads_of_read hfirst
  have hlocate : (first.locate css.toList).pruned =
      first.pruned.map (Position.locate css.toList) := by
    rw [Document.locate_eq_map (Document.boundary_of_read hfirst), Document.pruned_map]
  have hagain : (second.locate first.pruned.render.toList).pruned.render = second.render := by
    rw [Document.locate_eq_map (Document.boundary_of_read hsecond), Document.pruned_map,
      Document.render_map, Document.pruned_of_rereads hrereads]
  have hlength := Document.length_render_of_rereads hrereads
  rw [← unclosed_eq_zero_iff, hlocate, Document.render_map, Document.unclosed_declarations_map]
  refine ⟨_, parse_eq_ok_iff.mpr ⟨second, hsecond, rfl⟩, ?_, ?_⟩
  · rw [hagain, hlength]
  · rw [hagain]
    constructor
    · intro hsame
      rw [hsame] at hlength
      omega
    · intro hclosed
      exact Document.render_of_rereads hrereads (unclosed_eq_zero_iff.mp hclosed)

/-- The case of a declaration that is lost, of one that is kept as it is, and of one
that takes in a semicolon. -/
theorem exists_parse_render_pruned_again_open :
    ∃ doc again, parse "p\x7btop:0;color:#fff\x7da\x7bcolor:(\x7d" = .ok doc ∧
      doc.pruned.render = "p \x7b\n    color: #fff;\n\x7d\n\na \x7b\n    color: (;\n\x7d\n" ∧
      unclosed doc.pruned.declarations = 1 ∧
      parse doc.pruned.render = .ok again ∧
      again.pruned.render.toList.length =
        doc.pruned.render.toList.length + unclosed doc.pruned.declarations ∧
      again.pruned.render ≠ doc.pruned.render := by
  have hparse : parse "p\x7btop:0;color:#fff\x7da\x7bcolor:(\x7d" =
      .ok ⟨[.rule ⟨"p", [⟨⟨"top", "0", false⟩, ⟨2, 1, 3⟩⟩,
          ⟨⟨"color", "#fff", false⟩, ⟨8, 1, 9⟩⟩], ⟨0, 1, 1⟩⟩,
        .rule ⟨"a", [⟨⟨"color", "(", false⟩, ⟨21, 1, 22⟩⟩], ⟨19, 1, 20⟩⟩]⟩ := by
    decide +kernel
  obtain ⟨again, hagain, hlength, hsame⟩ := exists_parse_render_pruned_again hparse
  refine ⟨_, again, hparse, by decide +kernel, by decide +kernel, hagain, hlength, ?_⟩
  rw [Ne, hsame]
  decide +kernel

/-- What is written when a pruned stylesheet is pruned again need not be the same. -/
theorem render_pruned_ne_of_open :
    ∃ doc again, parse "a\x7bcolor:(\x7d" = .ok doc ∧
      doc.pruned.render = "a \x7b\n    color: (;\n\x7d\n" ∧
      parse doc.pruned.render = .ok again ∧
      again.pruned.render = "a \x7b\n    color: (;;\n\x7d\n" := by
  have hparse : parse "a\x7bcolor:(\x7d" =
      .ok ⟨[.rule ⟨"a", [⟨⟨"color", "(", false⟩, ⟨2, 1, 3⟩⟩], ⟨0, 1, 1⟩⟩]⟩ := by
    decide +kernel
  have hagain : parse "a \x7b\n    color: (;\n\x7d\n" =
      .ok ⟨[.rule ⟨"a", [⟨⟨"color", "(;", false⟩, ⟨8, 2, 5⟩⟩], ⟨0, 1, 1⟩⟩]⟩ := by
    decide +kernel
  have hrender : (⟨[.rule ⟨"a", [⟨⟨"color", "(", false⟩, ⟨2, 1, 3⟩⟩], ⟨0, 1, 1⟩⟩]⟩ :
      Document Position).pruned.render = "a \x7b\n    color: (;\n\x7d\n" := by
    decide +kernel
  exact ⟨_, _, hparse, hrender, by rw [hrender]; exact hagain, by decide +kernel⟩

end ContrastLint

import ContrastLint.Proofs.Concealing
import ContrastLint.Proofs.LintAgreement
import ContrastLint.Proofs.Places

/-!
# The order of a document

A declaration stands where its property begins.  The nodes of a document stand
one behind the other, each before its declarations, and the declarations of a
rule between its braces.  So the lines of the results of linting never decrease.
-/

namespace ContrastLint

theorem Text.Shows.bounds {offset place : Nat} {text : List Char} (h : Shows offset text place) :
    offset ≤ place ∧ place < offset + byteLength text := by
  rcases h with ⟨before, c, rest, rfl, rfl, -⟩
  have hsize := c.utf8Size_pos
  simp
  omega

/-! ## Pieces -/

namespace Piece

variable {p : Piece} {offset : Nat} {pieces : List Piece}

/-- Places that follow one another in a piece. -/
def Ascends (p : Piece) (places : List Nat) : Prop :=
  places.Pairwise (· < ·) ∧ ∀ place ∈ places, p.Spans place

theorem Consecutive.pairwise_flatten
    {lists : List (List Nat)} (h : Consecutive offset pieces)
    (hlists : List.Forall₂ Ascends pieces lists) : lists.flatten.Pairwise (· < ·) := by
  induction hlists generalizing offset with
  | nil => exact .nil
  | @cons p places pieces lists hp hrest ih =>
      rcases h with ⟨rfl, hmore⟩
      rw [List.flatten_cons, List.pairwise_append]
      refine ⟨hp.1, ih hmore, fun place hplace later hlater => ?_⟩
      -- A later place belongs to a piece behind this one, and no two pieces share a byte.
      obtain ⟨others, hothers, hmem⟩ := List.mem_flatten.mp hlater
      obtain ⟨q, hq, hascends⟩ := exists_mem_of_forall₂ hrest others hothers
      have hbehind := (hmore.bounds_of_spans hq (hascends.2 later hmem)).1
      have hhere := (hp.2 place hplace).2
      omega

theorem ascends_declared (p : Piece) : p.Ascends (p.declared?.map (·.place)).toList := by
  cases hdeclared : p.declared? with
  | none => exact ⟨.nil, by simp⟩
  | some d =>
      refine ⟨List.pairwise_singleton _ _, fun place hplace => ?_⟩
      obtain rfl : place = d.place := by simpa using hplace
      exact (shows_of_declared? hdeclared).bounds

theorem Consecutive.pairwise_declared (h : Consecutive offset pieces) :
    ((pieces.filterMap declared?).map (·.place)).Pairwise (· < ·) := by
  have hflatten : (pieces.filterMap declared?).map (·.place) =
      (pieces.map fun p => (p.declared?.map (·.place)).toList).flatten := by
    rw [List.map_filterMap, List.filterMap_eq_flatMap_toList, List.flatMap_def]
  rw [hflatten]
  apply h.pairwise_flatten
  rw [List.forall₂_map_right_iff, List.forall₂_same]
  exact fun p _ => p.ascends_declared

theorem start_le (p : Piece) : p.start ≤ p.offset + Text.byteLength p.text := by
  have hlength := congrArg Text.byteLength (Text.eq_blanks_append p.text)
  rw [Text.byteLength_append] at hlength
  unfold start
  omega

/-- The declarations of a rule stand between its braces. -/
theorem encloses_of_declared
    {body : List Char} {inner : List Piece} {d : Declaration Nat}
    (hending : p.ending = .block body) (hinner : Partition p.bodyOffset body inner)
    (hd : d ∈ inner.filterMap declared?) : p.encloses d.place = true := by
  obtain ⟨q, hq, hdeclared⟩ := List.mem_filterMap.mp hd
  have hbounds := (hinner.shows hq (shows_of_declared? hdeclared)).bounds
  exact encloses_iff.mpr ⟨body, hending, hbounds⟩

/-- The places of a node follow one another. -/
theorem ascends_of_yields
    {node : Option (Node Nat)} (h : p.Yields node) : p.Ascends (node.elim [] Node.places) := by
  cases node with
  | none => exact ⟨.nil, by simp⟩
  | some node =>
      refine ⟨?_, fun place hplace => (shows_of_yields h place hplace).bounds⟩
      cases node with
      | rule r =>
          obtain ⟨-, body, inner, hending, hinner, rfl⟩ := exists_inner_of_yields_rule h
          have hdeclared := hinner.consecutive.pairwise_declared
          refine List.pairwise_cons.mpr ⟨fun place hplace => ?_, hdeclared⟩
          obtain ⟨d, hd, rfl⟩ := List.mem_map.mp hplace
          obtain ⟨_, -, hle, -⟩ := encloses_iff.mp (encloses_of_declared hending hinner hd)
          have hstart := p.start_le
          unfold bodyOffset at hle
          simp only
          omega
      | declaration d => exact List.pairwise_singleton _ _
      | atRule a => exact List.pairwise_singleton _ _

/-- A declaration stands where its property begins. -/
theorem Holds.stands {d : Declaration Nat} (h : p.Holds d) :
    Text.Stands p.offset p.text d.place d.property.toList := by
  obtain ⟨left, right, htext, -, hkeeps⟩ := h.assignment
  obtain ⟨white, source, hsource, hwhite, hhead, hplace⟩ := h.range
  obtain ⟨front, back, hfront, -, hleft⟩ := Text.exists_trim left
  have hproperty : p.text = front ++ (Text.trim left ++ (back ++ ':' :: right)) := by
    rw [htext]
    conv_lhs => rw [hleft]
    simp
  -- The property is not empty, so the white space before it is all that the text begins with.
  have hsame : white = front := by
    rw [← Text.takeWhile_isWhite_append hwhite hhead, ← hsource, hproperty]
    apply Text.takeWhile_isWhite_append hfront
    rw [List.head?_append_of_ne_nil _ hkeeps.nonempty]
    exact (Text.trimmed_trim left).head
  refine ⟨front, back ++ ':' :: right, ?_, by rw [hplace, hsame]⟩
  rw [hkeeps.property, hproperty, List.append_assoc]

theorem stands_of_declared? {d : Declaration Nat} (h : p.declared? = some d) :
    Text.Stands p.offset p.source d.place d.property.toList := by
  have htext : Text.Stands p.offset p.source p.offset p.text :=
    ⟨[], p.ending.source, by simp [source], rfl⟩
  exact htext.trans (holds_iff.mpr (declaration?_of_declared? h)).stands

theorem stands_of_yields
    {node : Node Nat} (h : p.Yields (some node)) :
    ∀ d ∈ node.declarations, Text.Stands p.offset p.source d.place d.property.toList := by
  cases node with
  | rule r =>
      obtain ⟨-, body, inner, hending, hinner, rfl⟩ := exists_inner_of_yields_rule h
      intro d hd
      obtain ⟨q, hq, hdeclared⟩ := List.mem_filterMap.mp hd
      exact (stands_body hending).trans ((hinner.stands hq).trans (stands_of_declared? hdeclared))
  | declaration d =>
      have htext : Text.Stands p.offset p.source p.offset p.text :=
        ⟨[], p.ending.source, by simp [source], rfl⟩
      cases h with
      | declaration _ _ hholds => simpa [Node.declarations] using htext.trans hholds.stands
  | atRule a => simp [Node.declarations]

end Piece

/-! ## Rules -/

/-- Where a rule stands in a text: from the first character of its selector to its
opening brace there is no other stop, and its declarations stand between this
brace and the closing one that belongs to it. -/
def Rule.Encloses (text : List Char) (r : Rule Nat) : Prop :=
  ∃ before header body rest depth,
    text = before ++ header ++ '{' :: (body ++ '}' :: rest) ∧
    r.place = Text.byteLength before ∧ r.selector.toList = Text.trim header ∧
    Cursor.start.readText header = some ⟨.outside, depth⟩ ∧
    Cursor.start.readBlock body = some .start ∧
    ∀ d ∈ r.declarations, Text.byteLength (before ++ header) < d.place ∧
      d.place < Text.byteLength (before ++ header) + 1 + Text.byteLength body

theorem Piece.encloses_of_yields
    {p : Piece} {r : Rule Nat} {text : List Char} (h : p.Yields (some (.rule r)))
    (hproper : p.Proper) (hstands : Text.Stands 0 text p.offset p.source) : r.Encloses text := by
  obtain ⟨-, body, inner, hending, hinner, rfl⟩ := exists_inner_of_yields_rule h
  obtain ⟨depth, hread, hfits⟩ := hproper
  obtain ⟨before, rest, htext, hoffset⟩ := hstands
  rw [Nat.zero_add] at hoffset
  have hblanks := Text.eq_blanks_append p.text
  have hlength := congrArg Text.byteLength hblanks
  rw [Text.byteLength_append] at hlength
  refine ⟨before ++ p.text.takeWhile Text.isAsciiWhite, p.text.dropWhile Text.isAsciiWhite, body,
    rest, depth, ?_, ?_, ?_, ?_, ?_, ?_⟩
  · rw [List.append_assoc before, ← hblanks, htext, Piece.source, hending, Ending.source]
    simp
  · simp [Piece.start, hoffset]
  · rw [Text.trim_dropWhile_isAsciiWhite, String.toList_ofList]
  · have hfront : Cursor.start.readText (p.text.takeWhile Text.isAsciiWhite) = some .start :=
      Cursor.readText_white (Text.white_takeWhile_isAsciiWhite p.text)
    rw [hblanks, Cursor.readText_append, hfront] at hread
    exact hread
  · rwa [hending] at hfits
  · intro d hd
    obtain ⟨other, hother, hle, hlt⟩ :=
      encloses_iff.mp (encloses_of_declared hending hinner hd)
    cases hending.symm.trans hother
    unfold bodyOffset at hle hlt
    rw [List.append_assoc before, ← hblanks, Text.byteLength_append]
    omega

/-! ## Documents -/

namespace Document

variable {text : List Char} {doc : Document Nat}

/-- The nodes of a document and their declarations stand one behind the other. -/
theorem pairwise_places (h : ofBlanked text = .ok doc) : doc.places.Pairwise (· < ·) := by
  obtain ⟨pieces, yields, hpieces, hyields, rfl⟩ := ofBlanked_eq_ok_iff.mp h
  have hflatten : ∀ yields : List (Option (Node Nat)), (yields.filterMap id).flatMap Node.places =
      (yields.map fun node => node.elim [] Node.places).flatten := by
    intro yields
    induction yields with
    | nil => rfl
    | cons node yields ih =>
        cases node with
        | none => simpa using ih
        | some node => simpa using ih
  rw [places, hflatten]
  apply hpieces.consecutive.pairwise_flatten
  rw [List.forall₂_map_right_iff]
  exact hyields.imp fun _ _ => Piece.ascends_of_yields

theorem stands_of_ofBlanked (h : ofBlanked text = .ok doc) :
    ∀ d ∈ doc.declarations, Text.Stands 0 text d.place d.property.toList := by
  obtain ⟨pieces, yields, hpieces, hyields, rfl⟩ := ofBlanked_eq_ok_iff.mp h
  intro d hd
  obtain ⟨node, hnode, hmem⟩ := List.mem_flatMap.mp hd
  have hyield : some node ∈ yields := by simpa using hnode
  obtain ⟨p, hp, hyields⟩ := exists_mem_of_forall₂ hyields _ hyield
  exact (hpieces.stands hp).trans (Piece.stands_of_yields hyields d hmem)

theorem encloses_of_ofBlanked (h : ofBlanked text = .ok doc) :
    ∀ r ∈ doc.rules, r.Encloses text := by
  obtain ⟨pieces, yields, hpieces, hyields, rfl⟩ := ofBlanked_eq_ok_iff.mp h
  intro r hr
  have hyield : some (.rule r) ∈ yields := by simpa using mem_rules_iff.mp hr
  obtain ⟨p, hp, hyields⟩ := exists_mem_of_forall₂ hyields _ hyield
  exact Piece.encloses_of_yields hyields (hpieces.proper p hp) (hpieces.stands hp)

end Document

/-! ## Positions -/

namespace Position

variable {css : List Char} {place place' : Nat}

theorem offset_locate (h : Text.Boundary css place) : (locate css place).offset = place := by
  obtain ⟨before, hbefore, rfl⟩ := h
  rw [locate_eq hbefore]
  rfl

theorem line_locate_mono (h : Text.Boundary css place) (h' : Text.Boundary css place')
    (hle : place ≤ place') : (locate css place).line ≤ (locate css place').line := by
  obtain ⟨before, hbefore, rfl⟩ := h
  obtain ⟨before', hbefore', rfl⟩ := h'
  have hcount := (Text.prefix_of_byteLength_le hbefore hbefore' hle).sublist.count_le '\n'
  rw [locate_eq hbefore, locate_eq hbefore']
  exact Nat.add_le_add_left hcount 1

end Position

namespace Document

variable {css : List Char} {Place : Type}

theorem map_id (doc : Document Place) : doc.map id = doc := by
  have hdeclarations : ∀ declarations : List (Declaration Place),
      declarations.map (Declaration.map id) = declarations := fun _ => List.map_id _
  have hnode : ∀ node : Node Place, node.map id = node := by
    intro node
    cases node with
    | rule r => rw [Node.map, Rule.map, hdeclarations, id]
    | declaration d => rfl
    | atRule a => rfl
  exact congrArg Document.mk ((List.map_congr_left fun node _ => hnode node).trans (List.map_id _))

/-- The positions of a stylesheet keep the offsets it was read with. -/
theorem map_offset_locate {doc : Document Nat} (h : read css = .ok doc) :
    (doc.locate css).map Position.offset = doc := by
  have hboundary := boundary_of_read h
  have hsame : doc.map (Position.offset ∘ Position.locate css) = doc.map id :=
    map_congr fun place hplace => Position.offset_locate (hboundary place hplace)
  rw [locate_eq_map hboundary, map_map, hsame, map_id]

theorem pairwise_line {doc : Document Nat} (h : read css = .ok doc)
    (hplaces : doc.places.Pairwise (· < ·)) :
    (doc.locate css).places.Pairwise fun p q => p.line ≤ q.line := by
  have hboundary := boundary_of_read h
  rw [locate_eq_map hboundary, places_map, List.pairwise_map]
  apply hplaces.imp_of_mem
  intro place later hplace hlater hlt
  exact Position.line_locate_mono (hboundary place hplace) (hboundary later hlater) hlt.le

theorem sublist_places (doc : Document Place) :
    (doc.rules.map (·.place)).Sublist doc.places := by
  unfold rules places
  induction doc.nodes with
  | nil => exact .slnil
  | cons node nodes ih =>
      rw [List.flatMap_cons]
      cases node with
      | rule r => exact (ih.trans (List.sublist_append_right _ _)).cons_cons r.place
      | declaration d => exact ih.cons d.place
      | atRule a => exact ih.cons a.place

/-- Results stand in the order of the rules they are about. -/
theorem pairwise_results {doc : Document Position} (config : LintConfig)
    (h : doc.places.Pairwise fun p q => p.line ≤ q.line) :
    (doc.lint config).value.results.Pairwise fun r s => r.line ≤ s.line := by
  have hrules := h.sublist doc.sublist_places
  rw [List.pairwise_map] at hrules
  rw [value_lint]
  split
  · show (Rule.results doc.pruned.rules config.threshold).Pairwise fun r s => r.line ≤ s.line
    rw [results_pruned, Rule.results, List.pairwise_map]
    exact hrules.sublist List.filter_sublist
  · exact .nil

end Document

/-- A stylesheet that is parsed has its declarations where their properties begin in
the blanked text, its nodes and their declarations in ascending order, and the
declarations of its rules between their braces.  The lines of its results never
decrease. -/
theorem parse_in_order {css : String} {doc : Document Position} (h : parse css = .ok doc) :
    (∃ text, Comment.blank css.toList = .ok text ∧
      (∀ d ∈ doc.declarations, Text.Stands 0 text d.place.offset d.property.toList) ∧
      ∀ r ∈ doc.rules, (r.map Position.offset).Encloses text) ∧
    doc.places.Pairwise (fun p q => p.offset < q.offset) ∧
    ∀ config report, (lint config css).value = .ok report →
      report.results.Pairwise fun r s => r.line ≤ s.line := by
  obtain ⟨read, hread, rfl⟩ := parse_eq_ok_iff.mp h
  obtain ⟨text, hblank, hdoc⟩ := bind_eq_ok_iff.mp hread
  have hplaces := Document.pairwise_places hdoc
  have hoffsets := Document.map_offset_locate hread
  refine ⟨⟨text, hblank, ?_, ?_⟩, ?_, ?_⟩
  · intro d hd
    have hmem : d.map Position.offset ∈ read.declarations := by
      rw [← hoffsets, Document.declarations_map]
      exact List.mem_map_of_mem hd
    exact Document.stands_of_ofBlanked hdoc _ hmem
  · intro r hr
    apply Document.encloses_of_ofBlanked hdoc
    rw [← hoffsets, Document.rules_map]
    exact List.mem_map_of_mem hr
  · rw [← List.pairwise_map, ← Document.places_map, hoffsets]
    exact hplaces
  · intro config report hreport
    have hlines := Document.pairwise_line hread hplaces
    by_cases hempty : (Text.trim css.toList).isEmpty
    · simp [lint, hempty] at hreport
    · simp [lint, hempty, h] at hreport
      rw [← hreport]
      exact Document.pairwise_results config hlines

/-- The case of declarations behind a comment, a nested block and a space that is not
ASCII. -/
theorem parse_in_order_nested :
    ∃ doc, parse "p\x7b/**/c:a;b\x7bd:e\x7d\u00a0f:g\x7d\nx:y" = .ok doc ∧
      doc.places.map (·.offset) = [0, 6, 18, 23] ∧
      doc.places.Pairwise (fun p q => p.offset < q.offset) ∧
      ∃ text, Comment.blank "p\x7b/**/c:a;b\x7bd:e\x7d\u00a0f:g\x7d\nx:y".toList = .ok text ∧
        ∀ d ∈ doc.declarations, Text.Stands 0 text d.place.offset d.property.toList := by
  have hparse : parse "p\x7b/**/c:a;b\x7bd:e\x7d\u00a0f:g\x7d\nx:y" =
      .ok ⟨[.rule ⟨"p", [⟨⟨"c", "a", false⟩, ⟨6, 1, 7⟩⟩, ⟨⟨"f", "g", false⟩, ⟨18, 1, 18⟩⟩],
          ⟨0, 1, 1⟩⟩,
        .declaration ⟨⟨"x", "y", false⟩, ⟨23, 2, 1⟩⟩]⟩ := by
    decide +kernel
  obtain ⟨⟨text, hblank, hstands, -⟩, hoffsets, -⟩ := parse_in_order hparse
  exact ⟨_, hparse, rfl, hoffsets, text, hblank, hstands⟩

end ContrastLint

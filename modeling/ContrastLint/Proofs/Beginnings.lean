import ContrastLint.Proofs.Blanking
import ContrastLint.Proofs.Order

/-!
# Where nodes begin

A node stands behind the ASCII blanks of its piece, but its text is trimmed of
all white space.  A declaration is placed behind the white space that is left.
A rule or an at-rule is not: one that comes behind a vertical tab or a no-break
space stands at that character, and line feeds between it and the selector are
missing from its line.  Where no such white space is left, every node stands
where its text begins.
-/

namespace ContrastLint

namespace Text

/-- White space that is left when ASCII blanks are skipped. -/
structure Unskipped (gap : List Char) : Prop where
  white : White gap
  head : ∀ c ∈ gap.head?, isAsciiWhite c = false

theorem unskipped_nil : Unskipped [] := ⟨white_nil, by simp⟩

namespace Stands

variable {offset place : Nat} {text part a b : List Char} {c d : Char}

theorem append_left (h : Stands offset text place (a ++ b)) : Stands offset text place a := by
  obtain ⟨before, rest, rfl, rfl⟩ := h
  exact ⟨before, b ++ rest, by simp, rfl⟩

theorem head_eq (h : Stands offset text place (c :: a)) (h' : Stands offset text place (d :: b)) :
    c = d := by
  obtain ⟨before, rest, rfl, rfl⟩ := h
  obtain ⟨before', rest', htext, hplace⟩ := h'
  rw [List.append_assoc, List.append_assoc] at htext
  have hlength : byteLength before = byteLength before' := by omega
  have hprefix : before <+: before' :=
    prefix_of_byteLength_le ⟨_, rfl⟩ ⟨_, htext.symm⟩ hlength.le
  have hprefix' : before' <+: before :=
    prefix_of_byteLength_le ⟨_, htext.symm⟩ ⟨_, rfl⟩ hlength.ge
  obtain rfl := hprefix.eq_of_length_le hprefix'.length_le
  simpa using congrArg List.head? (List.append_cancel_left htext)

/-- A trimmed text stands where white space and itself stand only if the white space
is empty. -/
theorem iff_of_white
    (h : Stands offset text place (a ++ part)) (ha : White a) (hpart : Trimmed part)
    (hne : part ≠ []) : Stands offset text place part ↔ a = [] := by
  constructor
  · intro hstands
    obtain ⟨c, rest, rfl⟩ := List.exists_cons_of_ne_nil hne
    cases a with
    | nil => rfl
    | cons d more =>
        obtain rfl := h.head_eq hstands
        have hblank := hpart.head d rfl
        rw [ha d List.mem_cons_self] at hblank
        contradiction
  · rintro rfl
    exact h

/-- Behind a part of a text there are as many lines more as the part has line feeds. -/
theorem line_locate (h : Stands 0 text place part) :
    (Position.locate text (place + byteLength part)).line =
      (Position.locate text place).line + part.count '\n' := by
  obtain ⟨before, rest, rfl, rfl⟩ := h
  have hprefix : before <+: before ++ part ++ rest := ⟨part ++ rest, by simp⟩
  have hprefix' : before ++ part <+: before ++ part ++ rest := ⟨rest, rfl⟩
  rw [Nat.zero_add, ← byteLength_append, Position.locate_eq hprefix', Position.locate_eq hprefix]
  simp only [Position.after, List.count_append]
  omega

theorem shows_of_trimmed
    (h : Stands offset text place (a ++ part)) (hpart : Trimmed part) (hne : part ≠ []) :
    Shows offset text (place + byteLength a) := by
  obtain ⟨before, rest, rfl, rfl⟩ := h
  obtain ⟨c, more, rfl⟩ := List.exists_cons_of_ne_nil hne
  have hwhite := hpart.head c rfl
  refine ⟨before ++ a, c, more ++ rest, by simp, ?_, ?_, ?_⟩
  · rw [byteLength_append, Nat.add_assoc]
  · rintro rfl
    contradiction
  · rintro rfl
    contradiction

end Stands

end Text

/-! ## Nodes -/

section Opening

variable {Place α β : Type}

def Node.place : Node Place → Place
  | .rule r => r.place
  | .declaration d => d.place
  | .atRule a => a.place

/-- What a node begins with: a selector, a property, or the sign of an at-rule. -/
def Node.opening : Node Place → List Char
  | .rule r => r.selector.toList
  | .declaration d => d.property.toList
  | .atRule _ => ['@']

theorem Node.place_mem_places (node : Node Place) : node.place ∈ node.places := by
  cases node <;> simp [place, places]

@[simp] theorem Node.place_map (f : α → β) (node : Node α) : (node.map f).place = f node.place := by
  cases node <;> rfl

@[simp] theorem Node.opening_map (f : α → β) (node : Node α) :
    (node.map f).opening = node.opening := by
  cases node <;> rfl

end Opening

namespace Piece

variable {p : Piece} {node : Node Nat}

/-- The trimmed text of a piece stands behind its blanks and what white space is left. -/
theorem exists_gap (p : Piece) :
    ∃ gap, Text.Unskipped gap ∧
      Text.Stands p.offset p.source p.start (gap ++ Text.trim p.text) := by
  obtain ⟨front, back, hfront, -, hrest⟩ := Text.exists_trim (p.text.dropWhile Text.isAsciiWhite)
  have hhead := List.head?_dropWhile_not Text.isAsciiWhite p.text
  rw [Text.trim_dropWhile_isAsciiWhite] at hrest
  refine ⟨front, ⟨hfront, fun c hc => ?_⟩, p.text.takeWhile Text.isAsciiWhite,
    back ++ p.ending.source, ?_, rfl⟩
  · obtain ⟨more, rfl⟩ := List.head?_eq_some_iff.mp hc
    rw [hrest] at hhead
    simpa using hhead
  · have htext := Text.eq_blanks_append p.text
    rw [hrest] at htext
    conv_lhs => rw [source, htext]
    simp

theorem exists_gap_of_yields (h : p.Yields (some node)) :
    ∃ gap, Text.Unskipped gap ∧
      Text.Stands p.offset p.source node.place (gap ++ node.opening) := by
  obtain ⟨gap, hgap, hstands⟩ := p.exists_gap
  cases h with
  | atRule hat =>
      rw [hat, List.append_cons] at hstands
      exact ⟨gap, hgap, hstands.append_left⟩
  | rule hat hbody hcover hdeclared =>
      refine ⟨gap, hgap, ?_⟩
      rwa [Node.opening, String.toList_ofList]
  | declaration hat hbody hholds =>
      have htext : Text.Stands p.offset p.source p.offset p.text :=
        ⟨[], p.ending.source, by simp [source], rfl⟩
      exact ⟨[], Text.unskipped_nil, htext.trans hholds.stands⟩

theorem trimmed_opening (h : p.Yields (some node)) : Text.Trimmed node.opening := by
  cases h with
  | atRule hat => exact ⟨by simp [Node.opening]; rfl, by simp [Node.opening]; rfl⟩
  | rule hat hbody hcover hdeclared =>
      rw [Node.opening, String.toList_ofList]
      exact Text.trimmed_trim p.text
  | declaration hat hbody hholds =>
      obtain ⟨left, right, -, -, hkeeps⟩ := hholds.assignment
      rw [Node.opening, hkeeps.property]
      exact Text.trimmed_trim left

end Piece

/-! ## Documents -/

theorem Comment.line_locate_of_shows
    {css text : List Char} {place : Nat} (h : blank css = .ok text)
    (hshows : Text.Shows 0 text place) :
    (Position.locate css place).line = (Position.locate text place).line :=
  congrArg Prod.snd (spot_locate_of_shows h hshows)

/-- Where the text of a node begins: at its place if no white space is left there, and
else behind that, as many lines further down as the white space has line feeds. -/
structure Node.BeginsBehind (css text gap : List Char) (node : Node Position) : Prop where
  unskipped : Text.Unskipped gap
  stands : Text.Stands 0 text node.place.offset (gap ++ node.opening)
  offset : Text.Stands 0 text node.place.offset node.opening ↔ gap = []
  line :
    (Position.locate css (node.place.offset + Text.byteLength gap)).line =
      node.place.line + gap.count '\n'

namespace Document

variable {css text : List Char} {doc : Document Nat}

theorem exists_gap_of_ofBlanked (h : ofBlanked text = .ok doc) :
    ∀ node ∈ doc.nodes, Text.Trimmed node.opening ∧
      ∃ gap, Text.Unskipped gap ∧ Text.Stands 0 text node.place (gap ++ node.opening) := by
  obtain ⟨pieces, yields, hpieces, hyields, rfl⟩ := ofBlanked_eq_ok_iff.mp h
  intro node hnode
  have hyield : some node ∈ yields := by simpa using hnode
  obtain ⟨p, hp, hyields⟩ := exists_mem_of_forall₂ hyields _ hyield
  obtain ⟨gap, hgap, hstands⟩ := Piece.exists_gap_of_yields hyields
  exact ⟨Piece.trimmed_opening hyields, gap, hgap, (hpieces.stands hp).trans hstands⟩

theorem exists_beginsBehind
    (hblank : Comment.blank css = .ok text) (h : ofBlanked text = .ok doc) :
    ∀ node ∈ (doc.locate css).nodes, node.opening ≠ [] → ∃ gap, node.BeginsBehind css text gap := by
  have hread : read css = .ok doc := bind_eq_ok_iff.mpr ⟨text, hblank, h⟩
  rw [locate_eq_map (boundary_of_read hread)]
  intro located hlocated hne
  obtain ⟨node, hnode, rfl⟩ := List.mem_map.mp hlocated
  obtain ⟨htrimmed, gap, hgap, hstands⟩ := exists_gap_of_ofBlanked h node hnode
  have hmem : node.place ∈ doc.places := List.mem_flatMap.mpr ⟨node, hnode, node.place_mem_places⟩
  have hoffset := Position.offset_locate (boundary_of_read hread _ hmem)
  simp only [Node.opening_map] at hne
  refine ⟨gap, hgap, ?_, ?_, ?_⟩
  · rwa [Node.place_map, hoffset, Node.opening_map]
  · rw [Node.place_map, hoffset, Node.opening_map]
    exact hstands.iff_of_white hgap.white htrimmed hne
  · have hhere := Comment.line_locate_of_shows hblank (shows_of_ofBlanked h _ hmem)
    have hthere := Comment.line_locate_of_shows hblank (hstands.shows_of_trimmed htrimmed hne)
    rw [Node.place_map, hoffset, hhere, hthere]
    exact hstands.append_left.line_locate

end Document

/-- Every result has the line of the rule that it is about. -/
theorem Document.exists_rule_of_result
    {doc : Document Position} {config : LintConfig} {result : ContrastResult}
    (h : result ∈ (doc.lint config).value.results) :
    ∃ r ∈ doc.rules, result.selector = r.selector ∧ result.line = r.place.line := by
  rw [value_lint] at h
  split at h
  · rw [results_pruned] at h
    obtain ⟨r, hr, rfl⟩ := List.mem_map.mp h
    exact ⟨r, List.mem_of_mem_filter hr, rfl, rfl⟩
  · contradiction

/-- Every node of a stylesheet that begins with a text stands at white space, none of
which can be an ASCII blank at its head, and then that text.  It stands at the text
itself exactly if there is no such white space, and the line that it is reported with
is that of the text exactly if the white space has no line feed. -/
theorem parse_begins_behind {css : String} {doc : Document Position} (h : parse css = .ok doc) :
    (∃ text, Comment.blank css.toList = .ok text ∧
      ∀ node ∈ doc.nodes, node.opening ≠ [] →
        ∃ gap, node.BeginsBehind css.toList text gap) ∧
    ∀ config report, (lint config css).value = .ok report →
      ∀ result ∈ report.results,
        ∃ r ∈ doc.rules, result.selector = r.selector ∧ result.line = r.place.line := by
  constructor
  · obtain ⟨read, hread, rfl⟩ := parse_eq_ok_iff.mp h
    obtain ⟨text, hblank, hdoc⟩ := bind_eq_ok_iff.mp hread
    exact ⟨text, hblank, Document.exists_beginsBehind hblank hdoc⟩
  · intro config report hreport result hresult
    rw [eq_value_lint_of_parse h hreport] at hresult
    exact Document.exists_rule_of_result hresult

/-- The case of a rule behind a comment and a vertical tab, and of an at-rule behind a
no-break space and a line feed. -/
theorem parse_begins_behind_tab :
    ∃ doc, parse "/**/\x0bp\x7b\x7d\u00a0\n@m;" = .ok doc ∧
      doc.nodes.map (·.place.offset) = [4, 8] ∧
      ∃ text, Comment.blank "/**/\x0bp\x7b\x7d\u00a0\n@m;".toList = .ok text ∧
        ∀ node ∈ doc.nodes, node.opening ≠ [] →
          ∃ gap, node.BeginsBehind "/**/\x0bp\x7b\x7d\u00a0\n@m;".toList text gap := by
  have hparse : parse "/**/\x0bp\x7b\x7d\u00a0\n@m;" =
      .ok ⟨[.rule ⟨"p", [], ⟨4, 1, 5⟩⟩, .atRule ⟨"m", "", none, ⟨8, 1, 9⟩⟩]⟩ := by
    decide +kernel
  exact ⟨_, hparse, rfl, (parse_begins_behind hparse).1⟩

/-- A rule behind a vertical tab and a line feed neither stands at its selector nor has
the line of it. -/
theorem exists_rule_not_at_selector :
    ∃ doc text r, parse "\x0b\np\x7b\x7d" = .ok doc ∧
      Comment.blank "\x0b\np\x7b\x7d".toList = .ok text ∧ r ∈ doc.rules ∧ r.selector = "p" ∧
      ¬Text.Stands 0 text r.place.offset r.selector.toList ∧ r.place.line = 1 ∧
      Text.Stands 0 text 2 r.selector.toList ∧
      (Position.locate "\x0b\np\x7b\x7d".toList 2).line = 2 := by
  have hparse : parse "\x0b\np\x7b\x7d" = .ok ⟨[.rule ⟨"p", [], ⟨0, 1, 1⟩⟩]⟩ := by
    decide +kernel
  have hblank : Comment.blank "\x0b\np\x7b\x7d".toList = .ok "\x0b\np\x7b\x7d".toList := by
    decide +kernel
  refine ⟨_, _, ⟨"p", [], ⟨0, 1, 1⟩⟩, hparse, hblank, List.mem_singleton.mpr rfl, rfl, ?_, rfl,
    ⟨['\x0b', '\n'], ['\x7b', '\x7d'], by decide +kernel, by decide +kernel⟩, by decide +kernel⟩
  intro hstands
  have hhere : Text.Stands 0 "\x0b\np\x7b\x7d".toList 0 ['\x0b'] :=
    ⟨[], "\np\x7b\x7d".toList, by decide +kernel, rfl⟩
  exact absurd (hstands.head_eq hhere) (by decide)

end ContrastLint

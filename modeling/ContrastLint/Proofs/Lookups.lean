import ContrastLint.Proofs.BytewiseParse

/-!
# Positions by lookups

To parse a text is to look up, one after the other, where its nodes and their
declarations stand.  If there is a fault, its place is looked up last, and the
nodes before it are dropped with their positions.  All these places are character
boundaries of the given text, so each lookup finds what counting finds, whatever
the lookups before it left in the cursor.
-/

namespace ContrastLint

/-! ## Lookups of a result -/

section Results

variable {glyphs : List Glyph} {segments : List Segment} {fault : Fault}

theorem lookupsIn_of_cut (h : Segment.cut glyphs = .ok segments) :
    lookupsIn glyphs = segments.flatMap Segment.places := by
  induction glyphs using lookupsIn.induct generalizing segments with
  | case1 glyphs fault hfirst =>
      rw [Segment.cut_of_error hfirst] at h
      contradiction
  | case2 glyphs hfirst =>
      rw [Segment.cut_of_none hfirst] at h
      cases h
      exact lookupsIn_of_none hfirst
  | case3 glyphs segment rest hfirst ih =>
      rw [Segment.cut_of_some hfirst] at h
      obtain ⟨segments, hrest, rfl⟩ := map_eq_ok_iff.mp h
      rw [lookupsIn_of_some hfirst, ih hrest, List.flatMap_cons]

/-- The place of a fault is looked up last. -/
theorem exists_lookupsIn_of_cut_eq_error (h : Segment.cut glyphs = .error fault) :
    ∃ before, lookupsIn glyphs = before ++ [fault.offset] := by
  induction glyphs using lookupsIn.induct with
  | case1 glyphs fault' hfirst =>
      rw [Segment.cut_of_error hfirst] at h
      cases h
      exact ⟨[], lookupsIn_of_error hfirst⟩
  | case2 glyphs hfirst =>
      rw [Segment.cut_of_none hfirst] at h
      contradiction
  | case3 glyphs segment rest hfirst ih =>
      rw [Segment.cut_of_some hfirst] at h
      obtain ⟨before, hbefore⟩ := ih (map_eq_error_iff.mp h)
      refine ⟨segment.places ++ before, ?_⟩
      rw [lookupsIn_of_some hfirst, hbefore, List.append_assoc]

theorem flatMap_places
    {nodes : List (Option (Node Nat))} (h : segments.mapM Node.ofSegment? = .ok nodes) :
    segments.flatMap Segment.places = (nodes.filterMap id).flatMap Node.places := by
  have hnodes := mapM_eq_ok_iff.mp h
  clear h
  induction hnodes with
  | nil => rfl
  | @cons segment node? segments nodes hnode _ ih =>
      rw [List.flatMap_cons, Segment.places_eq hnode, ih]
      cases node? <;> simp

variable {css : List Char} {doc : Document Nat}

theorem lookups_of_read (h : Document.read css = .ok doc) : lookups css = doc.places := by
  obtain ⟨text, hblank, hread⟩ := bind_eq_ok_iff.mp h
  obtain ⟨segments, hcut, hdoc⟩ := bind_eq_ok_iff.mp hread
  obtain ⟨nodes, hnodes, heq⟩ := bind_eq_ok_iff.mp hdoc
  cases heq
  rw [lookups, hblank]
  exact (lookupsIn_of_cut hcut).trans (flatMap_places hnodes)

/-- Only the cut finds faults: a segment that was cut off always yields its node. -/
theorem Document.cut_of_ofBlanked_eq_error
    {text : List Char} (h : ofBlanked text = .error fault) :
    Segment.cut (Glyph.ofChars text) = .error fault := by
  rw [ofBlanked] at h
  cases hcut : Segment.cut (Glyph.ofChars text) with
  | error fault' =>
      rw [hcut] at h
      cases h
      rfl
  | ok segments =>
      have hordinary := Glyph.blanksOrdinary_ofCharsFrom none 0 text
      obtain ⟨nodes, hnodes⟩ := exists_mapM_eq_ok (Node.exists_ofSegment? hordinary hcut)
      rw [hcut, bind_ok, hnodes] at h
      contradiction

theorem exists_lookups_of_read_eq_error (h : Document.read css = .error fault) :
    ∃ before, lookups css = before ++ [fault.offset] := by
  rw [Document.read] at h
  rw [lookups]
  cases hblank : Comment.blank css with
  | error fault' =>
      rw [hblank] at h
      cases h
      exact ⟨[], rfl⟩
  | ok text =>
      rw [hblank, bind_ok] at h
      exact exists_lookupsIn_of_cut_eq_error (Document.cut_of_ofBlanked_eq_error h)

end Results

/-! ## Positions -/

/-- The positions in the result of parsing. -/
def positions : Except ParseError (Document Position) → List Position
  | .ok doc => doc.places
  | .error e => [e.position]

/-- What is answered if offsets in a text are looked up one after the other. -/
def answers (css : List Char) (offsets : List Nat) : List Position :=
  ((offsets.mapM Locator.locate).run (.ofText css)).1

theorem boundary_of_mem_lookups (css : String) :
    ∀ offset ∈ lookups css.toList, Text.Boundary css.toList offset :=
  (Bytewise.gives_parse css).boundary

/-- The reader over bytes looks up these offsets. -/
theorem bytewise_lookups_eq (css : String) : Bytewise.lookups css.toList = lookups css.toList := by
  obtain ⟨locator, -, hrun⟩ :=
    (Bytewise.gives_parse css).run ⟨.ofText css.toList, []⟩ (Locator.coherent_ofText css.toList)
  rw [Bytewise.lookups, hrun, List.nil_append]

theorem exists_befores
    {text : List Char} {offsets : List Nat} (h : ∀ offset ∈ offsets, Text.Boundary text offset) :
    ∃ befores : List (List Char),
      (∀ before ∈ befores, before <+: text) ∧ offsets = befores.map Text.byteLength := by
  induction offsets with
  | nil => exact ⟨[], by simp, rfl⟩
  | cons offset offsets ih =>
      rcases List.forall_mem_cons.mp h with ⟨⟨before, hbefore, rfl⟩, hmore⟩
      obtain ⟨befores, hbefores, rfl⟩ := ih hmore
      exact ⟨before :: befores, List.forall_mem_cons.mpr ⟨hbefore, hbefores⟩, rfl⟩

theorem answers_eq_map
    {css : List Char} {offsets : List Nat} (h : ∀ offset ∈ offsets, Text.Boundary css offset) :
    answers css offsets = offsets.map (Position.locate css) := by
  obtain ⟨befores, hbefores, rfl⟩ := exists_befores h
  have hanswers := (Locator.answers_mapM_locate hbefores _ (Locator.coherent_ofText css)).1
  rw [answers, hanswers, List.map_map]
  apply List.map_congr_left
  intro before hbefore
  exact (Position.locate_eq (hbefores before hbefore)).symm

theorem names_of_mem_answers
    {css : List Char} {offsets : List Nat} (h : ∀ offset ∈ offsets, Text.Boundary css offset) :
    ∀ p ∈ answers css offsets, p.Names css := by
  intro p hp
  rw [answers_eq_map h] at hp
  obtain ⟨offset, hoffset, rfl⟩ := List.mem_map.mp hp
  obtain ⟨before, hbefore, rfl⟩ := h offset hoffset
  exact ⟨before, hbefore, Position.locate_eq hbefore⟩

/-- Parsing a text keeps the last of the answers to its lookups, and all of them
if there is no fault. -/
theorem exists_answers_lookups (css : String) :
    ∃ dropped, answers css.toList (lookups css.toList) = dropped ++ positions (parse css) ∧
      ((parse css).isOk = true → dropped = []) := by
  rw [answers_eq_map (boundary_of_mem_lookups css), parse]
  cases hread : Document.read css.toList with
  | error fault =>
      obtain ⟨before, hbefore⟩ := exists_lookups_of_read_eq_error hread
      refine ⟨before.map (Position.locate css.toList), ?_, ?_⟩
      · rw [hbefore, List.map_append]
        rfl
      · intro hok
        contradiction
  | ok doc =>
      refine ⟨[], ?_, fun _ => rfl⟩
      have hplaces :
          (doc.locate css.toList).places = doc.places.map (Position.locate css.toList) := by
        rw [Document.locate_eq_map (Document.boundary_of_read hread), Document.places_map]
      rw [lookups_of_read hread, ← hplaces]
      rfl

/-- Every position in the result of parsing is found by counting, from the given
text and not from the blanked one.  Whatever the cursor of a locator holds, any
sequence of lookups at character boundaries finds the positions that counting
finds.  The lookups of the reader over bytes, also those before a fault, are
answered one after the other from a locator that knows the text; the result has
the answers that are not dropped, and to find them bytes are never counted in
place of characters. -/
theorem parse_positions (css : String) :
    (∀ p ∈ positions (parse css), p.Names css.toList) ∧
      (∀ loc : Locator, loc.Coherent css.toList →
        ∀ befores : List (List Char), (∀ before ∈ befores, before <+: css.toList) →
          (((befores.map Text.byteLength).mapM Locator.locate).run loc).1 =
            befores.map Position.after) ∧
      (Locator.ofText css.toList).Coherent css.toList ∧
      Bytewise.lookups css.toList = lookups css.toList ∧
      (∃ dropped, answers css.toList (lookups css.toList) = dropped ++ positions (parse css) ∧
        ((parse css).isOk = true → dropped = [])) ∧
      ∀ done offset more, lookups css.toList = done ++ offset :: more →
        ¬((done.mapM Locator.locate).run (.ofText css.toList)).2.CountsBytes offset := by
  have hstart := Locator.coherent_ofText css.toList
  have hboundary := boundary_of_mem_lookups css
  have hanswers := exists_answers_lookups css
  refine ⟨?_, ?_, hstart, bytewise_lookups_eq css, hanswers, ?_⟩
  · obtain ⟨dropped, hdropped, -⟩ := hanswers
    intro p hp
    apply names_of_mem_answers hboundary
    rw [hdropped]
    exact List.mem_append_right dropped hp
  · intro loc hloc befores hbefores
    exact (Locator.answers_mapM_locate hbefores loc hloc).1
  · intro done offset more hlookups
    rw [hlookups, List.forall_mem_append, List.forall_mem_cons] at hboundary
    rcases hboundary with ⟨hdone, ⟨before, ⟨rest, hrest⟩, rfl⟩, -⟩
    obtain ⟨befores, hbefores, rfl⟩ := exists_befores hdone
    have hloc := (Locator.answers_mapM_locate hbefores _ hstart).2
    rw [← hrest] at hloc ⊢
    exact hloc.not_countsBytes

end ContrastLint

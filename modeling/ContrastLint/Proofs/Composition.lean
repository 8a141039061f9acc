import ContrastLint.Proofs.Gaps
import ContrastLint.Proofs.Moving
import ContrastLint.Proofs.Places

/-!
# Stylesheets one after the other

Two stylesheets in a row are read one by one if the first one is accepted and
ends with a block.  Then no comment, no string and no piece reaches across the
seam: the last piece of the first text is blank and goes to the first piece of
the second one.  The document has the nodes of both, those of the second one
moved by the first text.
-/

namespace ContrastLint

/-! ## Positions -/

/-- The position in a text that the text `lead` comes to stand before. -/
def Position.shift (lead : List Char) (p : Position) : Position where
  offset := p.offset + Text.byteLength lead
  line := p.line + lead.count '\n'
  column := if p.line = 1 then p.column + (Text.lastLine lead).length else p.column

theorem Position.after_append (a b : List Char) :
    after (a ++ b) = (after b).shift a := by
  unfold after shift
  by_cases hb : '\n' ∈ b
  · have hcount := List.count_pos_iff.mpr hb
    obtain ⟨lines, hlines⟩ := (Text.exists_lastLine b).resolve_left (not_not_intro hb)
    have hlast : Text.lastLine (a ++ b) = Text.lastLine b := by
      conv_lhs => rw [hlines, ← List.append_assoc]
      rw [Text.lastLine_append_newline, Text.lastLine_of_notMem (Text.newline_notMem_lastLine b)]
    have hbehind : ¬1 + b.count '\n' = 1 := by omega
    simp only [Text.byteLength_append, List.count_append, hlast, hbehind, if_false]
    rw [Position.mk.injEq]
    omega
  · have hcount := List.count_eq_zero_of_not_mem hb
    have hlast : (Text.lastLine (a ++ b)).length =
        (Text.lastLine a).length + (Text.lastLine b).length := by
      rw [Text.lastLine_append hb, List.length_append, Text.lastLine_of_notMem hb]
    simp only [Text.byteLength_append, List.count_append, hcount, hlast, if_true, Nat.add_zero]
    rw [Position.mk.injEq]
    omega

/-- A place in the second of two texts is located as in this text, but behind
the first one. -/
theorem Position.locate_append
    {a b : List Char} {place : Nat} (h : Text.Boundary b place) :
    locate (a ++ b) (place + Text.byteLength a) = (locate b place).shift a := by
  rcases h with ⟨before, hbefore, rfl⟩
  have hsum : Text.byteLength before + Text.byteLength a = Text.byteLength (a ++ before) := by
    rw [Text.byteLength_append, Nat.add_comm]
  rw [hsum, locate_eq ((List.prefix_append_right_inj a).mpr hbefore), locate_eq hbefore,
    after_append]

theorem Position.locate_append_left
    {a : List Char} {place : Nat} (h : Text.Boundary a place) (b : List Char) :
    locate (a ++ b) place = locate a place := by
  rcases h with ⟨before, hbefore, rfl⟩
  rw [locate_eq (hbefore.trans (List.prefix_append a b)), locate_eq hbefore]

/-! ## Where the first text ends -/

namespace Text

/-- Without the blanks at its end, the text is empty or ends with a closing
brace. -/
def EndsAtBlock (text : List Char) : Prop :=
  ∀ c ∈ (text.rdropWhile isAsciiWhite).getLast?, c = '}'

instance (text : List Char) : Decidable (EndsAtBlock text) :=
  Option.decidableForallMem _

theorem rdropWhile_append_cons
    {front back : List Char} {c : Char} (hback : Blank back) (hc : isAsciiWhite c = false) :
    (front ++ c :: back).rdropWhile isAsciiWhite = front ++ [c] := by
  have hblank : ∀ d ∈ back.reverse, isAsciiWhite d = true := fun d hd =>
    hback d (List.mem_reverse.mp hd)
  simp [List.rdropWhile, List.dropWhile_append_of_pos hblank, hc]

/-- A text is blank or has a last character that is no blank. -/
theorem blank_or_exists_last (text : List Char) :
    Blank text ∨
      ∃ front c back, text = front ++ c :: back ∧ Blank back ∧ isAsciiWhite c = false := by
  have hsplit := List.rdropWhile_append_rtakeWhile (p := isAsciiWhite) (l := text)
  have hlast := List.rdropWhile_last_not (p := isAsciiWhite) (l := text)
  have hback : Blank (text.rtakeWhile isAsciiWhite) := fun d hd => List.mem_rtakeWhile_imp hd
  rcases List.eq_nil_or_concat' (text.rdropWhile isAsciiWhite) with hnil | ⟨front, c, hcore⟩
  · rw [hnil, List.nil_append] at hsplit
    rw [hsplit] at hback
    exact .inl hback
  · refine .inr ⟨front, c, text.rtakeWhile isAsciiWhite, ?_, hback, ?_⟩
    · conv_lhs => rw [← hsplit, hcore]
      simp
    · simpa [hcore] using hlast

namespace EndsAtBlock

variable {front back a b text : List Char} {c : Char}

theorem eq_closeBrace
    (h : EndsAtBlock (front ++ c :: back)) (hback : Blank back) (hc : isAsciiWhite c = false) :
    c = '}' := by
  rw [EndsAtBlock, rdropWhile_append_cons hback hc] at h
  exact h c (by simp)

theorem of_append (h : EndsAtBlock (a ++ b)) : EndsAtBlock b := by
  rcases blank_or_exists_last b with hblank | ⟨front, c, back, rfl, hback, hc⟩
  · rw [EndsAtBlock, List.rdropWhile_eq_nil_iff.mpr hblank]
    simp
  · rw [← List.append_assoc] at h
    obtain rfl := h.eq_closeBrace hback hc
    rw [EndsAtBlock, rdropWhile_append_cons hback hc]
    simp

theorem getLast?_ne_slash (h : EndsAtBlock text) : text.getLast? ≠ some '/' := by
  intro hlast
  obtain ⟨front, rfl⟩ := List.getLast?_eq_some_iff.mp hlast
  exact absurd (h.eq_closeBrace blank_nil rfl) (by decide)

/-- The last piece of such a text is blank. -/
theorem blank_of_proper
    {offset : Nat} (h : EndsAtBlock text) (hproper : Piece.Proper ⟨offset, text, .last⟩) :
    Blank text := by
  rcases hproper with ⟨depth, hread, -⟩
  rcases blank_or_exists_last text with hblank | ⟨front, c, back, rfl, hback, hc⟩
  · exact hblank
  · obtain rfl := h.eq_closeBrace hback hc
    rw [Cursor.readText_append] at hread
    obtain ⟨k, -, hrest⟩ := Option.bind_eq_some_iff.mp hread
    obtain ⟨next, hnext, hread⟩ := Option.bind_eq_some_iff.mp hrest
    obtain ⟨hgoes, rfl⟩ := Cursor.text?_eq_some_iff.mp hnext
    -- The brace is in no string, since the blanks behind it lead out of none.
    have hafter : k.quoting.next '}' = .outside :=
      Quoting.eq_outside_of_after_white hback.white (Cursor.quoting_of_readText hread).symm
    have hquoting : k.quoting = .outside := Quoting.eq_outside_of_next_closeBrace hafter
    exact absurd (.inr (.inl (by rw [hquoting]; rfl))) hgoes

end EndsAtBlock

end Text

/-- The pieces of such a text are followed by those of any other, and the blank
piece at its end comes to stand in front of them. -/
theorem Partition.exists_front
    {offset : Nat} {text : List Char} {pieces : List Piece} (h : Partition offset text pieces)
    (hend : Text.EndsAtBlock text) :
    ∃ front place lead, pieces = front ++ [⟨place, lead, .last⟩] ∧ Text.Blank lead ∧
      place + Text.byteLength lead = offset + Text.byteLength text ∧
      ∀ rest more, Partition place (lead ++ rest) more →
        Partition offset (text ++ rest) (front ++ more) := by
  induction h with
  | @last offset text hproper =>
      exact ⟨[], offset, text, rfl, hend.blank_of_proper hproper, rfl, fun _ _ hmore => hmore⟩
  | @semicolon offset text rest pieces hproper _ ih =>
      have hsize : ';'.utf8Size = 1 := rfl
      rw [List.append_cons] at hend
      obtain ⟨front, place, lead, rfl, hlead, hplace, hjoin⟩ := ih hend.of_append
      refine ⟨_ :: front, place, lead, rfl, hlead, ?_, fun after more hmore => ?_⟩
      · rw [hplace, Text.byteLength_append, Text.byteLength_cons, hsize]
        omega
      · rw [List.append_assoc]
        exact .semicolon hproper (hjoin after more hmore)
  | @block offset text body rest pieces hproper _ ih =>
      have hopen : '{'.utf8Size = 1 := rfl
      have hclose : '}'.utf8Size = 1 := rfl
      have hsplit : text ++ '{' :: (body ++ '}' :: rest) =
          (text ++ '{' :: (body ++ ['}'])) ++ rest := by simp
      rw [hsplit] at hend
      obtain ⟨front, place, lead, rfl, hlead, hplace, hjoin⟩ := ih hend.of_append
      refine ⟨_ :: front, place, lead, rfl, hlead, ?_, fun after more hmore => ?_⟩
      · simp only [hplace, Text.byteLength_append, Text.byteLength_cons, hopen, hclose]
        omega
      · have hjoined := Partition.block hproper (hjoin after more hmore)
        simpa using hjoined

theorem Piece.eq_none_of_yields_blank
    {place : Nat} {lead : List Char} {node : Option (Node Nat)} (hlead : Text.Blank lead)
    (h : Yields ⟨place, lead, .last⟩ node) : node = none := by
  have hnone : segment? ⟨place, lead, .last⟩ = none := by
    have hdrop : lead.dropWhile Text.isAsciiWhite = [] := List.dropWhile_eq_nil_iff.mpr hlead
    simp [segment?, hdrop]
  exact (yields_iff_of_segment?_eq_none hnone).mp h

theorem Piece.yields_of_moves
    {bytes : Nat} {pieces moved : List Piece} {yields : List (Option (Node Nat))}
    (hmoves : List.Forall₂ (Moves bytes) pieces moved)
    (hyields : List.Forall₂ Yields pieces yields) :
    List.Forall₂ Yields moved (yields.map (Option.map (Node.map (· + bytes)))) := by
  induction hmoves generalizing yields with
  | nil =>
      cases hyields
      exact .nil
  | cons hp _ ih =>
      cases hyields with
      | cons hnode hrest => exact .cons (hp.yields hnode) (ih hrest)

/-! ## Reading -/

theorem Comment.blank_append
    {a b text : List Char} (h : blank a = .ok text)
    (hclosed : Quoting.outside.after text = .outside) (hlast : text.getLast? ≠ some '/') :
    blank (a ++ b) =
      (text ++ ·) <$> (blank b).mapError (Fault.shift (Text.byteLength a)) := by
  have hshift := blankFrom_shift (Text.byteLength a) 0 b
  rw [blank, blankFrom_append h hclosed (.inl hlast), hshift]
  rfl

namespace Document

variable {a b : List Char} {doc other : Document Nat} {fault : Fault}

theorem ofBlanked_append
    (h : ofBlanked a = .ok doc) (hend : Text.EndsAtBlock a) (hother : ofBlanked b = .ok other) :
    ofBlanked (a ++ b) = .ok (doc.append (other.map (· + Text.byteLength a))) := by
  rcases ofBlanked_eq_ok_iff.mp h with ⟨pieces, yields, hpieces, hyields, rfl⟩
  rcases ofBlanked_eq_ok_iff.mp hother with ⟨others, yields', hothers, hyields', rfl⟩
  obtain ⟨front, place, lead, rfl, hlead, hplace, hjoin⟩ := hpieces.exists_front hend
  rw [Nat.zero_add] at hplace
  obtain ⟨moved, hmoved, hmoves⟩ :=
    hothers.exists_moves hlead (hplace.trans (Nat.zero_add (Text.byteLength a)).symm)
  obtain ⟨first, last, rfl, hfirst, hlast⟩ := exists_append_of_forall₂ hyields
  obtain ⟨node, hnode, rfl⟩ : ∃ node, Piece.Yields ⟨place, lead, .last⟩ node ∧ last = [node] := by
    simpa [List.forall₂_cons_left_iff] using hlast
  obtain rfl := Piece.eq_none_of_yields_blank hlead hnode
  refine ofBlanked_eq_ok_iff.mpr ⟨_, _, hjoin b moved hmoved,
    List.rel_append hfirst (Piece.yields_of_moves hmoves hyields'), ?_⟩
  simp [append, map, List.filterMap_map, List.map_filterMap]

theorem ofBlanked_eq_error_iff {text : List Char} :
    ofBlanked text = .error fault ↔ Pass.start.run 0 text = .error fault := by
  rw [← ofBlanked_verdict]
  cases ofBlanked text <;> simp [Except.map]

theorem ofBlanked_append_of_error
    (h : ofBlanked a = .ok doc) (hother : ofBlanked b = .error fault) :
    ofBlanked (a ++ b) = .error (fault.shift (Text.byteLength a)) := by
  have hverdict := ofBlanked_verdict a
  rw [h] at hverdict
  obtain ⟨q, hquoting, hdepth, hrun⟩ := Pass.exists_run_append hverdict.symm
  have hfollows : Pass.start.Follows (Text.byteLength a) q :=
    ⟨hquoting, hdepth, fun hopen => absurd rfl hopen, fun hopen => absurd rfl hopen⟩
  rw [ofBlanked_eq_error_iff] at hother ⊢
  rw [hrun, hfollows.run, hother]
  rfl

variable {text : List Char}

theorem read_append
    (hblank : Comment.blank a = .ok text) (h : ofBlanked text = .ok doc)
    (hend : Text.EndsAtBlock text) :
    read (a ++ b) =
      ((read b).map fun other => doc.append (other.map (· + Text.byteLength a))).mapError
        (Fault.shift (Text.byteLength a)) := by
  have hclosed : Quoting.outside.after text = .outside := by
    rcases ofBlanked_eq_ok_iff.mp h with ⟨pieces, -, hpieces, -, -⟩
    exact hpieces.after_eq_outside
  have hlength : Text.byteLength text = Text.byteLength a := Comment.byteLength_of_blankFrom hblank
  unfold read
  rw [Comment.blank_append hblank hclosed hend.getLast?_ne_slash]
  cases Comment.blank b with
  | error fault => rfl
  | ok rest =>
      rw [bind_ok]
      cases hrest : ofBlanked rest with
      | error fault =>
          have hjoined := ofBlanked_append_of_error h hrest
          rw [hlength] at hjoined
          exact hjoined
      | ok other =>
          have hjoined := ofBlanked_append h hend hrest
          rw [hlength] at hjoined
          exact hjoined

end Document

/-- A stylesheet that is accepted and ends at a block may be put before any
other.  The result is that of the other one, moved by the text before it, with
the nodes of the first one before those of the second one. -/
theorem parse_append
    {a b : String} {doc : Document Position} {text : List Char} (h : parse a = .ok doc)
    (hblank : Comment.blank a.toList = .ok text) (hend : Text.EndsAtBlock text) :
    parse (a ++ b) =
      match parse b with
      | .ok other => .ok (doc.append (other.map (Position.shift a.toList)))
      | .error e => .error ⟨e.defect, e.position.shift a.toList⟩ := by
  rcases parse_eq_ok_iff.mp h with ⟨first, hfirst, rfl⟩
  have hblanked : Document.ofBlanked text = .ok first := by
    rw [Document.read, hblank, bind_ok] at hfirst
    exact hfirst
  have hjoined := Document.read_append (b := b.toList) hblank hblanked hend
  have hboundary := Document.boundary_of_read hfirst
  rw [parse, String.toList_append]
  unfold parse
  cases hsecond : Document.read b.toList with
  | error fault =>
      rw [hsecond] at hjoined
      rw [hjoined]
      have hplace := Document.boundary_of_read_eq_error hsecond
      exact congrArg Except.error
        (congrArg (ParseError.mk fault.defect) (Position.locate_append hplace))
  | ok second =>
      rw [hsecond] at hjoined
      rw [hjoined]
      have hplaces := Document.boundary_of_read hsecond
      have hfront : first.map (Position.locate (a.toList ++ b.toList)) =
          first.map (Position.locate a.toList) :=
        Document.map_congr fun place hplace =>
          Position.locate_append_left (hboundary place hplace) b.toList
      have hback : second.map
          (Position.locate (a.toList ++ b.toList) ∘ (· + Text.byteLength a.toList)) =
            second.map (Position.shift a.toList ∘ Position.locate b.toList) :=
        Document.map_congr fun place hplace => Position.locate_append (hplaces place hplace)
      refine congrArg Except.ok ?_
      rw [Document.locate_eq_map (Document.boundary_of_read hjoined),
        Document.locate_eq_map hboundary, Document.locate_eq_map hplaces, Document.map_append,
        Document.map_map, Document.map_map, hfront, hback]

/-- The case of a comment behind the last block, and of a fault on the line that
both stylesheets share. -/
theorem parse_append_unclosed :
    ∃ doc text, parse "p\x7bc:'é'\x7d/*é*/ " = .ok doc ∧
      Comment.blank "p\x7bc:'é'\x7d/*é*/ ".toList = .ok text ∧ Text.EndsAtBlock text ∧
      parse "é\x7b" = .error ⟨.unclosedBlock, ⟨2, 1, 2⟩⟩ ∧
      parse ("p\x7bc:'é'\x7d/*é*/ " ++ "é\x7b") = .error ⟨.unclosedBlock, ⟨18, 1, 16⟩⟩ := by
  have hparse : parse "p\x7bc:'é'\x7d/*é*/ " =
      .ok ⟨[.rule ⟨"p", [⟨⟨"c", "'é'", false⟩, ⟨2, 1, 3⟩⟩], ⟨0, 1, 1⟩⟩]⟩ := by
    decide +kernel
  have hblank : Comment.blank "p\x7bc:'é'\x7d/*é*/ ".toList =
      .ok "p\x7bc:'é'\x7d       ".toList := by
    decide +kernel
  have hend : Text.EndsAtBlock "p\x7bc:'é'\x7d       ".toList := by decide +kernel
  have hother : parse "é\x7b" = .error ⟨.unclosedBlock, ⟨2, 1, 2⟩⟩ := by decide +kernel
  have hjoined := parse_append (b := "é\x7b") hparse hblank hend
  rw [hother] at hjoined
  exact ⟨_, _, hparse, hblank, hend, hother, hjoined⟩

end ContrastLint

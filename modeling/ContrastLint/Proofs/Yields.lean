import ContrastLint.Proofs.Assignments
import ContrastLint.Proofs.Cutting
import ContrastLint.Proofs.SinglePass

/-!
# What pieces yield

A document is read piece by piece.  This file says which node a piece yields,
in terms of its characters, and shows that a document consists of the nodes
that the pieces of its text yield, in their order.
-/

namespace ContrastLint

namespace Piece

/-- A piece holds a declaration: it keeps the two sides of the first colon, and
it stands where the white space before it ends.  Its source is a part of the
text of the piece. -/
structure Holds (p : Piece) (d : Declaration Nat) : Prop where
  assignment :
    ∃ left right, p.text = left ++ ':' :: right ∧ ':' ∉ left ∧ d.toAssignment.Keeps left right
  range :
    ∃ white source, p.text = white ++ source ∧ Text.White white ∧
      (∀ c ∈ source.head?, Text.isWhite c = false) ∧
      d.place = p.offset + Text.byteLength white

/-- A piece has no colon with something else than white space before it. -/
def Lacks (p : Piece) : Prop :=
  ∀ left right, p.text = left ++ ':' :: right → ':' ∉ left → Text.trim left = []

/-- What a piece of a rule's body declares. -/
inductive Declares (p : Piece) : Option (Declaration Nat) → Prop
  | block {body : List Char} (hbody : p.ending = .block body) : Declares p none
  | declaration {d : Declaration Nat}
      (hbody : p.ending.body? = none) (hholds : p.Holds d) : Declares p (some d)
  | nothing (hbody : p.ending.body? = none) (hlacks : p.Lacks) : Declares p none

/-- The node that a piece of a stylesheet yields, if it yields one. -/
inductive Yields (p : Piece) : Option (Node Nat) → Prop
  | atRule {text : List Char} (hat : Text.trim p.text = '@' :: text) :
      Yields p (some (.atRule (.read text p.ending.body? p.start)))
  | rule {body : List Char} {inner : List Piece} {declared : List (Option (Declaration Nat))}
      (hat : (Text.trim p.text).head? ≠ some '@') (hbody : p.ending = .block body)
      (hcover : Cover p.bodyOffset body inner)
      (hdeclared : List.Forall₂ Declares inner declared) :
      Yields p (some (.rule
        { selector := .ofList (Text.trim p.text)
          declarations := declared.filterMap id
          place := p.start }))
  | declaration {d : Declaration Nat}
      (hat : (Text.trim p.text).head? ≠ some '@') (hbody : p.ending.body? = none)
      (hholds : p.Holds d) :
      Yields p (some (.declaration d))
  | nothing
      (hat : (Text.trim p.text).head? ≠ some '@') (hbody : p.ending.body? = none)
      (hlacks : p.Lacks) :
      Yields p none

/-! ## Reading the declaration of a piece -/

/-- The declaration in a piece, placed at the first character that is not
white. -/
def declaration? (p : Piece) : Option (Declaration Nat) :=
  (Assignment.read? p.text).map fun a =>
    { toAssignment := a
      place := p.offset + Text.byteLength (p.text.takeWhile Text.isWhite) }

/-- The declaration in a piece of a rule's body.  A piece that ends in a block
declares nothing. -/
def declared? (p : Piece) : Option (Declaration Nat) :=
  match p.ending with
  | .block _ => none
  | _ => p.declaration?

theorem declared?_of_body?_eq_none {p : Piece} (h : p.ending.body? = none) :
    p.declared? = p.declaration? := by
  unfold declared?
  split
  · next hbody => simp [hbody, Ending.body?] at h
  · rfl

theorem declared?_of_block {p : Piece} {body : List Char} (h : p.ending = .block body) :
    p.declared? = none := by
  rw [declared?, h]

theorem declaration?_of_declared? {p : Piece} {d : Declaration Nat} (h : p.declared? = some d) :
    p.declaration? = some d := by
  unfold declared? at h
  split at h
  · contradiction
  · exact h

theorem holds_iff {p : Piece} {d : Declaration Nat} :
    p.Holds d ↔ p.declaration? = some d := by
  constructor
  · intro h
    rcases h with ⟨hassignment, hrange⟩
    rcases hassignment with ⟨left, right, htext, hleft, hkeeps⟩
    rcases hrange with ⟨white, source, hsource, hwhite, hhead, hplace⟩
    have hread : Assignment.read? p.text = some d.toAssignment := by
      rw [htext]
      exact Assignment.read?_of_keeps hleft hkeeps
    have hblank : p.text.takeWhile Text.isWhite = white := by
      rw [hsource]
      exact Text.takeWhile_isWhite_append hwhite hhead
    rw [declaration?, hread, hblank, Option.map_some, ← hplace]
  · intro h
    rcases Option.map_eq_some_iff.mp h with ⟨a, hread, rfl⟩
    rcases Assignment.keeps_of_read? hread with ⟨left, right, htext, hleft, hkeeps⟩
    constructor
    case assignment => exact ⟨left, right, htext, hleft, hkeeps⟩
    case range =>
      exact ⟨p.text.takeWhile Text.isWhite, Text.trimStart p.text,
        List.takeWhile_append_dropWhile.symm, Text.white_takeWhile p.text,
        Text.head?_trimStart p.text, rfl⟩

theorem lacks_iff {p : Piece} : p.Lacks ↔ p.declaration? = none := by
  rw [declaration?, Option.map_eq_none_iff, Assignment.read?_eq_none_iff]
  rfl

theorem declares_iff {p : Piece} {d? : Option (Declaration Nat)} :
    p.Declares d? ↔ d? = p.declared? := by
  constructor
  · intro h
    cases h with
    | block hbody => rw [declared?_of_block hbody]
    | declaration hbody hholds =>
        rw [declared?_of_body?_eq_none hbody, holds_iff.mp hholds]
    | nothing hbody hlacks => rw [declared?_of_body?_eq_none hbody, lacks_iff.mp hlacks]
  · rintro rfl
    cases hbody : p.ending.body? with
    | some body =>
        have hending := Ending.body?_eq_some_iff.mp hbody
        rw [declared?_of_block hending]
        exact .block hending
    | none =>
        rw [declared?_of_body?_eq_none hbody]
        cases hd : p.declaration? with
        | none => exact .nothing hbody (lacks_iff.mpr hd)
        | some d => exact .declaration hbody (holds_iff.mpr hd)

theorem forall₂_declares_iff
    {inner : List Piece} {declared : List (Option (Declaration Nat))} :
    List.Forall₂ Declares inner declared ↔ declared = inner.map declared? := by
  induction inner generalizing declared with
  | nil => simp
  | cons p inner ih => simp [List.forall₂_cons_left_iff, declares_iff, ih]

theorem yields_iff_of_body?_eq_none
    {p : Piece} {node : Option (Node Nat)}
    (hat : (Text.trim p.text).head? ≠ some '@') (hbody : p.ending.body? = none) :
    p.Yields node ↔ node = p.declaration?.map .declaration := by
  constructor
  · intro h
    cases h with
    | atRule hat' => simp [hat'] at hat
    | rule _ hbody' => simp [hbody', Ending.body?] at hbody
    | declaration _ _ hholds => rw [holds_iff.mp hholds, Option.map_some]
    | nothing _ _ hlacks => rw [lacks_iff.mp hlacks, Option.map_none]
  · rintro rfl
    cases hd : p.declaration? with
    | none => exact .nothing hat hbody (lacks_iff.mpr hd)
    | some d => exact .declaration hat hbody (holds_iff.mpr hd)

theorem yields_iff_of_block
    {p : Piece} {body : List Char} {node : Option (Node Nat)}
    (hat : (Text.trim p.text).head? ≠ some '@') (hbody : p.ending = .block body) :
    p.Yields node ↔
      ∃ inner, Partition p.bodyOffset body inner ∧
        node = some (.rule ⟨.ofList (Text.trim p.text), inner.filterMap declared?, p.start⟩) := by
  constructor
  · intro h
    cases h with
    | atRule hat' => simp [hat'] at hat
    | rule _ hbody' hcover hdeclared =>
        cases hbody.symm.trans hbody'
        refine ⟨_, cover_iff.mp hcover, ?_⟩
        rw [forall₂_declares_iff.mp hdeclared, List.filterMap_map]
        rfl
    | declaration _ hbody' => simp [hbody, Ending.body?] at hbody'
    | nothing _ hbody' => simp [hbody, Ending.body?] at hbody'
  · intro h
    rcases h with ⟨inner, hinner, rfl⟩
    have hrule := Yields.rule hat hbody (cover_iff.mpr hinner)
      (forall₂_declares_iff.mpr rfl)
    rw [List.filterMap_map] at hrule
    exact hrule

theorem exists_inner_of_yields_rule
    {p : Piece} {r : Rule Nat} (h : p.Yields (some (.rule r))) :
    (Text.trim p.text).head? ≠ some '@' ∧
      ∃ body inner, p.ending = .block body ∧ Partition p.bodyOffset body inner ∧
        r = ⟨.ofList (Text.trim p.text), inner.filterMap declared?, p.start⟩ := by
  have hyields := h
  cases h with
  | rule hat hbody =>
      obtain ⟨inner, hinner, hnode⟩ := (yields_iff_of_block hat hbody).mp hyields
      exact ⟨hat, _, inner, hbody, hinner, Node.rule.inj (Option.some.inj hnode)⟩

theorem yields_iff_of_at
    {p : Piece} {text : List Char} {node : Option (Node Nat)}
    (hat : Text.trim p.text = '@' :: text) :
    p.Yields node ↔ node = some (.atRule (.read text p.ending.body? p.start)) := by
  constructor
  · intro h
    cases h with
    | atRule hat' =>
        cases hat.symm.trans hat'
        rfl
    | rule hat' => simp [hat] at hat'
    | declaration hat' => simp [hat] at hat'
    | nothing hat' => simp [hat] at hat'
  · rintro rfl
    exact .atRule hat

/-! ## Segments read as pieces -/

theorem ofGlyphs?_segment (p : Piece) :
    Declaration.ofGlyphs? p.segment.text = p.declaration? := by
  have hread : Assignment.read? (p.text.dropWhile Text.isAsciiWhite) =
      Assignment.read? p.text := by
    conv_rhs => rw [Text.eq_blanks_append p.text]
    rw [Assignment.read?_white_append (Text.white_takeWhile_isAsciiWhite p.text)]
  unfold Declaration.ofGlyphs? declaration? segment
  rw [Quoting.chars_glyphs, hread]
  cases ha : Assignment.read? p.text with
  | none => rfl
  | some a =>
      have hne : (p.text.dropWhile Text.isAsciiWhite).dropWhile Text.isWhite ≠ [] := by
        obtain ⟨c, rest, hfirst, -⟩ := Assignment.exists_first_of_read? (hread.trans ha)
        exact List.ne_nil_of_mem (hfirst ▸ List.mem_cons_self)
      have hdrop := Quoting.dropWhile_glyphs Text.isWhite (fun _ h => h) p.start
        (p.text.dropWhile Text.isAsciiWhite)
      obtain ⟨first, others, hfirst, hoffset⟩ := Quoting.outside.exists_glyphs_eq_cons
        (p.start + Text.byteLength
          ((p.text.dropWhile Text.isAsciiWhite).takeWhile Text.isWhite)) hne
      have hplace : p.start + Text.byteLength
          ((p.text.dropWhile Text.isAsciiWhite).takeWhile Text.isWhite) =
            p.offset + Text.byteLength (p.text.takeWhile Text.isWhite) := by
        rw [Text.takeWhile_isWhite p.text, Text.byteLength_append, start, Nat.add_assoc]
      rw [hfirst] at hdrop
      simp [hdrop, hoffset, hplace]

theorem chars_segment (p : Piece) :
    Glyph.chars p.segment.text = p.text.dropWhile Text.isAsciiWhite :=
  Quoting.chars_glyphs _ _ _

theorem chars_block_segment (p : Piece) :
    p.segment.block.map Glyph.chars = p.ending.body? := by
  unfold segment
  cases p.ending.body? <;> simp

theorem ofSegment?_segment (p : Piece) : Declaration.ofSegment? p.segment = p.declared? := by
  rw [declared?, ← ofGlyphs?_segment]
  unfold Declaration.ofSegment? segment
  cases p.ending <;> rfl

theorem white_of_segment?_eq_none {p : Piece} (h : p.segment? = none) :
    p.ending = .last ∧ Text.White p.text := by
  unfold segment? at h
  split at h
  · next hlast =>
      refine ⟨hlast.1, ?_⟩
      rw [Text.eq_blanks_append p.text, hlast.2, List.append_nil]
      exact Text.white_takeWhile_isAsciiWhite p.text
  · contradiction

theorem segment?_eq_some {p : Piece} {segment : Segment} (h : p.segment? = some segment) :
    segment = p.segment := by
  unfold segment? at h
  split at h
  · contradiction
  · cases h
    rfl

theorem declaration?_of_white {p : Piece} (h : Text.White p.text) : p.declaration? = none := by
  rw [declaration?, Assignment.read?_of_notMem (Assignment.colon_notMem_of_white h)]
  rfl

theorem filterMap_ofSegment? (pieces : List Piece) :
    (pieces.filterMap segment?).filterMap Declaration.ofSegment? =
      pieces.filterMap declared? := by
  induction pieces with
  | nil => rfl
  | cons p pieces ih =>
      cases hsegment : p.segment? with
      | none =>
          rcases white_of_segment?_eq_none hsegment with ⟨hlast, hwhite⟩
          have hnone : p.declared? = none := by
            rw [declared?, hlast]
            exact declaration?_of_white hwhite
          rw [List.filterMap_cons_none hsegment, List.filterMap_cons_none hnone, ih]
      | some segment =>
          obtain rfl := segment?_eq_some hsegment
          rw [List.filterMap_cons_some hsegment, List.filterMap_cons, List.filterMap_cons, ih,
            ofSegment?_segment]

end Piece

/-- A rule is read from the pieces of its body. -/
theorem Rule.read_eq_ok_iff
    {selector body : List Char} {offset place : Nat} {rule : Rule Nat}
    (hclosed : Quoting.outside.after body = .outside) :
    Rule.read selector (Quoting.outside.glyphs offset body) place = .ok rule ↔
      ∃ inner, Partition offset body inner ∧
        rule = ⟨.ofList selector, inner.filterMap Piece.declared?, place⟩ := by
  unfold Rule.read
  rw [bind_eq_ok_iff]
  constructor
  · intro h
    rcases h with ⟨segments, hcut, hrule⟩
    obtain ⟨inner, hinner⟩ := Segment.exists_partition hclosed hcut
    rw [Segment.cut_of_partition hinner] at hcut
    cases hcut
    cases hrule
    exact ⟨inner, hinner, by rw [Piece.filterMap_ofSegment?]⟩
  · intro h
    rcases h with ⟨inner, hinner, rfl⟩
    refine ⟨_, Segment.cut_of_partition hinner, ?_⟩
    rw [Piece.filterMap_ofSegment?]
    rfl

namespace Piece

theorem ofSegment?_eq_ok_iff
    {p : Piece} {node : Option (Node Nat)} (hproper : p.Proper) :
    Node.ofSegment? p.segment = .ok node ↔ p.Yields node := by
  have htrim : Text.trim (Glyph.chars p.segment.text) = Text.trim p.text := by
    rw [chars_segment, Text.trim_dropWhile_isAsciiWhite]
  have hplace : p.segment.offset = p.start := rfl
  have hblock : p.segment.block = p.ending.body?.map (Quoting.outside.glyphs p.bodyOffset) := rfl
  unfold Node.ofSegment?
  rw [htrim]
  split
  · next text hat =>
      rw [chars_block_segment, hplace, yields_iff_of_at hat, Except.ok.injEq, eq_comm]
  · next glyphs hsegment hat =>
      cases hending : p.ending with
      | block body =>
          rcases hproper with ⟨depth, -, hfits⟩
          rw [hending] at hfits
          have hclosed : Quoting.outside.after body = .outside :=
            (Cursor.quoting_of_readBlock hfits).symm
          rw [hblock, hending] at hsegment
          cases hsegment
          rw [hplace, map_eq_ok_iff, yields_iff_of_block (Text.head?_ne_of_ne_cons hat) hending]
          simp only [Rule.read_eq_ok_iff hclosed]
          constructor
          · intro h
            rcases h with ⟨rule, ⟨inner, hinner, rfl⟩, rfl⟩
            exact ⟨inner, hinner, rfl⟩
          · intro h
            rcases h with ⟨inner, hinner, rfl⟩
            exact ⟨_, ⟨inner, hinner, rfl⟩, rfl⟩
      | _ => simp [hblock, hending, Ending.body?] at hsegment
  · next hsegment hat =>
      have hbody : p.ending.body? = none := by
        rw [hblock] at hsegment
        simpa using hsegment
      rw [ofGlyphs?_segment, yields_iff_of_body?_eq_none (Text.head?_ne_of_ne_cons hat) hbody,
        Except.ok.injEq, eq_comm]

theorem yields_iff_of_segment?_eq_none
    {p : Piece} {node : Option (Node Nat)} (h : p.segment? = none) :
    p.Yields node ↔ node = none := by
  rcases white_of_segment?_eq_none h with ⟨hlast, hwhite⟩
  have htrim : Text.trim p.text = [] := Text.trim_eq_nil_iff.mpr hwhite
  rw [yields_iff_of_body?_eq_none (by simp [htrim]) (by simp [hlast, Ending.body?]),
    declaration?_of_white hwhite, Option.map_none]

theorem exists_mapM_ofSegment?_iff
    {pieces : List Piece} {nodes : List (Node Nat)} (hproper : ∀ p ∈ pieces, p.Proper) :
    (∃ read, (pieces.filterMap segment?).mapM Node.ofSegment? = .ok read ∧
        read.filterMap id = nodes) ↔
      ∃ yields, List.Forall₂ Yields pieces yields ∧ yields.filterMap id = nodes := by
  induction pieces generalizing nodes with
  | nil => simp [pure, Except.pure]
  | cons p pieces ih =>
      have hp := hproper p List.mem_cons_self
      -- A blank last piece has no segment, so the two lists may differ in length.
      have hpieces := fun p' hp' => hproper p' (List.mem_cons_of_mem p hp')
      cases hsegment : p.segment? with
      | none =>
          rw [List.filterMap_cons_none hsegment, ih hpieces]
          simp [List.forall₂_cons_left_iff, yields_iff_of_segment?_eq_none hsegment]
      | some segment =>
          obtain rfl := segment?_eq_some hsegment
          rw [List.filterMap_cons_some hsegment]
          simp only [mapM_eq_ok_iff] at ih ⊢
          constructor
          · intro h
            rcases h with ⟨read, hread, rfl⟩
            cases hread with
            | cons hnode hrest =>
                rcases (ih hpieces).mp ⟨_, hrest, rfl⟩ with ⟨yields, hyields, heq⟩
                refine ⟨_, .cons ((ofSegment?_eq_ok_iff hp).mp hnode) hyields, ?_⟩
                rw [List.filterMap_cons, List.filterMap_cons, heq]
          · intro h
            rcases h with ⟨yields, hyields, rfl⟩
            cases hyields with
            | cons hnode hrest =>
                rcases (ih hpieces).mpr ⟨_, hrest, rfl⟩ with ⟨read, hread, heq⟩
                refine ⟨_, .cons ((ofSegment?_eq_ok_iff hp).mpr hnode) hread, ?_⟩
                rw [List.filterMap_cons, List.filterMap_cons, heq]

end Piece

theorem Partition.proper
    {offset : Nat} {text : List Char} {pieces : List Piece} (h : Partition offset text pieces) :
    ∀ p ∈ pieces, p.Proper := by
  induction h with
  | last hproper => simpa using hproper
  | semicolon hproper _ ih => exact List.forall_mem_cons.mpr ⟨hproper, ih⟩
  | block hproper _ ih => exact List.forall_mem_cons.mpr ⟨hproper, ih⟩

theorem Glyph.closed_of_balance
    {depth braceAt : Nat} {glyphs : List Glyph} (h : balance depth braceAt glyphs = .ok ()) :
    ∀ g ∈ glyphs, g.sign ≠ .unclosedQuote := by
  induction glyphs generalizing depth braceAt with
  | nil => simp
  | cons g glyphs ih =>
      have hsign : g.sign ≠ .unclosedQuote := by
        intro hquote
        simp [balance, hquote] at h
      have hrest : ∃ depth braceAt, balance depth braceAt glyphs = .ok () := by
        cases hg : g.sign with
        | unclosedQuote => exact absurd hg hsign
        | closeBrace =>
            simp only [balance, hg] at h
            split at h
            · contradiction
            · exact ⟨_, _, h⟩
        | _ =>
            simp only [balance, hg] at h
            exact ⟨_, _, h⟩
      rcases hrest with ⟨depth', braceAt', hbalance⟩
      exact List.forall_mem_cons.mpr ⟨hsign, ih hbalance⟩

theorem Segment.after_eq_outside_of_cut
    {text : List Char} {segments : List Segment}
    (h : cut (Glyph.ofChars text) = .ok segments) :
    Quoting.outside.after text = .outside := by
  have hblank : Glyph.BlanksOrdinary (Glyph.ofChars text) :=
    Glyph.blanksOrdinary_ofCharsFrom none 0 text
  have hbalance : Glyph.balance 0 0 (Glyph.ofChars text) = .ok () := by
    rw [← cut_verdict hblank, h]
    rfl
  exact Quoting.after_eq_outside .outside (by simp) (Glyph.closed_of_balance hbalance)

/-- A document is read from the pieces of its text. -/
theorem Document.ofBlanked_eq_ok_iff {text : List Char} {doc : Document Nat} :
    ofBlanked text = .ok doc ↔
      ∃ pieces yields, Partition 0 text pieces ∧ List.Forall₂ Piece.Yields pieces yields ∧
        doc = ⟨yields.filterMap id⟩ := by
  unfold ofBlanked
  rw [bind_eq_ok_iff]
  constructor
  · intro h
    rcases h with ⟨segments, hcut, hread⟩
    obtain ⟨read, hnodes, hdoc⟩ := bind_eq_ok_iff.mp hread
    have hclosed := Segment.after_eq_outside_of_cut hcut
    have hglyphs : Glyph.ofChars text = Quoting.outside.glyphs 0 text :=
      Quoting.ofCharsFrom_eq_glyphs .outside hclosed
    rw [hglyphs] at hcut
    obtain ⟨pieces, hpieces⟩ := Segment.exists_partition hclosed hcut
    rw [Segment.cut_of_partition hpieces] at hcut
    cases hcut
    cases hdoc
    obtain ⟨yields, hyields, heq⟩ :=
      (Piece.exists_mapM_ofSegment?_iff hpieces.proper).mp ⟨read, hnodes, rfl⟩
    exact ⟨pieces, yields, hpieces, hyields, by rw [heq]⟩
  · intro h
    rcases h with ⟨pieces, yields, hpieces, hyields, rfl⟩
    have hglyphs : Glyph.ofChars text = Quoting.outside.glyphs 0 text :=
      Quoting.ofCharsFrom_eq_glyphs .outside hpieces.after_eq_outside
    obtain ⟨read, hnodes, heq⟩ :=
      (Piece.exists_mapM_ofSegment?_iff hpieces.proper).mpr ⟨yields, hyields, rfl⟩
    refine ⟨_, ?_, bind_eq_ok_iff.mpr ⟨read, hnodes, ?_⟩⟩
    · rw [hglyphs, Segment.cut_of_partition hpieces]
    · rw [heq]
      rfl

theorem parse_eq_ok_iff {css : String} {doc : Document Position} :
    parse css = .ok doc ↔
      ∃ read, Document.read css.toList = .ok read ∧ read.locate css.toList = doc := by
  unfold parse
  cases Document.read css.toList <;> simp

/-- A stylesheet that is read is taken apart by a single pass, without loss,
and its document has the nodes that the pieces yield, in their order. -/
theorem parse_partition
    {css : String} {doc : Document Position} (h : parse css = .ok doc) :
    ∃ text pieces yields,
      Comment.blank css.toList = .ok text ∧
      Piece.Cover 0 text pieces ∧
      List.Forall₂ Piece.Yields pieces yields ∧
      doc = (Document.mk (yields.filterMap id)).locate css.toList := by
  rcases parse_eq_ok_iff.mp h with ⟨read, hread, rfl⟩
  obtain ⟨text, hblank, hdoc⟩ := bind_eq_ok_iff.mp hread
  rcases Document.ofBlanked_eq_ok_iff.mp hdoc with ⟨pieces, yields, hpieces, hyields, rfl⟩
  exact ⟨text, pieces, yields, hblank, Piece.cover_iff.mpr hpieces, hyields, rfl⟩

/-- The case of a stylesheet with an at-rule, a nested block, a brace in a
string, a comment and a semicolon in parentheses. -/
theorem parse_partition_nested :
    ∃ doc, parse "@m;p\x7bc:a;b\x7bd:e\x7df:'\x7d'\x7d/**/x:(;)" = .ok doc ∧ doc.size = 3 ∧
      ∃ text pieces yields,
        Comment.blank "@m;p\x7bc:a;b\x7bd:e\x7df:'\x7d'\x7d/**/x:(;)".toList = .ok text ∧
        Piece.Cover 0 text pieces ∧
        List.Forall₂ Piece.Yields pieces yields ∧
        doc = (Document.mk (yields.filterMap id)).locate
          "@m;p\x7bc:a;b\x7bd:e\x7df:'\x7d'\x7d/**/x:(;)".toList := by
  have hparse : parse "@m;p\x7bc:a;b\x7bd:e\x7df:'\x7d'\x7d/**/x:(;)" =
      .ok ⟨[.atRule ⟨"m", "", none, ⟨0, 1, 1⟩⟩,
        .rule ⟨"p", [⟨⟨"c", "a", false⟩, ⟨5, 1, 6⟩⟩, ⟨⟨"f", "'\x7d'", false⟩, ⟨15, 1, 16⟩⟩],
          ⟨3, 1, 4⟩⟩,
        .declaration ⟨⟨"x", "(;)", false⟩, ⟨25, 1, 26⟩⟩]⟩ := by
    decide +kernel
  exact ⟨_, hparse, rfl, parse_partition hparse⟩

end ContrastLint

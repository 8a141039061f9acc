import ContrastLint.Proofs.AtRules
import ContrastLint.Proofs.Joining
import ContrastLint.Proofs.Yields

/-!
# What is written is read

A document is written node by node, and every node is written as one piece and
a line feed.  If the texts of a node can stand in a piece of their own, the
piece yields the node again.  This file states what that takes, and concludes
that a whole document of such nodes is read from what it is written as.
-/

namespace ContrastLint

variable {Place : Type}

/-- An assignment whose text can stand in a piece that ends at a semicolon. -/
structure Assignment.Writable (a : Assignment) : Prop where
  legible : a.Legible
  reading : Reading .start a.render.toList .start

/-- A rule whose selector can stand before a block. -/
structure Rule.Headed (r : Rule Place) : Prop where
  selector : Text.Trimmed r.selector.toList
  noAt : r.selector.toList.head? ≠ some '@'
  reading : ∃ depth, Reading .start r.selector.toList ⟨.outside, depth⟩

structure Rule.Writable (r : Rule Place) : Prop extends r.Headed where
  declarations : ∀ d ∈ r.declarations, d.toAssignment.Writable

structure AtRule.Writable (a : AtRule Place) : Prop where
  legible : a.Legible
  reading : ∃ depth, Reading .start a.head ⟨.outside, depth⟩ ∧ (a.block = none → depth = 0)
  block : ∀ block, a.block = some block →
    Cursor.start.readBlock block.toList = some .start ∧
      Comment.Free .outside block.toList

/-- A node whose texts can stand in a piece of their own. -/
inductive Node.Writable : Node Place → Prop
  | rule {r : Rule Place} (h : r.Writable) : Writable (.rule r)
  | declaration {d : Declaration Place} (h : d.toAssignment.Writable)
      (noAt : d.property.toList.head? ≠ some '@') : Writable (.declaration d)
  | atRule {a : AtRule Place} (h : a.Writable) : Writable (.atRule a)

/-- A node, or a declaration, without its place. -/
def Declaration.forget (d : Declaration Place) : Declaration Unit :=
  d.map fun _ => ()

def Node.forget (node : Node Place) : Node Unit :=
  node.map fun _ => ()

def Document.forget (doc : Document Place) : Document Unit :=
  doc.map fun _ => ()

/-! ## The body of a rule -/

/-- The text between the braces of a rule, after its first line feed. -/
def Rule.lines (declarations : List (Declaration Place)) : List Char :=
  declarations.flatMap fun d =>
    ' ' :: ' ' :: ' ' :: ' ' :: (d.toAssignment.render.toList ++ [';', '\n'])

theorem Rule.toList_render (r : Rule Place) :
    r.render.toList =
      r.selector.toList ++ ' ' :: '{' :: (('\n' :: lines r.declarations) ++ ['}', '\n']) := by
  simp [render, lines, List.flatMap_map]

namespace Piece

variable {offset : Nat} {lead text : List Char}

theorem Proper.of_reading
    {ending : Ending} {depth : Nat} (hlead : Text.White lead)
    (h : Reading .start text ⟨.outside, depth⟩) (hfits : ending.Fits depth) :
    Proper ⟨offset, lead ++ text, ending⟩ :=
  ⟨depth, ((Reading.white_append_iff hlead).mpr h).read, hfits⟩

theorem Plain.of_reading
    {ending : Ending} {k : Cursor} (hlead : Text.White lead) (h : Reading .start text k)
    (hbody : ∀ body, ending = .block body → Comment.Free .outside body) :
    Plain ⟨offset, lead ++ text, ending⟩ :=
  ⟨((Reading.white_append_iff hlead).mpr h).free, hbody⟩

theorem declaration?_white_append
    {a : Assignment} (h : Assignment.read? text = some a) (offset : Nat) (ending : Ending)
    (hlead : Text.White lead) :
    ∃ place, declaration? ⟨offset, lead ++ text, ending⟩ = some ⟨a, place⟩ := by
  rw [declaration?, Assignment.read?_white_append hlead, h]
  exact ⟨_, rfl⟩

end Piece

theorem Partition.white {offset : Nat} {lead : List Char} (hlead : Text.White lead) :
    Partition offset lead [⟨offset, lead, .last⟩] :=
  .last ⟨0, Cursor.readText_white hlead, trivial⟩

theorem Piece.plain_white {offset : Nat} {lead : List Char} (hlead : Text.White lead) :
    Plain ⟨offset, lead, .last⟩ :=
  ⟨Comment.free_of_notMem hlead.slash_notMem, by simp⟩

theorem Piece.yields_white (offset : Nat) {lead : List Char} (hlead : Text.White lead) :
    Yields ⟨offset, lead, .last⟩ none := by
  have hblank : Text.trim lead = [] := Text.trim_eq_nil_iff.mpr hlead
  rw [yields_iff_of_body?_eq_none (by simp [hblank]) rfl, declaration?_of_white hlead,
    Option.map_none]

/-- The declarations that a text without comments holds as the body of a rule. -/
def Rule.BodyReads (offset : Nat) (body : List Char) (found : List (Declaration Nat)) : Prop :=
  ∃ inner, Partition offset body inner ∧ (∀ p ∈ inner, p.Plain) ∧
    inner.filterMap Piece.declared? = found

namespace Rule

variable {declarations : List (Declaration Place)} {found : List (Declaration Nat)}
  {offset : Nat} {lead : List Char}

theorem bodyReads_white (offset : Nat) (hlead : Text.White lead) : BodyReads offset lead [] := by
  have hnone : Piece.declared? ⟨offset, lead, .last⟩ = none := Piece.declaration?_of_white hlead
  exact ⟨_, Partition.white hlead, by simpa using Piece.plain_white hlead, by simp [hnone]⟩

theorem white_indent (hlead : Text.White lead) : Text.White (lead ++ [' ', ' ', ' ', ' ']) :=
  hlead.append (by simp [Text.White, Text.isWhite])

/-- The line of a declaration is ended by its semicolon. -/
theorem BodyReads.cons
    {d : Declaration Place} (hd : d.toAssignment.Writable) (hlead : Text.White lead)
    (hrest : BodyReads (offset +
      Text.byteLength (lead ++ [' ', ' ', ' ', ' '] ++ d.toAssignment.render.toList) + 1)
      ('\n' :: lines declarations) found) :
    ∃ place, BodyReads offset (lead ++ lines (d :: declarations))
      (⟨d.toAssignment, place⟩ :: found) := by
  obtain ⟨inner, hinner, hplain, rfl⟩ := hrest
  have hindent := white_indent hlead
  have hproper : Piece.Proper
      ⟨offset, lead ++ [' ', ' ', ' ', ' '] ++ d.toAssignment.render.toList, .semicolon⟩ :=
    .of_reading hindent hd.reading rfl
  obtain ⟨place, hdeclared⟩ :=
    Piece.declaration?_white_append hd.legible.read?_render offset .semicolon hindent
  have htext : lead ++ lines (d :: declarations) =
      (lead ++ [' ', ' ', ' ', ' '] ++ d.toAssignment.render.toList) ++
        ';' :: ('\n' :: lines declarations) := by
    simp [lines]
  rw [htext]
  refine ⟨place, _, .semicolon hproper hinner, List.forall_mem_cons.mpr ⟨?_, hplain⟩, ?_⟩
  · exact .of_reading hindent hd.reading (by simp)
  · exact List.filterMap_cons_some ((Piece.declared?_of_body?_eq_none rfl).trans hdeclared)

theorem exists_bodyReads_lines
    (h : ∀ d ∈ declarations, d.toAssignment.Writable) (offset : Nat) (hlead : Text.White lead) :
    ∃ found, BodyReads offset (lead ++ lines declarations) found ∧
      found.map Declaration.forget = declarations.map Declaration.forget := by
  induction declarations generalizing offset lead with
  | nil => exact ⟨[], by simpa [lines] using bodyReads_white offset hlead, rfl⟩
  | cons d declarations ih =>
      rcases List.forall_mem_cons.mp h with ⟨hd, hmore⟩
      obtain ⟨found, hfound, hforget⟩ := ih hmore _ Text.white_lineFeed
      obtain ⟨place, hbody⟩ := BodyReads.cons hd hlead hfound
      refine ⟨_, hbody, ?_⟩
      rw [List.map_cons, List.map_cons, hforget]
      rfl

end Rule

/-! ## Nodes -/

namespace Node

/-- The piece that a node is written as, with white space before it. -/
def piece (offset : Nat) (lead : List Char) : Node Place → Piece
  | .rule r =>
      ⟨offset, lead ++ (r.selector.toList ++ [' ']), .block ('\n' :: Rule.lines r.declarations)⟩
  | .declaration d => ⟨offset, lead ++ d.toAssignment.render.toList, .semicolon⟩
  | .atRule a =>
      match a.block with
      | some block => ⟨offset, lead ++ (a.head ++ [' ']), .block block.toList⟩
      | none => ⟨offset, lead ++ a.head, .semicolon⟩

theorem source_piece (node : Node Place) (offset : Nat) (lead : List Char) :
    lead ++ node.render.toList = (node.piece offset lead).source ++ ['\n'] := by
  cases node with
  | rule r => simp [render, Rule.toList_render, piece, Piece.source, Ending.source]
  | declaration d => simp [render, piece, Piece.source, Ending.source]
  | atRule a =>
      rcases a with ⟨name, params, block, place⟩
      cases block <;>
        simp [render, AtRule.toList_render, piece, Piece.source, Ending.source]

theorem offset_piece (node : Node Place) (offset : Nat) (lead : List Char) :
    (node.piece offset lead).offset = offset := by
  cases node with
  | rule r => rfl
  | declaration d => rfl
  | atRule a =>
      rcases a with ⟨name, params, block, place⟩
      cases block <;> rfl

/-- A piece that a node was written as is read, and the node that it yields is as
it should be. -/
structure Found (p : Piece) (good : Node Nat → Prop) : Prop where
  proper : p.Proper
  plain : p.Plain
  more : p.ending ≠ .last
  yields : ∃ found, p.Yields (some found) ∧ good found

theorem Found.imp
    {p : Piece} {good better : Node Nat → Prop} (h : Found p good)
    (hgood : ∀ found, good found → better found) : Found p better := by
  obtain ⟨found, hyields, hfound⟩ := h.yields
  exact ⟨h.proper, h.plain, h.more, found, hyields, hgood found hfound⟩

variable {lead : List Char}

theorem found_declaration
    {d : Declaration Place} (h : d.toAssignment.Writable)
    (hat : d.property.toList.head? ≠ some '@') (offset : Nat) (hlead : Text.White lead) :
    Found ((Node.declaration d).piece offset lead)
      (·.forget = (Node.declaration d).forget) := by
  constructor
  case proper => exact .of_reading hlead h.reading rfl
  case plain => exact .of_reading hlead h.reading (by simp)
  case more => simp [piece]
  case yields =>
    obtain ⟨place, hdeclaration⟩ :=
      Piece.declaration?_white_append h.legible.read?_render offset .semicolon hlead
    refine ⟨.declaration ⟨d.toAssignment, place⟩, ?_, rfl⟩
    have hhead : (Text.trim (lead ++ d.toAssignment.render.toList)).head? ≠ some '@' := by
      rw [← Assignment.head?_property (h.legible.read?_white_render hlead)]
      exact hat
    rw [Piece.yields_iff_of_body?_eq_none hhead rfl]
    exact (congrArg (Option.map declaration) hdeclaration).symm

/-- A rule is found with the declarations that the lines of its body hold. -/
theorem found_rule
    {r : Rule Place} (h : r.Headed) (good : List (Declaration Nat) → Prop)
    (hlines : ∀ offset, ∃ found,
      Rule.BodyReads offset ('\n' :: Rule.lines r.declarations) found ∧ good found)
    (offset : Nat) (hlead : Text.White lead) :
    Found ((Node.rule r).piece offset lead) fun found =>
      ∃ rule, found = .rule rule ∧ rule.selector = r.selector ∧ good rule.declarations := by
  rcases h.reading with ⟨depth, hreading⟩
  have hselector : Reading .start (r.selector.toList ++ [' ']) ⟨.outside, depth⟩ :=
    hreading.append (.white Text.white_space) (.inr (by simp))
  obtain ⟨_, ⟨inner, hinner, hplain, rfl⟩, hgood⟩ :=
    hlines ((Node.rule r).piece offset lead).bodyOffset
  constructor
  case proper => exact .of_reading hlead hselector hinner.readBlock
  case plain =>
    apply Piece.Plain.of_reading hlead hselector
    intro body hbody
    cases hbody
    exact hinner.free_iff.mpr hplain
  case more => simp [piece]
  case yields =>
    have htrim : Text.trim (lead ++ (r.selector.toList ++ [' '])) = r.selector.toList := by
      rw [← List.append_assoc]
      exact Text.trim_eq hlead Text.white_space h.selector
    refine ⟨_, (Piece.yields_iff_of_block ?_ rfl).mpr ⟨inner, hinner, rfl⟩, _, rfl, ?_, hgood⟩
    · simpa [piece, htrim] using h.noAt
    · exact (congrArg String.ofList htrim).trans (by simp)

theorem exists_yields_atRule
    {a : AtRule Place} {p : Piece} (h : a.Legible)
    (hhead : Text.trim p.text = a.head) (hblock : p.ending.body? = a.block.map String.toList) :
    ∃ found, p.Yields (some found) ∧ found.forget = (Node.atRule a).forget := by
  refine ⟨_, (Piece.yields_iff_of_at hhead).mpr rfl, ?_⟩
  rw [hblock]
  exact congrArg (fun a => Node.forget (.atRule a)) (h.read_head p.start)

theorem found_atRule
    {a : AtRule Place} (h : a.Writable) (offset : Nat) (hlead : Text.White lead) :
    Found ((Node.atRule a).piece offset lead) (·.forget = (Node.atRule a).forget) := by
  rcases h.reading with ⟨depth, hreading, hclosed⟩
  have htrimmed := h.legible.trimmed_head
  cases hblock : a.block with
  | none =>
      obtain rfl := hclosed hblock
      have hpiece : (Node.atRule a).piece offset lead = ⟨offset, lead ++ a.head, .semicolon⟩ := by
        simp [piece, hblock]
      rw [hpiece]
      constructor
      case proper => exact .of_reading hlead hreading rfl
      case plain => exact .of_reading hlead hreading (by simp)
      case more => simp
      case yields =>
        apply exists_yields_atRule h.legible
        · exact (Text.trim_append_left hlead).trans (Text.trim_of_trimmed htrimmed)
        · rw [hblock]
          rfl
  | some block =>
      rcases h.block block hblock with ⟨hbody, hfree⟩
      have hpiece : (Node.atRule a).piece offset lead =
          ⟨offset, lead ++ (a.head ++ [' ']), .block block.toList⟩ := by
        simp [piece, hblock]
      have hspaced : Reading .start (a.head ++ [' ']) ⟨.outside, depth⟩ :=
        hreading.append (.white Text.white_space) (.inr (by simp))
      rw [hpiece]
      constructor
      case proper => exact .of_reading hlead hspaced hbody
      case plain =>
        apply Piece.Plain.of_reading hlead hspaced
        intro body hending
        cases hending
        exact hfree
      case more => simp
      case yields =>
        apply exists_yields_atRule h.legible
        · rw [← List.append_assoc]
          exact Text.trim_eq hlead Text.white_space htrimmed
        · rw [hblock]
          rfl

theorem Writable.found
    {node : Node Place} (h : node.Writable) (offset : Nat) (hlead : Text.White lead) :
    Found (node.piece offset lead) (·.forget = node.forget) := by
  cases h with
  | @rule r h =>
      have hrule : Found ((Node.rule r).piece offset lead) fun found =>
          ∃ rule, found = .rule rule ∧ rule.selector = r.selector ∧
            rule.declarations.map Declaration.forget =
              r.declarations.map Declaration.forget := by
        apply found_rule h.toHeaded
          (fun ds => ds.map Declaration.forget = r.declarations.map Declaration.forget)
          _ offset hlead
        intro offset
        exact Rule.exists_bodyReads_lines h.declarations offset Text.white_lineFeed
      apply hrule.imp
      rintro _ ⟨rule, rfl, hselector, hforget⟩
      have hsame : rule.declarations.map (·.map fun _ => ()) =
          r.declarations.map (·.map fun _ => ()) := hforget
      simp [forget, map, Rule.map, hselector, hsame]
  | declaration h hat => exact found_declaration h hat offset hlead
  | atRule h => exact found_atRule h offset hlead

end Node

/-! ## Documents -/

/-- The text of a document is the piece of its first node, white space, and
the text of the others. -/
theorem Node.exists_gap
    (node : Node Place) (nodes : List (Node Place)) (offset : Nat) (lead : List Char) :
    ∃ gap, Text.White gap ∧
      lead ++ ("\n".intercalate ((node :: nodes).map render)).toList =
        (node.piece offset lead).source ++
          (gap ++ ("\n".intercalate (nodes.map render)).toList) := by
  have hsource := node.source_piece offset lead
  cases nodes with
  | nil => exact ⟨['\n'], Text.white_lineFeed, by simpa using hsource⟩
  | cons next nodes =>
      refine ⟨['\n', '\n'], Text.white_lineFeed.append Text.white_lineFeed, ?_⟩
      have hjoin : lead ++ ("\n".intercalate ((node :: next :: nodes).map render)).toList =
          (lead ++ node.render.toList) ++
            ('\n' :: ("\n".intercalate ((next :: nodes).map render)).toList) := by
        simp
      rw [hjoin, hsource]
      simp

/-- The pieces of a written text yield what was written. -/
theorem Node.exists_partition_render
    {R : Node Nat → Node Place → Prop} {nodes : List (Node Place)}
    (h : ∀ node ∈ nodes, ∀ offset lead, Text.White lead →
      Found (node.piece offset lead) (R · node))
    (offset : Nat) {lead : List Char} (hlead : Text.White lead) :
    ∃ pieces yields,
      Partition offset (lead ++ ("\n".intercalate (nodes.map render)).toList) pieces ∧
      (∀ p ∈ pieces, p.Plain) ∧
      List.Forall₂ Piece.Yields pieces yields ∧
      List.Forall₂ R (yields.filterMap id) nodes := by
  induction nodes generalizing offset lead with
  | nil =>
      refine ⟨[⟨offset, lead, .last⟩], [none], ?_, ?_, .cons (Piece.yields_white offset hlead) .nil,
        .nil⟩
      · simpa using Partition.white hlead
      · simpa using Piece.plain_white hlead
  | cons node nodes ih =>
      have hfound := h node List.mem_cons_self offset lead hlead
      rcases hfound.yields with ⟨found, hyields, hgood⟩
      obtain ⟨gap, hgap, htext⟩ := node.exists_gap nodes offset lead
      have hoffset : (node.piece offset lead).offset = offset := node.offset_piece offset lead
      -- The white space after a node leads the piece of the next one.
      obtain ⟨pieces, yields, hpieces, hplain, hothers, hrest⟩ :=
        ih (fun n hn => h n (List.mem_cons_of_mem _ hn))
          ((node.piece offset lead).offset + Text.byteLength (node.piece offset lead).source) hgap
      refine ⟨_, _, ?_, List.forall_mem_cons.mpr ⟨hfound.plain, hplain⟩,
        .cons hyields hothers, ?_⟩
      · rw [htext]
        have hjoined := Partition.cons hfound.proper hfound.more hpieces
        rw [hoffset] at hjoined
        exact hjoined
      · rw [List.filterMap_cons_some (f := id) rfl]
        exact .cons hgood hrest

theorem Document.read_of_partition
    {text : List Char} {pieces : List Piece} {yields : List (Option (Node Nat))}
    (hpieces : Partition 0 text pieces) (hplain : ∀ p ∈ pieces, p.Plain)
    (hyields : List.Forall₂ Piece.Yields pieces yields) :
    read text = .ok ⟨yields.filterMap id⟩ := by
  have hblank : Comment.blank text = .ok text :=
    Comment.blankFrom_of_free .sheet (by simp) (hpieces.free_iff.mpr hplain)
      hpieces.after_eq_outside
  unfold read
  rw [hblank, bind_ok, ofBlanked_eq_ok_iff]
  exact ⟨pieces, yields, hpieces, hyields, rfl⟩

theorem Document.read_of_white {text : List Char} (h : Text.White text) :
    read text = .ok ⟨[]⟩ :=
  read_of_partition (Partition.white h) (by simpa using Piece.plain_white h)
    (.cons (Piece.yields_white 0 h) .nil)

/-- A document is read again, node by node, from what it is written as. -/
theorem Document.exists_read_render_of_found
    {R : Node Nat → Node Place → Prop} {doc : Document Place}
    (h : ∀ node ∈ doc.nodes, ∀ offset lead, Text.White lead →
      Node.Found (node.piece offset lead) (R · node)) :
    ∃ doc', read doc.render.toList = .ok doc' ∧ List.Forall₂ R doc'.nodes doc.nodes := by
  obtain ⟨pieces, yields, hpieces, hplain, hyields, hnodes⟩ :=
    Node.exists_partition_render h 0 Text.white_nil
  exact ⟨_, read_of_partition hpieces hplain hyields, hnodes⟩

theorem Document.exists_read_render
    {doc : Document Place} (h : ∀ node ∈ doc.nodes, node.Writable) :
    ∃ doc', read doc.render.toList = .ok doc' ∧ doc'.forget = doc.forget := by
  obtain ⟨doc', hread, hnodes⟩ := exists_read_render_of_found
    (R := fun found node => found.forget = node.forget)
    fun node hnode offset lead hlead => (h node hnode).found offset hlead
  have hforget : List.Forall₂ (· = ·) (doc'.nodes.map Node.forget) (doc.nodes.map Node.forget) := by
    rw [List.forall₂_map_left_iff, List.forall₂_map_right_iff]
    exact hnodes
  rw [List.forall₂_eq_eq_eq] at hforget
  exact ⟨doc', hread, congrArg Document.mk hforget⟩

end ContrastLint

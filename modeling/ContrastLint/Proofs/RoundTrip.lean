import ContrastLint.Proofs.Written

/-!
# Documents read, written and read again

A document that was read from a stylesheet is the same, but for its places,
when it is written and read again.  The one thing that can come between is an
open parenthesis: a declaration that was ended by a brace or by the end of the
text may leave one open, and is then not ended by the semicolon it is written
with.
-/

namespace ContrastLint

/-! ## Open parentheses -/

def Cursor.scan (k : Cursor) (c : Char) : Cursor :=
  ⟨k.quoting.next c, (k.quoting.sign c).parens k.depth⟩

/-- The number of parentheses that a text leaves open.  Those in strings do not
count, nor do closing ones without partner. -/
def openParens (text : List Char) : Nat :=
  (text.foldl Cursor.scan .start).depth

/-- A node leaves no parenthesis open where it has to be ended by a semicolon. -/
def Node.ClosesParens {Place : Type} : Node Place → Prop
  | .declaration d => openParens d.toAssignment.render.toList = 0
  | .rule r => ∀ d ∈ r.declarations, openParens d.toAssignment.render.toList = 0
  | .atRule a => a.block = none → openParens a.render.toList = 0

instance {Place : Type} : (node : Node Place) → Decidable node.ClosesParens
  | .declaration _ => inferInstanceAs (Decidable (_ = _))
  | .rule _ => inferInstanceAs (Decidable (∀ _ ∈ _, _))
  | .atRule _ => inferInstanceAs (Decidable (_ → _))

theorem Cursor.foldl_scan_of_readText
    {k k' : Cursor} {text : List Char} (h : k.readText text = some k') :
    text.foldl scan k = k' := by
  induction text generalizing k with
  | nil =>
      cases h
      rfl
  | cons c text ih =>
      obtain ⟨next, hnext, hrest⟩ := Option.bind_eq_some_iff.mp h
      obtain ⟨-, rfl⟩ := text?_eq_some_iff.mp hnext
      exact ih hrest

theorem openParens_of_reading
    {text : List Char} {depth : Nat} (h : Reading .start text ⟨.outside, depth⟩) :
    openParens text = depth := by
  rw [openParens, Cursor.foldl_scan_of_readText h.read]

/-- Declarations that can follow one another in the body of a rule.  The last one
may leave parentheses open. -/
inductive Rule.Listable {Place : Type} : List (Declaration Place) → Prop
  | nil : Listable []
  | last {d : Declaration Place} {depth : Nat} (legible : d.toAssignment.Legible)
      (reading : Reading .start d.toAssignment.render.toList ⟨.outside, depth⟩) : Listable [d]
  | cons {d : Declaration Place} {declarations : List (Declaration Place)}
      (first : d.toAssignment.Writable) (rest : Listable declarations) :
      Listable (d :: declarations)

/-! ## What is read is writable -/

section Read

variable {p : Piece}

theorem Piece.exists_reading (hproper : p.Proper) (hplain : p.Plain) :
    ∃ depth, Reading .start p.text ⟨.outside, depth⟩ ∧ p.ending.Fits depth := by
  rcases hproper with ⟨depth, hread, hfits⟩
  exact ⟨depth, ⟨hread, hplain.text⟩, hfits⟩

theorem Piece.exists_reading_render
    {d : Declaration Nat} (hproper : p.Proper) (hplain : p.Plain) (h : p.declaration? = some d) :
    ∃ depth, d.toAssignment.Legible ∧
      Reading .start d.toAssignment.render.toList ⟨.outside, depth⟩ ∧ p.ending.Fits depth := by
  rcases Option.map_eq_some_iff.mp h with ⟨a, hread, rfl⟩
  obtain ⟨depth, hreading, hfits⟩ := p.exists_reading hproper hplain
  exact ⟨depth, Assignment.legible_of_read? hread, Assignment.reading_render hread hreading, hfits⟩

theorem Piece.writable_of_declaration?
    {d : Declaration Nat} (hproper : p.Proper) (hplain : p.Plain) (h : p.declaration? = some d)
    (hparens : openParens d.toAssignment.render.toList = 0) : d.toAssignment.Writable := by
  obtain ⟨depth, hlegible, hreading, -⟩ := exists_reading_render hproper hplain h
  rw [openParens_of_reading hreading] at hparens
  subst hparens
  exact ⟨hlegible, hreading⟩

theorem Rule.headed_of_proper
    (hproper : p.Proper) (hplain : p.Plain) (hat : (Text.trim p.text).head? ≠ some '@')
    (declarations : List (Declaration Nat)) (place : Nat) :
    Rule.Headed ⟨.ofList (Text.trim p.text), declarations, place⟩ := by
  constructor
  case selector =>
    rw [String.toList_ofList]
    exact Text.trimmed_trim p.text
  case noAt => simpa using hat
  case reading =>
    obtain ⟨depth, hreading, -⟩ := p.exists_reading hproper hplain
    obtain ⟨front, back, hfront, hback, htext⟩ := Text.exists_trim p.text
    rw [htext, List.append_assoc, Cursor.start, Reading.white_append_iff hfront] at hreading
    rw [String.toList_ofList]
    exact ⟨depth, hreading.of_append_white hback⟩

/-- The pieces of a body hold declarations that are ended by semicolons, but for the
last one. -/
theorem Rule.listable_of_partition
    {offset : Nat} {body : List Char} {inner : List Piece} (h : Partition offset body inner)
    (hplain : ∀ p ∈ inner, p.Plain) : Listable (inner.filterMap Piece.declared?) := by
  induction h with
  | @last offset text hproper =>
      rw [List.forall_mem_singleton] at hplain
      cases hd : Piece.declared? ⟨offset, text, .last⟩ with
      | none =>
          rw [List.filterMap_cons_none hd]
          exact .nil
      | some d =>
          obtain ⟨depth, hlegible, hreading, -⟩ := Piece.exists_reading_render hproper hplain
            (Piece.declaration?_of_declared? hd)
          rw [List.filterMap_cons_some hd]
          exact .last hlegible hreading
  | @semicolon offset text rest pieces hproper _ ih =>
      rcases List.forall_mem_cons.mp hplain with ⟨hfirst, hmore⟩
      cases hd : Piece.declared? ⟨offset, text, .semicolon⟩ with
      | none =>
          rw [List.filterMap_cons_none hd]
          exact ih hmore
      | some d =>
          obtain ⟨depth, hlegible, hreading, hclosed⟩ := Piece.exists_reading_render hproper hfirst
            (Piece.declaration?_of_declared? hd)
          obtain rfl : depth = 0 := hclosed
          rw [List.filterMap_cons_some hd]
          exact .cons ⟨hlegible, hreading⟩ (ih hmore)
  | block _ _ ih =>
      rw [List.filterMap_cons_none (Piece.declared?_of_block rfl)]
      exact ih (List.forall_mem_cons.mp hplain).2

theorem Rule.Listable.writable
    {Place : Type} {declarations : List (Declaration Place)} (h : Listable declarations)
    (hparens : ∀ d ∈ declarations, openParens d.toAssignment.render.toList = 0) :
    ∀ d ∈ declarations, d.toAssignment.Writable := by
  induction h with
  | nil => simp
  | last hlegible hreading =>
      rw [List.forall_mem_singleton, openParens_of_reading hreading] at hparens
      subst hparens
      exact List.forall_mem_singleton.mpr ⟨hlegible, hreading⟩
  | cons hd _ ih =>
      exact List.forall_mem_cons.mpr ⟨hd, ih (List.forall_mem_cons.mp hparens).2⟩

theorem Rule.headed_and_listable_of_yields
    {r : Rule Nat} (hproper : p.Proper) (hplain : p.Plain) (hyields : p.Yields (some (.rule r))) :
    r.Headed ∧ Listable r.declarations := by
  obtain ⟨hat, body, inner, hbody, hinner, rfl⟩ := Piece.exists_inner_of_yields_rule hyields
  have hpieces := hinner.free_iff.mp (hplain.body body hbody)
  exact ⟨headed_of_proper hproper hplain hat _ _, listable_of_partition hinner hpieces⟩

theorem AtRule.writable_of_at
    {text : List Char} (hproper : p.Proper) (hplain : p.Plain)
    (hat : Text.trim p.text = '@' :: text)
    (hparens : (Node.atRule (read text p.ending.body? p.start)).ClosesParens) :
    (read text p.ending.body? p.start).Writable := by
  obtain ⟨depth, hreading, hfits⟩ := p.exists_reading hproper hplain
  have hhead : Reading .start (read text p.ending.body? p.start).head ⟨.outside, depth⟩ :=
    reading_head hat hreading
  constructor
  case legible => exact legible_read _ _ _
  case reading =>
    refine ⟨depth, hhead, ?_⟩
    intro hblock
    have hclosed := hparens hblock
    have hcount : openParens ((read text p.ending.body? p.start).head ++ [';', '\n']) = depth := by
      rw [openParens, List.foldl_append, Cursor.foldl_scan_of_readText hhead.read]
      rfl
    rw [toList_render, hblock] at hclosed
    exact hcount.symm.trans hclosed
  case block =>
    intro block hblock
    cases hending : p.ending with
    | block body =>
        have hbody : block.toList = body := by
          rw [hending] at hblock
          cases hblock
          exact String.toList_ofList
        rw [hending] at hfits
        rw [hbody]
        exact ⟨hfits, hplain.body body hending⟩
    | _ => simp [read, hending, Ending.body?] at hblock

/-- The nodes that are read are writable if they close their parentheses. -/
theorem Node.writable_of_yields
    {node : Node Nat} (hproper : p.Proper) (hplain : p.Plain)
    (hyields : p.Yields (some node)) (hparens : node.ClosesParens) : node.Writable := by
  cases node with
  | rule r =>
      rcases Rule.headed_and_listable_of_yields hproper hplain hyields with ⟨hheaded, hlistable⟩
      exact .rule ⟨hheaded, hlistable.writable hparens⟩
  | declaration d =>
      cases hyields with
      | declaration hat _ hholds =>
          have hdeclaration := Piece.holds_iff.mp hholds
          refine .declaration (Piece.writable_of_declaration? hproper hplain hdeclaration hparens) ?_
          rcases Option.map_eq_some_iff.mp hdeclaration with ⟨a, hread, rfl⟩
          have hhead := Assignment.head?_property hread
          exact fun h => hat (hhead.symm.trans h)
  | atRule a =>
      cases hyields with
      | atRule hat => exact .atRule (AtRule.writable_of_at hproper hplain hat hparens)

end Read

/-! ## Places -/

section Places

variable {α β σ : Type} {f : α → StateM σ β}

theorem map_mapM_run
    {γ : Type} {g : β → γ} {h : α → γ} (hkeep : ∀ a s, g ((f a).run s).1 = h a)
    (as : List α) (s : σ) :
    ((as.mapM f).run s).1.map g = as.map h := by
  induction as generalizing s with
  | nil => rfl
  | cons a as ih =>
      have hhead := hkeep a s
      have htail := ih ((f a).run s).2
      rw [List.mapM_cons, List.map_cons, ← hhead, ← htail]
      rfl

theorem Declaration.forget_mapM (d : Declaration α) (s : σ) :
    ((d.mapM f).run s).1.forget = d.forget := rfl

theorem Node.forget_mapM (node : Node α) (s : σ) :
    ((node.mapM f).run s).1.forget = node.forget := by
  cases node with
  | rule r =>
      have hdeclarations := map_mapM_run (Declaration.forget_mapM (f := f)) r.declarations
        ((f r.place).run s).2
      exact congrArg (fun declarations => Node.rule ⟨r.selector, declarations, ()⟩) hdeclarations
  | declaration d => rfl
  | atRule a => rfl

theorem Document.forget_locate (doc : Document Nat) (text : List Char) :
    (doc.locate text).forget = doc.forget :=
  congrArg Document.mk (map_mapM_run Node.forget_mapM doc.nodes _)

/-- The text of a document does not depend on its places. -/
theorem Node.render_map (f : α → β) (node : Node α) : (node.map f).render = node.render := by
  cases node with
  | rule r => simp [map, render, Rule.map, Rule.render, Declaration.map, List.map_map,
      Function.comp_def]
  | declaration d => rfl
  | atRule a => rfl

theorem Document.render_map (f : α → β) (doc : Document α) : (doc.map f).render = doc.render := by
  simp [render, map, Node.render_map, Function.comp_def]

theorem Document.render_forget (doc : Document α) : doc.forget.render = doc.render :=
  doc.render_map _

end Places

theorem Node.closesParens_forget {Place : Type} {node : Node Place} :
    node.forget.ClosesParens ↔ node.ClosesParens := by
  cases node with
  | rule r => simp [forget, map, ClosesParens, Rule.map, Declaration.map]
  | declaration d => rfl
  | atRule a => rfl

theorem Document.closesParens_of_forget
    {α β : Type} {doc : Document α} {other : Document β} (h : doc.forget = other.forget)
    (hparens : ∀ node ∈ doc.nodes, node.ClosesParens) :
    ∀ node ∈ other.nodes, node.ClosesParens := by
  intro node hnode
  have hnodes : doc.nodes.map Node.forget = other.nodes.map Node.forget :=
    congrArg Document.nodes h
  have hmem : node.forget ∈ doc.nodes.map Node.forget := by
    rw [hnodes]
    exact List.mem_map_of_mem hnode
  rcases List.mem_map.mp hmem with ⟨same, hsame, hforget⟩
  rw [← Node.closesParens_forget, ← hforget, Node.closesParens_forget]
  exact hparens same hsame

theorem Document.exists_piece_of_read
    {text : List Char} {doc : Document Nat} (h : read text = .ok doc) :
    ∀ node ∈ doc.nodes, ∃ p : Piece, p.Proper ∧ p.Plain ∧ p.Yields (some node) := by
  obtain ⟨blanked, hblank, hread⟩ := bind_eq_ok_iff.mp h
  rcases ofBlanked_eq_ok_iff.mp hread with ⟨pieces, yields, hpieces, hyields, rfl⟩
  have hplain := hpieces.free_iff.mp (Comment.free_of_blankFrom .sheet hblank)
  intro node hnode
  have hmem : some node ∈ yields := by
    simpa using hnode
  obtain ⟨p, hp, hyield⟩ := exists_mem_of_forall₂ hyields _ hmem
  exact ⟨p, hpieces.proper p hp, hplain p hp, hyield⟩

theorem Document.writable_of_read
    {text : List Char} {doc : Document Nat} (h : read text = .ok doc)
    (hparens : ∀ node ∈ doc.nodes, node.ClosesParens) :
    ∀ node ∈ doc.nodes, node.Writable := by
  intro node hnode
  obtain ⟨p, hproper, hplain, hyields⟩ := exists_piece_of_read h node hnode
  exact Node.writable_of_yields hproper hplain hyields (hparens node hnode)

/-- A document that closes its parentheses is the same, but for places, when
it is written and read again. -/
theorem parse_render
    {css : String} {doc : Document Position} (h : parse css = .ok doc)
    (hparens : ∀ node ∈ doc.nodes, node.ClosesParens) :
    ∃ doc', parse doc.render = .ok doc' ∧ doc'.forget = doc.forget := by
  rcases parse_eq_ok_iff.mp h with ⟨first, hfirst, rfl⟩
  have hforget := first.forget_locate css.toList
  have hclosed := Document.closesParens_of_forget hforget hparens
  -- Documents are compared as read, before their offsets are located.
  obtain ⟨second, hsecond, hagain⟩ :=
    Document.exists_read_render (Document.writable_of_read hfirst hclosed)
  have hrender : (first.locate css.toList).render = first.render := by
    rw [← Document.render_forget, hforget, Document.render_forget]
  refine ⟨second.locate first.render.toList, ?_, ?_⟩
  · rw [hrender, parse, hsecond]
  · rw [Document.forget_locate, hagain, hforget]

/-- The case of a stylesheet whose first colon stands in a string, after a
backslash, with an at-rule, a mark, a comment and a nested block. -/
theorem parse_render_escaped :
    ∃ doc, parse "@m(x)y;p \x7bc : a! IMPORTANT;b\x7bd:e\x7d\x7d'\\ :' :(;/**/)" = .ok doc ∧
      (∀ node ∈ doc.nodes, node.ClosesParens) ∧
      ∃ doc', parse doc.render = .ok doc' ∧ doc'.forget = doc.forget := by
  have hparse : parse "@m(x)y;p \x7bc : a! IMPORTANT;b\x7bd:e\x7d\x7d'\\ :' :(;/**/)" =
      .ok ⟨[.atRule ⟨"m", "(x)y", none, ⟨0, 1, 1⟩⟩,
        .rule ⟨"p", [⟨⟨"c", "a", true⟩, ⟨10, 1, 11⟩⟩], ⟨7, 1, 8⟩⟩,
        .declaration ⟨⟨"'\\", "' :(;    )", false⟩, ⟨34, 1, 35⟩⟩]⟩ := by
    decide +kernel
  exact ⟨_, hparse, by decide +kernel, parse_render hparse (by decide +kernel)⟩

end ContrastLint

import ContrastLint.Proofs.Concealing
import ContrastLint.Proofs.LintAgreement
import ContrastLint.Proofs.Places

/-!
# Blocks without influence

Two stylesheets that differ only in the blocks of at-rules and in blocks nested
in rules have the same nodes at the same bytes and lines, apart from the block
text that at-rules keep, and the linter cannot tell them apart.  It is enough to
compare a stylesheet with the one in which all these blocks are concealed.
-/

namespace ContrastLint

/-- Whether a byte of a stylesheet is in the block of an at-rule or in a block
nested in the body of a rule. -/
def hiddenByte (css : List Char) (place : Nat) : Bool :=
  match Comment.blank css with
  | .ok text => ((Piece.pass 0 text).getD []).any (·.secludes place)
  | .error _ => false

/-- The stylesheet with every byte of these blocks replaced by a space; line
feeds stay. -/
def concealed (css : String) : String :=
  .ofList (Text.conceal (hiddenByte css.toList) 0 css.toList)

/-- The offset and the line of a position. -/
def Position.spot (p : Position) : Nat × Nat :=
  (p.offset, p.line)

section Outline

variable {Place α β : Type}

/-- The node without the text of its block, if it is an at-rule. -/
def Node.withoutBlock : Node Place → Node Place
  | .atRule a => .atRule { a with block := a.block.map fun _ => "" }
  | node => node

/-- The nodes of a document with their offsets and lines, but without columns and
without the text of the blocks of at-rules. -/
def Document.outline (doc : Document Position) : Document (Nat × Nat) :=
  ⟨doc.nodes.map fun node => (node.map Position.spot).withoutBlock⟩

theorem Node.withoutBlock_map (f : α → β) (node : Node α) :
    (node.map f).withoutBlock = node.withoutBlock.map f := by
  cases node <;> rfl

@[simp] theorem Node.places_withoutBlock (node : Node Place) :
    node.withoutBlock.places = node.places := by
  cases node <;> rfl

end Outline

/-! ## Nodes -/

namespace Piece

variable {hidden : Nat → Bool} {p : Piece} {place : Nat}

theorem secludes_of_at
    (hat : (Text.trim p.text).head? = some '@') : p.secludes place = p.encloses place := by
  unfold secludes
  cases hending : p.ending with
  | block body => simp [hat]
  | _ => simp [encloses, hending]

theorem secludes_of_rule
    {body : List Char} {inner : List Piece} (hat : (Text.trim p.text).head? ≠ some '@')
    (hending : p.ending = .block body) (hinner : Partition p.bodyOffset body inner) :
    p.secludes place = inner.any (·.encloses place) := by
  rw [secludes, hending]
  simp [hat, pass_eq_some_iff.mpr hinner]

theorem encloses_of_secludes
    {node : Option (Node Nat)} (hyields : p.Yields node) (h : p.secludes place = true) :
    p.encloses place = true := by
  by_cases hat : (Text.trim p.text).head? = some '@'
  · rw [secludes_of_at hat] at h
    exact h
  · cases hbody : p.ending.body? with
    | none =>
        unfold secludes at h
        cases hending : p.ending with
        | block body => simp [hending, Ending.body?] at hbody
        | _ => simp [hending] at h
    | some body =>
        have hending := Ending.body?_eq_some_iff.mp hbody
        rcases (yields_iff_of_block hat hending).mp hyields with ⟨inner, hinner, -⟩
        rw [secludes_of_rule hat hending hinner] at h
        obtain ⟨q, hq, hencloses⟩ := List.any_eq_true.mp h
        have hbounds := hinner.bounds_of_spans hq (spans_of_encloses hencloses)
        exact encloses_iff.mpr ⟨body, hending, hbounds⟩

@[simp] theorem text_conceal (hidden : Nat → Bool) (p : Piece) :
    (p.conceal hidden).text = p.text := by
  unfold conceal
  cases p.ending <;> rfl

@[simp] theorem offset_conceal (hidden : Nat → Bool) (p : Piece) :
    (p.conceal hidden).offset = p.offset := by
  unfold conceal
  cases p.ending <;> rfl

@[simp] theorem start_conceal (hidden : Nat → Bool) (p : Piece) :
    (p.conceal hidden).start = p.start := by
  simp [start]

@[simp] theorem bodyOffset_conceal (hidden : Nat → Bool) (p : Piece) :
    (p.conceal hidden).bodyOffset = p.bodyOffset := by
  simp [bodyOffset]

theorem conceal_of_block
    {body : List Char} (h : p.ending = .block body) :
    (p.conceal hidden).ending = .block (Text.conceal hidden p.bodyOffset body) := by
  unfold conceal
  rw [h]

theorem conceal_of_body?_eq_none (h : p.ending.body? = none) : p.conceal hidden = p := by
  unfold conceal
  cases hending : p.ending with
  | block body => simp [hending, Ending.body?] at h
  | _ => rfl

theorem declared?_conceal (hidden : Nat → Bool) (p : Piece) :
    (p.conceal hidden).declared? = p.declared? := by
  cases hbody : p.ending.body? with
  | none => rw [conceal_of_body?_eq_none hbody]
  | some body =>
      have hending := Ending.body?_eq_some_iff.mp hbody
      rw [declared?_of_block hending, declared?_of_block (conceal_of_block hending)]

/-- The hidden bytes of a piece are those that its node does not depend on. -/
def Hides (hidden : Nat → Bool) (p : Piece) : Prop :=
  ∀ place, p.Spans place → hidden place = p.secludes place

theorem Hides.spares
    {node : Option (Node Nat)} (h : p.Hides hidden) (hyields : p.Yields node) :
    p.Spares hidden := by
  intro place hspans hplace
  rw [h place hspans] at hplace
  exact encloses_of_secludes hyields hplace

theorem Hides.concealable_of_at
    {body : List Char} (h : p.Hides hidden) (hat : (Text.trim p.text).head? = some '@')
    (hending : p.ending = .block body) : Concealable hidden p.bodyOffset body := by
  apply Concealable.of_hidden
  intro place hle hlt
  have hencloses : p.encloses place = true := encloses_iff.mpr ⟨body, hending, hle, hlt⟩
  rw [h place (spans_of_encloses hencloses), secludes_of_at hat, hencloses]

/-- In the body of a rule the blocks of the pieces are hidden. -/
theorem Hides.of_mem_inner
    {q : Piece} {body : List Char} {inner : List Piece} (h : p.Hides hidden)
    (hat : (Text.trim p.text).head? ≠ some '@') (hending : p.ending = .block body)
    (hinner : Partition p.bodyOffset body inner) (hq : q ∈ inner) :
    q.Spares hidden ∧
      ∀ block, q.ending = .block block → Concealable hidden q.bodyOffset block := by
  have hhidden : ∀ place, q.Spans place → hidden place = inner.any (·.encloses place) := by
    intro place hspans
    have hbounds := hinner.bounds_of_spans hq hspans
    have hencloses : p.encloses place = true := encloses_iff.mpr ⟨body, hending, hbounds⟩
    rw [h place (spans_of_encloses hencloses), secludes_of_rule hat hending hinner]
  constructor
  · intro place hspans hplace
    rw [hhidden place hspans] at hplace
    obtain ⟨r, hr, hencloses⟩ := List.any_eq_true.mp hplace
    rw [hinner.consecutive.eq_of_spans hq hr hspans (spans_of_encloses hencloses)]
    exact hencloses
  · intro block hblock
    apply Concealable.of_hidden
    intro place hle hlt
    have hencloses : q.encloses place = true := encloses_iff.mpr ⟨block, hblock, hle, hlt⟩
    rw [hhidden place (spans_of_encloses hencloses)]
    exact List.any_eq_true.mpr ⟨q, hq, hencloses⟩

theorem Hides.concealable
    {node : Option (Node Nat)} {body : List Char} (h : p.Hides hidden) (hyields : p.Yields node)
    (hending : p.ending = .block body) : Concealable hidden p.bodyOffset body := by
  by_cases hat : (Text.trim p.text).head? = some '@'
  · exact h.concealable_of_at hat hending
  · rcases (yields_iff_of_block hat hending).mp hyields with ⟨inner, hinner, -⟩
    have hparts := fun q hq => h.of_mem_inner (q := q) hat hending hinner hq
    exact hinner.concealable (fun q hq => (hparts q hq).1) fun q hq => (hparts q hq).2

/-- A concealed piece yields the same node, apart from the text of its block. -/
theorem Hides.exists_yields_conceal
    {node : Option (Node Nat)} (h : p.Hides hidden) (hyields : p.Yields node) :
    ∃ node', (p.conceal hidden).Yields node' ∧
      node'.map Node.withoutBlock = node.map Node.withoutBlock := by
  cases hbody : p.ending.body? with
  | none =>
      rw [conceal_of_body?_eq_none hbody]
      exact ⟨node, hyields, rfl⟩
  | some body =>
      have hending := Ending.body?_eq_some_iff.mp hbody
      have hconcealed : (p.conceal hidden).ending = _ := conceal_of_block hending
      have htext := congrArg Text.trim (text_conceal hidden p)
      by_cases hat : (Text.trim p.text).head? = some '@'
      · obtain ⟨text, hhead⟩ := List.head?_eq_some_iff.mp hat
        cases (yields_iff_of_at hhead).mp hyields
        refine ⟨_, (yields_iff_of_at (htext.trans hhead)).mpr rfl, ?_⟩
        rw [start_conceal, hconcealed, hbody]
        rfl
      · rcases (yields_iff_of_block hat hending).mp hyields with ⟨inner, hinner, rfl⟩
        have hparts := fun q hq => h.of_mem_inner (q := q) hat hending hinner hq
        refine ⟨_, (yields_iff_of_block (by rw [htext]; exact hat) hconcealed).mpr
          ⟨inner.map (conceal hidden), ?_, ?_⟩, rfl⟩
        · rw [bodyOffset_conceal]
          exact hinner.conceal (fun q hq => (hparts q hq).1) fun q hq => (hparts q hq).2
        · simp [List.filterMap_map, declared?_conceal]

theorem exists_yields_map_conceal
    {pieces : List Piece} {yields : List (Option (Node Nat))}
    (hyields : List.Forall₂ Yields pieces yields) (h : ∀ p ∈ pieces, p.Hides hidden) :
    ∃ yields', List.Forall₂ Yields (pieces.map (conceal hidden)) yields' ∧
      yields'.map (Option.map Node.withoutBlock) = yields.map (Option.map Node.withoutBlock) := by
  induction hyields with
  | nil => exact ⟨[], .nil, rfl⟩
  | cons hnode _ ih =>
      rcases List.forall_mem_cons.mp h with ⟨hhides, hmore⟩
      obtain ⟨node', hnode', hsame⟩ := hhides.exists_yields_conceal hnode
      obtain ⟨yields', hyields', hrest⟩ := ih hmore
      exact ⟨node' :: yields', .cons hnode' hyields', by rw [List.map_cons, hsame, hrest]; rfl⟩

end Piece

/-! ## Documents -/

theorem Piece.hides_of_blank
    {css text : List Char} {pieces : List Piece} {yields : List (Option (Node Nat))}
    (hblank : Comment.blank css = .ok text) (hpieces : Partition 0 text pieces)
    (hyields : List.Forall₂ Yields pieces yields) :
    ∀ p ∈ pieces, p.Hides (hiddenByte css) := by
  intro p hp place hspans
  have hhidden : hiddenByte css place = pieces.any (·.secludes place) := by
    rw [hiddenByte, hblank]
    simp [pass_eq_some_iff.mpr hpieces]
  rw [hhidden, Bool.eq_iff_iff, List.any_eq_true]
  constructor
  · rintro ⟨q, hq, hsecludes⟩
    obtain ⟨node, -, hnode⟩ := exists_mem_of_forall₂ (List.Forall₂.flip hyields) q hq
    have hencloses := encloses_of_secludes hnode hsecludes
    rw [hpieces.consecutive.eq_of_spans hp hq hspans (spans_of_encloses hencloses)]
    exact hsecludes
  · exact fun hsecludes => ⟨p, hp, hsecludes⟩

/-- What is hidden of a stylesheet may be concealed. -/
theorem Piece.spares_and_concealable
    {css text : List Char} {pieces : List Piece} {yields : List (Option (Node Nat))}
    (hblank : Comment.blank css = .ok text) (hpieces : Partition 0 text pieces)
    (hyields : List.Forall₂ Yields pieces yields) :
    (∀ p ∈ pieces, p.Spares (hiddenByte css)) ∧
      ∀ p ∈ pieces, ∀ body, p.ending = .block body →
        Concealable (hiddenByte css) p.bodyOffset body := by
  have hhides := hides_of_blank hblank hpieces hyields
  have hnode : ∀ p ∈ pieces, ∃ node, p.Yields node := by
    intro p hp
    obtain ⟨node, -, hnode⟩ := exists_mem_of_forall₂ (List.Forall₂.flip hyields) p hp
    exact ⟨node, hnode⟩
  constructor
  · intro p hp
    obtain ⟨node, hyield⟩ := hnode p hp
    exact (hhides p hp).spares hyield
  · intro p hp body hending
    obtain ⟨node, hyield⟩ := hnode p hp
    exact (hhides p hp).concealable hyield hending

namespace Document

variable {css : List Char} {doc : Document Nat}

theorem exists_read_conceal (h : read css = .ok doc) :
    ∃ doc', read (Text.conceal (hiddenByte css) 0 css) = .ok doc' ∧
      doc'.nodes.map Node.withoutBlock = doc.nodes.map Node.withoutBlock := by
  obtain ⟨text, hblank, hdoc⟩ := bind_eq_ok_iff.mp h
  rcases ofBlanked_eq_ok_iff.mp hdoc with ⟨pieces, yields, hpieces, hyields, rfl⟩
  have hhides := Piece.hides_of_blank hblank hpieces hyields
  rcases Piece.spares_and_concealable hblank hpieces hyields with ⟨hspares, hblocks⟩
  obtain ⟨yields', hyields', hsame⟩ := Piece.exists_yields_map_conceal hyields hhides
  have hconcealed : Comment.blank (Text.conceal (hiddenByte css) 0 css) =
      .ok (Text.conceal (hiddenByte css) 0 text) :=
    hpieces.blankFrom_conceal hblank hspares hblocks
  refine ⟨⟨yields'.filterMap id⟩, ?_, ?_⟩
  · rw [read, hconcealed, bind_ok, ofBlanked_eq_ok_iff]
    exact ⟨_, yields', hpieces.conceal hspares hblocks, hyields', rfl⟩
  · have hnodes : ∀ nodes : List (Option (Node Nat)), (nodes.filterMap id).map Node.withoutBlock =
        (nodes.map (Option.map Node.withoutBlock)).filterMap id := by
      intro nodes
      rw [List.map_filterMap, List.filterMap_map]
      rfl
    rw [hnodes, hnodes, hsame]

theorem white_conceal_iff (h : read css = .ok doc) :
    Text.White (Text.conceal (hiddenByte css) 0 css) ↔ Text.White css := by
  obtain ⟨text, hblank, hdoc⟩ := bind_eq_ok_iff.mp h
  rcases ofBlanked_eq_ok_iff.mp hdoc with ⟨pieces, yields, hpieces, hyields, rfl⟩
  constructor
  · intro hwhite
    have hspares := (Piece.spares_and_concealable hblank hpieces hyields).1
    rw [hpieces.conceal_eq_of_white hblank hspares hwhite] at hwhite
    exact hwhite
  · intro hwhite
    exact hwhite.conceal _ _

end Document

/-- Places behind as many bytes and line feeds differ in their columns at most. -/
theorem Position.spot_locate_eq
    {a b text text' : List Char} (ha : a <+: text) (hb : b <+: text')
    (hlength : Text.byteLength a = Text.byteLength b) (hcount : a.count '\n' = b.count '\n') :
    (locate text (Text.byteLength a)).spot = (locate text' (Text.byteLength a)).spot := by
  rw [locate_eq ha, hlength, locate_eq hb, spot, spot, after, after, hlength, hcount]

/-- Where a place of a text is located, apart from its column, does not depend on
what is hidden. -/
theorem Position.spot_locate_conceal
    {css : List Char} {place : Nat} (h : Text.Boundary css place) (hidden : Nat → Bool) :
    (locate (Text.conceal hidden 0 css) place).spot = (locate css place).spot := by
  rcases h with ⟨before, ⟨rest, rfl⟩, rfl⟩
  have hprefix : Text.conceal hidden 0 before <+: Text.conceal hidden 0 (before ++ rest) := by
    rw [Text.conceal_append]
    exact List.prefix_append _ _
  have hlength := Text.byteLength_conceal hidden 0 before
  have hcount := Text.count_conceal hidden 0 before
  exact (spot_locate_eq (List.prefix_append before rest) hprefix hlength.symm hcount.symm).symm

theorem Document.outline_map {α : Type} (f : α → Position) (doc : Document α) :
    (doc.map f).outline = map (Position.spot ∘ f) ⟨doc.nodes.map Node.withoutBlock⟩ := by
  simp [outline, map, Node.withoutBlock_map, Node.map_map]

theorem Document.outline_locate_conceal
    {css : List Char} {doc doc' : Document Nat} (h : read css = .ok doc)
    (h' : read (Text.conceal (hiddenByte css) 0 css) = .ok doc')
    (hsame : doc'.nodes.map Node.withoutBlock = doc.nodes.map Node.withoutBlock) :
    (doc'.locate (Text.conceal (hiddenByte css) 0 css)).outline = (doc.locate css).outline := by
  rw [locate_eq_map (boundary_of_read h'), locate_eq_map (boundary_of_read h), outline_map,
    outline_map, hsame]
  apply map_congr
  intro place hplace
  have hboundary : Text.Boundary css place := by
    apply boundary_of_read h
    simpa [places, List.flatMap_map] using hplace
  exact Position.spot_locate_conceal hboundary (hiddenByte css)

/-! ## Linting -/

section Lint

variable {α β : Type} {r r' : Rule Position} {doc doc' : Document Position}

theorem resolveSlot_map (f : α → β) (slot : Option (Declaration α)) :
    resolveSlot (slot.map (Declaration.map f)) = resolveSlot slot := by
  cases slot <;> rfl

theorem Document.declaresColor_outline (doc : Document Position) :
    doc.outline.declaresColor = doc.declaresColor := by
  have hnode : ∀ node : Node Position, (node.map Position.spot).withoutBlock.declarations =
      node.declarations.map (Declaration.map Position.spot) := by
    intro node
    cases node <;> rfl
  simp [declaresColor, declarations, outline, List.flatMap_map, hnode, List.any_flatMap,
    List.any_map, Function.comp_def, Declaration.map]

theorem Document.rules_pruned_outline (doc : Document Position) :
    doc.outline.pruned.rules = doc.pruned.rules.map (Rule.map Position.spot) := by
  have hnode : ∀ node : Node Position, (node.map Position.spot).withoutBlock.rule? =
      node.rule?.map (Rule.map Position.spot) := by
    intro node
    cases node <;> rfl
  have hrules : doc.outline.rules = doc.rules.map (Rule.map Position.spot) := by
    simp [rules, outline, List.filterMap_map, List.map_filterMap, hnode]
  rw [rules_pruned, rules_pruned, hrules, List.filterMap_map, List.map_filterMap]
  exact congrArg (List.filterMap · doc.rules) (funext (Rule.pruned?_map Position.spot))

theorem Rule.evaluate_congr
    (h : r.map Position.spot = r'.map Position.spot) (threshold : Float) :
    r.evaluate threshold = r'.evaluate threshold := by
  have hslots : r.slots.map Position.spot = r'.slots.map Position.spot := by
    rw [← slots_map, ← slots_map, h]
  rw [Slots.map, Slots.map, Slots.mk.injEq] at hslots
  have hforeground : resolveSlot r.slots.foreground = resolveSlot r'.slots.foreground := by
    rw [← resolveSlot_map Position.spot, hslots.1, resolveSlot_map]
  have hbackground : resolveSlot r.slots.background = resolveSlot r'.slots.background := by
    rw [← resolveSlot_map Position.spot, hslots.2, resolveSlot_map]
  rw [map, map, Rule.mk.injEq, Position.spot, Position.spot, Prod.mk.injEq] at h
  rcases h with ⟨hselector, -, -, hline⟩
  simp only [evaluate, hforeground, hbackground, hselector, hline]

theorem Document.lint_congr (h : doc.outline = doc'.outline) (config : LintConfig) :
    doc.lint config = doc'.lint config := by
  have hnames : doc.declaresColor = doc'.declaresColor := by
    rw [← declaresColor_outline, h, declaresColor_outline]
  have hrules : doc.pruned.rules.map (Rule.map Position.spot) =
      doc'.pruned.rules.map (Rule.map Position.spot) := by
    rw [← rules_pruned_outline, h, rules_pruned_outline]
  have hresults : doc.pruned.rules.mapM (·.evaluate config.threshold) =
      doc'.pruned.rules.mapM (·.evaluate config.threshold) := by
    generalize doc.pruned.rules = rules at hrules
    generalize doc'.pruned.rules = rules' at hrules
    induction rules generalizing rules' with
    | nil => rw [List.map_eq_nil_iff.mp hrules.symm]
    | cons r rules ih =>
        obtain ⟨r', rest, rfl, hhead, hmore⟩ := List.map_eq_cons_iff.mp hrules.symm
        rw [List.mapM_cons, List.mapM_cons, Rule.evaluate_congr hhead, ih rest hmore.symm]
  simp only [lint, hnames, hresults]

end Lint

/-- Concealing the blocks of at-rules and the blocks nested in rules changes
nothing about a stylesheet but the columns and the text of the blocks that
at-rules keep, and the linter finds the same in it. -/
theorem parse_conceal
    {css : String} {doc : Document Position} (h : parse css = .ok doc) :
    ∃ doc', parse (concealed css) = .ok doc' ∧ doc'.outline = doc.outline ∧
      ∀ config, lint config (concealed css) = lint config css := by
  rcases parse_eq_ok_iff.mp h with ⟨first, hfirst, rfl⟩
  obtain ⟨second, hsecond, hsame⟩ := Document.exists_read_conceal hfirst
  have htext : (concealed css).toList = Text.conceal (hiddenByte css.toList) 0 css.toList :=
    String.toList_ofList
  have hparse : parse (concealed css) = .ok (second.locate (concealed css).toList) :=
    parse_eq_ok_iff.mpr ⟨second, by rw [htext]; exact hsecond, rfl⟩
  have houtline := Document.outline_locate_conceal hfirst hsecond hsame
  rw [← htext] at houtline
  refine ⟨_, hparse, houtline, fun config => ?_⟩
  have hempty : Text.trim (concealed css).toList = [] ↔ Text.trim css.toList = [] := by
    rw [Text.trim_eq_nil_iff, Text.trim_eq_nil_iff, htext]
    exact Document.white_conceal_iff hfirst
  have hlint := Document.lint_congr houtline config
  by_cases hblank : Text.trim css.toList = []
  · have hblank' := hempty.mpr hblank
    simp [lint, hblank, hblank']
  · have hblank' := hempty.not.mpr hblank
    simp [lint, hblank, hblank', h, hparse, hlint]

/-- The case of an at-rule with a comment in its block, and of a nested block with
a string, a line feed and a colour. -/
theorem parse_conceal_nested :
    ∃ css doc, css = "@m\x7bp\x7b/*\x7d*/\x7d\x7dp\x7bq\x7b'\x7dé'\ncolor:red\x7dcolor:#000\x7d" ∧
      parse css = .ok doc ∧
      concealed css = "@m\x7b        \x7dp\x7bq\x7b     \n         \x7dcolor:#000\x7d" ∧
      ∃ doc', parse (concealed css) = .ok doc' ∧ doc'.outline = doc.outline ∧
        ∀ config, lint config (concealed css) = lint config css := by
  have hparse : parse "@m\x7bp\x7b/*\x7d*/\x7d\x7dp\x7bq\x7b'\x7dé'\ncolor:red\x7dcolor:#000\x7d" =
      .ok ⟨[.atRule ⟨"m", "", some "p\x7b     \x7d", ⟨0, 1, 1⟩⟩,
        .rule ⟨"p", [⟨⟨"color", "#000", false⟩, ⟨32, 2, 11⟩⟩], ⟨12, 1, 13⟩⟩]⟩ := by
    decide +kernel
  exact ⟨_, _, rfl, hparse, by decide +kernel, parse_conceal hparse⟩

end ContrastLint

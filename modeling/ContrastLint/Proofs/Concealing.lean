import ContrastLint.Proofs.Gaps
import ContrastLint.Proofs.Joining
import ContrastLint.Proofs.Seams
import ContrastLint.Proofs.SinglePass

/-!
# Concealed blocks

What stands in the block of an at-rule, or in a block nested in the body of a
rule, takes no part in the other nodes.  In this file such blocks are concealed:
every byte in them becomes a space, and line feeds stay.  The text is then read
as before, except for the text of the blocks that at-rules keep.

Concealing a text and blanking its comments commute, since a block that has an
end closes its strings and comments itself.  Afterwards the text has the same
pieces at the same bytes, with blanks in the blocks.
-/

namespace ContrastLint

namespace Text

/-- The text with every character at a hidden byte blanked, as comments are. -/
def conceal (hidden : Nat → Bool) : Nat → List Char → List Char
  | _, [] => []
  | offset, c :: text =>
      (if hidden offset then Comment.blankChar c else [c]) ++
        conceal hidden (offset + c.utf8Size) text

variable {hidden : Nat → Bool} {offset : Nat} {a b text : List Char}

@[simp] theorem byteLength_conceal (hidden : Nat → Bool) (offset : Nat) (text : List Char) :
    byteLength (conceal hidden offset text) = byteLength text := by
  induction text generalizing offset with
  | nil => rfl
  | cons c text ih =>
      rw [conceal, byteLength_append, ih, byteLength_cons]
      split <;> simp

theorem count_conceal (hidden : Nat → Bool) (offset : Nat) (text : List Char) :
    (conceal hidden offset text).count '\n' = text.count '\n' := by
  induction text generalizing offset with
  | nil => rfl
  | cons c text ih =>
      rw [conceal, List.count_append, ih, Comment.count_chunk, ← List.count_append]
      rfl

theorem conceal_append (hidden : Nat → Bool) (offset : Nat) (a b : List Char) :
    conceal hidden offset (a ++ b) =
      conceal hidden offset a ++ conceal hidden (offset + byteLength a) b := by
  induction a generalizing offset with
  | nil => rfl
  | cons c a ih =>
      rw [List.cons_append, conceal, ih, conceal, byteLength_cons, Nat.add_assoc,
        List.append_assoc]

theorem conceal_of_shown
    (h : ∀ place, offset ≤ place → place < offset + byteLength text → hidden place = false) :
    conceal hidden offset text = text := by
  induction text generalizing offset with
  | nil => rfl
  | cons c text ih =>
      have hsize := c.utf8Size_pos
      rw [byteLength_cons] at h
      have hhere : hidden offset = false := h offset (by omega) (by omega)
      rw [conceal, hhere, ih fun place hle hlt => h place (by omega) (by omega)]
      rfl

theorem conceal_of_hidden
    (h : ∀ place, offset ≤ place → place < offset + byteLength text → hidden place = true) :
    conceal hidden offset text = text.flatMap Comment.blankChar := by
  induction text generalizing offset with
  | nil => rfl
  | cons c text ih =>
      have hsize := c.utf8Size_pos
      rw [byteLength_cons] at h
      have hhere : hidden offset = true := h offset (by omega) (by omega)
      rw [conceal, hhere, ih fun place hle hlt => h place (by omega) (by omega)]
      rfl

theorem white_blanks (text : List Char) : White (text.flatMap Comment.blankChar) := by
  intro c hc
  obtain ⟨d, -, hd⟩ := List.mem_flatMap.mp hc
  rcases Comment.mem_blankChar hd with rfl | rfl <;> rfl

theorem White.conceal (h : White text) (hidden : Nat → Bool) (offset : Nat) :
    White (conceal hidden offset text) := by
  induction text generalizing offset with
  | nil => exact white_nil
  | cons c text ih =>
      rcases List.forall_mem_cons.mp h with ⟨hc, hrest⟩
      refine White.append ?_ (ih hrest _)
      split
      · simpa using white_blanks [c]
      · simpa [White] using hc

end Text

/-! ## Blocks that are concealed -/

namespace Piece

/-- A byte belongs to a piece. -/
def Spans (p : Piece) (place : Nat) : Prop :=
  p.offset ≤ place ∧ place < p.offset + Text.byteLength p.source

/-- Whether a byte is in the block that ends a piece. -/
def encloses (p : Piece) (place : Nat) : Bool :=
  match p.ending with
  | .block body =>
      p.bodyOffset ≤ place && place < p.bodyOffset + Text.byteLength body
  | _ => false

/-- Whether a byte is in the block of an at-rule or in a block nested in the body
of a rule. -/
def secludes (p : Piece) (place : Nat) : Bool :=
  match p.ending with
  | .block body =>
      if (Text.trim p.text).head? = some '@' then p.encloses place
      else ((pass p.bodyOffset body).getD []).any (·.encloses place)
  | _ => false

/-- The piece with its block concealed. -/
def conceal (hidden : Nat → Bool) (p : Piece) : Piece :=
  match p.ending with
  | .block body => { p with ending := .block (Text.conceal hidden p.bodyOffset body) }
  | _ => p

/-- The hidden bytes of a piece are in its block. -/
def Spares (hidden : Nat → Bool) (p : Piece) : Prop :=
  ∀ place, p.Spans place → hidden place = true → p.encloses place = true

variable {p : Piece} {place : Nat}

theorem encloses_iff :
    p.encloses place = true ↔
      ∃ body, p.ending = .block body ∧ p.bodyOffset ≤ place ∧
        place < p.bodyOffset + Text.byteLength body := by
  unfold encloses
  cases p.ending <;> simp

theorem encloses_block_iff
    {offset : Nat} {text body : List Char} :
    encloses ⟨offset, text, .block body⟩ place = true ↔
      offset + Text.byteLength text + 1 ≤ place ∧
        place < offset + Text.byteLength text + 1 + Text.byteLength body := by
  simp [encloses_iff, bodyOffset]

theorem spans_semicolon_iff
    {offset : Nat} {text : List Char} :
    Spans ⟨offset, text, .semicolon⟩ place ↔
      offset ≤ place ∧ place < offset + Text.byteLength text + 1 := by
  have hsize : ';'.utf8Size = 1 := rfl
  simp [Spans, source, Ending.source, hsize, Nat.add_assoc]

theorem spans_block_iff
    {offset : Nat} {text body : List Char} :
    Spans ⟨offset, text, .block body⟩ place ↔
      offset ≤ place ∧ place < offset + Text.byteLength text + 1 + Text.byteLength body + 1 := by
  have hopen : '{'.utf8Size = 1 := rfl
  have hclose : '}'.utf8Size = 1 := rfl
  simp [Spans, source, Ending.source, hopen, hclose, Nat.add_assoc]

theorem spans_of_encloses (h : p.encloses place = true) : p.Spans place := by
  obtain ⟨body, hending, hle, hlt⟩ := encloses_iff.mp h
  rcases p with ⟨offset, text, ending⟩
  cases hending
  unfold bodyOffset at hle hlt
  rw [spans_block_iff]
  simp only at hle hlt
  omega

theorem Consecutive.bounds_of_spans
    {offset : Nat} {pieces : List Piece} (h : Consecutive offset pieces) (hp : p ∈ pieces)
    (hspans : p.Spans place) :
    offset ≤ place ∧ place < offset + Text.byteLength (pieces.flatMap source) := by
  induction pieces generalizing offset with
  | nil => contradiction
  | cons q pieces ih =>
      rcases h with ⟨rfl, hrest⟩
      rw [List.flatMap_cons, Text.byteLength_append]
      rcases List.mem_cons.mp hp with rfl | hmem
      · rcases hspans with ⟨hle, hlt⟩
        omega
      · have hbounds := ih hrest hmem
        omega

/-- A byte belongs to one piece. -/
theorem Consecutive.eq_of_spans
    {q : Piece} {offset : Nat} {pieces : List Piece} (h : Consecutive offset pieces)
    (hp : p ∈ pieces) (hq : q ∈ pieces) (hspans : p.Spans place) (hspans' : q.Spans place) :
    p = q := by
  induction pieces generalizing offset with
  | nil => contradiction
  | cons first pieces ih =>
      rcases h with ⟨rfl, hrest⟩
      have hbehind : ∀ r ∈ pieces, r.Spans place → ¬first.Spans place := by
        intro r hr hspans hfirst
        have hbounds := hrest.bounds_of_spans hr hspans
        unfold Spans at hfirst
        omega
      rcases List.mem_cons.mp hp with hp | hp
      · rcases List.mem_cons.mp hq with hq | hq
        · exact hp.trans hq.symm
        · rw [hp] at hspans
          exact absurd hspans (hbehind q hq hspans')
      · rcases List.mem_cons.mp hq with hq | hq
        · rw [hq] at hspans'
          exact absurd hspans' (hbehind p hp hspans)
        · exact ih hrest hp hq

end Piece

theorem Partition.bounds_of_spans
    {offset place : Nat} {text : List Char} {pieces : List Piece} {p : Piece}
    (h : Partition offset text pieces) (hp : p ∈ pieces) (hspans : p.Spans place) :
    offset ≤ place ∧ place < offset + Text.byteLength text := by
  have hbounds := h.consecutive.bounds_of_spans hp hspans
  rw [(Piece.cover_iff.mpr h).source] at hbounds
  exact hbounds

/-! ## Pieces that are concealed -/

section Conceal

variable {hidden : Nat → Bool} {offset : Nat} {text body rest css a b : List Char}
  {pieces : List Piece}

theorem Piece.Spares.hidden_eq_false
    {p : Piece} {place : Nat} (h : p.Spares hidden) (hspans : p.Spans place)
    (hencloses : ¬p.encloses place = true) : hidden place = false := by
  cases hplace : hidden place with
  | false => rfl
  | true => exact absurd (h place hspans hplace) hencloses

theorem Piece.Spares.conceal_last
    (h : Piece.Spares hidden ⟨offset, text, .last⟩)
    (hlength : Text.byteLength a = Text.byteLength text) : Text.conceal hidden offset a = a := by
  apply Text.conceal_of_shown
  intro place hle hlt
  refine h.hidden_eq_false ?_ (by simp [Piece.encloses])
  simp [Piece.Spans, Piece.source, Ending.source]
  omega

/-- The text of a piece is shown. -/
theorem Piece.Spares.conceal_semicolon
    (h : Piece.Spares hidden ⟨offset, text, .semicolon⟩)
    (hlength : Text.byteLength a = Text.byteLength text) (b : List Char) :
    Text.conceal hidden offset (a ++ ';' :: b) =
      a ++ ';' :: Text.conceal hidden (offset + Text.byteLength text + 1) b := by
  have hsize : ';'.utf8Size = 1 := rfl
  have hshown : Text.conceal hidden offset (a ++ [';']) = a ++ [';'] := by
    apply Text.conceal_of_shown
    intro place hle hlt
    refine h.hidden_eq_false ?_ (by simp [Piece.encloses])
    simp [hsize, hlength] at hlt
    rw [Piece.spans_semicolon_iff]
    omega
  rw [List.append_cons, Text.conceal_append, hshown, Text.byteLength_append, hlength]
  simp [hsize, Nat.add_assoc]

/-- The text of a piece and its braces are shown. -/
theorem Piece.Spares.conceal_block
    (h : Piece.Spares hidden ⟨offset, text, .block body⟩) {m : List Char}
    (hlength : Text.byteLength a = Text.byteLength text)
    (hbody : Text.byteLength m = Text.byteLength body) (b : List Char) :
    Text.conceal hidden offset (a ++ '{' :: (m ++ '}' :: b)) =
      a ++ '{' :: (Text.conceal hidden (offset + Text.byteLength text + 1) m ++ '}' ::
        Text.conceal hidden
          (offset + Text.byteLength text + 1 + Text.byteLength body + 1) b) := by
  have hopen : '{'.utf8Size = 1 := rfl
  have hclose : '}'.utf8Size = 1 := rfl
  have hfront : Text.conceal hidden offset (a ++ ['{']) = a ++ ['{'] := by
    apply Text.conceal_of_shown
    intro place hle hlt
    simp [hopen, hlength] at hlt
    apply h.hidden_eq_false
    · rw [Piece.spans_block_iff]
      omega
    · rw [Piece.encloses_block_iff]
      omega
  have hback : Text.conceal hidden (offset + Text.byteLength text + 1 + Text.byteLength body)
      ['}'] = ['}'] := by
    apply Text.conceal_of_shown
    intro place hle hlt
    simp [hclose] at hlt
    apply h.hidden_eq_false
    · rw [Piece.spans_block_iff]
      omega
    · rw [Piece.encloses_block_iff]
      omega
  have hsplit : a ++ '{' :: (m ++ '}' :: b) = (a ++ ['{']) ++ (m ++ (['}'] ++ b)) := by simp
  have hbytes : Text.byteLength (a ++ ['{']) = Text.byteLength text + 1 := by
    simp [hopen, hlength]
  rw [hsplit, Text.conceal_append, hfront, hbytes, Text.conceal_append, hbody,
    Text.conceal_append, ← Nat.add_assoc, hback]
  simp [hclose]

/-- A text may be concealed where it stands in a block: it is still a block, and
its comments may be blanked before or afterwards. -/
structure Concealable (hidden : Nat → Bool) (offset : Nat) (text : List Char) : Prop where
  read : Cursor.start.readBlock (Text.conceal hidden offset text) = some .start
  blank : ∀ css, Comment.blankFrom .sheet offset css = .ok text →
    Comment.blankFrom .sheet offset (Text.conceal hidden offset css) =
      .ok (Text.conceal hidden offset text)

theorem Concealable.closed (h : Concealable hidden offset text) :
    Quoting.outside.after (Text.conceal hidden offset text) = .outside :=
  (Cursor.quoting_of_readBlock h.read).symm

theorem Comment.Pass.flatMap_blankChar_blanked (p : Pass) (offset : Nat) (css : List Char) :
    (p.blanked offset css).flatMap blankChar = css.flatMap blankChar := by
  have htwice : ∀ c, (blankChar c).flatMap blankChar = blankChar c := by
    intro c
    by_cases hc : c = '\n'
    · rw [hc]
      rfl
    · have hspace : ' '.utf8Size = 1 := rfl
      simp [blankChar, hc, List.flatMap_replicate, hspace]
  induction css generalizing p offset with
  | nil => rfl
  | cons c css ih =>
      rw [blanked, List.flatMap_append, ih, List.flatMap_cons]
      split
      · rw [htwice]
      · simp

/-- A text that is hidden as a whole may be concealed. -/
theorem Concealable.of_hidden
    (h : ∀ place, offset ≤ place → place < offset + Text.byteLength text → hidden place = true) :
    Concealable hidden offset text := by
  have hwhite := Text.white_blanks text
  have hread : Cursor.start.readText (text.flatMap Comment.blankChar) = some .start :=
    Cursor.readText_white hwhite
  have htext := Text.conceal_of_hidden h
  constructor
  case read =>
    rw [htext]
    exact Cursor.readBlock_of_readText hread 0
  case blank =>
    intro css hblank
    have hlength := Comment.byteLength_of_blankFrom hblank
    rcases Comment.blankFrom_sheet_eq_ok_iff.mp hblank with ⟨-, hblanked⟩
    have hcss : Text.conceal hidden offset css = text.flatMap Comment.blankChar := by
      rw [Text.conceal_of_hidden (by rw [← hlength]; exact h), ← hblanked,
        Comment.Pass.flatMap_blankChar_blanked]
    rw [hcss, htext]
    exact Comment.blankFrom_of_free .sheet (by simp) (Comment.free_of_notMem hwhite.slash_notMem)
      (Cursor.quoting_of_readText hread).symm

/-- The pieces of a text are those of the concealed text, concealed. -/
theorem Partition.conceal
    (h : Partition offset text pieces) (hspares : ∀ p ∈ pieces, p.Spares hidden)
    (hbody : ∀ p ∈ pieces, ∀ body, p.ending = .block body →
      Concealable hidden p.bodyOffset body) :
    Partition offset (Text.conceal hidden offset text) (pieces.map (Piece.conceal hidden)) := by
  induction h with
  | @last offset text hproper =>
      have hshown := (List.forall_mem_singleton.mp hspares).conceal_last rfl
      rw [hshown]
      exact .last hproper
  | @semicolon offset text rest pieces hproper _ ih =>
      rcases List.forall_mem_cons.mp hspares with ⟨hhead, hmore⟩
      rw [hhead.conceal_semicolon rfl]
      exact .semicolon hproper (ih hmore (List.forall_mem_cons.mp hbody).2)
  | @block offset text body rest pieces hproper _ ih =>
      rcases List.forall_mem_cons.mp hspares with ⟨hhead, hmore⟩
      rcases List.forall_mem_cons.mp hbody with ⟨hblock, hbodies⟩
      have hrest := ih hmore hbodies
      rw [hhead.conceal_block rfl rfl]
      rcases hproper with ⟨depth, htext, -⟩
      refine .block ⟨depth, htext, (hblock body rfl).read⟩ ?_
      rw [Text.byteLength_conceal]
      exact hrest

theorem Partition.blankFrom_conceal
    (h : Partition offset text pieces) (hblank : Comment.blankFrom .sheet offset css = .ok text)
    (hspares : ∀ p ∈ pieces, p.Spares hidden)
    (hbody : ∀ p ∈ pieces, ∀ body, p.ending = .block body →
      Concealable hidden p.bodyOffset body) :
    Comment.blankFrom .sheet offset (Text.conceal hidden offset css) =
      .ok (Text.conceal hidden offset text) := by
  induction h generalizing css with
  | @last offset text hproper =>
      have hhead := List.forall_mem_singleton.mp hspares
      rw [hhead.conceal_last (Comment.byteLength_of_blankFrom hblank).symm, hhead.conceal_last rfl]
      exact hblank
  | @semicolon offset text rest pieces hproper _ ih =>
      rcases List.forall_mem_cons.mp hspares with ⟨hhead, hmore⟩
      have hclosed := hproper.after_text
      obtain ⟨a, b, rfl, hlength, ha, hb⟩ :=
        Comment.exists_split_of_divides hblank hclosed Comment.divides_semicolon
      rw [hhead.conceal_semicolon hlength, hhead.conceal_semicolon rfl]
      apply Comment.blankFrom_append_cons ha hclosed Comment.divides_semicolon
      rw [hlength]
      exact ih hb hmore (List.forall_mem_cons.mp hbody).2
  | @block offset text body rest pieces hproper _ ih =>
      rcases List.forall_mem_cons.mp hspares with ⟨hhead, hmore⟩
      rcases List.forall_mem_cons.mp hbody with ⟨hblock, hbodies⟩
      have hconcealable : Concealable hidden (offset + Text.byteLength text + 1) body :=
        hblock body rfl
      have hclosed := hproper.after_text
      obtain ⟨a, inner, rfl, hlength, ha, hinner⟩ :=
        Comment.exists_split_of_divides hblank hclosed Comment.divides_openBrace
      obtain ⟨m, b, rfl, hlength', hm, hb⟩ :=
        Comment.exists_split_of_divides hinner hproper.after_body Comment.divides_closeBrace
      rw [hhead.conceal_block hlength hlength', hhead.conceal_block rfl rfl]
      apply Comment.blankFrom_append_cons ha hclosed Comment.divides_openBrace
      rw [hlength]
      apply Comment.blankFrom_append_cons (hconcealable.blank m hm) hconcealable.closed
        Comment.divides_closeBrace
      rw [Text.byteLength_conceal, hlength']
      exact ih hb hmore hbodies

theorem Partition.concealable
    (h : Partition offset text pieces) (hspares : ∀ p ∈ pieces, p.Spares hidden)
    (hbody : ∀ p ∈ pieces, ∀ body, p.ending = .block body →
      Concealable hidden p.bodyOffset body) : Concealable hidden offset text :=
  ⟨(h.conceal hspares hbody).readBlock, fun _ hblank => h.blankFrom_conceal hblank hspares hbody⟩

/-- What is concealed of a stylesheet stands between braces. -/
theorem Partition.conceal_eq_of_white
    (h : Partition offset text pieces) (hblank : Comment.blankFrom .sheet offset css = .ok text)
    (hspares : ∀ p ∈ pieces, p.Spares hidden)
    (hwhite : Text.White (Text.conceal hidden offset css)) :
    Text.conceal hidden offset css = css := by
  cases h with
  | last hproper =>
      exact (List.forall_mem_singleton.mp hspares).conceal_last
        (Comment.byteLength_of_blankFrom hblank).symm
  | semicolon hproper _ =>
      obtain ⟨a, b, rfl, hlength, -, -⟩ :=
        Comment.exists_split_of_divides hblank hproper.after_text Comment.divides_semicolon
      rw [(List.forall_mem_cons.mp hspares).1.conceal_semicolon hlength] at hwhite
      exact absurd (hwhite ';' (by simp)) (by decide)
  | block hproper _ =>
      obtain ⟨a, inner, rfl, hlength, -, hinner⟩ :=
        Comment.exists_split_of_divides hblank hproper.after_text Comment.divides_openBrace
      obtain ⟨m, b, rfl, hlength', -, -⟩ :=
        Comment.exists_split_of_divides hinner hproper.after_body Comment.divides_closeBrace
      rw [(List.forall_mem_cons.mp hspares).1.conceal_block hlength hlength'] at hwhite
      exact absurd (hwhite '{' (by simp)) (by decide)

end Conceal

end ContrastLint

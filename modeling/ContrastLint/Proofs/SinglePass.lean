import ContrastLint.Proofs.Pieces

/-!
# Pieces in a single pass

The pieces of a text are found by a pass that sees every character once and
never goes back.  It keeps the piece that it is in: where the piece starts, its
text so far and, once its brace has opened, the contents of its block so far.

Whatever the pass reads stands in the pieces it has ended or is still pending,
so a pass that reaches the end of a text has neither lost nor doubled any of
it.
-/

namespace ContrastLint

/-- The piece that a pass is in. -/
structure Cutter where
  offset : Nat
  text : List Char
  body : Option (List Char)
  /-- Counts parentheses in the text and braces in the body. -/
  cursor : Cursor

namespace Cutter

def start (offset : Nat) : Cutter := ⟨offset, [], none, .start⟩

/-- Reads one character.  Returns the piece that it ends, if it ends one, and
the piece that the pass is in after it.  Fails at a brace without partner. -/
def step (k : Cutter) (c : Char) : Option (Option Piece × Cutter) :=
  match k.body with
  | none =>
      match k.cursor.text? c with
      | some cursor => some (none, { k with text := k.text ++ [c], cursor })
      | none =>
          if c = ';' then
            some (some ⟨k.offset, k.text, .semicolon⟩,
              start (k.offset + Text.byteLength k.text + 1))
          else if c = '{' then
            some (none, { k with body := some [], cursor := .start })
          else none
  | some body =>
      match k.cursor.block? c with
      | some cursor => some (none, { k with body := some (body ++ [c]), cursor })
      | none =>
          some (some ⟨k.offset, k.text, .block body⟩,
            start (k.offset + Text.byteLength k.text + 1 + Text.byteLength body + 1))

/-- The last piece.  There is none if a string or a block is open. -/
def finish (k : Cutter) : Option Piece :=
  if k.body = none ∧ k.cursor.quoting = .outside then some ⟨k.offset, k.text, .last⟩ else none

def run (k : Cutter) : List Char → Option (List Piece)
  | [] => k.finish.map ([·])
  | c :: text => do
      let (ended, next) ← k.step c
      (ended.toList ++ ·) <$> next.run text

def pending (k : Cutter) : List Char :=
  k.text ++
    match k.body with
    | none => []
    | some body => '{' :: body

/-- One step neither loses nor doubles a character. -/
theorem step_source
    {k next : Cutter} {c : Char} {ended : Option Piece} (h : k.step c = some (ended, next)) :
    ended.toList.flatMap Piece.source ++ next.pending = k.pending ++ [c] := by
  rcases k with ⟨offset, text, body, cursor⟩
  unfold step at h
  cases body with
  | none =>
      simp only at h
      split at h
      · cases h
        simp [pending]
      · split at h
        · next hc =>
            cases h
            simp [pending, start, Piece.source, Ending.source, hc]
        · split at h
          · next hc =>
              cases h
              simp [pending, hc]
          · contradiction
  | some body =>
      simp only at h
      split at h
      · cases h
        simp [pending]
      · next hends =>
          rcases (Cursor.block?_eq_none_iff.mp hends).cases with ⟨-, rfl⟩
          cases h
          simp [pending, start, Piece.source, Ending.source]

theorem run_source
    {k : Cutter} {text : List Char} {pieces : List Piece} (h : k.run text = some pieces) :
    pieces.flatMap Piece.source = k.pending ++ text := by
  induction text generalizing k pieces with
  | nil =>
      rcases Option.map_eq_some_iff.mp h with ⟨p, hfinish, rfl⟩
      unfold finish at hfinish
      split at hfinish
      · next hend =>
          cases hfinish
          simp [Piece.source, Ending.source, pending, hend.1]
      · contradiction
  | cons c text ih =>
      rw [run] at h
      obtain ⟨⟨ended, next⟩, hstep, hrest⟩ := Option.bind_eq_some_iff.mp h
      rcases Option.map_eq_some_iff.mp hrest with ⟨rest, hrun, rfl⟩
      rw [List.flatMap_append, ih hrun, ← List.append_assoc, step_source hstep]
      simp

variable {offset : Nat} {text body a b : List Char} {k cursor : Cursor}

theorem run_cons (cutter : Cutter) (c : Char) (text : List Char) :
    cutter.run (c :: text) =
      (cutter.step c).bind fun p => (p.2.run text).map (p.1.toList ++ ·) := rfl

theorem run_readText (hread : k.readText a = some cursor) :
    (Cutter.mk offset text none k).run (a ++ b) =
      (Cutter.mk offset (text ++ a) none cursor).run b := by
  induction a generalizing k text with
  | nil =>
      cases hread
      simp
  | cons c a ih =>
      obtain ⟨next, hnext, hrest⟩ := Option.bind_eq_some_iff.mp hread
      rw [List.cons_append, run_cons]
      simp [step, hnext, ih hrest]

theorem run_readBlock (hread : k.readBlock a = some cursor) :
    (Cutter.mk offset text (some body) k).run (a ++ b) =
      (Cutter.mk offset text (some (body ++ a)) cursor).run b := by
  induction a generalizing k body with
  | nil =>
      cases hread
      simp
  | cons c a ih =>
      obtain ⟨next, hnext, hrest⟩ := Option.bind_eq_some_iff.mp hread
      rw [List.cons_append, run_cons]
      simp [step, hnext, ih hrest]

theorem run_text (hread : Cursor.start.readText text = some cursor) :
    (start offset).run text = (Cutter.mk offset text none cursor).finish.map ([·]) := by
  have hrun : (start offset).run (text ++ []) = (Cutter.mk offset text none cursor).run [] :=
    run_readText hread
  rw [List.append_nil] at hrun
  exact hrun

theorem run_open {depth : Nat} (hread : Cursor.start.readText text = some ⟨.outside, depth⟩) :
    (start offset).run (text ++ '{' :: b) = (Cutter.mk offset text (some []) .start).run b := by
  have hstops : Cursor.text? ⟨.outside, depth⟩ '{' = none :=
    Cursor.text?_eq_none_iff.mpr (.inl rfl)
  rw [start, run_readText hread, run_cons]
  simp [step, hstops]

theorem run_semicolon (hproper : Piece.Proper ⟨offset, text, .semicolon⟩) :
    (start offset).run (text ++ ';' :: b) =
      ((start (offset + Text.byteLength text + 1)).run b).map
        (⟨offset, text, .semicolon⟩ :: ·) := by
  rcases hproper with ⟨depth, hread, hfits⟩
  have hstops : Cursor.text? ⟨.outside, depth⟩ ';' = none :=
    Cursor.text?_eq_none_iff.mpr (.inr (.inr ⟨rfl, hfits⟩))
  conv_lhs => rw [start, run_readText hread, run_cons]
  simp [step, hstops]

theorem run_block (hproper : Piece.Proper ⟨offset, text, .block body⟩) :
    (start offset).run (text ++ '{' :: (body ++ '}' :: b)) =
      ((start (offset + Text.byteLength text + 1 + Text.byteLength body + 1)).run b).map
        (⟨offset, text, .block body⟩ :: ·) := by
  rcases hproper with ⟨depth, hread, hfits⟩
  have hends : Cursor.start.block? '}' = none := Cursor.block?_eq_none_iff.mpr ⟨rfl, rfl⟩
  rw [run_open hread, run_readBlock hfits, run_cons]
  simp [step, hends]

theorem run_of_partition
    {pieces : List Piece} (h : Partition offset text pieces) :
    (start offset).run text = some pieces := by
  induction h with
  | last hproper =>
      rcases hproper with ⟨depth, hread, -⟩
      rw [run_text hread]
      simp [finish]
  | semicolon hproper _ ih => rw [run_semicolon hproper, ih, Option.map_some]
  | block hproper _ ih => rw [run_block hproper, ih, Option.map_some]

theorem run_of_stuck (h : Stuck offset text) : (start offset).run text = none := by
  induction h with
  | string hread hopen =>
      rw [run_text hread]
      simp [finish, hopen]
  | @close offset depth text rest hread =>
      have hstops : Cursor.text? ⟨.outside, depth⟩ '}' = none :=
        Cursor.text?_eq_none_iff.mpr (.inr (.inl rfl))
      rw [start, run_readText hread, run_cons]
      simp [step, hstops]
  | @block offset depth text body k hread hbody =>
      have hrun : (Cutter.mk offset text (some []) .start).run (body ++ []) =
          (Cutter.mk offset text (some body) k).run [] :=
        run_readBlock hbody
      rw [run_open hread, ← List.append_nil body, hrun]
      rfl
  | afterSemicolon hproper _ ih => rw [run_semicolon hproper, ih, Option.map_none]
  | afterBlock hproper _ ih => rw [run_block hproper, ih, Option.map_none]

end Cutter

/-- The pieces that a pass finds in a text that starts at the byte `offset`. -/
def Piece.pass (offset : Nat) (text : List Char) : Option (List Piece) :=
  (Cutter.start offset).run text

/-- The pass succeeds on the texts that are made up of pieces, and finds them. -/
theorem Piece.pass_eq_some_iff
    {offset : Nat} {text : List Char} {pieces : List Piece} :
    pass offset text = some pieces ↔ Partition offset text pieces := by
  constructor
  · intro h
    rcases exists_partition_or_stuck offset text with ⟨pieces', hpieces⟩ | hstuck
    · have hpass : pass offset text = some pieces' := Cutter.run_of_partition hpieces
      rw [hpass] at h
      cases h
      exact hpieces
    · have hnone : pass offset text = none := Cutter.run_of_stuck hstuck
      rw [hnone] at h
      contradiction
  · exact Cutter.run_of_partition

/-- Every piece starts at the byte where the one before it has ended. -/
def Piece.Consecutive : Nat → List Piece → Prop
  | _, [] => True
  | offset, p :: pieces =>
      p.offset = offset ∧ Consecutive (offset + Text.byteLength p.source) pieces

theorem Partition.consecutive
    {offset : Nat} {text : List Char} {pieces : List Piece} (h : Partition offset text pieces) :
    Piece.Consecutive offset pieces := by
  induction h with
  | last => exact ⟨rfl, trivial⟩
  | semicolon _ _ ih =>
      refine ⟨rfl, ?_⟩
      have hsize : ';'.utf8Size = 1 := rfl
      simpa [Piece.source, Ending.source, hsize, Nat.add_assoc] using ih
  | block _ _ ih =>
      refine ⟨rfl, ?_⟩
      have hopen : '{'.utf8Size = 1 := rfl
      have hclose : '}'.utf8Size = 1 := rfl
      simpa [Piece.source, Ending.source, hopen, hclose, Nat.add_assoc] using ih

/-- The pieces that a single pass finds in a text.  They spell the text, and
none leaves a gap to the next. -/
structure Piece.Cover (offset : Nat) (text : List Char) (pieces : List Piece) : Prop where
  pass : Piece.pass offset text = some pieces
  source : pieces.flatMap Piece.source = text
  consecutive : Consecutive offset pieces

theorem Piece.cover_iff
    {offset : Nat} {text : List Char} {pieces : List Piece} :
    Cover offset text pieces ↔ Partition offset text pieces := by
  constructor
  · intro h
    exact pass_eq_some_iff.mp h.pass
  · intro h
    have hpass := pass_eq_some_iff.mpr h
    exact ⟨hpass, Cutter.run_source hpass, h.consecutive⟩

end ContrastLint

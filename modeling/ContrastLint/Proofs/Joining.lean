import ContrastLint.Proofs.Comments
import ContrastLint.Proofs.Pieces

/-!
# Joining pieces

Pieces may be put one before the other, and what they make up may itself be
the block of a piece.  No comment opens in the whole unless one opens in a
piece, since none can open across a semicolon or a brace.
-/

namespace ContrastLint

namespace Cursor

variable {k k' : Cursor} {text : List Char}

theorem readBlock_succ (h : k.readBlock text = some k') :
    (Cursor.mk k.quoting (k.depth + 1)).readBlock text =
      some ⟨k'.quoting, k'.depth + 1⟩ := by
  induction text generalizing k with
  | nil =>
      cases h
      rfl
  | cons c text ih =>
      obtain ⟨next, hnext, hrest⟩ := Option.bind_eq_some_iff.mp h
      obtain ⟨hgoes, rfl⟩ := block?_eq_some_iff.mp hnext
      have hdeeper : block? ⟨k.quoting, k.depth + 1⟩ c =
          some ⟨k.quoting.next c, (k.quoting.sign c).braces k.depth + 1⟩ := by
        rw [block?_eq_some_iff]
        refine ⟨by simp [Ends], ?_⟩
        cases hsign : k.quoting.sign c with
        | closeBrace =>
            have hdepth : k.depth ≠ 0 := fun hzero => hgoes ⟨hsign, hzero⟩
            simp only [Sign.braces]
            congr 1
            omega
        | _ => rfl
      rw [readBlock_cons, hdeeper]
      exact ih hrest

theorem readBlock_of_readText (h : k.readText text = some k') (depth : Nat) :
    (Cursor.mk k.quoting depth).readBlock text = some ⟨k'.quoting, depth⟩ := by
  induction text generalizing k with
  | nil =>
      cases h
      rfl
  | cons c text ih =>
      obtain ⟨next, hnext, hrest⟩ := Option.bind_eq_some_iff.mp h
      obtain ⟨hgoes, rfl⟩ := text?_eq_some_iff.mp hnext
      have hblock : block? ⟨k.quoting, depth⟩ c = some ⟨k.quoting.next c, depth⟩ := by
        rw [block?_eq_some_iff]
        unfold Stops at hgoes
        constructor
        · simp [Ends]
          tauto
        · cases hsign : k.quoting.sign c <;> simp_all [Sign.braces]
      rw [readBlock_cons, hblock]
      exact ih hrest

end Cursor

namespace Partition

variable {offset : Nat} {text : List Char} {pieces : List Piece}

theorem cons
    {p : Piece} (hproper : p.Proper) (hmore : p.ending ≠ .last)
    (h : Partition (p.offset + Text.byteLength p.source) text pieces) :
    Partition p.offset (p.source ++ text) (p :: pieces) := by
  rcases p with ⟨offset, front, ending⟩
  cases ending with
  | last => contradiction
  | semicolon =>
      have hsize : ';'.utf8Size = 1 := rfl
      have hrest : Partition (offset + Text.byteLength front + 1) text pieces := by
        simpa [Piece.source, Ending.source, hsize, Nat.add_assoc] using h
      simpa [Piece.source, Ending.source] using Partition.semicolon hproper hrest
  | block body =>
      have hopen : '{'.utf8Size = 1 := rfl
      have hclose : '}'.utf8Size = 1 := rfl
      have hrest : Partition (offset + Text.byteLength front + 1 + Text.byteLength body + 1)
          text pieces := by
        simpa [Piece.source, Ending.source, hopen, hclose, Nat.add_assoc] using h
      simpa [Piece.source, Ending.source] using Partition.block hproper hrest

/-- A text that is made up of pieces may stand in a block. -/
theorem readBlock (h : Partition offset text pieces) :
    Cursor.start.readBlock text = some .start := by
  induction h with
  | last hproper =>
      rcases hproper with ⟨depth, hread, -⟩
      exact Cursor.readBlock_of_readText hread 0
  | @semicolon offset text rest pieces hproper _ ih =>
      rcases hproper with ⟨depth, hread, -⟩
      have htext : Cursor.start.readBlock text = some .start :=
        Cursor.readBlock_of_readText hread 0
      have hnext : Cursor.start.block? ';' = some .start := rfl
      rw [Cursor.readBlock_append, htext, Option.bind_some, Cursor.readBlock_cons, hnext]
      exact ih
  | @block offset text body rest pieces hproper _ ih =>
      rcases hproper with ⟨depth, hread, hfits⟩
      have htext : Cursor.start.readBlock text = some .start :=
        Cursor.readBlock_of_readText hread 0
      have hopen : Cursor.start.block? '{' = some ⟨.outside, 1⟩ := rfl
      have hclose : Cursor.block? ⟨.outside, 1⟩ '}' = some .start := rfl
      have hbody : (Cursor.mk .outside 1).readBlock body = some ⟨.outside, 1⟩ :=
        Cursor.readBlock_succ hfits
      rw [Cursor.readBlock_append, htext, Option.bind_some, Cursor.readBlock_cons, hopen,
        Option.bind_some, Cursor.readBlock_append, hbody, Option.bind_some, Cursor.readBlock_cons,
        hclose]
      exact ih

end Partition

/-- No comment opens in the texts of a piece. -/
structure Piece.Plain (p : Piece) : Prop where
  text : Comment.Free .outside p.text
  body : ∀ body, p.ending = .block body → Comment.Free .outside body

theorem Comment.free_append_cons_iff
    {a b : List Char} {c : Char} (hclosed : Quoting.outside.after a = .outside)
    (hnext : Quoting.outside.next c = .outside) (hslash : c ≠ '/') (hstar : c ≠ '*') :
    Free .outside (a ++ c :: b) ↔ Free .outside a ∧ Free .outside b := by
  have hcons : Free .outside (c :: b) ↔ Free .outside b := by
    rw [free_cons, hnext]
    simp [hslash]
  constructor
  · intro h
    have hright := h.append_right
    rw [hclosed] at hright
    exact ⟨h.append_left, hcons.mp hright⟩
  · intro h
    rcases h with ⟨ha, hb⟩
    apply ha.append
    · rw [hclosed]
      exact hcons.mpr hb
    · simpa using hstar

/-- No comment opens in a text if and only if none opens in its pieces. -/
theorem Partition.free_iff
    {offset : Nat} {text : List Char} {pieces : List Piece} (h : Partition offset text pieces) :
    Comment.Free .outside text ↔ ∀ p ∈ pieces, p.Plain := by
  induction h with
  | last hproper =>
      rw [List.forall_mem_singleton]
      exact ⟨fun hfree => ⟨hfree, by simp⟩, fun hplain => hplain.text⟩
  | semicolon hproper _ ih =>
      rw [Comment.free_append_cons_iff hproper.after_text rfl (by decide) (by decide), ih,
        List.forall_mem_cons]
      refine and_congr_left fun _ => ?_
      exact ⟨fun hfree => ⟨hfree, by simp⟩, fun hplain => hplain.text⟩
  | block hproper _ ih =>
      rw [Comment.free_append_cons_iff hproper.after_text rfl (by decide) (by decide),
        Comment.free_append_cons_iff hproper.after_body rfl (by decide) (by decide), ih,
        List.forall_mem_cons, ← and_assoc]
      refine and_congr_left fun _ => ?_
      constructor
      · intro h
        rcases h with ⟨htext, hbody⟩
        exact ⟨htext, by simpa using hbody⟩
      · intro hplain
        exact ⟨hplain.text, hplain.body _ rfl⟩

end ContrastLint

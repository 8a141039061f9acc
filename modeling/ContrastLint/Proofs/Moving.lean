import ContrastLint.Proofs.Lockstep
import ContrastLint.Proofs.Yields

/-!
# Texts further behind

A text yields the same nodes wherever it stands, only at other places.  Blanks
that come to stand in front of it belong to its first piece and change nothing
about the node of that piece.

A pass finds the same fault in a text wherever it stands, for it does not look
at what it remembers of strings and blocks that have been closed.
-/

namespace ContrastLint

namespace Text

def Blank (text : List Char) : Prop :=
  ∀ c ∈ text, isAsciiWhite c = true

theorem blank_nil : Blank [] := by simp [Blank]

theorem Blank.white {text : List Char} (h : Blank text) : White text :=
  fun c hc => isWhite_of_isAsciiWhite (h c hc)

end Text

/-! ## Pieces -/

namespace Piece

/-- The piece `q` is `p`, moved by a number of bytes and with blanks before it. -/
structure Moves (bytes : Nat) (p q : Piece) : Prop where
  text :
    ∃ lead, Text.Blank lead ∧ q.text = lead ++ p.text ∧
      q.offset + Text.byteLength lead = p.offset + bytes
  ending : q.ending = p.ending

variable {bytes : Nat} {p q : Piece}

theorem Proper.blank_append
    {offset place : Nat} {lead text : List Char} {ending : Ending} (hlead : Text.Blank lead)
    (h : Proper ⟨offset, text, ending⟩) : Proper ⟨place, lead ++ text, ending⟩ := by
  rcases h with ⟨depth, hread, hfits⟩
  refine ⟨depth, ?_, hfits⟩
  rw [Cursor.readText_append, Cursor.start, Cursor.readText_white hlead.white]
  exact hread

namespace Moves

theorem of_blank
    {offset place : Nat} {lead : List Char} (hlead : Text.Blank lead)
    (hplace : place + Text.byteLength lead = offset + bytes) (text : List Char) (ending : Ending) :
    Moves bytes ⟨offset, text, ending⟩ ⟨place, lead ++ text, ending⟩ :=
  ⟨⟨lead, hlead, rfl, hplace⟩, rfl⟩

theorem trim_text (h : p.Moves bytes q) : Text.trim q.text = Text.trim p.text := by
  obtain ⟨lead, hlead, htext, -⟩ := h.text
  rw [htext, Text.trim_append_left hlead.white]

theorem start (h : p.Moves bytes q) : q.start = p.start + bytes := by
  obtain ⟨lead, hlead, htext, hoffset⟩ := h.text
  unfold Piece.start
  rw [htext, List.takeWhile_append_of_pos hlead, Text.byteLength_append]
  omega

theorem bodyOffset (h : p.Moves bytes q) : q.bodyOffset = p.bodyOffset + bytes := by
  obtain ⟨lead, -, htext, hoffset⟩ := h.text
  unfold Piece.bodyOffset
  rw [htext, Text.byteLength_append]
  omega

theorem declaration? (h : p.Moves bytes q) :
    q.declaration? = p.declaration?.map (Declaration.map (· + bytes)) := by
  obtain ⟨lead, hlead, htext, hoffset⟩ := h.text
  have hplace : q.offset + Text.byteLength (q.text.takeWhile Text.isWhite) =
      p.offset + Text.byteLength (p.text.takeWhile Text.isWhite) + bytes := by
    rw [htext, List.takeWhile_append_of_pos hlead.white, Text.byteLength_append]
    omega
  unfold Piece.declaration?
  rw [hplace, htext, Assignment.read?_white_append hlead.white, Option.map_map]
  rfl

theorem declared? (h : p.Moves bytes q) :
    q.declared? = p.declared?.map (Declaration.map (· + bytes)) := by
  unfold Piece.declared?
  rw [h.ending, h.declaration?]
  cases p.ending <;> rfl

end Moves

theorem filterMap_declared?_of_moves
    {pieces moved : List Piece} (h : List.Forall₂ (Moves bytes) pieces moved) :
    moved.filterMap declared? =
      (pieces.filterMap declared?).map (Declaration.map (· + bytes)) := by
  induction h with
  | nil => rfl
  | @cons p q pieces moved hmoves _ ih =>
      rw [List.filterMap_cons, List.filterMap_cons, hmoves.declared?, ih]
      cases p.declared? <;> rfl

end Piece

/-- The pieces of a text may be moved, and blanks may come to stand before it. -/
theorem Partition.exists_moves
    {offset place bytes : Nat} {text lead : List Char} {pieces : List Piece}
    (h : Partition offset text pieces) (hlead : Text.Blank lead)
    (hplace : place + Text.byteLength lead = offset + bytes) :
    ∃ moved, Partition place (lead ++ text) moved ∧
      List.Forall₂ (Piece.Moves bytes) pieces moved := by
  induction h generalizing place lead with
  | @last offset text hproper =>
      exact ⟨_, .last (hproper.blank_append hlead), .cons (.of_blank hlead hplace _ _) .nil⟩
  | @semicolon offset text rest pieces hproper _ ih =>
      have hnext : place + Text.byteLength (lead ++ text) + 1 + Text.byteLength [] =
          offset + Text.byteLength text + 1 + bytes := by
        rw [Text.byteLength_append, Text.byteLength_nil]
        omega
      obtain ⟨moved, hmoved, hmoves⟩ := ih Text.blank_nil hnext
      refine ⟨_, ?_, .cons (.of_blank hlead hplace _ _) hmoves⟩
      rw [← List.append_assoc]
      exact .semicolon (hproper.blank_append hlead) hmoved
  | @block offset text body rest pieces hproper _ ih =>
      have hnext : place + Text.byteLength (lead ++ text) + 1 + Text.byteLength body + 1 +
          Text.byteLength [] =
            offset + Text.byteLength text + 1 + Text.byteLength body + 1 + bytes := by
        rw [Text.byteLength_append, Text.byteLength_nil]
        omega
      obtain ⟨moved, hmoved, hmoves⟩ := ih Text.blank_nil hnext
      refine ⟨_, ?_, .cons (.of_blank hlead hplace _ _) hmoves⟩
      rw [← List.append_assoc]
      exact .block (hproper.blank_append hlead) hmoved

/-- A piece that is moved yields its node at other places. -/
theorem Piece.Moves.yields
    {bytes : Nat} {p q : Piece} {node : Option (Node Nat)} (h : p.Moves bytes q)
    (hyields : p.Yields node) : q.Yields (node.map (Node.map (· + bytes))) := by
  by_cases hat : (Text.trim p.text).head? = some '@'
  · obtain ⟨text, htext⟩ := List.head?_eq_some_iff.mp hat
    cases (yields_iff_of_at htext).mp hyields
    rw [yields_iff_of_at (h.trim_text.trans htext), h.ending, h.start]
    rfl
  · have hat' : (Text.trim q.text).head? ≠ some '@' := by
      rw [h.trim_text]
      exact hat
    cases hbody : p.ending.body? with
    | some body =>
        have hending := Ending.body?_eq_some_iff.mp hbody
        rcases (yields_iff_of_block hat hending).mp hyields with ⟨inner, hinner, rfl⟩
        obtain ⟨moved, hmoved, hmoves⟩ := hinner.exists_moves Text.blank_nil h.bodyOffset
        rw [yields_iff_of_block hat' (h.ending.trans hending)]
        refine ⟨moved, hmoved, ?_⟩
        rw [filterMap_declared?_of_moves hmoves, h.trim_text, h.start]
        rfl
    | none =>
        have hbody' : q.ending.body? = none := by
          rw [h.ending]
          exact hbody
        rw [(yields_iff_of_body?_eq_none hat hbody).mp hyields,
          yields_iff_of_body?_eq_none hat' hbody', h.declaration?, Option.map_map, Option.map_map]
        rfl

/-! ## Passes -/

theorem Fault.Faces.eq_shift
    {bytes : Nat} {f g : Fault} (h : f.Faces (fun i j => j = i + bytes) g) :
    g = f.shift bytes := by
  cases f
  cases g
  obtain ⟨rfl, rfl⟩ := h
  rfl

namespace Pass

/-- The pass `q` stands where `p` does, but in a text further behind.  What they
remember of closed strings and blocks may differ. -/
structure Follows (bytes : Nat) (p q : Pass) : Prop where
  quoting : q.quoting = p.quoting
  depth : q.depth = p.depth
  quoteAt : p.quoting ≠ .outside → q.quoteAt = p.quoteAt + bytes
  braceAt : p.depth ≠ 0 → q.braceAt = p.braceAt + bytes

/-- Two passes go on alike, or find the same fault. -/
inductive Matches (bytes : Nat) : Except Fault Pass → Except Fault Pass → Prop
  | ok {p q : Pass} (h : p.Follows bytes q) : Matches bytes (.ok p) (.ok q)
  | error (fault : Fault) : Matches bytes (.error fault) (.error (fault.shift bytes))

variable {bytes : Nat} {p q : Pass}

theorem Follows.faces (h : p.Follows bytes q) : p.Faces (fun i j => j = i + bytes) q :=
  ⟨h.quoting, h.depth, h.quoteAt, h.braceAt⟩

theorem Faces.follows (h : p.Faces (fun i j => j = i + bytes) q) : p.Follows bytes q :=
  ⟨h.quoting, h.depth, h.quoteAt, h.braceAt⟩

theorem Follows.step (h : p.Follows bytes q) (offset : Nat) (c : Char) :
    Matches bytes (p.step offset c) (q.step (offset + bytes) c) := by
  rcases (h.faces.step rfl c).cases with ⟨p', q', hp, hq, hnext⟩ | ⟨f, g, hf, hg, hfault⟩
  · rw [hp, hq]
    exact .ok hnext.follows
  · rw [hf, hg, hfault.eq_shift]
    exact .error f

theorem Follows.finish (h : p.Follows bytes q) :
    q.finish = p.finish.mapError (Fault.shift bytes) := by
  rcases h.faces.finish.cases with ⟨_, _, hp, hq, -⟩ | ⟨f, g, hf, hg, hfault⟩
  · rw [hp, hq]
    rfl
  · rw [hf, hg, hfault.eq_shift]
    rfl

/-- A pass finds the same fault in a text that stands further behind. -/
theorem Follows.run (h : p.Follows bytes q) (offset : Nat) (text : List Char) :
    q.run (offset + bytes) text = (p.run offset text).mapError (Fault.shift bytes) := by
  induction text generalizing p q offset with
  | nil => exact h.finish
  | cons c text ih =>
      have hstep := h.step offset c
      rw [run_cons, run_cons, Nat.add_right_comm]
      revert hstep
      generalize p.step offset c = x
      generalize q.step (offset + bytes) c = y
      intro hstep
      cases hstep with
      | ok hnext => exact ih hnext _
      | error fault => rfl

/-- A pass that finds no fault in a text goes on outside strings and blocks. -/
theorem exists_run_append
    {offset : Nat} {a : List Char} (h : p.run offset a = .ok ()) :
    ∃ q : Pass, q.quoting = .outside ∧ q.depth = 0 ∧
      ∀ b, p.run offset (a ++ b) = q.run (offset + Text.byteLength a) b := by
  induction a generalizing p offset with
  | nil =>
      rw [Pass.run, finish] at h
      split at h
      · contradiction
      · next hquoting =>
          split at h
          · contradiction
          · next hdepth =>
              rw [ne_eq, not_not] at hquoting hdepth
              exact ⟨p, hquoting, hdepth, fun _ => rfl⟩
  | cons c a ih =>
      rw [run_cons] at h
      obtain ⟨next, hstep, hrest⟩ := bind_eq_ok_iff.mp h
      obtain ⟨q, hquoting, hdepth, hrun⟩ := ih hrest
      refine ⟨q, hquoting, hdepth, fun b => ?_⟩
      rw [List.cons_append, run_cons, hstep, bind_ok, hrun, Text.byteLength_cons, Nat.add_assoc]

end Pass

end ContrastLint

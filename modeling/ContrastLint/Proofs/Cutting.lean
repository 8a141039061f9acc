import ContrastLint.Proofs.Pieces
import ContrastLint.Proofs.Trim
import ContrastLint.Proofs.Verdict

/-!
# Glyphs are cut into pieces

The reader of stylesheets drops blanks, searches a stop, searches the end of a
block, and starts again behind it.  This file shows that the segments it finds
are the pieces of the text, apart from a blank piece at the end.
-/

namespace ContrastLint

section Glyphs

variable {offset : Nat} {text : List Char}

theorem Quoting.dropWhile_glyphs
    (blank : Char → Bool) (hblank : ∀ c, blank c = true → Text.isWhite c = true)
    (offset : Nat) (text : List Char) :
    (Quoting.outside.glyphs offset text).dropWhile (blank ·.char) =
      Quoting.outside.glyphs (offset + Text.byteLength (text.takeWhile blank))
        (text.dropWhile blank) := by
  induction text generalizing offset with
  | nil => rfl
  | cons c text ih =>
      cases hc : blank c with
      | true =>
          have hnext := Quoting.outside_next_of_isWhite (hblank c hc)
          simp [hc, hnext, ih, Nat.add_assoc]
      | false => simp [hc]

theorem Quoting.exists_glyphs_eq_cons
    {text : List Char} (s : Quoting) (offset : Nat) (h : text ≠ []) :
    ∃ first others, s.glyphs offset text = first :: others ∧ first.offset = offset := by
  cases text with
  | nil => contradiction
  | cons c text => exact ⟨_, _, rfl, rfl⟩

theorem takeWhile_append_cons
    {p : Char → Bool} {a b : List Char} {c : Char} (hc : p c = false) :
    (a ++ c :: b).takeWhile p = a.takeWhile p := by
  induction a with
  | nil => simp [hc]
  | cons d a ih => simp [List.takeWhile_cons, ih]

theorem dropWhile_append_cons
    {p : Char → Bool} {a b : List Char} {c : Char} (hc : p c = false) :
    (a ++ c :: b).dropWhile p = a.dropWhile p ++ c :: b := by
  induction a with
  | nil => simp [hc]
  | cons d a ih =>
      rw [List.cons_append, List.dropWhile_cons, List.dropWhile_cons, ih]
      split <;> rfl

theorem Cursor.readText_dropWhile {k : Cursor} :
    start.readText (text.dropWhile Text.isAsciiWhite) = some k ↔
      start.readText text = some k := by
  have hwhite := Text.white_takeWhile_isAsciiWhite text
  have hsplit : start.readText text =
      start.readText (text.takeWhile Text.isAsciiWhite ++ text.dropWhile Text.isAsciiWhite) := by
    rw [List.takeWhile_append_dropWhile]
  rw [hsplit, readText_append, start, readText_white hwhite]
  rfl

end Glyphs

namespace Segment

variable {glyphs others text rest : List Glyph} {first stop : Glyph}

theorem first?_of_blank (hstart : glyphs.dropWhile (Text.isAsciiWhite ·.char) = []) :
    first? glyphs = .ok none := by
  simp [first?, hstart]

theorem first?_of_fault
    {fault : Fault} (hstart : glyphs.dropWhile (Text.isAsciiWhite ·.char) = first :: others)
    (hstop : splitAtStop 0 (first :: others) = .error fault) : first? glyphs = .error fault := by
  simp [first?, hstart, hstop]

theorem first?_of_end
    (hstart : glyphs.dropWhile (Text.isAsciiWhite ·.char) = first :: others)
    (hstop : splitAtStop 0 (first :: others) = .ok (text, [])) :
    first? glyphs = .ok (some (⟨first.offset, text, none⟩, [])) := by
  simp [first?, hstart, hstop]

theorem first?_of_close
    (hstart : glyphs.dropWhile (Text.isAsciiWhite ·.char) = first :: others)
    (hstop : splitAtStop 0 (first :: others) = .ok (text, stop :: rest))
    (hsign : stop.sign = .closeBrace) :
    first? glyphs = .error ⟨.unexpectedClose, stop.offset⟩ := by
  simp [first?, hstart, hstop, hsign]

theorem first?_of_open
    (hstart : glyphs.dropWhile (Text.isAsciiWhite ·.char) = first :: others)
    (hstop : splitAtStop 0 (first :: others) = .ok (text, stop :: rest))
    (hsign : stop.sign = .openBrace) :
    first? glyphs = splitBlock stop.offset 0 rest >>= fun p =>
      .ok (some (⟨first.offset, text, some p.1⟩, p.2)) := by
  cases hblock : splitBlock stop.offset 0 rest <;>
    simp [first?, hstart, hstop, hsign, hblock, bind_ok, bind_error]

theorem first?_of_semicolon
    (hstart : glyphs.dropWhile (Text.isAsciiWhite ·.char) = first :: others)
    (hstop : splitAtStop 0 (first :: others) = .ok (text, stop :: rest))
    (hsign : stop.sign = .semicolon) :
    first? glyphs = .ok (some (⟨first.offset, text, none⟩, rest)) := by
  simp [first?, hstart, hstop, hsign]

theorem cut_of_error {fault : Fault} (h : first? glyphs = .error fault) :
    cut glyphs = .error fault := by
  fun_cases cut glyphs <;> simp_all

theorem cut_of_none (h : first? glyphs = .ok none) : cut glyphs = .ok [] := by
  fun_cases cut glyphs <;> simp_all

theorem cut_of_some {segment : Segment} (h : first? glyphs = .ok (some (segment, rest))) :
    cut glyphs = (segment :: ·) <$> cut rest := by
  fun_cases cut glyphs <;> simp_all

@[simp] theorem cut_nil : cut [] = .ok [] :=
  cut_of_none (first?_of_blank rfl)

theorem cut_of_open
    (hstart : glyphs.dropWhile (Text.isAsciiWhite ·.char) = first :: others)
    (hstop : splitAtStop 0 (first :: others) = .ok (text, stop :: rest))
    (hsign : stop.sign = .openBrace) :
    cut glyphs = splitBlock stop.offset 0 rest >>= fun p =>
      (⟨first.offset, text, some p.1⟩ :: ·) <$> cut p.2 := by
  have hfirst := first?_of_open hstart hstop hsign
  cases hblock : splitBlock stop.offset 0 rest with
  | error fault =>
      rw [hblock, bind_error] at hfirst
      rw [cut_of_error hfirst, bind_error]
  | ok p =>
      rw [hblock, bind_ok] at hfirst
      rw [cut_of_some hfirst, bind_ok]

theorem splitAtStop_of_stops
    {k : Cursor} {c : Char} {a b : List Char} (offset : Nat)
    (hread : Cursor.start.readText a = some k) (hstops : k.Stops c) :
    splitAtStop 0 (Quoting.outside.glyphs offset (a ++ c :: b)) =
      .ok (Quoting.outside.glyphs offset a,
        ⟨offset + Text.byteLength a, c, .ofChar c⟩ ::
          Quoting.outside.glyphs (offset + Text.byteLength a + 1) b) := by
  rcases hstops.cases with ⟨hquoting, hc⟩
  have hnext : Quoting.outside.next c = .outside := by
    rcases hc with rfl | rfl | ⟨rfl, -⟩ <;> rfl
  have hsize : c.utf8Size = 1 := by
    rcases hc with rfl | rfl | ⟨rfl, -⟩ <;> rfl
  have hsplit := splitAtStop_glyphs (b := c :: b) offset hread (by simpa using hstops)
  rw [hquoting, Quoting.glyphs_cons, hnext, hsize] at hsplit
  exact hsplit

/-- Where a text has a stop, its glyphs without the first blanks are split. -/
theorem exists_split_of_stops
    {k : Cursor} {c : Char} {a b : List Char} (offset : Nat)
    (hread : Cursor.start.readText a = some k) (hstops : k.Stops c) :
    ∃ first others,
      (Quoting.outside.glyphs offset (a ++ c :: b)).dropWhile (Text.isAsciiWhite ·.char) =
        first :: others ∧
      first.offset = offset + Text.byteLength (a.takeWhile Text.isAsciiWhite) ∧
      splitAtStop 0 (first :: others) =
        .ok (Quoting.outside.glyphs (offset + Text.byteLength (a.takeWhile Text.isAsciiWhite))
            (a.dropWhile Text.isAsciiWhite),
          ⟨offset + Text.byteLength a, c, .ofChar c⟩ ::
            Quoting.outside.glyphs (offset + Text.byteLength a + 1) b) := by
  have hblank : Text.isAsciiWhite c = false := by
    rcases hstops.cases.2 with rfl | rfl | ⟨rfl, -⟩ <;> decide
  have hlength : offset + Text.byteLength (a.takeWhile Text.isAsciiWhite) +
      Text.byteLength (a.dropWhile Text.isAsciiWhite) = offset + Text.byteLength a := by
    rw [Nat.add_assoc, ← Text.byteLength_append, List.takeWhile_append_dropWhile]
  have hdrop := Quoting.dropWhile_glyphs Text.isAsciiWhite
    (fun _ => Text.isWhite_of_isAsciiWhite) offset (a ++ c :: b)
  rw [takeWhile_append_cons hblank, dropWhile_append_cons hblank] at hdrop
  have hsplit := splitAtStop_of_stops (b := b)
    (offset + Text.byteLength (a.takeWhile Text.isAsciiWhite))
    (Cursor.readText_dropWhile.mpr hread) hstops
  rw [hlength] at hsplit
  obtain ⟨first, others, hfirst, hoffset⟩ := Quoting.outside.exists_glyphs_eq_cons
    (offset + Text.byteLength (a.takeWhile Text.isAsciiWhite))
    (List.append_ne_nil_of_right_ne_nil (a.dropWhile Text.isAsciiWhite) (List.cons_ne_nil c b))
  rw [hfirst] at hdrop hsplit
  exact ⟨first, others, hdrop, hoffset, hsplit⟩

end Segment

namespace Piece

def segment (p : Piece) : Segment :=
  { offset := p.start
    text := Quoting.outside.glyphs p.start (p.text.dropWhile Text.isAsciiWhite)
    block := p.ending.body?.map (Quoting.outside.glyphs p.bodyOffset) }

/-- Only a blank piece at the end of the text is cut into no segment. -/
def segment? (p : Piece) : Option Segment :=
  if p.ending = .last ∧ p.text.dropWhile Text.isAsciiWhite = [] then none else some p.segment

theorem segment?_of_ne_last {p : Piece} (h : p.ending ≠ .last) : p.segment? = some p.segment := by
  simp [segment?, h]

end Piece

namespace Segment

variable {offset : Nat} {text : List Char}

theorem cut_last (hproper : Piece.Proper ⟨offset, text, .last⟩) :
    cut (Quoting.outside.glyphs offset text) =
      .ok (Piece.segment? ⟨offset, text, .last⟩).toList := by
  rcases hproper with ⟨depth, hread, -⟩
  have hdrop := Quoting.dropWhile_glyphs Text.isAsciiWhite
    (fun _ => Text.isWhite_of_isAsciiWhite) offset text
  by_cases hblank : text.dropWhile Text.isAsciiWhite = []
  · rw [hblank] at hdrop
    rw [cut_of_none (first?_of_blank hdrop)]
    simp [Piece.segment?, hblank]
  · obtain ⟨first, others, hfirst, hoffset⟩ := Quoting.outside.exists_glyphs_eq_cons
      (offset + Text.byteLength (text.takeWhile Text.isAsciiWhite)) hblank
    have hsplit := splitAtStop_glyphs (b := [])
      (offset + Text.byteLength (text.takeWhile Text.isAsciiWhite))
      (Cursor.readText_dropWhile.mpr hread) (by simp)
    have hend : splitAtStop 0 (first :: others) = .ok (first :: others, []) := by
      rw [List.append_nil, show Cursor.start.quoting = .outside from rfl, hfirst] at hsplit
      exact hsplit
    rw [hfirst] at hdrop
    rw [cut_of_some (first?_of_end hdrop hend), cut_nil]
    simp [Piece.segment?, hblank, Piece.segment, Piece.start, hoffset, hfirst, Ending.body?]

theorem cut_semicolon
    (hproper : Piece.Proper ⟨offset, text, .semicolon⟩) (rest : List Char) :
    cut (Quoting.outside.glyphs offset (text ++ ';' :: rest)) =
      ((Piece.segment ⟨offset, text, .semicolon⟩) :: ·) <$>
        cut (Quoting.outside.glyphs (offset + Text.byteLength text + 1) rest) := by
  rcases hproper with ⟨depth, hread, hfits⟩
  have hstops : Cursor.Stops ⟨.outside, depth⟩ ';' := .inr (.inr ⟨rfl, hfits⟩)
  obtain ⟨first, others, hdrop, hoffset, hsplit⟩ :=
    exists_split_of_stops (b := rest) offset hread hstops
  rw [cut_of_some (first?_of_semicolon hdrop hsplit rfl), hoffset]
  rfl

theorem cut_open
    {depth : Nat} (hread : Cursor.start.readText text = some ⟨.outside, depth⟩)
    (rest : List Char) :
    cut (Quoting.outside.glyphs offset (text ++ '{' :: rest)) =
      splitBlock (offset + Text.byteLength text) 0
          (Quoting.outside.glyphs (offset + Text.byteLength text + 1) rest) >>= fun p =>
        (⟨offset + Text.byteLength (text.takeWhile Text.isAsciiWhite),
          Quoting.outside.glyphs (offset + Text.byteLength (text.takeWhile Text.isAsciiWhite))
            (text.dropWhile Text.isAsciiWhite), some p.1⟩ :: ·) <$> cut p.2 := by
  have hstops : Cursor.Stops ⟨.outside, depth⟩ '{' := .inl rfl
  obtain ⟨first, others, hdrop, hoffset, hsplit⟩ :=
    exists_split_of_stops (b := rest) offset hread hstops
  rw [cut_of_open hdrop hsplit rfl, hoffset]

theorem cut_block
    {body : List Char} (hproper : Piece.Proper ⟨offset, text, .block body⟩) (rest : List Char) :
    cut (Quoting.outside.glyphs offset (text ++ '{' :: (body ++ '}' :: rest))) =
      ((Piece.segment ⟨offset, text, .block body⟩) :: ·) <$>
        cut (Quoting.outside.glyphs
          (offset + Text.byteLength text + 1 + Text.byteLength body + 1) rest) := by
  rcases hproper with ⟨depth, hread, hfits⟩
  have hsearch : splitBlock (offset + Text.byteLength text) 0
      (Quoting.outside.glyphs (offset + Text.byteLength text + 1) (body ++ '}' :: rest)) =
        .ok (Quoting.outside.glyphs (offset + Text.byteLength text + 1) body,
          Quoting.outside.glyphs
            (offset + Text.byteLength text + 1 + Text.byteLength body + 1) rest) :=
    splitBlock_glyphs _ hfits
  rw [cut_open hread, hsearch, bind_ok]
  rfl

/-- The pieces of a text are the segments that its glyphs are cut into. -/
theorem cut_of_partition
    {pieces : List Piece} (h : Partition offset text pieces) :
    cut (Quoting.outside.glyphs offset text) = .ok (pieces.filterMap Piece.segment?) := by
  induction h with
  | last hproper =>
      rw [cut_last hproper]
      cases hsegment : Piece.segment? _ <;> simp [hsegment]
  | semicolon hproper _ ih =>
      rw [cut_semicolon hproper, ih, List.filterMap_cons, Piece.segment?_of_ne_last (by simp)]
      rfl
  | block hproper _ ih =>
      rw [cut_block hproper, ih, List.filterMap_cons, Piece.segment?_of_ne_last (by simp)]
      rfl

theorem exists_fault_of_stuck
    (hstuck : Stuck offset text) (hclosed : Quoting.outside.after text = .outside) :
    ∃ fault, cut (Quoting.outside.glyphs offset text) = .error fault := by
  induction hstuck with
  | string hread hopen =>
      have hquoting := Cursor.quoting_of_readText hread
      exact absurd (hquoting.trans hclosed) hopen
  | @close offset depth text rest hread =>
      have hstops : Cursor.Stops ⟨.outside, depth⟩ '}' := .inr (.inl rfl)
      obtain ⟨first, others, hdrop, -, hsplit⟩ :=
        exists_split_of_stops (b := rest) offset hread hstops
      exact ⟨_, cut_of_error (first?_of_close hdrop hsplit rfl)⟩
  | @block offset depth text body k hread hbody =>
      have hsearch : splitBlock (offset + Text.byteLength text) 0
          (Quoting.outside.glyphs (offset + Text.byteLength text + 1) body) =
            .error ⟨.unclosedBlock, offset + Text.byteLength text⟩ :=
        splitBlock_glyphs_of_readBlock _ hbody
      rw [cut_open hread, hsearch]
      exact ⟨_, rfl⟩
  | afterSemicolon hproper _ ih =>
      have htext := hproper.after_text
      obtain ⟨fault, hfault⟩ := ih (by simpa [htext] using hclosed)
      rw [cut_semicolon hproper, hfault]
      exact ⟨fault, rfl⟩
  | afterBlock hproper _ ih =>
      have htext := hproper.after_text
      have hbody := hproper.after_body
      obtain ⟨fault, hfault⟩ := ih (by simpa [htext, hbody] using hclosed)
      rw [cut_block hproper, hfault]
      exact ⟨fault, rfl⟩

theorem exists_partition
    {segments : List Segment} (hclosed : Quoting.outside.after text = .outside)
    (hcut : cut (Quoting.outside.glyphs offset text) = .ok segments) :
    ∃ pieces, Partition offset text pieces := by
  rcases exists_partition_or_stuck offset text with hpieces | hstuck
  · exact hpieces
  · obtain ⟨fault, hfault⟩ := exists_fault_of_stuck hstuck hclosed
    rw [hfault] at hcut
    contradiction

end Segment

end ContrastLint

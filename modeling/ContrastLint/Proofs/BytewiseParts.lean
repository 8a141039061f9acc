import ContrastLint.Proofs.Readers
import ContrastLint.Proofs.Assignments
import ContrastLint.Proofs.AtRules
import ContrastLint.Proofs.Faults
import ContrastLint.Proofs.Strides

/-!
# At-rules and declarations over bytes

The parts of a segment are told apart by slices: before and after the character
that ends the name of an at-rule, around the first colon, and before the mark at
the end of a value.  No slice fails, and the parts are those that the reader
over glyphs finds.
-/

namespace ContrastLint.Bytewise

variable {css text value : List Char} {start : Nat}

/-! ## Searches -/

section Find

variable {p : Char → Bool}

theorem find?_of_forall (h : ∀ c ∈ text, p c = false) : find? p text = none := by
  induction text with
  | nil => rfl
  | cons c text ih =>
      rcases List.forall_mem_cons.mp h with ⟨hc, htext⟩
      rw [find?, hc, if_neg Bool.false_ne_true, ih htext]
      rfl

theorem find?_append
    {front : List Char} {c : Char} (hfront : ∀ d ∈ front, p d = false) (hc : p c = true)
    (back : List Char) : find? p (front ++ c :: back) = some (Text.byteLength front) := by
  induction front with
  | nil => exact if_pos hc
  | cons d front ih =>
      rcases List.forall_mem_cons.mp hfront with ⟨hd, hmore⟩
      rw [List.cons_append, find?, hd, if_neg Bool.false_ne_true, ih hmore]
      rfl

end Find

/-! ## At-rules -/

theorem nameAndParams_eq (text : List Char) :
    nameAndParams text =
      .ok (text.takeWhile (!AtRule.endsName ·),
        Text.trim (text.dropWhile (!AtRule.endsName ·))) := by
  have hends : (fun c => Text.isWhite c || c == '(') = AtRule.endsName := rfl
  have hname : ∀ c ∈ text.takeWhile (!AtRule.endsName ·), AtRule.endsName c = false := by
    intro c hc
    simpa using List.mem_takeWhile_imp hc
  have hsplit := List.takeWhile_append_dropWhile (p := (!AtRule.endsName ·)) (l := text)
  have hat : At text 0 (text.takeWhile (!AtRule.endsName ·) ++
      text.dropWhile (!AtRule.endsName ·)) := by
    rw [hsplit]
    exact at_zero text
  have hslice := slice_of_at (ε := Fault) hat
  have hfrom := sliceFrom_of_at (ε := Fault) hat.append
  rw [Nat.zero_add] at hslice hfrom
  rw [nameAndParams, hends]
  cases hdrop : text.dropWhile (!AtRule.endsName ·) with
  | nil =>
      rw [hdrop, List.append_nil] at hsplit
      rw [hsplit] at hname ⊢
      rw [find?_of_forall hname]
      rfl
  | cons c rest =>
      have hc := List.head?_dropWhile_not (!AtRule.endsName ·) text
      rw [hdrop] at hsplit hc hfrom
      have hfind := find?_append hname (by simpa using hc) rest
      rw [hsplit] at hfind
      rw [hfind]
      simp only [hslice, hfrom, bind_ok]
      rfl

theorem gives_atRule
    (text : List Char) (block : Option (List Char)) (hstart : Text.Boundary css start) :
    Gives css (atRule text block start) [start]
      (.ok ((AtRule.read text block start).map (Position.locate css))) := by
  rw [atRule, nameAndParams_eq, AtRule.read_eq, checked_bind]
  exact (gives_position hstart).bind_pure rfl

/-! ## Marks -/

theorem exists_mark_of_isMark (h : isMark text = true) :
    ∃ mark after, Assignment.Mark mark ∧ Text.White after ∧ text = mark ++ after := by
  unfold isMark at h
  split at h
  · next rest hrest =>
      obtain ⟨hword, hafter⟩ := Bool.and_eq_true_iff.mp h
      refine ⟨text.takeWhile Text.isWhite ++
          '!' :: (rest.takeWhile Text.isWhite ++ (rest.dropWhile Text.isWhite).take 9),
        (rest.dropWhile Text.isWhite).drop 9,
        ⟨_, _, _, Text.white_takeWhile text, Text.white_takeWhile rest, by simpa using hword, rfl⟩,
        List.all_eq_true.mp hafter, ?_⟩
      simp [← hrest]
  · contradiction

theorem isMark_of_mark (h : Assignment.Mark text) : isMark text = true := by
  rcases h with ⟨before, inside, word, hbefore, hinside, hword, rfl⟩
  have hlength := Assignment.length_of_map_toLower hword
  rw [isMark, Text.dropWhile_isWhite_append hbefore (by simp [Text.isWhite])]
  simp only [Text.dropWhile_isWhite_append hinside (Assignment.head?_of_important hword)]
  rw [List.take_of_length_le (by rw [hlength]; decide),
    List.drop_eq_nil_of_le (by rw [hlength]; decide), hword]
  rfl

theorem findMark?_cases (text : List Char) :
    (findMark? text = none ∧ ∀ front back, text = front ++ back → isMark back = false) ∨
      ∃ front back, text = front ++ back ∧ findMark? text = some (Text.byteLength front) ∧
        isMark back = true := by
  induction text with
  | nil =>
      refine .inl ⟨rfl, ?_⟩
      intro front back hnil
      obtain ⟨-, rfl⟩ := List.append_eq_nil_iff.mp hnil.symm
      rfl
  | cons c text ih =>
      cases hmark : isMark (c :: text) with
      | true => exact .inr ⟨[], c :: text, rfl, by simp [findMark?, hmark], hmark⟩
      | false =>
          rcases ih with ⟨hfind, hnone⟩ | ⟨front, back, rfl, hfind, hback⟩
          · refine .inl ⟨by simp [findMark?, hmark, hfind], ?_⟩
            intro front back hsplit
            cases front with
            | nil =>
                obtain rfl : c :: text = back := hsplit
                exact hmark
            | cons d front => exact hnone front back (List.cons.inj hsplit).2
          · exact .inr ⟨c :: front, back, rfl, by simp [findMark?, hmark, hfind], hback⟩

theorem eq_nil_of_trimmed {a b : List Char} (h : Text.Trimmed (a ++ b)) (hb : Text.White b) :
    b = [] := by
  by_contra hne
  have hlast : b.getLast hne ∈ (a ++ b).getLast? := by
    simp [List.getLast?_append, List.getLast?_eq_some_getLast hne]
  have hwhite := hb _ (List.getLast_mem hne)
  rw [h.last _ hlast] at hwhite
  contradiction

theorem importantStem?_of_isMark
    {front back : List Char} (hvalue : Text.Trimmed (front ++ back)) (h : isMark back = true) :
    Assignment.importantStem? (front ++ back) = some (Text.trimEnd front) := by
  obtain ⟨mark, after, hmark, hafter, rfl⟩ := exists_mark_of_isMark h
  rw [← List.append_assoc] at hvalue ⊢
  obtain rfl := eq_nil_of_trimmed hvalue hafter
  rw [List.append_nil]
  exact Assignment.importantStem?_append_mark front hmark

theorem importantStem?_eq_none
    (h : ∀ front back, text = front ++ back → isMark back = false) :
    Assignment.importantStem? text = none := by
  cases hstem : Assignment.importantStem? text with
  | none => rfl
  | some stem =>
      obtain ⟨mark, hmark, hsplit⟩ := Assignment.mark_of_importantStem? hstem
      have hnone := h stem mark hsplit
      rw [isMark_of_mark hmark] at hnone
      contradiction

/-! ## Assignments -/

theorem findMark?_of_trimmed (hvalue : Text.Trimmed value) :
    (findMark? value = none ∧ Assignment.importantStem? value = none) ∨
      ∃ front back, value = front ++ back ∧ findMark? value = some (Text.byteLength front) ∧
        Assignment.importantStem? value = some (Text.trimEnd front) := by
  rcases findMark?_cases value with ⟨hfind, hnone⟩ | ⟨front, back, rfl, hfind, hback⟩
  · exact .inl ⟨hfind, importantStem?_eq_none hnone⟩
  · exact .inr ⟨front, back, rfl, hfind, importantStem?_of_isMark hvalue hback⟩

theorem assignment?_eq (raw : List Char) : assignment? raw = .ok (Assignment.read? raw) := by
  have hother (text : List Char) (htext : ':' ∉ text) : ∀ c ∈ text, (c == ':') = false := by
    intro c hc
    rw [beq_eq_false_iff_ne]
    rintro rfl
    exact htext hc
  rcases Assignment.exists_first_colon raw with hnone | ⟨left, right, hleft, rfl⟩
  · rw [assignment?, find?_of_forall (hother raw hnone), Assignment.read?_of_notMem hnone]
    rfl
  · have hcolon : ':'.utf8Size = 1 := rfl
    have hat := at_zero (left ++ ':' :: right)
    have hslice := slice_of_at (ε := Fault) hat
    have hfrom := sliceFrom_of_at (ε := Fault) hat.append.next
    rw [hcolon, Nat.zero_add] at hfrom
    rw [Nat.zero_add] at hslice
    rw [assignment?, find?_append (hother left hleft) rfl, Assignment.read?_append hleft]
    simp only [hslice, hfrom, bind_ok]
    by_cases hname : Text.trim left = []
    · rw [if_pos hname, hname]
      rfl
    · have hnonempty : (Text.trim left).isEmpty = false := by
        simpa using hname
      rw [if_neg hname, hnonempty]
      rcases findMark?_of_trimmed (Text.trimmed_trim right) with
        ⟨hfind, hstem⟩ | ⟨front, back, hvalue, hfind, hstem⟩
      · simp only [hfind, hstem]
        rfl
      · have hmark := slice_of_at (ε := Fault) (at_zero (front ++ back))
        rw [Nat.zero_add, ← hvalue] at hmark
        simp only [hfind, hstem, hmark, bind_ok]
        rfl

/-! ## Declarations -/

theorem ofGlyphs?_ofCharsFrom (start : Nat) (text : List Char) :
    Declaration.ofGlyphs? (Glyph.ofCharsFrom none start text) =
      (Assignment.read? text).map fun a =>
        { toAssignment := a, place := start + Text.byteLength (text.takeWhile Text.isWhite) } := by
  unfold Declaration.ofGlyphs?
  rw [Glyph.chars_ofCharsFrom]
  cases ha : Assignment.read? text with
  | none => rfl
  | some a =>
      obtain ⟨c, rest, hrest, -⟩ := Assignment.exists_first_of_read? ha
      have hdrop := Glyph.dropWhile_ofCharsFrom Text.isWhite (fun _ h => h) start text
      obtain ⟨sign, others, hfirst⟩ := Glyph.exists_ofCharsFrom_cons
        (start + Text.byteLength (text.takeWhile Text.isWhite)) c rest
      rw [hrest, hfirst] at hdrop
      rw [hdrop]
      rfl

/-- A character of the blanked text that shows stands at a boundary of the given
one. -/
theorem At.boundary
    {i : Nat} {c : Char} {rest : List Char} (h : At text i (c :: rest))
    (hblank : Comment.blank css = .ok text) (hc : Text.isAsciiWhite c = false) :
    Text.Boundary css i := by
  obtain ⟨before, rfl, rfl⟩ := h
  have hshows : c ≠ ' ' ∧ c ≠ '\n' := by
    constructor
    · rintro rfl
      contradiction
    · rintro rfl
      contradiction
  exact Comment.boundary_of_shows hblank ⟨before, c, rest, rfl, by rw [Nat.zero_add], hshows⟩

theorem lead_eq (raw : List Char) :
    (subtract (bytes raw).length (bytes (Text.trimStart raw)).length : Checked Fault Nat) =
      .ok (Text.byteLength (raw.takeWhile Text.isWhite)) := by
  have hsplit : Text.byteLength raw = Text.byteLength (raw.takeWhile Text.isWhite) +
      Text.byteLength (Text.trimStart raw) := by
    rw [← Text.byteLength_append, Text.trimStart, List.takeWhile_append_dropWhile]
  rw [length_bytes, length_bytes, subtract_of_le (by omega), hsplit, Nat.add_sub_cancel]

theorem gives_declaration_of_slice
    {raw : List Char} {stop : Nat}
    (hslice : (slice text start stop : Checked Fault (List Char)) = .ok raw)
    (hplace : ∀ a, Assignment.read? raw = some a →
      Text.Boundary css (start + Text.byteLength (raw.takeWhile Text.isWhite))) :
    Gives css (declaration text start stop)
      ((Declaration.ofGlyphs? (Glyph.ofCharsFrom none start raw)).map (·.place)).toList
      (.ok ((Declaration.ofGlyphs? (Glyph.ofCharsFrom none start raw)).map
        (·.map (Position.locate css)))) := by
  rw [declaration, hslice, ofGlyphs?_ofCharsFrom, checked_bind, assignment?_eq, checked_bind]
  cases ha : Assignment.read? raw with
  | none => exact gives_pure css none
  | some a =>
      rw [lead_eq]
      exact (gives_position (hplace a ha)).bind_pure rfl

theorem gives_declaration
    {raw rest : List Char} {stop : Nat} (hblank : Comment.blank css = .ok text)
    (h : At text start (raw ++ rest)) (hstop : stop = start + Text.byteLength raw) :
    Gives css (declaration text start stop)
      ((Declaration.ofGlyphs? (Glyph.ofCharsFrom none start raw)).map (·.place)).toList
      (.ok ((Declaration.ofGlyphs? (Glyph.ofCharsFrom none start raw)).map
        (·.map (Position.locate css)))) := by
  rw [hstop]
  apply gives_declaration_of_slice (slice_of_at h)
  intro a ha
  obtain ⟨c, tail, hfirst, hc⟩ := Assignment.exists_first_of_read? ha
  have hsplit := List.takeWhile_append_dropWhile (p := Text.isWhite) (l := raw)
  rw [← hsplit, hfirst, List.append_assoc] at h
  apply At.boundary h.append hblank
  rw [Bool.eq_false_iff] at hc ⊢
  exact mt Text.isWhite_of_isAsciiWhite hc

/-- Where a declaration is read, the slice is one that is read as its assignment. -/
theorem exists_slice_of_run_declaration
    {stop : Nat} {q next : Inquiry} {d : Declaration Position}
    (h : (declaration text start stop).run.run q = (.ok (some d), next)) :
    ∃ raw, (slice text start stop : Checked Fault (List Char)) = .ok raw ∧
      Assignment.read? raw = some d.toAssignment := by
  obtain ⟨raw, middle, hraw, h⟩ := exists_of_run_bind h
  obtain ⟨read, last, hread, h⟩ := exists_of_run_bind h
  have hslice := eq_of_run_checked hraw
  have hassignment := eq_of_run_checked hread
  rw [assignment?_eq] at hassignment
  cases read with
  | none => cases h
  | some a =>
      obtain ⟨lead, _, -, h⟩ := exists_of_run_bind h
      obtain ⟨place, _, -, h⟩ := exists_of_run_bind h
      cases h
      exact ⟨raw, hslice, Except.ok.inj hassignment⟩

end ContrastLint.Bytewise

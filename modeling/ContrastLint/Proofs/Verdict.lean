import ContrastLint.Proofs.Comments
import ContrastLint.Stylesheet.Parse

/-!
# The verdict of a single pass

The reader of stylesheets scans every block several times: once to find its
end, once to cut its body into segments, and once more for each block nested
in it.  This file shows that none of this can be seen from outside.  Whether a
stylesheet is read, and which fault is found where, is decided by one pass
that counts braces and skips strings, after one pass that looks for comments.

The bridge between the two is the same count on glyphs, where a string is a
single decision.
-/

namespace ContrastLint

/-- The state of a pass over a text without comments. -/
structure Pass where
  quoting : Quoting
  /-- The quote that opened the last string. -/
  quoteAt : Nat
  depth : Nat
  /-- The brace that last took the depth from zero to one. -/
  braceAt : Nat

namespace Pass

def start : Pass := ⟨.outside, 0, 0, 0⟩

def step (p : Pass) (offset : Nat) (c : Char) : Except Fault Pass :=
  let quoting := p.quoting.next c
  if quoting = .broken then .error ⟨.unclosedString, p.quoteAt⟩
  else if p.quoting ≠ .outside then .ok { p with quoting }
  else if quoting ≠ .outside then .ok { p with quoting, quoteAt := offset }
  else if c = '{' then
    .ok { p with depth := p.depth + 1, braceAt := if p.depth = 0 then offset else p.braceAt }
  else if c = '}' then
    if p.depth = 0 then .error ⟨.unexpectedClose, offset⟩
    else .ok { p with depth := p.depth - 1 }
  else .ok p

def finish (p : Pass) : Except Fault Unit :=
  if p.quoting ≠ .outside then .error ⟨.unclosedString, p.quoteAt⟩
  else if p.depth ≠ 0 then .error ⟨.unclosedBlock, p.braceAt⟩
  else .ok ()

def run : Pass → Nat → List Char → Except Fault Unit
  | p, _, [] => p.finish
  | p, offset, c :: text => do (← p.step offset c).run (offset + c.utf8Size) text

end Pass

/-- The verdict on a stylesheet: first on its comments, then on its strings
and braces. -/
def verdict (css : List Char) : Except Fault Unit := do
  Pass.start.run 0 (← Comment.Pass.sheet.outcome 0 css)

/-! ## The pass over glyphs -/

/-- Counts the open braces of glyphs, up to the first fault. -/
def Glyph.balance : Nat → Nat → List Glyph → Except Fault Unit
  | 0, _, [] => .ok ()
  | _ + 1, braceAt, [] => .error ⟨.unclosedBlock, braceAt⟩
  | depth, braceAt, g :: rest =>
      match g.sign with
      | .unclosedQuote => .error ⟨.unclosedString, g.offset⟩
      | .openBrace => balance (depth + 1) (if depth = 0 then g.offset else braceAt) rest
      | .closeBrace =>
          if depth = 0 then .error ⟨.unexpectedClose, g.offset⟩
          else balance (depth - 1) braceAt rest
      | _ => balance depth braceAt rest

theorem Glyph.balance_cons_ordinary
    {depth braceAt : Nat} {g : Glyph} {rest : List Glyph} (hg : g.sign = .ordinary) :
    balance depth braceAt (g :: rest) = balance depth braceAt rest := by
  simp [balance, hg]

namespace Pass

theorem run_cons (p : Pass) (offset : Nat) (c : Char) (text : List Char) :
    p.run offset (c :: text) =
      p.step offset c >>= fun p => p.run (offset + c.utf8Size) text := rfl

variable {quoteAt depth braceAt offset : Nat} {text : List Char}

theorem run_cons_inside
    {q : Quote} {c : Char} (hline : (Quoting.inside q).next c ≠ .broken) :
    (Pass.mk (.inside q) quoteAt depth braceAt).run offset (c :: text) =
      (Pass.mk ((Quoting.inside q).next c) quoteAt depth braceAt).run
        (offset + c.utf8Size) text := by
  simp [run_cons, step, hline, bind_ok]

theorem run_cons_escaped {q : Quote} {c : Char} :
    (Pass.mk (.inside q) quoteAt depth braceAt).run offset ('\\' :: c :: text) =
      (Pass.mk (.inside q) quoteAt depth braceAt).run (offset + 1 + c.utf8Size) text := by
  rw [run_cons_inside (by simp [Quoting.next])]
  simp [Quoting.next, run_cons, step, bind_ok]
  rfl

theorem run_unclosed
    {q : Quote} (h : Glyph.closes q.char text = false) :
    (Pass.mk (.inside q) quoteAt depth braceAt).run offset text =
      .error ⟨.unclosedString, quoteAt⟩ := by
  fun_induction Glyph.closes q.char text generalizing offset with
  | case1 => rfl
  | case2 c rest ih => rw [run_cons_escaped, ih h]
  | case3 rest _ => simp [run_cons, step, Quoting.next, bind_error]
  | case4 c rest hescape hline ih =>
      have hc : c ≠ q.char ∧ Glyph.closes q.char rest = false := by simpa using h
      by_cases hslash : c = '\\'
      · cases rest with
        | nil => simp [hslash, step, Quoting.next, bind_ok, run, finish]
        | cons d text => exact (hescape d text hslash rfl).elim
      · have hnext : (Quoting.inside q).next c = .inside q := by
          simp [Quoting.next, hslash, hline, hc.1]
        rw [run_cons_inside (by simp [hnext]), hnext, ih hc.2]

/-- A character outside strings counts as its glyph does. -/
theorem run_cons_outside
    {c : Char} {glyphs : List Glyph} (hnext : Quoting.outside.next c = .outside)
    (hrest : ∀ depth braceAt,
      (Pass.mk .outside quoteAt depth braceAt).run (offset + c.utf8Size) text =
        Glyph.balance depth braceAt glyphs) :
    (Pass.mk .outside quoteAt depth braceAt).run offset (c :: text) =
      Glyph.balance depth braceAt (⟨offset, c, .ofChar c⟩ :: glyphs) := by
  rw [run_cons, step, hnext]
  cases hsign : Sign.ofChar c with
  | openBrace =>
      have hc := Sign.ofChar_eq_openBrace_iff.mp hsign
      subst hc
      simpa [Glyph.balance, bind_ok, Sign.ofChar] using hrest _ _
  | closeBrace =>
      have hc := Sign.ofChar_eq_closeBrace_iff.mp hsign
      subst hc
      cases depth with
      | zero => simp [Glyph.balance, bind_error]
      | succ depth => simpa [Glyph.balance, bind_ok, Sign.ofChar] using hrest _ _
  | unclosedQuote => exact absurd hsign (Sign.ofChar_ne_unclosedQuote c)
  | _ =>
      have hopen : c ≠ '{' := by
        rintro rfl
        contradiction
      have hclose : c ≠ '}' := by
        rintro rfl
        contradiction
      simp [hopen, hclose, Glyph.balance, bind_ok, hrest]

/-- The pass over a text is the count over its glyphs. -/
theorem run_eq_balance
    {quote? : Option Char} {s : Quoting} (hs : Quoting.Reads quote? s)
    (hopen : ∀ q, quote? = some q → Glyph.closes q text = true) :
    (Pass.mk s quoteAt depth braceAt).run offset text =
      Glyph.balance depth braceAt (Glyph.ofCharsFrom quote? offset text) := by
  -- The look-ahead of glyphs enters a string only if the pass will leave it.
  fun_induction Glyph.ofCharsFrom quote? offset text
      generalizing s quoteAt depth braceAt with
  | case1 quote? offset =>
      cases hs with
      | outside => cases depth <;> rfl
      | inside q => simp [Glyph.closes] at hopen
  | case2 offset c rest hquote hcloses ih =>
      rcases hs.next_quote hquote with ⟨q, rfl, hnext⟩
      cases hs
      have hrest : (Pass.mk (.inside q) offset depth braceAt).run
          (offset + q.char.utf8Size) rest =
            Glyph.balance depth braceAt
              (Glyph.ofCharsFrom (some q.char) (offset + q.char.utf8Size) rest) :=
        ih (.inside q) (by simpa using hcloses)
      simp [run_cons, step, hnext, bind_ok, Glyph.balance, hrest]
  | case3 offset c rest hquote hcloses _ =>
      rcases hs.next_quote hquote with ⟨q, rfl, hnext⟩
      cases hs
      have hrest : (Pass.mk (.inside q) offset depth braceAt).run
          (offset + q.char.utf8Size) rest = .error ⟨.unclosedString, offset⟩ :=
        run_unclosed (by simpa using hcloses)
      simp [run_cons, step, hnext, bind_ok, Glyph.balance, hrest]
  | case4 offset c rest hquote ih =>
      have hnext := hs.next_other (Bool.eq_false_iff.mpr hquote)
      cases hs
      exact run_cons_outside hnext fun _ _ => ih .outside (by simp)
  | case5 quote offset c rest ih =>
      cases hs with
      | inside q =>
          rw [run_cons_escaped, ih (.inside q) (by simpa [Glyph.closes] using hopen)]
          rw [Glyph.balance_cons_ordinary rfl, Glyph.balance_cons_ordinary rfl]
  | case6 quote offset c rest hescape ih =>
      cases hs with
      | inside q =>
          rcases Quoting.closes_cons hescape (hopen _ rfl) with ⟨hslash, hline, hrest⟩
          have hread := Quoting.Reads.next_inside (q := q) hslash hline
          rw [run_cons_inside hread.ne_broken, Glyph.balance_cons_ordinary rfl]
          exact ih hread hrest

end Pass

/-! ## The segments of glyphs -/

/-- No blank has a sign, as is the case for the glyphs of a text. -/
def Glyph.BlanksOrdinary (glyphs : List Glyph) : Prop :=
  ∀ g ∈ glyphs, Text.isAsciiWhite g.char = true → g.sign = .ordinary

theorem Glyph.blanksOrdinary_cons {g : Glyph} {glyphs : List Glyph} :
    Glyph.BlanksOrdinary (g :: glyphs) ↔
      (Text.isAsciiWhite g.char = true → g.sign = .ordinary) ∧ Glyph.BlanksOrdinary glyphs :=
  List.forall_mem_cons

theorem Glyph.BlanksOrdinary.of_subset
    {few many : List Glyph} (h : Glyph.BlanksOrdinary many) (hsub : few ⊆ many) :
    Glyph.BlanksOrdinary few :=
  fun g hg => h g (hsub hg)

namespace Segment

variable {glyphs text block rest : List Glyph} {fault : Fault}

theorem splitAtStop_eq_append
    {parens : Nat} (h : splitAtStop parens glyphs = .ok (text, rest)) :
    glyphs = text ++ rest := by
  induction glyphs generalizing parens text rest with
  | nil =>
      cases h
      rfl
  | cons g glyphs ih =>
      cases stopStep_of_splitAtStop h with
      | stop => rfl
      | pass _ _ hrest =>
          rw [ih hrest]
          rfl

theorem splitBlock_eq_append
    {opener depth : Nat} (h : splitBlock opener depth glyphs = .ok (block, rest)) :
    ∃ close, glyphs = block ++ close :: rest := by
  induction glyphs generalizing depth block rest with
  | nil => contradiction
  | cons g glyphs ih =>
      cases blockStep_of_splitBlock h with
      | close => exact ⟨g, rfl⟩
      | pass _ _ hrest =>
          obtain ⟨close, rfl⟩ := ih hrest
          exact ⟨close, rfl⟩

/-- The count over glyphs is the search for a stop and then the count over
what follows, since the search passes no brace. -/
theorem balance_eq_splitAtStop (parens depth braceAt : Nat) (glyphs : List Glyph) :
    Glyph.balance depth braceAt glyphs =
      splitAtStop parens glyphs >>= fun p => Glyph.balance depth braceAt p.2 := by
  induction glyphs generalizing parens with
  | nil => rfl
  | cons g glyphs ih =>
      rw [splitAtStop]
      split
      · next hquote => simp [Glyph.balance, hquote, bind_error]
      · next hquote =>
          split
          · rfl
          · next hstop =>
              have hbalance : Glyph.balance depth braceAt (g :: glyphs) =
                  Glyph.balance depth braceAt glyphs := by
                cases hsign : g.sign <;> simp_all [Glyph.balance]
              rw [hbalance, ih (g.sign.parens parens)]
              cases splitAtStop (g.sign.parens parens) glyphs <;> rfl

theorem balance_eq_splitBlock (opener depth : Nat) (glyphs : List Glyph) :
    Glyph.balance (depth + 1) opener glyphs =
      splitBlock opener depth glyphs >>= fun p => Glyph.balance 0 opener p.2 := by
  induction glyphs generalizing depth with
  | nil => rfl
  | cons g glyphs ih =>
      rw [splitBlock]
      split
      · next hquote => simp [Glyph.balance, hquote, bind_error]
      · next hquote =>
          split
          · next hclose =>
              rcases hclose with ⟨hsign, rfl⟩
              simp [Glyph.balance, hsign, bind_ok]
          · next hclose =>
              have hbalance : Glyph.balance (depth + 1) opener (g :: glyphs) =
                  Glyph.balance (g.sign.braces depth + 1) opener glyphs := by
                cases hsign : g.sign with
                | unclosedQuote => exact absurd hsign hquote
                | closeBrace =>
                    have hdepth : depth ≠ 0 := fun h => hclose ⟨hsign, h⟩
                    obtain ⟨n, rfl⟩ := Nat.exists_eq_succ_of_ne_zero hdepth
                    simp [Glyph.balance, hsign, Sign.braces]
                | _ => simp [Glyph.balance, hsign, Sign.braces]
              rw [hbalance, ih (g.sign.braces depth)]
              cases splitBlock opener (g.sign.braces depth) glyphs <;> rfl

theorem balance_of_splitBlock
    {opener depth braceAt : Nat} (h : splitBlock opener depth glyphs = .ok (block, rest)) :
    Glyph.balance depth braceAt block = .ok () := by
  induction glyphs generalizing depth braceAt block rest with
  | nil => contradiction
  | cons g glyphs ih =>
      cases blockStep_of_splitBlock h with
      | close hclose =>
          rw [hclose.2]
          rfl
      | pass hquote hpass hrest =>
          cases hsign : g.sign <;>
            simp_all [Glyph.balance, Sign.braces]

theorem balance_dropWhile
    {depth braceAt : Nat} (hblank : Glyph.BlanksOrdinary glyphs) :
    Glyph.balance depth braceAt (glyphs.dropWhile (Text.isAsciiWhite ·.char)) =
      Glyph.balance depth braceAt glyphs := by
  induction glyphs with
  | nil => rfl
  | cons g glyphs ih =>
      rw [List.dropWhile_cons]
      split
      · next hg =>
          rcases Glyph.blanksOrdinary_cons.mp hblank with ⟨hhead, hrest⟩
          rw [ih hrest, Glyph.balance_cons_ordinary (hhead hg)]
      · rfl

theorem subset_of_splitAtStop
    {stop : Glyph}
    (h : splitAtStop 0 (glyphs.dropWhile (Text.isAsciiWhite ·.char)) = .ok (text, stop :: rest)) :
    rest ⊆ glyphs := by
  have hsuffix := (List.dropWhile_suffix (l := glyphs) (Text.isAsciiWhite ·.char)).subset
  rw [splitAtStop_eq_append h] at hsuffix
  intro g hg
  exact hsuffix (by simp [hg])

theorem subset_of_splitBlock
    {opener depth : Nat} (h : splitBlock opener depth glyphs = .ok (block, rest)) :
    block ⊆ glyphs ∧ rest ⊆ glyphs := by
  rcases splitBlock_eq_append h with ⟨close, rfl⟩
  constructor
  · intro g hg
    simp [hg]
  · intro g hg
    simp [hg]

/-- The block of the first segment, and what follows the segment, are among the glyphs,
and the block is balanced. -/
theorem block_of_first?
    {segment : Segment} (h : first? glyphs = .ok (some (segment, rest))) :
    rest ⊆ glyphs ∧ ∀ block, segment.block = some block →
      block ⊆ glyphs ∧ Glyph.balance 0 0 block = .ok () := by
  have hstep := firstStep glyphs
  rw [h] at hstep
  cases hstep with
  | last => exact ⟨List.nil_subset _, by simp⟩
  | block hstart hstop _ hblock =>
      have hafter := subset_of_splitAtStop (hstart ▸ hstop)
      rcases subset_of_splitBlock hblock with ⟨hsub, hrest⟩
      refine ⟨List.Subset.trans hrest hafter, ?_⟩
      rintro _ ⟨⟩
      exact ⟨List.Subset.trans hsub hafter, balance_of_splitBlock hblock⟩
  | semicolon hstart hstop => exact ⟨subset_of_splitAtStop (hstart ▸ hstop), by simp⟩

/-- The balance of glyphs is that of the first segment and then that of the rest, where
no brace is open. -/
theorem exists_balance_eq_first? (braceAt : Nat) (hblank : Glyph.BlanksOrdinary glyphs) :
    ∃ next, Glyph.balance 0 braceAt glyphs =
      first? glyphs >>= fun found => found.elim (.ok ()) fun p => Glyph.balance 0 next p.2 := by
  rw [← balance_dropWhile hblank]
  have hstep := firstStep glyphs
  generalize first? glyphs = found at hstep
  cases hstep with
  | blank hstart => exact ⟨0, by rw [hstart]; rfl⟩
  | fault hstart hstop => exact ⟨0, by rw [hstart, balance_eq_splitAtStop 0, hstop]; rfl⟩
  | last hstart hstop => exact ⟨0, by rw [hstart, balance_eq_splitAtStop 0, hstop]; rfl⟩
  | close hstart hstop hsign =>
      refine ⟨0, ?_⟩
      rw [hstart, balance_eq_splitAtStop 0, hstop]
      simp [Glyph.balance, hsign, bind_ok, bind_error]
  | unclosed hstart hstop hsign hblock =>
      refine ⟨0, ?_⟩
      rw [hstart, balance_eq_splitAtStop 0, hstop]
      simp [Glyph.balance, hsign, bind_ok, balance_eq_splitBlock, hblock, bind_error]
  | @block _ stop _ _ _ _ _ hstart hstop hsign hblock =>
      refine ⟨stop.offset, ?_⟩
      rw [hstart, balance_eq_splitAtStop 0, hstop]
      simp [Glyph.balance, hsign, bind_ok, balance_eq_splitBlock, hblock]
  | semicolon hstart hstop hsign =>
      refine ⟨braceAt, ?_⟩
      rw [hstart, balance_eq_splitAtStop 0, hstop]
      simp [Glyph.balance, hsign, bind_ok]

/-- Cutting glyphs into segments succeeds where their braces and strings are
balanced, and finds the same fault where they are not. -/
theorem cut_verdict
    {braceAt : Nat} (hblank : Glyph.BlanksOrdinary glyphs) :
    (cut glyphs).map (fun _ => ()) = Glyph.balance 0 braceAt glyphs := by
  fun_induction cut glyphs generalizing braceAt with
  | case1 glyphs fault hfirst =>
      obtain ⟨next, hbalance⟩ := exists_balance_eq_first? braceAt hblank
      rw [hbalance, hfirst]
      rfl
  | case2 glyphs hfirst =>
      obtain ⟨next, hbalance⟩ := exists_balance_eq_first? braceAt hblank
      rw [hbalance, hfirst]
      rfl
  | case3 glyphs segment rest hfirst ih =>
      obtain ⟨next, hbalance⟩ := exists_balance_eq_first? braceAt hblank
      rw [hbalance, hfirst, bind_ok, Option.elim_some,
        ← ih (hblank.of_subset (block_of_first? hfirst).1)]
      cases cut rest <;> rfl

theorem block_of_cut
    {segments : List Segment} (h : cut glyphs = .ok segments) :
    ∀ segment ∈ segments, ∀ block, segment.block = some block →
      block ⊆ glyphs ∧ Glyph.balance 0 0 block = .ok () := by
  fun_induction cut glyphs generalizing segments with
  | case1 => contradiction
  | case2 =>
      cases h
      simp
  | case3 glyphs first rest hfirst ih =>
      obtain ⟨hrest, hblocks⟩ := block_of_first? hfirst
      obtain ⟨segments, hcut, rfl⟩ := map_eq_ok_iff.mp h
      intro segment hsegment inner hinner
      rcases List.mem_cons.mp hsegment with rfl | hmem
      · exact hblocks inner hinner
      · obtain ⟨hin, hbalance⟩ := ih hcut segment hmem inner hinner
        exact ⟨List.Subset.trans hin hrest, hbalance⟩

end Segment

/-! ## The verdict on a stylesheet -/

theorem Glyph.blanksOrdinary_ofCharsFrom
    (quote? : Option Char) (offset : Nat) (text : List Char) :
    BlanksOrdinary (ofCharsFrom quote? offset text) := by
  fun_induction ofCharsFrom quote? offset text with
  | case1 => simp [BlanksOrdinary]
  | case3 offset c rest hquote _ ih =>
      refine blanksOrdinary_cons.mpr ⟨?_, ih⟩
      intro hwhite
      have hc := Text.isQuote_of_isWhite (Text.isWhite_of_isAsciiWhite hwhite)
      simp [hc] at hquote
  | case4 offset c rest _ ih =>
      refine blanksOrdinary_cons.mpr ⟨?_, ih⟩
      intro hwhite
      exact Sign.ofChar_of_isWhite (Text.isWhite_of_isAsciiWhite hwhite)
  | case5 quote offset c rest ih =>
      exact blanksOrdinary_cons.mpr
        ⟨fun _ => rfl, blanksOrdinary_cons.mpr ⟨fun _ => rfl, ih⟩⟩
  | case2 offset c rest _ _ ih | case6 quote offset c rest _ ih =>
      exact blanksOrdinary_cons.mpr ⟨fun _ => rfl, ih⟩

/-- A rule is read from every balanced body. -/
theorem Rule.exists_read
    {body : List Glyph} (selector : List Char) (place : Nat)
    (hblank : Glyph.BlanksOrdinary body) (hbody : Glyph.balance 0 0 body = .ok ()) :
    ∃ rule, Rule.read selector body place = .ok rule := by
  have hcut : (Segment.cut body).map (fun _ => ()) = Glyph.balance 0 0 body :=
    Segment.cut_verdict hblank
  rw [hbody] at hcut
  unfold Rule.read
  cases hsegments : Segment.cut body with
  | error fault => simp [hsegments, Except.map] at hcut
  | ok segments => exact ⟨_, rfl⟩

theorem Node.exists_ofSegment?
    {glyphs : List Glyph} {segments : List Segment}
    (hblank : Glyph.BlanksOrdinary glyphs) (hcut : Segment.cut glyphs = .ok segments) :
    ∀ segment ∈ segments, ∃ node, Node.ofSegment? segment = .ok node := by
  intro segment hsegment
  unfold Node.ofSegment?
  split
  · exact ⟨_, rfl⟩
  · next body hblock _ =>
      rcases Segment.block_of_cut hcut segment hsegment body hblock with ⟨hsub, hbody⟩
      obtain ⟨rule, hrule⟩ :=
        Rule.exists_read _ segment.offset (hblank.of_subset hsub) hbody
      exact ⟨some (.rule rule), map_eq_ok_iff.mpr ⟨rule, hrule, rfl⟩⟩
  · exact ⟨_, rfl⟩

theorem Document.ofBlanked_verdict (text : List Char) :
    (Document.ofBlanked text).map (fun _ => ()) = Pass.start.run 0 text := by
  have hblank : Glyph.BlanksOrdinary (Glyph.ofChars text) :=
    Glyph.blanksOrdinary_ofCharsFrom none 0 text
  have hpass : Pass.start.run 0 text = Glyph.balance 0 0 (Glyph.ofChars text) :=
    Pass.run_eq_balance .outside (by simp)
  rw [hpass, ← Segment.cut_verdict hblank]
  unfold Document.ofBlanked
  cases hcut : Segment.cut (Glyph.ofChars text) with
  | error fault => rfl
  | ok segments =>
      obtain ⟨nodes, hnodes⟩ := exists_mapM_eq_ok (Node.exists_ofSegment? hblank hcut)
      rw [bind_ok, hnodes]
      rfl

/-- A stylesheet is read if and only if a single pass finds no fault, and
otherwise the first fault of that pass is reported.  In particular a block
whose end was found can always be read. -/
theorem parse_verdict (css : String) :
    (parse css).map (fun _ => ()) =
        (verdict css.toList).mapError (Fault.locate css.toList) ∧
      ∀ (text selector : List Char) (n opener place : Nat),
        (do
          let (body, _) ← Segment.splitBlock opener 0 ((Glyph.ofChars text).drop n)
          Rule.read selector body place).isOk =
        (Segment.splitBlock opener 0 ((Glyph.ofChars text).drop n)).isOk := by
  constructor
  · have hread : (Document.read css.toList).map (fun _ => ()) = verdict css.toList := by
      unfold Document.read verdict
      rw [Comment.blank_eq_outcome]
      cases Comment.Pass.sheet.outcome 0 css.toList with
      | error fault => rfl
      | ok text => exact Document.ofBlanked_verdict text
    rw [← hread]
    unfold parse
    cases Document.read css.toList <;> rfl
  · intro text selector n opener place
    have hblank : Glyph.BlanksOrdinary ((Glyph.ofChars text).drop n) :=
      (Glyph.blanksOrdinary_ofCharsFrom none 0 text).of_subset (List.drop_subset n _)
    cases hblock : Segment.splitBlock opener 0 ((Glyph.ofChars text).drop n) with
    | error fault => rfl
    | ok p =>
        rcases p with ⟨body, rest⟩
        obtain ⟨rule, hrule⟩ := Rule.exists_read selector place
          (hblank.of_subset (Segment.subset_of_splitBlock hblock).1)
          (Segment.balance_of_splitBlock hblock)
        simp [bind_ok, hrule, Except.isOk, Except.toBool]

end ContrastLint

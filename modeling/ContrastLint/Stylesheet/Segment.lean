import ContrastLint.Stylesheet.Glyph

/-!
# Segments

A stylesheet, and likewise the body of a rule, is a sequence of segments.  A
segment ends at a semicolon outside parentheses, at a brace, or where the
text ends.  If it ends at an opening brace, the block up to the matching
closing brace belongs to it.

Parentheses are counted afresh in each segment, a closing one without
partner is ignored, and they do not matter inside blocks.  Blanks before a
segment belong to none.
-/

namespace ContrastLint

/-- A piece of text and the contents of the block that ends it, if one does.
The offset is that of the first glyph, or of the stop when the text is empty. -/
structure Segment where
  offset : Nat
  text : List Glyph
  block : Option (List Glyph)
  deriving DecidableEq, Repr

def Sign.parens : Sign → Nat → Nat
  | .openParen, depth => depth + 1
  | .closeParen, depth => depth - 1
  | _, depth => depth

def Sign.braces : Sign → Nat → Nat
  | .openBrace, depth => depth + 1
  | .closeBrace, depth => depth - 1
  | _, depth => depth

namespace Segment

/-- Splits glyphs before the first stop, with `depth` parentheses open. -/
def splitAtStop : Nat → List Glyph → Except Fault (List Glyph × List Glyph)
  | _, [] => .ok ([], [])
  | depth, g :: rest =>
      if g.sign = .unclosedQuote then .error ⟨.unclosedString, g.offset⟩
      else if g.sign = .openBrace ∨ g.sign = .closeBrace ∨ g.sign = .semicolon ∧ depth = 0 then
        .ok ([], g :: rest)
      else do
        let (text, rest) ← splitAtStop (g.sign.parens depth) rest
        return (g :: text, rest)

/-- Splits glyphs at the brace that closes a block, with `depth` further
blocks open inside it.  Returns the contents of the block and what follows
it.  The offset `opener` of the block's own brace is named if it is not
closed. -/
def splitBlock (opener : Nat) : Nat → List Glyph → Except Fault (List Glyph × List Glyph)
  | _, [] => .error ⟨.unclosedBlock, opener⟩
  | depth, g :: rest =>
      if g.sign = .unclosedQuote then .error ⟨.unclosedString, g.offset⟩
      else if g.sign = .closeBrace ∧ depth = 0 then .ok ([], rest)
      else do
        let (body, rest) ← splitBlock opener (g.sign.braces depth) rest
        return (g :: body, rest)

/-- What the search for a stop does at the first glyph of what it splits. -/
inductive StopStep (depth : Nat) (g : Glyph) (glyphs : List Glyph) :
    List Glyph → List Glyph → Prop
  | stop (hstop : g.sign = .openBrace ∨ g.sign = .closeBrace ∨ g.sign = .semicolon ∧ depth = 0) :
      StopStep depth g glyphs [] (g :: glyphs)
  | pass {text rest : List Glyph} (hquote : g.sign ≠ .unclosedQuote)
      (hpass : ¬(g.sign = .openBrace ∨ g.sign = .closeBrace ∨ g.sign = .semicolon ∧ depth = 0))
      (hrest : splitAtStop (g.sign.parens depth) glyphs = .ok (text, rest)) :
      StopStep depth g glyphs (g :: text) rest

/-- What the search for the end of a block does at the first glyph of what it splits. -/
inductive BlockStep (opener depth : Nat) (g : Glyph) (glyphs : List Glyph) :
    List Glyph → List Glyph → Prop
  | close (hclose : g.sign = .closeBrace ∧ depth = 0) : BlockStep opener depth g glyphs [] glyphs
  | pass {body rest : List Glyph} (hquote : g.sign ≠ .unclosedQuote)
      (hpass : ¬(g.sign = .closeBrace ∧ depth = 0))
      (hrest : splitBlock opener (g.sign.braces depth) glyphs = .ok (body, rest)) :
      BlockStep opener depth g glyphs (g :: body) rest

theorem stopStep_of_splitAtStop
    {depth : Nat} {g : Glyph} {glyphs text rest : List Glyph}
    (h : splitAtStop depth (g :: glyphs) = .ok (text, rest)) :
    StopStep depth g glyphs text rest := by
  rw [splitAtStop] at h
  split at h
  · contradiction
  · next hquote =>
    split at h
    · next hstop =>
      cases h
      exact .stop hstop
    · next hpass =>
      cases hrest : splitAtStop (g.sign.parens depth) glyphs with
      | error fault => simp [hrest, bind, Except.bind] at h
      | ok split =>
        simp only [hrest, bind, Except.bind, pure, Except.pure] at h
        cases h
        exact .pass hquote hpass hrest

theorem blockStep_of_splitBlock
    {opener depth : Nat} {g : Glyph} {glyphs body rest : List Glyph}
    (h : splitBlock opener depth (g :: glyphs) = .ok (body, rest)) :
    BlockStep opener depth g glyphs body rest := by
  rw [splitBlock] at h
  split at h
  · contradiction
  · next hquote =>
    split at h
    · next hclose =>
      cases h
      exact .close hclose
    · next hpass =>
      cases hrest : splitBlock opener (g.sign.braces depth) glyphs with
      | error fault => simp [hrest, bind, Except.bind] at h
      | ok split =>
        simp only [hrest, bind, Except.bind, pure, Except.pure] at h
        cases h
        exact .pass hquote hpass hrest

theorem splitAtStop_length
    {depth : Nat} {glyphs text rest : List Glyph}
    (h : splitAtStop depth glyphs = .ok (text, rest)) :
    rest.length ≤ glyphs.length := by
  induction glyphs generalizing depth text with
  | nil => simp_all [splitAtStop]
  | cons g glyphs ih =>
    cases stopStep_of_splitAtStop h with
    | stop => exact Nat.le_refl _
    | pass _ _ hrest => exact Nat.le_succ_of_le (ih hrest)

theorem splitBlock_length
    {opener depth : Nat} {glyphs body rest : List Glyph}
    (h : splitBlock opener depth glyphs = .ok (body, rest)) :
    rest.length < glyphs.length := by
  induction glyphs generalizing depth body with
  | nil => simp [splitBlock] at h
  | cons g glyphs ih =>
    cases blockStep_of_splitBlock h with
    | close => exact Nat.lt_succ_self _
    | pass _ _ hrest => exact Nat.lt_succ_of_lt (ih hrest)

theorem stop_of_splitAtStop
    {depth : Nat} {stop : Glyph} {glyphs text rest : List Glyph}
    (h : splitAtStop depth glyphs = .ok (text, stop :: rest)) :
    stop.sign = .openBrace ∨ stop.sign = .closeBrace ∨ stop.sign = .semicolon := by
  induction glyphs generalizing depth text with
  | nil => cases h
  | cons g glyphs ih =>
    cases stopStep_of_splitAtStop h with
    | stop hstop => exact hstop.imp_right (Or.imp_right And.left)
    | pass _ _ hrest => exact ih hrest

/-- Cuts off the first segment and returns it with what follows it.  Glyphs that are
blank have none. -/
def first? (glyphs : List Glyph) : Except Fault (Option (Segment × List Glyph)) :=
  match glyphs.dropWhile (Text.isAsciiWhite ·.char) with
  | [] => .ok none
  | first :: others =>
    match splitAtStop 0 (first :: others) with
    | .error fault => .error fault
    | .ok (text, []) => .ok (some (⟨first.offset, text, none⟩, []))
    | .ok (text, stop :: rest) =>
      match stop.sign with
      | .closeBrace => .error ⟨.unexpectedClose, stop.offset⟩
      | .openBrace =>
        match splitBlock stop.offset 0 rest with
        | .error fault => .error fault
        | .ok (block, rest) => .ok (some (⟨first.offset, text, some block⟩, rest))
      | _ => .ok (some (⟨first.offset, text, none⟩, rest))

/-- What there may be to cut off at the beginning of glyphs. -/
inductive FirstStep (glyphs : List Glyph) : Except Fault (Option (Segment × List Glyph)) → Prop
  | blank (hstart : glyphs.dropWhile (Text.isAsciiWhite ·.char) = []) : FirstStep glyphs (.ok none)
  | fault {first : Glyph} {others : List Glyph} {fault : Fault}
      (hstart : glyphs.dropWhile (Text.isAsciiWhite ·.char) = first :: others)
      (hstop : splitAtStop 0 (first :: others) = .error fault) : FirstStep glyphs (.error fault)
  | last {first : Glyph} {others text : List Glyph}
      (hstart : glyphs.dropWhile (Text.isAsciiWhite ·.char) = first :: others)
      (hstop : splitAtStop 0 (first :: others) = .ok (text, [])) :
      FirstStep glyphs (.ok (some (⟨first.offset, text, none⟩, [])))
  | close {first stop : Glyph} {others text rest : List Glyph}
      (hstart : glyphs.dropWhile (Text.isAsciiWhite ·.char) = first :: others)
      (hstop : splitAtStop 0 (first :: others) = .ok (text, stop :: rest))
      (hsign : stop.sign = .closeBrace) :
      FirstStep glyphs (.error ⟨.unexpectedClose, stop.offset⟩)
  | unclosed {first stop : Glyph} {others text rest : List Glyph} {fault : Fault}
      (hstart : glyphs.dropWhile (Text.isAsciiWhite ·.char) = first :: others)
      (hstop : splitAtStop 0 (first :: others) = .ok (text, stop :: rest))
      (hsign : stop.sign = .openBrace) (hblock : splitBlock stop.offset 0 rest = .error fault) :
      FirstStep glyphs (.error fault)
  | block {first stop : Glyph} {others text block rest after : List Glyph}
      (hstart : glyphs.dropWhile (Text.isAsciiWhite ·.char) = first :: others)
      (hstop : splitAtStop 0 (first :: others) = .ok (text, stop :: rest))
      (hsign : stop.sign = .openBrace)
      (hblock : splitBlock stop.offset 0 rest = .ok (block, after)) :
      FirstStep glyphs (.ok (some (⟨first.offset, text, some block⟩, after)))
  | semicolon {first stop : Glyph} {others text rest : List Glyph}
      (hstart : glyphs.dropWhile (Text.isAsciiWhite ·.char) = first :: others)
      (hstop : splitAtStop 0 (first :: others) = .ok (text, stop :: rest))
      (hsign : stop.sign = .semicolon) :
      FirstStep glyphs (.ok (some (⟨first.offset, text, none⟩, rest)))

theorem firstStep (glyphs : List Glyph) : FirstStep glyphs (first? glyphs) := by
  fun_cases first? glyphs with
  | case1 hstart => exact .blank hstart
  | case2 first others hstart fault hstop => exact .fault hstart hstop
  | case3 first others hstart text hstop => exact .last hstart hstop
  | case4 first others hstart text stop rest hstop hsign => exact .close hstart hstop hsign
  | case5 first others hstart text stop rest hstop hsign fault hblock =>
    exact .unclosed hstart hstop hsign hblock
  | case6 first others hstart text stop rest hstop hsign block after hblock =>
    exact .block hstart hstop hsign hblock
  | case7 first others hstart text stop rest hstop hclose hopen =>
    have hsign : stop.sign = .semicolon :=
      ((stop_of_splitAtStop hstop).resolve_left hopen).resolve_left hclose
    exact .semicolon hstart hstop hsign

theorem first?_length
    {glyphs rest : List Glyph} {segment : Segment}
    (h : first? glyphs = .ok (some (segment, rest))) :
    rest.length < glyphs.length := by
  have hle := (List.dropWhile_sublist (l := glyphs) (Text.isAsciiWhite ·.char)).length_le
  have hstep := firstStep glyphs
  rw [h] at hstep
  cases hstep with
  | last hstart =>
    rw [hstart] at hle
    exact Nat.lt_of_lt_of_le (Nat.succ_pos _) hle
  | block hstart hstop _ hblock =>
    have hstop := splitAtStop_length hstop
    have hblock := splitBlock_length hblock
    rw [hstart] at hle
    simp only [List.length_cons] at hle hstop
    omega
  | semicolon hstart hstop =>
    have hstop := splitAtStop_length hstop
    rw [hstart] at hle
    simp only [List.length_cons] at hle hstop
    omega

/-- Cuts glyphs into segments, up to the first fault. -/
def cut (glyphs : List Glyph) : Except Fault (List Segment) :=
  match _hfirst : first? glyphs with
  | .error fault => .error fault
  | .ok none => .ok []
  | .ok (some (segment, rest)) => (segment :: ·) <$> cut rest
  termination_by glyphs.length
  decreasing_by exact first?_length _hfirst

end Segment

end ContrastLint

import ContrastLint.Proofs.Joining
import ContrastLint.Proofs.Rounds
import ContrastLint.Proofs.Yields

/-!
# Blocks within blocks

The search for the end of a block runs to the end of the text, whatever block it
starts in.  All the same it stays in that block: the block is balanced, so the
depth of braces counted from an inner brace comes back to zero before the depth
counted from the outer one does.

What is read of a block is said once, by the cursor that reads it up to its end.
The depth of braces, the strings, the inner blocks and the stops of the searches
in the block are all found from this reading.
-/

namespace ContrastLint

/-! ## The depth of braces -/

/-- What a sign adds to the depth of braces. -/
def Sign.brace : Sign → Int
  | .openBrace => 1
  | .closeBrace => -1
  | _ => 0

/-- The depth of braces after a text, counted from its beginning and without those in
strings. -/
def Quoting.braces : Quoting → List Char → Int
  | _, [] => 0
  | s, c :: text => (s.sign c).brace + (s.next c).braces text

theorem Quoting.braces_append (s : Quoting) (a b : List Char) :
    s.braces (a ++ b) = s.braces a + (s.after a).braces b := by
  induction a generalizing s with
  | nil => simp [braces]
  | cons c a ih => simp [braces, ih, Int.add_assoc]

theorem Quoting.braces_cons_open (text : List Char) :
    outside.braces ('{' :: text) = 1 + outside.braces text := rfl

namespace Cursor

variable {k k' : Cursor} {c : Char} {a b text : List Char} {depth offset opener : Nat}

theorem depth_of_block? (h : k.block? c = some k') :
    (k'.depth : Int) = k.depth + (k.quoting.sign c).brace := by
  obtain ⟨hgoes, rfl⟩ := block?_eq_some_iff.mp h
  cases hsign : k.quoting.sign c with
  | closeBrace =>
      have hdepth : k.depth ≠ 0 := fun hzero => hgoes ⟨hsign, hzero⟩
      simp only [Sign.braces, Sign.brace]
      omega
  | _ => simp [Sign.braces, Sign.brace]

theorem depth_of_readBlock (h : k.readBlock text = some k') :
    (k'.depth : Int) = k.depth + k.quoting.braces text := by
  induction text generalizing k with
  | nil =>
      cases h
      simp [Quoting.braces]
  | cons c text ih =>
      obtain ⟨next, hnext, hrest⟩ := Option.bind_eq_some_iff.mp h
      have hdepth := depth_of_block? hnext
      obtain ⟨-, rfl⟩ := block?_eq_some_iff.mp hnext
      rw [ih hrest, hdepth, Quoting.braces, Int.add_assoc]

theorem exists_readBlock_of_append (h : k.readBlock (a ++ b) = some k') :
    ∃ between, k.readBlock a = some between ∧ between.readBlock b = some k' := by
  rw [readBlock_append] at h
  exact Option.bind_eq_some_iff.mp h

/-- A block that opens inside a block ends inside it. -/
theorem exists_end_of_readBlock
    (h : (Cursor.mk .outside (depth + 1)).readBlock b = some .start) :
    ∃ inner behind, b = inner ++ '}' :: behind ∧ start.readBlock inner = some .start ∧
      Quoting.outside.after behind = .outside := by
  obtain ⟨inner, more, k, rfl, hinner, hends⟩ := exists_readBlock .start b
  cases more with
  | nil =>
      -- With no end, the same braces would lead from zero up and from above to zero.
      have houter := depth_of_readBlock h
      have hdepth := depth_of_readBlock hinner
      simp only [start, List.append_nil] at houter hdepth
      omega
  | cons c behind =>
      obtain ⟨rfl, rfl⟩ := (hends c rfl).cases
      have hall : Quoting.outside.after (inner ++ '}' :: behind) = .outside :=
        (quoting_of_readBlock h).symm
      have hfits : Quoting.outside.after inner = .outside := (quoting_of_readBlock hinner).symm
      rw [Quoting.after_append, hfits] at hall
      exact ⟨inner, behind, rfl, hinner, hall⟩

/-- Where a search for a stop in a block stops, no string is open and the block does not
end. -/
theorem exists_stop_of_readBlock (h : start.readBlock b = some .start) :
    ∃ passed left depth, b = passed ++ left ∧ start.readText passed = some ⟨.outside, depth⟩ ∧
      ∀ c ∈ left.head?, Stops ⟨.outside, depth⟩ c ∧ (c = '{' ∨ c = ';') := by
  obtain ⟨passed, left, ⟨quoting, depth⟩, rfl, hpassed, hstops⟩ := exists_readText .start b
  obtain ⟨between, hbetween, hrest⟩ := exists_readBlock_of_append h
  have hblock : start.readBlock passed = some ⟨quoting, 0⟩ := readBlock_of_readText hpassed 0
  rw [hblock] at hbetween
  cases hbetween
  cases left with
  | nil =>
      cases hrest
      exact ⟨passed, [], depth, rfl, hpassed, by simp⟩
  | cons c left =>
      have hstop := hstops c rfl
      obtain ⟨rfl, hc⟩ := hstop.cases
      have hgoes : c ≠ '}' := by
        rintro rfl
        contradiction
      refine ⟨passed, c :: left, depth, rfl, hpassed, ?_⟩
      simp only [List.head?_cons, Option.mem_some_iff, forall_eq']
      exact ⟨hstop, hc.imp_right fun hc => (hc.resolve_left hgoes).1⟩

/-- A text without a stop has no closing brace outside its strings. -/
theorem after_ne_outside_of_readText (h : start.readText (a ++ '}' :: b) = some k) :
    Quoting.outside.after a ≠ .outside := by
  intro houtside
  rw [readText_append] at h
  obtain ⟨between, hbetween, hrest⟩ := Option.bind_eq_some_iff.mp h
  obtain ⟨next, hnext, -⟩ := Option.bind_eq_some_iff.mp hrest
  have hquoting := quoting_of_readText hbetween
  refine (text?_eq_some_iff.mp hnext).1 (.inr (.inl ?_))
  rw [hquoting, sign_eq_closeBrace_iff]
  exact ⟨houtside, rfl⟩

/-- A balanced text is a block. -/
theorem readBlock_of_balance
    (h : Glyph.balance k.depth opener (k.quoting.glyphs offset text) = .ok ())
    (hclosed : k.quoting.after text = .outside) : k.readBlock text = some .start := by
  induction text generalizing k offset opener with
  | nil =>
      rcases k with ⟨quoting, depth⟩
      cases depth with
      | zero =>
          cases hclosed
          rfl
      | succ depth => contradiction
  | cons c text ih =>
      have hgoes : ¬k.Ends c := by
        rintro ⟨hsign, hdepth⟩
        simp [Glyph.balance, hsign, hdepth] at h
      rw [readBlock_cons, block?_eq_some_iff.mpr ⟨hgoes, rfl⟩, Option.bind_some]
      rw [Quoting.glyphs_cons] at h
      cases hsign : k.quoting.sign c with
      | unclosedQuote => exact absurd hsign (sign_ne_unclosedQuote k.quoting c)
      | closeBrace =>
          have hdepth : k.depth ≠ 0 := fun hzero => hgoes ⟨hsign, hzero⟩
          simp only [Glyph.balance, hsign, if_neg hdepth] at h
          exact ih h hclosed
      | _ =>
          simp only [Glyph.balance, hsign] at h
          exact ih h hclosed

end Cursor

/-- A string that opens outside strings is closed if the text ends outside strings. -/
theorem Glyph.exists_quoted_of_after
    {quote : Char} {text : List Char} (hquote : Text.isQuote quote = true)
    (h : Quoting.outside.after (quote :: text) = .outside) :
    ∃ string more, text = string ++ more ∧ Quoted quote string := by
  obtain ⟨q, rfl, hnext⟩ := Quoting.Reads.outside.next_quote hquote
  rw [Quoting.after_cons, hnext] at h
  exact exists_quoted_of_closes (Quoting.closes_of_after h)

namespace Bytewise

open Glyph Segment

variable {text rest body after : List Char} {opener close : Nat}

/-! ## The ends of blocks -/

/-- The reader of glyphs splits off what the cursor reads as a block. -/
theorem splitBlock_of_readBlock
    (hbody : Cursor.start.readBlock body = some .start)
    (hafter : Quoting.outside.after after = .outside) (offset : Nat) :
    splitBlock opener 0 (ofCharsFrom none offset (body ++ '}' :: after)) =
      .ok (ofCharsFrom none offset body,
        ofCharsFrom none (offset + Text.byteLength body + 1) after) := by
  have hclosed : Quoting.outside.after body = .outside := (Cursor.quoting_of_readBlock hbody).symm
  have hwhole : Quoting.outside.after (body ++ '}' :: after) = .outside := by
    rw [Quoting.after_append, hclosed]
    exact hafter
  rw [Quoting.ofCharsFrom_eq_glyphs .outside hwhole, Quoting.ofCharsFrom_eq_glyphs .outside hclosed,
    Quoting.ofCharsFrom_eq_glyphs .outside hafter]
  exact splitBlock_glyphs offset hbody

theorem findBlockEnd_of_readBlock
    (h : At text opener ('{' :: (body ++ '}' :: after)))
    (hbody : Cursor.start.readBlock body = some .start) :
    findBlockEnd text opener = .ok (opener + 1 + Text.byteLength body) := by
  have hsplit : splitBlock opener 0 (ofCharsFrom none (opener + 1) (body ++ ['}'])) =
      .ok (ofCharsFrom none (opener + 1) body, []) :=
    splitBlock_of_readBlock hbody rfl (opener + 1)
  have hat : At text opener ('{' :: (body ++ ['}']) ++ after) := by simpa using h
  obtain ⟨block, more, -, hpart, -, hend⟩ := findBlockEnd_of_split hat hsplit
  obtain rfl : body = block := by simpa using congrArg chars hpart
  exact hend

/-- What the search for the end of a block has found is a block, to the cursor and to the
reader of glyphs. -/
theorem exists_readBlock_of_findBlockEnd
    (h : At text opener ('{' :: rest)) (hend : findBlockEnd text opener = .ok close) :
    ∃ body after, rest = body ++ '}' :: after ∧ close = opener + 1 + Text.byteLength body ∧
      Cursor.start.readBlock body = some .start ∧
      splitBlock opener 0 (ofCharsFrom none (opener + 1) rest) =
        .ok (ofCharsFrom none (opener + 1) body, ofCharsFrom none (close + 1) after) := by
  rw [findBlockEnd_eq h] at hend
  cases hsplit : splitBlock opener 0 (ofCharsFrom none (opener + 1) rest) with
  | error fault =>
      rw [hsplit] at hend
      contradiction
  | ok split =>
      obtain ⟨part, more⟩ := split
      have hbalance : Glyph.balance 0 0 part = .ok () := balance_of_splitBlock hsplit
      obtain ⟨body, after, rfl, -, rfl, rfl⟩ := splitBlock_ofCharsFrom hsplit
      have hclosed : Quoting.outside.after body = .outside :=
        Quoting.after_eq_outside .outside (by simp) (closed_of_balance hbalance)
      rw [Quoting.ofCharsFrom_eq_glyphs .outside hclosed] at hbalance
      rw [hsplit, closed, chars_ofCharsFrom] at hend
      obtain rfl := Except.ok.inj hend
      exact ⟨body, after, rfl, rfl, Cursor.readBlock_of_balance hbalance hclosed, rfl⟩

/-! ## The stops in a block -/

variable {a b beyond : List Char} {c : Char} {start i limit : Nat}

/-- A search for a stop in a block stops in front of a semicolon or of an inner block, or
at the end of the block. -/
theorem scan_of_readBlock
    (h : At text i (b ++ beyond)) (hlimit : limit = i + Text.byteLength b)
    (hb : Cursor.start.readBlock b = some .start) :
    ∃ passed left, b = passed ++ left ∧
      scan text bodyStops i limit =
        .ok (i + Text.byteLength passed, left.head?.map Char.toUInt8) ∧
      (∀ c ∈ left.head?, c = '{' ∨ c = ';') ∧
      (∀ p q, passed = p ++ '}' :: q → Quoting.outside.after p ≠ .outside) ∧
      splitAtStop 0 (ofCharsFrom none i b) =
        .ok (ofCharsFrom none i passed, ofCharsFrom none (i + Text.byteLength passed) left) := by
  obtain ⟨passed, left, depth, rfl, hpassed, hstops⟩ := Cursor.exists_stop_of_readBlock hb
  have hquoting : Quoting.outside.after passed = .outside :=
    (Cursor.quoting_of_readText hpassed).symm
  have hclosed : Quoting.outside.after (passed ++ left) = .outside :=
    (Cursor.quoting_of_readBlock hb).symm
  have hleft : Quoting.outside.after left = .outside := by
    rwa [Quoting.after_append, hquoting] at hclosed
  have hsplit : splitAtStop 0 (ofCharsFrom none i (passed ++ left)) =
      .ok (ofCharsFrom none i passed, ofCharsFrom none (i + Text.byteLength passed) left) := by
    rw [Quoting.ofCharsFrom_eq_glyphs .outside hclosed,
      Quoting.ofCharsFrom_eq_glyphs .outside hquoting, Quoting.ofCharsFrom_eq_glyphs .outside hleft]
    exact splitAtStop_glyphs i hpassed fun c hc => (hstops c hc).1
  refine ⟨passed, left, rfl, ?_, fun c hc => (hstops c hc).2, ?_, hsplit⟩
  · have hseen : ClosesSeen bodyStops (splitAtStop 0 (ofCharsFrom none i (passed ++ left))) := by
      refine .inr fun part stop more heq => ?_
      rw [hsplit, Quoting.ofCharsFrom_eq_glyphs .outside hleft] at heq
      cases left with
      | nil => cases heq
      | cons c left =>
          cases heq
          rcases (hstops c rfl).2 with rfl | rfl <;> simp [Quoting.sign, Sign.ofChar]
    rw [scan_eq h hlimit stops_bodyStops hseen, hsplit, Quoting.ofCharsFrom_eq_glyphs .outside hleft]
    cases left with
    | nil =>
        rw [List.append_nil] at hlimit
        rw [hlimit]
        rfl
    | cons c left => rfl
  · rintro p q rfl
    exact Cursor.after_ne_outside_of_readText hpassed

/-- The byte `i` is where a text stands, or another one of its first character. -/
def InFirst (offset : Nat) (text : List Char) (i : Nat) : Prop :=
  i = offset ∨ ∃ c ∈ text.head?, offset ≤ i ∧ i < offset + c.utf8Size

/-- A search that starts inside a character finds what it finds from the character on. -/
theorem scan_of_inFirst
    (h : At text i (b ++ beyond)) (hlimit : limit = i + Text.byteLength b)
    (hstart : InFirst i b start) : scan text bodyStops start limit = scan text bodyStops i limit := by
  rcases hstart with rfl | ⟨c, hc, hle, hlt⟩
  · rfl
  obtain ⟨tail, rfl⟩ := List.head?_eq_some_iff.mp hc
  obtain ⟨j, rfl⟩ := Nat.exists_eq_add_of_le hle
  by_cases hsize : c.utf8Size = 1
  · obtain rfl : j = 0 := by omega
    rfl
  · have hwide : ∀ k b, 128 ≤ b.toNat →
        scanAct text bodyStops limit 0 k b = .ok (.next 0 (k + 1)) :=
      fun k b hb => scanAct_of_le stops_bodyStops hb
    have hfits : i + c.utf8Size ≤ limit := by
      rw [hlimit, Text.byteLength_cons]
      omega
    calc scan text bodyStops (i + j) limit
        = walk text limit (scanAct text bodyStops limit) (fun _ => .ok (limit, none)) 0
            (i + c.utf8Size) := walk_inside h hsize hfits hwide (by omega)
      _ = scan text bodyStops i limit := (walk_inside h hsize hfits hwide (Nat.zero_le _)).symm

/-! ## Blocks -/

/-- Reading a text that stands at the byte `offset`, one comes to the byte `i` outside
strings, with the rest of the text still to read and with `depth` braces open. -/
def Reaches (offset : Nat) (text : List Char) (i : Nat) (depth : Int) (rest : List Char) : Prop :=
  ∃ before, text = before ++ rest ∧ i = offset + Text.byteLength before ∧
    Quoting.outside.after before = .outside ∧ Quoting.outside.braces before = depth

/-- The body between the braces at `opener` and `close` is a block, and so is every block
that opens in it. -/
structure Nests (text : List Char) (opener close : Nat) (body : List Char) : Prop where
  closes : Quoting.outside.braces ('{' :: (body ++ ['}'])) = 0
  least : ∀ a b, '{' :: body = a ++ b → a ≠ [] → 0 < Quoting.outside.braces a
  strings : ∀ i depth quote b, Reaches opener ('{' :: body) i depth (quote :: b) →
    Text.isQuote quote = true →
      ∃ string more, b = string ++ more ∧ Quoted quote string ∧
        skipString text i close = .ok (i + Text.byteLength (quote :: string))
  blocks : ∀ i depth b, Reaches opener ('{' :: body) i depth ('{' :: b) → opener < i →
    ∃ result inner behind, b = inner ++ '}' :: behind ∧
      findBlockEnd text i = .ok result ∧ i < result ∧ result < close ∧
      splitBlock i 0 (ofCharsFrom none (i + 1) b) =
        .ok (ofCharsFrom none (i + 1) inner, ofCharsFrom none (result + 1) behind)
  stops : ∀ i b start, Reaches opener ('{' :: body) i 1 b → InFirst i b start →
    ∃ passed left, b = passed ++ left ∧
      scan text bodyStops start close =
        .ok (i + Text.byteLength passed, left.head?.map Char.toUInt8) ∧
      (∀ c ∈ left.head?, c = '{' ∨ c = ';') ∧
      (∀ p q, passed = p ++ '}' :: q → Quoting.outside.after p ≠ .outside) ∧
      splitAtStop 0 (ofCharsFrom none i b) =
        .ok (ofCharsFrom none i passed, ofCharsFrom none (i + Text.byteLength passed) left)

theorem Reaches.lt_or_eq {depth : Int} (h : Reaches opener text i depth rest) :
    opener < i ∨ rest = text ∧ depth = 0 := by
  obtain ⟨before, rfl, rfl, -, rfl⟩ := h
  cases before with
  | nil => exact .inr ⟨rfl, rfl⟩
  | cons c before =>
      have hpos := c.utf8Size_pos
      left
      rw [Text.byteLength_cons]
      omega

/-- What is still to read of a block is read by the cursor that has come so far. -/
theorem Reaches.exists_readBlock
    {depth : Int} (h : Reaches opener ('{' :: body) i depth b) (hlt : opener < i)
    (hbody : Cursor.start.readBlock body = some .start) :
    ∃ (a : List Char) (n : Nat), body = a ++ b ∧ i = opener + 1 + Text.byteLength a ∧
      depth = n + 1 ∧ Quoting.outside.after a = .outside ∧
      (Cursor.mk .outside n).readBlock b = some .start := by
  obtain ⟨before, hsplit, rfl, hclosed, rfl⟩ := h
  cases before with
  | nil => simp at hlt
  | cons c a =>
      have hopen : '{'.utf8Size = 1 := rfl
      obtain ⟨rfl, rfl⟩ := List.cons.inj hsplit
      obtain ⟨⟨quoting, n⟩, hfront, hrest⟩ := Cursor.exists_readBlock_of_append hbody
      have hafter : Quoting.outside.after a = .outside := hclosed
      obtain rfl : quoting = .outside := (Cursor.quoting_of_readBlock hfront).trans hafter
      have hdepth := Cursor.depth_of_readBlock hfront
      refine ⟨a, n, rfl, by simp [hopen, Nat.add_assoc], ?_, hafter, hrest⟩
      rw [Quoting.braces_cons_open, hdepth]
      simp [Cursor.start, Int.add_comm]

section Body

variable (h : At text opener ('{' :: (body ++ '}' :: after)))
  (hclose : close = opener + 1 + Text.byteLength body)
  (hbody : Cursor.start.readBlock body = some .start)

include h in
theorem at_of_body (hsplit : body = a ++ b) :
    At text (opener + 1 + Text.byteLength a) (b ++ '}' :: after) := by
  rw [hsplit, List.append_assoc] at h
  exact h.next.append

include hbody in
theorem braces_pos (hsplit : body = a ++ b) : 0 < Quoting.outside.braces ('{' :: a) := by
  rw [hsplit] at hbody
  obtain ⟨k, hfront, -⟩ := Cursor.exists_readBlock_of_append hbody
  have hdepth := Cursor.depth_of_readBlock hfront
  simp only [Cursor.start] at hdepth
  rw [Quoting.braces_cons_open]
  omega

include hbody in
theorem braces_eq_zero : Quoting.outside.braces ('{' :: (body ++ ['}'])) = 0 := by
  have hclosed : Quoting.outside.after body = .outside := (Cursor.quoting_of_readBlock hbody).symm
  have hend : Quoting.outside.braces ['}'] = -1 := rfl
  have hdepth := Cursor.depth_of_readBlock hbody
  simp only [Cursor.start] at hdepth
  rw [Quoting.braces_cons_open, Quoting.braces_append, hclosed, hend]
  omega

include h hclose hbody in
theorem skipString_of_reaches
    {depth : Int} {quote : Char} (hreaches : Reaches opener ('{' :: body) i depth (quote :: b))
    (hquote : Text.isQuote quote = true) :
    ∃ string more, b = string ++ more ∧ Quoted quote string ∧
      skipString text i close = .ok (i + Text.byteLength (quote :: string)) := by
  have hlt : opener < i := by
    refine hreaches.lt_or_eq.resolve_right ?_
    rintro ⟨heq, -⟩
    cases heq
    contradiction
  obtain ⟨a, n, rfl, rfl, -, hafter, -⟩ := hreaches.exists_readBlock hlt hbody
  have hclosed : Quoting.outside.after (a ++ quote :: b) = .outside :=
    (Cursor.quoting_of_readBlock hbody).symm
  rw [Quoting.after_append, hafter] at hclosed
  obtain ⟨string, more, rfl, hstring⟩ := exists_quoted_of_after hquote hclosed
  have hhere := at_of_body h rfl
  rw [List.cons_append, List.append_assoc] at hhere
  refine ⟨string, more, rfl, hstring, skipString_of_quoted hhere hquote hstring ?_⟩
  rw [hclose]
  simp
  omega

include h hclose hbody in
theorem findBlockEnd_of_reaches
    {depth : Int} (hreaches : Reaches opener ('{' :: body) i depth ('{' :: b)) (hlt : opener < i) :
    ∃ result inner behind, b = inner ++ '}' :: behind ∧
      findBlockEnd text i = .ok result ∧ i < result ∧ result < close ∧
      splitBlock i 0 (ofCharsFrom none (i + 1) b) =
        .ok (ofCharsFrom none (i + 1) inner, ofCharsFrom none (result + 1) behind) := by
  obtain ⟨a, n, rfl, rfl, -, -, hrest⟩ := hreaches.exists_readBlock hlt hbody
  have hopened : (Cursor.mk .outside (n + 1)).readBlock b = some .start := hrest
  obtain ⟨inner, behind, rfl, hinner, hbehind⟩ := Cursor.exists_end_of_readBlock hopened
  have hhere := at_of_body h rfl
  rw [List.cons_append, List.append_assoc, List.cons_append] at hhere
  have hopen : '{'.utf8Size = 1 := rfl
  have hend : '}'.utf8Size = 1 := rfl
  have hlength : Text.byteLength (a ++ '{' :: (inner ++ '}' :: behind)) =
      Text.byteLength a + 1 + Text.byteLength inner + 1 + Text.byteLength behind := by
    simp [hopen, hend, Nat.add_assoc]
  exact ⟨_, inner, behind, rfl, findBlockEnd_of_readBlock hhere hinner, by omega, by omega,
    splitBlock_of_readBlock hinner hbehind _⟩

include h hclose hbody in
theorem scan_of_reaches
    (hreaches : Reaches opener ('{' :: body) i 1 b) (hstart : InFirst i b start) :
    ∃ passed left, b = passed ++ left ∧
      scan text bodyStops start close =
        .ok (i + Text.byteLength passed, left.head?.map Char.toUInt8) ∧
      (∀ c ∈ left.head?, c = '{' ∨ c = ';') ∧
      (∀ p q, passed = p ++ '}' :: q → Quoting.outside.after p ≠ .outside) ∧
      splitAtStop 0 (ofCharsFrom none i b) =
        .ok (ofCharsFrom none i passed, ofCharsFrom none (i + Text.byteLength passed) left) := by
  have hlt : opener < i := hreaches.lt_or_eq.resolve_right fun heq => one_ne_zero heq.2
  obtain ⟨a, n, rfl, rfl, hdepth, -, hrest⟩ := hreaches.exists_readBlock hlt hbody
  obtain rfl : n = 0 := by omega
  have hhere := at_of_body h rfl
  have hlimit : close = opener + 1 + Text.byteLength a + Text.byteLength b := by
    rw [hclose, Text.byteLength_append, Nat.add_assoc (opener + 1)]
  rw [scan_of_inFirst hhere hlimit hstart]
  exact scan_of_readBlock hhere hlimit hrest

include h hclose hbody in
theorem nests_of_readBlock : Nests text opener close body := by
  constructor
  case closes => exact braces_eq_zero hbody
  case least =>
    intro a b hsplit hne
    cases a with
    | nil => contradiction
    | cons c a =>
        obtain ⟨rfl, htail⟩ := List.cons.inj hsplit
        exact braces_pos hbody htail
  case strings => exact fun i depth quote b => skipString_of_reaches h hclose hbody
  case blocks => exact fun i depth b => findBlockEnd_of_reaches h hclose hbody
  case stops => exact fun i b start => scan_of_reaches h hclose hbody

end Body

/-- The brace that the search finds is the first one that brings the depth of braces back
to zero, and what stands before it is a block: its strings are closed in it, the blocks
that open in it end in it, and a search for a stop that starts in it, but in no inner
block, neither meets an unclosed string nor passes the closing brace of a block.  The
reader of glyphs splits the text at the same places. -/
theorem findBlockEnd_nests
    (h : At text opener ('{' :: rest)) (hend : findBlockEnd text opener = .ok close) :
    ∃ body after, rest = body ++ '}' :: after ∧ close = opener + 1 + Text.byteLength body ∧
      splitBlock opener 0 (ofCharsFrom none (opener + 1) rest) =
        .ok (ofCharsFrom none (opener + 1) body, ofCharsFrom none (close + 1) after) ∧
      Nests text opener close body := by
  obtain ⟨body, after, rfl, hclose, hbody, hsplit⟩ := exists_readBlock_of_findBlockEnd h hend
  exact ⟨body, after, rfl, hclose, hsplit, nests_of_readBlock h hclose hbody⟩

/-- The case of a block with a string that holds a brace in an inner block. -/
theorem findBlockEnd_nests_string :
    findBlockEnd "a\x7bb\x7b'\x7d'\x7dc;\x7d".toList 1 = .ok 10 ∧
      ∃ body, Nests "a\x7bb\x7b'\x7d'\x7dc;\x7d".toList 1 10 body := by
  have hat : At "a\x7bb\x7b'\x7d'\x7dc;\x7d".toList 1 ('{' :: "b\x7b'\x7d'\x7dc;\x7d".toList) :=
    ⟨['a'], by decide, by decide⟩
  have hend : findBlockEnd "a\x7bb\x7b'\x7d'\x7dc;\x7d".toList 1 = .ok 10 := by
    rw [findBlockEnd_eq hat]
    decide
  obtain ⟨body, -, -, -, -, hnests⟩ := findBlockEnd_nests hat hend
  exact ⟨hend, body, hnests⟩

end Bytewise

end ContrastLint

import ContrastLint.Proofs.Bytewise
import ContrastLint.Proofs.Strides

/-!
# Searches over bytes

Blanks, strings, stops and the ends of blocks are found over bytes where they are
found over glyphs, and no search does what it must not.  All of them compare
bytes with ASCII characters and go on at bytes beyond ASCII, so that they pass a
character of several bytes as a whole, even if a backslash has taken them
inside it.
-/

namespace ContrastLint.Bytewise

open Glyph

/-! ## Bytes of ASCII characters -/

section Compare

variable {b : UInt8} {c : Char}

theorem isQuoteByte_toUInt8 (hc : c.utf8Size = 1) : isQuoteByte c.toUInt8 = Text.isQuote c := by
  rw [Bool.eq_iff_iff]
  simp (disch := decide) only [isQuoteByte, Text.isQuote, Bool.or_eq_true, beq_iff_eq,
    toUInt8_inj hc]

theorem isBlankByte_toUInt8 (hc : c.utf8Size = 1) :
    isBlankByte c.toUInt8 = Text.isAsciiWhite c := by
  rw [Bool.eq_iff_iff]
  simp (disch := decide) only [isBlankByte, Text.isAsciiWhite, Bool.or_eq_true, beq_iff_eq,
    toUInt8_inj hc]

theorem isQuoteByte_of_le (hb : 128 ≤ b.toNat) : isQuoteByte b = false := by
  have hne : ∀ d : Char, d.utf8Size = 1 → b ≠ d.toUInt8 := fun d => ne_toUInt8_of_le hb
  simp (disch := decide) [isQuoteByte, hne]

theorem isBlankByte_of_le (hb : 128 ≤ b.toNat) : isBlankByte b = false := by
  have hne : ∀ d : Char, d.utf8Size = 1 → b ≠ d.toUInt8 := fun d => ne_toUInt8_of_le hb
  simp (disch := decide) [isBlankByte, hne]

theorem utf8Size_of_isQuote (hc : Text.isQuote c = true) : c.utf8Size = 1 := by
  simp only [Text.isQuote, Bool.or_eq_true, beq_iff_eq] at hc
  rcases hc with rfl | rfl <;> rfl

theorem utf8Size_of_isAsciiWhite (hc : Text.isAsciiWhite c = true) : c.utf8Size = 1 := by
  simp only [Text.isAsciiWhite, Bool.or_eq_true, beq_iff_eq] at hc
  rcases hc with (((rfl | rfl) | rfl) | rfl) | rfl <;> rfl

end Compare

section Searches

variable {text inner beyond body rest : List Char} {c quote : Char} {i limit : Nat}

/-! ## Blanks -/

theorem skipBlanks_of_le (h : limit ≤ i) : skipBlanks text i limit = .ok i :=
  walk_of_le h

theorem blankAct_of_isAsciiWhite {s : Nat} (hc : Text.isAsciiWhite c = true) :
    blankAct s i c.toUInt8 = .ok (.next (i + 1) (i + 1)) := by
  rw [blankAct, isBlankByte_toUInt8 (utf8Size_of_isAsciiWhite hc), hc, if_pos rfl]

theorem blankAct_of_not_isAsciiWhite
    {s : Nat} (hsize : c.utf8Size = 1) (hc : Text.isAsciiWhite c = false) :
    blankAct s i c.toUInt8 = .ok (.done i) := by
  rw [blankAct, isBlankByte_toUInt8 hsize, hc, if_neg Bool.false_ne_true]

theorem blankAct_of_le {s : Nat} {b : UInt8} (hb : 128 ≤ b.toNat) :
    blankAct s i b = .ok (.done i) := by
  rw [blankAct, isBlankByte_of_le hb, if_neg Bool.false_ne_true]

theorem skipBlanks_eq
    (h : At text i (inner ++ beyond)) (hlimit : limit = i + Text.byteLength inner) :
    skipBlanks text i limit = .ok (i + Text.byteLength (inner.takeWhile Text.isAsciiWhite)) := by
  induction inner generalizing i with
  | nil => exact skipBlanks_of_le (by simp [hlimit])
  | cons c inner ih =>
      have hpos := c.utf8Size_pos
      have hlt : i < limit := by
        rw [hlimit, Text.byteLength_cons]
        omega
      rw [Text.byteLength_cons, ← Nat.add_assoc] at hlimit
      cases hc : Text.isAsciiWhite c with
      | true =>
          have hsize := utf8Size_of_isAsciiWhite hc
          have hnext := ih h.next hlimit
          rw [hsize] at hnext
          rw [List.takeWhile_cons_of_pos hc, Text.byteLength_cons, hsize, ← Nat.add_assoc, ← hnext]
          exact walk_of_next hlt (byteAt_of_ascii h hsize) (blankAct_of_isAsciiWhite hc) (by omega)
      | false =>
          rw [List.takeWhile_cons_of_neg (by simp [hc]), Text.byteLength_nil]
          by_cases hsize : c.utf8Size = 1
          · exact walk_of_done hlt (byteAt_of_ascii h hsize)
              (blankAct_of_not_isAsciiWhite hsize hc)
          · obtain ⟨b, hb, hwide⟩ := exists_byteAt_of_wide (ε := Fault) h hsize hpos
            exact walk_of_done hlt hb (blankAct_of_le hwide)

/-! ## Strings -/

theorem stringAct_of_le {opener : Nat} {b : UInt8} (hb : 128 ≤ b.toNat) (hquote : quote.utf8Size = 1) :
    stringAct opener quote.toUInt8 () i b = .ok (.next () (i + 1)) := by
  have hne : ∀ d : Char, d.utf8Size = 1 → b ≠ d.toUInt8 := fun d => ne_toUInt8_of_le hb
  simp (disch := first | decide | assumption) [stringAct, hne]

theorem stringAct_of_other
    {opener : Nat} (hc : c.utf8Size = 1) (hquote : quote.utf8Size = 1) (hslash : c ≠ '\\')
    (hline : c ≠ '\n') (hne : c ≠ quote) :
    stringAct opener quote.toUInt8 () i c.toUInt8 = .ok (.next () (i + 1)) := by
  simp (disch := first | decide | assumption) [stringAct, toUInt8_inj hc, hslash, hline, hne]

/-- The search for the end of a string. -/
abbrev walkString (text : List Char) (limit opener : Nat) (quote : Char) (i : Nat) :
    Checked Fault Nat :=
  walk text limit (stringAct opener quote.toUInt8) (fun () => raise ⟨.unclosedString, opener⟩) () i

theorem skipString_eq (h : At text i (quote :: rest)) (hquote : Text.isQuote quote = true) :
    skipString text i limit = walkString text limit i quote (i + 1) := by
  rw [skipString, byteAt_of_ascii h (utf8Size_of_isQuote hquote), bind_ok]

theorem walkString_of_quoted
    {opener : Nat} (h : At text i (body ++ rest)) (hquote : Text.isQuote quote = true)
    (hbody : Quoted quote body) (hlimit : i + Text.byteLength body ≤ limit) :
    walkString text limit opener quote i = .ok (i + Text.byteLength body) := by
  have hsize := utf8Size_of_isQuote hquote
  have hwide : ∀ j b, 128 ≤ b.toNat →
      stringAct opener quote.toUInt8 () j b = .ok (.next () (j + 1)) :=
    fun j b hb => stringAct_of_le hb hsize
  rcases ne_of_isQuote hquote with ⟨hslash, hline⟩
  induction hbody generalizing i with
  | close =>
      rw [Text.byteLength_cons, hsize] at hlimit ⊢
      apply walk_of_done (by omega) (byteAt_of_ascii h hsize)
      simp (disch := first | decide | assumption) [stringAct, toUInt8_inj hsize, hslash, hline]
  | @escape c body _ ih =>
      have hfirst : '\\'.utf8Size = 1 := rfl
      rw [Text.byteLength_cons, Text.byteLength_cons, hfirst, ← Nat.add_assoc,
        ← Nat.add_assoc] at hlimit ⊢
      have hnext : At text (i + 1 + c.utf8Size) (body ++ rest) := h.next.next
      rw [walkString, walk_jump h hfirst (by omega) hwide (if_pos rfl)]
      exact ih hnext hlimit
  | @other c body hother hbreak hne _ ih =>
      rw [Text.byteLength_cons, ← Nat.add_assoc] at hlimit ⊢
      rw [walkString, walk_char h (by omega) hwide (fun _ => rfl) fun hc =>
        stringAct_of_other hc hsize hother hbreak hne]
      exact ih h.next hlimit

theorem walkString_of_unclosed
    {opener : Nat} (h : At text i (inner ++ beyond)) (hquote : Text.isQuote quote = true)
    (hcloses : closes quote inner = false) (hlimit : limit = i + Text.byteLength inner) :
    walkString text limit opener quote i = raise ⟨.unclosedString, opener⟩ := by
  have hsize := utf8Size_of_isQuote hquote
  have hwide : ∀ j b, 128 ≤ b.toNat →
      stringAct opener quote.toUInt8 () j b = .ok (.next () (j + 1)) :=
    fun j b hb => stringAct_of_le hb hsize
  fun_induction closes quote inner generalizing i with
  | case1 => exact walk_of_le (by simp [hlimit])
  | case2 c inner ih =>
      have hfirst : '\\'.utf8Size = 1 := rfl
      rw [Text.byteLength_cons, Text.byteLength_cons, hfirst, ← Nat.add_assoc,
        ← Nat.add_assoc] at hlimit
      rw [walkString, walk_jump h hfirst (by omega) hwide (if_pos rfl)]
      exact ih h.next.next hcloses hlimit
  | case3 inner hescape =>
      have hbreak : '\n'.utf8Size = 1 := rfl
      rw [Text.byteLength_cons, hbreak] at hlimit
      apply walk_of_error (by omega) (byteAt_of_ascii h hbreak)
      rfl
  | case4 c inner hescape hbreak ih =>
      obtain ⟨hne, hrest⟩ : c ≠ quote ∧ closes quote inner = false := by simpa using hcloses
      rw [Text.byteLength_cons, ← Nat.add_assoc] at hlimit
      by_cases hslash : c = '\\'
      · -- The backslash is the last character, and the jump leads beyond the limit.
        subst hslash
        have hfirst : '\\'.utf8Size = 1 := rfl
        cases inner with
        | cons d inner => exact (hescape d inner rfl rfl).elim
        | nil =>
            rw [Text.byteLength_nil, hfirst] at hlimit
            rw [walkString, walk_of_next (by omega) (byteAt_of_ascii h hfirst) (if_pos rfl)
              (by omega)]
            exact walk_of_le (by omega)
      · rw [walkString, walk_char h (by omega) hwide (fun _ => rfl) fun hc =>
          stringAct_of_other hc hsize hslash hbreak hne]
        exact ih h.next hrest hlimit

theorem skipString_of_quoted
    (h : At text i (quote :: (body ++ rest))) (hquote : Text.isQuote quote = true)
    (hbody : Quoted quote body) (hlimit : i + Text.byteLength (quote :: body) ≤ limit) :
    skipString text i limit = .ok (i + Text.byteLength (quote :: body)) := by
  have hsize := utf8Size_of_isQuote hquote
  have hnext := h.next
  rw [Text.byteLength_cons, hsize, ← Nat.add_assoc] at hlimit ⊢
  rw [hsize] at hnext
  rw [skipString_eq h hquote]
  exact walkString_of_quoted hnext hquote hbody hlimit

theorem skipString_of_unclosed
    (h : At text i (quote :: inner ++ beyond)) (hquote : Text.isQuote quote = true)
    (hcloses : closes quote inner = false) (hlimit : limit = i + Text.byteLength (quote :: inner)) :
    skipString text i limit = raise ⟨.unclosedString, i⟩ := by
  have hsize := utf8Size_of_isQuote hquote
  have hnext : At text (i + quote.utf8Size) (inner ++ beyond) := h.next
  rw [Text.byteLength_cons, hsize, ← Nat.add_assoc] at hlimit
  rw [hsize] at hnext
  rw [skipString_eq h hquote]
  exact walkString_of_unclosed hnext hquote hcloses hlimit

section Jumps

variable {σ ρ : Type} {act : σ → Nat → UInt8 → Checked Fault (Round σ ρ)}
  {finish : σ → Checked Fault ρ} {s : σ}

/-- A loop that jumps over strings passes a string as a whole. -/
theorem walk_string
    (h : At text i (quote :: (body ++ rest))) (hquote : Text.isQuote quote = true)
    (hbody : Quoted quote body) (hlimit : i + Text.byteLength (quote :: body) ≤ limit)
    (hact : act s i quote.toUInt8 = .next s <$> skipString text i limit) :
    walk text limit act finish s i =
      walk text limit act finish s (i + Text.byteLength (quote :: body)) := by
  have hadvance : i < i + Text.byteLength (quote :: body) := by
    have hpos := quote.utf8Size_pos
    rw [Text.byteLength_cons]
    omega
  have hbyte := byteAt_of_ascii (ε := Fault) h (utf8Size_of_isQuote hquote)
  apply walk_of_next (by omega) hbyte _ hadvance
  rw [hact, skipString_of_quoted h hquote hbody hlimit]
  rfl

theorem walk_unclosed
    (h : At text i (quote :: inner ++ beyond)) (hquote : Text.isQuote quote = true)
    (hcloses : closes quote inner = false) (hlimit : limit = i + Text.byteLength (quote :: inner))
    (hact : act s i quote.toUInt8 = .next s <$> skipString text i limit) :
    walk text limit act finish s i = raise ⟨.unclosedString, i⟩ := by
  have hlt : i < limit := by
    have hpos := quote.utf8Size_pos
    rw [hlimit, Text.byteLength_cons]
    omega
  apply walk_of_error hlt (byteAt_of_ascii h (utf8Size_of_isQuote hquote))
  rw [hact, skipString_of_unclosed h hquote hcloses hlimit]
  rfl

end Jumps

/-! ## Stops -/

/-- The bytes that a search for a stop may stop at. -/
structure Stops (stops : List UInt8) : Prop where
  openBrace : '{'.toUInt8 ∈ stops
  semicolon : ';'.toUInt8 ∈ stops
  subset : ∀ b ∈ stops, b = '{'.toUInt8 ∨ b = '}'.toUInt8 ∨ b = ';'.toUInt8

theorem stops_bodyStops : Stops bodyStops :=
  ⟨by decide, by decide, by simp [bodyStops]⟩

theorem stops_sheetStops : Stops sheetStops :=
  ⟨by decide, by decide, by simp [sheetStops]⟩

variable {stops : List UInt8} {depth : Nat}

theorem scanAct_of_le {b : UInt8} (hstops : Stops stops) (hb : 128 ≤ b.toNat) :
    scanAct text stops limit depth i b = .ok (.next depth (i + 1)) := by
  have hne : ∀ d : Char, d.utf8Size = 1 → b ≠ d.toUInt8 := fun d => ne_toUInt8_of_le hb
  have hmem : b ∉ stops := by
    intro hmem
    rcases hstops.subset b hmem with h | h | h <;> exact hne _ rfl h
  simp (disch := decide) [scanAct, isQuoteByte_of_le hb, hne, hmem]

theorem scanAct_of_isQuote (hquote : Text.isQuote quote = true) :
    scanAct text stops limit depth i quote.toUInt8 = .next depth <$> skipString text i limit := by
  rw [scanAct, isQuoteByte_toUInt8 (utf8Size_of_isQuote hquote), if_pos hquote]

theorem scanAct_toUInt8
    (hstops : Stops stops) (hsize : c.utf8Size = 1) (hquote : Text.isQuote c = false)
    (hclose : c = '}' → '}'.toUInt8 ∈ stops) :
    scanAct text stops limit depth i c.toUInt8 =
      .ok (if Sign.ofChar c = .openBrace ∨ Sign.ofChar c = .closeBrace ∨
          Sign.ofChar c = .semicolon ∧ depth = 0 then
        .done (i, some c.toUInt8)
      else .next ((Sign.ofChar c).parens depth) (i + 1)) := by
  rw [scanAct, isQuoteByte_toUInt8 hsize, hquote, if_neg Bool.false_ne_true]
  fun_cases Sign.ofChar c with
  | case1 => simp [hstops.openBrace]
  | case2 => simp [hclose rfl]
  | case3 => simp (disch := decide) [toUInt8_inj, Sign.parens]
  | case4 => simp (disch := decide) [toUInt8_inj, Sign.parens]
  | case5 =>
      simp (disch := decide) only [toUInt8_inj, hstops.semicolon, Sign.parens]
      by_cases hdepth : depth = 0 <;> simp [hdepth]
  | case6 _ hopen hbrace hopenParen hcloseParen hsemicolon =>
      have hmem : c.toUInt8 ∉ stops := by
        intro hmem
        have hsub := hstops.subset _ hmem
        simp (disch := first | decide | assumption) only [toUInt8_inj] at hsub
        rcases hsub with h | h | h
        · exact hopen h
        · exact hbrace h
        · exact hsemicolon h
      have hne : c ≠ '{' ∧ c ≠ '}' ∧ c ≠ '(' ∧ c ≠ ')' := ⟨hopen, hbrace, hopenParen, hcloseParen⟩
      simp (disch := first | decide | assumption) [toUInt8_inj, Sign.parens, hmem, hne]

/-- What a search over bytes returns where the search over glyphs has split them. -/
def stopped (limit : Nat) :
    Except Fault (List Glyph × List Glyph) → Checked Fault (Nat × Option UInt8)
  | .error fault => raise fault
  | .ok (_, []) => .ok (limit, none)
  | .ok (_, g :: _) => .ok (g.offset, some g.char.toUInt8)

theorem stopped_map (limit : Nat) (f : List Glyph → List Glyph)
    (split : Except Fault (List Glyph × List Glyph)) :
    stopped limit ((fun p => (f p.1, p.2)) <$> split) = stopped limit split := by
  rcases split with fault | ⟨part, _ | ⟨g, rest⟩⟩ <;> rfl

/-- The search passes no closing brace, or stops at it. -/
def ClosesSeen (stops : List UInt8) (split : Except Fault (List Glyph × List Glyph)) : Prop :=
  '}'.toUInt8 ∈ stops ∨
    ∀ part stop rest, split = .ok (part, stop :: rest) → stop.sign ≠ .closeBrace

theorem ClosesSeen.of_map
    {f : List Glyph → List Glyph} {split : Except Fault (List Glyph × List Glyph)}
    (h : ClosesSeen stops ((fun p => (f p.1, p.2)) <$> split)) : ClosesSeen stops split := by
  refine h.imp_right fun hother part stop rest hsplit => ?_
  apply hother (f part) stop rest
  rw [hsplit]
  rfl

theorem utf8Size_of_sign_ne (h : Sign.ofChar c ≠ .ordinary) : c.utf8Size = 1 := by
  revert h
  fun_cases Sign.ofChar c with
  | case6 => exact fun h => absurd rfl h
  | _ => exact fun _ => rfl

theorem ofChar_of_wide (h : c.utf8Size ≠ 1) : Sign.ofChar c = .ordinary := by
  by_contra hne
  exact h (utf8Size_of_sign_ne hne)

theorem walk_scanAct
    (h : At text i (inner ++ beyond)) (hlimit : limit = i + Text.byteLength inner)
    (hstops : Stops stops)
    (hclose : ClosesSeen stops (Segment.splitAtStop depth (ofCharsFrom none i inner))) :
    walk text limit (scanAct text stops limit) (fun _ => .ok (limit, none)) depth i =
      stopped limit (Segment.splitAtStop depth (ofCharsFrom none i inner)) := by
  induction inner using Glyph.strides generalizing depth i with
  | nil => exact walk_of_le (by simp [hlimit])
  | char c inner hc ih =>
      have hpos := c.utf8Size_pos
      have hlt : i < limit := by
        rw [hlimit, Text.byteLength_cons]
        omega
      have hsign : Sign.ofChar c ≠ .unclosedQuote := Sign.ofChar_ne_unclosedQuote c
      rw [Text.byteLength_cons, ← Nat.add_assoc] at hlimit
      rw [ofCharsFrom_of_not_isQuote hc] at hclose ⊢
      by_cases hstop : Sign.ofChar c = .openBrace ∨ Sign.ofChar c = .closeBrace ∨
          Sign.ofChar c = .semicolon ∧ depth = 0
      · have hsize : c.utf8Size = 1 := by
          apply utf8Size_of_sign_ne
          rcases hstop with h | h | ⟨h, -⟩ <;> simp [h]
        rw [Segment.splitAtStop, if_neg hsign, if_pos hstop] at hclose ⊢
        have hseen : c = '}' → '}'.toUInt8 ∈ stops := by
          rintro rfl
          exact hclose.resolve_right fun hother => hother _ _ _ rfl rfl
        apply walk_of_done hlt (byteAt_of_ascii h hsize)
        rw [scanAct_toUInt8 hstops hsize hc hseen, if_pos hstop]
      · rw [Segment.splitAtStop_of_pass hsign hstop] at hclose ⊢
        have hseen : c = '}' → '}'.toUInt8 ∈ stops := by
          rintro rfl
          exact absurd (.inr (.inl rfl)) hstop
        rw [stopped_map, ← ih h.next hlimit hclose.of_map]
        apply walk_char h (by omega) fun j b hb => scanAct_of_le hstops hb
        case hstays =>
          intro hsize
          rw [ofChar_of_wide hsize]
          rfl
        case hascii =>
          intro hsize
          rw [scanAct_toUInt8 hstops hsize hc hseen, if_neg hstop]
  | string quote body inner hquote hbody ih =>
      have hsplit : At text i ((quote :: body) ++ (inner ++ beyond)) := by simpa using h
      rw [← List.cons_append, Text.byteLength_append, ← Nat.add_assoc] at hlimit
      rw [ofCharsFrom_string hbody hquote,
        Segment.splitAtStop_ordinary (sign_eq_ordinary_of_string hbody hquote i)] at hclose ⊢
      rw [stopped_map, ← ih hsplit.append hlimit hclose.of_map]
      exact walk_string hsplit hquote hbody (by omega) (scanAct_of_isQuote hquote)
  | unclosed quote inner hquote hcloses =>
      rw [ofCharsFrom_of_unclosed hquote hcloses, Segment.splitAtStop, if_pos rfl]
      exact walk_unclosed h hquote hcloses hlimit (scanAct_of_isQuote hquote)

theorem scan_eq
    (h : At text i (inner ++ beyond)) (hlimit : limit = i + Text.byteLength inner)
    (hstops : Stops stops)
    (hclose : ClosesSeen stops (Segment.splitAtStop 0 (ofCharsFrom none i inner))) :
    scan text stops i limit =
      stopped limit (Segment.splitAtStop 0 (ofCharsFrom none i inner)) :=
  walk_scanAct h hlimit hstops hclose

/-! ## Blocks -/

theorem blockAct_of_le {b : UInt8} (hb : 128 ≤ b.toNat) :
    blockAct text depth i b = .ok (.next depth (i + 1)) := by
  have hne : ∀ d : Char, d.utf8Size = 1 → b ≠ d.toUInt8 := fun d => ne_toUInt8_of_le hb
  simp (disch := decide) [blockAct, isQuoteByte_of_le hb, hne]

theorem blockAct_of_isQuote (hquote : Text.isQuote quote = true) :
    blockAct text depth i quote.toUInt8 =
      .next depth <$> skipString text i (bytes text).length := by
  rw [blockAct, isQuoteByte_toUInt8 (utf8Size_of_isQuote hquote), if_pos hquote]

theorem blockAct_toUInt8 (hsize : c.utf8Size = 1) (hquote : Text.isQuote c = false) :
    blockAct text (depth + 1) i c.toUInt8 =
      .ok (if Sign.ofChar c = .closeBrace ∧ depth = 0 then .done i
      else .next ((Sign.ofChar c).braces depth + 1) (i + 1)) := by
  rw [blockAct, isQuoteByte_toUInt8 hsize, hquote, if_neg Bool.false_ne_true]
  fun_cases Sign.ofChar c with
  | case2 =>
      rw [if_neg (by decide), if_pos rfl, subtract_of_le (by omega), bind_ok, Nat.add_sub_cancel]
      cases depth <;> rfl
  | case6 _ hopen hclose =>
      have hne : c ≠ '{' ∧ c ≠ '}' := ⟨hopen, hclose⟩
      simp (disch := first | decide | assumption) [toUInt8_inj, Sign.braces, hne]
  | _ => simp (disch := decide) [toUInt8_inj, Sign.braces]

/-- Where a search over bytes from `offset` on finds the brace that ends what the
search over glyphs has split off. -/
def closed (offset : Nat) : Except Fault (List Glyph × List Glyph) → Checked Fault Nat
  | .error fault => raise fault
  | .ok (part, _) => .ok (offset + Text.byteLength (chars part))

theorem closed_map (offset : Nat) (front : List Glyph)
    (split : Except Fault (List Glyph × List Glyph)) :
    closed offset ((fun p => (front ++ p.1, p.2)) <$> split) =
      closed (offset + Text.byteLength (chars front)) split := by
  rcases split with fault | ⟨part, rest⟩
  · rfl
  · have hbytes : offset + Text.byteLength (chars (front ++ part)) =
        offset + Text.byteLength (chars front) + Text.byteLength (chars part) := by
      rw [chars_append, Text.byteLength_append, Nat.add_assoc]
    exact congrArg Except.ok hbytes

theorem walk_blockAct {opener : Nat} (h : At text i inner) :
    walk text (bytes text).length (blockAct text) (fun _ => raise ⟨.unclosedBlock, opener⟩)
        (depth + 1) i =
      closed i (Segment.splitBlock opener depth (ofCharsFrom none i inner)) := by
  have hlimit : (bytes text).length = i + Text.byteLength inner := by
    rw [length_bytes, h.byteLength]
  induction inner using Glyph.strides generalizing depth i with
  | nil => exact walk_of_le (by simp [hlimit])
  | char c inner hc ih =>
      have hpos := c.utf8Size_pos
      have hlt : i < (bytes text).length := by
        rw [hlimit, Text.byteLength_cons]
        omega
      have hsign : Sign.ofChar c ≠ .unclosedQuote := Sign.ofChar_ne_unclosedQuote c
      rw [Text.byteLength_cons, ← Nat.add_assoc] at hlimit
      rw [ofCharsFrom_of_not_isQuote hc]
      by_cases hstop : Sign.ofChar c = .closeBrace ∧ depth = 0
      · have hsize : c.utf8Size = 1 := by
          apply utf8Size_of_sign_ne
          simp [hstop.1]
        rw [Segment.splitBlock, if_neg hsign, if_pos hstop]
        apply walk_of_done hlt (byteAt_of_ascii h hsize)
        rw [blockAct_toUInt8 hsize hc, if_pos hstop]
        rfl
      · have hfront : Text.byteLength (chars [⟨i, c, .ofChar c⟩]) = c.utf8Size := by simp [chars]
        have hrest := closed_map i [⟨i, c, .ofChar c⟩]
          (Segment.splitBlock opener ((Sign.ofChar c).braces depth)
            (ofCharsFrom none (i + c.utf8Size) inner))
        rw [hfront, ← ih h.next hlimit] at hrest
        rw [Segment.splitBlock_of_pass hsign hstop]
        refine Eq.trans ?_ hrest.symm
        apply walk_char h (by omega) fun j b hb => blockAct_of_le hb
        case hstays =>
          intro hsize
          rw [ofChar_of_wide hsize]
          rfl
        case hascii =>
          intro hsize
          rw [blockAct_toUInt8 hsize hc, if_neg hstop]
  | string quote body inner hquote hbody ih =>
      have hsplit : At text i ((quote :: body) ++ inner) := h
      rw [← List.cons_append, Text.byteLength_append, ← Nat.add_assoc] at hlimit
      rw [ofCharsFrom_string hbody hquote,
        Segment.splitBlock_ordinary (sign_eq_ordinary_of_string hbody hquote i), closed_map,
        chars_ofCharsFrom, ← ih hsplit.append hlimit]
      exact walk_string hsplit hquote hbody (by omega) (blockAct_of_isQuote hquote)
  | unclosed quote inner hquote hcloses =>
      have hwhole : At text i (quote :: inner ++ []) := by simpa using h
      rw [ofCharsFrom_of_unclosed hquote hcloses, Segment.splitBlock, if_pos rfl]
      exact walk_unclosed hwhole hquote hcloses hlimit (blockAct_of_isQuote hquote)

theorem findBlockEnd_eq (h : At text i ('{' :: inner)) :
    findBlockEnd text i =
      closed (i + 1) (Segment.splitBlock i 0 (ofCharsFrom none (i + 1) inner)) := by
  have hsize : '{'.utf8Size = 1 := rfl
  have hlt : i < (bytes text).length := by
    rw [length_bytes, h.byteLength, Text.byteLength_cons]
    omega
  have hnext : At text (i + 1) inner := by simpa [hsize] using h.next
  rw [findBlockEnd, ← walk_blockAct hnext]
  exact walk_of_next hlt (byteAt_of_ascii h hsize) rfl (by omega)

end Searches

end ContrastLint.Bytewise

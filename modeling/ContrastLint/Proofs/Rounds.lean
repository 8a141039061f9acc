import ContrastLint.Proofs.Searches
import Mathlib.Data.List.DropRight

/-!
# Rounds

The reader over bytes finds one segment in a round.  What it finds, and where it
goes on, is the first segment of the glyphs and what follows it.  This holds of a
whole stylesheet, and of the body of a rule wherever the body can be cut: the end of
a nested block is searched in the whole text, but it stands inside the body.
-/

namespace ContrastLint.Bytewise

open Glyph Segment

/-- What is found in `inner`, the text from `start` up to the limit, if it does not
begin with a blank: over bytes by searches, and over glyphs as the first segment. -/
inductive Finds (text beyond : List Char) (stops : List UInt8) (limit start : Nat) :
    List Char → Except Fault (Option (Segment × List Glyph)) → Prop
  | fault {inner : List Char} {fault : Fault} (hscan : scan text stops start limit = raise fault) :
      Finds text beyond stops limit start inner (.error fault)
  | last {a : List Char} (hend : limit = start + Text.byteLength a)
      (hscan : scan text stops start limit = .ok (limit, none)) :
      Finds text beyond stops limit start a
        (.ok (some (⟨start, ofCharsFrom none start a, none⟩, [])))
  | close {a b : List Char} {stop : Nat}
      (hscan : scan text stops start limit = .ok (stop, some '}'.toUInt8)) :
      Finds text beyond stops limit start (a ++ '}' :: b) (.error ⟨.unexpectedClose, stop⟩)
  | semicolon {a b : List Char} {stop : Nat} (hstop : stop = start + Text.byteLength a)
      (hend : limit = stop + 1 + Text.byteLength b)
      (hscan : scan text stops start limit = .ok (stop, some ';'.toUInt8))
      (hnext : At text (stop + 1) (b ++ beyond)) :
      Finds text beyond stops limit start (a ++ ';' :: b)
        (.ok (some (⟨start, ofCharsFrom none start a, none⟩, ofCharsFrom none (stop + 1) b)))
  | unclosed {a b : List Char} {stop : Nat} {fault : Fault}
      (hscan : scan text stops start limit = .ok (stop, some '{'.toUInt8))
      (hblock : findBlockEnd text stop = raise fault) :
      Finds text beyond stops limit start (a ++ '{' :: b) (.error fault)
  | block {a body b : List Char} {stop close : Nat} (hstop : stop = start + Text.byteLength a)
      (hclose : close = stop + 1 + Text.byteLength body)
      (hend : limit = close + 1 + Text.byteLength b)
      (hscan : scan text stops start limit = .ok (stop, some '{'.toUInt8))
      (hblock : findBlockEnd text stop = .ok close)
      (hbody : At text (stop + 1) (body ++ '}' :: (b ++ beyond)))
      (hnext : At text (close + 1) (b ++ beyond))
      (hbalance : Glyph.balance 0 0 (ofCharsFrom none (stop + 1) body) = .ok ()) :
      Finds text beyond stops limit start (a ++ '{' :: (body ++ '}' :: b))
        (.ok (some (⟨start, ofCharsFrom none start a, some (ofCharsFrom none (stop + 1) body)⟩,
          ofCharsFrom none (close + 1) b)))

variable {text inner beyond a b : List Char} {stops : List UInt8} {limit start : Nat}

/-- A search for stops may be trusted in a whole stylesheet, and in a body that
can be cut. -/
def Scope (beyond : List Char) (stops : List UInt8)
    (first : Except Fault (Option (Segment × List Glyph))) : Prop :=
  stops = sheetStops ∧ beyond = [] ∨ stops = bodyStops ∧ ∃ found, first = .ok found

section Scope

variable {first : Except Fault (Option (Segment × List Glyph))}

theorem Scope.stops_of (h : Scope beyond stops first) : Stops stops := by
  rcases h with ⟨rfl, -⟩ | ⟨rfl, -⟩
  · exact stops_sheetStops
  · exact stops_bodyStops

theorem Scope.eq_nil {fault : Fault} (h : Scope beyond stops (.error fault)) : beyond = [] := by
  rcases h with ⟨-, rfl⟩ | ⟨-, found, hfound⟩
  · rfl
  · contradiction

theorem Scope.closesSeen
    {glyphs : List Glyph} (h : Scope beyond stops (first? glyphs))
    (hstart : glyphs.dropWhile (Text.isAsciiWhite ·.char) = glyphs) :
    ClosesSeen stops (splitAtStop 0 glyphs) := by
  rcases h with ⟨rfl, -⟩ | ⟨rfl, found, hfound⟩
  · exact .inl (by decide)
  · refine .inr fun part stop rest hsplit hsign => ?_
    cases glyphs with
    | nil => cases hsplit
    | cons first others =>
        rw [first?_of_close hstart hsplit hsign] at hfound
        contradiction

end Scope

/-- Where the search over glyphs stops, a brace or a semicolon stands. -/
theorem stop_cases
    {parens offset : Nat} {glyphs part : List Glyph} {c : Char}
    (h : splitAtStop parens glyphs = .ok (part, ofCharsFrom none offset (c :: b))) :
    (c = '{' ∨ c = '}' ∨ c = ';') ∧
      ofCharsFrom none offset (c :: b) =
        ⟨offset, c, .ofChar c⟩ :: ofCharsFrom none (offset + 1) b := by
  cases hc : Text.isQuote c with
  | true =>
      rw [ofCharsFrom_of_isQuote hc] at h
      split at h
      · have hsign := stop_of_splitAtStop h
        simp at hsign
      · have hsign := stop_of_splitAtStop h
        simp at hsign
  | false =>
      rw [ofCharsFrom_of_not_isQuote hc] at h ⊢
      have hsign := stop_of_splitAtStop h
      simp only [Sign.ofChar_eq_openBrace_iff, Sign.ofChar_eq_closeBrace_iff,
        Sign.ofChar_eq_semicolon_iff] at hsign
      refine ⟨hsign, ?_⟩
      rcases hsign with rfl | rfl | rfl <;> rfl

/-- The end of a block that is found below a limit is found in the whole text. -/
theorem findBlockEnd_of_split
    {stop : Nat} {part rest : List Glyph} (h : At text stop ('{' :: b ++ beyond))
    (hblock : splitBlock stop 0 (ofCharsFrom none (stop + 1) b) = .ok (part, rest)) :
    ∃ body after, b = body ++ '}' :: after ∧ part = ofCharsFrom none (stop + 1) body ∧
      rest = ofCharsFrom none (stop + 1 + Text.byteLength body + 1) after ∧
      findBlockEnd text stop = .ok (stop + 1 + Text.byteLength body) := by
  obtain ⟨body, after, rfl, hwhole, rfl, rfl⟩ := splitBlock_ofCharsFrom hblock
  refine ⟨body, after, rfl, rfl, rfl, ?_⟩
  have hbrace (tail : List Char) : ofCharsFrom none (stop + 1) (body ++ '}' :: tail) =
      ofCharsFrom none (stop + 1) body ++
        ⟨stop + 1 + Text.byteLength body, '}', .closeBrace⟩ ::
          ofCharsFrom none (stop + 1 + Text.byteLength body + 1) tail := by
    rw [hwhole]
    rfl
  obtain ⟨close, hglyphs, hsplit⟩ := splitBlock_congr hblock
    (ofCharsFrom none (stop + 1 + Text.byteLength body + 1) (after ++ beyond))
  rw [hbrace] at hglyphs
  obtain ⟨rfl, -⟩ := List.cons.inj (List.append_cancel_left hglyphs)
  have htext : At text stop ('{' :: (body ++ '}' :: (after ++ beyond))) := by simpa using h
  rw [findBlockEnd_eq htext, hbrace, hsplit, closed, chars_ofCharsFrom]

theorem dropWhile_blanks (offset : Nat) (text : List Char) :
    (ofCharsFrom none offset text).dropWhile (Text.isAsciiWhite ·.char) =
      ofCharsFrom none (offset + Text.byteLength (text.takeWhile Text.isAsciiWhite))
        (text.dropWhile Text.isAsciiWhite) :=
  dropWhile_ofCharsFrom Text.isAsciiWhite (fun _ => Text.isWhite_of_isAsciiWhite) offset text

/-- What a round finds if it stops where a block opens. -/
theorem finds_of_open
    {first : Glyph} {others : List Glyph} {stop : Nat}
    (hdrop : (first :: others).dropWhile (Text.isAsciiWhite ·.char) = first :: others)
    (hsplit : splitAtStop 0 (first :: others) =
      .ok (ofCharsFrom none first.offset a,
        ⟨stop, '{', .openBrace⟩ :: ofCharsFrom none (stop + 1) b))
    (hstop : stop = first.offset + Text.byteLength a) (h : At text stop ('{' :: b ++ beyond))
    (hlimit : limit = stop + 1 + Text.byteLength b)
    (hscan : scan text stops first.offset limit = .ok (stop, some '{'.toUInt8))
    (hscope : Scope beyond stops (first? (first :: others))) :
    Finds text beyond stops limit first.offset (a ++ '{' :: b) (first? (first :: others)) := by
  rw [first?_of_open hdrop hsplit rfl] at hscope ⊢
  cases hblock : splitBlock stop 0 (ofCharsFrom none (stop + 1) b) with
  | error fault =>
      rw [hblock, bind_error] at hscope
      rw [bind_error]
      obtain rfl := hscope.eq_nil
      rw [List.append_nil] at h
      exact .unclosed hscan (by rw [findBlockEnd_eq h, hblock]; rfl)
  | ok split =>
      have hsize : '}'.utf8Size = 1 := rfl
      obtain ⟨part, rest⟩ := split
      have hbalance : Glyph.balance 0 0 part = .ok () := balance_of_splitBlock hblock
      obtain ⟨body, after, rfl, rfl, rfl, hclose⟩ := findBlockEnd_of_split h hblock
      have hbody : At text (stop + 1) (body ++ '}' :: (after ++ beyond)) := by
        rw [List.cons_append, List.append_assoc, List.cons_append] at h
        exact h.next
      rw [Text.byteLength_append, Text.byteLength_cons, hsize] at hlimit
      rw [bind_ok]
      exact .block hstop rfl (by omega) hscan hclose hbody hbody.append.next hbalance

/-- What a round finds up to the first stop, and in the block that it opens. -/
theorem finds
    {c : Char} {tail : List Char} (hinner : inner = c :: tail) (hc : Text.isAsciiWhite c = false)
    (h : At text start (inner ++ beyond)) (hlimit : limit = start + Text.byteLength inner)
    (hscope : Scope beyond stops (first? (ofCharsFrom none start inner))) :
    Finds text beyond stops limit start inner (first? (ofCharsFrom none start inner)) := by
  have hdrop : (ofCharsFrom none start inner).dropWhile (Text.isAsciiWhite ·.char) =
      ofCharsFrom none start inner := by
    simp [dropWhile_blanks, hinner, hc]
  have hscan := scan_eq h hlimit hscope.stops_of (hscope.closesSeen hdrop)
  obtain ⟨first, others, hfirst, rfl⟩ :
      ∃ first others, ofCharsFrom none start inner = first :: others ∧ first.offset = start := by
    obtain ⟨sign, others, hfirst⟩ := exists_ofCharsFrom_cons start c tail
    exact ⟨_, others, hinner ▸ hfirst, rfl⟩
  clear hinner
  cases hsplit : splitAtStop 0 (ofCharsFrom none first.offset inner) with
  | error fault =>
      rw [hsplit] at hscan
      rw [hfirst] at hsplit hdrop
      rw [hfirst, first?_of_fault hdrop hsplit]
      exact .fault hscan
  | ok split =>
      have hopen : '{'.utf8Size = 1 := rfl
      have hsemicolon : ';'.utf8Size = 1 := rfl
      obtain ⟨part, rest⟩ := split
      obtain ⟨a, b, rfl, -, rfl, rfl⟩ := splitAtStop_ofCharsFrom hsplit
      rw [Text.byteLength_append, ← Nat.add_assoc] at hlimit
      cases b with
      | nil =>
          rw [hsplit] at hscan
          rw [hfirst] at hsplit hdrop
          rw [hfirst, first?_of_end hdrop hsplit, List.append_nil]
          exact .last hlimit hscan
      | cons c b =>
          obtain ⟨hc, hstop⟩ := stop_cases hsplit
          have hat : At text (first.offset + Text.byteLength a) (c :: b ++ beyond) := by
            rw [List.append_assoc] at h
            exact h.append
          rw [hstop] at hsplit
          rw [hsplit] at hscan
          rw [hfirst] at hsplit hdrop hscope ⊢
          rw [Text.byteLength_cons, ← Nat.add_assoc] at hlimit
          rcases hc with rfl | rfl | rfl
          · exact finds_of_open hdrop hsplit rfl hat (hopen ▸ hlimit) hscan hscope
          · rw [first?_of_close hdrop hsplit rfl]
            exact .close hscan
          · rw [first?_of_semicolon hdrop hsplit rfl]
            exact .semicolon rfl (hsemicolon ▸ hlimit) hscan hat.next

theorem first?_dropWhile (glyphs : List Glyph) :
    first? (glyphs.dropWhile (Text.isAsciiWhite ·.char)) = first? glyphs := by
  unfold first?
  rw [List.dropWhile_idempotent]

/-- What is found from the byte `i` on: the end of the text after some blanks, or
what stands behind them. -/
inductive Turn (text beyond : List Char) (stops : List UInt8) (limit i : Nat) (inner : List Char) :
    Except Fault (Option (Segment × List Glyph)) → Prop
  | blank {start : Nat} (hskip : skipBlanks text i limit = .ok start) (hend : limit ≤ start) :
      Turn text beyond stops limit i inner (.ok none)
  | found {start : Nat} {c : Char} {tail rest : List Char}
      {first : Except Fault (Option (Segment × List Glyph))}
      (hskip : skipBlanks text i limit = .ok start) (hi : i ≤ start) (hlt : start < limit)
      (hrest : rest = c :: tail) (hc : Text.isAsciiWhite c = false)
      (hlength : rest.length ≤ inner.length) (hat : At text start (rest ++ beyond))
      (hfinds : Finds text beyond stops limit start rest first) :
      Turn text beyond stops limit i inner first

theorem turn
    {i : Nat} (h : At text i (inner ++ beyond)) (hlimit : limit = i + Text.byteLength inner)
    (hscope : Scope beyond stops (first? (ofCharsFrom none i inner))) :
    Turn text beyond stops limit i inner (first? (ofCharsFrom none i inner)) := by
  have hskip := skipBlanks_eq h hlimit
  have hsplit := Text.eq_blanks_append inner
  rw [← first?_dropWhile, dropWhile_blanks] at hscope ⊢
  rw [hsplit, List.append_assoc] at h
  rw [hsplit, Text.byteLength_append, ← Nat.add_assoc] at hlimit
  have hlength : (inner.dropWhile Text.isAsciiWhite).length ≤ inner.length :=
    (List.dropWhile_sublist _).length_le
  cases hrest : inner.dropWhile Text.isAsciiWhite with
  | nil =>
      rw [hrest, Text.byteLength_nil, Nat.add_zero] at hlimit
      have hnone : first? (ofCharsFrom none
          (i + Text.byteLength (inner.takeWhile Text.isAsciiWhite)) []) = .ok none :=
        first?_of_blank rfl
      rw [hnone]
      exact .blank hskip (by omega)
  | cons c tail =>
      have hc := List.head?_dropWhile_not Text.isAsciiWhite inner
      have hpos := c.utf8Size_pos
      rw [hrest] at h hc hlength hlimit hscope
      have hlt : i + Text.byteLength (inner.takeWhile Text.isAsciiWhite) < limit := by
        rw [hlimit, Text.byteLength_cons]
        omega
      exact .found hskip (Nat.le_add_right _ _) hlt rfl (by simpa using hc) hlength h.append
        (finds rfl (by simpa using hc) h.append hlimit hscope)

end ContrastLint.Bytewise

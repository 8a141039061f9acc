import ContrastLint.Stylesheet.Glyph
import Mathlib.Tactic

/-!
# Quoted strings, one character at a time

The reader of glyphs looks ahead for the end of a string before it enters it.
This file describes the same strings by a machine that sees one character
after the other and never looks ahead.  Because its state after a text is a
left fold, what the machine says about two texts composes; the texts that
leave it outside all strings are those that the reader of glyphs takes apart
without finding an unclosed quote.
-/

namespace ContrastLint

namespace Text

def byteLength (text : List Char) : Nat :=
  (text.map Char.utf8Size).sum

@[simp] theorem byteLength_nil : byteLength [] = 0 := rfl

@[simp] theorem byteLength_cons (c : Char) (text : List Char) :
    byteLength (c :: text) = c.utf8Size + byteLength text := by
  simp [byteLength]

@[simp] theorem byteLength_append (a b : List Char) :
    byteLength (a ++ b) = byteLength a + byteLength b := by
  simp [byteLength]

theorem head?_ne_of_ne_cons
    {c : Char} {text : List Char} (h : ∀ rest, text = c :: rest → False) :
    text.head? ≠ some c := by
  intro hhead
  obtain ⟨rest, htext⟩ := List.head?_eq_some_iff.mp hhead
  exact h rest htext

end Text

namespace Sign

theorem ofChar_eq_openBrace_iff {c : Char} : ofChar c = .openBrace ↔ c = '{' := by
  unfold ofChar
  split <;> simp_all

theorem ofChar_eq_closeBrace_iff {c : Char} : ofChar c = .closeBrace ↔ c = '}' := by
  unfold ofChar
  split <;> simp_all

theorem ofChar_eq_openParen_iff {c : Char} : ofChar c = .openParen ↔ c = '(' := by
  unfold ofChar
  split <;> simp_all

theorem ofChar_eq_semicolon_iff {c : Char} : ofChar c = .semicolon ↔ c = ';' := by
  unfold ofChar
  split <;> simp_all

theorem ofChar_ne_unclosedQuote (c : Char) : ofChar c ≠ .unclosedQuote := by
  unfold ofChar
  split <;> simp

theorem ofChar_of_isWhite {c : Char} (hc : Text.isWhite c = true) : ofChar c = .ordinary := by
  unfold ofChar
  split
  all_goals first
    | rfl
    | exact absurd hc (by decide)

end Sign

theorem Text.isQuote_of_isWhite {c : Char} (hc : isWhite c = true) : isQuote c = false := by
  rw [Bool.eq_false_iff]
  intro hquote
  simp only [isQuote, Bool.or_eq_true, beq_iff_eq] at hquote
  rcases hquote with rfl | rfl
  · exact absurd hc (by decide)
  · exact absurd hc (by decide)

inductive Quote
  | single
  | double
  deriving DecidableEq, Repr

namespace Quote

def char : Quote → Char
  | .single => '\''
  | .double => '"'

def ofChar? (c : Char) : Option Quote :=
  if c = '\'' then some .single else if c = '"' then some .double else none

@[simp] theorem ofChar?_char (q : Quote) : ofChar? q.char = some q := by
  cases q <;> rfl

theorem char_of_ofChar? {c : Char} {q : Quote} (h : ofChar? c = some q) :
    q.char = c := by
  unfold ofChar? at h
  split at h
  · cases h
    simp [char, *]
  · split at h
    · cases h
      simp [char, *]
    · contradiction

theorem ofChar?_eq_none_iff {c : Char} :
    ofChar? c = none ↔ Text.isQuote c = false := by
  unfold ofChar? Text.isQuote
  by_cases hs : c = '\''
  · simp [hs]
  · by_cases hd : c = '"' <;> simp [hs, hd]

@[simp] theorem isQuote_char (q : Quote) : Text.isQuote q.char = true := by
  cases q <;> rfl

@[simp] theorem char_ne_backslash (q : Quote) : q.char ≠ '\\' := by
  cases q <;> decide

@[simp] theorem char_ne_newline (q : Quote) : q.char ≠ '\n' := by
  cases q <;> decide

end Quote

/-- Where a reader of single characters stands with respect to quoted strings. -/
inductive Quoting
  | outside
  | inside (quote : Quote)
  /-- In a string, just after a backslash. -/
  | escaped (quote : Quote)
  /-- A string was still open at the end of its line. -/
  | broken
  deriving DecidableEq, Repr

namespace Quoting

def next : Quoting → Char → Quoting
  | .outside, c =>
      match Quote.ofChar? c with
      | some q => .inside q
      | none => .outside
  | .inside q, c =>
      if c = '\\' then .escaped q
      else if c = '\n' then .broken
      else if c = q.char then .outside
      else .inside q
  | .escaped q, _ => .inside q
  | .broken, _ => .broken

@[simp] theorem inside_next_escaped (q : Quote) (c : Char) :
    ((inside q).next '\\').next c = .inside q := rfl

def after (s : Quoting) (text : List Char) : Quoting :=
  text.foldl next s

@[simp] theorem after_nil (s : Quoting) : s.after [] = s := rfl

@[simp] theorem after_cons (s : Quoting) (c : Char) (text : List Char) :
    s.after (c :: text) = (s.next c).after text := rfl

@[simp] theorem after_append (s : Quoting) (a b : List Char) :
    s.after (a ++ b) = (s.after a).after b := by
  simp [after]

@[simp] theorem after_broken (text : List Char) : broken.after text = .broken := by
  induction text with
  | nil => rfl
  | cons c text ih => exact ih

/-- The sign of a character: only those outside strings have one. -/
def sign : Quoting → Char → Sign
  | .outside, c => .ofChar c
  | _, _ => .ordinary

def glyphs : Quoting → Nat → List Char → List Glyph
  | _, _, [] => []
  | s, offset, c :: text =>
      ⟨offset, c, s.sign c⟩ :: (s.next c).glyphs (offset + c.utf8Size) text

@[simp] theorem glyphs_nil (s : Quoting) (offset : Nat) : s.glyphs offset [] = [] := rfl

@[simp] theorem glyphs_cons (s : Quoting) (offset : Nat) (c : Char) (text : List Char) :
    s.glyphs offset (c :: text) =
      ⟨offset, c, s.sign c⟩ :: (s.next c).glyphs (offset + c.utf8Size) text := rfl

@[simp] theorem chars_glyphs (s : Quoting) (offset : Nat) (text : List Char) :
    Glyph.chars (s.glyphs offset text) = text := by
  induction text generalizing s offset with
  | nil => rfl
  | cons c text ih =>
      have hrest := ih (s.next c) (offset + c.utf8Size)
      simp only [Glyph.chars] at hrest
      simp [Glyph.chars, hrest]

@[simp] theorem glyphs_eq_nil_iff {s : Quoting} {offset : Nat} {text : List Char} :
    s.glyphs offset text = [] ↔ text = [] := by
  cases text <;> simp

/-! ## Agreement with the reader of glyphs -/

/-- The states of the machine that a reader of glyphs knows: outside strings
and in a string, but not just after a backslash. -/
inductive Reads : Option Char → Quoting → Prop
  | outside : Reads none .outside
  | inside (q : Quote) : Reads (some q.char) (.inside q)

theorem Reads.ne_broken
    {quote? : Option Char} {s : Quoting} (hs : Reads quote? s) : s ≠ .broken := by
  cases hs <;> simp

theorem Reads.next_quote
    {s : Quoting} {c : Char} (hs : Reads none s) (hc : Text.isQuote c = true) :
    ∃ q : Quote, q.char = c ∧ s.next c = .inside q := by
  cases hs
  cases hq : Quote.ofChar? c with
  | none => simp [Quote.ofChar?_eq_none_iff.mp hq] at hc
  | some q => exact ⟨q, Quote.char_of_ofChar? hq, by simp [next, hq]⟩

theorem Reads.next_other
    {s : Quoting} {c : Char} (hs : Reads none s) (hc : Text.isQuote c = false) :
    s.next c = .outside := by
  cases hs
  simp [next, Quote.ofChar?_eq_none_iff.mpr hc]

theorem Reads.next_inside
    {q : Quote} {c : Char} (hslash : c ≠ '\\') (hline : c ≠ '\n') :
    Reads (if c = q.char then none else some q.char) ((Quoting.inside q).next c) := by
  by_cases hc : c = q.char
  · simpa [next, hc] using Reads.outside
  · simpa [next, hslash, hline, hc] using Reads.inside q

/-- A string that the text closes goes on neither with a backslash at the end
of the text nor with the end of the line. -/
theorem ne_of_after_cons
    {q : Quote} {c : Char} {rest : List Char}
    (hescape : ∀ d text, c = '\\' → rest = d :: text → False)
    (h : (inside q).after (c :: rest) = .outside) :
    c ≠ '\\' ∧ c ≠ '\n' := by
  constructor
  · rintro rfl
    cases rest with
    | nil => simp [next] at h
    | cons d text => exact hescape d text rfl rfl
  · rintro rfl
    simp [next] at h

theorem closes_of_after
    {q : Quote} {text : List Char}
    (h : (inside q).after text = .outside) :
    Glyph.closes q.char text = true := by
  fun_induction Glyph.closes q.char text with
  | case1 => simp at h
  | case2 c rest ih => exact ih (by simpa [next] using h)
  | case3 rest hescape => exact absurd rfl (ne_of_after_cons hescape h).2
  | case4 c rest hescape hline ih =>
      by_cases hc : c = q.char
      · simp [hc]
      · have hslash := (ne_of_after_cons hescape h).1
        have hrest : (inside q).after rest = .outside := by
          simpa [next, hslash, hline, hc] using h
        simp [ih hrest]

theorem closes_cons
    {q : Quote} {c : Char} {rest : List Char}
    (hescape : ∀ d text, c = '\\' → rest = d :: text → False)
    (h : Glyph.closes q.char (c :: rest) = true) :
    c ≠ '\\' ∧ c ≠ '\n' ∧
      ∀ quote, (if c = q.char then none else some q.char) = some quote →
        Glyph.closes quote rest = true := by
  have hslash : c ≠ '\\' := by
    rintro rfl
    cases rest with
    | nil => simp [Glyph.closes, q.char_ne_backslash.symm] at h
    | cons d text => exact hescape d text rfl rfl
  refine ⟨hslash, ?_⟩
  unfold Glyph.closes at h
  split at h
  · contradiction
  · simp_all
  · next hcons =>
      cases hcons
      split at h
      · contradiction
      · next hline =>
          refine ⟨hline, ?_⟩
          intro quote hquote
          split at hquote
          · contradiction
          · next hc =>
              cases hquote
              simpa [hc] using h

/-- A text that leaves all strings closed has the glyphs of the machine. -/
theorem ofCharsFrom_eq_glyphs
    {quote? : Option Char} {s : Quoting} {offset : Nat} {text : List Char}
    (hs : Reads quote? s) (h : s.after text = .outside) :
    Glyph.ofCharsFrom quote? offset text = s.glyphs offset text := by
  fun_induction Glyph.ofCharsFrom quote? offset text generalizing s with
  | case1 => simp
  | case2 offset c rest hquote _ ih =>
      rcases hs.next_quote hquote with ⟨q, rfl, hnext⟩
      rw [after_cons, hnext] at h
      rw [ih (.inside q) h, glyphs_cons, hnext]
      cases hs
      cases q <;> rfl
  | case3 offset c rest hquote hcloses _ =>
      rcases hs.next_quote hquote with ⟨q, rfl, hnext⟩
      rw [after_cons, hnext] at h
      simp [closes_of_after h] at hcloses
  | case4 offset c rest hquote ih =>
      have hnext := hs.next_other (Bool.eq_false_iff.mpr hquote)
      rw [after_cons, hnext] at h
      rw [ih .outside h, glyphs_cons, hnext]
      cases hs
      rfl
  | case5 quote offset c rest ih =>
      cases hs with
      | inside q =>
          rw [after_cons, after_cons, inside_next_escaped] at h
          rw [ih (.inside q) h]
          rfl
  | case6 quote offset c rest hescape ih =>
      cases hs with
      | inside q =>
          rcases ne_of_after_cons hescape h with ⟨hslash, hline⟩
          rw [after_cons] at h
          rw [ih (Reads.next_inside hslash hline) h, glyphs_cons]
          rfl

/-- A text in which every quote is closed leaves the machine outside all strings. -/
theorem after_eq_outside
    {quote? : Option Char} {s : Quoting} {offset : Nat} {text : List Char}
    (hs : Reads quote? s)
    (hopen : ∀ q, quote? = some q → Glyph.closes q text = true)
    (h : ∀ g ∈ Glyph.ofCharsFrom quote? offset text, g.sign ≠ .unclosedQuote) :
    s.after text = .outside := by
  fun_induction Glyph.ofCharsFrom quote? offset text generalizing s with
  | case1 =>
      cases hs with
      | outside => rfl
      | inside q => simp [Glyph.closes] at hopen
  | case2 offset c rest hquote hcloses ih =>
      rcases hs.next_quote hquote with ⟨q, rfl, hnext⟩
      rw [after_cons, hnext]
      exact ih (.inside q) (by simpa using hcloses) (List.forall_mem_cons.mp h).2
  | case3 offset c rest hquote hcloses _ =>
      exact absurd rfl (h _ List.mem_cons_self)
  | case4 offset c rest hquote ih =>
      rw [after_cons, hs.next_other (Bool.eq_false_iff.mpr hquote)]
      exact ih .outside (by simp) (List.forall_mem_cons.mp h).2
  | case5 quote offset c rest ih =>
      cases hs with
      | inside q =>
          have hglyphs := (List.forall_mem_cons.mp (List.forall_mem_cons.mp h).2).2
          rw [after_cons, after_cons, inside_next_escaped]
          exact ih (.inside q) (by simpa [Glyph.closes] using hopen) hglyphs
  | case6 quote offset c rest hescape ih =>
      cases hs with
      | inside q =>
          rcases closes_cons hescape (hopen _ rfl) with ⟨hslash, hline, hrest⟩
          rw [after_cons]
          exact ih (Reads.next_inside hslash hline) hrest (List.forall_mem_cons.mp h).2

end Quoting

end ContrastLint

import ContrastLint.Proofs.Cutting

/-!
# Texts string by string

Where a reader jumps over a string as a whole, a text is made up of characters
that are no quotes and of whole strings, up to a quote that is not closed.
Induction on a text in these strides describes where the searches for a stop and
for the end of a block split the glyphs of a text: between two characters of
the text, in front of glyphs that do not depend on what stands before.
-/

namespace ContrastLint

namespace Glyph

/-- What follows a quote, up to and with the one that closes it. -/
inductive Quoted (quote : Char) : List Char → Prop
  | close : Quoted quote [quote]
  | escape {c : Char} {text : List Char} (hrest : Quoted quote text) :
      Quoted quote ('\\' :: c :: text)
  | other {c : Char} {text : List Char} (hslash : c ≠ '\\') (hline : c ≠ '\n')
      (hquote : c ≠ quote) (hrest : Quoted quote text) : Quoted quote (c :: text)

variable {quote : Char} {text body rest : List Char} {offset : Nat}

theorem exists_quoted_of_closes (h : closes quote text = true) :
    ∃ body rest, text = body ++ rest ∧ Quoted quote body := by
  fun_induction closes quote text with
  | case1 => contradiction
  | case2 c text ih =>
      obtain ⟨body, rest, rfl, hbody⟩ := ih h
      exact ⟨_, rest, rfl, .escape hbody⟩
  | case3 => contradiction
  | case4 c text hescape hline ih =>
      by_cases hquote : c = quote
      · exact ⟨[c], text, rfl, hquote ▸ .close⟩
      · have htext : closes quote text = true := by simpa [hquote] using h
        obtain ⟨body, rest, rfl, hbody⟩ := ih htext
        have hslash : c ≠ '\\' := by
          rintro rfl
          cases body with
          | nil => cases hbody
          | cons d body => exact hescape d _ rfl rfl
        exact ⟨_, rest, rfl, .other hslash hline hquote hbody⟩

theorem closes_cons {c : Char} (hslash : c ≠ '\\') :
    closes quote (c :: text) = if c = '\n' then false else c == quote || closes quote text := by
  cases text with
  | nil =>
      rw [closes]
      · simp [closes]
  | cons d text =>
      rw [closes]
      rintro _ _ rfl
      contradiction

theorem ofCharsFrom_some_cons {c : Char} (hslash : c ≠ '\\') :
    ofCharsFrom (some quote) offset (c :: text) =
      ⟨offset, c, .ordinary⟩ ::
        ofCharsFrom (if c = quote then none else some quote) (offset + c.utf8Size) text := by
  rw [ofCharsFrom]
  rintro _ _ rfl
  contradiction

theorem ofCharsFrom_of_not_isQuote {c : Char} (hc : Text.isQuote c = false) :
    ofCharsFrom none offset (c :: text) =
      ⟨offset, c, .ofChar c⟩ :: ofCharsFrom none (offset + c.utf8Size) text := by
  rw [ofCharsFrom, hc]
  rfl

theorem ofCharsFrom_of_isQuote (hquote : Text.isQuote quote = true) :
    ofCharsFrom none offset (quote :: text) =
      if closes quote text then
        ⟨offset, quote, .ordinary⟩ :: ofCharsFrom (some quote) (offset + quote.utf8Size) text
      else
        ⟨offset, quote, .unclosedQuote⟩ :: ofCharsFrom none (offset + quote.utf8Size) text := by
  rw [ofCharsFrom, if_pos hquote]

theorem ofCharsFrom_of_unclosed
    (hquote : Text.isQuote quote = true) (hcloses : closes quote text = false) :
    ofCharsFrom none offset (quote :: text) =
      ⟨offset, quote, .unclosedQuote⟩ :: ofCharsFrom none (offset + quote.utf8Size) text := by
  rw [ofCharsFrom_of_isQuote hquote, hcloses, if_neg Bool.false_ne_true]

theorem ne_of_isQuote (hquote : Text.isQuote quote = true) : quote ≠ '\\' ∧ quote ≠ '\n' := by
  constructor
  · rintro rfl
    contradiction
  · rintro rfl
    contradiction

namespace Quoted

theorem closes_append
    (h : Quoted quote body) (hquote : Text.isQuote quote = true) (rest : List Char) :
    closes quote (body ++ rest) = true := by
  rcases ne_of_isQuote hquote with ⟨hslash, hline⟩
  induction h with
  | close => simp [closes_cons hslash, hline]
  | escape _ ih => simpa [closes] using ih
  | other hother hbreak _ _ ih =>
      rw [List.cons_append, closes_cons hother, if_neg hbreak, ih, Bool.or_true]

/-- The glyphs of a string do not depend on what follows the string. -/
theorem ofCharsFrom_append
    (h : Quoted quote body) (hquote : Text.isQuote quote = true) (offset : Nat)
    (rest : List Char) :
    ofCharsFrom (some quote) offset (body ++ rest) =
      ofCharsFrom (some quote) offset body ++
        ofCharsFrom none (offset + Text.byteLength body) rest := by
  have hslash := (ne_of_isQuote hquote).1
  induction h generalizing offset with
  | close => simp [ofCharsFrom_some_cons hslash, ofCharsFrom]
  | escape _ ih =>
      have hsize : '\\'.utf8Size = 1 := rfl
      rw [List.cons_append, List.cons_append, ofCharsFrom, ofCharsFrom, ih, Text.byteLength_cons,
        Text.byteLength_cons, hsize, ← Nat.add_assoc, ← Nat.add_assoc]
      rfl
  | other hother _ hne _ ih =>
      rw [List.cons_append, ofCharsFrom_some_cons hother, ofCharsFrom_some_cons hother, if_neg hne,
        ih, Text.byteLength_cons, ← Nat.add_assoc]
      rfl

theorem sign_eq_ordinary
    (h : Quoted quote body) (hquote : Text.isQuote quote = true) (offset : Nat) :
    ∀ g ∈ ofCharsFrom (some quote) offset body, g.sign = .ordinary := by
  have hslash := (ne_of_isQuote hquote).1
  induction h generalizing offset with
  | close => simp [ofCharsFrom_some_cons hslash, ofCharsFrom]
  | escape _ ih =>
      rw [ofCharsFrom, List.forall_mem_cons, List.forall_mem_cons]
      exact ⟨rfl, rfl, ih _⟩
  | other hother _ hne _ ih =>
      rw [ofCharsFrom_some_cons hother, if_neg hne, List.forall_mem_cons]
      exact ⟨rfl, ih _⟩

end Quoted

/-- A string with its quotes, wherever it stands in a text. -/
theorem ofCharsFrom_string
    (h : Quoted quote body) (hquote : Text.isQuote quote = true) (offset : Nat)
    (rest : List Char) :
    ofCharsFrom none offset (quote :: (body ++ rest)) =
      ofCharsFrom none offset (quote :: body) ++
        ofCharsFrom none (offset + Text.byteLength (quote :: body)) rest := by
  have hwhole := h.closes_append hquote []
  rw [List.append_nil] at hwhole
  rw [ofCharsFrom_of_isQuote hquote, ofCharsFrom_of_isQuote hquote, h.closes_append hquote, hwhole,
    if_pos rfl, if_pos rfl, h.ofCharsFrom_append hquote, Text.byteLength_cons, ← Nat.add_assoc]
  rfl

theorem sign_eq_ordinary_of_string
    (h : Quoted quote body) (hquote : Text.isQuote quote = true) (offset : Nat) :
    ∀ g ∈ ofCharsFrom none offset (quote :: body), g.sign = .ordinary := by
  have hwhole := h.closes_append hquote []
  rw [List.append_nil] at hwhole
  rw [ofCharsFrom_of_isQuote hquote, hwhole, if_pos rfl, List.forall_mem_cons]
  exact ⟨rfl, h.sign_eq_ordinary hquote _⟩

@[simp] theorem chars_ofCharsFrom (quote? : Option Char) (offset : Nat) (text : List Char) :
    chars (ofCharsFrom quote? offset text) = text := by
  fun_induction ofCharsFrom quote? offset text <;> simp_all [chars]

theorem chars_append (a b : List Glyph) : chars (a ++ b) = chars a ++ chars b :=
  List.map_append

theorem ofCharsFrom_cons_of_isWhite {c : Char} (hc : Text.isWhite c = true) :
    ofCharsFrom none offset (c :: text) =
      ⟨offset, c, .ordinary⟩ :: ofCharsFrom none (offset + c.utf8Size) text := by
  rw [ofCharsFrom_of_not_isQuote (Text.isQuote_of_isWhite hc), Sign.ofChar_of_isWhite hc]

theorem exists_ofCharsFrom_cons (offset : Nat) (c : Char) (text : List Char) :
    ∃ sign rest, ofCharsFrom none offset (c :: text) = ⟨offset, c, sign⟩ :: rest := by
  cases hc : Text.isQuote c with
  | false => exact ⟨_, _, ofCharsFrom_of_not_isQuote hc⟩
  | true =>
      rw [ofCharsFrom_of_isQuote hc]
      split <;> exact ⟨_, _, rfl⟩

/-- To drop white space from the glyphs of a text is to drop it from the text. -/
theorem dropWhile_ofCharsFrom
    (blank : Char → Bool) (hblank : ∀ c, blank c = true → Text.isWhite c = true)
    (offset : Nat) (text : List Char) :
    (ofCharsFrom none offset text).dropWhile (blank ·.char) =
      ofCharsFrom none (offset + Text.byteLength (text.takeWhile blank))
        (text.dropWhile blank) := by
  induction text generalizing offset with
  | nil => rfl
  | cons c text ih =>
      cases hc : blank c with
      | true =>
          rw [ofCharsFrom_cons_of_isWhite (hblank c hc)]
          simp only [List.dropWhile_cons, List.takeWhile_cons, hc, if_true, ih,
            Text.byteLength_cons, Nat.add_assoc]
      | false =>
          obtain ⟨sign, rest, hfirst⟩ := exists_ofCharsFrom_cons offset c text
          simp [hc, hfirst]

/-- Induction on a text in strides. -/
theorem strides {motive : List Char → Prop} (nil : motive [])
    (char : ∀ c rest, Text.isQuote c = false → motive rest → motive (c :: rest))
    (string : ∀ quote body rest, Text.isQuote quote = true → Quoted quote body → motive rest →
      motive (quote :: (body ++ rest)))
    (unclosed : ∀ quote rest, Text.isQuote quote = true → closes quote rest = false →
      motive (quote :: rest))
    (text : List Char) : motive text := by
  induction hlength : text.length using Nat.strongRecOn generalizing text with
  | ind n ih =>
      cases text with
      | nil => exact nil
      | cons c rest =>
          cases hc : Text.isQuote c with
          | false => exact char c rest hc (ih rest.length (by simp [← hlength]) rest rfl)
          | true =>
              cases hcloses : closes c rest with
              | false => exact unclosed c rest hc hcloses
              | true =>
                  obtain ⟨body, rest, rfl, hbody⟩ := exists_quoted_of_closes hcloses
                  apply string c body rest hc hbody
                  exact ih rest.length (by simp [← hlength]) rest rfl

end Glyph

/-- The glyphs of what follows a text do not depend on it. -/
def Glyph.Whole (text : List Char) : Prop :=
  ∀ offset rest, ofCharsFrom none offset (text ++ rest) =
    ofCharsFrom none offset text ++ ofCharsFrom none (offset + Text.byteLength text) rest

namespace Glyph

theorem whole_nil : Whole [] := by
  intro offset rest
  rfl

theorem Whole.char {c : Char} {text : List Char} (h : Whole text) (hc : Text.isQuote c = false) :
    Whole (c :: text) := by
  intro offset rest
  rw [List.cons_append, ofCharsFrom_of_not_isQuote hc, ofCharsFrom_of_not_isQuote hc, h,
    Text.byteLength_cons, ← Nat.add_assoc]
  rfl

theorem Whole.string
    {quote : Char} {body text : List Char} (h : Whole text) (hbody : Quoted quote body)
    (hquote : Text.isQuote quote = true) : Whole (quote :: (body ++ text)) := by
  intro offset rest
  have hassoc : quote :: (body ++ text) ++ rest = quote :: (body ++ (text ++ rest)) := by simp
  have hbytes : offset + Text.byteLength (quote :: body) + Text.byteLength text =
      offset + Text.byteLength (quote :: (body ++ text)) := by
    simp [Nat.add_assoc]
  rw [hassoc, ofCharsFrom_string hbody hquote, ofCharsFrom_string hbody hquote, h, hbytes,
    List.append_assoc]

end Glyph

namespace Segment

open Glyph

variable {glyphs front part rest : List Glyph} {g : Glyph} {depth opener offset : Nat}
  {text : List Char}

theorem splitAtStop_of_pass
    (hquote : g.sign ≠ .unclosedQuote)
    (hpass : ¬(g.sign = .openBrace ∨ g.sign = .closeBrace ∨ g.sign = .semicolon ∧ depth = 0)) :
    splitAtStop depth (g :: rest) =
      (fun p => (g :: p.1, p.2)) <$> splitAtStop (g.sign.parens depth) rest := by
  rw [splitAtStop, if_neg hquote, if_neg hpass]
  cases splitAtStop (g.sign.parens depth) rest <;> rfl

theorem splitBlock_of_pass
    (hquote : g.sign ≠ .unclosedQuote) (hpass : ¬(g.sign = .closeBrace ∧ depth = 0)) :
    splitBlock opener depth (g :: rest) =
      (fun p => (g :: p.1, p.2)) <$> splitBlock opener (g.sign.braces depth) rest := by
  rw [splitBlock, if_neg hquote, if_neg hpass]
  cases splitBlock opener (g.sign.braces depth) rest <;> rfl

theorem splitAtStop_ordinary (h : ∀ g ∈ front, g.sign = .ordinary) :
    splitAtStop depth (front ++ rest) =
      (fun p => (front ++ p.1, p.2)) <$> splitAtStop depth rest := by
  induction front with
  | nil =>
      rw [List.nil_append]
      cases splitAtStop depth rest <;> rfl
  | cons g front ih =>
      rcases List.forall_mem_cons.mp h with ⟨hg, hfront⟩
      rw [List.cons_append, splitAtStop_of_pass (by simp [hg]) (by simp [hg]), hg, Sign.parens,
        ih hfront]
      · cases splitAtStop depth rest <;> rfl
      all_goals simp

theorem splitBlock_ordinary (h : ∀ g ∈ front, g.sign = .ordinary) :
    splitBlock opener depth (front ++ rest) =
      (fun p => (front ++ p.1, p.2)) <$> splitBlock opener depth rest := by
  induction front with
  | nil =>
      rw [List.nil_append]
      cases splitBlock opener depth rest <;> rfl
  | cons g front ih =>
      rcases List.forall_mem_cons.mp h with ⟨hg, hfront⟩
      rw [List.cons_append, splitBlock_of_pass (by simp [hg]) (by simp [hg]), hg, Sign.braces,
        ih hfront]
      · cases splitBlock opener depth rest <;> rfl
      all_goals simp

/-- The search for a stop splits a text between two characters. -/
theorem splitAtStop_ofCharsFrom
    (h : splitAtStop depth (ofCharsFrom none offset text) = .ok (part, rest)) :
    ∃ a b, text = a ++ b ∧ Whole a ∧ part = ofCharsFrom none offset a ∧
      rest = ofCharsFrom none (offset + Text.byteLength a) b := by
  induction text using Glyph.strides generalizing offset depth part with
  | nil =>
      cases h
      exact ⟨[], [], rfl, whole_nil, rfl, rfl⟩
  | char c text hc ih =>
      rw [ofCharsFrom_of_not_isQuote hc] at h
      cases stopStep_of_splitAtStop h with
      | stop =>
          exact ⟨[], c :: text, rfl, whole_nil, rfl, (ofCharsFrom_of_not_isQuote hc).symm⟩
      | pass _ _ hrest =>
          obtain ⟨a, b, rfl, hwhole, rfl, rfl⟩ := ih hrest
          refine ⟨c :: a, b, rfl, hwhole.char hc, (ofCharsFrom_of_not_isQuote hc).symm, ?_⟩
          rw [Text.byteLength_cons, Nat.add_assoc]
  | string quote body text hquote hbody ih =>
      rw [ofCharsFrom_string hbody hquote,
        splitAtStop_ordinary (sign_eq_ordinary_of_string hbody hquote offset)] at h
      obtain ⟨⟨part, rest'⟩, hsplit, heq⟩ := map_eq_ok_iff.mp h
      cases heq
      obtain ⟨a, b, rfl, hwhole, rfl, rfl⟩ := ih hsplit
      refine ⟨quote :: (body ++ a), b, by simp, hwhole.string hbody hquote,
        (ofCharsFrom_string hbody hquote offset a).symm, ?_⟩
      rw [Nat.add_assoc, ← Text.byteLength_append]
      rfl
  | unclosed quote text hquote hcloses =>
      rw [ofCharsFrom_of_unclosed hquote hcloses, splitAtStop] at h
      contradiction

/-- The search for the end of a block splits a text around a closing brace. -/
theorem splitBlock_ofCharsFrom
    (h : splitBlock opener depth (ofCharsFrom none offset text) = .ok (part, rest)) :
    ∃ a b, text = a ++ '}' :: b ∧ Whole a ∧ part = ofCharsFrom none offset a ∧
      rest = ofCharsFrom none (offset + Text.byteLength a + 1) b := by
  induction text using Glyph.strides generalizing offset depth part with
  | nil => contradiction
  | char c text hc ih =>
      rw [ofCharsFrom_of_not_isQuote hc] at h
      cases blockStep_of_splitBlock h with
      | close hclose =>
          obtain rfl := Sign.ofChar_eq_closeBrace_iff.mp hclose.1
          exact ⟨[], text, rfl, whole_nil, rfl, rfl⟩
      | pass _ _ hrest =>
          obtain ⟨a, b, rfl, hwhole, rfl, rfl⟩ := ih hrest
          refine ⟨c :: a, b, rfl, hwhole.char hc, (ofCharsFrom_of_not_isQuote hc).symm, ?_⟩
          rw [Text.byteLength_cons, Nat.add_assoc offset]
  | string quote body text hquote hbody ih =>
      rw [ofCharsFrom_string hbody hquote,
        splitBlock_ordinary (sign_eq_ordinary_of_string hbody hquote offset)] at h
      obtain ⟨⟨part, rest'⟩, hsplit, heq⟩ := map_eq_ok_iff.mp h
      cases heq
      obtain ⟨a, b, rfl, hwhole, rfl, rfl⟩ := ih hsplit
      refine ⟨quote :: (body ++ a), b, by simp, hwhole.string hbody hquote,
        (ofCharsFrom_string hbody hquote offset a).symm, ?_⟩
      rw [Nat.add_assoc offset, ← Text.byteLength_append]
      rfl
  | unclosed quote text hquote hcloses =>
      rw [ofCharsFrom_of_unclosed hquote hcloses, splitBlock] at h
      contradiction

/-- Where a block ends does not depend on what follows it. -/
theorem splitBlock_congr
    (h : splitBlock opener depth glyphs = .ok (part, rest)) (other : List Glyph) :
    ∃ close, glyphs = part ++ close :: rest ∧
      splitBlock opener depth (part ++ close :: other) = .ok (part, other) := by
  induction glyphs generalizing depth part with
  | nil => contradiction
  | cons g glyphs ih =>
      cases blockStep_of_splitBlock h with
      | close hclose => exact ⟨g, rfl, by simp [splitBlock, hclose.1, hclose.2]⟩
      | pass hquote hpass hrest =>
          obtain ⟨close, rfl, hother⟩ := ih hrest
          refine ⟨close, rfl, ?_⟩
          rw [List.cons_append, splitBlock, if_neg hquote, if_neg hpass, hother, bind_ok]
          rfl

end Segment

end ContrastLint

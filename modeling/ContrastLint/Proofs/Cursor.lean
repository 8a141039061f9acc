import ContrastLint.Proofs.Outcome
import ContrastLint.Proofs.Quoting
import ContrastLint.Proofs.Trim
import ContrastLint.Stylesheet.Segment

/-!
# Stops and ends, one character at a time

The text of a segment goes on until a stop, and a block goes on until its end.
Here both are read by a cursor over single characters, which knows how strings
stand and how many parentheses, or inner blocks, are open.  Reading is a fold
that fails at the stop, so reading two texts one after the other is reading
them joined.

The two searches over glyphs are described by it completely: every text has a
longest beginning that the cursor can read, and there the searches split.
-/

namespace ContrastLint

theorem Quoting.outside_next_of_isWhite {c : Char} (hc : Text.isWhite c = true) :
    Quoting.outside.next c = .outside := by
  simp [Quoting.next, Quote.ofChar?_eq_none_iff.mpr (Text.isQuote_of_isWhite hc)]

structure Cursor where
  quoting : Quoting
  /-- The number of open parentheses or, in a block, of open inner blocks. -/
  depth : Nat
  deriving DecidableEq, Repr

namespace Cursor

def start : Cursor := ⟨.outside, 0⟩

/-- A text goes on until a brace, or a semicolon outside parentheses. -/
def Stops (k : Cursor) (c : Char) : Prop :=
  k.quoting.sign c = .openBrace ∨ k.quoting.sign c = .closeBrace ∨
    k.quoting.sign c = .semicolon ∧ k.depth = 0

/-- A block goes on until a closing brace that no brace inside it has opened. -/
def Ends (k : Cursor) (c : Char) : Prop :=
  k.quoting.sign c = .closeBrace ∧ k.depth = 0

instance (k : Cursor) (c : Char) : Decidable (k.Stops c) :=
  inferInstanceAs (Decidable (_ ∨ _ ∨ _ ∧ _))

instance (k : Cursor) (c : Char) : Decidable (k.Ends c) :=
  inferInstanceAs (Decidable (_ ∧ _))

def text? (k : Cursor) (c : Char) : Option Cursor :=
  if k.Stops c then none
  else some ⟨k.quoting.next c, (k.quoting.sign c).parens k.depth⟩

def block? (k : Cursor) (c : Char) : Option Cursor :=
  if k.Ends c then none
  else some ⟨k.quoting.next c, (k.quoting.sign c).braces k.depth⟩

/-- Reads a text that has no stop. -/
def readText (k : Cursor) (text : List Char) : Option Cursor :=
  text.foldlM text? k

/-- Reads a part of a block that does not end it. -/
def readBlock (k : Cursor) (text : List Char) : Option Cursor :=
  text.foldlM block? k

variable {k k' : Cursor} {c : Char} {a b text : List Char}

theorem text?_eq_none_iff : k.text? c = none ↔ k.Stops c := by
  unfold text?
  split <;> simp [*]

theorem block?_eq_none_iff : k.block? c = none ↔ k.Ends c := by
  unfold block?
  split <;> simp [*]

theorem text?_eq_some_iff :
    k.text? c = some k' ↔
      ¬k.Stops c ∧ ⟨k.quoting.next c, (k.quoting.sign c).parens k.depth⟩ = k' := by
  unfold text?
  split <;> simp [*]

theorem block?_eq_some_iff :
    k.block? c = some k' ↔
      ¬k.Ends c ∧ ⟨k.quoting.next c, (k.quoting.sign c).braces k.depth⟩ = k' := by
  unfold block?
  split <;> simp [*]

@[simp] theorem readText_nil : k.readText [] = some k := rfl

@[simp] theorem readBlock_nil : k.readBlock [] = some k := rfl

theorem readText_cons : k.readText (c :: text) = (k.text? c).bind (·.readText text) := rfl

theorem readBlock_cons : k.readBlock (c :: text) = (k.block? c).bind (·.readBlock text) := rfl

theorem readText_append : k.readText (a ++ b) = (k.readText a).bind (·.readText b) :=
  List.foldlM_append

theorem readBlock_append : k.readBlock (a ++ b) = (k.readBlock a).bind (·.readBlock b) :=
  List.foldlM_append

theorem quoting_of_readText (h : k.readText text = some k') :
    k'.quoting = k.quoting.after text := by
  induction text generalizing k with
  | nil =>
      cases h
      rfl
  | cons c text ih =>
      obtain ⟨next, hnext, hrest⟩ := Option.bind_eq_some_iff.mp h
      obtain ⟨-, rfl⟩ := text?_eq_some_iff.mp hnext
      exact ih hrest

theorem quoting_of_readBlock (h : k.readBlock text = some k') :
    k'.quoting = k.quoting.after text := by
  induction text generalizing k with
  | nil =>
      cases h
      rfl
  | cons c text ih =>
      obtain ⟨next, hnext, hrest⟩ := Option.bind_eq_some_iff.mp h
      obtain ⟨-, rfl⟩ := block?_eq_some_iff.mp hnext
      exact ih hrest

theorem exists_foldlM_prefix {σ α : Type} (f : σ → α → Option σ) (s : σ) (as : List α) :
    ∃ front back s', as = front ++ back ∧ front.foldlM f s = some s' ∧
      ∀ a ∈ back.head?, f s' a = none := by
  induction as generalizing s with
  | nil => exact ⟨[], [], s, rfl, rfl, by simp⟩
  | cons a as ih =>
      cases hnext : f s a with
      | none => exact ⟨[], a :: as, s, rfl, rfl, by simpa using hnext⟩
      | some next =>
          obtain ⟨front, back, s', rfl, hfront, hback⟩ := ih next
          refine ⟨a :: front, back, s', rfl, ?_, hback⟩
          rw [List.foldlM_cons, hnext]
          exact hfront

/-- Every text is read up to its first stop. -/
theorem exists_readText (k : Cursor) (text : List Char) :
    ∃ a b k', text = a ++ b ∧ k.readText a = some k' ∧ ∀ c ∈ b.head?, k'.Stops c := by
  obtain ⟨a, b, k', htext, hread, hstop⟩ := exists_foldlM_prefix text? k text
  exact ⟨a, b, k', htext, hread, fun c hc => text?_eq_none_iff.mp (hstop c hc)⟩

theorem exists_readBlock (k : Cursor) (text : List Char) :
    ∃ a b k', text = a ++ b ∧ k.readBlock a = some k' ∧ ∀ c ∈ b.head?, k'.Ends c := by
  obtain ⟨a, b, k', htext, hread, hend⟩ := exists_foldlM_prefix block? k text
  exact ⟨a, b, k', htext, hread, fun c hc => block?_eq_none_iff.mp (hend c hc)⟩

theorem sign_ne_unclosedQuote (s : Quoting) (c : Char) : s.sign c ≠ .unclosedQuote := by
  cases s with
  | outside => exact Sign.ofChar_ne_unclosedQuote c
  | _ => simp [Quoting.sign]

theorem sign_eq_closeBrace_iff {s : Quoting} :
    s.sign c = .closeBrace ↔ s = .outside ∧ c = '}' := by
  cases s <;> simp [Quoting.sign, Sign.ofChar_eq_closeBrace_iff]

theorem Stops.cases (h : k.Stops c) :
    k.quoting = .outside ∧ (c = '{' ∨ c = '}' ∨ c = ';' ∧ k.depth = 0) := by
  rcases k with ⟨s, depth⟩
  cases s with
  | outside =>
      simpa [Stops, Quoting.sign, Sign.ofChar_eq_openBrace_iff, Sign.ofChar_eq_closeBrace_iff,
        Sign.ofChar_eq_semicolon_iff] using h
  | _ => simp [Stops, Quoting.sign] at h

theorem Ends.cases (h : k.Ends c) : k = .start ∧ c = '}' := by
  rcases h with ⟨hsign, hdepth⟩
  rcases sign_eq_closeBrace_iff.mp hsign with ⟨hquoting, hc⟩
  rcases k with ⟨s, depth⟩
  cases hquoting
  cases hdepth
  exact ⟨rfl, hc⟩

theorem readText_white
    {w : List Char} {depth : Nat} (hw : Text.White w) :
    (⟨.outside, depth⟩ : Cursor).readText w = some ⟨.outside, depth⟩ := by
  induction w with
  | nil => rfl
  | cons c w ih =>
      have hc : Text.isWhite c = true := hw c List.mem_cons_self
      have hnext := Quoting.outside_next_of_isWhite hc
      have hgoes : ¬Stops ⟨.outside, depth⟩ c := by
        simp [Stops, Quoting.sign, Sign.ofChar_of_isWhite hc]
      have hread : text? ⟨.outside, depth⟩ c = some ⟨.outside, depth⟩ := by
        rw [text?_eq_some_iff]
        exact ⟨hgoes, by simp [hnext, Quoting.sign, Sign.ofChar_of_isWhite hc, Sign.parens]⟩
      rw [readText_cons, hread]
      exact ih fun d hd => hw d (List.mem_cons_of_mem _ hd)

end Cursor

namespace Segment

open Cursor

variable {k k' : Cursor} {c : Char} {a b text : List Char} {offset opener : Nat}

theorem splitAtStop_stop (h : k.Stops c) :
    splitAtStop k.depth (k.quoting.glyphs offset (c :: text)) =
      .ok ([], k.quoting.glyphs offset (c :: text)) := by
  have hsign := sign_ne_unclosedQuote k.quoting c
  unfold Stops at h
  simp [splitAtStop, hsign, h]

theorem splitAtStop_next (h : ¬k.Stops c) :
    splitAtStop k.depth (k.quoting.glyphs offset (c :: text)) = do
      let (text, rest) ← splitAtStop ((k.quoting.sign c).parens k.depth)
        ((k.quoting.next c).glyphs (offset + c.utf8Size) text)
      return (⟨offset, c, k.quoting.sign c⟩ :: text, rest) := by
  have hsign := sign_ne_unclosedQuote k.quoting c
  unfold Stops at h
  simp [splitAtStop, hsign, h]

theorem splitBlock_next (h : ¬k.Ends c) :
    splitBlock opener k.depth (k.quoting.glyphs offset (c :: text)) = do
      let (body, rest) ← splitBlock opener ((k.quoting.sign c).braces k.depth)
        ((k.quoting.next c).glyphs (offset + c.utf8Size) text)
      return (⟨offset, c, k.quoting.sign c⟩ :: body, rest) := by
  have hsign := sign_ne_unclosedQuote k.quoting c
  unfold Ends at h
  simp [splitBlock, hsign, h]

/-- The search for a stop splits where the cursor stops. -/
theorem splitAtStop_glyphs
    (offset : Nat) (hread : k.readText a = some k') (hstop : ∀ c ∈ b.head?, k'.Stops c) :
    splitAtStop k.depth (k.quoting.glyphs offset (a ++ b)) =
      .ok (k.quoting.glyphs offset a,
        k'.quoting.glyphs (offset + Text.byteLength a) b) := by
  induction a generalizing k offset with
  | nil =>
      cases hread
      cases b with
      | nil => rfl
      | cons c b => exact splitAtStop_stop (hstop c rfl)
  | cons c a ih =>
      obtain ⟨next, hnext, hrest⟩ := Option.bind_eq_some_iff.mp hread
      obtain ⟨hgoes, rfl⟩ := text?_eq_some_iff.mp hnext
      rw [List.cons_append, splitAtStop_next hgoes, ih _ hrest, bind_ok]
      rw [Quoting.glyphs_cons, Text.byteLength_cons, ← Nat.add_assoc]
      rfl

theorem splitBlock_glyphs
    (offset : Nat) (hread : k.readBlock a = some .start) :
    splitBlock opener k.depth (k.quoting.glyphs offset (a ++ '}' :: b)) =
      .ok (k.quoting.glyphs offset a,
        Quoting.outside.glyphs (offset + Text.byteLength a + 1) b) := by
  induction a generalizing k offset with
  | nil =>
      cases hread
      rfl
  | cons c a ih =>
      obtain ⟨next, hnext, hrest⟩ := Option.bind_eq_some_iff.mp hread
      obtain ⟨hgoes, rfl⟩ := block?_eq_some_iff.mp hnext
      rw [List.cons_append, splitBlock_next hgoes, ih _ hrest, bind_ok]
      rw [Quoting.glyphs_cons, Text.byteLength_cons, ← Nat.add_assoc]
      rfl

theorem splitBlock_glyphs_of_readBlock
    (offset : Nat) (hread : k.readBlock a = some k') :
    splitBlock opener k.depth (k.quoting.glyphs offset a) = .error ⟨.unclosedBlock, opener⟩ := by
  induction a generalizing k offset with
  | nil => rfl
  | cons c a ih =>
      obtain ⟨next, hnext, hrest⟩ := Option.bind_eq_some_iff.mp hread
      obtain ⟨hgoes, rfl⟩ := block?_eq_some_iff.mp hnext
      rw [splitBlock_next hgoes, ih _ hrest, bind_error]

end Segment

end ContrastLint

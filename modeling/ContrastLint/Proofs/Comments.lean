import ContrastLint.Proofs.Outcome
import ContrastLint.Proofs.Quoting
import ContrastLint.Stylesheet.Glyph

/-!
# Comments, one character at a time

Blanking looks two characters ahead and writes while it reads.  `Comment.Pass`
is a machine that sees one character after the other.  Its last state tells
whether a comment was left open, and its states along the way tell which
characters belong to comments; together they say what blanking does.

The second half is about texts without comments.  Blanking leaves such a text
alone, and what blanking returns is one.
-/

namespace ContrastLint.Comment

/-- Where a reader of single characters stands with respect to comments. -/
inductive Pass
  | sheet
  /-- In the stylesheet itself, just after the slash at the byte `offset`. -/
  | slash (offset : Nat)
  | string (quote : Quote)
  | escape (quote : Quote)
  | comment (opener : Nat)
  /-- In a comment, just after a star that is not the opener's. -/
  | star (opener : Nat)
  deriving DecidableEq, Repr

namespace Pass

def enter (offset : Nat) (c : Char) : Pass :=
  match Quote.ofChar? c with
  | some q => .string q
  | none => if c = '/' then .slash offset else .sheet

/-- The state after the character that stands at the byte `offset`.  A string
ends at its quote or, silently, with its line. -/
def next (offset : Nat) : Pass → Char → Pass
  | .sheet, c => enter offset c
  | .slash opener, c => if c = '*' then .comment opener else enter offset c
  | .string q, c =>
      if c = '\\' then .escape q
      else if c = q.char ∨ c = '\n' then .sheet
      else .string q
  | .escape q, _ => .string q
  | .comment opener, c => if c = '*' then .star opener else .comment opener
  | .star opener, c =>
      if c = '/' then .sheet else if c = '*' then .star opener else .comment opener

def after : Pass → Nat → List Char → Pass
  | p, _, [] => p
  | p, offset, c :: text => (p.next offset c).after (offset + c.utf8Size) text

def opener? : Pass → Option Nat
  | .comment opener => some opener
  | .star opener => some opener
  | _ => none

/-- Whether the character `c`, with `follower` after it, belongs to a comment. -/
def covers : Pass → Char → Option Char → Bool
  | .sheet, c, follower => c == '/' && follower == some '*'
  | .slash _, c, follower => c == '*' || (c == '/' && follower == some '*')
  | .comment _, _, _ => true
  | .star _, _, _ => true
  | _, _, _ => false

def blanked : Pass → Nat → List Char → List Char
  | _, _, [] => []
  | p, offset, c :: text =>
      (if p.covers c text.head? then blankChar c else [c]) ++
        (p.next offset c).blanked (offset + c.utf8Size) text

/-- What the machine says about a text: the comment left open at its end, or
the text with its comments blanked. -/
def outcome (p : Pass) (offset : Nat) (text : List Char) : Except Fault (List Char) :=
  match (p.after offset text).opener? with
  | some opener => .error ⟨.unclosedComment, opener⟩
  | none => .ok (p.blanked offset text)

theorem outcome_cons (p : Pass) (offset : Nat) (c : Char) (text : List Char) :
    p.outcome offset (c :: text) =
      ((if p.covers c text.head? then blankChar c else [c]) ++ ·) <$>
        (p.next offset c).outcome (offset + c.utf8Size) text := by
  unfold outcome
  rw [after]
  cases ((p.next offset c).after (offset + c.utf8Size) text).opener? <;> rfl

theorem outcome_slash
    {opener offset : Nat} {text : List Char} (h : text.head? ≠ some '*') :
    (slash opener).outcome offset text = sheet.outcome offset text := by
  cases text with
  | nil => rfl
  | cons c text =>
      have hc : c ≠ '*' := by simpa using h
      simp [outcome_cons, covers, next, hc]

theorem outcome_star
    {opener offset : Nat} {text : List Char} (h : text.head? ≠ some '/') :
    (star opener).outcome offset text = (comment opener).outcome offset text := by
  cases text with
  | nil => rfl
  | cons c text =>
      have hc : c ≠ '/' := by simpa using h
      simp [outcome_cons, covers, next, hc]

theorem outcome_opener {offset : Nat} {text : List Char} :
    sheet.outcome offset ('/' :: '*' :: text) =
      (' ' :: ' ' :: ·) <$> (comment offset).outcome (offset + 2) text := by
  rw [outcome_cons, outcome_cons]
  simp [covers, next, enter, Quote.ofChar?]
  rfl

theorem outcome_quote {q : Quote} {offset : Nat} {text : List Char} :
    sheet.outcome offset (q.char :: text) =
      (q.char :: ·) <$> (string q).outcome (offset + q.char.utf8Size) text := by
  rw [outcome_cons]
  cases q <;> rfl

theorem outcome_sheet
    {offset : Nat} {c : Char} {text : List Char} (hquote : Quote.ofChar? c = none)
    (hfollow : c = '/' → text.head? ≠ some '*') :
    sheet.outcome offset (c :: text) =
      (c :: ·) <$> sheet.outcome (offset + c.utf8Size) text := by
  have hcovers : sheet.covers c text.head? = false := by
    by_cases hc : c = '/'
    · simpa [covers, hc] using hfollow hc
    · simp [covers, hc]
  -- The machine remembers a slash, but reads on as it would without it.
  rw [outcome_cons, hcovers, next, enter, hquote]
  by_cases hc : c = '/'
  · simp only [hc, if_true]
    rw [outcome_slash (hfollow hc)]
    rfl
  · simp only [hc, if_false]
    rfl

theorem outcome_escaped {q : Quote} {offset : Nat} {c : Char} {text : List Char} :
    (string q).outcome offset ('\\' :: c :: text) =
      ('\\' :: c :: ·) <$> (string q).outcome (offset + 1 + c.utf8Size) text := by
  rw [outcome_cons, outcome_cons]
  simp [covers, next]
  rfl

theorem outcome_string
    {q : Quote} {offset : Nat} {c : Char} {text : List Char} (hslash : c ≠ '\\') :
    (string q).outcome offset (c :: text) =
      (c :: ·) <$> (if c = q.char ∨ c = '\n' then sheet else string q).outcome
        (offset + c.utf8Size) text := by
  simp [outcome_cons, covers, next, hslash]

theorem outcome_closer {opener offset : Nat} {text : List Char} :
    (comment opener).outcome offset ('*' :: '/' :: text) =
      (' ' :: ' ' :: ·) <$> sheet.outcome (offset + 2) text := by
  rw [outcome_cons, outcome_cons]
  simp [covers, next]
  rfl

theorem outcome_comment
    {opener offset : Nat} {c : Char} {text : List Char}
    (hfollow : c = '*' → text.head? ≠ some '/') :
    (comment opener).outcome offset (c :: text) =
      (blankChar c ++ ·) <$> (comment opener).outcome (offset + c.utf8Size) text := by
  rw [outcome_cons, next]
  by_cases hc : c = '*'
  · simp only [hc, if_true]
    rw [outcome_star (hfollow hc)]
    rfl
  · simp only [hc, if_false]
    rfl

end Pass

/-- The states of the machine that the modes of the blanking reader are. -/
inductive Mode.Reads : Mode → Pass → Prop
  | sheet : Mode.Reads .sheet .sheet
  | string (q : Quote) : Mode.Reads (.string q.char) (.string q)
  | comment (opener : Nat) : Mode.Reads (.comment opener) (.comment opener)

theorem Mode.Reads.next_string {q : Quote} {c : Char} :
    Mode.Reads (if c = q.char ∨ c = '\n' then .sheet else .string q.char)
      (if c = q.char ∨ c = '\n' then .sheet else .string q) := by
  split
  · exact .sheet
  · exact .string q

theorem blankFrom_eq_outcome
    {m : Mode} {p : Pass} {offset : Nat} {text : List Char} (h : m.Reads p) :
    blankFrom m offset text = p.outcome offset text := by
  fun_induction blankFrom m offset text generalizing p with
  | case1 opener offset =>
      cases h
      rfl
  | case2 m offset hm =>
      cases h with
      | comment opener => exact absurd rfl (hm opener)
      | _ => rfl
  | case3 offset rest ih =>
      cases h
      rw [ih (.comment offset), Pass.outcome_opener]
  | case4 offset c rest hopen ih =>
      cases h
      have hfollow : c = '/' → rest.head? ≠ some '*' :=
        fun hc => Text.head?_ne_of_ne_cons fun text => hopen text hc
      cases hq : Quote.ofChar? c with
      | some q =>
          have hchar := Quote.char_of_ofChar? hq
          subst hchar
          rw [ih (by simpa using Mode.Reads.string q), Pass.outcome_quote]
      | none =>
          have hquote := Quote.ofChar?_eq_none_iff.mp hq
          rw [ih (by simpa [hquote] using Mode.Reads.sheet), Pass.outcome_sheet hq hfollow]
  | case5 quote offset c rest ih =>
      cases h with
      | string q => rw [ih (.string q), Pass.outcome_escaped]
  | case6 quote offset c rest hescape ih =>
      cases h with
      | string q =>
          rw [ih .next_string]
          by_cases hslash : c = '\\'
          · cases rest with
            | nil =>
                subst hslash
                cases q <;> rfl
            | cons d text => exact (hescape d text hslash rfl).elim
          · rw [Pass.outcome_string hslash]
  | case7 opener offset rest ih =>
      cases h
      rw [ih .sheet, Pass.outcome_closer]
  | case8 opener offset c rest hclose ih =>
      cases h
      have hfollow : c = '*' → rest.head? ≠ some '/' :=
        fun hc => Text.head?_ne_of_ne_cons fun text => hclose text hc
      rw [ih (.comment opener), Pass.outcome_comment hfollow]

theorem blank_eq_outcome (text : List Char) :
    blank text = Pass.sheet.outcome 0 text :=
  blankFrom_eq_outcome .sheet

/-! ## Texts without comments -/

/-- No comment opens in a text that is read from a state of strings. -/
def Free : Quoting → List Char → Prop
  | _, [] => True
  | s, c :: text =>
      ¬(s = .outside ∧ c = '/' ∧ text.head? = some '*') ∧ Free (s.next c) text

@[simp] theorem free_nil (s : Quoting) : Free s [] := trivial

theorem free_cons {s : Quoting} {c : Char} {text : List Char} :
    Free s (c :: text) ↔
      ¬(s = .outside ∧ c = '/' ∧ text.head? = some '*') ∧ Free (s.next c) text :=
  Iff.rfl

theorem free_broken (text : List Char) : Free .broken text := by
  induction text with
  | nil => trivial
  | cons c text ih => exact ⟨by simp, ih⟩

theorem Free.append_left
    {s : Quoting} {a b : List Char} (h : Free s (a ++ b)) : Free s a := by
  induction a generalizing s with
  | nil => trivial
  | cons c a ih =>
      rcases free_cons.mp h with ⟨hopen, hrest⟩
      refine free_cons.mpr ⟨?_, ih hrest⟩
      intro h
      rcases h with ⟨hs, hc, hhead⟩
      obtain ⟨text, rfl⟩ := List.head?_eq_some_iff.mp hhead
      exact hopen ⟨hs, hc, rfl⟩

theorem Free.append_right
    {s : Quoting} {a b : List Char} (h : Free s (a ++ b)) : Free (s.after a) b := by
  induction a generalizing s with
  | nil => exact h
  | cons c a ih => exact ih (free_cons.mp h).2

theorem Free.append
    {s : Quoting} {a b : List Char} (ha : Free s a) (hb : Free (s.after a) b)
    (hstar : b.head? ≠ some '*') : Free s (a ++ b) := by
  induction a generalizing s with
  | nil => exact hb
  | cons c a ih =>
      rcases free_cons.mp ha with ⟨hopen, hrest⟩
      refine free_cons.mpr ⟨?_, ih hrest hb⟩
      intro h
      rcases h with ⟨hs, hc, hhead⟩
      cases a with
      | nil => exact hstar hhead
      | cons d a => exact hopen ⟨hs, hc, hhead⟩

theorem free_blankChar_append
    (c : Char) {text : List Char} (h : Free .outside text) :
    Free .outside (blankChar c ++ text) := by
  unfold blankChar
  split
  · simpa [free_cons, Quoting.next, Quote.ofChar?] using h
  · induction c.utf8Size with
    | zero => simpa using h
    | succ n ih =>
        simpa [List.replicate_succ, free_cons, Quoting.next, Quote.ofChar?] using ih

/-- The states of strings that the modes of the blanking reader are. -/
inductive Mode.Stands : Mode → Quoting → Prop
  | sheet : Mode.Stands .sheet .outside
  | string (q : Quote) : Mode.Stands (.string q.char) (.inside q)
  | comment (opener : Nat) : Mode.Stands (.comment opener) .outside

theorem Mode.Stands.next_sheet (c : Char) :
    Mode.Stands (if Text.isQuote c then .string c else .sheet) (Quoting.outside.next c) := by
  cases hq : Quote.ofChar? c with
  | none =>
      have hquote := Quote.ofChar?_eq_none_iff.mp hq
      simpa [Quoting.next, hq, hquote] using Mode.Stands.sheet
  | some q =>
      have hchar := Quote.char_of_ofChar? hq
      subst hchar
      simpa [Quoting.next] using Mode.Stands.string q

theorem Mode.Stands.next_string
    {q : Quote} {c : Char} (hslash : c ≠ '\\') (hline : c ≠ '\n') :
    Mode.Stands (if c = q.char ∨ c = '\n' then .sheet else .string q.char)
      ((Quoting.inside q).next c) := by
  by_cases hc : c = q.char
  · simpa [hc, Quoting.next] using Mode.Stands.sheet
  · simpa [hc, hslash, hline, Quoting.next] using Mode.Stands.string q

/-- Blanking leaves a text alone that has no comments and closes its strings. -/
theorem blankFrom_of_free
    {m : Mode} {s : Quoting} {offset : Nat} {text : List Char}
    (hm : m.Stands s) (hsheet : ∀ opener, m ≠ .comment opener)
    (hfree : Free s text) (hclosed : s.after text = .outside) :
    blankFrom m offset text = .ok text := by
  fun_induction blankFrom m offset text generalizing s with
  | case1 opener offset => exact absurd rfl (hsheet opener)
  | case2 => rfl
  | case3 offset rest _ =>
      cases hm
      exact absurd ⟨rfl, rfl, rfl⟩ (free_cons.mp hfree).1
  | case4 offset c rest _ ih =>
      cases hm
      rw [ih (.next_sheet c) ?_ (free_cons.mp hfree).2 hclosed]
      · rfl
      · intro opener
        split <;> simp
  | case5 quote offset c rest ih =>
      cases hm with
      | string q =>
          rw [Quoting.after_cons, Quoting.after_cons, Quoting.inside_next_escaped] at hclosed
          have hrest := (free_cons.mp (free_cons.mp hfree).2).2
          rw [Quoting.inside_next_escaped] at hrest
          rw [ih (.string q) (by simp) hrest hclosed]
          rfl
  | case6 quote offset c rest hescape ih =>
      cases hm with
      | string q =>
          rcases Quoting.ne_of_after_cons hescape hclosed with ⟨hslash, hline⟩
          rw [ih (.next_string hslash hline) ?_ (free_cons.mp hfree).2 hclosed]
          · rfl
          · intro opener
            split <;> simp
  | case7 => exact absurd rfl (hsheet _)
  | case8 => exact absurd rfl (hsheet _)

theorem head?_of_blankFrom
    {offset : Nat} {text out : List Char}
    (h : blankFrom .sheet offset text = .ok out) (hstar : out.head? = some '*') :
    text.head? = some '*' := by
  unfold blankFrom at h
  split at h
  all_goals try contradiction
  · cases h
    contradiction
  · obtain ⟨out, -, rfl⟩ := map_eq_ok_iff.mp h
    simp at hstar
  · obtain ⟨out, -, rfl⟩ := map_eq_ok_iff.mp h
    simpa using hstar

/-- No comment opens in what blanking returns. -/
theorem free_of_blankFrom
    {m : Mode} {s : Quoting} {offset : Nat} {text out : List Char}
    (hm : m.Stands s) (h : blankFrom m offset text = .ok out) :
    Free s out := by
  fun_induction blankFrom m offset text generalizing s out with
  | case1 => contradiction
  | case2 =>
      cases h
      trivial
  | case3 offset rest ih =>
      obtain ⟨out, hout, rfl⟩ := map_eq_ok_iff.mp h
      cases hm
      simpa [free_cons, Quoting.next, Quote.ofChar?] using ih (.comment offset) hout
  | case4 offset c rest hopen ih =>
      obtain ⟨out, hout, rfl⟩ := map_eq_ok_iff.mp h
      cases hm
      -- A star that now follows this slash has followed it before.
      refine free_cons.mpr ⟨?_, ih (.next_sheet c) hout⟩
      intro h
      rcases h with ⟨-, rfl, hstar⟩
      exact Text.head?_ne_of_ne_cons (fun text => hopen text rfl) (head?_of_blankFrom hout hstar)
  | case5 quote offset c rest ih =>
      obtain ⟨out, hout, rfl⟩ := map_eq_ok_iff.mp h
      cases hm with
      | string q =>
          refine free_cons.mpr ⟨by simp, free_cons.mpr ⟨by simp [Quoting.next], ?_⟩⟩
          rw [Quoting.inside_next_escaped]
          exact ih (.string q) hout
  | case6 quote offset c rest hescape ih =>
      obtain ⟨out, hout, rfl⟩ := map_eq_ok_iff.mp h
      cases hm with
      | string q =>
          refine free_cons.mpr ⟨by simp, ?_⟩
          by_cases hslash : c = '\\'
          · cases rest with
            | nil =>
                rw [blankFrom] at hout
                · cases hout
                  trivial
                · split <;> simp
            | cons d text => exact (hescape d text hslash rfl).elim
          · by_cases hline : c = '\n'
            · simpa [Quoting.next, hline] using free_broken out
            · exact ih (.next_string hslash hline) hout
  | case7 opener offset rest ih =>
      obtain ⟨out, hout, rfl⟩ := map_eq_ok_iff.mp h
      cases hm
      simpa [free_cons, Quoting.next, Quote.ofChar?] using ih .sheet hout
  | case8 opener offset c rest hclose ih =>
      obtain ⟨out, hout, rfl⟩ := map_eq_ok_iff.mp h
      cases hm
      exact free_blankChar_append c (ih (.comment opener) hout)

end ContrastLint.Comment

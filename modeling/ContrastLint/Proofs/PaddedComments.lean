import ContrastLint.Proofs.Lockstep
import ContrastLint.Proofs.Padding

/-!
# Comments in a padded text

A pad leaves the reader of comments where the line feed behind it will put it
anyway.  So a padded text is blanked like the text without pads, and the blanked
text is padded in turn, unless a backslash in a string hides a line feed.

Such a text is not blanked alike.  Where every line feed is padded, the hidden one
breaks its string in the blanked text.
-/

namespace ContrastLint

namespace Text

/-- The text with a carriage return before every line feed. -/
def crlf (text : List Char) : List Char :=
  text.flatMap fun c => if c = '\n' then ['\r', '\n'] else [c]

theorem crlf_newline (text : List Char) : crlf ('\n' :: text) = '\r' :: '\n' :: crlf text := rfl

theorem crlf_cons {c : Char} (hc : c ≠ '\n') (text : List Char) :
    crlf (c :: text) = c :: crlf text := by
  simp [crlf, hc]

theorem pad_return : Pad '\r' :=
  ⟨rfl, by decide⟩

theorem pad_space : Pad ' ' :=
  ⟨rfl, by decide⟩

theorem padded_crlf (text : List Char) : Padded text (crlf text) := by
  induction text with
  | nil => exact .nil
  | cons c text ih =>
      by_cases hc : c = '\n'
      · subst hc
        exact .pad pad_return (.char '\n' ih)
      · rw [crlf_cons hc]
        exact .char c ih

theorem Pad.utf8Size {w : Char} (hw : Pad w) : w.utf8Size = 1 := by
  have hblank := hw.blank
  simp only [isAsciiWhite, Bool.or_eq_true, beq_iff_eq] at hblank
  rcases hblank with (((rfl | rfl) | rfl) | rfl) | rfl <;> rfl

end Text

namespace Comment

open Text (Pad Padded SameLine Abreast crlf)

variable {css padded a b text : List Char} {offset offset' : Nat} {c w : Char} {s : Quoting}

theorem chunk_newline (covered : Bool) :
    (if covered then blankChar '\n' else ['\n']) = ['\n'] := by
  cases covered <;> rfl

theorem exists_chunk_of_pad (hw : Pad w) (covered : Bool) :
    ∃ v, Pad v ∧ (if covered then blankChar w else [w]) = [v] := by
  cases covered with
  | false => exact ⟨w, hw, rfl⟩
  | true => exact ⟨' ', Text.pad_space, by simp [blankChar, hw.line, hw.utf8Size]⟩

namespace Pass

variable {p p' : Pass} {R : Nat → Nat → Prop}

/-- A line feed of the text comes just after a backslash in a string. -/
def Hides (p : Pass) (offset : Nat) (text : List Char) : Prop :=
  ∃ before rest q, text = before ++ '\n' :: rest ∧ p.after offset before = .escape q

theorem hides_cons :
    p.Hides offset (c :: text) ↔
      (c = '\n' ∧ ∃ q, p = .escape q) ∨ (p.next offset c).Hides (offset + c.utf8Size) text := by
  constructor
  · rintro ⟨before, rest, q, htext, hafter⟩
    cases before with
    | nil =>
        obtain ⟨rfl, -⟩ := List.cons_eq_cons.mp htext
        exact .inl ⟨rfl, q, hafter⟩
    | cons d before =>
        obtain ⟨rfl, hrest⟩ := List.cons_eq_cons.mp htext
        exact .inr ⟨before, rest, q, hrest, hafter⟩
  · rintro (⟨rfl, q, hp⟩ | ⟨before, rest, q, rfl, hafter⟩)
    · exact ⟨[], text, q, rfl, hp⟩
    · exact ⟨c :: before, rest, q, rfl, hafter⟩

/-- Where a pad puts the reader of comments. -/
def settle : Pass → Pass
  | .slash _ => .sheet
  | .escape q => .string q
  | .star opener => .comment opener
  | p => p

theorem next_of_pad (hw : Pad w) (p : Pass) (offset : Nat) : p.next offset w = p.settle := by
  have hquote : Quote.ofChar? w = none :=
    Quote.ofChar?_eq_none_iff.mpr (Text.isQuote_of_isWhite hw.white)
  have hstar : w ≠ '*' := hw.ne rfl
  have hslash : w ≠ '/' := hw.ne rfl
  have henter : enter offset w = .sheet := by simp [enter, hquote, hslash]
  cases p with
  | sheet => exact henter
  | slash opener => rw [next, if_neg hstar, henter, settle]
  | string q =>
      have hbackslash : w ≠ '\\' := hw.ne rfl
      have hchar : w ≠ q.char := hw.ne (by cases q <;> rfl)
      simp [next, settle, hbackslash, hchar, hw.line]
  | escape q => rfl
  | comment opener =>
      rw [next, if_neg hstar]
      rfl
  | star opener => rw [next, if_neg hslash, if_neg hstar, settle]

theorem next_settle (hp : ∀ q, p ≠ .escape q) (offset : Nat) :
    p.settle.next offset '\n' = p.next offset '\n' := by
  cases p with
  | escape q => exact absurd rfl (hp q)
  | _ => rfl

theorem hides_settle (hp : ∀ q, p ≠ .escape q) (h : p.settle.Hides offset ('\n' :: text)) :
    p.Hides offset ('\n' :: text) := by
  rcases hides_cons.mp h with ⟨-, q, hq⟩ | hrest
  · cases p <;> contradiction
  · rw [next_settle hp] at hrest
    exact hides_cons.mpr (.inr hrest)

theorem outcome_newline (p : Pass) (offset : Nat) (text : List Char) :
    p.outcome offset ('\n' :: text) =
      ('\n' :: ·) <$> (p.next offset '\n').outcome (offset + '\n'.utf8Size) text := by
  rw [outcome_cons, chunk_newline]
  rfl

theorem outcome_settle (hp : ∀ q, p ≠ .escape q) (offset : Nat) (text : List Char) :
    p.settle.outcome offset ('\n' :: text) = p.outcome offset ('\n' :: text) := by
  rw [outcome_newline, outcome_newline, next_settle hp]

namespace Faces

theorem settle (h : p.Faces R p') : p.settle.Faces R p'.settle := by
  cases h with
  | sheet | slash => exact .sheet
  | string q | escape q => exact .string q
  | comment hopener | star hopener => exact .comment hopener

theorem outcome
    (hpad : Padded a b) (h : p.Faces (SameLine css padded) p')
    (habreast : Abreast css padded offset offset' a b) (hhides : ¬p.Hides offset a) :
    Lockstep (Fault.Faces (SameLine css padded)) Padded (p.outcome offset a)
      (p'.outcome offset' b) := by
  induction hpad generalizing p p' offset offset' with
  | nil => exact h.outcome_nil.mono (fun _ _ _ _ => id) fun t _ _ _ ht => ht ▸ .refl t
  | char x hrest ih =>
      have hlater := ih (h.next habreast.line x) habreast.tail
        fun hmore => hhides (hides_cons.mpr (.inr hmore))
      have hhead := hrest.head?_eq_some_iff (x := '*') rfl
      rw [outcome_cons, outcome_cons, h.covers_eq hhead]
      exact hlater.map fun _ _ ht => (Padded.refl _).append ht
  | @pad w a b hw hrest ih =>
      have hp : ∀ q, p ≠ .escape q := fun q hq => hhides (hides_cons.mpr (.inl ⟨rfl, q, hq⟩))
      -- The induction is on the padded text, so the reader of the other one still stands
      -- before the line feed, and is put where the pad has put this one.
      have hlater := ih h.settle (habreast.skip_pad hw) fun hmore => hhides (hides_settle hp hmore)
      obtain ⟨v, hv, hchunk⟩ := exists_chunk_of_pad hw (p'.covers w b.head?)
      rw [outcome_cons p', hchunk, next_of_pad hw, ← outcome_settle hp]
      refine hlater.map_right fun t t' htext ht => ?_
      rw [outcome_newline] at htext
      obtain ⟨t, -, rfl⟩ := map_eq_ok_iff.mp htext
      exact .pad hv ht

end Faces

/-! ## Line feeds that a backslash hides -/

theorem exposes_blanks
    {blanks : List Char} (h : ∀ c ∈ blanks, c = ' ' ∨ c = '\n') :
    Quoting.outside.Exposes blanks := by
  induction blanks with
  | nil => trivial
  | cons c blanks ih =>
      obtain ⟨hc, hrest⟩ := List.forall_mem_cons.mp h
      have hnext : Quoting.outside.next c = .outside := by
        rcases hc with rfl | rfl <;> rfl
      rw [Quoting.exposes_cons, hnext]
      exact ⟨by simp, ih hrest⟩

theorem Stands.exposes_chunk
    (h : p.Stands s) (hline : c = '\n' → ∀ q, p ≠ .escape q) (follower : Option Char) :
    s.Exposes (if p.covers c follower then blankChar c else [c]) := by
  cases hcovers : p.covers c follower with
  | true =>
      have houtside : s = .outside := by
        cases h <;> first | rfl | contradiction
      rw [if_pos rfl, houtside]
      exact exposes_blanks fun _ => mem_blankChar
  | false =>
      refine Quoting.exposes_cons.mpr ⟨fun hc q hs => ?_, trivial⟩
      subst hs
      cases h
      exact hline hc q rfl

/-- The blanked text hides no line feed either. -/
theorem Stands.exposes (h : p.Stands s) (hhides : ¬p.Hides offset text) :
    s.Exposes (p.blanked offset text) := by
  induction text generalizing p s offset with
  | nil => trivial
  | cons c text ih =>
      rw [blanked, Quoting.exposes_append]
      refine ⟨h.exposes_chunk (fun hc q hq => hhides (hides_cons.mpr (.inl ⟨hc, q, hq⟩))) _, ?_⟩
      by_cases hbroken : s.after (if p.covers c text.head? then blankChar c else [c]) = .broken
      · rw [hbroken]
        exact Quoting.exposes_broken _
      · exact ih (h.next offset _ hbroken) fun hmore => hhides (hides_cons.mpr (.inr hmore))

/-- Blanking one more character, either a string is broken, or the machine still
knows where strings stand. -/
theorem Stands.broken_of_next
    (h : p.Stands s) (offset : Nat) (c : Char) (text : List Char)
    (hrest : ∀ s, (p.next offset c).Stands s →
      s.after ((p.next offset c).blanked (offset + c.utf8Size) text) = .broken) :
    s.after (p.blanked offset (c :: text)) = .broken := by
  rw [blanked, Quoting.after_append]
  by_cases hbroken : s.after (if p.covers c text.head? then blankChar c else [c]) = .broken
  · rw [hbroken, Quoting.after_broken]
  · exact hrest _ (h.next offset _ hbroken)

/-- A carriage return takes the place of a hidden line feed, which then breaks the
string that it is in. -/
theorem Stands.broken_of_hides
    (hstands : p'.Stands s) (h : p.Faces R p') (hR : ∀ i j, R i j) (hhides : p.Hides offset text) :
    s.after (p'.blanked offset' (crlf text)) = .broken := by
  induction text generalizing p p' s offset offset' with
  | nil =>
      obtain ⟨before, rest, q, htext, -⟩ := hhides
      simp at htext
  | cons c text ih =>
      by_cases hescape : c = '\n' ∧ ∃ q, p = .escape q
      · obtain ⟨rfl, q, rfl⟩ := hescape
        cases h
        cases hstands
        -- The carriage return is escaped, and the line feed is not.
        rw [Text.crlf_newline, blanked, blanked, chunk_newline]
        simp [covers, Quoting.next]
      · have hlater := (hides_cons.mp hhides).resolve_left hescape
        by_cases hc : c = '\n'
        · subst hc
          have hp : ∀ q, p ≠ .escape q := fun q hq => hescape ⟨rfl, q, hq⟩
          rw [Text.crlf_newline]
          apply hstands.broken_of_next
          intro s hstands
          apply hstands.broken_of_next
          intro s hstands
          rw [next_of_pad Text.pad_return] at hstands ⊢
          rw [← next_settle hp] at hlater
          exact ih hstands (h.settle.next (hR _ _) '\n') hlater
        · rw [Text.crlf_cons hc]
          apply hstands.broken_of_next
          intro s hstands
          exact ih hstands (h.next (hR _ _) c) hlater

end Pass

theorem lockstep_blank (hpad : Padded css padded) (hhides : ¬Pass.sheet.Hides 0 css) :
    Lockstep (Fault.Faces (SameLine css padded)) Padded (blank css) (blank padded) := by
  rw [blank_eq_outcome, blank_eq_outcome]
  exact Pass.Faces.sheet.outcome hpad (.start css padded) hhides

theorem exposes_of_blank (h : blank css = .ok text) (hhides : ¬Pass.sheet.Hides 0 css) :
    Quoting.outside.Exposes text := by
  rw [← (blankFrom_sheet_eq_ok_iff.mp h).2]
  exact Pass.Stands.sheet.exposes hhides

theorem broken_of_blank (h : blank (crlf css) = .ok text) (hhides : Pass.sheet.Hides 0 css) :
    Quoting.outside.after text = .broken := by
  rw [← (blankFrom_sheet_eq_ok_iff.mp h).2]
  exact Pass.Stands.sheet.broken_of_hides .sheet (R := fun _ _ => True) (fun _ _ => trivial) hhides

end Comment

end ContrastLint

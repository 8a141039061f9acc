import ContrastLint.Proofs.Comments

/-!
# Comments part by part

A text may be blanked part by part.  The state of the comment machine after
the first part is all that the second part needs, unless a comment opens across
the seam.  Conversely, a character that is no blank in the blanked text is one
of the given text, and there the given text may be taken apart.

At a brace or a semicolon outside strings both directions meet: what stands
before it and what stands behind it are blanked independently.
-/

namespace ContrastLint

namespace Fault

/-- The same fault in a text that stands further behind. -/
def shift (bytes : Nat) (fault : Fault) : Fault :=
  { fault with offset := fault.offset + bytes }

end Fault

namespace Comment

theorem mem_blankChar {c d : Char} (h : d ∈ blankChar c) : d = ' ' ∨ d = '\n' := by
  unfold blankChar at h
  split at h
  · exact .inr (by simpa using h)
  · exact .inl (List.eq_of_mem_replicate h)

theorem blankChar_ne_nil (c : Char) : blankChar c ≠ [] := by
  unfold blankChar
  have hsize := c.utf8Size_pos
  split
  · simp
  · rw [ne_eq, List.replicate_eq_nil_iff]
    omega

@[simp] theorem byteLength_blankChar (c : Char) :
    Text.byteLength (blankChar c) = c.utf8Size := by
  unfold blankChar
  split
  · next hc =>
      rw [hc]
      rfl
  · have hspace : ' '.utf8Size = 1 := rfl
    simp [Text.byteLength, hspace]

/-- A character and what stands in for it have the same line feeds. -/
theorem count_chunk (covered : Bool) (c : Char) :
    (if covered then blankChar c else [c]).count '\n' = [c].count '\n' := by
  cases covered with
  | false => rfl
  | true =>
      by_cases hc : c = '\n'
      · simp [blankChar, hc]
      · simp [blankChar, hc, List.count_replicate]

theorem after_blankChar (c : Char) : Quoting.outside.after (blankChar c) = .outside := by
  have hwhite : ∀ text : List Char, (∀ d ∈ text, d = ' ' ∨ d = '\n') →
      Quoting.outside.after text = .outside := by
    intro text htext
    induction text with
    | nil => rfl
    | cons d text ih =>
        have hd : Quoting.outside.next d = .outside := by
          rcases htext d List.mem_cons_self with rfl | rfl <;> rfl
        rw [Quoting.after_cons, hd]
        exact ih fun e he => htext e (List.mem_cons_of_mem _ he)
  exact hwhite _ fun _ => mem_blankChar

namespace Pass

variable {p : Pass} {offset : Nat} {a b text : List Char} {c : Char}

theorem after_append (p : Pass) (offset : Nat) (a b : List Char) :
    p.after offset (a ++ b) = (p.after offset a).after (offset + Text.byteLength a) b := by
  induction a generalizing p offset with
  | nil => rfl
  | cons c a ih =>
      rw [List.cons_append, after, ih, after, Text.byteLength_cons, Nat.add_assoc]

theorem next_of_covers_follower
    {follower : Option Char} (offset : Nat) (h : p.covers c none ≠ p.covers c follower) :
    p.next offset c = .slash offset ∧ follower = some '*' := by
  cases p with
  | sheet =>
      have hc : c = '/' ∧ follower = some '*' := by simpa [covers] using h
      exact ⟨by simp [next, enter, hc.1, Quote.ofChar?], hc.2⟩
  | slash opener =>
      by_cases hstar : c = '*'
      · simp [covers, hstar] at h
      · have hc : c = '/' ∧ follower = some '*' := by simpa [covers, hstar] using h
        exact ⟨by simp [next, enter, hc.1, Quote.ofChar?], hc.2⟩
  | _ => simp [covers] at h

/-- The second part is blanked from the state after the first one, unless a
comment opens across the seam. -/
theorem blanked_append
    (hseam : ∀ opener, p.after offset a = .slash opener → b.head? ≠ some '*') :
    p.blanked offset (a ++ b) =
      p.blanked offset a ++ (p.after offset a).blanked (offset + Text.byteLength a) b := by
  induction a generalizing p offset with
  | nil => rfl
  | cons c a ih =>
      have hcovers : p.covers c (a ++ b).head? = p.covers c a.head? := by
        cases a with
        | cons d a => rfl
        | nil =>
            by_contra hne
            rcases next_of_covers_follower offset (Ne.symm hne) with ⟨hslash, hstar⟩
            exact hseam offset (by rw [after, hslash]; rfl) hstar
      rw [List.cons_append, blanked, blanked, hcovers, ih hseam, after, Text.byteLength_cons,
        Nat.add_assoc, List.append_assoc]

@[simp] theorem byteLength_blanked (p : Pass) (offset : Nat) (text : List Char) :
    Text.byteLength (p.blanked offset text) = Text.byteLength text := by
  induction text generalizing p offset with
  | nil => rfl
  | cons c text ih =>
      rw [blanked, Text.byteLength_append, ih, Text.byteLength_cons]
      split <;> simp

/-! ## States of strings -/

/-- The states of strings in which the blanked text is. -/
inductive Stands : Pass → Quoting → Prop
  | sheet : Stands .sheet .outside
  | slash (opener : Nat) : Stands (.slash opener) .outside
  | comment (opener : Nat) : Stands (.comment opener) .outside
  | star (opener : Nat) : Stands (.star opener) .outside
  | string (q : Quote) : Stands (.string q) (.inside q)
  | escape (q : Quote) : Stands (.escape q) (.escaped q)

theorem stands_enter (offset : Nat) (c : Char) :
    (enter offset c).Stands (Quoting.outside.next c) := by
  unfold enter
  cases hquote : Quote.ofChar? c with
  | some q => simpa [Quoting.next, hquote] using Stands.string q
  | none =>
      have hnext : Quoting.outside.next c = .outside := by simp [Quoting.next, hquote]
      rw [hnext]
      simp only
      split
      · exact .slash offset
      · exact .sheet

theorem stands_enter_of_covered
    {offset : Nat} {c : Char} {covered : Bool} (hslash : covered = true → c = '/') :
    (enter offset c).Stands (Quoting.outside.after (if covered then blankChar c else [c])) := by
  cases covered with
  | false => exact stands_enter offset c
  | true =>
      rw [if_pos rfl, after_blankChar, hslash rfl]
      exact .slash offset

theorem Stands.next
    {s : Quoting} (h : p.Stands s) (offset : Nat) (follower : Option Char)
    (hline : s.after (if p.covers c follower then blankChar c else [c]) ≠ .broken) :
    (p.next offset c).Stands (s.after (if p.covers c follower then blankChar c else [c])) := by
  cases h with
  | sheet =>
      apply stands_enter_of_covered
      intro hcovers
      simp [covers] at hcovers
      exact hcovers.1
  | slash opener =>
      rw [Pass.next]
      by_cases hstar : c = '*'
      · rw [if_pos hstar, if_pos (by simp [covers, hstar]), after_blankChar]
        exact .comment opener
      · rw [if_neg hstar]
        apply stands_enter_of_covered
        intro hcovers
        simp [covers, hstar] at hcovers
        exact hcovers.1
  | comment opener =>
      simp only [covers, if_true, after_blankChar, Pass.next]
      split
      · exact .star opener
      · exact .comment opener
  | star opener =>
      simp only [covers, if_true, after_blankChar, Pass.next]
      split
      · exact .sheet
      · split
        · exact .star opener
        · exact .comment opener
  | string q =>
      simp only [covers, Bool.false_eq_true, if_false, Quoting.after_cons, Quoting.after_nil,
        Quoting.next, Pass.next] at hline ⊢
      by_cases hslash : c = '\\'
      · simpa [hslash] using Stands.escape q
      · by_cases hend : c = '\n'
        · simp [hend] at hline
        · by_cases hc : c = q.char
          · simpa [hc] using Stands.sheet
          · simpa [hslash, hend, hc] using Stands.string q
  | escape q => exact .string q

/-- While no string is broken, the comment machine knows where strings stand. -/
theorem Stands.after
    {s : Quoting} (h : p.Stands s) (hline : s.after (p.blanked offset text) ≠ .broken) :
    (p.after offset text).Stands (s.after (p.blanked offset text)) := by
  induction text generalizing p s offset with
  | nil => exact h
  | cons c text ih =>
      rw [blanked, Quoting.after_append] at hline ⊢
      apply ih _ hline
      apply h.next
      intro hbroken
      rw [hbroken, Quoting.after_broken] at hline
      exact hline rfl

/-! ## Taking a text apart -/

theorem covers_eq_false_of_follower
    {follower : Option Char} (h : p.covers c follower = false) : p.covers c none = false := by
  cases p <;> simp_all [covers]

/-- A text can be taken apart at a character, with `a` and `b` around it when the
text is blanked. -/
def Splits (p : Pass) (offset : Nat) (text a : List Char) (c : Char) (b : List Char) : Prop :=
  ∃ before rest, text = before ++ c :: rest ∧ Text.byteLength before = Text.byteLength a ∧
    p.blanked offset (before ++ [c]) = a ++ [c] ∧
    (p.after offset (before ++ [c])).blanked
      (offset + Text.byteLength (before ++ [c])) rest = b

theorem Splits.cons
    {d : Char} (h : (p.next offset d).Splits (offset + d.utf8Size) text a c b) :
    p.Splits offset (d :: text) ((if p.covers d text.head? then blankChar d else [d]) ++ a) c b := by
  obtain ⟨before, rest, rfl, hlength, hbefore, hrest⟩ := h
  have hhead : (before ++ [c]).head? = (before ++ c :: rest).head? := by
    cases before <;> rfl
  refine ⟨d :: before, rest, rfl, ?_, ?_, ?_⟩
  · rw [Text.byteLength_cons, hlength, Text.byteLength_append]
    split <;> simp
  · rw [List.cons_append, blanked, hhead, hbefore, List.append_assoc]
  · rw [← hrest, List.cons_append, after, Text.byteLength_cons, Nat.add_assoc]

/-- If the character stands in what is written for the first one, it is the first. -/
theorem splits_of_mem_chunk
    {d : Char} {later : List Char} (hspace : c ≠ ' ') (hline : c ≠ '\n')
    (h : (if p.covers d text.head? then blankChar d else [d]) = a ++ c :: later) :
    p.Splits offset (d :: text) a c
      (later ++ (p.next offset d).blanked (offset + d.utf8Size) text) := by
  have hmem : c ∈ if p.covers d text.head? then blankChar d else [d] := by
    rw [h]
    simp
  cases hcovers : p.covers d text.head? with
  | true =>
      rw [hcovers, if_pos rfl] at hmem
      rcases mem_blankChar hmem with rfl | rfl <;> contradiction
  | false =>
      rw [hcovers, if_neg (by simp)] at hmem h
      obtain rfl : c = d := by simpa using hmem
      have hlength := congrArg List.length h
      simp only [List.length_append, List.length_cons, List.length_nil] at hlength
      obtain rfl := List.eq_nil_of_length_eq_zero (show a.length = 0 by omega)
      obtain rfl := List.eq_nil_of_length_eq_zero (show later.length = 0 by omega)
      refine ⟨[], text, rfl, rfl, ?_, rfl⟩
      rw [List.nil_append, blanked, List.head?_nil, covers_eq_false_of_follower hcovers]
      simp [blanked]

/-- A character of the blanked text that is no blank is one of the given text. -/
theorem exists_split
    (h : p.blanked offset text = a ++ c :: b) (hspace : c ≠ ' ') (hline : c ≠ '\n') :
    p.Splits offset text a c b := by
  induction text generalizing p offset a with
  | nil => simp [blanked] at h
  | cons d text ih =>
      rw [blanked] at h
      rcases List.append_eq_append_iff.mp h with ⟨later, rfl, hrest⟩ | ⟨later, hchunk, hrest⟩
      · exact (ih hrest).cons
      · cases later with
        | nil =>
            have hsplits := (ih (a := []) hrest.symm).cons
            rw [List.append_nil] at hchunk hsplits
            rw [hchunk] at hsplits
            exact hsplits
        | cons e later =>
            obtain ⟨rfl, rfl⟩ := List.cons_eq_cons.mp hrest
            exact splits_of_mem_chunk hspace hline hchunk

theorem of_next_eq_slash
    {opener : Nat} (h : p.next offset c = .slash opener) :
    c = '/' ∧ p.covers c none = false := by
  have henter : enter offset c = .slash opener → c = '/' := by
    unfold enter
    split
    · simp
    · split <;> simp_all
  cases p with
  | sheet =>
      have hc := henter h
      exact ⟨hc, by simp [covers]⟩
  | slash k =>
      rw [next] at h
      split at h
      · contradiction
      · next hstar => exact ⟨henter h, by simp [covers, hstar]⟩
  | string q =>
      simp only [next] at h
      split at h
      · contradiction
      · split at h <;> contradiction
  | escape q => contradiction
  | comment k =>
      simp only [next] at h
      split at h <;> contradiction
  | star k =>
      simp only [next] at h
      split at h
      · contradiction
      · split at h <;> contradiction

theorem getLast?_blanked_of_slash
    {opener : Nat} (hp : p.after offset [] ≠ .slash opener)
    (h : p.after offset a = .slash opener) :
    (p.blanked offset a).getLast? = some '/' := by
  cases a using List.reverseRecOn with
  | nil => exact absurd h hp
  | append_singleton a c =>
      rw [after_append] at h
      obtain ⟨rfl, hcovers⟩ := of_next_eq_slash h
      rw [blanked_append (by simp), blanked, List.head?_nil, hcovers]
      simp [blanked]

/-! ## Moving a text -/

def shift (bytes : Nat) : Pass → Pass
  | .slash opener => .slash (opener + bytes)
  | .comment opener => .comment (opener + bytes)
  | .star opener => .star (opener + bytes)
  | p => p

theorem next_shift (bytes : Nat) (p : Pass) (offset : Nat) (c : Char) :
    (p.shift bytes).next (offset + bytes) c = (p.next offset c).shift bytes := by
  have henter : enter (offset + bytes) c = (enter offset c).shift bytes := by
    unfold enter
    cases Quote.ofChar? c with
    | some q => rfl
    | none =>
        simp only
        split <;> rfl
  cases p with
  | sheet => exact henter
  | slash opener =>
      simp only [shift, next, henter]
      split <;> rfl
  | string q =>
      simp only [shift, next]
      split
      · rfl
      · split <;> rfl
  | escape q => rfl
  | comment opener =>
      simp only [shift, next]
      split <;> rfl
  | star opener =>
      simp only [shift, next]
      split
      · rfl
      · split <;> rfl

theorem after_shift (bytes : Nat) (p : Pass) (offset : Nat) (text : List Char) :
    (p.shift bytes).after (offset + bytes) text = (p.after offset text).shift bytes := by
  induction text generalizing p offset with
  | nil => rfl
  | cons c text ih =>
      rw [after, next_shift, Nat.add_right_comm, ih, after]

theorem blanked_shift (bytes : Nat) (p : Pass) (offset : Nat) (text : List Char) :
    (p.shift bytes).blanked (offset + bytes) text = p.blanked offset text := by
  induction text generalizing p offset with
  | nil => rfl
  | cons c text ih =>
      have hcovers : (p.shift bytes).covers c text.head? = p.covers c text.head? := by
        cases p <;> rfl
      rw [blanked, hcovers, next_shift, Nat.add_right_comm, ih, blanked]

theorem outcome_shift (bytes : Nat) (p : Pass) (offset : Nat) (text : List Char) :
    (p.shift bytes).outcome (offset + bytes) text =
      (p.outcome offset text).mapError (Fault.shift bytes) := by
  unfold outcome
  rw [after_shift, blanked_shift]
  cases p.after offset text <;> rfl

end Pass

/-! ## Blanking -/

variable {offset : Nat} {a b blanked : List Char}

theorem blankFrom_sheet_eq_ok_iff :
    blankFrom .sheet offset a = .ok blanked ↔
      (Pass.sheet.after offset a).opener? = none ∧ Pass.sheet.blanked offset a = blanked := by
  rw [blankFrom_eq_outcome .sheet, Pass.outcome]
  cases (Pass.sheet.after offset a).opener? <;> simp

/-- Blanking finds the same in a text that stands further behind. -/
theorem blankFrom_shift (bytes offset : Nat) (text : List Char) :
    blankFrom .sheet (offset + bytes) text =
      (blankFrom .sheet offset text).mapError (Fault.shift bytes) := by
  rw [blankFrom_eq_outcome .sheet, blankFrom_eq_outcome .sheet]
  exact Pass.outcome_shift bytes .sheet offset text

theorem byteLength_of_blankFrom (h : blankFrom .sheet offset a = .ok blanked) :
    Text.byteLength blanked = Text.byteLength a := by
  rw [← (blankFrom_sheet_eq_ok_iff.mp h).2, Pass.byteLength_blanked]

/-- After a text that has closed its comments and strings, the machine is at
most at a slash, and then the blanked text ends with it. -/
theorem after_sheet_of_blankFrom
    (h : blankFrom .sheet offset a = .ok blanked)
    (hclosed : Quoting.outside.after blanked = .outside) :
    Pass.sheet.after offset a = .sheet ∨
      (∃ opener, Pass.sheet.after offset a = .slash opener) ∧ blanked.getLast? = some '/' := by
  rcases blankFrom_sheet_eq_ok_iff.mp h with ⟨hopen, rfl⟩
  have hline : Quoting.outside.after (Pass.sheet.blanked offset a) ≠ .broken := by simp [hclosed]
  have hstands := Pass.Stands.sheet.after hline
  rw [hclosed] at hstands
  cases hafter : Pass.sheet.after offset a with
  | sheet => exact .inl rfl
  | slash opener =>
      exact .inr ⟨⟨opener, rfl⟩, Pass.getLast?_blanked_of_slash (by simp [Pass.after]) hafter⟩
  | comment opener => simp [hafter, Pass.opener?] at hopen
  | star opener => simp [hafter, Pass.opener?] at hopen
  | string q =>
      rw [hafter] at hstands
      cases hstands
  | escape q =>
      rw [hafter] at hstands
      cases hstands

/-- Two texts are blanked independently if the first one has closed its strings
and no comment opens across the seam. -/
theorem blankFrom_append
    (h : blankFrom .sheet offset a = .ok blanked)
    (hclosed : Quoting.outside.after blanked = .outside)
    (hseam : blanked.getLast? ≠ some '/' ∨ b.head? ≠ some '*') :
    blankFrom .sheet offset (a ++ b) =
      (blanked ++ ·) <$> blankFrom .sheet (offset + Text.byteLength a) b := by
  have hstate := after_sheet_of_blankFrom h hclosed
  have hsame : (Pass.sheet.after offset a).outcome (offset + Text.byteLength a) b =
      Pass.sheet.outcome (offset + Text.byteLength a) b := by
    rcases hstate with hsheet | ⟨⟨opener, hslash⟩, hlast⟩
    · rw [hsheet]
    · rw [hslash, Pass.outcome_slash (hseam.resolve_left (by simp [hlast]))]
  have hopener : ∀ opener, Pass.sheet.after offset a = .slash opener → b.head? ≠ some '*' := by
    intro opener hslash
    rcases hstate with hsheet | ⟨-, hlast⟩
    · rw [hsheet] at hslash
      contradiction
    · exact hseam.resolve_left (by simp [hlast])
  have hjoin := Pass.blanked_append hopener
  rw [(blankFrom_sheet_eq_ok_iff.mp h).2] at hjoin
  rw [blankFrom_eq_outcome .sheet, blankFrom_eq_outcome .sheet, ← hsame, Pass.outcome,
    Pass.outcome, Pass.after_append, hjoin]
  cases ((Pass.sheet.after offset a).after (offset + Text.byteLength a) b).opener? <;> rfl

/-- A character of the blanked text that is no blank stands at the same byte of
the given text. -/
theorem exists_split_of_blankFrom
    {c : Char} (h : blankFrom .sheet offset blanked = .ok (a ++ c :: b)) (hspace : c ≠ ' ')
    (hline : c ≠ '\n') :
    ∃ before rest, blanked = before ++ c :: rest ∧
      Text.byteLength before = Text.byteLength a := by
  obtain ⟨before, rest, htext, hlength, -, -⟩ :=
    Pass.exists_split (blankFrom_sheet_eq_ok_iff.mp h).2 hspace hline
  exact ⟨before, rest, htext, hlength⟩

/-! ## Dividing characters -/

/-- A character that opens neither a string nor a comment, closes no comment, and
is none that a comment is blanked with. -/
structure Divides (c : Char) : Prop where
  quote : Quote.ofChar? c = none
  slash : c ≠ '/'
  star : c ≠ '*'
  space : c ≠ ' '
  line : c ≠ '\n'

theorem divides_openBrace : Divides '{' := by
  constructor <;> decide

theorem divides_closeBrace : Divides '}' := by
  constructor <;> decide

theorem divides_semicolon : Divides ';' := by
  constructor <;> decide

theorem blankFrom_sheet_cons {c : Char} (hc : Divides c) :
    blankFrom .sheet offset (c :: b) = (c :: ·) <$> blankFrom .sheet (offset + c.utf8Size) b := by
  rw [blankFrom_eq_outcome .sheet, blankFrom_eq_outcome .sheet]
  exact Pass.outcome_sheet hc.quote fun hslash => absurd hslash hc.slash

/-- What stands before such a character and what stands behind it are blanked
independently. -/
theorem blankFrom_append_cons
    {c : Char} {back : List Char} (ha : blankFrom .sheet offset a = .ok blanked)
    (hclosed : Quoting.outside.after blanked = .outside) (hc : Divides c)
    (hb : blankFrom .sheet (offset + Text.byteLength a + c.utf8Size) b = .ok back) :
    blankFrom .sheet offset (a ++ c :: b) = .ok (blanked ++ c :: back) := by
  rw [blankFrom_append ha hclosed (.inr (by simpa using hc.star)), blankFrom_sheet_cons hc, hb]
  rfl

theorem Pass.Stands.opener?_and_next
    {p : Pass} {c : Char} (h : p.Stands .outside) (hcovers : p.covers c none = false)
    (hc : Divides c) : p.opener? = none ∧ ∀ offset, p.next offset c = .sheet := by
  cases h with
  | sheet => exact ⟨rfl, fun _ => by simp [Pass.next, enter, hc.quote, hc.slash]⟩
  | slash opener =>
      exact ⟨rfl, fun _ => by simp [Pass.next, enter, hc.quote, hc.slash, hc.star]⟩
  | comment opener => simp [covers] at hcovers
  | star opener => simp [covers] at hcovers

theorem Pass.blanked_singleton_eq
    {p : Pass} {front : List Char} {c d : Char} (hspace : d ≠ ' ') (hline : d ≠ '\n')
    (h : front ++ p.blanked offset [c] = a ++ [d]) :
    p.covers c none = false ∧ front = a := by
  rw [blanked, List.head?_nil, blanked, List.append_nil] at h
  cases hcovers : p.covers c none with
  | true =>
      rw [hcovers, if_pos rfl] at h
      have hlast := congrArg List.getLast? h
      rw [List.getLast?_append_of_ne_nil _ (blankChar_ne_nil c), List.getLast?_concat] at hlast
      rcases mem_blankChar (List.mem_of_getLast? hlast) with rfl | rfl <;> contradiction
  | false =>
      rw [hcovers, if_neg (by simp)] at h
      exact ⟨rfl, (List.append_inj' h rfl).1⟩

/-- A character that means something in the blanked text takes both texts
apart. -/
theorem exists_split_of_divides
    {c : Char} {css : List Char} (h : blankFrom .sheet offset css = .ok (a ++ c :: b))
    (hclosed : Quoting.outside.after a = .outside) (hc : Divides c) :
    ∃ before rest, css = before ++ c :: rest ∧ Text.byteLength before = Text.byteLength a ∧
      blankFrom .sheet offset before = .ok a ∧
      blankFrom .sheet (offset + Text.byteLength a + c.utf8Size) rest = .ok b := by
  rcases blankFrom_sheet_eq_ok_iff.mp h with ⟨hopen, hblanked⟩
  obtain ⟨before, rest, rfl, hlength, hbefore, hrest⟩ :=
    Pass.exists_split hblanked hc.space hc.line
  rw [Pass.blanked_append (by simpa using fun _ _ => hc.star)] at hbefore
  obtain ⟨hcovers, hfront⟩ := Pass.blanked_singleton_eq hc.space hc.line hbefore
  have hline : Quoting.outside.after (Pass.sheet.blanked offset before) ≠ .broken := by
    simp [hfront, hclosed]
  have hstands := Pass.Stands.sheet.after hline
  rw [hfront, hclosed] at hstands
  obtain ⟨hnone, hnext⟩ := hstands.opener?_and_next hcovers hc
  have hafter : Pass.sheet.after offset (before ++ [c]) = .sheet := by
    rw [Pass.after_append]
    exact hnext _
  refine ⟨before, rest, rfl, hlength, blankFrom_sheet_eq_ok_iff.mpr ⟨hnone, hfront⟩, ?_⟩
  have hoffset : offset + Text.byteLength (before ++ [c]) =
      offset + Text.byteLength a + c.utf8Size := by
    simp [hlength, Nat.add_assoc]
  rw [List.append_cons, Pass.after_append, hafter, hoffset] at hopen
  rw [hafter, hoffset] at hrest
  exact blankFrom_sheet_eq_ok_iff.mpr ⟨hopen, hrest⟩

end Comment

end ContrastLint

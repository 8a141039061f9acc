import ContrastLint.Proofs.Locating
import ContrastLint.Proofs.Seams
import ContrastLint.Proofs.Verdict

/-!
# Where faults stand

Faults are found in the blanked text, or while it is blanked, and located in the
given one.  That a blanked comment may have more characters than the comment
does not matter.  A fault is named at a character that is no blank, and such a
character stands at the same byte of both texts, between two characters of
each.
-/

namespace ContrastLint

namespace Text

/-- A character that is neither a space nor a line feed stands at the byte `place`
of a text that starts at the byte `offset`. -/
def Shows (offset : Nat) (text : List Char) (place : Nat) : Prop :=
  ∃ before c rest, text = before ++ c :: rest ∧ place = offset + byteLength before ∧
    c ≠ ' ' ∧ c ≠ '\n'

variable {offset place : Nat} {a b text : List Char}

theorem Shows.append_right (h : Shows offset a place) (b : List Char) :
    Shows offset (a ++ b) place := by
  rcases h with ⟨before, c, rest, rfl, hplace, hblank⟩
  exact ⟨before, c, rest ++ b, by simp, hplace, hblank⟩

theorem Shows.append_left (h : Shows (offset + byteLength a) b place) :
    Shows offset (a ++ b) place := by
  rcases h with ⟨before, c, rest, rfl, rfl, hblank⟩
  exact ⟨a ++ before, c, rest, by simp, by rw [byteLength_append, Nat.add_assoc], hblank⟩

/-- The first character that is no blank of a kind shows. -/
theorem shows_of_dropWhile
    {blank : Char → Bool} (hspace : blank ' ' = true) (hline : blank '\n' = true)
    (h : text.dropWhile blank ≠ []) :
    Shows offset text (offset + byteLength (text.takeWhile blank)) := by
  obtain ⟨c, rest, hrest⟩ := List.exists_cons_of_ne_nil h
  have hc := List.head?_dropWhile_not blank text
  rw [hrest] at hc
  refine ⟨text.takeWhile blank, c, rest, ?_, rfl, ?_, ?_⟩
  · rw [← hrest, List.takeWhile_append_dropWhile]
  · rintro rfl
    simp [hspace] at hc
  · rintro rfl
    simp [hline] at hc

end Text

/-! ## Comments -/

namespace Comment

/-- Where a comment may have opened. -/
def Pass.pointer? : Pass → Option Nat
  | .slash opener => some opener
  | .comment opener => some opener
  | .star opener => some opener
  | _ => none

theorem Pass.pointer?_next
    {p : Pass} {offset place : Nat} {c : Char} (h : (p.next offset c).pointer? = some place) :
    place = offset ∨ p.pointer? = some place := by
  have henter : (enter offset c).pointer? = some place → place = offset := by
    intro h
    unfold enter at h
    split at h
    · contradiction
    · split at h
      · cases h
        rfl
      · contradiction
  cases p with
  | sheet => exact .inl (henter h)
  | slash opener =>
      rw [next] at h
      split at h
      · exact .inr h
      · exact .inl (henter h)
  | string q =>
      simp only [next] at h
      split at h
      · contradiction
      · split at h <;> contradiction
  | escape q => contradiction
  | comment opener =>
      simp only [next] at h
      split at h <;> exact .inr h
  | star opener =>
      simp only [next] at h
      split at h
      · contradiction
      · split at h <;> exact .inr h

theorem Pass.boundary_of_pointer?
    {p : Pass} {before text : List Char} {place : Nat}
    (hp : ∀ k, p.pointer? = some k → Text.Boundary (before ++ text) k)
    (h : (p.after (Text.byteLength before) text).pointer? = some place) :
    Text.Boundary (before ++ text) place := by
  induction text generalizing p before with
  | nil => exact hp place h
  | cons c text ih =>
      have hbytes : Text.byteLength before + c.utf8Size = Text.byteLength (before ++ [c]) := by
        simp
      rw [after, hbytes] at h
      rw [List.append_cons] at hp ⊢
      apply ih _ h
      intro k hk
      rcases pointer?_next hk with rfl | hk
      · exact ⟨before, ⟨c :: text, by simp⟩, rfl⟩
      · exact hp k hk

theorem boundary_of_blank_eq_error
    {css : List Char} {fault : Fault} (h : blank css = .error fault) :
    Text.Boundary css fault.offset := by
  rw [blank_eq_outcome, Pass.outcome] at h
  split at h
  · next opener hopener =>
      cases h
      have hpointer : (Pass.sheet.after (Text.byteLength []) css).pointer? = some opener := by
        revert hopener
        simp only [Text.byteLength_nil]
        cases Pass.sheet.after 0 css <;> simp [Pass.opener?, Pass.pointer?]
      have hboundary : Text.Boundary ([] ++ css) opener :=
        Pass.boundary_of_pointer? (by simp [Pass.pointer?]) hpointer
      exact hboundary
  · contradiction

/-- A character that shows in the blanked text stands at a boundary of the
given one. -/
theorem boundary_of_shows
    {css text : List Char} {place : Nat} (h : blank css = .ok text)
    (hshows : Text.Shows 0 text place) : Text.Boundary css place := by
  rcases hshows with ⟨a, c, b, rfl, rfl, hspace, hline⟩
  obtain ⟨before, rest, rfl, hlength⟩ := exists_split_of_blankFrom h hspace hline
  exact ⟨before, List.prefix_append _ _, by rw [hlength, Nat.zero_add]⟩

end Comment

/-! ## Strings and braces -/

namespace Pass

/-- What a pass remembers shows in the text. -/
structure Recalls (p : Pass) (text : List Char) : Prop where
  quote : p.quoting ≠ .outside → Text.Shows 0 text p.quoteAt
  brace : p.depth ≠ 0 → Text.Shows 0 text p.braceAt

theorem ne_of_next_ne_outside {c : Char} (h : Quoting.outside.next c ≠ .outside) :
    c ≠ ' ' ∧ c ≠ '\n' := by
  constructor
  · rintro rfl
    exact h rfl
  · rintro rfl
    exact h rfl

/-- What a step can do. -/
inductive Steps (p : Pass) (offset : Nat) (c : Char) : Except Fault Pass → Prop
  | broken (hquoting : p.quoting ≠ .outside) :
      Steps p offset c (.error ⟨.unclosedString, p.quoteAt⟩)
  | inside (hquoting : p.quoting ≠ .outside) :
      Steps p offset c (.ok { p with quoting := p.quoting.next c })
  | quote (hquoting : p.quoting = .outside) (hnext : p.quoting.next c ≠ .outside) :
      Steps p offset c (.ok { p with quoting := p.quoting.next c, quoteAt := offset })
  | openBrace (hquoting : p.quoting = .outside) (hc : c = '{') :
      Steps p offset c (.ok { p with
        depth := p.depth + 1, braceAt := if p.depth = 0 then offset else p.braceAt })
  | closeBrace (hquoting : p.quoting = .outside) (hc : c = '}') (hdepth : p.depth ≠ 0) :
      Steps p offset c (.ok { p with depth := p.depth - 1 })
  | unexpected (hquoting : p.quoting = .outside) (hc : c = '}') :
      Steps p offset c (.error ⟨.unexpectedClose, offset⟩)
  | other (hquoting : p.quoting = .outside) : Steps p offset c (.ok p)

theorem next_outside_ne_broken (c : Char) : Quoting.outside.next c ≠ .broken := by
  cases hquote : Quote.ofChar? c <;> simp [Quoting.next, hquote]

theorem steps_step (p : Pass) (offset : Nat) (c : Char) : p.Steps offset c (p.step offset c) := by
  rcases p with ⟨s, quoteAt, depth, braceAt⟩
  unfold step
  by_cases hs : s = .outside
  · subst hs
    have hline := next_outside_ne_broken c
    by_cases hnext : Quoting.outside.next c = .outside
    · simp only [hnext, reduceCtorEq, ne_eq, not_true, if_false]
      split
      · next hc => exact .openBrace rfl hc
      · split
        · next hc =>
            split
            · exact .unexpected rfl hc
            · next hdepth => exact .closeBrace rfl hc hdepth
        · exact .other rfl
    · simp only [hline, hnext, ne_eq, not_true, not_false_eq_true, if_true, if_false]
      exact .quote rfl hnext
  · by_cases hline : s.next c = .broken
    · simp only [hline, if_true]
      exact .broken hs
    · simp only [hline, hs, ne_eq, not_false_eq_true, if_true, if_false]
      exact .inside hs

variable {p : Pass} {before rest : List Char} {c : Char}

theorem Recalls.step_ok
    {next : Pass} (h : p.Recalls (before ++ c :: rest))
    (hstep : p.step (Text.byteLength before) c = .ok next) :
    next.Recalls (before ++ c :: rest) := by
  have hhere (hspace : c ≠ ' ') (hline : c ≠ '\n') :
      Text.Shows 0 (before ++ c :: rest) (Text.byteLength before) :=
    ⟨before, c, rest, rfl, by rw [Nat.zero_add], hspace, hline⟩
  have hsteps := p.steps_step (Text.byteLength before) c
  rw [hstep] at hsteps
  cases hsteps with
  | inside hquoting => exact ⟨fun _ => h.quote hquoting, h.brace⟩
  | quote hquoting hnext =>
      rw [hquoting] at hnext
      rcases ne_of_next_ne_outside hnext with ⟨hspace, hline⟩
      exact ⟨fun _ => hhere hspace hline, h.brace⟩
  | openBrace hquoting hc =>
      constructor
      case quote => exact fun hopen => absurd hquoting hopen
      case brace =>
        intro _
        simp only
        split
        · exact hhere (by simp [hc]) (by simp [hc])
        · next hdepth => exact h.brace hdepth
  | closeBrace hquoting hc hdepth => exact ⟨h.quote, fun _ => h.brace hdepth⟩
  | other => exact h

theorem Recalls.step_error
    {fault : Fault} (h : p.Recalls (before ++ c :: rest))
    (hstep : p.step (Text.byteLength before) c = .error fault) :
    Text.Shows 0 (before ++ c :: rest) fault.offset := by
  have hsteps := p.steps_step (Text.byteLength before) c
  rw [hstep] at hsteps
  cases hsteps with
  | broken hquoting => exact h.quote hquoting
  | unexpected hquoting hc =>
      exact ⟨before, c, rest, rfl, by rw [Nat.zero_add], by simp [hc], by simp [hc]⟩

theorem Recalls.run
    {text : List Char} {fault : Fault} (h : p.Recalls (before ++ text))
    (hrun : p.run (Text.byteLength before) text = .error fault) :
    Text.Shows 0 (before ++ text) fault.offset := by
  induction text generalizing p before with
  | nil =>
      rw [Pass.run, finish] at hrun
      split at hrun
      · next hquoting =>
          cases hrun
          exact h.quote hquoting
      · split at hrun
        · next hdepth =>
            cases hrun
            exact h.brace hdepth
        · contradiction
  | cons c text ih =>
      rw [run_cons] at hrun
      cases hstep : p.step (Text.byteLength before) c with
      | error fault' =>
          rw [hstep, bind_error] at hrun
          cases hrun
          exact h.step_error hstep
      | ok next =>
          have hbytes : Text.byteLength before + c.utf8Size = Text.byteLength (before ++ [c]) := by
            simp
          have hnext := h.step_ok hstep
          rw [hstep, bind_ok, hbytes] at hrun
          rw [List.append_cons] at hnext ⊢
          exact ih hnext hrun

end Pass

theorem Document.shows_of_ofBlanked_eq_error
    {text : List Char} {fault : Fault} (h : ofBlanked text = .error fault) :
    Text.Shows 0 text fault.offset := by
  have hverdict := ofBlanked_verdict text
  rw [h] at hverdict
  have hstart : Pass.start.Recalls ([] ++ text) :=
    ⟨fun hopen => absurd rfl hopen, fun hopen => absurd rfl hopen⟩
  exact hstart.run hverdict.symm

end ContrastLint

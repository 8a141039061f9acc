import ContrastLint.Proofs.Assignments
import ContrastLint.Proofs.Comments
import ContrastLint.Proofs.Cursor

/-!
# Gaps

What stands between the parts of a declaration, or of an at-rule, is written
anew when a document is rendered.  Such a gap may lie inside a quoted string,
even just after a backslash, since the reader splits texts without looking at
strings.  This file shows why the new gap does no harm: all gaps consist of
characters that neither open nor close anything, and whatever gap a reader
passes, it stands afterwards where any other gap would have put it.
-/

namespace ContrastLint

namespace Text

/-- The characters that mean something to the reader of strings or pieces. -/
def signal : List Char :=
  ['\'', '"', '\\', '{', '}', '(', ')', ';']

/-- A text in which no character means anything. -/
def Neutral (text : List Char) : Prop :=
  ∀ c ∈ text, c ∉ signal

instance (text : List Char) : Decidable (Neutral text) :=
  List.decidableBAll (· ∉ signal) text

theorem Neutral.append {a b : List Char} (ha : Neutral a) (hb : Neutral b) : Neutral (a ++ b) := by
  intro c hc
  rcases List.mem_append.mp hc with h | h
  · exact ha c h
  · exact hb c h

theorem White.neutral {text : List Char} (h : White text) : Neutral text := by
  intro c hc hsignal
  have hwhite := h c hc
  simp only [signal, List.mem_cons, List.not_mem_nil, or_false] at hsignal
  rcases hsignal with rfl | rfl | rfl | rfl | rfl | rfl | rfl | rfl <;>
    exact absurd hwhite (by decide)

theorem White.slash_notMem {text : List Char} (h : White text) : '/' ∉ text := by
  intro hmem
  exact absurd (h '/' hmem) (by decide)

theorem neutral_of_map_toLower
    {word name : List Char} (h : word.map Char.toLower = name) (hname : Neutral name) :
    Neutral word := by
  intro c hc hsignal
  have hlower : c.toLower ∈ name := by
    rw [← h]
    exact List.mem_map_of_mem hc
  have hsame : c.toLower = c := by
    simp only [signal, List.mem_cons, List.not_mem_nil, or_false] at hsignal
    rcases hsignal with rfl | rfl | rfl | rfl | rfl | rfl | rfl | rfl <;> decide
  rw [hsame] at hlower
  exact hname c hlower hsignal

end Text

theorem Assignment.Mark.neutral {mark : List Char} (h : Mark mark) : Text.Neutral mark := by
  rcases h with ⟨before, inside, word, hbefore, hinside, hword, rfl⟩
  have hwhole : Text.Neutral (before ++ (['!'] ++ (inside ++ word))) :=
    hbefore.neutral.append
      (.append (by decide) (hinside.neutral.append
        (Text.neutral_of_map_toLower hword (by decide))))
  exact hwhole

namespace Quoting

/-- Where a gap puts a reader that is not at the end of a line in a string. -/
def settle : Quoting → Quoting
  | .escaped q => .inside q
  | s => s

theorem settle_eq_outside_iff {s : Quoting} : s.settle = .outside ↔ s = .outside := by
  cases s <;> simp [settle]

theorem settle_settle (s : Quoting) : s.settle.settle = s.settle := by
  cases s <;> rfl

theorem sign_of_neutral
    {s : Quoting} {c : Char} (hc : c ∉ Text.signal) : s.sign c = .ordinary := by
  cases s with
  | outside =>
      simp only [Text.signal, List.mem_cons, List.not_mem_nil, or_false, not_or] at hc
      unfold sign Sign.ofChar
      split <;> simp_all
  | _ => rfl

theorem next_of_neutral
    {s : Quoting} {c : Char} (hc : c ∉ Text.signal) (hline : c = '\n' → s.next c ≠ .broken) :
    s.next c = s.settle := by
  simp only [Text.signal, List.mem_cons, List.not_mem_nil, or_false, not_or] at hc
  cases s with
  | outside => simp [next, settle, Quote.ofChar?, hc]
  | inside q =>
      have hquote : c ≠ q.char := by cases q <;> simp [Quote.char, hc]
      have hne : c ≠ '\n' := by
        intro h
        exact hline h (by simp [next, h])
      simp [next, settle, hc, hquote, hne]
  | escaped q => rfl
  | broken => rfl

/-- All gaps that do not break a string lead to the same state. -/
theorem after_of_neutral
    {s : Quoting} {gap : List Char} (hgap : Text.Neutral gap) (hne : gap ≠ [])
    (hline : '\n' ∈ gap → s.after gap ≠ .broken) :
    s.after gap = s.settle := by
  induction gap generalizing s with
  | nil => contradiction
  | cons c gap ih =>
      -- The first character settles the state, and the others keep it.
      have hnext : s.next c = s.settle := by
        apply next_of_neutral (hgap c List.mem_cons_self)
        intro hc hbroken
        exact hline (by simp [hc]) (by rw [after_cons, hbroken, after_broken])
      rw [after_cons, hnext]
      by_cases hempty : gap = []
      · rw [hempty, after_nil]
      · have hrest : Text.Neutral gap := fun d hd => hgap d (List.mem_cons_of_mem _ hd)
        rw [ih hrest hempty, settle_settle]
        intro hmem
        rw [← hnext]
        exact hline (List.mem_cons_of_mem _ hmem)

theorem eq_outside_of_next_closeBrace {s : Quoting} (h : s.next '}' = .outside) : s = .outside := by
  cases s with
  | outside => rfl
  | inside q => cases q <;> contradiction
  | escaped q => contradiction
  | broken => contradiction

/-- White space leads out of no string. -/
theorem eq_outside_of_after_white
    {s : Quoting} {w : List Char} (hw : Text.White w) (h : s.after w = .outside) :
    s = .outside := by
  by_cases hempty : w = []
  · rw [hempty] at h
    exact h
  · have hsettle := after_of_neutral (s := s) hw.neutral hempty (by simp [h])
    exact settle_eq_outside_iff.mp (hsettle.symm.trans h)

end Quoting

/-- The gaps that a document is written with. -/
structure WrittenGap (gap : List Char) : Prop where
  neutral : Text.Neutral gap
  nonempty : gap ≠ []
  line : '\n' ∉ gap
  slash : '/' ∉ gap
  star : gap.head? ≠ some '*'

/-- How a cursor reads a text without comments. -/
structure Reading (k : Cursor) (text : List Char) (k' : Cursor) : Prop where
  read : k.readText text = some k'
  free : Comment.Free k.quoting text

theorem WrittenGap.after
    {gap : List Char} (h : WrittenGap gap) (s : Quoting) : s.after gap = s.settle :=
  Quoting.after_of_neutral h.neutral h.nonempty fun hmem => absurd hmem h.line

theorem Cursor.readText_neutral
    {k : Cursor} {gap : List Char} (hgap : Text.Neutral gap) :
    k.readText gap = some ⟨k.quoting.after gap, k.depth⟩ := by
  induction gap generalizing k with
  | nil => rfl
  | cons c gap ih =>
      have hsign : k.quoting.sign c = .ordinary :=
        Quoting.sign_of_neutral (hgap c List.mem_cons_self)
      have hrest : Text.Neutral gap := fun d hd => hgap d (List.mem_cons_of_mem _ hd)
      have hnext : k.text? c = some ⟨k.quoting.next c, k.depth⟩ :=
        text?_eq_some_iff.mpr ⟨by simp [Stops, hsign], by simp [hsign, Sign.parens]⟩
      rw [readText_cons, hnext]
      exact ih hrest

theorem Comment.free_append_of_notMem
    {s : Quoting} {a b : List Char} (h : '/' ∉ a) :
    Free s (a ++ b) ↔ Free (s.after a) b := by
  induction a generalizing s with
  | nil => rfl
  | cons c a ih =>
      obtain ⟨hc, ha⟩ : '/' ≠ c ∧ '/' ∉ a := by simpa using h
      rw [List.cons_append, free_cons, ih ha, Quoting.after_cons]
      simp [Ne.symm hc]

theorem Comment.free_of_notMem {s : Quoting} {a : List Char} (h : '/' ∉ a) : Free s a := by
  rw [← List.append_nil a, free_append_of_notMem h]
  exact free_nil _

namespace Reading

variable {k k' m : Cursor} {a b w gap : List Char} {depth : Nat}

theorem after (h : Reading k a k') : k'.quoting = k.quoting.after a :=
  Cursor.quoting_of_readText h.read

theorem split (h : Reading k (a ++ b) k') : ∃ m, Reading k a m ∧ Reading m b k' := by
  rcases h with ⟨hread, hfree⟩
  rw [Cursor.readText_append] at hread
  obtain ⟨m, ha, hb⟩ := Option.bind_eq_some_iff.mp hread
  refine ⟨m, ⟨ha, hfree.append_left⟩, ⟨hb, ?_⟩⟩
  rw [Cursor.quoting_of_readText ha]
  exact hfree.append_right

theorem append
    (ha : Reading k a m) (hb : Reading m b k') (hseam : '/' ∉ a ∨ b.head? ≠ some '*') :
    Reading k (a ++ b) k' := by
  have hfree : Comment.Free (k.quoting.after a) b := by
    rw [← ha.after]
    exact hb.free
  constructor
  case read =>
    rw [Cursor.readText_append, ha.read]
    exact hb.read
  case free =>
    rcases hseam with hslash | hstar
    · exact (Comment.free_append_of_notMem hslash).mpr hfree
    · exact ha.free.append hfree hstar

theorem white (hw : Text.White w) : Reading ⟨.outside, depth⟩ w ⟨.outside, depth⟩ :=
  ⟨Cursor.readText_white hw, Comment.free_of_notMem hw.slash_notMem⟩

theorem white_append_iff (hw : Text.White w) :
    Reading ⟨.outside, depth⟩ (w ++ b) k' ↔ Reading ⟨.outside, depth⟩ b k' := by
  constructor
  · intro h
    rcases h.split with ⟨m, hleft, hright⟩
    have hm := hleft.read
    rw [Cursor.readText_white hw] at hm
    cases hm
    exact hright
  · intro h
    exact (white hw).append h (.inl hw.slash_notMem)

theorem of_append_white
    (h : Reading k (a ++ w) ⟨.outside, depth⟩) (hw : Text.White w) :
    Reading k a ⟨.outside, depth⟩ := by
  rcases h.split with ⟨⟨s, depth'⟩, hleft, hright⟩
  obtain rfl : s = .outside := Quoting.eq_outside_of_after_white hw hright.after.symm
  have hm := hright.read
  rw [Cursor.readText_white hw] at hm
  cases hm
  exact hleft

/-- A gap may be written anew. -/
theorem gap_append
    {written : List Char} (h : Reading k (gap ++ b) k') (hgap : Text.Neutral gap)
    (hne : gap ≠ []) (hk : k'.quoting ≠ .broken) (hwritten : WrittenGap written) :
    Reading k (written ++ b) k' := by
  rcases h.split with ⟨m, hleft, hright⟩
  have hm := hleft.read
  rw [Cursor.readText_neutral hgap] at hm
  cases hm
  have hbroken : k.quoting.after gap ≠ .broken := by
    intro hafter
    have hend := hright.after
    simp only [hafter, Quoting.after_broken] at hend
    exact hk hend
  have hsettle := Quoting.after_of_neutral hgap hne fun _ => hbroken
  rw [hsettle, ← hwritten.after] at hright
  have hwrite : Reading k written ⟨k.quoting.after written, k.depth⟩ :=
    ⟨Cursor.readText_neutral hwritten.neutral, Comment.free_of_notMem hwritten.slash⟩
  exact hwrite.append hright (.inl hwritten.slash)

end Reading

/-! ## Assignments -/

theorem writtenGap_colon : WrittenGap [':', ' '] := by
  constructor <;> decide

theorem writtenGap_mark : WrittenGap (Assignment.writtenMark true) := by
  constructor <;> decide

theorem writtenGap_space : WrittenGap [' '] := by
  constructor <;> decide

namespace Assignment

variable {text : List Char} {a : Assignment} {depth : Nat}

theorem reading_mark
    {k : Cursor} {value mark back : List Char}
    (h : Reading k (value ++ (mark ++ back)) ⟨.outside, depth⟩) (hback : Text.White back)
    {important : Bool} (hmark : if important then Mark mark else mark = []) :
    Reading k (value ++ writtenMark important) ⟨.outside, depth⟩ := by
  cases important with
  | false =>
      obtain rfl : mark = [] := by simpa using hmark
      rw [writtenMark, if_neg (by simp), List.append_nil]
      exact h.of_append_white hback
  | true =>
      rw [if_pos rfl] at hmark
      have hne : mark ++ back ≠ [] := by
        rcases hmark with ⟨before, inside, word, -, -, -, rfl⟩
        simp
      rcases h.split with ⟨m, hvalue, hend⟩
      have hwritten : Reading m (writtenMark true ++ []) ⟨.outside, depth⟩ := by
        rw [← List.append_nil (mark ++ back)] at hend
        exact hend.gap_append (hmark.neutral.append hback.neutral) hne (by simp) writtenGap_mark
      rw [List.append_nil] at hwritten
      exact hvalue.append hwritten (.inr writtenGap_mark.star)

/-- An assignment is read like the text that it stands in. -/
theorem reading_render
    (h : read? text = some a) (hread : Reading .start text ⟨.outside, depth⟩) :
    Reading .start a.render.toList ⟨.outside, depth⟩ := by
  obtain ⟨front, before, after, mark, back, hfront, hbefore, hafter, hback, hmark, rfl⟩ :=
    laidOut_of_read? h
  have hgap : Text.Neutral (before ++ ':' :: after) :=
    hbefore.neutral.append (.append (a := [':']) (by decide) hafter.neutral)
  rcases ((Reading.white_append_iff hfront).mp hread).split with ⟨m, hproperty, hrest⟩
  have hwritten := hrest.gap_append hgap (by simp) (by simp) writtenGap_colon
  rw [← List.append_assoc] at hwritten
  have hvalue := reading_mark hwritten hback hmark
  rw [toList_render]
  exact hproperty.append (by simpa using hvalue) (.inr (by simp))

end Assignment

end ContrastLint

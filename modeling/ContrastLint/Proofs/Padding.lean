import ContrastLint.Proofs.Beginnings
import ContrastLint.Proofs.Gaps

/-!
# Blanks at the ends of lines

A text may be padded: blanks come to stand before some of its line feeds.  A
carriage return is such a blank, and so is the space that it becomes when a
comment is blanked.  What is read from the padded text is padded itself, or it is
the same where it has no line feed.

A reader of strings notices no pad, unless a backslash in a string has hidden the
line feed behind it.  Then it is the pad that is hidden, and the line feed breaks
the string.
-/

namespace ContrastLint

namespace Text

/-- A blank that ends no line. -/
structure Pad (w : Char) : Prop where
  blank : isAsciiWhite w = true
  line : w ≠ '\n'

/-- The second text is the first one with pads before line feeds. -/
inductive Padded : List Char → List Char → Prop
  | nil : Padded [] []
  | char (c : Char) {a b : List Char} (h : Padded a b) : Padded (c :: a) (c :: b)
  | pad {w : Char} {a b : List Char} (hw : Pad w) (h : Padded ('\n' :: a) b) :
      Padded ('\n' :: a) (w :: b)

namespace Pad

variable {w : Char}

theorem white (hw : Pad w) : isWhite w = true :=
  isWhite_of_isAsciiWhite hw.blank

theorem ne (hw : Pad w) {c : Char} (hc : isWhite c = false) : w ≠ c := by
  rintro rfl
  rw [hw.white] at hc
  contradiction

theorem notMem_signal (hw : Pad w) : w ∉ signal := by
  have hwhite : White [w] := by simpa [White] using hw.white
  exact hwhite.neutral w List.mem_cons_self

end Pad

theorem not_pad_newline : ¬Pad '\n' :=
  fun hw => hw.line rfl

theorem not_pad_of_isWhite {c : Char} (hc : isWhite c = false) : ¬Pad c :=
  fun hw => hw.ne hc rfl

namespace Padded

variable {a b c d text padded : List Char} {x : Char}

theorem refl (text : List Char) : Padded text text := by
  induction text with
  | nil => exact .nil
  | cons c text ih => exact .char c ih

theorem append (h : Padded a b) (h' : Padded c d) : Padded (a ++ c) (b ++ d) := by
  induction h with
  | nil => exact h'
  | char x _ ih => exact .char x ih
  | pad hw _ ih => exact .pad hw ih

theorem exists_cons (h : Padded (x :: a) padded) (hx : x ≠ '\n') :
    ∃ b, padded = x :: b ∧ Padded a b := by
  cases h with
  | char _ h => exact ⟨_, rfl, h⟩
  | pad => contradiction

theorem exists_append (h : Padded (a ++ c) padded) :
    ∃ b d, padded = b ++ d ∧ Padded a b ∧ Padded c d := by
  generalize htext : a ++ c = text at h
  induction h generalizing a with
  | nil =>
      obtain ⟨rfl, rfl⟩ := List.append_eq_nil_iff.mp htext
      exact ⟨[], [], rfl, .nil, .nil⟩
  | @char x s t h ih =>
      cases a with
      | nil =>
          obtain rfl : c = x :: s := htext
          exact ⟨[], x :: t, rfl, .nil, .char x h⟩
      | cons y a =>
          obtain ⟨rfl, hrest⟩ := List.cons_eq_cons.mp htext
          obtain ⟨b, d, rfl, hb, hd⟩ := ih hrest
          exact ⟨y :: b, d, rfl, .char y hb, hd⟩
  | @pad w s t hw h ih =>
      cases a with
      | nil =>
          obtain rfl : c = '\n' :: s := htext
          exact ⟨[], w :: t, rfl, .nil, .pad hw h⟩
      | cons y a =>
          obtain ⟨rfl, hrest⟩ := List.cons_eq_cons.mp htext
          obtain ⟨b, d, rfl, hb, hd⟩ := ih htext
          exact ⟨w :: b, d, rfl, .pad hw hb, hd⟩

theorem exists_append_cons (h : Padded (a ++ x :: c) padded) (hx : x ≠ '\n') :
    ∃ b d, padded = b ++ x :: d ∧ Padded a b ∧ Padded c d := by
  obtain ⟨b, rest, rfl, hb, hrest⟩ := h.exists_append
  obtain ⟨d, rfl, hd⟩ := hrest.exists_cons hx
  exact ⟨b, d, rfl, hb, hd⟩

/-- A character that is neither a pad nor a line feed takes both texts apart. -/
theorem exists_of_append_cons (h : Padded text (b ++ x :: d)) (hx : isWhite x = false) :
    ∃ a c, text = a ++ x :: c ∧ Padded a b ∧ Padded c d := by
  generalize hpadded : b ++ x :: d = padded at h
  induction h generalizing b with
  | nil => simp at hpadded
  | @char y s t h ih =>
      cases b with
      | nil =>
          obtain ⟨rfl, rfl⟩ := List.cons_eq_cons.mp hpadded
          exact ⟨[], s, rfl, .nil, h⟩
      | cons z b =>
          obtain ⟨rfl, hrest⟩ := List.cons_eq_cons.mp hpadded
          obtain ⟨a, c, rfl, ha, hc⟩ := ih hrest
          exact ⟨z :: a, c, rfl, .char z ha, hc⟩
  | @pad w s t hw h ih =>
      cases b with
      | nil =>
          obtain ⟨rfl, -⟩ := List.cons_eq_cons.mp hpadded
          exact absurd hw (not_pad_of_isWhite hx)
      | cons z b =>
          obtain ⟨rfl, hrest⟩ := List.cons_eq_cons.mp hpadded
          obtain ⟨a, c, htext, ha, hc⟩ := ih hrest
          cases a with
          | nil =>
              obtain ⟨rfl, -⟩ := List.cons_eq_cons.mp htext
              contradiction
          | cons y a =>
              obtain ⟨rfl, -⟩ := List.cons_eq_cons.mp htext
              exact ⟨_, c, htext, .pad hw ha, hc⟩

theorem count_eq (h : Padded text padded) : padded.count '\n' = text.count '\n' := by
  induction h with
  | nil => rfl
  | char x _ ih => rw [List.count_cons, List.count_cons, ih]
  | pad hw _ ih => rw [List.count_cons_of_ne hw.line, ih]

theorem mem_iff (h : Padded text padded) (hx : ¬Pad x) : x ∈ padded ↔ x ∈ text := by
  induction h with
  | nil => rfl
  | char y _ ih => rw [List.mem_cons, List.mem_cons, ih]
  | @pad w s t hw _ ih =>
      have hne : x ≠ w := by
        rintro rfl
        exact hx hw
      rw [List.mem_cons, ih, or_iff_right hne]

/-- Where no line ends there is no pad. -/
theorem eq_of_notMem (h : Padded text padded) (hline : '\n' ∉ text) : padded = text := by
  induction h with
  | nil => rfl
  | char x _ ih => rw [ih fun hmem => hline (List.mem_cons_of_mem _ hmem)]
  | pad => simp at hline

theorem white_iff (h : Padded text padded) : White padded ↔ White text := by
  induction h with
  | nil => rfl
  | char x _ ih => rw [White, White, List.forall_mem_cons, List.forall_mem_cons, ← White, ih, White]
  | pad hw _ ih =>
      rw [White, List.forall_mem_cons, ← White, ih]
      exact and_iff_right hw.white

theorem head?_eq (h : Padded text padded) (hline : text.head? ≠ some '\n') :
    padded.head? = text.head? := by
  cases h with
  | nil => rfl
  | char => rfl
  | pad => simp at hline

theorem head?_eq_some_iff (h : Padded text padded) (hx : isWhite x = false) :
    text.head? = some x ↔ padded.head? = some x := by
  cases h with
  | nil => rfl
  | char => rfl
  | pad hw =>
      have hline : '\n' ≠ x := by
        rintro rfl
        contradiction
      simp [hline, hw.ne hx]

theorem getLast?_eq (h : Padded text padded) : padded.getLast? = text.getLast? := by
  induction h with
  | nil => rfl
  | char x _ ih => rw [List.getLast?_cons, List.getLast?_cons, ih]
  | pad hw _ ih => rw [List.getLast?_cons, ih, List.getLast?_cons, Option.getD_some]

theorem trimmed (h : Padded text padded) (htext : Trimmed text) : Trimmed padded := by
  have hline : text.head? ≠ some '\n' := by
    intro hhead
    exact absurd (htext.head '\n' hhead) (by decide)
  constructor
  · rw [h.head?_eq hline]
    exact htext.head
  · rw [h.getLast?_eq]
    exact htext.last

theorem trim (h : Padded text padded) : Padded (Text.trim text) (Text.trim padded) := by
  obtain ⟨front, back, hfront, hback, htext⟩ := exists_trim text
  have hcore := trimmed_trim text
  generalize Text.trim text = core at htext hcore ⊢
  subst htext
  obtain ⟨before, back', rfl, hbefore, hback'⟩ := h.exists_append
  obtain ⟨front', core', rfl, hfront', hcore'⟩ := hbefore.exists_append
  rwa [trim_eq (hfront'.white_iff.mpr hfront) (hback'.white_iff.mpr hback) (hcore'.trimmed hcore)]

theorem takeWhile (h : Padded text padded) {p : Char → Bool} (hp : ∀ w, Pad w → p w = p '\n') :
    Padded (text.takeWhile p) (padded.takeWhile p) := by
  induction h with
  | nil => exact .nil
  | char x _ ih =>
      rw [List.takeWhile_cons, List.takeWhile_cons]
      split
      · exact .char x ih
      · exact .nil
  | pad hw _ ih =>
      rw [List.takeWhile_cons] at ih ⊢
      rw [List.takeWhile_cons, hp _ hw]
      split
      · next hline =>
          rw [if_pos hline] at ih
          exact .pad hw ih
      · exact .nil

theorem dropWhile (h : Padded text padded) {p : Char → Bool} (hp : ∀ w, Pad w → p w = p '\n') :
    Padded (text.dropWhile p) (padded.dropWhile p) := by
  induction h with
  | nil => exact .nil
  | char x h ih =>
      rw [List.dropWhile_cons, List.dropWhile_cons]
      split
      · exact ih
      · exact .char x h
  | pad hw h ih =>
      rw [List.dropWhile_cons] at ih ⊢
      rw [List.dropWhile_cons, hp _ hw]
      split
      · next hline =>
          rw [if_pos hline] at ih
          exact ih
      · exact .pad hw h

end Padded

/-! ## Lines -/

/-- Two places are on lines of the same number. -/
def SameLine (text padded : List Char) (place place' : Nat) : Prop :=
  (Position.locate text place).line = (Position.locate padded place').line

/-- A part of one text and a part of another begin on the same line. -/
structure Abreast (text padded : List Char) (place place' : Nat) (part part' : List Char) :
    Prop where
  left : Stands 0 text place part
  right : Stands 0 padded place' part'
  line : SameLine text padded place place'

namespace Stands

variable {offset place : Nat} {text a b : List Char}

theorem refl (text : List Char) : Stands 0 text 0 text :=
  ⟨[], [], by simp, rfl⟩

theorem append_right (h : Stands offset text place (a ++ b)) :
    Stands offset text (place + byteLength a) b := by
  obtain ⟨before, rest, rfl, rfl⟩ := h
  exact ⟨before ++ a, rest, by simp, by rw [byteLength_append, Nat.add_assoc]⟩

end Stands

namespace Abreast

variable {text padded a b c d : List Char} {place place' : Nat}

theorem start (text padded : List Char) : Abreast text padded 0 0 text padded := by
  refine ⟨.refl text, .refl padded, ?_⟩
  have hline : ∀ whole : List Char, (Position.locate whole 0).line = 1 := fun whole =>
    congrArg Position.line (Position.locate_eq (List.nil_prefix (l := whole)))
  rw [SameLine, hline, hline]

theorem append_left (h : Abreast text padded place place' (a ++ c) (b ++ d)) :
    Abreast text padded place place' a b :=
  ⟨h.left.append_left, h.right.append_left, h.line⟩

theorem append_right
    (h : Abreast text padded place place' (a ++ c) (b ++ d)) (hab : Padded a b) :
    Abreast text padded (place + byteLength a) (place' + byteLength b) c d := by
  refine ⟨h.left.append_right, h.right.append_right, ?_⟩
  rw [SameLine, h.left.append_left.line_locate, h.right.append_left.line_locate, h.line,
    hab.count_eq]

theorem tail {x : Char} (h : Abreast text padded place place' (x :: c) (x :: d)) :
    Abreast text padded (place + x.utf8Size) (place' + x.utf8Size) c d := by
  simpa using append_right (a := [x]) (b := [x]) h (.refl [x])

theorem skip_pad {w : Char} (h : Abreast text padded place place' c (w :: d)) (hw : Pad w) :
    Abreast text padded place (place' + w.utf8Size) c d := by
  have hright : Stands 0 padded place' ([w] ++ d) := h.right
  have hline := hright.append_left.line_locate
  rw [List.count_singleton, beq_false_of_ne hw.line] at hline
  refine ⟨h.left, by simpa using hright.append_right, ?_⟩
  rw [SameLine, h.line]
  simpa using hline.symm

end Abreast

end Text

/-! ## Strings -/

namespace Quoting

open Text (Pad Padded)

/-- No line feed of a text comes just after a backslash in a string. -/
def Exposes : Quoting → List Char → Prop
  | _, [] => True
  | s, c :: text => (c = '\n' → ∀ q, s ≠ .escaped q) ∧ Exposes (s.next c) text

variable {s : Quoting} {a b text padded : List Char}

@[simp] theorem exposes_nil (s : Quoting) : s.Exposes [] := trivial

theorem exposes_cons {c : Char} :
    s.Exposes (c :: text) ↔ (c = '\n' → ∀ q, s ≠ .escaped q) ∧ (s.next c).Exposes text :=
  Iff.rfl

theorem exposes_append : s.Exposes (a ++ b) ↔ s.Exposes a ∧ (s.after a).Exposes b := by
  induction a generalizing s with
  | nil => simp
  | cons c a ih => rw [List.cons_append, exposes_cons, exposes_cons, ih, after_cons, and_assoc]

theorem exposes_broken (text : List Char) : broken.Exposes text := by
  induction text with
  | nil => trivial
  | cons c text ih => exact ⟨by simp, ih⟩

theorem next_of_pad {w : Char} (hs : ∀ q, s ≠ .escaped q) (hw : Pad w) : s.next w = s := by
  rw [next_of_neutral hw.notMem_signal fun hline => absurd hline hw.line]
  cases s with
  | escaped q => exact absurd rfl (hs q)
  | _ => rfl

theorem sign_of_pad {w : Char} (hw : Pad w) : s.sign w = .ordinary :=
  sign_of_neutral hw.notMem_signal

end Quoting

namespace Cursor

open Text (Pad Padded)

variable {k : Cursor} {text padded : List Char}

theorem text?_of_pad {w : Char} (hk : ∀ q, k.quoting ≠ .escaped q) (hw : Pad w) :
    k.text? w = some k := by
  rw [text?_eq_some_iff, Quoting.next_of_pad hk hw, Quoting.sign_of_pad hw]
  exact ⟨by simp [Stops, Quoting.sign_of_pad hw], rfl⟩

theorem block?_of_pad {w : Char} (hk : ∀ q, k.quoting ≠ .escaped q) (hw : Pad w) :
    k.block? w = some k := by
  rw [block?_eq_some_iff, Quoting.next_of_pad hk hw, Quoting.sign_of_pad hw]
  exact ⟨by simp [Ends, Quoting.sign_of_pad hw], rfl⟩

theorem readText_padded (h : Padded text padded) (hk : k.quoting.Exposes text) :
    k.readText padded = k.readText text := by
  induction h generalizing k with
  | nil => rfl
  | char x _ ih =>
      rw [readText_cons, readText_cons]
      cases hnext : k.text? x with
      | none => rfl
      | some next =>
          obtain ⟨-, rfl⟩ := text?_eq_some_iff.mp hnext
          exact ih (Quoting.exposes_cons.mp hk).2
  | pad hw _ ih =>
      rw [readText_cons, text?_of_pad ((Quoting.exposes_cons.mp hk).1 rfl) hw]
      exact ih hk

theorem readBlock_padded (h : Padded text padded) (hk : k.quoting.Exposes text) :
    k.readBlock padded = k.readBlock text := by
  induction h generalizing k with
  | nil => rfl
  | char x _ ih =>
      rw [readBlock_cons, readBlock_cons]
      cases hnext : k.block? x with
      | none => rfl
      | some next =>
          obtain ⟨-, rfl⟩ := block?_eq_some_iff.mp hnext
          exact ih (Quoting.exposes_cons.mp hk).2
  | pad hw _ ih =>
      rw [readBlock_cons, block?_of_pad ((Quoting.exposes_cons.mp hk).1 rfl) hw]
      exact ih hk

end Cursor

end ContrastLint

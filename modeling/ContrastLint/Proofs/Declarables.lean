import ContrastLint.Proofs.BytewiseParts

/-!
# What declarations can say

A declaration takes one mark off the end of its value.  What is left may end in a
mark again, may hold colons, and may be empty.  This file states which assignments
can come out, without the reader: the property is a trimmed name without a colon,
the value is trimmed, and a value that is not important does not end in a mark.
Each of them comes out of some text, namely of the text that it is written as.

This holds of both readers.  The one over glyphs is given any stretch of the glyphs
of a text, the one over bytes any two offsets.
-/

namespace ContrastLint

namespace Assignment

open Text

variable {text : List Char} {a : Assignment}

/-- The text ends in an exclamation mark and the word `important`, in any case and with
white space between them. -/
def Marked (text : List Char) : Prop :=
  ∃ stem inside word, White inside ∧ word.map Char.toLower = "important".toList ∧
    text = stem ++ '!' :: (inside ++ word)

/-- The assignments that a declaration can make. -/
structure Declarable (a : Assignment) : Prop where
  named : a.property ≠ ""
  property : Trimmed a.property.toList
  noColon : ':' ∉ a.property.toList
  value : Trimmed a.value.toList
  mark : a.important = true ∨ ¬Marked a.value.toList

theorem marked_iff_exists_mark : Marked text ↔ ∃ stem mark, Mark mark ∧ text = stem ++ mark := by
  constructor
  · rintro ⟨stem, inside, word, hinside, hword, rfl⟩
    exact ⟨stem, _, ⟨[], inside, word, white_nil, hinside, hword, rfl⟩, rfl⟩
  · rintro ⟨stem, _, ⟨before, inside, word, -, hinside, hword, rfl⟩, rfl⟩
    exact ⟨stem ++ before, inside, word, hinside, hword, by simp⟩

theorem importantStem?_eq_none_iff : importantStem? text = none ↔ ¬Marked text := by
  rw [marked_iff_exists_mark]
  constructor
  · rintro hnone ⟨front, mark, hmark, rfl⟩
    rw [importantStem?_append_mark front hmark] at hnone
    contradiction
  · intro hunmarked
    cases hstem : importantStem? text with
    | none => rfl
    | some stem =>
        obtain ⟨mark, hmark, htext⟩ := mark_of_importantStem? hstem
        exact absurd ⟨stem, mark, hmark, htext⟩ hunmarked

theorem legible_iff_declarable : a.Legible ↔ a.Declarable := by
  have hnamed : a.property.toList ≠ [] ↔ a.property ≠ "" := by
    rw [Ne, Ne, String.toList_eq_nil_iff]
  have hmark : (a.important = false → importantStem? a.value.toList = none) ↔
      (a.important = true ∨ ¬Marked a.value.toList) := by
    rw [importantStem?_eq_none_iff]
    cases a.important <;> simp
  constructor
  · intro h
    exact ⟨hnamed.mp h.nonempty, h.property, h.noColon, h.value, hmark.mp h.unmarked⟩
  · intro h
    exact ⟨h.property, hnamed.mpr h.named, h.noColon, h.value, hmark.mpr h.mark⟩

end Assignment

/-! ## Declarations of glyphs -/

/-- What a declaration says depends on its characters alone. -/
theorem Declaration.map_ofGlyphs? (glyphs : List Glyph) :
    (ofGlyphs? glyphs).map (·.toAssignment) = Assignment.read? (Glyph.chars glyphs) := by
  unfold ofGlyphs?
  cases ha : Assignment.read? (Glyph.chars glyphs) with
  | none => rfl
  | some a =>
      obtain ⟨c, rest, hfirst, -⟩ := Assignment.exists_first_of_read? ha
      rw [Glyph.chars, List.dropWhile_map] at hfirst
      obtain ⟨first, others, hglyphs, -, -⟩ := List.map_eq_cons_iff.mp hfirst
      have hdrop : glyphs.dropWhile (Text.isWhite ·.char) = first :: others := hglyphs
      rw [hdrop]
      rfl

/-! ## Writing and reading again -/

namespace Assignment

theorem Declarable.read?_render {a : Assignment} (h : a.Declarable) :
    read? a.render.toList = some a :=
  (legible_iff_declarable.mpr h).read?_render

theorem declarable_of_read? {text : List Char} {a : Assignment} (h : read? text = some a) :
    a.Declarable :=
  legible_iff_declarable.mp (legible_of_read? h)

theorem Declarable.takeWhile_render {a : Assignment} (h : a.Declarable) :
    a.render.toList.takeWhile Text.isWhite = [] := by
  have hne : a.property.toList ≠ [] := (legible_iff_declarable.mpr h).nonempty
  have hhead : ∀ c ∈ a.render.toList.head?, Text.isWhite c = false := by
    rw [toList_render, List.head?_append_of_ne_nil _ hne]
    exact h.property.head
  exact Text.takeWhile_isWhite_append Text.white_nil hhead

end Assignment

/-- Wherever a text has what an assignment is written as, a declaration of these bytes
makes the assignment and stands where they begin. -/
theorem Bytewise.gives_declaration_render
    {a : Assignment} (h : a.Declarable) {css text rest : List Char} {start : Nat}
    (hstart : Text.Boundary css start) (hat : At text start (a.render.toList ++ rest)) :
    Gives css (declaration text start (start + Text.byteLength a.render.toList)) [start]
      (.ok (some ⟨a, Position.locate css start⟩)) := by
  have hplace : start + Text.byteLength (a.render.toList.takeWhile Text.isWhite) = start := by
    rw [h.takeWhile_render]
    rfl
  have hboundary : ∀ b, Assignment.read? a.render.toList = some b → Text.Boundary css
      (start + Text.byteLength (a.render.toList.takeWhile Text.isWhite)) := by
    intro _ _
    rwa [hplace]
  have hgives := gives_declaration_of_slice (slice_of_at hat) hboundary
  rw [ofGlyphs?_ofCharsFrom, h.read?_render, hplace] at hgives
  exact hgives

/-- The assignments that declarations make, of whatever glyphs and between whatever
offsets, are the declarable ones.  Each of these is made again, and is the same, where
a declaration has what the assignment is written as. -/
theorem declared_iff_declarable (a : Assignment) :
    ((∃ text glyphs, glyphs <:+: Glyph.ofChars text ∧
        (Declaration.ofGlyphs? glyphs).map (·.toAssignment) = some a) ↔ a.Declarable) ∧
      ((∃ text start stop q place next,
          (Bytewise.declaration text start stop).run.run q = (.ok (some ⟨a, place⟩), next)) ↔
        a.Declarable) ∧
      (a.Declarable →
        (∀ glyphs, Glyph.chars glyphs = a.render.toList →
          (Declaration.ofGlyphs? glyphs).map (·.toAssignment) = some a) ∧
        ∀ css text start rest, Text.Boundary css start →
          Bytewise.At text start (a.render.toList ++ rest) →
          Bytewise.Gives css
            (Bytewise.declaration text start (start + Text.byteLength a.render.toList)) [start]
            (.ok (some ⟨a, Position.locate css start⟩))) := by
  have hglyphs : a.Declarable → ∀ glyphs, Glyph.chars glyphs = a.render.toList →
      (Declaration.ofGlyphs? glyphs).map (·.toAssignment) = some a := by
    intro h glyphs hchars
    rw [Declaration.map_ofGlyphs?, hchars]
    exact h.read?_render
  refine ⟨⟨?made, ?makes⟩, ⟨?declared, ?declares⟩,
    fun h => ⟨hglyphs h, fun _ _ _ _ => Bytewise.gives_declaration_render h⟩⟩
  case made =>
    rintro ⟨text, glyphs, -, hmade⟩
    rw [Declaration.map_ofGlyphs?] at hmade
    exact Assignment.declarable_of_read? hmade
  case makes =>
    intro h
    exact ⟨a.render.toList, _, List.infix_rfl, hglyphs h _ (Glyph.chars_ofCharsFrom _ _ _)⟩
  case declared =>
    rintro ⟨text, start, stop, q, place, next, hrun⟩
    obtain ⟨raw, -, hread⟩ := Bytewise.exists_slice_of_run_declaration hrun
    exact Assignment.declarable_of_read? hread
  case declares =>
    intro h
    -- The text is what the assignment is written as, and nothing else.
    have hat := Bytewise.at_zero (a.render.toList ++ [])
    have hstart : Text.Boundary a.render.toList 0 := ⟨[], List.nil_prefix, rfl⟩
    obtain ⟨locator, -, hrun⟩ := (Bytewise.gives_declaration_render h hstart hat).run ⟨_, []⟩
      (Locator.coherent_ofText a.render.toList)
    exact ⟨_, _, _, _, _, _, hrun⟩

/-- The case of a value that holds a colon and ends in a mark itself, of an empty value,
and of a value that ends in a mark and is not important. -/
theorem declared_iff_declarable_marked :
    (Declaration.ofGlyphs? (Glyph.ofChars "p: a:b! !important !important".toList)).map
        (·.toAssignment) = some ⟨"p", "a:b! !important", true⟩ ∧
      (Declaration.ofGlyphs? (Glyph.ofChars "p: ".toList)).map (·.toAssignment) =
        some ⟨"p", "", false⟩ ∧
      ∀ text glyphs, glyphs <:+: Glyph.ofChars text →
        (Declaration.ofGlyphs? glyphs).map (·.toAssignment) ≠ some ⟨"p", "a ! Important", false⟩ := by
  have hname : Text.Trimmed "p".toList := ⟨by simp [Text.isWhite], by simp [Text.isWhite]⟩
  refine ⟨?marked, ?empty, ?unmarked⟩
  case marked =>
    have h : Assignment.Declarable ⟨"p", "a:b! !important", true⟩ :=
      ⟨by decide, hname, by decide, ⟨by simp [Text.isWhite], by simp [Text.isWhite]⟩, .inl rfl⟩
    exact ((declared_iff_declarable _).2.2 h).1 _ (by decide)
  case empty =>
    have h : Assignment.Declarable ⟨"p", "", false⟩ :=
      ⟨by decide, hname, by decide, Text.trimmed_nil,
        .inr (Assignment.importantStem?_eq_none_iff.mp (by decide))⟩
    exact ((declared_iff_declarable _).2.2 h).1 _ (by decide)
  case unmarked =>
    intro text glyphs hslice hmade
    have h := (declared_iff_declarable _).1.mp ⟨text, glyphs, hslice, hmade⟩
    refine h.mark.resolve_left (by decide) ?_
    exact ⟨['a', ' '], [' '], "Important".toList, Text.white_space, by decide, by decide⟩

end ContrastLint

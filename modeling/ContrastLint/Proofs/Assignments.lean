import ContrastLint.Proofs.Trim
import ContrastLint.Stylesheet.Document

/-!
# What an assignment says of its text

An assignment is read from the two sides of the first colon.  This file states
what it keeps of them: the property is the trimmed left side, and the value
followed by the mark is the trimmed right side.  An assignment of these shapes
can be laid out in many ways.  It is read from exactly the texts that lay it
out, and what it is written as is one of them.
-/

namespace ContrastLint.Assignment

open Text

/-- The texts that mark a value as important, with the white space before the
mark. -/
def Mark (mark : List Char) : Prop :=
  ∃ before inside word, White before ∧ White inside ∧
    word.map Char.toLower = "important".toList ∧ mark = before ++ '!' :: (inside ++ word)

theorem length_of_map_toLower
    {word name : List Char} (h : word.map Char.toLower = name) :
    word.length = name.length := by
  rw [← h, List.length_map]

theorem toLower_of_isWhite {c : Char} (hc : isWhite c = true) : c.toLower = c := by
  have hlower : ¬(c.val ≥ 'A'.val ∧ c.val ≤ 'Z'.val) := by
    rintro ⟨hlow, hhigh⟩
    have hlow : 65 ≤ c.toNat := hlow
    have hhigh : c.toNat ≤ 90 := hhigh
    simp [isWhite] at hc
    omega
  exact dif_neg hlower

theorem isWhite_of_mem_important
    {word : List Char} (h : word.map Char.toLower = "important".toList) {c : Char}
    (hc : c ∈ word) : isWhite c = false := by
  have hletters : "important".toList.any isWhite = false := by decide
  have hlower : c.toLower ∈ "important".toList := by
    rw [← h]
    exact List.mem_map_of_mem hc
  rw [← Bool.not_eq_true]
  intro hwhite
  rw [toLower_of_isWhite hwhite] at hlower
  exact List.any_eq_false.mp hletters c hlower hwhite

theorem head?_of_important
    {word : List Char} (h : word.map Char.toLower = "important".toList) :
    ∀ c ∈ word.head?, isWhite c = false :=
  fun _ hc => isWhite_of_mem_important h (List.mem_of_mem_head? hc)

theorem Mark.last {mark : List Char} (h : Mark mark) :
    ∀ c ∈ mark.getLast?, isWhite c = false := by
  rcases h with ⟨before, inside, word, -, -, hword, rfl⟩
  have hne : word ≠ [] := by
    rintro rfl
    contradiction
  intro c hc
  rw [← List.cons_append, ← List.append_assoc, List.getLast?_append_of_ne_nil _ hne] at hc
  exact isWhite_of_mem_important hword (List.mem_of_mem_getLast? hc)

theorem mark_of_importantStem?
    {value stem : List Char} (h : importantStem? value = some stem) :
    ∃ mark, Mark mark ∧ value = stem ++ mark := by
  unfold importantStem? at h
  simp only at h
  split at h
  · next hword =>
      split at h
      · next tail htail =>
          cases h
          obtain ⟨inside, hinside, hrest⟩ :=
            exists_white_append (value.reverse.drop "important".toList.length)
          obtain ⟨before, hbefore, hstem⟩ := exists_white_append tail
          have hvalue : value.reverse = value.reverse.take "important".toList.length ++
              (inside ++ '!' :: (before ++ trimStart tail)) := by
            rw [← hstem, ← htail]
            exact (List.take_append_drop _ _).symm.trans (congrArg _ hrest)
          generalize value.reverse.take "important".toList.length = word at hword hvalue
          refine ⟨before.reverse ++ '!' :: (inside.reverse ++ word.reverse),
            ⟨_, _, _, hbefore.reverse, hinside.reverse, ?_, rfl⟩, ?_⟩
          · rw [List.map_reverse, hword, List.reverse_reverse]
          · rw [← List.reverse_reverse value, hvalue]
            simp [trimStart]
      · contradiction
  · contradiction

theorem importantStem?_append_of_last
    {stem mark : List Char} (hmark : Mark mark) (hlast : ∀ c ∈ stem.getLast?, isWhite c = false) :
    importantStem? (stem ++ mark) = some stem := by
  rcases hmark with ⟨before, inside, word, hbefore, hinside, hword, rfl⟩
  have hlength : word.reverse.length = "important".toList.length := by
    rw [List.length_reverse, length_of_map_toLower hword]
  have hreverse : (stem ++ (before ++ '!' :: (inside ++ word))).reverse =
      word.reverse ++ (inside.reverse ++ '!' :: (before.reverse ++ stem.reverse)) := by
    simp
  have htake : (word.reverse ++ (inside.reverse ++ '!' :: (before.reverse ++ stem.reverse))).take
      "important".toList.length = word.reverse :=
    List.take_left' hlength
  have hdrop : (word.reverse ++ (inside.reverse ++ '!' :: (before.reverse ++ stem.reverse))).drop
      "important".toList.length = inside.reverse ++ '!' :: (before.reverse ++ stem.reverse) :=
    List.drop_left' hlength
  have hinner : (inside.reverse ++ '!' :: (before.reverse ++ stem.reverse)).dropWhile isWhite =
      '!' :: (before.reverse ++ stem.reverse) :=
    dropWhile_isWhite_append hinside.reverse (by simp [isWhite])
  have houter : (before.reverse ++ stem.reverse).dropWhile isWhite = stem.reverse :=
    dropWhile_isWhite_append hbefore.reverse (by simpa using hlast)
  unfold importantStem?
  simp only [hreverse, htake, hdrop]
  rw [if_pos (by rw [List.map_reverse, hword]), hinner]
  simp [houter]

theorem importantStem?_append
    {stem mark : List Char} (hmark : Mark mark) (hstem : Trimmed stem) :
    importantStem? (stem ++ mark) = some stem :=
  importantStem?_append_of_last hmark hstem.last

/-- One mark is taken off, whatever stands before it. -/
theorem importantStem?_append_mark
    {mark : List Char} (text : List Char) (hmark : Mark mark) :
    importantStem? (text ++ mark) = some (trimEnd text) := by
  obtain ⟨w, hw, htext⟩ := exists_trimEnd_append text
  rcases hmark with ⟨before, inside, word, hbefore, hinside, hword, rfl⟩
  have hlast : ∀ c ∈ (trimEnd text).getLast?, isWhite c = false := by
    rw [trimEnd, List.getLast?_reverse]
    exact head?_trimStart text.reverse
  have hmore : Mark ((w ++ before) ++ '!' :: (inside ++ word)) :=
    ⟨_, _, _, hw.append hbefore, hinside, hword, rfl⟩
  have hsplit : text ++ (before ++ '!' :: (inside ++ word)) =
      trimEnd text ++ ((w ++ before) ++ '!' :: (inside ++ word)) := by
    conv_lhs => rw [htext]
    simp
  rw [hsplit]
  exact importantStem?_append_of_last hmore hlast

theorem trimmed_of_importantStem?
    {value stem : List Char} (hvalue : Trimmed value) (h : importantStem? value = some stem) :
    Trimmed stem := by
  constructor
  · rcases mark_of_importantStem? h with ⟨mark, -, rfl⟩
    intro c hc
    exact hvalue.head c (List.mem_head?_append_of_mem_head? hc)
  · unfold importantStem? at h
    simp only at h
    split at h
    · split at h
      · next tail htail =>
          cases h
          rw [List.getLast?_reverse]
          exact head?_trimStart tail
      · contradiction
    · contradiction

/-! ## Reading -/

/-- What an assignment keeps of the two sides of the colon. -/
structure Keeps (a : Assignment) (left right : List Char) : Prop where
  property : a.property.toList = trim left
  nonempty : trim left ≠ []
  value :
    ∃ mark, trim right = a.value.toList ++ mark ∧
      if a.important then Mark mark else mark = []
  trimmed : Trimmed a.value.toList
  unmarked : a.important = false → importantStem? (trim right) = none

theorem exists_first_colon (text : List Char) :
    ':' ∉ text ∨ ∃ left right, ':' ∉ left ∧ text = left ++ ':' :: right := by
  by_cases h : ':' ∈ text
  · rcases List.eq_append_cons_of_mem h with ⟨left, right, htext, hleft⟩
    exact .inr ⟨left, right, hleft, htext⟩
  · exact .inl h

theorem split_at_colon {left : List Char} (right : List Char) (hleft : ':' ∉ left) :
    (left ++ ':' :: right).takeWhile (· ≠ ':') = left ∧
      (left ++ ':' :: right).dropWhile (· ≠ ':') = ':' :: right := by
  have hpass : ∀ c ∈ left, (decide (c ≠ ':')) = true := by
    intro c hc
    rw [decide_eq_true_eq]
    rintro rfl
    exact hleft hc
  constructor
  · rw [List.takeWhile_append_of_pos hpass]
    simp
  · rw [List.dropWhile_append_of_pos hpass]
    simp

theorem read?_append {left right : List Char} (hleft : ':' ∉ left) :
    read? (left ++ ':' :: right) =
      if trim left = [] then none
      else
        match importantStem? (trim right) with
        | some stem => some ⟨.ofList (trim left), .ofList stem, true⟩
        | none => some ⟨.ofList (trim left), .ofList (trim right), false⟩ := by
  rcases split_at_colon right hleft with ⟨htake, hdrop⟩
  unfold read?
  rw [htake, hdrop]
  by_cases hname : trim left = []
  · simp [hname]
  · cases hstem : importantStem? (trim right) <;> simp [hname, hstem]

theorem read?_of_notMem {text : List Char} (h : ':' ∉ text) : read? text = none := by
  have hdrop : text.dropWhile (· ≠ ':') = [] := by
    rw [List.dropWhile_eq_nil_iff]
    intro c hc
    rw [decide_eq_true_eq]
    rintro rfl
    exact h hc
  unfold read?
  rw [hdrop]

/-- A text is read as an assignment if and only if the left side of its first
colon is not blank. -/
theorem read?_eq_none_iff {text : List Char} :
    read? text = none ↔
      ∀ left right, text = left ++ ':' :: right → ':' ∉ left → trim left = [] := by
  constructor
  · rintro h left right rfl hleft
    rw [read?_append hleft] at h
    by_contra hempty
    rw [if_neg hempty] at h
    split at h <;> contradiction
  · intro h
    rcases exists_first_colon text with hnone | ⟨left, right, hleft, rfl⟩
    · exact read?_of_notMem hnone
    · rw [read?_append hleft, if_pos (h left right rfl hleft)]

theorem exists_read?_append
    {left : List Char} (right : List Char) (hleft : ':' ∉ left) (hne : trim left ≠ []) :
    ∃ a, read? (left ++ ':' :: right) = some a := by
  rw [read?_append hleft, if_neg hne]
  split
  · exact ⟨_, rfl⟩
  · exact ⟨_, rfl⟩

theorem keeps_of_read?_append
    {left right : List Char} {a : Assignment} (hleft : ':' ∉ left)
    (h : read? (left ++ ':' :: right) = some a) : a.Keeps left right := by
  rw [read?_append hleft] at h
  split at h
  · contradiction
  · next hempty =>
      split at h
      · next stem hstem =>
          cases h
          rcases mark_of_importantStem? hstem with ⟨mark, hmark, hvalue⟩
          have htrimmed := trimmed_of_importantStem? (trimmed_trim right) hstem
          exact ⟨by simp, hempty, ⟨mark, by simpa using hvalue, hmark⟩, by simpa, by simp⟩
      · next hstem =>
          cases h
          have htrimmed := trimmed_trim right
          exact ⟨by simp, hempty, ⟨[], by simp, rfl⟩, by simpa, fun _ => hstem⟩

theorem keeps_of_read?
    {text : List Char} {a : Assignment} (h : read? text = some a) :
    ∃ left right, text = left ++ ':' :: right ∧ ':' ∉ left ∧ a.Keeps left right := by
  rcases exists_first_colon text with hnone | ⟨left, right, hleft, rfl⟩
  · rw [read?_of_notMem hnone] at h
    contradiction
  · exact ⟨left, right, rfl, hleft, keeps_of_read?_append hleft h⟩

theorem read?_of_keeps
    {left right : List Char} {a : Assignment} (hleft : ':' ∉ left) (h : a.Keeps left right) :
    read? (left ++ ':' :: right) = some a := by
  rw [read?_append hleft, if_neg h.nonempty, ← h.property]
  rcases h.value with ⟨mark, hright, hmark⟩
  cases himportant : a.important with
  | false =>
      obtain rfl : mark = [] := by simpa [himportant] using hmark
      rw [h.unmarked himportant, hright]
      cases a
      simp_all
  | true =>
      rw [if_pos himportant] at hmark
      rw [hright, importantStem?_append hmark h.trimmed]
      cases a
      simp_all

theorem colon_notMem_of_white {w : List Char} (hw : White w) : ':' ∉ w := by
  intro hmem
  exact absurd (hw ':' hmem) (by decide)

theorem read?_white_append
    {w text : List Char} (hw : White w) : read? (w ++ text) = read? text := by
  have hcolon := colon_notMem_of_white hw
  rcases exists_first_colon text with hnone | ⟨left, right, hleft, rfl⟩
  · rw [read?_of_notMem hnone, read?_of_notMem (by simp [hcolon, hnone])]
  · rw [← List.append_assoc, read?_append hleft, read?_append (by simp [hcolon, hleft]),
      trim_append_left hw]

/-! ## Legible assignments -/

/-- The assignments that can be read from a text. -/
structure Legible (a : Assignment) : Prop where
  property : Trimmed a.property.toList
  nonempty : a.property.toList ≠ []
  noColon : ':' ∉ a.property.toList
  value : Trimmed a.value.toList
  unmarked : a.important = false → importantStem? a.value.toList = none

theorem legible_of_read?
    {text : List Char} {a : Assignment} (h : read? text = some a) : a.Legible := by
  rcases keeps_of_read? h with ⟨left, right, rfl, hleft, hkeeps⟩
  obtain ⟨front, back, -, -, htrim⟩ := exists_trim left
  constructor
  case property =>
    rw [hkeeps.property]
    exact trimmed_trim left
  case nonempty =>
    rw [hkeeps.property]
    exact hkeeps.nonempty
  case noColon =>
    rw [hkeeps.property]
    intro hmem
    rw [htrim] at hleft
    exact hleft (by simp [hmem])
  case value => exact hkeeps.trimmed
  case unmarked =>
    intro himportant
    rcases hkeeps.value with ⟨mark, hright, hmark⟩
    obtain rfl : mark = [] := by simpa [himportant] using hmark
    rw [← List.append_nil a.value.toList, ← hright]
    exact hkeeps.unmarked himportant

/-! ## Layouts -/

/-- The text is a layout of the assignment: its parts, with white space around
each of them, the colon, and a mark if there has to be one. -/
def LaidOut (a : Assignment) (text : List Char) : Prop :=
  ∃ front before after mark back,
    White front ∧ White before ∧ White after ∧ White back ∧
    (if a.important then Mark mark else mark = []) ∧
    text = front ++ (a.property.toList ++ ((before ++ ':' :: after) ++
      (a.value.toList ++ (mark ++ back))))

theorem laidOut_of_read?
    {text : List Char} {a : Assignment} (h : read? text = some a) : a.LaidOut text := by
  rcases keeps_of_read? h with ⟨left, right, rfl, -, hkeeps⟩
  obtain ⟨front, before, hfront, hbefore, hleft⟩ := exists_trim left
  obtain ⟨after, back, hafter, hback, hright⟩ := exists_trim right
  rcases hkeeps.value with ⟨mark, hvalue, hmark⟩
  refine ⟨front, before, after, mark, back, hfront, hbefore, hafter, hback, hmark, ?_⟩
  have htext : left ++ ':' :: right = (front ++ trim left ++ before) ++
      ':' :: (after ++ (a.value.toList ++ mark) ++ back) := by
    rw [← hleft, ← hvalue, ← hright]
  rw [htext, hkeeps.property]
  simp

theorem exists_trim_marked
    {after value mark back : List Char} (hafter : White after) (hback : White back)
    (hvalue : Trimmed value) (hmark : Mark mark) :
    ∃ mark', Mark mark' ∧ trim (after ++ (value ++ mark) ++ back) = value ++ mark' := by
  by_cases hempty : value = []
  · -- Nothing keeps the white space before the mark, so another mark is left.
    subst hempty
    rcases hmark with ⟨before, inside, word, hbefore, hinside, hword, rfl⟩
    have hbare : Mark ('!' :: (inside ++ word)) :=
      ⟨[], inside, word, white_nil, hinside, hword, rfl⟩
    have hends : Trimmed ('!' :: (inside ++ word)) := ⟨by simp [isWhite], hbare.last⟩
    refine ⟨_, hbare, ?_⟩
    simpa using trim_eq (hafter.append hbefore) hback hends
  · have hne : mark ≠ [] := by
      rcases hmark with ⟨before, inside, word, -, -, -, rfl⟩
      simp
    have hends : Trimmed (value ++ mark) := by
      constructor
      case head =>
        rw [List.head?_append_of_ne_nil value hempty]
        exact hvalue.head
      case last =>
        rw [List.getLast?_append_of_ne_nil _ hne]
        exact hmark.last
    exact ⟨mark, hmark, trim_eq hafter hback hends⟩

theorem Legible.read?_of_laidOut
    {a : Assignment} {text : List Char} (h : a.Legible) (hlayout : a.LaidOut text) :
    read? text = some a := by
  rcases hlayout with
    ⟨front, before, after, mark, back, hfront, hbefore, hafter, hback, hmark, rfl⟩
  have htext : front ++ (a.property.toList ++ ((before ++ ':' :: after) ++
      (a.value.toList ++ (mark ++ back)))) = (front ++ a.property.toList ++ before) ++
        ':' :: (after ++ (a.value.toList ++ mark) ++ back) := by
    simp
  have hproperty := trim_eq hfront hbefore h.property
  have hleft : ':' ∉ front ++ a.property.toList ++ before := by
    simp [colon_notMem_of_white hfront, colon_notMem_of_white hbefore, h.noColon]
  rw [htext]
  apply read?_of_keeps hleft
  constructor
  case property => exact hproperty.symm
  case nonempty =>
    rw [hproperty]
    exact h.nonempty
  case trimmed => exact h.value
  case value =>
    cases himportant : a.important with
    | false =>
        obtain rfl : mark = [] := by simpa [himportant] using hmark
        exact ⟨[], by simpa using trim_eq hafter hback h.value, rfl⟩
    | true =>
        rw [if_pos himportant] at hmark
        obtain ⟨mark', hmark', htrim⟩ := exists_trim_marked hafter hback h.value hmark
        exact ⟨mark', htrim, hmark'⟩
  case unmarked =>
    intro himportant
    obtain rfl : mark = [] := by simpa [himportant] using hmark
    rw [List.append_nil, trim_eq hafter hback h.value]
    exact h.unmarked himportant

/-- The texts that are read as an assignment are its layouts. -/
theorem read?_eq_some_iff {text : List Char} {a : Assignment} :
    read? text = some a ↔ a.Legible ∧ a.LaidOut text := by
  constructor
  · intro h
    exact ⟨legible_of_read? h, laidOut_of_read? h⟩
  · rintro ⟨hlegible, hlayout⟩
    exact hlegible.read?_of_laidOut hlayout

/-! ## Writing and reading again -/

def writtenMark (important : Bool) : List Char :=
  if important then " !important".toList else []

theorem toList_render (a : Assignment) :
    a.render.toList =
      a.property.toList ++ (':' :: ' ' :: (a.value.toList ++ writtenMark a.important)) := by
  unfold render writtenMark
  cases a.important <;> simp

theorem mark_written : Mark (writtenMark true) :=
  ⟨[' '], [], "important".toList, by simp [White, isWhite], by simp, by decide, rfl⟩

theorem laidOut_render (a : Assignment) : a.LaidOut a.render.toList := by
  refine ⟨[], [], [' '], writtenMark a.important, [], white_nil, white_nil, white_space, white_nil,
    ?_, ?_⟩
  · cases a.important with
    | false => simp [writtenMark]
    | true => exact mark_written
  · rw [toList_render]
    simp

theorem Legible.read?_render {a : Assignment} (h : a.Legible) :
    read? a.render.toList = some a :=
  read?_eq_some_iff.mpr ⟨h, a.laidOut_render⟩

theorem Legible.read?_white_render
    {a : Assignment} {lead : List Char} (h : a.Legible) (hlead : White lead) :
    read? (lead ++ a.render.toList) = some a := by
  rw [read?_white_append hlead]
  exact h.read?_render

theorem exists_first_of_read?
    {text : List Char} {a : Assignment} (h : read? text = some a) :
    ∃ c rest, text.dropWhile isWhite = c :: rest ∧ isWhite c = false := by
  cases hrest : text.dropWhile isWhite with
  | nil =>
      have hwhite : White text := List.dropWhile_eq_nil_iff.mp hrest
      rw [read?_of_notMem (colon_notMem_of_white hwhite)] at h
      contradiction
  | cons c rest =>
      have hc := List.head?_dropWhile_not isWhite text
      rw [hrest] at hc
      exact ⟨c, rest, rfl, by simpa using hc⟩

theorem head?_property
    {text : List Char} {a : Assignment} (h : read? text = some a) :
    a.property.toList.head? = (trim text).head? := by
  obtain ⟨front, before, after, mark, back, hfront, -, -, -, -, rfl⟩ := laidOut_of_read? h
  have hlegible := legible_of_read? h
  obtain ⟨c, rest, hproperty⟩ := List.exists_cons_of_ne_nil hlegible.nonempty
  have hwhite : isWhite c = false := hlegible.property.head c (by rw [hproperty]; rfl)
  rw [trim_append_left hfront, hproperty]
  exact (head?_trim rfl hwhite).symm

end ContrastLint.Assignment
